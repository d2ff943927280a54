import Mathlib.Data.Nat.ModEq
import Mathlib.Tactic.IntervalCases
import Mathlib.Tactic.Linarith
import HardwareIntel.Library.Planes
import HardwareIntel.Library.Writes

/-!
# Rotation of NV12 frames

`nv12rotateBy90` has a plain loop, and code for fixed geometries that moves pieces of four lines and
sixteen columns through the registers of SSE. Both write every byte of the rotated frame, and no
other one: `fast_eq_generic`. Offsets are relative to the two frames; pointers and integers of 32
bits wrap around in the same way.
-/

namespace HardwareIntel.Camera.Nv12Rotation

open List

/-! ## The plain loop -/

def storeByte (pos : ℤ) (v : UInt8) : Write ℤ UInt8 := fun a => if a = pos then some v else none

/-- `genericRotateBy90`, from the writes of its two loops. -/
def genericRotateBy90 (width height : ℕ) (rstride wstride : ℤ) (a : ℤ → UInt8) :
    List (Write ℤ UInt8) :=
  let luma := (List.range width).flatMap fun i : ℕ =>
    (List.range height).reverse.map fun j : ℕ =>
      storeByte (i * wstride + (height - j - 1)) (a (i + j * rstride))
  let chroma := (List.range ((width + 1) / 2)).flatMap fun i : ℕ =>
    (List.range ((height + 1) / 2)).flatMap fun k : ℕ =>
      let b : ℤ := (width + i) * wstride
      let j : ℤ := height - 2 * k
      [storeByte (b + (height - j)) (a (rstride * height + (2 * i + (j / 2 - 1) * rstride))),
        storeByte (b + (height - j + 1))
          (a (rstride * height + (2 * i + 1 + (j / 2 - 1) * rstride)))]
  luma ++ chroma

/-! ## The registers -/

/-- The bytes of a register, from the lowest. -/
abbrev Xmm := ℕ → UInt8

def movdqu (source : ℤ → UInt8) (pos : ℤ) : Xmm := fun i => source (pos + i)

/-- Bytes of the second register and of the first one in turns, from a byte on. -/
def unpackBytes (base : ℕ) (src dst : Xmm) : Xmm := fun i =>
  if i % 2 = 0 then dst (base + i / 2) else src (base + i / 2)

/-- Words of the second register and of the first one in turns, from a byte on. -/
def unpackWords (base : ℕ) (src dst : Xmm) : Xmm := fun i =>
  if i % 4 < 2 then dst (base + 2 * (i / 4) + i % 2) else src (base + 2 * (i / 4) + i % 2)

def punpcklbw (src dst : Xmm) : Xmm := unpackBytes 0 src dst
def punpckhbw (src dst : Xmm) : Xmm := unpackBytes 8 src dst
def punpcklwd (src dst : Xmm) : Xmm := unpackWords 0 src dst
def punpckhwd (src dst : Xmm) : Xmm := unpackWords 8 src dst

/-- `psrldq $4`. -/
def psrldq4 (x : Xmm) : Xmm := fun i => if i + 4 < 16 then x (i + 4) else 0

/-- `movd` stores the four lowest bytes. -/
def movd (x : Xmm) (pos : ℤ) : Write ℤ UInt8 := fun a =>
  if pos ≤ a ∧ a < pos + 4 then some (x (a - pos).toNat) else none

/-! ## The fast code -/

section Fast

variable (RSTRIDE WSTRIDE : ℤ) (source : ℤ → UInt8)

/-- One round of `rotateXx4x##RSTRIDE##x##WSTRIDE##Y`. -/
def round16x4 (esi edi : ℤ) : List (Write ℤ UInt8) :=
  let xmm0 := movdqu source esi
  let xmm1 := movdqu source (esi + RSTRIDE)
  let xmm2 := movdqu source (esi + 2 * RSTRIDE)
  let xmm3 := movdqu source (esi + 3 * RSTRIDE)
  let xmm4 := punpcklbw xmm0 xmm1
  let xmm5 := punpcklbw xmm2 xmm3
  let xmm6 := punpckhbw xmm0 xmm1
  let xmm7 := punpckhbw xmm2 xmm3
  let first := punpcklwd xmm4 xmm5
  let second := punpckhwd xmm4 xmm5
  let third := punpcklwd xmm6 xmm7
  let fourth := punpckhwd xmm6 xmm7
  (List.range 4).flatMap fun k : ℕ =>
    [movd (psrldq4^[k] first) (edi + k * WSTRIDE),
      movd (psrldq4^[k] second) (edi + (4 + k) * WSTRIDE),
      movd (psrldq4^[k] third) (edi + (8 + k) * WSTRIDE),
      movd (psrldq4^[k] fourth) (edi + (12 + k) * WSTRIDE)]

/-- `rotateXx4x##RSTRIDE##x##WSTRIDE##Y`. The loop ends when the source meets its terminator,
`columns` further on, so `columns` has to be a positive multiple of 16. -/
def rotateXx4Y (source : ℤ → UInt8) (s t : ℤ) (columns : ℕ) : List (Write ℤ UInt8) :=
  (List.range (columns / 16)).flatMap fun n : ℕ =>
    round16x4 RSTRIDE WSTRIDE source (s + 16 * n) (t + n * (16 * WSTRIDE))

/-- One round of `rotateXx4x##RSTRIDE##x##WSTRIDE##UV`. -/
def round16x2 (esi edi : ℤ) : List (Write ℤ UInt8) :=
  let xmm0 := movdqu source esi
  let xmm1 := movdqu source (esi + RSTRIDE)
  let low := punpcklwd xmm0 xmm1
  let high := punpckhwd xmm0 xmm1
  (List.range 4).flatMap fun k : ℕ =>
    [movd (psrldq4^[k] low) (edi + k * WSTRIDE), movd (psrldq4^[k] high) (edi + (4 + k) * WSTRIDE)]

/-- `rotateXx4x##RSTRIDE##x##WSTRIDE##UV`, with the same end of the loop. -/
def rotateXx4UV (source : ℤ → UInt8) (s t : ℤ) (columns : ℕ) : List (Write ℤ UInt8) :=
  (List.range (columns / 16)).flatMap fun n : ℕ =>
    round16x2 RSTRIDE WSTRIDE source (s + 16 * n) (t + n * (8 * WSTRIDE))

/-- `rotate##MACROBLOCK##x4x##RSTRIDE##x##WSTRIDE##Y`. -/
def rotateMacroblockx4Y (MACROBLOCK : ℕ) (source : ℤ → UInt8) (s t : ℤ) : List (Write ℤ UInt8) :=
  rotateXx4Y RSTRIDE WSTRIDE source s t MACROBLOCK

/-- `rotate##MACROBLOCK##x##MACROBLOCK##x##RSTRIDE##x##WSTRIDE##Y`. -/
def rotateMacroblockY (MACROBLOCK : ℕ) (source : ℤ → UInt8) (s t : ℤ) : List (Write ℤ UInt8) :=
  (List.range (MACROBLOCK / 4)).flatMap fun slice : ℕ =>
    rotateMacroblockx4Y RSTRIDE WSTRIDE MACROBLOCK source
      (s + (MACROBLOCK - 4) * RSTRIDE - slice * (4 * RSTRIDE)) (t + slice * 4)

/-- The macroblocks. -/
def macroblocks (COLUMNS ROWS MACROBLOCK : ℕ) (source : ℤ → UInt8) : List (Write ℤ UInt8) :=
  (List.range (ROWS / MACROBLOCK)).flatMap fun row : ℕ =>
    (List.range (COLUMNS / MACROBLOCK)).flatMap fun col : ℕ =>
      rotateMacroblockY RSTRIDE WSTRIDE MACROBLOCK source
        (ROWS * RSTRIDE - (row + 1) * MACROBLOCK * RSTRIDE + col * MACROBLOCK)
        (row * MACROBLOCK + col * (MACROBLOCK * WSTRIDE))

/-- The lines left over. -/
def restOfRows (COLUMNS ROWS MACROBLOCK : ℕ) (source : ℤ → UInt8) : List (Write ℤ UInt8) :=
  if ROWS % MACROBLOCK ≠ 0 then
    (List.range (ROWS % MACROBLOCK / 4)).flatMap fun row : ℕ =>
      rotateXx4Y RSTRIDE WSTRIDE source (row * (4 * RSTRIDE)) (ROWS - 4 - row * 4) COLUMNS
  else []

/-- The columns left over. -/
def restOfColumns (COLUMNS ROWS MACROBLOCK : ℕ) (source : ℤ → UInt8) : List (Write ℤ UInt8) :=
  let remains : ℤ := (ROWS % MACROBLOCK : ℕ)
  let left : ℤ := (COLUMNS - COLUMNS % MACROBLOCK : ℕ)
  if COLUMNS % MACROBLOCK ≠ 0 then
    (List.range ((ROWS - ROWS % MACROBLOCK) / 4)).flatMap fun row : ℕ =>
      rotateXx4Y RSTRIDE WSTRIDE source (remains * RSTRIDE + left + row * (4 * RSTRIDE))
        (left * WSTRIDE + (ROWS - remains - 4) - row * 4) (COLUMNS % MACROBLOCK)
  else []

/-- The chroma plane. -/
def chromaPlane (COLUMNS ROWS : ℕ) (source : ℤ → UInt8) : List (Write ℤ UInt8) :=
  (List.range (ROWS / 4)).flatMap fun n : ℕ =>
    rotateXx4UV RSTRIDE WSTRIDE source (RSTRIDE * ROWS + n * (2 * RSTRIDE))
      (COLUMNS * WSTRIDE + (ROWS - 4) - n * 4) COLUMNS

/-- The function that `NV12_ROTATION_GEOMETRY` defines. -/
def rotateGeometry (COLUMNS ROWS MACROBLOCK : ℕ) (source : ℤ → UInt8) : List (Write ℤ UInt8) :=
  macroblocks RSTRIDE WSTRIDE COLUMNS ROWS MACROBLOCK source ++
    restOfRows RSTRIDE WSTRIDE COLUMNS ROWS MACROBLOCK source ++
    restOfColumns RSTRIDE WSTRIDE COLUMNS ROWS MACROBLOCK source ++
    chromaPlane RSTRIDE WSTRIDE COLUMNS ROWS source

end Fast

/-! ## What the rounds write -/

theorem movd_eq_some {x : Xmm} {pos a : ℤ} {v : UInt8} :
    movd x pos a = some v ↔ ∃ m < 4, a = pos + (m : ℕ) ∧ v = x m := by
  rw [movd, Option.ite_none_right_eq_some]
  constructor
  · rintro ⟨⟨hlow, hhigh⟩, hv⟩
    exact ⟨(a - pos).toNat, by omega, by omega, (Option.some.inj hv).symm⟩
  · rintro ⟨m, hm, rfl, rfl⟩
    refine ⟨by omega, ?_⟩
    rw [add_sub_cancel_left, Int.toNat_natCast]

/-- Shifted four bytes at a time. -/
theorem psrldq4_iterate (x : Xmm) : ∀ {k m : ℕ}, 4 * k + m < 16 → psrldq4^[k] x m = x (4 * k + m)
  | 0, m, _ => by rw [Nat.mul_zero, Nat.zero_add]; rfl
  | k + 1, m, h => by
    have hstep : m + 4 < 16 := by omega
    rw [Function.iterate_succ_apply', psrldq4, if_pos hstep, psrldq4_iterate x (by omega)]
    congr 1
    omega

/-- Two unpacks bring a column of four lines together, the last line first. -/
theorem unpack_column {line : ℕ → Xmm} {base low k m : ℕ} (hm : m < 4) :
    unpackWords (2 * base) (unpackBytes low (line 0) (line 1)) (unpackBytes low (line 2) (line 3))
      (4 * k + m) = line (3 - m) (low + (base + k)) := by
  have hmod : (4 * k + m) % 4 = m := by omega
  have hdiv : (4 * k + m) / 4 = k := by omega
  have hparity : (4 * k + m) % 2 = m % 2 := by omega
  have heven : (2 * base + 2 * k + m % 2) % 2 = m % 2 := by omega
  have hhalf : (2 * base + 2 * k + m % 2) / 2 = base + k := by omega
  simp only [unpackWords, unpackBytes, hmod, hdiv, hparity, heven, hhalf]
  interval_cases m <;> rfl

/-- An unpack of words brings a pair of two lines together, the last line first. -/
theorem unpack_pair {line : ℕ → Xmm} {base k m : ℕ} (hm : m < 4) :
    unpackWords base (line 0) (line 1) (4 * k + m) = line (1 - m / 2) (base + 2 * k + m % 2) := by
  have hmod : (4 * k + m) % 4 = m := by omega
  have hdiv : (4 * k + m) / 4 = k := by omega
  have hparity : (4 * k + m) % 2 = m % 2 := by omega
  simp only [unpackWords, hmod, hdiv, hparity]
  interval_cases m <;> rfl

section Rounds

variable {RSTRIDE WSTRIDE esi edi s t a : ℤ} {source : ℤ → UInt8} {v : UInt8}

/-- What the registers hold after `k` shifts. -/
theorem column_byte {low base k m : ℕ} (hk : k < 4) (hm : m < 4) :
    psrldq4^[k] (unpackWords (2 * base)
        (unpackBytes low (movdqu source esi) (movdqu source (esi + RSTRIDE)))
        (unpackBytes low (movdqu source (esi + 2 * RSTRIDE))
          (movdqu source (esi + 3 * RSTRIDE)))) m =
      source (esi + ((low + base + k : ℕ) : ℤ) + (3 - (m : ℤ)) * RSTRIDE) := by
  have hcolumn := @unpack_column (fun n => movdqu source (esi + n * RSTRIDE)) base low k m hm
  simp only [Nat.cast_zero, zero_mul, add_zero, Nat.cast_one, one_mul] at hcolumn
  rw [psrldq4_iterate _ (by omega)]
  refine hcolumn.trans ?_
  rw [movdqu, Nat.cast_sub (by omega)]
  congr 1
  push_cast
  ring

/-- A register is stored as four rows, one after each shift. -/
theorem movd_column {low base row k : ℕ} {pos : ℤ} (hk : k < 4) (hrow : low + base + k = row)
    (hpos : pos = edi + row * WSTRIDE) :
    movd (psrldq4^[k] (unpackWords (2 * base)
        (unpackBytes low (movdqu source esi) (movdqu source (esi + RSTRIDE)))
        (unpackBytes low (movdqu source (esi + 2 * RSTRIDE)) (movdqu source (esi + 3 * RSTRIDE)))))
        pos a = some v ↔
      ∃ m < 4, a = edi + row * WSTRIDE + (m : ℕ) ∧
        v = source (esi + row + (3 - (m : ℕ)) * RSTRIDE) := by
  rw [movd_eq_some, hpos]
  refine exists_congr fun m => and_congr_right fun hm => ?_
  rw [column_byte hk hm, hrow]

/-- A round turns sixteen columns of four lines into sixteen rows of four bytes. -/
theorem wrote_round16x4 : Wrote (round16x4 RSTRIDE WSTRIDE source esi edi) a v ↔
    ∃ i < 16, ∃ m < 4, a = edi + (i : ℕ) * WSTRIDE + (m : ℕ) ∧
      v = source (esi + (i : ℕ) + (3 - (m : ℕ)) * RSTRIDE) := by
  simp only [round16x4, wrote_flatMap, wrote_cons, wrote_nil, or_false, mem_range]
  have first {k : ℕ} (hk : k < 4) := @movd_column RSTRIDE WSTRIDE esi edi a source v 0 0 k k
    (edi + k * WSTRIDE) hk (by omega) rfl
  have second {k : ℕ} (hk : k < 4) := @movd_column RSTRIDE WSTRIDE esi edi a source v 0 4 (4 + k) k
    (edi + (4 + k) * WSTRIDE) hk (by omega) (by push_cast; rfl)
  have third {k : ℕ} (hk : k < 4) := @movd_column RSTRIDE WSTRIDE esi edi a source v 8 0 (8 + k) k
    (edi + (8 + k) * WSTRIDE) hk (by omega) (by push_cast; rfl)
  have fourth {k : ℕ} (hk : k < 4) := @movd_column RSTRIDE WSTRIDE esi edi a source v 8 4 (12 + k) k
    (edi + (12 + k) * WSTRIDE) hk (by omega) (by push_cast; rfl)
  constructor
  · rintro ⟨k, hk, h | h | h | h⟩
    · exact ⟨k, by omega, (first hk).mp h⟩
    · exact ⟨4 + k, by omega, (second hk).mp h⟩
    · exact ⟨8 + k, by omega, (third hk).mp h⟩
    · exact ⟨12 + k, by omega, (fourth hk).mp h⟩
  · rintro ⟨i, hi, h⟩
    have hk : i % 4 < 4 := Nat.mod_lt i (by decide)
    obtain hrow | hrow | hrow | hrow :
      i = i % 4 ∨ i = 4 + i % 4 ∨ i = 8 + i % 4 ∨ i = 12 + i % 4 := by omega
    · exact ⟨i % 4, hk, .inl ((first hk).mpr (hrow ▸ h))⟩
    · exact ⟨i % 4, hk, .inr (.inl ((second hk).mpr (hrow ▸ h)))⟩
    · exact ⟨i % 4, hk, .inr (.inr (.inl ((third hk).mpr (hrow ▸ h))))⟩
    · exact ⟨i % 4, hk, .inr (.inr (.inr ((fourth hk).mpr (hrow ▸ h))))⟩

/-- The pairs of a round of the chroma loop. -/
theorem movd_pair {base row k : ℕ} {pos : ℤ} (hk : k < 4) (hrow : base + 2 * k = 2 * row)
    (hpos : pos = edi + row * WSTRIDE) :
    movd (psrldq4^[k] (unpackWords base (movdqu source esi) (movdqu source (esi + RSTRIDE))))
        pos a = some v ↔
      ∃ m < 4, a = edi + row * WSTRIDE + (m : ℕ) ∧
        v = source (esi + ((2 * row + m % 2 : ℕ) : ℤ) + ((1 - m / 2 : ℕ) : ℤ) * RSTRIDE) := by
  rw [movd_eq_some, hpos]
  refine exists_congr fun m => and_congr_right fun hm => ?_
  have hpair := @unpack_pair (fun n => movdqu source (esi + n * RSTRIDE)) base k m hm
  simp only [Nat.cast_zero, zero_mul, add_zero, Nat.cast_one, one_mul] at hpair
  rw [psrldq4_iterate _ (by omega), hpair, movdqu, hrow, add_right_comm esi]

/-- A round turns eight pairs of columns of two lines into eight rows of two pairs. -/
theorem wrote_round16x2 : Wrote (round16x2 RSTRIDE WSTRIDE source esi edi) a v ↔
    ∃ i < 8, ∃ m < 4, a = edi + (i : ℕ) * WSTRIDE + (m : ℕ) ∧
      v = source (esi + ((2 * i + m % 2 : ℕ) : ℤ) + ((1 - m / 2 : ℕ) : ℤ) * RSTRIDE) := by
  simp only [round16x2, wrote_flatMap, wrote_cons, wrote_nil, or_false, mem_range]
  have low {k : ℕ} (hk : k < 4) := @movd_pair RSTRIDE WSTRIDE esi edi a source v 0 k k
    (edi + k * WSTRIDE) hk (by omega) rfl
  have high {k : ℕ} (hk : k < 4) := @movd_pair RSTRIDE WSTRIDE esi edi a source v 8 (4 + k) k
    (edi + (4 + k) * WSTRIDE) hk (by omega) (by push_cast; rfl)
  constructor
  · rintro ⟨k, hk, h | h⟩
    · exact ⟨k, by omega, (low hk).mp h⟩
    · exact ⟨4 + k, by omega, (high hk).mp h⟩
  · rintro ⟨i, hi, h⟩
    have hk : i % 4 < 4 := Nat.mod_lt i (by decide)
    obtain hrow | hrow : i = i % 4 ∨ i = 4 + i % 4 := by omega
    · exact ⟨i % 4, hk, .inl ((low hk).mpr (hrow ▸ h))⟩
    · exact ⟨i % 4, hk, .inr ((high hk).mpr (hrow ▸ h))⟩

/-! ## What the strips write -/

/-- A strip of four lines becomes four columns. -/
theorem wrote_rotateXx4Y {columns : ℕ} (h : 16 ∣ columns) :
    Wrote (rotateXx4Y RSTRIDE WSTRIDE source s t columns) a v ↔
      ∃ i < columns, ∃ m < 4, a = t + (i : ℕ) * WSTRIDE + (m : ℕ) ∧
        v = source (s + (i : ℕ) + (3 - (m : ℕ)) * RSTRIDE) := by
  have hcolumns : columns / 16 * 16 = columns := Nat.div_mul_cancel h
  simp only [rotateXx4Y, wrote_flatMap, mem_range, wrote_round16x4]
  constructor
  · rintro ⟨n, hn, i, hi, m, hm, rfl, rfl⟩
    have hlt : n * 16 + i < columns := hcolumns ▸ lt_mul_iff.mpr ⟨n, hn, i, hi, rfl⟩
    refine ⟨n * 16 + i, hlt, m, hm, ?_, congrArg source ?_⟩ <;> push_cast <;> ring
  · rintro ⟨i, hi, m, hm, rfl, rfl⟩
    obtain ⟨n, hn, i, hround, rfl⟩ := lt_mul_iff.mp (hcolumns.symm ▸ hi)
    refine ⟨n, hn, i, hround, m, hm, ?_, congrArg source ?_⟩ <;> push_cast <;> ring

/-- A strip of two lines of pairs becomes two columns of pairs. -/
theorem wrote_rotateXx4UV {columns : ℕ} (h : 16 ∣ columns) :
    Wrote (rotateXx4UV RSTRIDE WSTRIDE source s t columns) a v ↔
      ∃ i < columns / 2, ∃ m < 4, a = t + (i : ℕ) * WSTRIDE + (m : ℕ) ∧
        v = source (s + ((2 * i + m % 2 : ℕ) : ℤ) + ((1 - m / 2 : ℕ) : ℤ) * RSTRIDE) := by
  have hcolumns : columns / 16 * 8 = columns / 2 := by omega
  simp only [rotateXx4UV, wrote_flatMap, mem_range, wrote_round16x2]
  constructor
  · rintro ⟨n, hn, i, hi, m, hm, rfl, rfl⟩
    have hlt : n * 8 + i < columns / 2 := hcolumns ▸ lt_mul_iff.mpr ⟨n, hn, i, hi, rfl⟩
    refine ⟨n * 8 + i, hlt, m, hm, ?_, congrArg source ?_⟩ <;> push_cast <;> ring
  · rintro ⟨i, hi, m, hm, rfl, rfl⟩
    obtain ⟨n, hn, i, hround, rfl⟩ := lt_mul_iff.mp (hcolumns.symm ▸ hi)
    refine ⟨n, hn, i, hround, m, hm, ?_, congrArg source ?_⟩ <;> push_cast <;> ring

/-! ## What the regions write -/

/-- The lines and columns of the frame, turned: column `i` of the image becomes row `i`, and its
lines come from the last to the first. -/
def LumaTurned (RSTRIDE WSTRIDE : ℤ) (ROWS : ℕ) (source : ℤ → UInt8) (region : ℕ → ℕ → Prop)
    (a : ℤ) (v : UInt8) : Prop :=
  ∃ i c : ℕ, region i c ∧ a = i * WSTRIDE + c ∧ v = source (i + (ROWS - 1 - c) * RSTRIDE)

/-- The same for the pairs of the chroma plane. -/
def ChromaTurned (RSTRIDE WSTRIDE : ℤ) (COLUMNS ROWS : ℕ) (source : ℤ → UInt8) (a : ℤ) (v : UInt8) :
    Prop :=
  ∃ i < COLUMNS / 2, ∃ j < ROWS / 2, ∃ k < 2,
    a = (COLUMNS + (i : ℕ)) * WSTRIDE + (2 * (j : ℕ) + (k : ℕ)) ∧
      v = source (RSTRIDE * ROWS + (2 * i + k + (ROWS / 2 - 1 - j : ℤ) * RSTRIDE))

variable {COLUMNS ROWS MACROBLOCK : ℕ}

theorem wrote_macroblocks (hblock : 16 ∣ MACROBLOCK) :
    Wrote (macroblocks RSTRIDE WSTRIDE COLUMNS ROWS MACROBLOCK source) a v ↔
      LumaTurned RSTRIDE WSTRIDE ROWS source (fun i c =>
        i < COLUMNS / MACROBLOCK * MACROBLOCK ∧ c < ROWS / MACROBLOCK * MACROBLOCK) a v := by
  have hslices : MACROBLOCK / 4 * 4 = MACROBLOCK := by omega
  simp only [macroblocks, rotateMacroblockY, rotateMacroblockx4Y, wrote_flatMap, mem_range,
    wrote_rotateXx4Y hblock, LumaTurned]
  constructor
  · rintro ⟨row, hrow, col, hcol, slice, hslice, i, hi, m, hm, rfl, rfl⟩
    have hc : slice * 4 + m < MACROBLOCK := hslices ▸ lt_mul_iff.mpr ⟨slice, hslice, m, hm, rfl⟩
    refine ⟨col * MACROBLOCK + i, row * MACROBLOCK + (slice * 4 + m),
      ⟨lt_mul_iff.mpr ⟨col, hcol, i, hi, rfl⟩, lt_mul_iff.mpr ⟨row, hrow, _, hc, rfl⟩⟩,
      ?_, congrArg source ?_⟩ <;> push_cast <;> ring
  · rintro ⟨i, c, ⟨hi, hc⟩, rfl, rfl⟩
    obtain ⟨col, hcol, i, hcolumn, rfl⟩ := lt_mul_iff.mp hi
    obtain ⟨row, hrow, c, hline, rfl⟩ := lt_mul_iff.mp hc
    obtain ⟨slice, hslice, m, hm, rfl⟩ := lt_mul_iff.mp (hslices.symm ▸ hline)
    refine ⟨row, hrow, col, hcol, slice, hslice, i, hcolumn, m, hm, ?_, congrArg source ?_⟩ <;>
      push_cast <;> ring

/-- Strips one after the other, from column `left` and line `top` on. -/
theorem wrote_strips {columns height left top line : ℕ} (hcolumns : 16 ∣ columns)
    (hheight : 4 ∣ height) (hrows : top + height + line = ROWS) :
    Wrote ((List.range (height / 4)).flatMap fun row : ℕ =>
        rotateXx4Y RSTRIDE WSTRIDE source (line * RSTRIDE + left + row * (4 * RSTRIDE))
          (left * WSTRIDE + (top + height - 4 : ℤ) - row * 4) columns) a v ↔
      LumaTurned RSTRIDE WSTRIDE ROWS source (fun i c =>
        (left ≤ i ∧ i < left + columns) ∧ top ≤ c ∧ c < top + height) a v := by
  have hcast : (ROWS : ℤ) = top + height + line := by omega
  simp only [wrote_flatMap, mem_range, wrote_rotateXx4Y hcolumns, LumaTurned, hcast]
  constructor
  · rintro ⟨row, hrow, i, hi, m, hm, rfl, rfl⟩
    obtain ⟨c, hc⟩ : ∃ c, c + 4 + row * 4 = top + height + m :=
      ⟨top + height + m - 4 - row * 4, by omega⟩
    have hcast : (c : ℤ) = top + height - 4 - row * 4 + m := by omega
    refine ⟨left + i, c, ⟨⟨by omega, by omega⟩, by omega, by omega⟩, ?_, congrArg source ?_⟩ <;>
      rw [hcast, Nat.cast_add] <;> ring
  · rintro ⟨i, c, ⟨⟨hlow, hhigh⟩, hc, hc'⟩, rfl, rfl⟩
    obtain ⟨i, rfl⟩ := Nat.exists_eq_add_of_le hlow
    obtain ⟨c, rfl⟩ := Nat.exists_eq_add_of_le hc
    obtain ⟨row, hrow⟩ : ∃ row, c / 4 * 4 + 4 + row * 4 = height :=
      ⟨(height - c / 4 * 4 - 4) / 4, by omega⟩
    have hcast : ((top + c : ℕ) : ℤ) = top + height - 4 - row * 4 + (c % 4 : ℕ) := by omega
    refine ⟨row, by omega, i, by omega, c % 4, Nat.mod_lt c (by decide), ?_, congrArg source ?_⟩ <;>
      rw [hcast, Nat.cast_add] <;> ring

section Rest

variable (hcolumns : 16 ∣ COLUMNS) (hrows : 4 ∣ ROWS) (hblock : 16 ∣ MACROBLOCK)
include hcolumns hrows hblock

theorem wrote_restOfRows :
    Wrote (restOfRows RSTRIDE WSTRIDE COLUMNS ROWS MACROBLOCK source) a v ↔
      LumaTurned RSTRIDE WSTRIDE ROWS source (fun i c => (0 ≤ i ∧ i < 0 + COLUMNS) ∧
        ROWS / MACROBLOCK * MACROBLOCK ≤ c ∧
          c < ROWS / MACROBLOCK * MACROBLOCK + ROWS % MACROBLOCK) a v := by
  have hsplit : ROWS / MACROBLOCK * MACROBLOCK + ROWS % MACROBLOCK = ROWS := Nat.div_add_mod' ..
  have hover : 4 ∣ ROWS % MACROBLOCK :=
    (Nat.dvd_mod_iff ((by decide : 4 ∣ 16).trans hblock)).mpr hrows
  rw [← @wrote_strips _ _ _ _ _ ROWS _ _ 0 _ 0 hcolumns hover hsplit, restOfRows]
  split
  · simp only [Nat.cast_zero, zero_mul, zero_add, ← Nat.cast_add, hsplit]
  · next h => rw [not_not.mp h]; rfl

theorem wrote_restOfColumns :
    Wrote (restOfColumns RSTRIDE WSTRIDE COLUMNS ROWS MACROBLOCK source) a v ↔
      LumaTurned RSTRIDE WSTRIDE ROWS source (fun i c => (COLUMNS / MACROBLOCK * MACROBLOCK ≤ i ∧
        i < COLUMNS / MACROBLOCK * MACROBLOCK + COLUMNS % MACROBLOCK) ∧
          0 ≤ c ∧ c < 0 + ROWS / MACROBLOCK * MACROBLOCK) a v := by
  have hsplit : ROWS / MACROBLOCK * MACROBLOCK + ROWS % MACROBLOCK = ROWS := Nat.div_add_mod' ..
  have hsplit' : COLUMNS / MACROBLOCK * MACROBLOCK + COLUMNS % MACROBLOCK = COLUMNS :=
    Nat.div_add_mod' ..
  have hover : 4 ∣ ROWS % MACROBLOCK :=
    (Nat.dvd_mod_iff ((by decide : 4 ∣ 16).trans hblock)).mpr hrows
  have hwidth : 16 ∣ COLUMNS % MACROBLOCK := (Nat.dvd_mod_iff hblock).mpr hcolumns
  set left := COLUMNS / MACROBLOCK * MACROBLOCK with hleft
  set inner := ROWS / MACROBLOCK * MACROBLOCK with hinner
  have hline : ROWS - ROWS % MACROBLOCK = inner := by omega
  have hcolumn : COLUMNS - COLUMNS % MACROBLOCK = left := by omega
  have hremains : (ROWS : ℤ) - (ROWS % MACROBLOCK : ℕ) = inner := by omega
  rw [← @wrote_strips _ _ _ _ _ ROWS _ inner left 0 (ROWS % MACROBLOCK) hwidth (by omega) (by omega),
    restOfColumns, hline, hcolumn, hremains]
  split
  · rw [Nat.cast_zero, zero_add]
  · next h =>
    rw [not_not.mp h]
    exact (congrArg (Wrote · a v) (flatMap_eq_nil_iff.mpr fun _ _ => rfl)).to_iff.symm

end Rest

theorem wrote_chromaPlane (hcolumns : 16 ∣ COLUMNS) (hrows : 4 ∣ ROWS) :
    Wrote (chromaPlane RSTRIDE WSTRIDE COLUMNS ROWS source) a v ↔
      ChromaTurned RSTRIDE WSTRIDE COLUMNS ROWS source a v := by
  obtain ⟨quarter, rfl⟩ := hrows
  have hquarter : 4 * quarter / 4 = quarter := by omega
  have hhalf : 4 * quarter / 2 = 2 * quarter := by omega
  have hhalf' : ((4 * quarter : ℕ) : ℤ) / 2 = 2 * quarter := by omega
  simp only [chromaPlane, wrote_flatMap, mem_range, wrote_rotateXx4UV hcolumns, ChromaTurned,
    hquarter, hhalf, hhalf']
  constructor
  · rintro ⟨n, hn, i, hi, m, hm, rfl, rfl⟩
    obtain ⟨j, hj⟩ : ∃ j, j + 2 + 2 * n = 2 * quarter + m / 2 :=
      ⟨2 * quarter + m / 2 - 2 - 2 * n, by omega⟩
    have hm' : (m : ℤ) = 2 * (m / 2 : ℕ) + (m % 2 : ℕ) := by omega
    have hj' : (j : ℤ) = 2 * quarter + (m / 2 : ℕ) - 2 - 2 * n := by omega
    refine ⟨i, hi, j, by omega, m % 2, Nat.mod_lt m (by decide), ?_, congrArg source ?_⟩
    · rw [hm', hj']; push_cast; ring
    · rw [hj', Nat.cast_sub (by omega)]; push_cast; ring
  · rintro ⟨i, hi, j, hj, k, hk, rfl, rfl⟩
    obtain ⟨n, hn⟩ : ∃ n, j / 2 + n + 1 = quarter := ⟨quarter - j / 2 - 1, by omega⟩
    have hm : (2 * (j % 2) + k) % 2 = k := by omega
    have hm' : (2 * (j % 2) + k) / 2 = j % 2 := by omega
    have hj' : (j : ℤ) = 2 * (j / 2 : ℕ) + (j % 2 : ℕ) := by omega
    have hn' : (n : ℤ) = quarter - (j / 2 : ℕ) - 1 := by omega
    refine ⟨n, by omega, i, hi, 2 * (j % 2) + k, by omega, ?_, congrArg source ?_⟩
    · rw [hj', hn']; push_cast; ring
    · rw [hm, hm', Nat.cast_sub (by omega), hn', hj']; push_cast; ring

theorem storeByte_eq_some {pos : ℤ} {x : UInt8} : storeByte pos x a = some v ↔ a = pos ∧ v = x := by
  rw [storeByte, Option.ite_none_right_eq_some, Option.some_inj, @eq_comm _ x]

theorem wrote_genericRotateBy90 (hcolumns : 2 ∣ COLUMNS) (hrows : 2 ∣ ROWS) :
    Wrote (genericRotateBy90 COLUMNS ROWS RSTRIDE WSTRIDE source) a v ↔
      LumaTurned RSTRIDE WSTRIDE ROWS source (fun i c => i < COLUMNS ∧ c < ROWS) a v ∨
        ChromaTurned RSTRIDE WSTRIDE COLUMNS ROWS source a v := by
  have hwidth : (COLUMNS + 1) / 2 = COLUMNS / 2 := by omega
  have hheight : (ROWS + 1) / 2 = ROWS / 2 := by omega
  rw [genericRotateBy90, wrote_append, hwidth, hheight]
  refine or_congr ?_ ?_
  · simp only [wrote_flatMap, wrote_map, mem_range, mem_reverse, storeByte_eq_some, LumaTurned]
    constructor
    · rintro ⟨i, hi, j, hj, rfl, rfl⟩
      obtain ⟨c, hc⟩ : ∃ c, c + j + 1 = ROWS := ⟨ROWS - j - 1, by omega⟩
      have hcast : (c : ℤ) = ROWS - j - 1 := by omega
      exact ⟨i, c, ⟨hi, by omega⟩, by rw [hcast], congrArg source (by rw [hcast]; ring)⟩
    · rintro ⟨i, c, ⟨hi, hc⟩, rfl, rfl⟩
      obtain ⟨j, hj⟩ : ∃ j, c + j + 1 = ROWS := ⟨ROWS - c - 1, by omega⟩
      have hcast : (j : ℤ) = ROWS - 1 - c := by omega
      exact ⟨i, hi, j, by omega, by omega, congrArg source (by rw [hcast])⟩
  · simp only [wrote_flatMap, wrote_cons, wrote_nil, or_false, mem_range, storeByte_eq_some,
      ChromaTurned]
    have hline {j : ℕ} : ((ROWS : ℤ) - 2 * j) / 2 - 1 = (ROWS : ℤ) / 2 - 1 - j := by omega
    constructor
    · rintro ⟨i, hi, j, hj, ⟨rfl, rfl⟩ | ⟨rfl, rfl⟩⟩
      · refine ⟨i, hi, j, hj, 0, by decide, by push_cast; ring, congrArg source ?_⟩
        rw [hline, Nat.cast_zero, add_zero]
      · refine ⟨i, hi, j, hj, 1, by decide, by push_cast; ring, congrArg source ?_⟩
        rw [hline, Nat.cast_one]
    · rintro ⟨i, hi, j, hj, k, hk, rfl, rfl⟩
      obtain rfl | rfl : k = 0 ∨ k = 1 := by omega
      · refine ⟨i, hi, j, hj, .inl ⟨by push_cast; ring, congrArg source ?_⟩⟩
        rw [hline, Nat.cast_zero, add_zero]
      · refine ⟨i, hi, j, hj, .inr ⟨by push_cast; ring, congrArg source ?_⟩⟩
        rw [hline, Nat.cast_one]

theorem wrote_rotateGeometry (hcolumns : 16 ∣ COLUMNS) (hrows : 4 ∣ ROWS)
    (hblock : 16 ∣ MACROBLOCK) :
    Wrote (rotateGeometry RSTRIDE WSTRIDE COLUMNS ROWS MACROBLOCK source) a v ↔
      LumaTurned RSTRIDE WSTRIDE ROWS source (fun i c => i < COLUMNS ∧ c < ROWS) a v ∨
        ChromaTurned RSTRIDE WSTRIDE COLUMNS ROWS source a v := by
  have hwidth : COLUMNS / MACROBLOCK * MACROBLOCK + COLUMNS % MACROBLOCK = COLUMNS :=
    Nat.div_add_mod' ..
  have hheight : ROWS / MACROBLOCK * MACROBLOCK + ROWS % MACROBLOCK = ROWS := Nat.div_add_mod' ..
  rw [rotateGeometry, wrote_append, wrote_append, wrote_append, wrote_macroblocks hblock,
    wrote_restOfRows hcolumns hrows hblock, wrote_restOfColumns hcolumns hrows hblock,
    wrote_chromaPlane hcolumns hrows]
  refine or_congr_left ?_
  constructor
  · rintro ((⟨i, c, hregion, h⟩ | ⟨i, c, hregion, h⟩) | ⟨i, c, hregion, h⟩) <;>
      exact ⟨i, c, by omega, h⟩
  · rintro ⟨i, c, hregion, h⟩
    obtain hinner | hover := Nat.lt_or_ge c (ROWS / MACROBLOCK * MACROBLOCK)
    · obtain hleft | hright := Nat.lt_or_ge i (COLUMNS / MACROBLOCK * MACROBLOCK)
      · exact .inl (.inl ⟨i, c, ⟨hleft, hinner⟩, h⟩)
      · exact .inr ⟨i, c, by omega, h⟩
    · exact .inl (.inr ⟨i, c, by omega, h⟩)

/-! ## Both agree -/

/-- A cell determines its row and its column. -/
theorem cell_inj {i i' c c' : ℕ} (hc : (c : ℤ) < WSTRIDE) (hc' : (c' : ℤ) < WSTRIDE)
    (h : (i : ℤ) * WSTRIDE + c = i' * WSTRIDE + c') : i = i' ∧ c = c' := by
  have hpos : 0 < WSTRIDE := by omega
  have hcolumn : (c : ℤ) = c' := by
    rw [← Int.emod_eq_of_lt (by omega) hc, ← Int.emod_eq_of_lt (by omega) hc',
      ← Int.mul_add_emod_self_right i, h, Int.mul_add_emod_self_right]
  have hrow : (i : ℤ) = i' := by
    rw [hcolumn, add_left_inj] at h
    exact mul_right_cancel₀ hpos.ne' h
  exact ⟨Int.ofNat_inj.mp hrow, Int.ofNat_inj.mp hcolumn⟩

/-- The cells of the turned frame have one value each. -/
theorem turned_unique (hstride : (ROWS : ℤ) ≤ WSTRIDE) {v' : UInt8}
    (h : LumaTurned RSTRIDE WSTRIDE ROWS source (fun i c => i < COLUMNS ∧ c < ROWS) a v ∨
      ChromaTurned RSTRIDE WSTRIDE COLUMNS ROWS source a v)
    (h' : LumaTurned RSTRIDE WSTRIDE ROWS source (fun i c => i < COLUMNS ∧ c < ROWS) a v' ∨
      ChromaTurned RSTRIDE WSTRIDE COLUMNS ROWS source a v') : v = v' := by
  have hpair {j k : ℕ} (hj : j < ROWS / 2) (hk : k < 2) : ((2 * j + k : ℕ) : ℤ) < WSTRIDE := by
    omega
  have hcell {i j k : ℕ} : ((COLUMNS : ℤ) + (i : ℕ)) * WSTRIDE + (2 * (j : ℕ) + (k : ℕ)) =
      ((COLUMNS + i : ℕ) : ℤ) * WSTRIDE + (2 * j + k : ℕ) := by push_cast; rfl
  obtain ⟨i, c, ⟨hi, hc⟩, rfl, rfl⟩ | ⟨i, hi, j, hj, k, hk, rfl, rfl⟩ := h
  · obtain ⟨i', c', ⟨hi', hc'⟩, heq, rfl⟩ | ⟨i', hi', j', hj', k', hk', heq, rfl⟩ := h'
    · obtain ⟨rfl, rfl⟩ := cell_inj (by omega) (by omega) heq
      rfl
    · rw [hcell] at heq
      obtain ⟨hrow, -⟩ := cell_inj (by omega) (hpair hj' hk') heq
      omega
  · rw [hcell] at h'
    obtain ⟨i', c', ⟨hi', hc'⟩, heq, rfl⟩ | ⟨i', hi', j', hj', k', hk', heq, rfl⟩ := h'
    · obtain ⟨hrow, -⟩ := cell_inj (hpair hj hk) (by omega) heq
      omega
    · rw [hcell] at heq
      obtain ⟨hrow, hcolumn⟩ := cell_inj (hpair hj hk) (hpair hj' hk') heq
      obtain ⟨rfl, rfl, rfl⟩ : i = i' ∧ j = j' ∧ k = k' := by omega
      rfl

end Rounds

section Both

variable {COLUMNS ROWS MACROBLOCK RSTRIDE WSTRIDE : ℕ}

theorem wrote_rotateGeometry_iff (hcolumns : 16 ∣ COLUMNS) (hrows : 4 ∣ ROWS)
    (hblock : 16 ∣ MACROBLOCK) (source : ℤ → UInt8) (a : ℤ) (v : UInt8) :
    Wrote (rotateGeometry RSTRIDE WSTRIDE COLUMNS ROWS MACROBLOCK source) a v ↔
      Wrote (genericRotateBy90 COLUMNS ROWS RSTRIDE WSTRIDE source) a v :=
  (wrote_rotateGeometry hcolumns hrows hblock).trans
    (wrote_genericRotateBy90 (by omega) (by omega)).symm

/-- Whatever the order of the writes, they leave the same memory. -/
theorem written_rotateGeometry (hcolumns : 16 ∣ COLUMNS) (hrows : 4 ∣ ROWS)
    (hblock : 16 ∣ MACROBLOCK) (hstride : ROWS ≤ WSTRIDE) (source : ℤ → UInt8) (m : ℤ → UInt8) :
    written m (rotateGeometry RSTRIDE WSTRIDE COLUMNS ROWS MACROBLOCK source) =
      written m (genericRotateBy90 COLUMNS ROWS RSTRIDE WSTRIDE source) := by
  have hsame := @wrote_rotateGeometry_iff _ _ _ RSTRIDE WSTRIDE hcolumns hrows hblock source
  refine written_congr hsame (fun a v v' h h' => ?_) m
  rw [wrote_rotateGeometry hcolumns hrows hblock] at h h'
  exact turned_unique (by exact_mod_cast hstride) h h'

end Both

/-- The code for a fixed geometry writes the bytes that the plain loop writes, with the same values,
and nothing else: both leave the same memory. -/
theorem fast_eq_generic {COLUMNS ROWS MACROBLOCK RSTRIDE WSTRIDE : ℕ} (hcolumns : 16 ∣ COLUMNS)
    (hrows : 4 ∣ ROWS) (hblock : 16 ∣ MACROBLOCK) (hstride : ROWS ≤ WSTRIDE) (source : ℤ → UInt8) :
    (∀ a v, Wrote (rotateGeometry RSTRIDE WSTRIDE COLUMNS ROWS MACROBLOCK source) a v ↔
        Wrote (genericRotateBy90 COLUMNS ROWS RSTRIDE WSTRIDE source) a v) ∧
      ∀ m, written m (rotateGeometry RSTRIDE WSTRIDE COLUMNS ROWS MACROBLOCK source) =
        written m (genericRotateBy90 COLUMNS ROWS RSTRIDE WSTRIDE source) :=
  ⟨wrote_rotateGeometry_iff hcolumns hrows hblock source,
    written_rotateGeometry hcolumns hrows hblock hstride source⟩

theorem fast_eq_generic_720x480 :
    (∀ a v, Wrote (rotateGeometry 768 512 720 480 32 fun p => UInt8.ofNat p.toNat) a v ↔
        Wrote (genericRotateBy90 720 480 768 512 fun p => UInt8.ofNat p.toNat) a v) ∧
      ∀ m, written m (rotateGeometry 768 512 720 480 32 fun p => UInt8.ofNat p.toNat) =
        written m (genericRotateBy90 720 480 768 512 fun p => UInt8.ofNat p.toNat) :=
  @fast_eq_generic 720 480 32 768 512 (by decide) (by decide) (by decide) (by decide)
    fun p => UInt8.ofNat p.toNat

/-! ## The choice -/

structure Geometry where
  COLUMNS : ℕ
  ROWS : ℕ
  RSTRIDE : ℕ
  WSTRIDE : ℕ
  MACROBLOCK : ℕ

/-- The table of `nv12rotationgeometry.h`. -/
def geometries : List Geometry :=
  [⟨352, 288, 512, 512, 32⟩, ⟨720, 480, 768, 512, 32⟩, ⟨640, 480, 640, 512, 32⟩,
    ⟨640, 360, 640, 512, 32⟩, ⟨800, 600, 832, 640, 32⟩, ⟨800, 600, 800, 640, 32⟩,
    ⟨960, 720, 960, 768, 32⟩, ⟨1024, 576, 1024, 576, 32⟩, ⟨1280, 720, 1280, 768, 32⟩,
    ⟨1920, 1080, 1920, 1088, 32⟩]

/-- `nv12rotateBy90`. -/
def nv12rotateBy90 (width height rstride wstride : ℕ) (source : ℤ → UInt8) : List (Write ℤ UInt8) :=
  match geometries.find? fun g => g.COLUMNS = width ∧ g.ROWS = height ∧ g.RSTRIDE = rstride ∧
      g.WSTRIDE = wstride with
  | some g => rotateGeometry g.RSTRIDE g.WSTRIDE g.COLUMNS g.ROWS g.MACROBLOCK source
  | none => genericRotateBy90 width height rstride wstride source

/-- The entries meet the conditions of the fast code. -/
theorem geometries_valid : ∀ g ∈ geometries,
    16 ∣ g.COLUMNS ∧ 4 ∣ g.ROWS ∧ 16 ∣ g.MACROBLOCK ∧ g.ROWS ≤ g.WSTRIDE := by decide

/-- For all sizes and strides, the rotation is that of the plain loop. -/
theorem nv12rotateBy90_eq (width height rstride wstride : ℕ) (source : ℤ → UInt8) (m : ℤ → UInt8) :
    written m (nv12rotateBy90 width height rstride wstride source) =
      written m (genericRotateBy90 width height rstride wstride source) := by
  rw [nv12rotateBy90]
  split
  · next g h =>
    obtain ⟨hcolumns, hrows, hblock, hstride⟩ := geometries_valid g (mem_of_find?_eq_some h)
    have hfound := List.find?_some h
    obtain ⟨rfl, rfl, rfl, rfl⟩ := of_decide_eq_true hfound
    exact written_rotateGeometry hcolumns hrows hblock hstride source m
  · rfl

end HardwareIntel.Camera.Nv12Rotation
