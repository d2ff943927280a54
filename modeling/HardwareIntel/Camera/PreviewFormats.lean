import Mathlib.Tactic.IntervalCases
import Mathlib.Tactic.Linarith
import HardwareIntel.Camera.ColorConverter

/-!
# The pictures that conversions give

Every access moves bytes. What a conversion moves from where to where decides whether the
destination holds the picture of the source.
-/

namespace HardwareIntel.Camera.ColorConverter

open List

/-! ## Accesses move bytes -/

theorem swappedWord_eq (low high : BitVec 8) : swappedWord low high = low ++ high := by
  refine BitVec.eq_of_getLsbD_eq fun i hi => ?_
  rw [swappedWord, BitVec.getLsbD_or, BitVec.getLsbD_shiftLeft, BitVec.getLsbD_ushiftRight,
    BitVec.getLsbD_append, BitVec.getLsbD_append, BitVec.getLsbD_append]
  by_cases h : i < 8
  · have hhigh : ¬ 8 + i < 8 := by omega
    simp [h, hi]
  · have hlow : i - 8 < 8 := by omega
    simp [h, hi, hlow, BitVec.getLsbD_of_ge high i (by omega)]

theorem swappedPairs_eq (byte0 byte1 byte2 byte3 : BitVec 8) :
    swappedPairs byte0 byte1 byte2 byte3 = byte2 ++ byte3 ++ byte0 ++ byte1 := by
  refine BitVec.eq_of_getLsbD_eq fun i hi => ?_
  simp only [swappedPairs, BitVec.getLsbD_or, BitVec.getLsbD_and, BitVec.getLsbD_shiftLeft,
    BitVec.getLsbD_ushiftRight, BitVec.getLsbD_append]
  interval_cases i <;> simp

@[simp] theorem alignment_memcpy (dst src n : ℕ) : (Access.memcpy dst src n).alignment = 1 := rfl

/-- The other place of a pair. -/
def partner (p : ℕ) : ℕ := if p % 2 = 0 then p + 1 else p - 1

/-- Where a place gets its byte from. -/
def Access.lane : Access → ℕ → ℕ
  | memcpy .., p => p
  | sseSwap .., p => partner p
  | wordSwap .., p => partner p

theorem Access.lane_lt {c : Access} {p : ℕ} (hp : p < c.size) : c.lane p < c.size := by
  cases c with
  | memcpy => exact hp
  | sseSwap | wordSwap =>
    simp only [lane, partner, size] at hp ⊢
    split <;> omega

theorem Access.lane_lane (c : Access) (p : ℕ) : c.lane (c.lane p) = p := by
  cases c with
  | memcpy => rfl
  | sseSwap | wordSwap =>
    simp only [lane, partner]
    split_ifs <;> omega

theorem Access.value_eq {c : Access} {p : ℕ} (piece : ℕ → BitVec 8) (hp : p < c.size) :
    c.value piece p = piece (c.lane p) := by
  cases c with
  | memcpy => rfl
  | sseSwap =>
    rw [value, swappedWord_eq, lane, partner]
    obtain hparity | hparity := Nat.mod_two_eq_zero_or_one p
    · have hpair : p / 2 * 2 + 1 = p + 1 := by omega
      rw [hparity, if_pos rfl, hpair]
      exact BitVec.extractLsb'_append_eq_right
    · have hpair : p / 2 * 2 = p - 1 := by omega
      rw [hparity, if_neg Nat.one_ne_zero, hpair]
      exact BitVec.extractLsb'_append_eq_left
  | wordSwap =>
    rw [value, swappedPairs_eq, lane, partner]
    change p < 4 at hp
    interval_cases p
    · exact BitVec.extractLsb'_append_eq_right
    · exact (BitVec.extractLsb'_append_eq_of_le (by decide)).trans
        BitVec.extractLsb'_append_eq_right
    · exact (BitVec.extractLsb'_append_eq_of_le (by decide)).trans
        ((BitVec.extractLsb'_append_eq_of_le (by decide)).trans BitVec.extractLsb'_append_eq_right)
    · exact (BitVec.extractLsb'_append_eq_of_le (by decide)).trans
        ((BitVec.extractLsb'_append_eq_of_le (by decide)).trans BitVec.extractLsb'_append_eq_left)

/-- The accesses move the byte at `b` of the source to `a` in the destination. -/
def Moves (l : List Access) (a b : ℕ) : Prop :=
  ∃ c ∈ l, ∃ p < c.size, a = c.dst + p ∧ b = c.src + c.lane p

section Moves

variable {l l' : List Access} {a b : ℕ} {c : Access}

theorem moves_nil : ¬ Moves [] a b := fun ⟨_, h, _⟩ => nomatch h

theorem moves_cons : Moves (c :: l) a b ↔ Moves [c] a b ∨ Moves l a b := by
  rw [Moves, exists_mem_cons_iff, Moves, exists_mem_cons_iff]
  simp only [not_mem_nil, false_and, exists_false, or_false]
  rfl

theorem moves_append : Moves (l ++ l') a b ↔ Moves l a b ∨ Moves l' a b := by
  simp [Moves, or_and_right, exists_or]

theorem moves_map {ι : Type*} {s : List ι} {f : ι → Access} :
    Moves (s.map f) a b ↔ ∃ i ∈ s, Moves [f i] a b := by
  simp only [Moves, mem_map, mem_singleton, exists_eq_left]
  constructor
  · rintro ⟨_, ⟨i, hi, rfl⟩, h⟩
    exact ⟨i, hi, h⟩
  · rintro ⟨i, hi, h⟩
    exact ⟨f i, ⟨i, hi, rfl⟩, h⟩

theorem moves_flatMap {ι : Type*} {s : List ι} {f : ι → List Access} :
    Moves (s.flatMap f) a b ↔ ∃ i ∈ s, Moves (f i) a b := by
  simp only [Moves, mem_flatMap]
  constructor
  · rintro ⟨c, ⟨i, hi, hc⟩, h⟩
    exact ⟨i, hi, c, hc, h⟩
  · rintro ⟨i, hi, c, hc, h⟩
    exact ⟨c, ⟨i, hi, hc⟩, h⟩

theorem moves_memcpy {dst src n : ℕ} :
    Moves [.memcpy dst src n] a b ↔ ∃ p < n, a = dst + p ∧ b = src + p := by
  simp only [Moves, mem_singleton, exists_eq_left]
  rfl

theorem moves_storeByte {dst src : ℕ} : Moves [storeByte dst src] a b ↔ a = dst ∧ b = src := by
  rw [storeByte, moves_memcpy]
  constructor
  · rintro ⟨p, hp, rfl, rfl⟩
    obtain rfl := Nat.lt_one_iff.mp hp
    exact ⟨rfl, rfl⟩
  · rintro ⟨rfl, rfl⟩
    exact ⟨0, Nat.one_pos, rfl, rfl⟩

/-- What is written is what was moved. -/
theorem wrote_iff {source : ℕ → BitVec 8} {v : BitVec 8} :
    Wrote (l.map (Access.write source)) a v ↔ ∃ b, Moves l a b ∧ v = source b := by
  rw [wrote_map]
  constructor
  · rintro ⟨c, hc, h⟩
    rw [Access.write, Option.ite_none_right_eq_some] at h
    obtain ⟨⟨hlow, hhigh⟩, h⟩ := h
    have hp : a - c.dst < c.size := by omega
    rw [Access.value_eq _ hp] at h
    exact ⟨_, ⟨c, hc, a - c.dst, hp, by omega, rfl⟩, (Option.some.inj h).symm⟩
  · rintro ⟨_, ⟨c, hc, p, hp, rfl, rfl⟩, rfl⟩
    refine ⟨c, hc, ?_⟩
    have hcovered : c.dst ≤ c.dst + p ∧ c.dst + p < c.dst + c.size := by omega
    rw [Access.write, if_pos hcovered, Nat.add_sub_cancel_left, Access.value_eq _ hp]

/-- A place to which one byte only is moved has that byte. -/
theorem settles_of_moves {source : ℕ → BitVec 8} (h : Moves l a b)
    (hunique : ∀ b', Moves l a b' → b' = b) :
    Settles (l.map (Access.write source)) a (source b) := by
  refine settles_of_wrote (wrote_iff.mpr ⟨b, h, rfl⟩) fun v hv => ?_
  obtain ⟨b', hb', rfl⟩ := wrote_iff.mp hv
  rw [hunique b' hb']

/-- The loop that copies lines fills a plane. -/
theorem moves_copyLines {dst src dstBpl srcBpl width lines : ℕ} :
    Moves (copyLines dst src dstBpl srcBpl width lines) a b ↔
      Plane dst dstBpl lines width (fun i p => src + i * srcBpl + p) a b := by
  simp only [copyLines, moves_map, mem_range, moves_memcpy]
  rfl

/-- A copy of whole lines fills a plane too. -/
theorem moves_memcpy_lines {dst src bpl lines : ℕ} :
    Moves [.memcpy dst src (lines * bpl)] a b ↔
      Plane dst bpl lines bpl (fun i p => src + i * bpl + p) a b := by
  rw [moves_memcpy]
  constructor
  · rintro ⟨p, hp, rfl, rfl⟩
    obtain ⟨i, hi, q, hq, rfl⟩ := lt_mul_iff.mp hp
    exact ⟨i, hi, q, hq, (Nat.add_assoc ..).symm, (Nat.add_assoc ..).symm⟩
  · rintro ⟨i, hi, q, hq, rfl, rfl⟩
    exact ⟨i * bpl + q, lt_mul_iff.mpr ⟨i, hi, q, hq, rfl⟩, Nat.add_assoc .., Nat.add_assoc ..⟩

end Moves

/-! ## Pictures -/

/-- The samples of a picture: those of `Y` by line and column, the others by every second of both.
-/
structure Picture where
  Y : ℕ → ℕ → BitVec 8
  U : ℕ → ℕ → BitVec 8
  V : ℕ → ℕ → BitVec 8

def nv12Picture (height srcBpl : ℕ) (source : ℕ → BitVec 8) : Picture where
  Y i p := source (i * srcBpl + p)
  U i k := source (height * srcBpl + i * srcBpl + k * 2)
  V i k := source (height * srcBpl + i * srcBpl + (k * 2 + 1))

def yvu420Picture (height srcBpl : ℕ) (source : ℕ → BitVec 8) : Picture where
  Y i p := source (i * srcBpl + p)
  U i k := source (height * srcBpl + srcBpl / 2 * (height / 2) + i * (srcBpl / 2) + k)
  V i k := source (height * srcBpl + i * (srcBpl / 2) + k)

/-- The picture of a YUYV image, with the samples of `U` and `V` from these lines. -/
def yuyvPicture (uLine vLine : ℕ → ℕ) (srcBpl : ℕ) (source : ℕ → BitVec 8) : Picture where
  Y i p := source (i * srcBpl + p * 2)
  U i k := source (uLine i * srcBpl + (k * 4 + 1))
  V i k := source (vLine i * srcBpl + (k * 4 + 3))

/-- The stride of the chroma planes of YV12. -/
def chromaBpl (dstBpl : ℕ) : ℕ := align16 (dstBpl / 2)

/-- The memory holds the picture as YV12 after the writes. -/
structure HoldsYV12 (width height dstBpl : ℕ) (p : Picture) (ws : List (Write ℕ (BitVec 8))) :
    Prop where
  luma : ∀ i < height, ∀ j < width, Settles ws (i * dstBpl + j) (p.Y i j)
  v : ∀ i < height / 2, ∀ k < width / 2,
    Settles ws (height * dstBpl + i * chromaBpl dstBpl + k) (p.V i k)
  u : ∀ i < height / 2, ∀ k < width / 2,
    Settles ws (height * dstBpl + height / 2 * chromaBpl dstBpl + i * chromaBpl dstBpl + k)
      (p.U i k)

/-- The memory holds the picture as NV21, without padding, after the writes. -/
structure HoldsNV21 (width height : ℕ) (p : Picture) (ws : List (Write ℕ (BitVec 8))) :
    Prop where
  luma : ∀ i < height, ∀ j < width, Settles ws (i * width + j) (p.Y i j)
  v : ∀ i < height / 2, ∀ k < width / 2, Settles ws (height * width + i * width + 2 * k) (p.V i k)
  u : ∀ i < height / 2, ∀ k < width / 2,
    Settles ws (height * width + i * width + (2 * k + 1)) (p.U i k)

/-! ## Accesses inside of the images -/

/-- All values of `int` are in range. -/
def Conversion.Defined (c : Conversion) : Prop := ∀ n ∈ c.ints, n < 2 ^ 31

/-- The bytes that are read and written are bytes of the images, and the addresses of the images
give the alignment that the processor demands. -/
def Inside (pSrc pDst srcSize dstSize : ℕ) (l : List Access) : Prop :=
  ∀ c ∈ l, (∀ p < c.size, c.src + p < srcSize ∧ c.dst + p < dstSize) ∧
    c.alignment ∣ pSrc + c.src ∧ c.alignment ∣ pDst + c.dst

theorem inside_of_moves {pSrc pDst srcSize dstSize : ℕ} {l : List Access}
    (halign : ∀ c ∈ l, c.alignment ∣ pSrc + c.src ∧ c.alignment ∣ pDst + c.dst)
    (h : ∀ a b, Moves l a b → b < srcSize ∧ a < dstSize) : Inside pSrc pDst srcSize dstSize l := by
  refine fun c hc => ⟨fun p hp => ?_, halign c hc⟩
  -- the byte that is read at `p` is the one of the other place of the pair
  obtain ⟨hsrc, -⟩ := h _ _ ⟨c, hc, c.lane p, Access.lane_lt hp, rfl, rfl⟩
  obtain ⟨-, hdst⟩ := h _ _ ⟨c, hc, p, hp, rfl, rfl⟩
  rw [Access.lane_lane] at hsrc
  exact ⟨hsrc, hdst⟩

/-- A conversion to YV12 or NV21 that computes no value out of range, stays inside of the images and
gives the picture. -/
structure Right (pSrc pDst srcSize dstSize : ℕ) (source : ℕ → BitVec 8)
    (holds : List (Write ℕ (BitVec 8)) → Prop) (c : Conversion) : Prop where
  defined : c.Defined
  inside : Inside pSrc pDst srcSize dstSize c.accesses
  holds : holds (c.accesses.map (Access.write source))

def sizeYV12 (height dstBpl : ℕ) : ℕ :=
  height * dstBpl + height / 2 * chromaBpl dstBpl + height / 2 * chromaBpl dstBpl

def sizeNV21 (width height : ℕ) : ℕ := height * width + height / 2 * width

end HardwareIntel.Camera.ColorConverter
