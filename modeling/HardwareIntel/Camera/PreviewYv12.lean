import HardwareIntel.Camera.PreviewFormats

/-!
# Conversions to YV12

The conversion from YV12 gives the picture. The one from NV12 refuses a stride that is the width
unless it is a multiple of 16, and the one from YUYV puts the lines of luma too close together
unless the width is one.
-/

namespace HardwareIntel.Camera.ColorConverter

open List

variable {width height srcBpl dstBpl a b : ℕ} {source : ℕ → BitVec 8} {l : List Access}

/-! ## Loops over samples -/

/-- A loop that stores two bytes a round. -/
theorem moves_loop {rows columns : ℕ} {dst src dst' src' : ℕ → ℕ → ℕ} :
    Moves ((List.range rows).flatMap fun i => (List.range columns).flatMap fun j =>
        [storeByte (dst i j) (src i j), storeByte (dst' i j) (src' i j)]) a b ↔
      (∃ i < rows, ∃ j < columns, a = dst i j ∧ b = src i j) ∨
        ∃ i < rows, ∃ j < columns, a = dst' i j ∧ b = src' i j := by
  have hround {i j : ℕ} : Moves [storeByte (dst i j) (src i j), storeByte (dst' i j) (src' i j)] a b ↔
      (a = dst i j ∧ b = src i j) ∨ (a = dst' i j ∧ b = src' i j) := by
    rw [moves_cons, moves_storeByte, moves_storeByte]
  simp [moves_flatMap, hround, and_or_left, exists_or]

/-- A loop that copies a line of two planes a round. -/
theorem moves_lines {rows width dst src dstBpl srcBpl dst' src' : ℕ} :
    Moves ((List.range rows).flatMap fun i => [.memcpy (dst + i * dstBpl) (src + i * srcBpl) width,
        .memcpy (dst' + i * dstBpl) (src' + i * srcBpl) width]) a b ↔
      Plane dst dstBpl rows width (fun i p => src + i * srcBpl + p) a b ∨
        Plane dst' dstBpl rows width (fun i p => src' + i * srcBpl + p) a b := by
  have hround {i : ℕ} : Moves [.memcpy (dst + i * dstBpl) (src + i * srcBpl) width,
      .memcpy (dst' + i * dstBpl) (src' + i * srcBpl) width] a b ↔
      (∃ p < width, a = dst + i * dstBpl + p ∧ b = src + i * srcBpl + p) ∨
        ∃ p < width, a = dst' + i * dstBpl + p ∧ b = src' + i * srcBpl + p := by
    rw [moves_cons, moves_memcpy, moves_memcpy]
  simp only [moves_flatMap, mem_range, hround, and_or_left, exists_or]
  rfl

/-- The lines of luma, copied as a whole or one by one. -/
theorem moves_luma : Moves (if srcBpl = dstBpl then [.memcpy 0 0 (dstBpl * height)]
      else copyLines 0 0 dstBpl srcBpl width height) a b ↔
    Plane 0 dstBpl height (if srcBpl = dstBpl then dstBpl else width)
      (fun i p => i * srcBpl + p) a b := by
  split
  · next h =>
    rw [Nat.mul_comm, moves_memcpy_lines, h]
    simp
  · rw [moves_copyLines]
    simp

/-! ## YV12 -/

/-- Accesses that fill the three planes of YV12, where the lines that are moved may be longer than
those of the picture. -/
structure FillsYV12 (width height dstBpl yWidth cWidth : ℕ) (y v u : ℕ → ℕ → ℕ) (l : List Access) :
    Prop where
  moves : ∀ {a b}, Moves l a b ↔ Plane 0 dstBpl height yWidth y a b ∨
    Plane (height * dstBpl) (chromaBpl dstBpl) (height / 2) cWidth v a b ∨
    Plane (height * dstBpl + height / 2 * chromaBpl dstBpl) (chromaBpl dstBpl) (height / 2) cWidth
      u a b
  width_le : width ≤ yWidth
  le_dstBpl : yWidth ≤ dstBpl
  half_le : width / 2 ≤ cWidth
  le_chromaBpl : cWidth ≤ chromaBpl dstBpl

namespace FillsYV12

variable {yWidth cWidth : ℕ} {y v u : ℕ → ℕ → ℕ}

theorem holds (h : FillsYV12 width height dstBpl yWidth cWidth y v u l) :
    HoldsYV12 width height dstBpl
      ⟨fun i p => source (y i p), fun i k => source (u i k), fun i k => source (v i k)⟩
      (l.map (Access.write source)) where
  luma i hi j hj := by
    have hplace := @Plane.intro _ 0 dstBpl height yWidth y i j hi (hj.trans_le h.width_le)
    have hlt := hplace.lt h.le_dstBpl
    rw [← Nat.zero_add (i * dstBpl)]
    refine settles_of_moves (h.moves.mpr (.inl hplace)) fun b' hb' => ?_
    obtain hb' | hb' | hb' := h.moves.mp hb'
    · exact hb'.unique h.le_dstBpl (hj.trans_le h.width_le)
    · have := hb'.le
      omega
    · have := hb'.le
      omega
  v i hi k hk := by
    have hplace := @Plane.intro _ (height * dstBpl) (chromaBpl dstBpl) (height / 2) cWidth v i k hi
      (hk.trans_le h.half_le)
    have hlt := hplace.lt h.le_chromaBpl
    refine settles_of_moves (h.moves.mpr (.inr (.inl hplace))) fun b' hb' => ?_
    obtain hb' | hb' | hb' := h.moves.mp hb'
    · have := hb'.lt h.le_dstBpl
      omega
    · exact hb'.unique h.le_chromaBpl (hk.trans_le h.half_le)
    · have := hb'.le
      omega
  u i hi k hk := by
    have hplace := @Plane.intro _ (height * dstBpl + height / 2 * chromaBpl dstBpl)
      (chromaBpl dstBpl) (height / 2) cWidth u i k hi (hk.trans_le h.half_le)
    refine settles_of_moves (h.moves.mpr (.inr (.inr hplace))) fun b' hb' => ?_
    obtain hb' | hb' | hb' := h.moves.mp hb'
    · have := hb'.lt h.le_dstBpl
      omega
    · have := hb'.lt h.le_chromaBpl
      omega
    · exact hb'.unique h.le_chromaBpl (hk.trans_le h.half_le)

theorem inside (h : FillsYV12 width height dstBpl yWidth cWidth y v u l) {pSrc pDst srcSize : ℕ}
    (hplain : ∀ c ∈ l, c.alignment = 1) (hy : ∀ i < height, ∀ p < yWidth, y i p < srcSize)
    (hv : ∀ i < height / 2, ∀ k < cWidth, v i k < srcSize)
    (hu : ∀ i < height / 2, ∀ k < cWidth, u i k < srcSize) :
    Inside pSrc pDst srcSize (sizeYV12 height dstBpl) l := by
  refine inside_of_moves (fun c hc => ?_) fun a b hmoves => ?_
  · rw [hplain c hc]
    exact ⟨one_dvd _, one_dvd _⟩
  · rw [sizeYV12]
    obtain hplane | hplane | hplane := h.moves.mp hmoves
    · have hlt := hplane.lt h.le_dstBpl
      obtain ⟨i, hi, p, hp, -, rfl⟩ := hplane
      exact ⟨hy i hi p hp, by omega⟩
    · have hlt := hplane.lt h.le_chromaBpl
      obtain ⟨i, hi, p, hp, -, rfl⟩ := hplane
      exact ⟨hv i hi p hp, by omega⟩
    · have hlt := hplane.lt h.le_chromaBpl
      obtain ⟨i, hi, p, hp, -, rfl⟩ := hplane
      exact ⟨hu i hi p hp, by omega⟩

end FillsYV12

theorem le_align16 (x : ℕ) : x ≤ align16 x := by
  rw [align16]
  omega

theorem align16_eq_iff : align16 width = width ↔ width % 16 = 0 := by
  rw [align16]
  omega

theorem half_le_chromaBpl (h : width ≤ dstBpl) : width / 2 ≤ chromaBpl dstBpl :=
  (Nat.div_le_div_right h).trans (le_align16 _)

theorem half_mul (hheight : 2 ∣ height) (c : ℕ) : c * height / 2 = height / 2 * c := by
  rw [Nat.mul_div_assoc c hheight, Nat.mul_comm]

theorem accesses_align16Convert (hstride : srcBpl = align16 width ∨ width < srcBpl) :
    (align16ConvertNV12ToYV12 width height srcBpl).accesses =
      (if srcBpl = align16 width then [.memcpy 0 0 (align16 width * height)]
        else copyLines 0 0 (align16 width) srcBpl width height) ++
      (List.range (height / 2)).flatMap fun i => (List.range (width / 2)).flatMap fun j =>
        [storeByte (align16 width * height + i * chromaBpl (align16 width) + j)
            (height * srcBpl + i * srcBpl + (j * 2 + 1)),
          storeByte (align16 width * height + chromaBpl (align16 width) * height / 2 +
              i * chromaBpl (align16 width) + j) (height * srcBpl + i * srcBpl + j * 2)] := by
  rw [align16ConvertNV12ToYV12]
  by_cases h : srcBpl = align16 width
  · rw [if_pos h, if_pos h]
    rfl
  · rw [if_neg h, if_neg h, if_pos (hstride.resolve_left h)]
    rfl

theorem fillsYV12_align16Convert (hheight : 2 ∣ height)
    (hstride : srcBpl = align16 width ∨ width < srcBpl) :
    FillsYV12 width height (align16 width)
      (if srcBpl = align16 width then align16 width else width) (width / 2)
      (fun i p => i * srcBpl + p) (fun i k => height * srcBpl + i * srcBpl + (k * 2 + 1))
      (fun i k => height * srcBpl + i * srcBpl + k * 2)
      (align16ConvertNV12ToYV12 width height srcBpl).accesses where
  moves {a b} := by
    rw [accesses_align16Convert hstride, moves_append, moves_luma, moves_loop, half_mul hheight,
      Nat.mul_comm (align16 width) height]
    rfl
  width_le := by
    split
    · exact le_align16 width
    · exact le_rfl
  le_dstBpl := by
    split
    · exact le_rfl
    · exact le_align16 width
  half_le := le_rfl
  le_chromaBpl := half_le_chromaBpl (le_align16 width)

/-- The width of the lines of chroma that `copyYV12ToYV12` moves: both planes at once if their
strides agree. -/
def copiedChroma (width srcBpl dstBpl : ℕ) : ℕ :=
  if chromaBpl dstBpl = srcBpl / 2 then chromaBpl dstBpl else width / 2

theorem fillsYV12_copyYV12ToYV12 (hheight : 2 ∣ height) (hdst : width ≤ dstBpl) :
    FillsYV12 width height dstBpl (if srcBpl = dstBpl then dstBpl else width)
      (copiedChroma width srcBpl dstBpl)
      (fun i p => i * srcBpl + p) (fun i k => height * srcBpl + i * (srcBpl / 2) + k)
      (fun i k => height * srcBpl + srcBpl / 2 * (height / 2) + i * (srcBpl / 2) + k)
      (copyYV12ToYV12 width height srcBpl dstBpl).accesses where
  moves {a b} := by
    rw [copyYV12ToYV12, copiedChroma]
    change Moves (Conversion.accesses (if chromaBpl dstBpl = srcBpl / 2 then _ else _)) a b ↔ _
    by_cases h : chromaBpl dstBpl = srcBpl / 2
    · rw [if_pos h, if_pos h, moves_append, moves_luma]
      refine or_congr_right ?_
      change Moves [.memcpy (height * dstBpl) (height * srcBpl) (height * chromaBpl dstBpl)] a b ↔ _
      -- the lines of both planes, cut in the middle
      have hlines : height = height / 2 + height / 2 := by omega
      have hcut := @Plane.cut _ (height * dstBpl) (chromaBpl dstBpl) (height / 2) (height / 2)
        (chromaBpl dstBpl) (fun i p => height * srcBpl + i * chromaBpl dstBpl + p) a b
      rw [← hlines] at hcut
      rw [moves_memcpy_lines, hcut, ← h]
      refine or_congr_right (Plane.congr fun i _ p _ => ?_)
      ring
    · rw [if_neg h, if_neg h, moves_append, moves_luma]
      refine or_congr_right ?_
      rw [Nat.mul_comm (height / 2) (chromaBpl dstBpl), or_comm]
      exact moves_lines
  width_le := by
    split
    · exact hdst
    · exact le_rfl
  le_dstBpl := by
    split
    · exact le_rfl
    · exact hdst
  half_le := by
    rw [copiedChroma]
    split
    · exact half_le_chromaBpl hdst
    · exact le_rfl
  le_chromaBpl := by
    rw [copiedChroma]
    split
    · exact le_rfl
    · exact half_le_chromaBpl hdst

/-- Lines of luma and of one of the two planes of chroma in turns, as far as the lines of luma are
as long as those of YV12. -/
theorem moves_convertYUYVToYV12 (hheight : 2 ∣ height) :
    Moves (convertYUYVToYV12 width height srcBpl dstBpl).accesses a b ↔
      Plane 0 width height width (fun i p => i * srcBpl + p * 2) a b ∨
      Plane (width * height) (chromaBpl dstBpl) (height / 2) (width / 2)
        (fun i k => (2 * i + 1) * srcBpl + (k * 4 + 3)) a b ∨
      Plane (width * height + height / 2 * chromaBpl dstBpl) (chromaBpl dstBpl) (height / 2)
        (width / 2) (fun i k => 2 * i * srcBpl + (k * 4 + 1)) a b := by
  have hsize : align16 (dstBpl / 2) * height / 2 = height / 2 * chromaBpl dstBpl := half_mul hheight _
  simp only [convertYUYVToYV12, moves_flatMap, mem_range, moves_append, hsize]
  constructor
  · rintro ⟨i, hi, h | h⟩
    · simp only [moves_map, mem_range, moves_storeByte] at h
      obtain ⟨j, hj, rfl, rfl⟩ := h
      exact .inl ⟨i, hi, j, hj, by rw [Nat.zero_add], rfl⟩
    · split at h <;> simp only [moves_map, mem_range, moves_storeByte] at h
      · next hodd =>
        obtain ⟨k, hk, rfl, rfl⟩ := h
        have hline : 2 * (i / 2) + 1 = i := by omega
        refine .inr (.inl ⟨i / 2, by omega, k, hk, rfl, ?_⟩)
        simp [hline]
      · next heven =>
        obtain ⟨k, hk, rfl, rfl⟩ := h
        have hline : 2 * (i / 2) = i := by omega
        refine .inr (.inr ⟨i / 2, by omega, k, hk, rfl, ?_⟩)
        simp [hline]
  · rintro (⟨i, hi, j, hj, rfl, rfl⟩ | ⟨i, hi, k, hk, rfl, rfl⟩ | ⟨i, hi, k, hk, rfl, rfl⟩)
    · refine ⟨i, hi, .inl ?_⟩
      simp only [moves_map, mem_range, moves_storeByte]
      exact ⟨j, hj, by rw [Nat.zero_add], rfl⟩
    · have hodd : (2 * i + 1) % 2 = 1 := by omega
      have hhalf : (2 * i + 1) / 2 = i := by omega
      refine ⟨2 * i + 1, by omega, .inr ?_⟩
      rw [if_pos hodd, hhalf]
      simp only [moves_map, mem_range, moves_storeByte]
      exact ⟨k, hk, rfl, rfl⟩
    · have heven : ¬ 2 * i % 2 = 1 := by omega
      have hhalf : 2 * i / 2 = i := by omega
      refine ⟨2 * i, by omega, .inr ?_⟩
      rw [if_neg heven, hhalf]
      simp only [moves_map, mem_range, moves_storeByte]
      exact ⟨k, hk, rfl, rfl⟩

section RightYV12

variable {pSrc pDst : ℕ}

/-- The image that has to be written if there is nothing to write. -/
theorem right_of_height_eq_zero {srcSize dstSize : ℕ} {p : Picture} {c : Conversion}
    (hdefined : c.Defined) (hnil : c.accesses = []) (hheight : height = 0) :
    Right pSrc pDst srcSize dstSize source (HoldsYV12 width height dstBpl p) c := by
  subst hheight
  refine ⟨hdefined, ?_, ?_⟩
  · rw [hnil]
    exact fun c hc => (nomatch hc)
  · exact ⟨fun _ h => absurd h (Nat.not_lt_zero _), fun _ h => absurd h (Nat.not_lt_zero _),
      fun _ h => absurd h (Nat.not_lt_zero _)⟩

/-- A place to which nothing is moved keeps what it had. -/
theorem not_settles {v : BitVec 8} (h : ∀ b, ¬ Moves l a b) :
    ¬ Settles (l.map (Access.write source)) a v := fun hsettles => by
  have : Nontrivial (BitVec 8) := ⟨0, 1, by decide⟩
  obtain ⟨v', hv'⟩ := hsettles.exists_wrote
  obtain ⟨b, hb, -⟩ := wrote_iff.mp hv'
  exact h b hb

theorem plain_align16Convert :
    ∀ c ∈ (align16ConvertNV12ToYV12 width height srcBpl).accesses, c.alignment = 1 := by
  rw [align16ConvertNV12ToYV12]
  split_ifs <;> simp only [copyLines, storeByte, forall_mem_append, forall_mem_cons,
    forall_mem_flatMap, forall_mem_map, not_mem_nil, false_implies, alignment_memcpy,
    implies_true, and_self]

theorem plain_copyYV12ToYV12 :
    ∀ c ∈ (copyYV12ToYV12 width height srcBpl dstBpl).accesses, c.alignment = 1 := by
  rw [copyYV12ToYV12]
  split_ifs <;> simp only [copyLines, forall_mem_append, forall_mem_cons,
    forall_mem_flatMap, forall_mem_map, not_mem_nil, false_implies, alignment_memcpy,
    implies_true, and_self]

theorem plain_convertYUYVToYV12 :
    ∀ c ∈ (convertYUYVToYV12 width height srcBpl dstBpl).accesses, c.alignment = 1 := by
  simp only [convertYUYVToYV12, storeByte, forall_mem_append, forall_mem_flatMap,
    forall_mem_map, alignment_memcpy, implies_true, true_and]
  intro i _
  split <;> simp

/-- The offset of a place in a plane of the source. -/
theorem place_lt {lines bpl i p : ℕ} (hi : i < lines) (hp : p < bpl) : i * bpl + p < lines * bpl :=
  lt_mul_iff.mpr ⟨i, hi, p, hp, rfl⟩

section

variable (hheight : 2 ∣ height)
include hheight

theorem right_align16Convert (hsrc : width ≤ srcBpl) :
    Right pSrc pDst (height * srcBpl + height / 2 * srcBpl) (sizeYV12 height (align16 width)) source
        (HoldsYV12 width height (align16 width) (nv12Picture height srcBpl source))
        (align16ConvertNV12ToYV12 width height srcBpl) ↔
      (align16ConvertNV12ToYV12 width height srcBpl).Defined ∧
        ¬ (srcBpl = width ∧ width % 16 ≠ 0 ∧ height ≠ 0) := by
  by_cases hstride : srcBpl = align16 width ∨ width < srcBpl
  · have hgood : ¬ (srcBpl = width ∧ width % 16 ≠ 0 ∧ height ≠ 0) := by
      rintro ⟨rfl, hrest, -⟩
      have heq := hstride.resolve_right (lt_irrefl _)
      exact hrest (align16_eq_iff.mp heq.symm)
    have hfills := fillsYV12_align16Convert hheight hstride
    refine ⟨fun h => ⟨h.defined, hgood⟩, fun h => ⟨h.1, ?_, hfills.holds⟩⟩
    refine hfills.inside plain_align16Convert (fun i hi p hp => ?_) (fun i hi k hk => ?_)
      fun i hi k hk => ?_
    · have hp' : p < srcBpl := by
        split at hp <;> omega
      have := place_lt hi hp'
      omega
    · have hk' : k * 2 + 1 < srcBpl := by omega
      have := place_lt hi hk'
      omega
    · have hk' : k * 2 < srcBpl := by omega
      have := place_lt hi hk'
      omega
  · have heq : srcBpl = width := by omega
    have hrest : width % 16 ≠ 0 := fun h => by
      have := align16_eq_iff.mpr h
      omega
    have hnil : (align16ConvertNV12ToYV12 width height srcBpl).accesses = [] := by
      rw [align16ConvertNV12ToYV12]
      rw [not_or] at hstride
      rw [if_neg hstride.1, if_neg hstride.2]
    constructor
    · refine fun h => ⟨h.defined, fun ⟨_, _, hne⟩ => ?_⟩
      have hluma := h.holds.luma 0 (by omega) 0 (by omega)
      rw [hnil] at hluma
      exact not_settles (fun b => moves_nil) hluma
    · rintro ⟨hdefined, hgood⟩
      have hzero : height = 0 := by
        by_contra hne
        exact hgood ⟨heq, hrest, hne⟩
      exact right_of_height_eq_zero hdefined hnil hzero

theorem right_copyYV12ToYV12 (hsrc : width ≤ srcBpl) (hdst : width ≤ dstBpl) :
    Right pSrc pDst (height * srcBpl + height / 2 * (srcBpl / 2) + height / 2 * (srcBpl / 2))
        (sizeYV12 height dstBpl) source
        (HoldsYV12 width height dstBpl (yvu420Picture height srcBpl source))
        (copyYV12ToYV12 width height srcBpl dstBpl) ↔
      (copyYV12ToYV12 width height srcBpl dstBpl).Defined := by
  have hfills := @fillsYV12_copyYV12ToYV12 _ _ srcBpl _ hheight hdst
  refine ⟨fun h => h.defined, fun h => ⟨h, ?_, hfills.holds⟩⟩
  have hchroma : copiedChroma width srcBpl dstBpl ≤ srcBpl / 2 := by
    rw [copiedChroma]
    split <;> omega
  refine hfills.inside plain_copyYV12ToYV12 (fun i hi p hp => ?_) (fun i hi k hk => ?_)
    fun i hi k hk => ?_
  · have hp' : p < srcBpl := by
      split at hp <;> omega
    have := place_lt hi hp'
    omega
  · have := place_lt hi (hk.trans_le hchroma)
    omega
  · have := place_lt hi (hk.trans_le hchroma)
    have hcomm := Nat.mul_comm (srcBpl / 2) (height / 2)
    omega

theorem fillsYV12_convertYUYVToYV12 (hdst : dstBpl = width) :
    FillsYV12 width height dstBpl width (width / 2) (fun i p => i * srcBpl + p * 2)
      (fun i k => (2 * i + 1) * srcBpl + (k * 4 + 3)) (fun i k => 2 * i * srcBpl + (k * 4 + 1))
      (convertYUYVToYV12 width height srcBpl dstBpl).accesses where
  moves {a b} := by
    rw [moves_convertYUYVToYV12 hheight, Nat.mul_comm width height, hdst]
  width_le := le_rfl
  le_dstBpl := hdst.ge
  half_le := le_rfl
  le_chromaBpl := half_le_chromaBpl hdst.ge

/-- If the lines of the destination are longer than the picture, the last sample of `U` is not
written. -/
theorem not_moves_last (hpos : height ≠ 0) (hwidth : 2 ≤ width) (hdst : width < dstBpl) :
    ¬ Moves (convertYUYVToYV12 width height srcBpl dstBpl).accesses
      (height * dstBpl + height / 2 * chromaBpl dstBpl + (height / 2 - 1) * chromaBpl dstBpl +
        (width / 2 - 1)) b := by
  rw [moves_convertYUYVToYV12 hheight]
  have hluma : width * height < height * dstBpl := by
    rw [Nat.mul_comm]
    exact Nat.mul_lt_mul_of_pos_left hdst (by omega)
  have hlast {i : ℕ} (hi : i < height / 2) :
      i * chromaBpl dstBpl ≤ (height / 2 - 1) * chromaBpl dstBpl :=
    Nat.mul_le_mul_right _ (by omega)
  rintro (hplane | hplane | ⟨i, hi, k, hk, heq, -⟩)
  · have hlt := hplane.lt le_rfl
    rw [Nat.mul_comm height width] at hlt
    omega
  · have hlt := hplane.lt (half_le_chromaBpl hdst.le)
    omega
  · have := hlast hi
    omega

theorem right_convertYUYVToYV12 (hwidth : 2 ∣ width) (hsrc : 2 * width ≤ srcBpl) :
    Right pSrc pDst (height * srcBpl) (sizeYV12 height (align16 width)) source
        (HoldsYV12 width height (align16 width)
          (yuyvPicture (fun i => 2 * i) (fun i => 2 * i + 1) srcBpl source))
        (convertYUYVToYV12 width height srcBpl (align16 width)) ↔
      (convertYUYVToYV12 width height srcBpl (align16 width)).Defined ∧
        ¬ (width % 16 ≠ 0 ∧ height ≠ 0) := by
  constructor
  · refine fun h => ⟨h.defined, fun ⟨hrest, hpos⟩ => ?_⟩
    have hdst : width < align16 width :=
      (le_align16 width).lt_of_ne fun heq => hrest (align16_eq_iff.mp heq.symm)
    have hlast := h.holds.u (height / 2 - 1) (by omega) (width / 2 - 1) (by omega)
    exact not_settles (fun b => not_moves_last hheight hpos (by omega) hdst) hlast
  · rintro ⟨hdefined, hgood⟩
    by_cases hzero : height = 0
    · refine right_of_height_eq_zero hdefined ?_ hzero
      rw [convertYUYVToYV12, hzero]
      rfl
    · have hdst : align16 width = width := align16_eq_iff.mpr (by tauto)
      have hfills := @fillsYV12_convertYUYVToYV12 _ _ srcBpl _ hheight hdst
      refine ⟨hdefined, ?_, hfills.holds⟩
      refine hfills.inside plain_convertYUYVToYV12 (fun i hi p hp => ?_) (fun i hi k hk => ?_)
        fun i hi k hk => ?_
      · exact place_lt hi (by omega)
      · exact place_lt (by omega) (by omega)
      · exact place_lt (by omega) (by omega)

end

end RightYV12

end HardwareIntel.Camera.ColorConverter
