import HardwareIntel.Camera.PreviewYv12

/-!
# Which conversions of preview frames are right

All conversions to NV21 give the picture, also the one from NV12 that writes past the end of each
row but the last: the next row repairs it. With those to YV12 they are collected in
`conversions_exact`.
-/

namespace HardwareIntel.Camera.ColorConverter

open List

variable {width height srcBpl dstBpl a b pSrc pDst : ℕ} {source : ℕ → BitVec 8} {l : List Access}

/-- Samples of two kinds in turns. -/
def inTurns (s s' : ℕ → ℕ → ℕ) (i p : ℕ) : ℕ := if p % 2 = 0 then s i (p / 2) else s' i (p / 2)

theorem inTurns_even {s s' : ℕ → ℕ → ℕ} (i k : ℕ) : inTurns s s' i (2 * k) = s i k := by
  rw [inTurns, if_pos (Nat.mul_mod_right 2 k), Nat.mul_div_cancel_left k Nat.two_pos]

theorem inTurns_odd {s s' : ℕ → ℕ → ℕ} (i k : ℕ) : inTurns s s' i (2 * k + 1) = s' i k := by
  have hodd : ¬ (2 * k + 1) % 2 = 0 := by omega
  have hhalf : (2 * k + 1) / 2 = k := by omega
  rw [inTurns, if_neg hodd, hhalf]

/-- Two loops over pairs fill a plane. -/
theorem plane_inTurns {base stride rows columns : ℕ} {s s' : ℕ → ℕ → ℕ} :
    ((∃ i < rows, ∃ j < columns, a = base + i * stride + 2 * j ∧ b = s i j) ∨
        ∃ i < rows, ∃ j < columns, a = base + i * stride + 2 * j + 1 ∧ b = s' i j) ↔
      Plane base stride rows (2 * columns) (inTurns s s') a b := by
  constructor
  · rintro (⟨i, hi, j, hj, rfl, rfl⟩ | ⟨i, hi, j, hj, rfl, rfl⟩)
    · exact ⟨i, hi, 2 * j, by omega, rfl, (inTurns_even i j).symm⟩
    · exact ⟨i, hi, 2 * j + 1, by omega, rfl, (inTurns_odd i j).symm⟩
  · rintro ⟨i, hi, p, hp, rfl, rfl⟩
    obtain ⟨j, rfl | rfl⟩ : ∃ j, p = 2 * j ∨ p = 2 * j + 1 := ⟨p / 2, by omega⟩
    · exact .inl ⟨i, hi, j, by omega, rfl, inTurns_even i j⟩
    · exact .inr ⟨i, hi, j, by omega, rfl, inTurns_odd i j⟩

/-! ## Conversions that fill the planes of NV21 -/

/-- Accesses that fill the two planes of NV21. -/
def FillsNV21 (width height : ℕ) (y v u : ℕ → ℕ → ℕ) (l : List Access) : Prop :=
  ∀ {a b}, Moves l a b ↔ Plane 0 width height width y a b ∨
    Plane (height * width) width (height / 2) width (inTurns v u) a b

namespace FillsNV21

variable {y v u : ℕ → ℕ → ℕ}

theorem holds (h : FillsNV21 width height y v u l) (hwidth : 2 ∣ width) :
    HoldsNV21 width height
      ⟨fun i p => source (y i p), fun i k => source (u i k), fun i k => source (v i k)⟩
      (l.map (Access.write source)) := by
  have hchroma {i p : ℕ} (hi : i < height / 2) (hp : p < width) :
      Settles (l.map (Access.write source)) (height * width + i * width + p)
        (source (inTurns v u i p)) := by
    have hplace := @Plane.intro _ (height * width) width (height / 2) width (inTurns v u) i p hi hp
    refine settles_of_moves (h.mpr (.inr hplace)) fun b' hb' => ?_
    obtain hb' | hb' := h.mp hb'
    · have := hb'.lt le_rfl
      omega
    · exact hb'.unique le_rfl hp
  refine ⟨fun i hi j hj => ?_, fun i hi k hk => ?_, fun i hi k hk => ?_⟩
  · have hplace := @Plane.intro _ 0 width height width y i j hi hj
    have hlt := hplace.lt le_rfl
    rw [← Nat.zero_add (i * width)]
    refine settles_of_moves (h.mpr (.inl hplace)) fun b' hb' => ?_
    obtain hb' | hb' := h.mp hb'
    · exact hb'.unique le_rfl hj
    · have := hb'.le
      omega
  · have hsettles := @hchroma i (2 * k) hi (by omega)
    rwa [inTurns_even] at hsettles
  · have hsettles := @hchroma i (2 * k + 1) hi (by omega)
    rwa [inTurns_odd] at hsettles

theorem inside (h : FillsNV21 width height y v u l) {srcSize : ℕ}
    (hplain : ∀ c ∈ l, c.alignment = 1) (hy : ∀ i < height, ∀ p < width, y i p < srcSize)
    (hv : ∀ i < height / 2, ∀ k < width / 2, v i k < srcSize)
    (hu : ∀ i < height / 2, ∀ k < width / 2, u i k < srcSize) (hwidth : 2 ∣ width) :
    Inside pSrc pDst srcSize (sizeNV21 width height) l := by
  refine inside_of_moves (fun c hc => ?_) fun a b hmoves => ?_
  · rw [hplain c hc]
    exact ⟨one_dvd _, one_dvd _⟩
  · rw [sizeNV21]
    obtain hplane | hplane := h.mp hmoves
    · have hlt := hplane.lt le_rfl
      obtain ⟨i, hi, p, hp, -, rfl⟩ := hplane
      exact ⟨hy i hi p hp, by omega⟩
    · have hlt := hplane.lt le_rfl
      obtain ⟨i, hi, p, hp, -, rfl⟩ := hplane
      refine ⟨?_, by omega⟩
      rw [inTurns]
      split
      · exact hv i hi (p / 2) (by omega)
      · exact hu i hi (p / 2) (by omega)

end FillsNV21

theorem fillsNV21_convertYV12ToNV21 (hwidth : 2 ∣ width) :
    FillsNV21 width height (fun i p => i * srcBpl + p)
      (fun i k => height * srcBpl + i * (srcBpl / 2) + k)
      (fun i k => height * srcBpl + srcBpl / 2 * (height / 2) + i * (srcBpl / 2) + k)
      (convertYV12ToNV21 width height srcBpl width).accesses := by
  intro a b
  have heven : 2 * (width / 2) = width := Nat.mul_div_cancel' hwidth
  have hchroma := @plane_inTurns a b (height * width) width (height / 2) (width / 2)
    (fun i k => height * srcBpl + i * (srcBpl / 2) + k)
    (fun i k => height * srcBpl + srcBpl / 2 * (height / 2) + i * (srcBpl / 2) + k)
  rw [heven] at hchroma
  rw [convertYV12ToNV21, moves_append, moves_luma, moves_loop, ite_self, Nat.mul_comm width height]
  exact or_congr_right hchroma

theorem vCounter_eq (hwidth : 2 ∣ width) (i k : ℕ) :
    vCounter width i (k * 4 + 3) = i / 2 * width + 2 * k := by
  obtain ⟨half, rfl⟩ := hwidth
  have hline : 2 * half * 2 / 4 = half := by omega
  have hcolumn : (k * 4 + 3) / 4 = k := by omega
  rw [vCounter, hline, hcolumn]
  ring

theorem uCounter_eq (hwidth : 2 ∣ width) (i k : ℕ) :
    uCounter width i (k * 4 + 1) = i / 2 * width + 2 * k + 1 := by
  obtain ⟨half, rfl⟩ := hwidth
  have hline : (2 * half * 2 + 2) / 4 = half := by omega
  have hcolumn : (k * 4 + 1 + 2) / 4 = k := by omega
  rw [uCounter, hline, hcolumn]
  ring

/-- One round of `convertYUYVToNV21`. -/
theorem moves_yuyvRound {i j dstY dstV dstU src : ℕ} :
    Moves ((if j % 2 = 0 then [storeByte dstY src] else []) ++
        if i % 2 = 1 then
          if j % 4 = 3 then [storeByte dstV src] else if j % 4 = 1 then [storeByte dstU src] else []
        else []) a b ↔
      (j % 2 = 0 ∧ a = dstY ∧ b = src) ∨ (i % 2 = 1 ∧ j % 4 = 3 ∧ a = dstV ∧ b = src) ∨
        (i % 2 = 1 ∧ j % 4 = 1 ∧ a = dstU ∧ b = src) := by
  have hif {P : Prop} [Decidable P] {l : List Access} :
      Moves (if P then l else []) a b ↔ P ∧ Moves l a b := by
    split
    · next h => exact (and_iff_right h).symm
    · next h => exact ⟨fun h' => absurd h' moves_nil, fun h' => absurd h'.1 h⟩
  rw [moves_append, hif, hif, moves_storeByte, ← and_or_left]
  refine or_congr_right (and_congr_right fun _ => ?_)
  split
  · next h3 =>
    have h1 : ¬ j % 4 = 1 := by omega
    rw [moves_storeByte]
    tauto
  · rw [hif, moves_storeByte]
    tauto

theorem fillsNV21_convertYUYVToNV21 (hwidth : 2 ∣ width) (hheight : 2 ∣ height) :
    FillsNV21 width height (fun i p => i * srcBpl + p * 2)
      (fun i k => (2 * i + 1) * srcBpl + (k * 4 + 3)) (fun i k => (2 * i + 1) * srcBpl + (k * 4 + 1))
      (convertYUYVToNV21 width height srcBpl).accesses := by
  intro a b
  have heven : 2 * (width / 2) = width := Nat.mul_div_cancel' hwidth
  have hchroma := @plane_inTurns a b (height * width) width (height / 2) (width / 2)
    (fun i k => (2 * i + 1) * srcBpl + (k * 4 + 3)) (fun i k => (2 * i + 1) * srcBpl + (k * 4 + 1))
  rw [heven] at hchroma
  simp only [convertYUYVToNV21, moves_flatMap, mem_range, moves_yuyvRound,
    Nat.mul_comm width height]
  rw [← hchroma]
  constructor
  · rintro ⟨i, hi, j, hj, ⟨hj2, rfl, rfl⟩ | ⟨hodd, hj4, rfl, rfl⟩ | ⟨hodd, hj4, rfl, rfl⟩⟩
    · obtain ⟨p, rfl⟩ : ∃ p, j = p * 2 := ⟨j / 2, by omega⟩
      refine .inl ⟨i, hi, p, by omega, ?_, rfl⟩
      rw [Nat.mul_div_cancel p Nat.two_pos, Nat.zero_add]
    · obtain ⟨k, rfl⟩ : ∃ k, j = k * 4 + 3 := ⟨j / 4, by omega⟩
      have hline : 2 * (i / 2) + 1 = i := by omega
      refine .inr (.inl ⟨i / 2, by omega, k, by omega, ?_, ?_⟩)
      · rw [vCounter_eq hwidth, ← Nat.add_assoc]
      · rw [hline]
    · obtain ⟨k, rfl⟩ : ∃ k, j = k * 4 + 1 := ⟨j / 4, by omega⟩
      have hline : 2 * (i / 2) + 1 = i := by omega
      refine .inr (.inr ⟨i / 2, by omega, k, by omega, ?_, ?_⟩)
      · rw [uCounter_eq hwidth, ← Nat.add_assoc, ← Nat.add_assoc]
      · rw [hline]
  · rintro (⟨i, hi, p, hp, rfl, rfl⟩ | ⟨i, hi, k, hk, rfl, rfl⟩ | ⟨i, hi, k, hk, rfl, rfl⟩)
    · refine ⟨i, hi, p * 2, by omega, .inl ⟨Nat.mul_mod_left p 2, ?_, rfl⟩⟩
      rw [Nat.mul_div_cancel p Nat.two_pos, Nat.zero_add]
    · have hhalf : (2 * i + 1) / 2 = i := by omega
      refine ⟨2 * i + 1, by omega, k * 4 + 3, by omega, .inr (.inl ⟨by omega, by omega, ?_, rfl⟩)⟩
      rw [vCounter_eq hwidth, hhalf, ← Nat.add_assoc]
    · have hhalf : (2 * i + 1) / 2 = i := by omega
      refine ⟨2 * i + 1, by omega, k * 4 + 1, by omega, .inr (.inr ⟨by omega, by omega, ?_, rfl⟩)⟩
      rw [uCounter_eq hwidth, hhalf, ← Nat.add_assoc, ← Nat.add_assoc]

/-! ## The rows of `trimConvertNV12ToNV21` -/

/-- A row in which the bytes of each pair change places. -/
def RowSwapped (dst src first width a b : ℕ) : Prop :=
  ∃ p, first ≤ p ∧ p < width ∧ a = dst + p ∧ b = src + partner p

theorem partner_add {m p : ℕ} (hm : 2 ∣ m) : partner (m + p) = m + partner p := by
  simp only [partner]
  split_ifs <;> omega

theorem partner_lt {m p : ℕ} (hm : 2 ∣ m) (hp : p < m) : partner p < m := by
  rw [partner]
  split <;> omega

/-- Accesses of an even size that change places do the same to the row. -/
theorem moves_swaps {dst src size rounds : ℕ} {f : ℕ → Access} (heven : 2 ∣ size)
    (hdst : ∀ k, (f k).dst = dst + size * k) (hsrc : ∀ k, (f k).src = src + size * k)
    (hsize : ∀ k, (f k).size = size) (hlane : ∀ k, (f k).lane = partner) :
    Moves ((List.range rounds).map f) a b ↔ RowSwapped dst src 0 (rounds * size) a b := by
  have hround {k : ℕ} : Moves [f k] a b ↔
      ∃ p < size, a = dst + size * k + p ∧ b = src + size * k + partner p := by
    simp [Moves, exists_eq_left, hdst, hsrc, hsize, hlane]
  simp only [moves_map, mem_range, hround, RowSwapped, Nat.zero_le, true_and]
  constructor
  · rintro ⟨k, hk, p, hp, rfl, rfl⟩
    refine ⟨size * k + p, lt_mul_iff.mpr ⟨k, hk, p, hp, by rw [Nat.mul_comm]⟩,
      Nat.add_assoc .., ?_⟩
    rw [partner_add (heven.mul_right k), Nat.add_assoc]
  · rintro ⟨_, hlt, rfl, rfl⟩
    obtain ⟨k, hk, p, hp, rfl⟩ := lt_mul_iff.mp hlt
    refine ⟨k, hk, p, hp, by rw [Nat.mul_comm, Nat.add_assoc], ?_⟩
    rw [Nat.mul_comm, partner_add (heven.mul_right k), Nat.add_assoc]

theorem moves_swapBytes {dst src first : ℕ} (hfirst : 2 ∣ first) (hwidth : 2 ∣ width) :
    Moves (swapBytes dst src first width) a b ↔ RowSwapped dst src first width a b := by
  have hround {i : ℕ} : Moves [storeByte (dst + i) (src + i + 1), storeByte (dst + i + 1) (src + i)]
      a b ↔ (a = dst + i ∧ b = src + i + 1) ∨ (a = dst + i + 1 ∧ b = src + i) := by
    rw [moves_cons, moves_storeByte, moves_storeByte]
  simp only [swapBytes, moves_flatMap, mem_range, hround, RowSwapped, partner]
  constructor
  · rintro ⟨k, hk, ⟨rfl, rfl⟩ | ⟨rfl, rfl⟩⟩
    · refine ⟨first + 2 * k, by omega, by omega, rfl, ?_⟩
      rw [if_pos (by omega), Nat.add_assoc]
    · refine ⟨first + 2 * k + 1, by omega, by omega, rfl, ?_⟩
      rw [if_neg (by omega), Nat.add_sub_cancel]
  · rintro ⟨p, hlow, hhigh, rfl, rfl⟩
    refine ⟨(p - first) / 2, by omega, ?_⟩
    split <;> omega

/-- Two parts of a row. -/
theorem rowSwapped_append {dst src middle : ℕ} (hmiddle : middle ≤ width) :
    RowSwapped dst src 0 middle a b ∨ RowSwapped dst src middle width a b ↔
      RowSwapped dst src 0 width a b := by
  constructor
  · rintro (⟨p, hlow, hhigh, h⟩ | ⟨p, hlow, hhigh, h⟩)
    · exact ⟨p, hlow, hhigh.trans_le hmiddle, h⟩
    · exact ⟨p, Nat.zero_le p, hhigh, h⟩
  · rintro ⟨p, hlow, hhigh, h⟩
    obtain hp | hp := Nat.lt_or_ge p middle
    · exact .inl ⟨p, hlow, hp, h⟩
    · exact .inr ⟨p, hp, hhigh, h⟩

/-- How far a row is written: rows of sixteen bytes and more up to a multiple of sixteen, except for
the last one. -/
def trimWidth (width : ℕ) (notLastLine : Bool) : ℕ :=
  if 16 ≤ width ∧ notLastLine then (width + 15) / 16 * 16 else width

/-- All paths swap the pairs of the row. -/
theorem moves_trimRow (hwidth : 2 ∣ width) {notLastLine : Bool} {dst src : ℕ} :
    Moves (trimRow width notLastLine pSrc pDst dst src) a b ↔
      RowSwapped dst src 0 (trimWidth width notLastLine) a b := by
  have hsse {aligned : Bool} {n : ℕ} := @moves_swaps a b dst src 16 n
    (fun k => .sseSwap aligned (dst + 16 * k) (src + 16 * k)) (by decide) (fun _ => rfl)
    (fun _ => rfl) (fun _ => rfl) fun _ => rfl
  have hword {n : ℕ} := @moves_swaps a b dst src 4 n
    (fun k => .wordSwap (dst + 4 * k) (src + 4 * k)) (by decide) (fun _ => rfl)
    (fun _ => rfl) (fun _ => rfl) fun _ => rfl
  rw [trimRow, trimWidth]
  by_cases h16 : 16 ≤ width
  · rw [if_pos h16]
    cases notLastLine with
    | false =>
      have hlast : ¬ (16 ≤ width ∧ false = true) := fun h => Bool.false_ne_true h.2
      rw [if_neg hlast]
      change Moves (List.map _ (List.range ((width + 0) / 16 * 16 / 16)) ++ _) a b ↔ _
      rw [moves_append, hsse, Nat.mul_div_cancel _ (by decide), Nat.add_zero]
      change _ ∨ Moves (swapBytes dst src (width / 16 * 16) width) a b ↔ _
      rw [moves_swapBytes (by omega) hwidth, rowSwapped_append (Nat.div_mul_le_self width 16)]
    | true =>
      have hnext : 16 ≤ width ∧ true = true := ⟨h16, rfl⟩
      rw [if_pos hnext]
      change Moves (List.map _ (List.range ((width + 15) / 16 * 16 / 16)) ++ _) a b ↔ _
      rw [moves_append, hsse, Nat.mul_div_cancel _ (by decide)]
      change _ ∨ Moves (swapBytes dst src ((width + 15) / 16 * 16) width) a b ↔ _
      -- the registers have passed the end of the row
      rw [moves_swapBytes (by omega) hwidth]
      refine or_iff_left ?_
      rintro ⟨p, hlow, hhigh, -⟩
      omega
  · have hnarrow : ¬ (16 ≤ width ∧ notLastLine = true) := fun h => h16 h.1
    rw [if_neg h16, if_neg hnarrow]
    split
    · rw [moves_append, hword, Nat.mul_div_cancel _ (by decide),
        moves_swapBytes (by omega) hwidth, rowSwapped_append (Nat.div_mul_le_self width 4)]
    · rw [moves_swapBytes (Nat.dvd_zero 2) hwidth]

theorem even_trimWidth (hwidth : 2 ∣ width) (notLastLine : Bool) :
    2 ∣ trimWidth width notLastLine := by
  rw [trimWidth]
  split <;> omega

theorem le_trimWidth (width : ℕ) (notLastLine : Bool) : width ≤ trimWidth width notLastLine := by
  rw [trimWidth]
  split <;> omega

/-- A row may reach into the next one, but not behind it. -/
theorem trimWidth_le {rows j stride : ℕ} (hj : j < rows) (hstride : width ≤ stride) :
    j * stride + trimWidth width (j + 1 ≠ rows) ≤ rows * stride := by
  obtain ⟨rest, rfl⟩ := Nat.exists_eq_add_of_lt hj
  rw [trimWidth]
  split
  · next h =>
    have hne := of_decide_eq_true h.2
    have hnext : 2 * stride ≤ (rest + 1) * stride := Nat.mul_le_mul_right stride (by omega)
    have hsum : (j + rest + 1) * stride = j * stride + (rest + 1) * stride := by ring
    omega
  · have hsum : (j + rest + 1) * stride = j * stride + stride + rest * stride := by ring
    omega

/-- The loop over the rows of chroma of `trimConvertNV12ToNV21`. -/
def trimChroma (pSrc pDst width height srcBpl : ℕ) : List Access :=
  (List.range (height / 2)).flatMap fun j =>
    trimRow width (j + 1 ≠ height / 2) (pSrc + (srcBpl * height + j * srcBpl))
      (pDst + (width * height + j * width)) (width * height + j * width)
      (srcBpl * height + j * srcBpl)

theorem moves_trimChroma (hwidth : 2 ∣ width) :
    Moves (trimChroma pSrc pDst width height srcBpl) a b ↔ ∃ j < height / 2,
      RowSwapped (width * height + j * width) (srcBpl * height + j * srcBpl) 0
        (trimWidth width (j + 1 ≠ height / 2)) a b := by
  simp [trimChroma, moves_flatMap, moves_trimRow hwidth]

/-- What a row writes behind its end, the next row writes again. -/
theorem settles_trimChroma (hwidth : 2 ∣ width) {i p : ℕ} (hi : i < height / 2) (hp : p < width) :
    Settles ((trimChroma pSrc pDst width height srcBpl).map (Access.write source))
      (width * height + i * width + p) (source (srcBpl * height + i * srcBpl + partner p)) := by
  rw [trimChroma, map_flatMap]
  refine settles_flatMap_range hi ?_ fun k hk hlt v hwrote => ?_
  · refine settles_of_moves ((moves_trimRow hwidth).mpr ?_) fun b' hb' => ?_
    · exact ⟨p, Nat.zero_le p, hp.trans_le (le_trimWidth width _), rfl, rfl⟩
    · obtain ⟨p', -, -, heq, rfl⟩ := (moves_trimRow hwidth).mp hb'
      rw [Nat.add_left_cancel heq]
  · obtain ⟨b', hb', -⟩ := wrote_iff.mp hwrote
    obtain ⟨p', -, -, heq, -⟩ := (moves_trimRow hwidth).mp hb'
    have hnext : (i + 1) * width ≤ k * width := Nat.mul_le_mul_right width hk
    rw [Nat.succ_mul] at hnext
    omega

/-- The lines of luma of `trimConvertNV12ToNV21`. -/
def trimLuma (width height srcBpl : ℕ) : List Access :=
  if srcBpl = width then [.memcpy 0 0 (width * height)]
  else copyLines 0 0 width srcBpl width height

theorem accesses_trimConvert (hsrc : width ≤ srcBpl) :
    (trimConvertNV12ToNV21 pSrc pDst width height srcBpl).accesses =
      trimLuma width height srcBpl ++ trimChroma pSrc pDst width height srcBpl := by
  rw [trimConvertNV12ToNV21, trimLuma]
  by_cases h : srcBpl = width
  · rw [if_pos h, if_pos h]
    rfl
  · rw [if_neg h, if_neg h, if_pos (by omega)]
    rfl

theorem moves_trimLuma : Moves (trimLuma width height srcBpl) a b ↔
    Plane 0 width height width (fun i p => i * srcBpl + p) a b := by
  rw [trimLuma, moves_luma, ite_self]

theorem le_of_moves_trimChroma (hwidth : 2 ∣ width)
    (h : Moves (trimChroma pSrc pDst width height srcBpl) a b) : width * height ≤ a := by
  obtain ⟨j, -, p, -, -, rfl, -⟩ := (moves_trimChroma hwidth).mp h
  omega

/-- The instructions that need aligned addresses are used for aligned addresses only. -/
theorem aligned_trimRow {notLastLine : Bool} {dst src : ℕ} :
    ∀ c ∈ trimRow width notLastLine (pSrc + src) (pDst + dst) dst src,
      c.alignment ∣ pSrc + c.src ∧ c.alignment ∣ pDst + c.dst := by
  have hbytes {first : ℕ} : ∀ c ∈ swapBytes dst src first width,
      c.alignment ∣ pSrc + c.src ∧ c.alignment ∣ pDst + c.dst := by
    simp only [swapBytes, storeByte, forall_mem_flatMap, forall_mem_cons, not_mem_nil,
      false_implies, alignment_memcpy, one_dvd, and_self, implies_true]
  rw [trimRow]
  split
  · rw [forall_mem_append]
    refine ⟨?_, hbytes⟩
    rw [forall_mem_map]
    intro k _
    by_cases h : (pSrc + src) % 16 = 0 ∧ (pDst + dst) % 16 = 0
    · rw [decide_eq_true h]
      change 16 ∣ pSrc + (src + 16 * k) ∧ 16 ∣ pDst + (dst + 16 * k)
      omega
    · rw [decide_eq_false h]
      exact ⟨one_dvd _, one_dvd _⟩
  · split
    · rw [forall_mem_append]
      refine ⟨?_, hbytes⟩
      rw [forall_mem_map]
      exact fun k _ => ⟨one_dvd _, one_dvd _⟩
    · exact hbytes

section

variable (hwidth : 2 ∣ width) (hsrc : width ≤ srcBpl)
include hwidth hsrc

theorem inside_trimConvert :
    Inside pSrc pDst (height * srcBpl + height / 2 * srcBpl) (sizeNV21 width height)
      (trimConvertNV12ToNV21 pSrc pDst width height srcBpl).accesses := by
  rw [accesses_trimConvert hsrc]
  refine inside_of_moves ?_ fun a b hmoves => ?_
  · rw [forall_mem_append]
    constructor
    · rw [trimLuma]
      split <;> simp [copyLines]
    · rw [trimChroma, forall_mem_flatMap]
      exact fun j _ => aligned_trimRow
  · rw [sizeNV21]
    obtain hluma | hchroma := moves_append.mp hmoves
    · have hplane := moves_trimLuma.mp hluma
      have hlt := hplane.lt le_rfl
      obtain ⟨i, hi, p, hp, -, rfl⟩ := hplane
      exact ⟨Nat.lt_add_right _ (place_lt hi (hp.trans_le hsrc)), by omega⟩
    · obtain ⟨j, hj, p, -, hp, rfl, rfl⟩ := (moves_trimChroma hwidth).mp hchroma
      have hsrcRow := trimWidth_le hj hsrc
      have hdstRow := trimWidth_le hj (le_refl width)
      have hpartner := partner_lt (even_trimWidth hwidth _) hp
      rw [Nat.mul_comm srcBpl height, Nat.mul_comm width height]
      omega

theorem holds_trimConvert :
    HoldsNV21 width height (nv12Picture height srcBpl source)
      ((trimConvertNV12ToNV21 pSrc pDst width height srcBpl).accesses.map (Access.write source)) := by
  rw [accesses_trimConvert hsrc, map_append]
  have hchroma {i p : ℕ} (hi : i < height / 2) (hp : p < width) :=
    @settles_trimChroma width height srcBpl pSrc pDst source hwidth i p hi hp
  rw [Nat.mul_comm width height, Nat.mul_comm srcBpl height] at hchroma
  refine ⟨fun i hi j hj => ?_, fun i hi k hk => ?_, fun i hi k hk => ?_⟩
  · have hplace := @Plane.intro _ 0 width height width (fun i p => i * srcBpl + p) i j hi hj
    have hlt := hplace.lt le_rfl
    rw [Nat.zero_add] at hplace hlt
    refine Settles.append_left ?_ fun v hv => ?_
    · refine settles_of_moves (moves_trimLuma.mpr hplace) fun b' hb' => ?_
      rw [moves_trimLuma, ← Nat.zero_add (i * width)] at hb'
      exact @Plane.unique _ 0 width height width (fun i p => i * srcBpl + p) b' i j le_rfl hj hb'
    · obtain ⟨b', hb', -⟩ := wrote_iff.mp hv
      have := le_of_moves_trimChroma hwidth hb'
      rw [Nat.mul_comm] at this
      omega
  · have hpair : partner (2 * k) = k * 2 + 1 := by
      rw [partner, if_pos (Nat.mul_mod_right 2 k), Nat.mul_comm]
    have hsettles := @hchroma i (2 * k) hi (by omega)
    rw [hpair] at hsettles
    exact hsettles.append_right
  · have hpair : partner (2 * k + 1) = k * 2 := by
      rw [partner, if_neg (by omega)]
      omega
    have hsettles := @hchroma i (2 * k + 1) hi (by omega)
    rw [hpair] at hsettles
    exact hsettles.append_right

/-! ## NV21 -/

theorem right_trimConvert :
    Right pSrc pDst (height * srcBpl + height / 2 * srcBpl) (sizeNV21 width height) source
        (HoldsNV21 width height (nv12Picture height srcBpl source))
        (trimConvertNV12ToNV21 pSrc pDst width height srcBpl) ↔
      (trimConvertNV12ToNV21 pSrc pDst width height srcBpl).Defined :=
  ⟨fun h => h.defined, fun h => ⟨h, inside_trimConvert hwidth hsrc, holds_trimConvert hwidth hsrc⟩⟩

end

theorem plain_convertYV12ToNV21 :
    ∀ c ∈ (convertYV12ToNV21 width height srcBpl dstBpl).accesses, c.alignment = 1 := by
  rw [convertYV12ToNV21]
  split_ifs <;> simp only [copyLines, storeByte, forall_mem_append, forall_mem_cons,
    forall_mem_flatMap, forall_mem_map, not_mem_nil, false_implies, alignment_memcpy,
    implies_true, and_self]

theorem right_convertYV12ToNV21 (hwidth : 2 ∣ width) (hsrc : width ≤ srcBpl) :
    Right pSrc pDst (height * srcBpl + height / 2 * (srcBpl / 2) + height / 2 * (srcBpl / 2))
        (sizeNV21 width height) source
        (HoldsNV21 width height (yvu420Picture height srcBpl source))
        (convertYV12ToNV21 width height srcBpl width) ↔
      (convertYV12ToNV21 width height srcBpl width).Defined := by
  have hfills := @fillsNV21_convertYV12ToNV21 width height srcBpl hwidth
  refine ⟨fun h => h.defined, fun h => ⟨h, ?_, hfills.holds hwidth⟩⟩
  refine hfills.inside plain_convertYV12ToNV21 (fun i hi p hp => ?_) (fun i hi k hk => ?_)
    (fun i hi k hk => ?_) hwidth
  · have := place_lt hi (hp.trans_le hsrc)
    omega
  · have hk' : k < srcBpl / 2 := by omega
    have := place_lt hi hk'
    omega
  · have hk' : k < srcBpl / 2 := by omega
    have := place_lt hi hk'
    have hcomm := Nat.mul_comm (srcBpl / 2) (height / 2)
    omega

theorem plain_convertYUYVToNV21 :
    ∀ c ∈ (convertYUYVToNV21 width height srcBpl).accesses, c.alignment = 1 := by
  simp only [convertYUYVToNV21, storeByte, forall_mem_append, forall_mem_flatMap]
  intro i _ j _
  split_ifs <;> simp

theorem right_convertYUYVToNV21 (hwidth : 2 ∣ width) (hheight : 2 ∣ height)
    (hsrc : 2 * width ≤ srcBpl) :
    Right pSrc pDst (height * srcBpl) (sizeNV21 width height) source
        (HoldsNV21 width height
          (yuyvPicture (fun i => 2 * i + 1) (fun i => 2 * i + 1) srcBpl source))
        (convertYUYVToNV21 width height srcBpl) ↔
      (convertYUYVToNV21 width height srcBpl).Defined := by
  have hfills := @fillsNV21_convertYUYVToNV21 width height srcBpl hwidth hheight
  refine ⟨fun h => h.defined, fun h => ⟨h, ?_, hfills.holds hwidth⟩⟩
  refine hfills.inside plain_convertYUYVToNV21 (fun i hi p hp => ?_) (fun i hi k hk => ?_)
    (fun i hi k hk => ?_) hwidth
  · exact place_lt hi (by omega)
  · exact place_lt (by omega) (by omega)
  · exact place_lt (by omega) (by omega)

/-! ## All formats -/

/-- The source strides that are large enough. -/
def Format.Stride (width srcBpl : ℕ) : Format → Prop
  | NV12 | YVU420 => width ≤ srcBpl
  | YUYV => 2 * width ≤ srcBpl

def Format.sourceSize (height srcBpl : ℕ) : Format → ℕ
  | NV12 => height * srcBpl + height / 2 * srcBpl
  | YVU420 => height * srcBpl + height / 2 * (srcBpl / 2) + height / 2 * (srcBpl / 2)
  | YUYV => height * srcBpl

/-- The picture of a source; of two lines of YUYV, `V` is that of the second one. -/
def Format.picture (uLine : ℕ → ℕ) (height srcBpl : ℕ) (source : ℕ → BitVec 8) : Format → Picture
  | NV12 => nv12Picture height srcBpl source
  | YVU420 => yvu420Picture height srcBpl source
  | YUYV => yuyvPicture uLine (fun i => 2 * i + 1) srcBpl source

/-- The sizes that the conversion to YV12 computes are in the range of `int`. -/
def Format.FitsYV12 (width height srcBpl : ℕ) : Format → Prop
  | NV12 => width + 15 < 2 ^ 31 ∧ align16 width * height < 2 ^ 31
  | YVU420 => height * srcBpl < 2 ^ 31 ∧ height * align16 width < 2 ^ 31
  | YUYV => width * height < 2 ^ 31 ∧ chromaBpl (align16 width) * height < 2 ^ 31

/-- The sizes that the conversion to NV21 computes are in the range of `int`. -/
def Format.FitsNV21 (width height srcBpl : ℕ) : Format → Prop
  | NV12 => width * height < 2 ^ 31 ∧ srcBpl * height < 2 ^ 31
  | YVU420 => height * srcBpl < 2 ^ 31 ∧ width * height < 2 ^ 31
  | YUYV => width * height < 2 ^ 31

/-- Where the conversion to YV12 goes wrong. -/
def Format.Misses (width height srcBpl : ℕ) : Format → Prop
  | NV12 => srcBpl = width ∧ width % 16 ≠ 0 ∧ height ≠ 0
  | YVU420 => False
  | YUYV => width % 16 ≠ 0 ∧ height ≠ 0

theorem chromaBpl_align16_le (width : ℕ) : chromaBpl (align16 width) ≤ align16 width := by
  rw [chromaBpl, align16, align16]
  omega

theorem half_mul_half_le (m n : ℕ) : m / 2 * (n / 2) ≤ n * m := by
  rw [Nat.mul_comm n]
  exact Nat.mul_le_mul (Nat.div_le_self m 2) (Nat.div_le_self n 2)

theorem defined_convertBuftoYV12 (f : Format) :
    (convertBuftoYV12 (some f) width height srcBpl (align16 width)).Defined ↔
      f.FitsYV12 width height srcBpl := by
  have hchroma := chromaBpl_align16_le width
  cases f with
  | NV12 =>
    have hints : (align16ConvertNV12ToYV12 width height srcBpl).ints =
        [width + 15, align16 width * height, chromaBpl (align16 width) * height] := by
      rw [align16ConvertNV12ToYV12]
      split_ifs <;> rfl
    have hle : chromaBpl (align16 width) * height ≤ align16 width * height :=
      Nat.mul_le_mul_right height hchroma
    change (∀ n ∈ (align16ConvertNV12ToYV12 width height srcBpl).ints, n < 2 ^ 31) ↔ _ ∧ _
    rw [hints]
    simp only [forall_mem_cons, not_mem_nil, false_implies, implies_true, and_true]
    exact and_congr_right fun _ => and_iff_left_of_imp hle.trans_lt
  | YVU420 =>
    have hdst : height * chromaBpl (align16 width) ≤ height * align16 width :=
      Nat.mul_le_mul_left height hchroma
    have hhalf : chromaBpl (align16 width) * (height / 2) ≤ height * align16 width :=
      (Nat.mul_comm .. ▸ Nat.mul_le_mul (Nat.div_le_self height 2) hchroma)
    have hsrc := half_mul_half_le srcBpl height
    change (∀ n ∈ (copyYV12ToYV12 width height srcBpl (align16 width)).ints, n < 2 ^ 31) ↔ _ ∧ _
    change (∀ n ∈ Conversion.ints (if chromaBpl (align16 width) = srcBpl / 2 then _ else _),
      n < 2 ^ 31) ↔ _
    split <;>
      simp only [forall_mem_cons, not_mem_nil, false_implies, implies_true, and_true]
    · exact and_congr_right fun _ => and_iff_left_of_imp hdst.trans_lt
    · refine ⟨fun h => ⟨h.1, h.2.1⟩, fun h => ⟨h.1, h.2, hsrc.trans_lt h.1, hhalf.trans_lt h.2⟩⟩
  | YUYV =>
    change (∀ n ∈ [width * height, chromaBpl (align16 width) * height], n < 2 ^ 31) ↔ _ ∧ _
    simp

theorem defined_convertBuftoNV21 (f : Format) (hsrc : f.Stride width srcBpl) :
    (convertBuftoNV21 pSrc pDst (some f) width height srcBpl width).Defined ↔
      f.FitsNV21 width height srcBpl := by
  cases f with
  | NV12 =>
    have hints : (trimConvertNV12ToNV21 pSrc pDst width height srcBpl).ints =
        [width * height, srcBpl * height] := by
      have hle : width ≤ srcBpl := hsrc
      rw [trimConvertNV12ToNV21]
      split_ifs
      · rfl
      · rfl
      · omega
    change (∀ n ∈ (trimConvertNV12ToNV21 pSrc pDst width height srcBpl).ints, n < 2 ^ 31) ↔ _ ∧ _
    rw [hints]
    simp
  | YVU420 =>
    have hhalf := half_mul_half_le srcBpl height
    change (∀ n ∈ [height * srcBpl, srcBpl / 2 * (height / 2), width * height], n < 2 ^ 31) ↔ _ ∧ _
    simp only [forall_mem_cons, not_mem_nil, false_implies, implies_true, and_true]
    exact and_congr_right fun h => and_iff_right (hhalf.trans_lt h)
  | YUYV =>
    change (∀ n ∈ [width * height], n < 2 ^ 31) ↔ _
    simp only [forall_mem_cons, not_mem_nil, false_implies, implies_true, and_true]
    rfl

/-- Conversions to NV21 are right for all even sizes and all strides; those to YV12 are right except
where the format misses. -/
theorem conversions_exact {f : Format} (hwidth : 2 ∣ width) (hheight : 2 ∣ height)
    (hstride : f.Stride width srcBpl) (pSrc pDst : ℕ) (source : ℕ → BitVec 8) :
    (Right pSrc pDst (f.sourceSize height srcBpl) (sizeYV12 height (align16 width)) source
        (HoldsYV12 width height (align16 width) (f.picture (fun i => 2 * i) height srcBpl source))
        (convertBuftoYV12 (some f) width height srcBpl (align16 width)) ↔
      f.FitsYV12 width height srcBpl ∧ ¬ f.Misses width height srcBpl) ∧
    (Right pSrc pDst (f.sourceSize height srcBpl) (sizeNV21 width height) source
        (HoldsNV21 width height (f.picture (fun i => 2 * i + 1) height srcBpl source))
        (convertBuftoNV21 pSrc pDst (some f) width height srcBpl width) ↔
      f.FitsNV21 width height srcBpl) := by
  rw [← defined_convertBuftoYV12, ← @defined_convertBuftoNV21 _ _ _ pSrc pDst f hstride]
  cases f with
  | NV12 => exact ⟨right_align16Convert hheight hstride, right_trimConvert hwidth hstride⟩
  | YVU420 =>
    refine ⟨?_, right_convertYV12ToNV21 hwidth hstride⟩
    exact (right_copyYV12ToYV12 hheight hstride (le_align16 width)).trans
      (and_iff_left not_false).symm
  | YUYV =>
    exact ⟨right_convertYUYVToYV12 hheight hwidth hstride,
      right_convertYUYVToNV21 hwidth hheight hstride⟩

theorem conversions_exact_yuyv :
    Right 4096 8192 (2 * 64) (sizeYV12 2 (align16 32)) (fun b => BitVec.ofNat 8 b)
      (HoldsYV12 32 2 (align16 32)
        (yuyvPicture (fun i => 2 * i) (fun i => 2 * i + 1) 64 fun b => BitVec.ofNat 8 b))
      (convertBuftoYV12 (some .YUYV) 32 2 64 (align16 32)) :=
  have hstride : 2 * 32 ≤ 64 := by decide
  have hfits : 32 * 2 < 2 ^ 31 ∧ chromaBpl (align16 32) * 2 < 2 ^ 31 := by decide
  have hmisses : ¬ (32 % 16 ≠ 0 ∧ 2 ≠ 0) := by decide
  (@conversions_exact 32 2 64 .YUYV (by decide) (by decide) hstride 4096 8192
    fun b => BitVec.ofNat 8 b).1.mpr ⟨hfits, hmisses⟩

/-- A picture of 24 columns and two lines, as NV12 without padding and as YUYV. -/
theorem not_right_YV12 :
    (¬ Right 4096 8192 (2 * 24 + 24) (sizeYV12 2 (align16 24)) (fun b => BitVec.ofNat 8 b)
      (HoldsYV12 24 2 (align16 24) (nv12Picture 2 24 fun b => BitVec.ofNat 8 b))
      (convertBuftoYV12 (some .NV12) 24 2 24 (align16 24))) ∧
    ¬ Right 4096 8192 (2 * 48) (sizeYV12 2 (align16 24)) (fun b => BitVec.ofNat 8 b)
      (HoldsYV12 24 2 (align16 24)
        (yuyvPicture (fun i => 2 * i) (fun i => 2 * i + 1) 48 fun b => BitVec.ofNat 8 b))
      (convertBuftoYV12 (some .YUYV) 24 2 48 (align16 24)) := by
  constructor
  · intro h
    exact ((right_align16Convert (by decide) (by decide)).mp h).2 (by decide)
  · intro h
    exact ((right_convertYUYVToYV12 (by decide) (by decide) (by decide)).mp h).2 (by decide)

end HardwareIntel.Camera.ColorConverter
