import Mathlib.Algebra.Ring.Parity
import Mathlib.Tactic.Linarith
import Mathlib.Tactic.Positivity
import Mathlib.Tactic.Ring
import HardwareIntel.Library.Moves

/-!
# Re-padding of YUV420 frames

`repadYUV420` moves the three planes of a frame to another stride, the last line first. In place every line
is read before it is written over, so `memmove` gives what disjoint buffers give: `samples_in_place`. The
choice of `memcpy` is made once, from the distance of the last chroma lines, and the first luma line does
not move at all: `repad_in_place_iff`.
-/

namespace HardwareIntel.Camera.RepadYuv

open List

/-- The loops of `repadYUV420`: `n` lines of `size` bytes, upwards. -/
def lines (size : ℕ) (srcBpl dstBpl : ℤ) : ℕ → ℤ → ℤ → List Move
  | 0, _, _ => []
  | n + 1, sptr, dptr => ⟨dptr, sptr, size⟩ :: lines size srcBpl dstBpl n (sptr - srcBpl) (dptr - dstBpl)

/-- The planes in the order of the code, each from its last line. -/
def planes (width height srcBpl dstBpl : ℕ) (src dst : ℤ) : List Move :=
  let whalf := width / 2
  let hhalf := height / 2
  let scBpl : ℤ := (srcBpl / 2 : ℕ)
  let dcBpl : ℤ := (dstBpl / 2 : ℕ)
  let sySize : ℤ := height * srcBpl
  let dySize : ℤ := height * dstBpl
  let scSize : ℤ := hhalf * scBpl
  let dcSize : ℤ := hhalf * dcBpl
  lines whalf scBpl dcBpl hhalf (src + sySize + 2 * scSize - scBpl) (dst + dySize + 2 * dcSize - dcBpl) ++
    lines whalf scBpl dcBpl hhalf (src + sySize + scSize - scBpl) (dst + dySize + dcSize - dcBpl) ++
    lines width srcBpl dstBpl height (src + sySize - srcBpl) (dst + dySize - dstBpl)

/-- `sptr - dptr` at the last line of the last chroma plane. -/
def distance (height srcBpl dstBpl : ℕ) (src dst : ℤ) : ℤ :=
  (src + (height * srcBpl : ℕ) + 2 * (height / 2 * (srcBpl / 2) : ℕ) - (srcBpl / 2 : ℕ)) -
    (dst + (height * dstBpl : ℕ) + 2 * (height / 2 * (dstBpl / 2) : ℕ) - (dstBpl / 2 : ℕ))

/-- The products of type `int` stay below `2 ^ 31`. -/
def NoOverflow (height srcBpl dstBpl : ℕ) : Prop :=
  height * srcBpl < 2 ^ 31 ∧ height * dstBpl < 2 ^ 31 ∧
    2 * (height / 2 * (srcBpl / 2)) < 2 ^ 31 ∧ 2 * (height / 2 * (dstBpl / 2)) < 2 ^ 31

instance (height srcBpl dstBpl : ℕ) : Decidable (NoOverflow height srcBpl dstBpl) :=
  instDecidableAnd

/-- `repadYUV420`. There is no result if an `int` overflows or `memcpy` gets overlapping ranges. -/
def repadYUV420 (width height srcBpl dstBpl : ℕ) (src dst : ℤ) (m : ℤ → UInt8) :
    Option (ℤ → UInt8) :=
  let size := height * dstBpl + 2 * (height / 2 * (dstBpl / 2))
  if ¬ NoOverflow height srcBpl dstBpl then none
  else if srcBpl = dstBpl then
    if size < 2 ^ 31 then Move.memcpy m ⟨dst, src, size⟩ else none
  else if (dstBpl : ℤ) < |distance height srcBpl dstBpl src dst| then
    copies m (planes width height srcBpl dstBpl src dst)
  else some (moves m (planes width height srcBpl dstBpl src dst))

/-- The offsets of the samples in a frame of the given stride: the luma lines, then the lines of the two
chroma planes. -/
inductive IsSample (width height bpl : ℕ) : ℕ → Prop
  | luma {i c : ℕ} (hi : i < height) (hc : c < width) : IsSample width height bpl (i * bpl + c)
  | first {i c : ℕ} (hi : i < height / 2) (hc : c < width / 2) :
    IsSample width height bpl (height * bpl + i * (bpl / 2) + c)
  | second {i c : ℕ} (hi : i < height / 2) (hc : c < width / 2) :
    IsSample width height bpl (height * bpl + height / 2 * (bpl / 2) + i * (bpl / 2) + c)

/-- The bytes of a frame. -/
def frameSize (height bpl : ℕ) : ℕ := height * bpl + 2 * (height / 2 * (bpl / 2))

/-- In place the frame gets the samples that a disjoint destination gets, and neither call is undefined. -/
def InPlaceSafe (width height srcBpl dstBpl : ℕ) : Prop :=
  ∀ (src dst : ℤ) (m : ℤ → UInt8),
    Apart src (frameSize height srcBpl) dst (frameSize height dstBpl) →
    ∃ inPlace disjoint,
      repadYUV420 width height srcBpl dstBpl src src m = some inPlace ∧
      repadYUV420 width height srcBpl dstBpl src dst m = some disjoint ∧
      ∀ o, IsSample width height dstBpl o → inPlace (src + o) = disjoint (dst + o)

/-- The second move reads and writes below the first. -/
structure Below (first second : Move) : Prop where
  source : second.src + second.size ≤ first.src
  target : second.dst + second.size ≤ first.dst

theorem Below.keeps_of_le {first second : Move} (h : Below first second)
    (hup : first.src ≤ first.dst) : first.Keeps second :=
  ⟨.inr (h.source.trans hup), .inr h.target⟩

/-- The moves of a plane whose first lines are at `S` and `D`. -/
def plane (size srcBpl dstBpl n : ℕ) (S D : ℤ) : List Move :=
  lines size srcBpl dstBpl n (S + n * srcBpl - srcBpl) (D + n * dstBpl - dstBpl)

/-- The loop starts with the last line. -/
theorem plane_succ (size srcBpl dstBpl n : ℕ) (S D : ℤ) :
    plane size srcBpl dstBpl (n + 1) S D =
      ⟨D + n * dstBpl, S + n * srcBpl, size⟩ :: plane size srcBpl dstBpl n S D := by
  have hline (a b : ℤ) : a + (n + 1 : ℕ) * b - b = a + n * b := by
    push_cast
    ring
  rw [plane, lines, hline, hline]
  rfl

theorem mem_plane {size srcBpl dstBpl : ℕ} {S D : ℤ} {mv : Move} : ∀ {n : ℕ},
    mv ∈ plane size srcBpl dstBpl n S D ↔
      ∃ j < n, mv = ⟨D + j * dstBpl, S + j * srcBpl, size⟩
  | 0 => by simp [plane, lines]
  | n + 1 => by
    rw [plane_succ, mem_cons, mem_plane]
    constructor
    · rintro (rfl | ⟨j, hj, rfl⟩)
      · exact ⟨n, n.lt_succ_self, rfl⟩
      · exact ⟨j, hj.trans n.lt_succ_self, rfl⟩
    · rintro ⟨j, hj, rfl⟩
      obtain hj | rfl := Nat.lt_succ_iff_lt_or_eq.mp hj
      · exact .inr ⟨j, hj, rfl⟩
      · exact .inl rfl

/-- A line ends before a later one starts. -/
theorem line_add_le {size bpl : ℕ} (hsize : size ≤ bpl) {j n : ℕ} (hj : j < n) :
    (j * bpl + size : ℤ) ≤ n * bpl := by
  have hnat : j * bpl + size ≤ n * bpl := by
    calc j * bpl + size ≤ j * bpl + bpl := Nat.add_le_add_left hsize _
      _ = (j + 1) * bpl := (Nat.succ_mul j bpl).symm
      _ ≤ n * bpl := Nat.mul_le_mul_right bpl hj
  exact_mod_cast hnat

theorem plane_below {size srcBpl dstBpl : ℕ} (hs : size ≤ srcBpl) (hd : size ≤ dstBpl) (S D : ℤ) :
    ∀ n : ℕ, (plane size srcBpl dstBpl n S D).Pairwise Below
  | 0 => List.Pairwise.nil
  | n + 1 => by
    rw [plane_succ]
    refine pairwise_cons.mpr ⟨fun mv hmv => ?_, plane_below hs hd S D n⟩
    obtain ⟨j, hj, rfl⟩ := mem_plane.mp hmv
    constructor
    · have hline := line_add_le hs hj
      simp only
      omega
    · have hline := line_add_le hd hj
      simp only
      omega

/-- A move inside the ranges of a source and of a destination. -/
structure Within (S D : ℤ) (srcSize dstSize : ℕ) (mv : Move) : Prop where
  source : S ≤ mv.src ∧ mv.src + mv.size ≤ S + srcSize
  target : D ≤ mv.dst ∧ mv.dst + mv.size ≤ D + dstSize

theorem within_of_mem_plane {size srcBpl dstBpl n : ℕ} (hs : size ≤ srcBpl) (hd : size ≤ dstBpl)
    {S D : ℤ} {mv : Move} (hmv : mv ∈ plane size srcBpl dstBpl n S D) :
    Within S D (n * srcBpl) (n * dstBpl) mv := by
  obtain ⟨j, hj, rfl⟩ := mem_plane.mp hmv
  have hsrc := line_add_le hs hj
  have hdst := line_add_le hd hj
  have hsrc₀ : (0 : ℤ) ≤ j * srcBpl := by positivity
  have hdst₀ : (0 : ℤ) ≤ j * dstBpl := by positivity
  constructor <;> simp only [Nat.cast_mul] <;> omega

/-- A plane that starts where another one ends is moved first. -/
theorem Within.below {S D S' D' : ℤ} {srcSize dstSize srcSize' dstSize' : ℕ} {first second : Move}
    (hfirst : Within S D srcSize dstSize first) (hsecond : Within S' D' srcSize' dstSize' second)
    (hS : S' + srcSize' ≤ S) (hD : D' + dstSize' ≤ D) : Below first second :=
  ⟨hsecond.source.2.trans (hS.trans hfirst.source.1),
    hsecond.target.2.trans (hD.trans hfirst.target.1)⟩

/-- A move out of one range into another one. -/
theorem Within.apart {S D : ℤ} {srcSize dstSize : ℕ} {first second : Move}
    (hfirst : Within S D srcSize dstSize first) (hsecond : Within S D srcSize dstSize second)
    (h : Apart S srcSize D dstSize) : Apart first.dst first.size second.src second.size := by
  have hdst := hfirst.target
  have hsrc := hsecond.source
  simp only [Apart] at h ⊢
  omega

section

variable {a b p q : ℕ}

theorem planes_eq (src dst : ℤ) :
    planes (2 * a) (2 * b) (2 * p) (2 * q) src dst =
      plane a p q b (src + (5 * (b * p) : ℕ)) (dst + (5 * (b * q) : ℕ)) ++
        plane a p q b (src + (4 * (b * p) : ℕ)) (dst + (4 * (b * q) : ℕ)) ++
        plane (2 * a) (2 * p) (2 * q) (2 * b) src dst := by
  have hhalf (n : ℕ) : 2 * n / 2 = n := Nat.mul_div_cancel_left n Nat.two_pos
  simp only [planes, plane, hhalf]
  congr! 2
  · congr! 1 <;> push_cast <;> ring
  · congr! 1 <;> push_cast <;> ring

theorem planes_below (hs : a ≤ p) (hd : a ≤ q) (src dst : ℤ) :
    (planes (2 * a) (2 * b) (2 * p) (2 * q) src dst).Pairwise Below := by
  have hs₂ : 2 * a ≤ 2 * p := Nat.mul_le_mul_left 2 hs
  have hd₂ : 2 * a ≤ 2 * q := Nat.mul_le_mul_left 2 hd
  have hluma (n : ℕ) : 2 * b * (2 * n) = 4 * (b * n) := by ring
  rw [planes_eq]
  refine pairwise_append.mpr ⟨pairwise_append.mpr ⟨plane_below hs hd _ _ _,
    plane_below hs hd _ _ _, ?_⟩, plane_below hs₂ hd₂ _ _ _, ?_⟩
  · intro first hfirst second hsecond
    refine (within_of_mem_plane hs hd hfirst).below (within_of_mem_plane hs hd hsecond) ?_ ?_ <;>
      omega
  · intro first hfirst second hsecond
    have hsecond := within_of_mem_plane hs₂ hd₂ hsecond
    rw [hluma, hluma] at hsecond
    obtain hfirst | hfirst := mem_append.mp hfirst <;>
      refine (within_of_mem_plane hs hd hfirst).below hsecond ?_ ?_ <;> omega

theorem planes_within (hs : a ≤ p) (hd : a ≤ q) (src dst : ℤ) {mv : Move}
    (hmv : mv ∈ planes (2 * a) (2 * b) (2 * p) (2 * q) src dst) :
    Within src dst (frameSize (2 * b) (2 * p)) (frameSize (2 * b) (2 * q)) mv := by
  have hsize (n : ℕ) : frameSize (2 * b) (2 * n) = 6 * (b * n) := by
    rw [frameSize, Nat.mul_div_cancel_left b Nat.two_pos, Nat.mul_div_cancel_left n Nat.two_pos]
    ring
  have hluma (n : ℕ) : 2 * b * (2 * n) = 4 * (b * n) := by ring
  rw [planes_eq, mem_append, mem_append] at hmv
  rw [hsize, hsize]
  obtain (hmv | hmv) | hmv := hmv
  · obtain ⟨hsrc, hdst⟩ := within_of_mem_plane hs hd hmv
    constructor <;> omega
  · obtain ⟨hsrc, hdst⟩ := within_of_mem_plane hs hd hmv
    constructor <;> omega
  · obtain ⟨hsrc, hdst⟩ := within_of_mem_plane (Nat.mul_le_mul_left 2 hs)
      (Nat.mul_le_mul_left 2 hd) hmv
    rw [hluma] at hsrc hdst
    constructor <;> omega

/-- In place no line moves downwards. -/
theorem planes_up (hpq : p ≤ q) (src : ℤ) {mv : Move}
    (hmv : mv ∈ planes (2 * a) (2 * b) (2 * p) (2 * q) src src) : mv.src ≤ mv.dst := by
  have hle (n : ℕ) : (n * p : ℤ) ≤ n * q := by exact_mod_cast Nat.mul_le_mul_left n hpq
  have hb := hle b
  rw [planes_eq, mem_append, mem_append] at hmv
  obtain (hmv | hmv) | hmv := hmv <;> obtain ⟨j, -, rfl⟩ := mem_plane.mp hmv <;>
    have hj := hle j <;> push_cast <;> linarith

theorem planes_keeps_in_place (hap : a ≤ p) (hpq : p ≤ q) (src : ℤ) :
    (planes (2 * a) (2 * b) (2 * p) (2 * q) src src).Pairwise Move.Keeps :=
  (planes_below hap (hap.trans hpq) src src).imp_of_mem fun hfirst _ hbelow =>
    hbelow.keeps_of_le (planes_up hpq src hfirst)

section Disjoint

variable {src dst : ℤ} (happ : Apart src (frameSize (2 * b) (2 * p)) dst (frameSize (2 * b) (2 * q)))

include happ

theorem planes_keeps_disjoint (hap : a ≤ p) (haq : a ≤ q) :
    (planes (2 * a) (2 * b) (2 * p) (2 * q) src dst).Pairwise Move.Keeps :=
  (planes_below hap haq src dst).imp_of_mem fun hfirst hsecond hbelow =>
    ⟨(planes_within hap haq src dst hfirst).apart (planes_within hap haq src dst hsecond) happ,
      .inr hbelow.target⟩

theorem planes_disjoint (hap : a ≤ p) (haq : a ≤ q) {mv : Move}
    (hmv : mv ∈ planes (2 * a) (2 * b) (2 * p) (2 * q) src dst) : mv.Disjoint :=
  .inr ((planes_within hap haq src dst hmv).apart (planes_within hap haq src dst hmv) happ)

end Disjoint

/-- A sample is moved from an offset of the source that does not depend on the addresses. -/
theorem sample_moved {o : ℕ} (ho : IsSample (2 * a) (2 * b) (2 * q) o) :
    ∃ o' : ℤ, ∀ src dst, ∃ mv ∈ planes (2 * a) (2 * b) (2 * p) (2 * q) src dst, ∃ c < mv.size,
      dst + o = mv.dst + c ∧ src + o' = mv.src + c := by
  have hhalf (n : ℕ) : 2 * n / 2 = n := Nat.mul_div_cancel_left n Nat.two_pos
  simp only [planes_eq, mem_append]
  cases ho with
  | @luma i c hi hc =>
    refine ⟨i * (2 * p : ℕ) + c, fun src dst => ⟨_, .inr (mem_plane.mpr ⟨i, hi, rfl⟩), c, hc, ?_, ?_⟩⟩ <;>
      push_cast <;> ring
  | @first i c hi hc =>
    rw [hhalf] at hi hc
    refine ⟨(4 * (b * p) : ℕ) + i * p + c, fun src dst =>
      ⟨_, .inl (.inr (mem_plane.mpr ⟨i, hi, rfl⟩)), c, hc, ?_, ?_⟩⟩
    · rw [hhalf]
      push_cast
      ring
    · ring
  | @second i c hi hc =>
    rw [hhalf] at hi hc
    refine ⟨(5 * (b * p) : ℕ) + i * p + c, fun src dst =>
      ⟨_, .inl (.inl (mem_plane.mpr ⟨i, hi, rfl⟩)), c, hc, ?_, ?_⟩⟩
    · rw [hhalf, hhalf]
      push_cast
      ring
    · ring

/-- Moved line by line in place, the frame gets the samples that a disjoint destination gets. -/
theorem samples_in_place (hap : a ≤ p) (hpq : p ≤ q) {src dst : ℤ}
    (happ : Apart src (frameSize (2 * b) (2 * p)) dst (frameSize (2 * b) (2 * q))) (m : ℤ → UInt8)
    {o : ℕ} (ho : IsSample (2 * a) (2 * b) (2 * q) o) :
    moves m (planes (2 * a) (2 * b) (2 * p) (2 * q) src src) (src + o) =
      moves m (planes (2 * a) (2 * b) (2 * p) (2 * q) src dst) (dst + o) := by
  have hinPlace := planes_keeps_in_place (b := b) hap hpq src
  have hdisjoint := planes_keeps_disjoint happ hap (hap.trans hpq)
  obtain ⟨o', ho'⟩ := sample_moved (p := p) ho
  obtain ⟨mv, hmv, c, hc, hdst, hsrc⟩ := ho' src src
  obtain ⟨mv', hmv', c', hc', hdst', hsrc'⟩ := ho' src dst
  calc moves m (planes (2 * a) (2 * b) (2 * p) (2 * q) src src) (src + o)
      = m (src + o') := by rw [hdst, moves_at hinPlace m hmv hc, hsrc]
    _ = moves m (planes (2 * a) (2 * b) (2 * p) (2 * q) src dst) (dst + o) := by
      rw [hdst', moves_at hdisjoint m hmv' hc', hsrc']

theorem noOverflow_iff (hpq : p ≤ q) :
    NoOverflow (2 * b) (2 * p) (2 * q) ↔ 2 * b * (2 * q) < 2 ^ 31 := by
  have hhalf (n : ℕ) : 2 * n / 2 = n := Nat.mul_div_cancel_left n Nat.two_pos
  have hle : b * p ≤ b * q := Nat.mul_le_mul_left b hpq
  have hluma (n : ℕ) : 2 * b * (2 * n) = 4 * (b * n) := by ring
  simp only [NoOverflow, hhalf, hluma]
  omega

theorem distance_in_place (b p e : ℕ) (src : ℤ) :
    distance (2 * b) (2 * p) (2 * (p + e)) src src = e - (6 * b * e : ℕ) := by
  have hhalf (n : ℕ) : 2 * n / 2 = n := Nat.mul_div_cancel_left n Nat.two_pos
  rw [distance, hhalf, hhalf, hhalf]
  push_cast
  ring

/-- In place the last chroma lines are further apart than a line is long. -/
theorem lt_distance_iff (hpq : p < q) (src : ℤ) :
    ((2 * q : ℕ) : ℤ) < |distance (2 * b) (2 * p) (2 * q) src src| ↔
      2 * (2 * q) < (3 * (2 * b) - 1) * (2 * q - 2 * p) := by
  obtain ⟨e, rfl⟩ := Nat.exists_eq_add_of_le hpq.le
  have hsub : 2 * (p + e) - 2 * p = 2 * e := by omega
  rw [distance_in_place, hsub]
  cases b with
  | zero =>
    have habs : |(e - (6 * 0 * e : ℕ) : ℤ)| = e := by simp
    omega
  | succ b =>
    have hmul : (3 * (2 * (b + 1)) - 1) * (2 * e) = 2 * ((6 * b + 5) * e) := by
      rw [show 3 * (2 * (b + 1)) - 1 = 6 * b + 5 by omega]
      ring
    have hneg : (e - (6 * (b + 1) * e : ℕ) : ℤ) = -((6 * b + 5) * e : ℕ) := by
      push_cast
      ring
    rw [hneg, abs_neg, Nat.abs_cast, hmul]
    omega

/-- The first luma line stays where it is. -/
theorem not_disjoint_of_pos (ha : 0 < a) (hb : 0 < b) (src : ℤ) :
    ¬ ∀ mv ∈ planes (2 * a) (2 * b) (2 * p) (2 * q) src src, mv.Disjoint := by
  intro h
  have hmem : ⟨src + (0 : ℕ) * (2 * q : ℕ), src + (0 : ℕ) * (2 * p : ℕ), 2 * a⟩ ∈
      planes (2 * a) (2 * b) (2 * p) (2 * q) src src := by
    exact mem_append_right _ (mem_plane.mpr ⟨0, Nat.mul_pos Nat.two_pos hb, rfl⟩)
  have hline := h _ hmem
  simp only [Move.Disjoint, Apart] at hline
  omega

theorem disjoint_of_width_zero (src dst : ℤ) {mv : Move}
    (hmv : mv ∈ planes (2 * 0) (2 * b) (2 * p) (2 * q) src dst) : mv.Disjoint := by
  rw [planes_eq, mem_append, mem_append] at hmv
  obtain (hmv | hmv) | hmv := hmv <;> obtain ⟨j, -, rfl⟩ := mem_plane.mp hmv <;> exact .inl rfl

/-- The lines are moved in the order of `planes` unless `memcpy` is given overlapping ranges. -/
theorem repadYUV420_eq (hpq : p < q) (src dst : ℤ) (m : ℤ → UInt8) :
    repadYUV420 (2 * a) (2 * b) (2 * p) (2 * q) src dst m =
      if 2 * b * (2 * q) < 2 ^ 31 ∧
          (((2 * q : ℕ) : ℤ) < |distance (2 * b) (2 * p) (2 * q) src dst| →
            ∀ mv ∈ planes (2 * a) (2 * b) (2 * p) (2 * q) src dst, mv.Disjoint) then
        some (moves m (planes (2 * a) (2 * b) (2 * p) (2 * q) src dst))
      else none := by
  have hne : 2 * p ≠ 2 * q := by omega
  simp only [repadYUV420, noOverflow_iff hpq.le]
  by_cases hsize : 2 * b * (2 * q) < 2 ^ 31
  · by_cases hfar : ((2 * q : ℕ) : ℤ) < |distance (2 * b) (2 * p) (2 * q) src dst|
    · simp only [hsize, hne, hfar, not_true_eq_false, if_true, if_false, true_and, forall_const,
        copies_eq]
    · simp only [hsize, hne, hfar, not_true_eq_false, if_false, true_and, false_imp_iff, if_true]
  · simp only [hsize, not_false_eq_true, if_true, false_and, if_false]

end

/-- Re-padding in place is safe exactly when no `int` overflows and the last chroma lines are no further
apart than a line is long, so that `memmove` is chosen. -/
theorem repad_in_place_iff {width height srcBpl dstBpl : ℕ} (hwidth : Even width)
    (hheight : Even height) (hsrc : Even srcBpl) (hdst : Even dstBpl) (hws : width ≤ srcBpl)
    (hsd : srcBpl < dstBpl) :
    InPlaceSafe width height srcBpl dstBpl ↔
      height * dstBpl < 2 ^ 31 ∧
        (width = 0 ∨ (3 * height - 1) * (dstBpl - srcBpl) ≤ 2 * dstBpl) := by
  obtain ⟨a, rfl⟩ := hwidth.two_dvd
  obtain ⟨b, rfl⟩ := hheight.two_dvd
  obtain ⟨p, rfl⟩ := hsrc.two_dvd
  obtain ⟨q, rfl⟩ := hdst.two_dvd
  have hap : a ≤ p := Nat.le_of_mul_le_mul_left hws Nat.two_pos
  have hpq : p < q := Nat.lt_of_mul_lt_mul_left hsd
  constructor
  · intro h
    have hfar : Apart 0 (frameSize (2 * b) (2 * p)) (frameSize (2 * b) (2 * p))
        (frameSize (2 * b) (2 * q)) := .inl (Int.zero_add _).le
    obtain ⟨inPlace, -, hinPlace, -, -⟩ := h 0 (frameSize (2 * b) (2 * p)) (fun _ => 0) hfar
    rw [repadYUV420_eq hpq] at hinPlace
    obtain ⟨⟨hsize, hcopies⟩, -⟩ := Option.ite_none_right_eq_some.mp hinPlace
    refine ⟨hsize, ?_⟩
    by_contra hunsafe
    obtain ⟨ha, hlt⟩ := not_or.mp hunsafe
    have hb : 0 < b := by
      refine Nat.pos_of_ne_zero ?_
      rintro rfl
      omega
    exact not_disjoint_of_pos (by omega) hb 0
      (hcopies ((lt_distance_iff hpq 0).mpr (not_le.mp hlt)))
  · rintro ⟨hsize, hsafe⟩ src dst m happ
    refine ⟨_, _, ?_, ?_, fun o ho => samples_in_place hap hpq.le happ m ho⟩
    · rw [repadYUV420_eq hpq]
      refine if_pos ⟨hsize, fun hlt mv hmv => ?_⟩
      obtain hwidth | hle := hsafe
      · obtain rfl : a = 0 := by omega
        exact disjoint_of_width_zero src src hmv
      · exact absurd ((lt_distance_iff hpq src).mp hlt) (not_lt.mpr hle)
    · rw [repadYUV420_eq hpq]
      exact if_pos ⟨hsize, fun _ mv hmv => planes_disjoint happ hap (hap.trans hpq.le) hmv⟩

theorem repad_in_place_small : InPlaceSafe 2 2 4 6 ↔
    2 * 6 < 2 ^ 31 ∧ (2 = 0 ∨ (3 * 2 - 1) * (6 - 4) ≤ 2 * 6) :=
  repad_in_place_iff (by decide) (by decide) (by decide) (by decide) (by decide) (by decide)

/-- A VGA frame with lines of 640 bytes, re-padded in place to 704. -/
theorem vga_not_in_place : ¬ ∀ width height srcBpl dstBpl : ℕ, Even width → Even height →
    Even srcBpl → Even dstBpl → width ≤ srcBpl → width ≤ dstBpl → srcBpl < dstBpl →
    InPlaceSafe width height srcBpl dstBpl := by
  intro h
  have hsafe := h 640 480 640 704 (by decide) (by decide) (by decide) (by decide) le_rfl
    (by decide) (by decide)
  obtain ⟨inPlace, -, hinPlace, -, -⟩ := hsafe 0 (frameSize 480 640) (fun _ => 0)
    (.inl (Int.zero_add _).le)
  have heq := @repadYUV420_eq 320 240 320 352 (by decide) 0 0 fun _ => 0
  rw [hinPlace] at heq
  obtain ⟨⟨-, hcopies⟩, -⟩ := Option.ite_none_right_eq_some.mp heq.symm
  exact not_disjoint_of_pos (by decide) (by decide) 0 (hcopies (by decide))

end HardwareIntel.Camera.RepadYuv
