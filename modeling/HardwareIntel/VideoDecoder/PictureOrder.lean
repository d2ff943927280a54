import HardwareIntel.VideoDecoder.SurfaceBuffers
import Mathlib.Data.Int.Order.Basic
import Mathlib.Data.List.Pairwise
import Mathlib.Data.List.Perm.Basic
import Mathlib.Order.Nat

/-!
# Streams of frames and their output order

Frames arrive in decoding order and are numbered from 0. A frame with picture order count 0 starts a
coded sequence; the frames are to be output sequence after sequence, and by increasing count within
a sequence. `Reordered poc w n` says that a frame is never `w` or more frames later than one of its
sequence that is output after it.

A queue of frames is `Ordered` if what has been taken out of it comes, in that order, before
everything else, also before the frames to come. `Ordered.take` is the step: a least frame of a
first part of the queue may be taken, if that part is a window of `w` frames, or the rest of a
sequence, or if the frame has the count that is expected next.
-/

namespace HardwareIntel.VideoDecoder

open List

variable {poc : ℕ → ℤ} {w next : ℤ} {n shown i j : ℕ} {returned queue : List ℕ}

/-- The frame that starts the coded sequence of a frame. -/
def seqStart (poc : ℕ → ℤ) : ℕ → ℕ
  | 0 => 0
  | i + 1 => if poc (i + 1) = 0 then i + 1 else seqStart poc i

/-- The order in which frames are to be output. -/
def Precedes (poc : ℕ → ℤ) (i j : ℕ) : Prop :=
  seqStart poc i < seqStart poc j ∨ seqStart poc i = seqStart poc j ∧ poc i < poc j

/-- A stream of `n` frames, each of which arrives fewer than `w` frames after any frame of its
sequence with a larger count. -/
structure Reordered (poc : ℕ → ℤ) (w : ℤ) (n : ℕ) : Prop where
  first : 0 < n → poc 0 = 0
  int32 : ∀ i < n, minimumPoc ≤ poc i ∧ poc i ≤ maximumPoc
  distinct : ∀ i j, i < j → j < n → seqStart poc i = seqStart poc j → poc i ≠ poc j
  near : ∀ i j, i < j → j < n → seqStart poc i = seqStart poc j → poc j < poc i →
    ((j - i : ℕ) : ℤ) < w

/-! ## Sequences -/

theorem seqStart_succ (poc : ℕ → ℤ) (i : ℕ) :
    seqStart poc (i + 1) = if poc (i + 1) = 0 then i + 1 else seqStart poc i := rfl

theorem seqStart_le (poc : ℕ → ℤ) (i : ℕ) : seqStart poc i ≤ i := by
  induction i with
  | zero => exact le_refl 0
  | succ i ih =>
    rw [seqStart_succ]
    split
    · exact le_refl _
    · omega

theorem seqStart_mono (poc : ℕ → ℤ) (h : i ≤ j) : seqStart poc i ≤ seqStart poc j := by
  induction h with
  | refl => exact le_refl _
  | @step j h ih =>
    refine ih.trans ?_
    rw [seqStart_succ]
    split
    · exact (seqStart_le poc j).trans (Nat.le_succ j)
    · exact le_refl _

theorem seqStart_of_poc_zero (h : poc i = 0) : seqStart poc i = i := by
  cases i with
  | zero => rfl
  | succ i => rw [seqStart_succ, if_pos h]

/-- The first frame of a sequence has the count 0. -/
theorem poc_seqStart (hfirst : poc 0 = 0) (i : ℕ) : poc (seqStart poc i) = 0 := by
  induction i with
  | zero => exact hfirst
  | succ i ih =>
    rw [seqStart_succ]
    split
    · assumption
    · exact ih

theorem Precedes.le_seqStart (h : Precedes poc i j) : seqStart poc i ≤ seqStart poc j := by
  rcases h with h | h
  · exact h.le
  · exact h.1.le

/-! ## The queue -/

/-- The frame that has waited longest, or the next one to arrive. -/
def oldest (queue : List ℕ) (shown : ℕ) : ℕ := queue.headD shown

section

variable (hframes : ∀ i, i < shown ↔ i ∈ queue ∨ i ∈ returned)
include hframes

/-- A frame that has not been output waits, or is still to come. -/
theorem mem_or_le (hj : j ∉ returned) :
    j ∈ queue ∨ shown ≤ j := by
  by_cases hlt : j < shown
  · exact Or.inl (((hframes j).mp hlt).resolve_right hj)
  · exact Or.inr (Nat.le_of_not_lt hlt)

/-- No frame that has not been output is older than the oldest. -/
theorem oldest_le (harrival : queue.Pairwise (· < ·)) (hj : j ∉ returned) :
    oldest queue shown ≤ j := by
  cases queue with
  | nil => exact (mem_or_le hframes hj).resolve_left (not_mem_nil)
  | cons p queue =>
    rcases mem_or_le hframes hj with hmem | hle
    · rcases mem_cons.mp hmem with rfl | hmem
      · exact le_refl _
      · exact ((pairwise_cons.mp harrival).1 j hmem).le
    · have hlt : p < shown := (hframes p).mpr (Or.inl (mem_cons_self ..))
      exact hlt.le.trans hle

theorem oldest_notMem (hapart : ∀ i ∈ queue, i ∉ returned) : oldest queue shown ∉ returned := by
  cases queue with
  | nil => exact fun hret => lt_irrefl _ ((hframes shown).mpr (Or.inr hret))
  | cons p queue => exact hapart p (mem_cons_self ..)

end

/-- Of the frames before `shown`, those in `returned` have been output, newest first, and the others
wait in the queue in the order of arrival. What has been output comes before everything else; and if
the sequence that is output has begun, its other frames have counts from `next` on. -/
structure Ordered (poc : ℕ → ℤ) (n shown : ℕ) (returned queue : List ℕ) (next : ℤ) : Prop where
  frames : ∀ i, i < shown ↔ i ∈ queue ∨ i ∈ returned
  apart : ∀ i ∈ queue, i ∉ returned
  arrival : queue.Pairwise (· < ·)
  output : returned.Pairwise fun i j => Precedes poc j i
  ahead : ∀ i ∈ returned, ∀ j < n, j ∉ returned → Precedes poc i j
  expected : oldest queue shown < n → poc (oldest queue shown) = 0 ∨
    ∀ j < n, j ∉ returned → seqStart poc j = seqStart poc (oldest queue shown) → next ≤ poc j

/-- Before the first frame arrives. -/
theorem Ordered.start (hstream : Reordered poc w n) (next : ℤ) : Ordered poc n 0 [] [] next where
  frames := by simp
  apart := by simp
  arrival := .nil
  output := .nil
  ahead := by simp
  expected := fun h => Or.inl (hstream.first h)

namespace Ordered

/-- The next frame arrives. -/
theorem arrive (h : Ordered poc n shown returned queue next) :
    Ordered poc n (shown + 1) returned (queue ++ [shown]) next where
  frames := by
    intro i
    have hold := h.frames i
    rw [mem_append, mem_singleton]
    constructor
    · intro hi
      by_cases heq : i = shown
      · exact Or.inl (Or.inr heq)
      · rcases hold.mp (by omega) with hmem | hmem
        · exact Or.inl (Or.inl hmem)
        · exact Or.inr hmem
    · rintro ((hmem | rfl) | hmem)
      · exact Nat.lt_succ_of_lt (hold.mpr (Or.inl hmem))
      · exact Nat.lt_succ_self _
      · exact Nat.lt_succ_of_lt (hold.mpr (Or.inr hmem))
  apart := by
    intro i hi
    rcases mem_append.mp hi with hmem | hmem
    · exact h.apart i hmem
    · obtain rfl := mem_singleton.mp hmem
      exact fun hret => lt_irrefl _ ((h.frames _).mpr (Or.inr hret))
  arrival := by
    refine pairwise_append.mpr ⟨h.arrival, pairwise_singleton _ _, fun i hi j hj => ?_⟩
    obtain rfl := mem_singleton.mp hj
    exact (h.frames i).mpr (Or.inl hi)
  output := h.output
  ahead := h.ahead
  expected := by
    have hsame : oldest (queue ++ [shown]) (shown + 1) = oldest queue shown := by
      cases queue <;> rfl
    rw [hsame]
    exact h.expected

/-- The expected count may be reset when the oldest frame starts a sequence. -/
theorem reset (h : Ordered poc n shown returned queue next) (hzero : poc (oldest queue shown) = 0)
    (next' : ℤ) : Ordered poc n shown returned queue next' :=
  { h with expected := fun _ => Or.inl hzero }

/-! ### Taking a frame out -/

section Take

variable {head m : ℕ} {window rest : List ℕ}

/-- The frames of a first part of the queue in which no sequence starts belong to the sequence of
the oldest frame. -/
theorem seqStart_window (h : Ordered poc n shown returned (head :: window ++ rest) next)
    (hshown : shown ≤ n) (hfirst : poc 0 = 0) (hwindow : ∀ x ∈ window, poc x ≠ 0) :
    ∀ x ∈ head :: window, seqStart poc x = seqStart poc head := by
  intro x hx
  have hqueue : ∀ y ∈ head :: window, y < shown ∧ head ≤ y := by
    intro y hy
    have hmem : y ∈ head :: window ++ rest := mem_append_left _ hy
    exact ⟨(h.frames y).mpr (Or.inl hmem), oldest_le h.frames h.arrival (h.apart y hmem)⟩
  obtain ⟨hlt, hle⟩ := hqueue x hx
  have hzero := poc_seqStart hfirst x
  have hstart := seqStart_le poc x
  by_cases hk : seqStart poc x ≤ head
  · have hmono := seqStart_mono poc hk
    rw [seqStart_of_poc_zero hzero] at hmono
    exact le_antisymm hmono (seqStart_mono poc hle)
  · exfalso
    have hnot : seqStart poc x ∉ returned := by
      intro hret
      have hhead : head ∉ returned := h.apart head (mem_cons_self ..)
      have hbefore := (h.ahead _ hret head (by omega) hhead).le_seqStart
      rw [seqStart_of_poc_zero hzero] at hbefore
      have := seqStart_le poc head
      omega
    have hmem : seqStart poc x ∈ head :: window ++ rest :=
      ((h.frames _).mp (by omega)).resolve_right hnot
    rcases mem_append.mp hmem with hin | hin
    · rcases mem_cons.mp hin with heq | hin
      · omega
      · exact hwindow _ hin hzero
    · have hafter := (pairwise_append.mp h.arrival).2.2 x hx _ hin
      omega

/-- Why a least frame `m` of a first part of the queue may be taken. -/
inductive MayTake (poc : ℕ → ℤ) (w : ℤ) (n shown : ℕ) (next : ℤ) (head : ℕ) (window rest : List ℕ)
    (m : ℕ) : Prop
  /-- it has the count that is expected -/
  | expected (heq : poc m = if poc head = 0 then minimumPoc else next)
  /-- the window is full -/
  | full (hlength : ((head :: window).length : ℤ) = w)
  /-- the next sequence has begun -/
  | ended {z : ℕ} {l : List ℕ} (hrest : rest = z :: l) (hzero : poc z = 0)
  /-- the stream has ended -/
  | last (hrest : rest = []) (hshown : shown = n)

/-- The frames of a window are as far apart as there are frames between them. -/
theorem length_le_of_pairwise {l : List ℕ} (h : (head :: l).Pairwise (· < ·)) (hi : i ∈ head :: l)
    (hlast : ∀ x ∈ head :: l, x ≤ i) : head + l.length ≤ i := by
  induction l generalizing head with
  | nil => simpa using hlast head (mem_cons_self ..)
  | cons p l ih =>
    obtain ⟨hhead, htail⟩ := pairwise_cons.mp h
    have hp : head < p := hhead p (mem_cons_self ..)
    have hmem : i ∈ p :: l := by
      rcases mem_cons.mp hi with rfl | hmem
      · exact absurd (hlast p (mem_cons_of_mem _ (mem_cons_self ..))) (not_le.mpr hp)
      · exact hmem
    have := ih htail hmem fun x hx => hlast x (mem_cons_of_mem _ hx)
    rw [length_cons]
    omega

/-- A frame behind a window of the queue is at least the length of the window later than its first
frame. -/
theorem le_sub_of_behind (h : (head :: window).Pairwise (· < ·))
    (hj : ∀ x ∈ head :: window, x < j) : (head :: window).length ≤ j - head := by
  have hnew : (head :: (window ++ [j])).Pairwise (· < ·) := by
    refine pairwise_append.mpr ⟨h, pairwise_singleton _ _, fun x hx y hy => ?_⟩
    obtain rfl := mem_singleton.mp hy
    exact hj x hx
  have hlength := length_le_of_pairwise hnew (i := j) (by simp) fun x hx => by
    rcases mem_append.mp (show x ∈ (head :: window) ++ [j] from hx) with hin | hin
    · exact (hj x hin).le
    · exact (mem_singleton.mp hin).le
  simp only [length_append, length_cons] at hlength ⊢
  omega

/-- A least frame of a first part of the queue comes before all others, if it may be taken. -/
theorem precedes_of_mayTake (h : Ordered poc n shown returned (head :: window ++ rest) next)
    (hstream : Reordered poc w n) (hshown : shown ≤ n) (hwindow : ∀ x ∈ window, poc x ≠ 0)
    (hm : m ∈ head :: window) (hleast : ∀ x ∈ head :: window, poc m ≤ poc x)
    (hmay : MayTake poc w n shown next head window rest m) (hj : j < n) (hout : j ∉ returned)
    (hne : j ≠ m) : Precedes poc m j := by
  have hheadlt : head < shown := (h.frames head).mpr (Or.inl (mem_cons_self ..))
  have hseq := h.seqStart_window hshown (hstream.first (by omega)) hwindow
  have hle : head ≤ j := oldest_le h.frames h.arrival hout
  rcases lt_or_eq_of_le (seqStart_mono poc hle) with hlater | hsame
  · exact Or.inl (by rw [hseq m hm]; exact hlater)
  · refine Or.inr ⟨by rw [hseq m hm, hsame], ?_⟩
    have hmn : m < n :=
      ((h.frames m).mpr (Or.inl (mem_append_left _ hm))).trans_le hshown
    have hdistinct : poc m ≠ poc j := by
      have hsame' : seqStart poc m = seqStart poc j := by rw [hseq m hm, hsame]
      rcases lt_or_gt_of_ne hne with hlt | hlt
      · exact (hstream.distinct j m hlt hmn hsame'.symm).symm
      · exact hstream.distinct m j hlt hj hsame'
    refine lt_of_le_of_ne ?_ hdistinct
    by_contra hlt
    have hless : poc j < poc m := not_le.mp hlt
    have hnotin : j ∉ head :: window := fun hin => absurd (hleast j hin) (not_le.mpr hless)
    -- the frame is behind the window, or has not arrived
    have hbehind : j ∈ rest ∨ shown ≤ j :=
      (mem_or_le h.frames hout).imp_left fun hmem => (mem_append.mp hmem).resolve_left hnotin
    have hafter : ∀ x ∈ head :: window, x < j := by
      intro x hx
      rcases hbehind with hin | hin
      · exact (pairwise_append.mp h.arrival).2.2 x hx j hin
      · exact ((h.frames x).mpr (Or.inl (mem_append_left _ hx))).trans_le hin
    cases hmay with
    | expected heq =>
      by_cases hzero : poc head = 0
      · rw [if_pos hzero] at heq
        have := (hstream.int32 j hj).1
        omega
      · rw [if_neg hzero] at heq
        have := (h.expected (hheadlt.trans_le hshown)).resolve_left hzero j hj hout hsame.symm
        omega
    | full hlength =>
      have hfar := le_sub_of_behind (pairwise_append.mp h.arrival).1 hafter
      have hnear := hstream.near head j (hafter head (mem_cons_self ..)) hj hsame
        (hless.trans_le (hleast head (mem_cons_self ..)))
      omega
    | @ended z l hrest hzero =>
      have hz : z ≤ j := by
        rcases hbehind with hin | hin
        · rw [hrest] at hin
          rcases mem_cons.mp hin with rfl | hin
          · exact le_refl _
          · have hsorted := (pairwise_append.mp h.arrival).2.1
            rw [hrest] at hsorted
            exact ((pairwise_cons.mp hsorted).1 j hin).le
        · have hzlt := (h.frames z).mpr (Or.inl (mem_append_right _ (by simp [hrest])))
          omega
      have hmono := seqStart_mono poc hz
      have hstart := seqStart_le poc head
      have hheadz := (pairwise_append.mp h.arrival).2.2 head (mem_cons_self ..) z
        (by simp [hrest])
      rw [seqStart_of_poc_zero hzero] at hmono
      omega
    | last hrest hlast =>
      rcases hbehind with hin | hin
      · rw [hrest] at hin
        cases hin
      · omega

/-- A frame that comes before all others is taken out of the queue. -/
theorem take {queue' : List ℕ} {next' : ℤ} (h : Ordered poc n shown returned queue next)
    (hstream : Reordered poc w n) (hshown : shown ≤ n) (hperm : (m :: queue').Perm queue)
    (hsub : queue'.Sublist queue)
    (hbefore : ∀ j < n, j ∉ returned → j ≠ m → Precedes poc m j)
    (hnext : ∀ j < n, j ∉ returned → j ≠ m → seqStart poc j = seqStart poc m → next' ≤ poc j) :
    Ordered poc n shown (m :: returned) queue' next' := by
  have hmem : ∀ i, i ∈ queue ↔ i = m ∨ i ∈ queue' := by
    intro i
    rw [← hperm.mem_iff, mem_cons]
  have hm : m ∈ queue := (hmem m).mpr (Or.inl rfl)
  have hmlt : m < shown := (h.frames m).mpr (Or.inl hm)
  have hnodup : (m :: queue').Nodup :=
    hperm.nodup_iff.mpr (h.arrival.imp fun hlt => hlt.ne)
  have hframes : ∀ i, i < shown ↔ i ∈ queue' ∨ i ∈ m :: returned := by
    intro i
    rw [h.frames, hmem, mem_cons, or_assoc, or_left_comm]
  have harrival := h.arrival.sublist hsub
  have hapart : ∀ i ∈ queue', i ∉ m :: returned := by
    intro i hi hret
    rcases mem_cons.mp hret with rfl | hret
    · exact (nodup_cons.mp hnodup).1 hi
    · exact h.apart i ((hmem i).mpr (Or.inr hi)) hret
  exact {
    frames := hframes
    apart := hapart
    arrival := harrival
    output := pairwise_cons.mpr ⟨fun i hi =>
      h.ahead i hi m (hmlt.trans_le hshown) (h.apart m hm), h.output⟩
    ahead := by
      intro i hi j hj hout
      rw [mem_cons, not_or] at hout
      rcases mem_cons.mp hi with rfl | hi
      · exact hbefore j hj hout.2 hout.1
      · exact h.ahead i hi j hj hout.2
    expected := by
      intro hlt
      have hout := oldest_notMem hframes hapart
      have holdest := fun j hj => @oldest_le shown j (m :: returned) queue' hframes harrival hj
      generalize oldest queue' shown = k at hlt hout holdest ⊢
      rw [mem_cons, not_or] at hout
      rcases (hbefore k hlt hout.2 hout.1).le_seqStart.lt_or_eq with hlater | hsame
      · -- the sequence of `m` has been output, and none of the sequence of `k`
        have hzero := poc_seqStart (hstream.first (by omega)) k
        have hself := seqStart_of_poc_zero hzero
        have hstart : seqStart poc k ∉ m :: returned := by
          intro hret
          rcases mem_cons.mp hret with heq | hret
          · rw [heq] at hself
            omega
          · have hle := (h.ahead _ hret m (hmlt.trans_le hshown) (h.apart m hm)).le_seqStart
            omega
        have heq : seqStart poc k = k := le_antisymm (seqStart_le poc k) (holdest _ hstart)
        exact Or.inl (heq ▸ hzero)
      · refine Or.inr fun j hj hret hseq => ?_
        rw [mem_cons, not_or] at hret
        exact hnext j hj hret.2 hret.1 (hseq.trans hsame.symm) }

end Take

end Ordered

end HardwareIntel.VideoDecoder
