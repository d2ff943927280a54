import HardwareIntel.VideoDecoder.SurfaceBuffers
import Mathlib.Algebra.Order.Ring.Int
import Mathlib.Tactic.Ring

/-!
# The search for the next picture

`findOutputByPoc` looks for the next frame in the first `mOutputWindowSize` frames of the queue. It
keeps the least count met so far, starting from `MAXIMUM_POC`, so that a frame with this count is
never a candidate. If the window has no candidate, the scan starts again, and if all counts of the
window are `MAXIMUM_POC`, it never ends: `searchByPoc_isSome_iff`.
-/

namespace HardwareIntel.VideoDecoder

namespace Decoder

variable {c : DecoderConfig} {s : Decoder} {q l : List ℕ} {head p : ℕ} {v : PocScan}

/-- The count of a buffer. -/
def order (s : Decoder) (i : ℕ) : ℤ := (s.buffers i).pictureOrder

/-! ### One buffer of the scan -/

/-- The variables after the scan has looked at a buffer. -/
def look (s : Decoder) (p : ℕ) (v : PocScan) : PocScan :=
  let order := (s.buffers p).pictureOrder
  let v := { v with count := v.count + 1 }
  let v := if order = 0 then { v with nextOutputPoc := minimumPoc } else v
  if order < v.poc ∧ v.nextOutputPoc ≤ order then
    { v with poc := order, output := some p, outputLeastPoc := p }
  else v

/-- A scan looks at the first buffer, and stops, starts again or goes on. -/
theorem scanByPoc_cons : s.scanByPoc (p :: l) v =
    if s.order p = 0 ∧ v.output.isSome then
      some (PocScan.finish s { v with count := v.count + 1 })
    else if (s.look p v).poc = (s.look p v).nextOutputPoc ∨
        (s.look p v).count = s.outputWindowSize then
      if (s.look p v).output.isSome then some ((s.look p v).finish s) else none
    else s.scanByPoc l (if l = [] then { s.look p v with output := none } else s.look p v) :=
  rfl

/-- A buffer is counted. -/
@[simp] theorem look_count : (s.look p v).count = v.count + 1 := by
  unfold look
  dsimp only
  split <;> split <;> rfl

/-- A count of 0 starts a new sequence, in which any count is expected. -/
@[simp] theorem look_nextOutputPoc :
    (s.look p v).nextOutputPoc = if s.order p = 0 then minimumPoc else v.nextOutputPoc := by
  unfold look order
  dsimp only
  split <;> split <;> rfl

/-- A buffer that meets the output criteria. -/
theorem look_of_lt (hlt : s.order p < v.poc)
    (hle : (if s.order p = 0 then minimumPoc else v.nextOutputPoc) ≤ s.order p) :
    (s.look p v).poc = s.order p ∧ (s.look p v).output = some p ∧
      (s.look p v).outputLeastPoc = p := by
  unfold look
  unfold order at hlt hle ⊢
  dsimp only
  split at hle
  · rename_i hzero
    rw [if_pos hzero, if_pos ⟨hlt, hle⟩]
    exact ⟨rfl, rfl, rfl⟩
  · rename_i hzero
    rw [if_neg hzero, if_pos ⟨hlt, hle⟩]
    exact ⟨rfl, rfl, rfl⟩

/-- A buffer that does not meet them. -/
theorem look_of_not (h : ¬ (s.order p < v.poc ∧
    (if s.order p = 0 then minimumPoc else v.nextOutputPoc) ≤ s.order p)) :
    (s.look p v).poc = v.poc ∧ (s.look p v).output = v.output ∧
      (s.look p v).outputLeastPoc = v.outputLeastPoc := by
  unfold look
  unfold order at h
  dsimp only
  split at h
  · rename_i hzero
    rw [if_pos hzero, if_neg h]
    exact ⟨rfl, rfl, rfl⟩
  · rename_i hzero
    rw [if_neg hzero, if_neg h]
    exact ⟨rfl, rfl, rfl⟩

/-- A buffer whose count is not less than the least so far. -/
theorem look_of_le (hle : v.poc ≤ s.order p) :
    (s.look p v).poc = v.poc ∧ (s.look p v).output = v.output ∧
      (s.look p v).outputLeastPoc = v.outputLeastPoc :=
  look_of_not fun h => absurd hle (not_le.mpr h.1)

/-- What has been found is kept, or replaced. -/
theorem look_isSome (h : v.output.isSome) : (s.look p v).output.isSome := by
  unfold look
  dsimp only
  split <;> split <;> first | rfl | exact h

/-- The variables that the scan goes on with. -/
theorem goOn_fields (l : List ℕ) (v : PocScan) :
    (if l = [] then { v with output := none } else v).count = v.count ∧
      (if l = [] then { v with output := none } else v).poc = v.poc ∧
      (if l = [] then { v with output := none } else v).outputLeastPoc = v.outputLeastPoc ∧
      (if l = [] then { v with output := none } else v).nextOutputPoc = v.nextOutputPoc ∧
      (if l = [] then { v with output := none } else v).output =
        if l = [] then none else v.output := by
  split <;> exact ⟨rfl, rfl, rfl, rfl, rfl⟩

/-! ### Termination -/

/-- The scans of `findOutputByPoc`, as often as it starts again. -/
def searchByPoc (s : Decoder) (head : ℕ) (queue : List ℕ) : ℕ → ℤ → Option PocScan
  | 0, _ => none
  | scans + 1, nextOutputPoc =>
    match s.scanByPoc queue ⟨0, maximumPoc, none, head, nextOutputPoc⟩ with
    | some v => some v
    | none => searchByPoc s head queue scans minimumPoc

/-- All counts of the window are `MAXIMUM_POC`. -/
def Stuck (s : Decoder) (queue : List ℕ) : Prop :=
  s.outputWindowSize ≤ queue.length ∧
    ∀ p ∈ queue.take s.outputWindowSize.toNat, s.order p = maximumPoc

/-- A scan with a candidate does not start again. -/
theorem scanByPoc_isSome (h : v.output.isSome ∨ l = []) : (s.scanByPoc l v).isSome := by
  induction l generalizing v with
  | nil => rfl
  | cons p l ih =>
    have hsome : v.output.isSome := h.resolve_right (by simp)
    have hlook : (s.look p v).output.isSome := look_isSome hsome
    rw [scanByPoc_cons]
    split
    · rfl
    · split
      · rfl
      · refine ih ?_
        by_cases hl : l = []
        · exact Or.inr hl
        · rw [if_neg hl]
          exact Or.inl hlook

/-- A scan of a window that is stuck starts again. -/
theorem scanByPoc_stuck {k : ℕ} (hcount : v.count + k = s.outputWindowSize) (hk : 0 < k)
    (hpoc : v.poc = maximumPoc) (houtput : v.output = none) (hlength : k ≤ l.length)
    (hmax : ∀ p ∈ l.take k, s.order p = maximumPoc) : s.scanByPoc l v = none := by
  induction l generalizing v k with
  | nil =>
    rw [List.length_nil] at hlength
    omega
  | cons p l ih =>
    obtain ⟨k, rfl⟩ : ∃ k', k = k' + 1 := ⟨k - 1, by omega⟩
    obtain ⟨hpoc', houtput', -⟩ := look_of_le (hpoc.trans (hmax p (by simp)).symm).le
    rw [scanByPoc_cons, if_neg (by simp [houtput])]
    split
    · rw [houtput', houtput]
      rfl
    · rename_i hgo
      rw [not_or, look_count] at hgo
      obtain ⟨hcount', hpoc'', -, -, hout⟩ := goOn_fields l (s.look p v)
      refine ih (k := k) ?_ ?_ (hpoc''.trans (hpoc'.trans hpoc)) ?_ (by simpa using hlength)
        fun x hx => hmax x (by simp [hx])
      · rw [hcount', look_count]
        omega
      · by_contra hzero
        exact hgo.2 (by omega)
      · rw [hout, houtput', houtput, ite_self]

/-- A count that is less than the one a scan starts with. -/
def Candidate (s : Decoder) (p : ℕ) : Prop := minimumPoc ≤ s.order p ∧ s.order p < maximumPoc

/-- If the scan comes to the end of the window, it has met a candidate. -/
def WindowFree (s : Decoder) (count : ℤ) (queue : List ℕ) : Prop :=
  ∀ k < queue.length, count + (k + 1 : ℕ) = s.outputWindowSize →
    ∃ p ∈ queue.take (k + 1), s.Candidate p

/-- A scan for any count ends if it meets a candidate in the window. -/
theorem scanByPoc_free (hpoc : v.poc = maximumPoc) (hnext : v.nextOutputPoc = minimumPoc)
    (hfree : s.WindowFree v.count l) : (s.scanByPoc l v).isSome := by
  induction l generalizing v with
  | nil => rfl
  | cons p l ih =>
    have hnext' : (if s.order p = 0 then minimumPoc else v.nextOutputPoc) = minimumPoc := by
      rw [hnext, ite_self]
    by_cases hcandidate : s.Candidate p
    · -- it is found, and not given up
      obtain ⟨-, houtput, -⟩ := look_of_lt (hpoc ▸ hcandidate.2) (hnext'.le.trans hcandidate.1)
      rw [scanByPoc_cons]
      split
      · rfl
      · split
        · rw [houtput]
          rfl
        · refine scanByPoc_isSome ?_
          by_cases hl : l = []
          · exact Or.inr hl
          · rw [if_neg hl, houtput]
            exact Or.inl rfl
    · obtain ⟨hpoc', -, -⟩ := look_of_not (s := s) (p := p) (v := v) (by
        rw [hnext', hpoc]
        exact fun h => hcandidate ⟨h.2, h.1⟩)
      obtain ⟨hcount', hpoc'', -, hnext'', -⟩ := goOn_fields l (s.look p v)
      rw [scanByPoc_cons]
      split
      · rfl
      · rw [if_neg]
        · refine ih (hpoc''.trans (hpoc'.trans hpoc)) ?_ fun k hk hcount => ?_
          · rw [hnext'', look_nextOutputPoc, hnext']
          · rw [hcount', look_count] at hcount
            obtain ⟨x, hx, hcandidate'⟩ :=
              hfree (k + 1) (by simpa using hk) (by rw [← hcount]; push_cast; ring)
            rcases List.mem_cons.mp hx with rfl | hx
            · exact absurd hcandidate' hcandidate
            · exact ⟨x, hx, hcandidate'⟩
        · rw [not_or, hpoc', hpoc, look_nextOutputPoc, hnext', look_count]
          refine ⟨by decide, fun hfull => ?_⟩
          obtain ⟨x, hx, hcandidate'⟩ := hfree 0 (by simp) (by simpa using hfull)
          obtain rfl : x = p := by simpa using hx
          exact hcandidate hcandidate'

/-- A queue of `int32` counts that is not stuck has a candidate in the window. -/
theorem windowFree_of_not_stuck (hint : ∀ p ∈ q, minimumPoc ≤ s.order p ∧ s.order p ≤ maximumPoc)
    (hfree : ¬ s.Stuck q) : s.WindowFree 0 q := by
  intro k hk hcount
  have hsize : s.outputWindowSize.toNat = k + 1 := by omega
  refine by_contra fun hnot => hfree ⟨by omega, fun p hp => ?_⟩
  rw [hsize] at hp
  obtain ⟨hmin, hle⟩ := hint p (List.mem_of_mem_take hp)
  exact hle.antisymm (not_lt.mp fun hlt => hnot ⟨p, hp, hmin, hlt⟩)

/-- The search of a queue that is stuck never ends; otherwise the second scan ends at the latest. -/
theorem searchByPoc_isSome_iff (hwindow : 1 ≤ s.outputWindowSize)
    (hint : ∀ p ∈ q, minimumPoc ≤ s.order p ∧ s.order p ≤ maximumPoc) (head : ℕ) (next : ℤ) :
    (∃ scans, (s.searchByPoc head q scans next).isSome) ↔ ¬ s.Stuck q := by
  have hcount : (0 : ℤ) + (s.outputWindowSize.toNat : ℕ) = s.outputWindowSize := by omega
  constructor
  · rintro ⟨scans, h⟩ ⟨hlength, hmax⟩
    have hstuck : ∀ n, s.scanByPoc q ⟨0, maximumPoc, none, head, n⟩ = none := fun n =>
      scanByPoc_stuck hcount (by omega) rfl rfl (by omega) hmax
    induction scans generalizing next with
    | zero => cases h
    | succ scans ih =>
      rw [searchByPoc, hstuck] at h
      exact ih _ h
  · intro hfree
    have hsecond : (s.scanByPoc q ⟨0, maximumPoc, none, head, minimumPoc⟩).isSome :=
      scanByPoc_free rfl rfl (windowFree_of_not_stuck hint hfree)
    refine ⟨2, ?_⟩
    rw [searchByPoc]
    split
    · rfl
    · obtain ⟨v, hv⟩ := Option.isSome_iff_exists.mp hsecond
      rw [searchByPoc, hv]
      rfl

/-! ### The call -/

/-- The search of `getOutput`, if there is one, comes to its end. -/
def SearchEnds (c : DecoderConfig) (s : Decoder) : Prop :=
  c.lowDelay = true ∨ c.outputMethod = .byPct ∨ s.WindowFree 0 (s.outputQueue c)

/-- Then the call returns. -/
theorem takeOutput_isSome (h : s.SearchEnds c) (draining : Bool) :
    (s.takeOutput c draining).isSome := by
  unfold takeOutput
  split
  · rfl
  · split
    · rfl
    · rename_i head _ hlow
      rw [Option.isSome_map]
      split
      · rename_i hmethod
        have hfree : s.WindowFree 0 (s.outputQueue c) :=
          (h.resolve_left hlow).resolve_left (by rw [hmethod]; decide)
        unfold findOutputByPoc
        rw [Option.isSome_map]
        split
        · rfl
        · exact scanByPoc_free rfl rfl hfree
      · rfl

end Decoder

end HardwareIntel.VideoDecoder
