import HardwareIntel.Omx.Buffers
import Mathlib.Algebra.BigOperators.Fin
import Mathlib.Algebra.Order.BigOperators.Group.Finset
import Mathlib.Data.List.Nodup

/-!
# The marks of an OMX component

`OMX_MARKTYPE` marks in `wrs_omxil_core/base/src/componentbase.cpp` and `portbase.cpp`. A mark comes
in with `OMX_CommandMarkBuffer`, which puts it into the mark queue of a port, or in the header of a
buffer. It goes out in the header of a buffer that is returned, or as an `OMX_EventMark` if its
target is the component itself. In between `EmptyThisBuffer`, `SourcePostProcessBuffers` and
`FilterPostProcessBuffers` move it between the queues and the headers.

The steps are those of the component's buffers, with what they do with the marks. The ledgers
`arrived`, `left` and `events` list the marks that came in and went out, `entered` and `attached`
those that came to the queue of a port and were put on its buffers, and `inside` lists the headers
that the component has.
-/

namespace HardwareIntel.Omx

open List Option Function

variable {n : ℕ} {H C D : Type}

/-- `OMX_MARKTYPE`, for a target that is not NULL. -/
structure Mark (C D : Type) where
  hMarkTargetComponent : C
  pMarkData : D
  deriving DecidableEq

/-- The buffers and marks of a component: `mark` is the mark in each header, and `markq` the mark
queue of each port. -/
structure MarkedBuffers (n : ℕ) (H C D : Type) where
  buffers : Buffers n H
  mark : H → Option (Mark C D)
  markq : Fin n → List (Mark C D)
  inside : List H
  arrived : List (Mark C D)
  entered : Fin n → List (Mark C D)
  attached : Fin n → List (Mark C D)
  left : List (Mark C D)
  events : List (Mark C D)

namespace MarkedBuffers

/-- A component before any buffer or mark came in. -/
def new (buffers : Buffers n H) (mark : H → Option (Mark C D)) : MarkedBuffers n H C D :=
  ⟨buffers, mark, fun _ => [], [], [], fun _ => [], fun _ => [], [], []⟩

variable [DecidableEq H]

/-- `PushMark`. -/
def pushMark (s : MarkedBuffers n H C D) (p : Fin n) (m : Mark C D) : MarkedBuffers n H C D :=
  { s with
    markq := Function.update s.markq p (s.markq p ++ [m])
    entered := Function.update s.entered p (s.entered p ++ [m]) }

/-- `PopMark`, for the header `b`, which gets the mark. -/
def popMark (s : MarkedBuffers n H C D) (p : Fin n) (b : H) : MarkedBuffers n H C D :=
  match s.markq p with
  | [] => s
  | m :: q =>
    { s with
      mark := Function.update s.mark b (some m)
      markq := Function.update s.markq p q
      attached := Function.update s.attached p (s.attached p ++ [m]) }

/-- The header has no mark any more. -/
def clearMark (s : MarkedBuffers n H C D) (b : H) : MarkedBuffers n H C D :=
  { s with mark := Function.update s.mark b none }

/-- `PushThisMark`, for a mark of the client. -/
def pushThisMark (s : MarkedBuffers n H C D) (portIndex : ℕ) (m : Mark C D) :
    MarkedBuffers n H C D :=
  if h : portIndex < n then { s.pushMark ⟨portIndex, h⟩ m with arrived := m :: s.arrived } else s

/-- The client hands in the header `b` with the mark `carried`. -/
def takeHeader (s : MarkedBuffers n H C D) (b : H) (carried : Option (Mark C D)) :
    MarkedBuffers n H C D :=
  { s with
    mark := Function.update s.mark b carried
    inside := b :: s.inside
    arrived := carried.toList ++ s.arrived }

/-- `CBaseFillThisBuffer` for the port that takes the buffer, if one does. -/
def fillThisBuffer (s : MarkedBuffers n H C D) (port : Option (Fin n)) (b : H)
    (carried : Option (Mark C D)) : MarkedBuffers n H C D :=
  match port with
  | none => { s with mark := Function.update s.mark b carried }
  | some _ => s.takeHeader b carried

/-- `CBaseEmptyThisBuffer` for the port that takes the buffer, if one does: a buffer without a mark
gets one from the queue of the port. -/
def emptyThisBuffer (s : MarkedBuffers n H C D) (port : Option (Fin n)) (b : H)
    (carried : Option (Mark C D)) : MarkedBuffers n H C D :=
  match port with
  | none => { s with mark := Function.update s.mark b carried }
  | some p =>
    match carried with
    | none => (s.takeHeader b none).popMark p b
    | some m => s.takeHeader b (some m)

variable [DecidableEq C]

/-- What `ReturnThisBuffer` does with the mark of the header, in the component `handle`. -/
def returnMark (handle : C) (s : MarkedBuffers n H C D) (b : H) : MarkedBuffers n H C D :=
  let s := { s with inside := s.inside.erase b }
  match s.mark b with
  | none => s
  | some m =>
    if m.hMarkTargetComponent = handle then { s.clearMark b with events := m :: s.events }
    else { s with left := m :: s.left }

/-- The body of the loops of `FilterPostProcessBuffers`, for the mark of the input buffer `b` and
the output buffer `c` of the port `j`. -/
def propagateMark (handle : C) (s : MarkedBuffers n H C D) (b : H) (j : Fin n) (c : Option H) :
    Option (MarkedBuffers n H C D) :=
  match s.mark b with
  | none => some s
  | some m =>
    if m.hMarkTargetComponent = handle then some s
    else c.map fun c =>
      match s.mark c with
      | some _ => (s.pushMark j m).clearMark b
      | none =>
        match s.markq j with
        | _ :: _ => ((s.popMark j c).pushMark j m).clearMark b
        | [] =>
          { s with
            mark := Function.update (Function.update s.mark c (some m)) b none
            entered := Function.update s.entered j (s.entered j ++ [m])
            attached := Function.update s.attached j (s.attached j ++ [m]) }

/-- The body of the inner loop of `FilterPostProcessBuffers`, for the marks: the input port `i` and
the port `j`. `none` is the use of a NULL pointer. -/
def propagateTo (setup : Setup n H) (handle : C) (r : Processed n H) (i : Fin n)
    (s : MarkedBuffers n H C D) (j : Fin n) : Option (MarkedBuffers n H C D) :=
  match setup.direction j with
  | .input => some s
  | .output => (r.hdr i).bind fun b => s.propagateMark handle b j (r.hdr j)

/-- The body of the outer loop. -/
def propagateFrom (setup : Setup n H) (handle : C) (r : Processed n H)
    (s : MarkedBuffers n H C D) (i : Fin n) : Option (MarkedBuffers n H C D) :=
  match setup.direction i with
  | .output => some s
  | .input => (List.finRange n).foldlM (propagateTo setup handle r i) s

/-- `FilterPostProcessBuffers`, for the marks. -/
def filterPostProcessMarks (setup : Setup n H) (handle : C) (r : Processed n H)
    (s : MarkedBuffers n H C D) : Option (MarkedBuffers n H C D) :=
  (List.finRange n).foldlM (propagateFrom setup handle r) s

omit [DecidableEq C] in
/-- The body of the loop of `SourcePostProcessBuffers`: a buffer without a mark gets one from the
queue of its port. -/
def markFrom (r : Processed n H) (s : MarkedBuffers n H C D) (i : Fin n) :
    Option (MarkedBuffers n H C D) :=
  (r.hdr i).map fun b =>
    match s.mark b with
    | some _ => s
    | none => s.popMark i b

omit [DecidableEq C] in
/-- `SourcePostProcessBuffers`. -/
def sourcePostProcessMarks (r : Processed n H) (s : MarkedBuffers n H C D) :
    Option (MarkedBuffers n H C D) :=
  (List.finRange n).foldlM (markFrom r) s

/-- `PostProcessBuffers`, which `Work` leaves out for an encoder, for the marks. -/
def postProcessMarks (setup : Setup n H) (handle : C) (r : Processed n H)
    (s : MarkedBuffers n H C D) : Option (MarkedBuffers n H C D) :=
  if r.ok = false ∨ setup.videoEncoder = true then some s
  else if ∀ i, setup.direction i = .output then s.sourcePostProcessMarks r
  else if ∀ i, setup.direction i = .input then some s
  else s.filterPostProcessMarks setup handle r

/-- The headers that a port returned in a step, the last one first. -/
def returnedSince (port port' : Port H) : List H :=
  port'.returned.take (port'.returned.length - port.returned.length)

/-- The marks of the headers that were returned between the buffers `old` and `new`, one port after
the other. -/
def returnMarks (handle : C) (s : MarkedBuffers n H C D) (old new : Buffers n H) :
    MarkedBuffers n H C D :=
  ((List.finRange n).flatMap fun p =>
    (returnedSince (old.ports p) (new.ports p)).reverse).foldl (returnMark handle) s

end MarkedBuffers

/-- The port that takes a buffer from the client in `CBaseEmptyThisBuffer` and
`CBaseFillThisBuffer`. -/
def accepts (s : Buffers n H) (portIndex : ℕ) : Option (Fin n) :=
  if h : portIndex < n then
    if (s.ports ⟨portIndex, h⟩).enabled = true ∧
        s.state ≠ .idle ∧ s.state ≠ .executing ∧ s.state ≠ .pause then none
    else some ⟨portIndex, h⟩
  else none

/-- The steps: the client puts a mark on a port, or a step of the buffers. A buffer that the client
hands in has the mark `carried`. -/
inductive MarkStep (n : ℕ) (H C D : Type)
  | markBuffer (portIndex : ℕ) (m : Mark C D)
  | step (x : BufferStep n H) (carried : Option (Mark C D))

variable [DecidableEq H] [DecidableEq C]

/-- What a step that leaves the buffers `t` does with the marks. -/
def moveMarks (setup : Setup n H) (handle : C) (s : MarkedBuffers n H C D) (t : Buffers n H)
    (carried : Option (Mark C D)) : BufferStep n H → Option (MarkedBuffers n H C D)
  | .emptyThisBuffer b _ =>
    some (s.emptyThisBuffer (accepts s.buffers (setup.nInputPortIndex b)) b carried)
  | .fillThisBuffer b _ =>
    some (s.fillThisBuffer (accepts s.buffers (setup.nOutputPortIndex b)) b carried)
  | .distributeBuffers r =>
    (s.postProcessMarks setup handle r).map (·.returnMarks handle s.buffers t)
  | _ => some (s.returnMarks handle s.buffers t)

/-- One step of the component `handle`. -/
def markStep (setup : Setup n H) (handle : C) (s : MarkedBuffers n H C D) :
    MarkStep n H C D → Option (MarkedBuffers n H C D)
  | .markBuffer portIndex m => some (s.pushThisMark portIndex m)
  | .step x carried => (bufferStep setup s.buffers x).bind fun t =>
    (moveMarks setup handle s t carried x).map fun s => { s with buffers := t }

omit [DecidableEq C] in
/-- The client hands in a header that the component does not have, and the processor leaves to each
port one of the port's buffers. -/
def ownsHeaders (s : Buffers n H) : BufferStep n H → Bool
  | .emptyThisBuffer b _ => decide (∀ p, (s.ports p).held b = 0)
  | .fillThisBuffer b _ => decide (∀ p, (s.ports p).held b = 0)
  | .distributeBuffers r => decide (∀ p,
      (r.hdr p).all (fun b => decide (0 < (s.ports p).held b)) = true)
  | _ => true

omit [DecidableEq C] in
/-- The steps in which no buffer is lost, and each party uses the headers that it has. -/
def keepsMarks (setup : Setup n H) (s : MarkedBuffers n H C D) : MarkStep n H C D → Bool
  | .markBuffer _ _ => true
  | .step x _ => keepsBuffers setup s.buffers x && ownsHeaders s.buffers x

/-! ## Counting marks -/

section Counting

variable {M : Type} [DecidableEq M]

omit [DecidableEq H] [DecidableEq C] [DecidableEq M] in
theorem sum_update {α : Type} (f : α → ℕ) (q : Fin n → α) (p : Fin n) (x : α) :
    ∑ i, f (Function.update q p x i) + f (q p) = ∑ i, f (q i) + f x := by
  have hnew := Finset.add_sum_erase Finset.univ (fun i => f (Function.update q p x i))
    (Finset.mem_univ p)
  have hold := Finset.add_sum_erase Finset.univ (fun i => f (q i)) (Finset.mem_univ p)
  have hrest : ∑ i ∈ Finset.univ.erase p, f (Function.update q p x i) =
      ∑ i ∈ Finset.univ.erase p, f (q i) := by
    refine Finset.sum_congr rfl fun i hi => ?_
    rw [update_of_ne (Finset.ne_of_mem_erase hi)]
  simp only [update_self] at hnew
  omega

omit [DecidableEq H] [DecidableEq C] in
theorem count_filterMap_cons (f : H → Option M) (b : H) (l : List H) (m : M) :
    ((b :: l).filterMap f).count m = (f b).toList.count m + (l.filterMap f).count m := by
  cases hb : f b with
  | none => simp [hb]
  | some x =>
    rw [filterMap_cons_some hb, count_cons, toList_some, count_singleton]
    omega

omit [DecidableEq C] in
theorem count_filterMap_erase {l : List H} {b : H} (hb : b ∈ l) (f : H → Option M) (m : M) :
    (l.filterMap f).count m = (f b).toList.count m + ((l.erase b).filterMap f).count m := by
  rw [((perm_cons_erase hb).filterMap f).count_eq m, count_filterMap_cons]

omit [DecidableEq C] [DecidableEq M] in
theorem filterMap_update_of_notMem {l : List H} {b : H} (hb : b ∉ l) (f : H → Option M)
    (x : Option M) : l.filterMap (Function.update f b x) = l.filterMap f := by
  refine filterMap_congr fun c hc => ?_
  rw [update_of_ne]
  rintro rfl
  exact hb hc

omit [DecidableEq C] in
/-- Another mark in the header `b`. -/
theorem count_filterMap_update {l : List H} (hl : l.Nodup) {b : H} (hb : b ∈ l)
    (f : H → Option M) (x : Option M) (m : M) :
    (l.filterMap (Function.update f b x)).count m + (f b).toList.count m =
      (l.filterMap f).count m + x.toList.count m := by
  rw [count_filterMap_erase hb, count_filterMap_erase hb, update_self,
    filterMap_update_of_notMem hl.not_mem_erase]
  omega

end Counting

/-! ## The ledgers -/

namespace MarkedBuffers

variable [DecidableEq D]

/-- Each mark that came in is in the queue of a port, in a header that the component has, or went
out, once for each time it came in. Only marks for another component went out with a buffer, and
only marks for the component itself were reported. The marks leave the queue of a port in the order
in which they came to it. -/
structure Tallied (handle : C) (s : MarkedBuffers n H C D) : Prop where
  nodup : s.inside.Nodup
  balance : ∀ m, s.arrived.count m = ∑ p, (s.markq p).count m +
    (s.inside.filterMap s.mark).count m + s.left.count m + s.events.count m
  order : ∀ p, s.entered p = s.attached p ++ s.markq p
  left : ∀ m ∈ s.left, m.hMarkTargetComponent ≠ handle
  events : ∀ m ∈ s.events, m.hMarkTargetComponent = handle

variable {handle : C} {s : MarkedBuffers n H C D} {b c : H} {m : Mark C D}

omit [DecidableEq H] in
theorem tallied_new (buffers : Buffers n H) (mark : H → Option (Mark C D)) :
    (new buffers mark).Tallied handle := by
  constructor <;> simp [new]

omit [DecidableEq H] in
/-- A mark of the client comes to the queue of a port. -/
theorem Tallied.pushThisMark (h : s.Tallied handle) (portIndex : ℕ) (m : Mark C D) :
    (s.pushThisMark portIndex m).Tallied handle := by
  unfold MarkedBuffers.pushThisMark
  split
  · rename_i hp
    refine ⟨h.nodup, fun x => ?_, fun p => ?_, h.left, h.events⟩
    · have hsum := sum_update (List.count x) s.markq ⟨portIndex, hp⟩
        (s.markq ⟨portIndex, hp⟩ ++ [m])
      rw [count_append, count_singleton] at hsum
      simp only [pushMark, count_cons, h.balance x]
      omega
    · by_cases hpi : p = ⟨portIndex, hp⟩
      · subst hpi
        simp [pushMark, h.order]
      · simp [pushMark, hpi, h.order]
  · exact h

/-- The mark of a header that the component has moves to the queue of a port. -/
theorem Tallied.moveToQueue (h : s.Tallied handle) (hb : b ∈ s.inside) (hm : s.mark b = some m)
    (j : Fin n) : ((s.pushMark j m).clearMark b).Tallied handle := by
  refine ⟨h.nodup, fun x => ?_, fun p => ?_, h.left, h.events⟩
  · have hsum := sum_update (List.count x) s.markq j (s.markq j ++ [m])
    have hheaders := count_filterMap_update h.nodup hb s.mark none x
    rw [count_append] at hsum
    rw [hm, toList_some, toList_none, count_nil] at hheaders
    simp only [pushMark, clearMark, h.balance x]
    omega
  · by_cases hpj : p = j
    · subst hpj
      simp [pushMark, clearMark, h.order]
    · simp [pushMark, clearMark, hpj, h.order]

/-- The oldest mark of a queue moves to a header without a mark. -/
theorem Tallied.popMark (h : s.Tallied handle) (hb : b ∈ s.inside) (hnone : s.mark b = none)
    (p : Fin n) : (s.popMark p b).Tallied handle := by
  unfold MarkedBuffers.popMark
  split
  · exact h
  · rename_i m q hq
    refine ⟨h.nodup, fun x => ?_, fun i => ?_, h.left, h.events⟩
    · have hsum := sum_update (List.count x) s.markq p q
      have hheaders := count_filterMap_update h.nodup hb s.mark (some m) x
      rw [hq, count_cons] at hsum
      rw [hnone, toList_some, toList_none, count_nil, count_singleton]
        at hheaders
      change s.arrived.count x = ∑ i, (Function.update s.markq p q i).count x +
        (s.inside.filterMap (Function.update s.mark b (some m))).count x +
        s.left.count x + s.events.count x
      rw [h.balance x]
      omega
    · by_cases hi : i = p
      · subst hi
        simp [h.order, hq]
      · simp [hi, h.order]

theorem Tallied.takeHeader (h : s.Tallied handle) (hb : b ∉ s.inside)
    (carried : Option (Mark C D)) : (s.takeHeader b carried).Tallied handle := by
  refine ⟨nodup_cons.mpr ⟨hb, h.nodup⟩, fun x => ?_, h.order, h.left, h.events⟩
  simp only [MarkedBuffers.takeHeader, count_filterMap_cons, update_self,
    filterMap_update_of_notMem hb, count_append, h.balance x]
  omega

theorem Tallied.returnMark (h : s.Tallied handle) (hb : b ∈ s.inside) :
    (s.returnMark handle b).Tallied handle := by
  have hnotMem : b ∉ s.inside.erase b := List.Nodup.not_mem_erase h.nodup
  unfold MarkedBuffers.returnMark
  dsimp only
  split
  · rename_i hm
    refine ⟨h.nodup.erase b, fun x => ?_, h.order, h.left, h.events⟩
    rw [h.balance x, count_filterMap_erase hb, hm, toList_none, count_nil, Nat.zero_add]
  · rename_i m hm
    split
    · rename_i hself
      refine ⟨h.nodup.erase b, fun x => ?_, h.order, h.left, ?_⟩
      · change s.arrived.count x = _ +
          ((s.inside.erase b).filterMap (Function.update s.mark b none)).count x + _ +
          (m :: s.events).count x
        rw [h.balance x, count_filterMap_erase hb, hm, filterMap_update_of_notMem hnotMem,
          toList_some, count_singleton, count_cons]
        dsimp only [clearMark]
        omega
      · simpa [clearMark, hself] using h.events
    · rename_i hself
      refine ⟨h.nodup.erase b, fun x => ?_, h.order, ?_, h.events⟩
      · change s.arrived.count x = _ + ((s.inside.erase b).filterMap s.mark).count x +
          (m :: s.left).count x + _
        rw [h.balance x, count_filterMap_erase hb, hm, toList_some, count_singleton, count_cons]
        dsimp only
        omega
      · simpa [hself] using h.left

omit [DecidableEq D] in
/-- `FilterPostProcessBuffers` moves a mark to the queue of the output port, and from there the
oldest one to the output buffer if it has none. -/
theorem propagateMark_eq (hbc : b ≠ c) (hm : s.mark b = some m)
    (hother : m.hMarkTargetComponent ≠ handle) (j : Fin n) :
    s.propagateMark handle b j (some c) =
      some (match s.mark c with
        | some _ => (s.pushMark j m).clearMark b
        | none => ((s.pushMark j m).clearMark b).popMark j c) := by
  unfold propagateMark
  simp only [hm, if_neg hother, map_some]
  cases hc : s.mark c with
  | some _ => rfl
  | none =>
    cases hq : s.markq j with
    | nil =>
      have hempty : Function.update s.markq j [] = s.markq := by
        rw [← hq, update_eq_self]
      simp [MarkedBuffers.popMark, pushMark, clearMark, hq, hempty, update_comm hbc.symm]
    | cons _ _ =>
      simp [MarkedBuffers.popMark, pushMark, clearMark, hq, update_comm hbc.symm]

/-! ## Marks that are returned -/

section

omit [DecidableEq D]

@[simp] theorem inside_returnMark (s : MarkedBuffers n H C D) (b : H) :
    (s.returnMark handle b).inside = s.inside.erase b := by
  unfold returnMark
  dsimp only
  split
  · rfl
  · split <;> rfl

@[simp] theorem entered_returnMark (s : MarkedBuffers n H C D) (b : H) :
    (s.returnMark handle b).entered = s.entered := by
  unfold returnMark
  dsimp only
  split
  · rfl
  · split <;> rfl

@[simp] theorem attached_returnMark (s : MarkedBuffers n H C D) (b : H) :
    (s.returnMark handle b).attached = s.attached := by
  unfold returnMark
  dsimp only
  split
  · rfl
  · split <;> rfl

/-- A header has no other mark after it was returned. -/
theorem mark_of_returnMark (hm : (s.returnMark handle b).mark c = some m) : s.mark c = some m := by
  unfold returnMark at hm
  dsimp only at hm
  split at hm
  · exact hm
  · split at hm
    · by_cases hcb : c = b
      · subst hcb
        simp [clearMark] at hm
      · simpa [clearMark, hcb] using hm
    · exact hm

theorem entered_foldl_returnMark (l : List H) (s : MarkedBuffers n H C D) :
    (l.foldl (returnMark handle) s).entered = s.entered := by
  induction l generalizing s with
  | nil => rfl
  | cons b l ih => rw [foldl_cons, ih, entered_returnMark]

theorem attached_foldl_returnMark (l : List H) (s : MarkedBuffers n H C D) :
    (l.foldl (returnMark handle) s).attached = s.attached := by
  induction l generalizing s with
  | nil => rfl
  | cons b l ih => rw [foldl_cons, ih, attached_returnMark]

theorem mark_of_foldl_returnMark {l : List H}
    (hm : (l.foldl (returnMark handle) s).mark c = some m) : s.mark c = some m := by
  induction l generalizing s with
  | nil => exact hm
  | cons b l ih => exact mark_of_returnMark (ih hm)

end

/-- Headers that are returned one after the other, as often as the component has them. -/
theorem Tallied.foldl_returnMark {l : List H} (h : s.Tallied handle)
    (hl : ∀ b, l.count b ≤ s.inside.count b) :
    (l.foldl (MarkedBuffers.returnMark handle) s).Tallied handle ∧
      ∀ b, l.count b + (l.foldl (MarkedBuffers.returnMark handle) s).inside.count b =
        s.inside.count b := by
  induction l generalizing s with
  | nil => exact ⟨h, fun b => by simp⟩
  | cons a l ih =>
    have ha : a ∈ s.inside := by
      have hcount := hl a
      rw [count_cons_self] at hcount
      exact count_pos_iff.mp (by omega)
    have hrest : ∀ b, l.count b ≤ (s.returnMark handle a).inside.count b := by
      intro b
      have hb := hl b
      rw [count_cons] at hb
      rw [inside_returnMark, count_erase]
      omega
    obtain ⟨htallied, hcount⟩ := ih (h.returnMark ha) hrest
    refine ⟨htallied, fun b => ?_⟩
    have hb := hl b
    have hb' := hcount b
    rw [inside_returnMark, count_erase] at hb'
    rw [count_cons] at hb
    rw [foldl_cons, count_cons]
    by_cases hab : a == b
    · simp only [hab, if_true] at hb hb' ⊢
      omega
    · simp only [hab, Bool.false_eq_true, if_false] at hb hb' ⊢
      omega

/-! ## Marks in the post processing -/

omit [DecidableEq C] [DecidableEq D] in
@[simp] theorem inside_popMark (s : MarkedBuffers n H C D) (p : Fin n) (b : H) :
    (s.popMark p b).inside = s.inside := by
  unfold popMark
  split <;> rfl

/-- The tally with the headers that the component has in the round. -/
theorem Tallied.propagateMark {t : MarkedBuffers n H C D} {c : Option H} {j : Fin n}
    (h : s.Tallied handle) (hb : b ∈ s.inside) (hc : ∀ d ∈ c, d ∈ s.inside ∧ b ≠ d)
    (hstep : s.propagateMark handle b j c = some t) :
    t.Tallied handle ∧ t.inside = s.inside := by
  cases hm : s.mark b with
  | none =>
    simp only [MarkedBuffers.propagateMark, hm, some.injEq] at hstep
    exact hstep ▸ ⟨h, rfl⟩
  | some m =>
    by_cases hself : m.hMarkTargetComponent = handle
    · simp only [MarkedBuffers.propagateMark, hm, if_pos hself, some.injEq] at hstep
      exact hstep ▸ ⟨h, rfl⟩
    · cases c with
      | none => simp [MarkedBuffers.propagateMark, hm, hself] at hstep
      | some d =>
        obtain ⟨hd, hbd⟩ := hc d rfl
        rw [propagateMark_eq hbd hm hself, some.injEq] at hstep
        have hqueued := h.moveToQueue hb hm j
        cases hmd : s.mark d with
        | some _ =>
          simp only [hmd] at hstep
          exact hstep ▸ ⟨hqueued, rfl⟩
        | none =>
          simp only [hmd] at hstep
          have hnone : ((s.pushMark j m).clearMark b).mark d = none := by
            simpa [clearMark, pushMark, hbd.symm] using hmd
          exact hstep ▸ ⟨hqueued.popMark hd hnone j, inside_popMark _ j d⟩

/-- The headers of two ports differ. -/
def Distinct (r : Processed n H) : Prop := ∀ i j b, r.hdr i = some b → r.hdr j = some b → i = j

/-- The headers in a round belong to the component, and those of two ports differ. -/
structure OwnHeaders (r : Processed n H) (s : MarkedBuffers n H C D) : Prop where
  inside : ∀ i b, r.hdr i = some b → b ∈ s.inside
  distinct : Distinct r

variable {t : MarkedBuffers n H C D} {setup : Setup n H} {r : Processed n H}

omit [DecidableEq H] [DecidableEq C] [DecidableEq D] in
theorem OwnHeaders.of_inside (h : OwnHeaders r s) (hinside : t.inside = s.inside) :
    OwnHeaders r t :=
  ⟨fun i b hb => hinside ▸ h.inside i b hb, h.distinct⟩

omit [DecidableEq H] in
/-- The headers of an input port and of an output port differ. -/
theorem Distinct.ne_of_direction (h : Distinct r) {i j : Fin n}
    (hi : setup.direction i = .input) (hj : setup.direction j = .output)
    (hb : r.hdr i = some b) (hc : r.hdr j = some c) : b ≠ c := by
  rintro rfl
  have hij := h i j b hb hc
  rw [hij, hj] at hi
  cases hi

section

variable (h : s.Tallied handle) (hown : OwnHeaders r s)
include h hown

theorem Tallied.propagateFrom {i : Fin n} (hrun : s.propagateFrom setup handle r i = some t) :
    t.Tallied handle ∧ t.inside = s.inside := by
  unfold MarkedBuffers.propagateFrom at hrun
  split at hrun
  · exact some.inj hrun ▸ ⟨h, rfl⟩
  · rename_i hi
    refine foldlM_keeps (I := fun u => u.Tallied handle ∧ u.inside = s.inside)
      (fun u j v hu hv => ?_) ⟨h, rfl⟩ hrun
    obtain ⟨hu, huinside⟩ := hu
    unfold propagateTo at hv
    split at hv
    · exact some.inj hv ▸ ⟨hu, huinside⟩
    · rename_i hj
      obtain ⟨b, hb, hv⟩ := bind_eq_some_iff.mp hv
      have hown' := hown.of_inside huinside
      obtain ⟨hv, hvinside⟩ := hu.propagateMark (hown'.inside i b hb)
        (fun d hd => ⟨hown'.inside j d hd, hown.distinct.ne_of_direction hi hj hb hd⟩) hv
      exact ⟨hv, hvinside.trans huinside⟩

theorem Tallied.filterPostProcessMarks (hrun : s.filterPostProcessMarks setup handle r = some t) :
    t.Tallied handle ∧ t.inside = s.inside := by
  refine foldlM_keeps (I := fun u => u.Tallied handle ∧ u.inside = s.inside)
    (fun u i v hu hv => ?_) ⟨h, rfl⟩ hrun
  obtain ⟨hv, hvinside⟩ := hu.1.propagateFrom (hown.of_inside hu.2) hv
  exact ⟨hv, hvinside.trans hu.2⟩

theorem Tallied.sourcePostProcessMarks (hrun : s.sourcePostProcessMarks r = some t) :
    t.Tallied handle ∧ t.inside = s.inside := by
  refine foldlM_keeps (I := fun u => u.Tallied handle ∧ u.inside = s.inside)
    (fun u i v hu hv => ?_) ⟨h, rfl⟩ hrun
  obtain ⟨hu, huinside⟩ := hu
  obtain ⟨b, hb, rfl⟩ := map_eq_some_iff.mp hv
  have hmem : b ∈ u.inside := huinside ▸ hown.inside i b hb
  split
  · exact ⟨hu, huinside⟩
  · rename_i hnone
    exact ⟨hu.popMark hmem hnone i, (inside_popMark u i b).trans huinside⟩

theorem Tallied.postProcessMarks (hrun : s.postProcessMarks setup handle r = some t) :
    t.Tallied handle ∧ t.inside = s.inside := by
  unfold MarkedBuffers.postProcessMarks at hrun
  split at hrun
  · exact some.inj hrun ▸ ⟨h, rfl⟩
  · split at hrun
    · exact h.sourcePostProcessMarks hown hrun
    · split at hrun
      · exact some.inj hrun ▸ ⟨h, rfl⟩
      · exact h.filterPostProcessMarks hown hrun

end

end MarkedBuffers

/-! ## The headers that a step returns -/

namespace Port

/-- The port was handed nothing, and nothing that it had returned came back. -/
structure Extends (port port' : Port H) : Prop where
  handed : port'.handed = port.handed
  returned : port.returned <:+ port'.returned

variable {port port' : Port H} {own : H → Bool}

section

omit [DecidableEq H]

theorem Extends.refl (port : Port H) : port.Extends port := ⟨rfl, suffix_rfl⟩

theorem Extends.trans {port'' : Port H} (h : port.Extends port') (h' : port'.Extends port'') :
    port.Extends port'' :=
  ⟨h'.handed.trans h.handed, h.returned.trans h'.returned⟩

theorem extends_returnThisBuffer (port : Port H) (b : H) :
    port.Extends (port.returnThisBuffer own b) := by
  unfold returnThisBuffer
  split
  · exact ⟨rfl, suffix_cons _ _⟩
  · exact .refl port

theorem extends_returnAllRetainedBuffers (port : Port H) :
    port.Extends (port.returnAllRetainedBuffers own) := by
  have hloop := foldl_rel (R := Extends) .refl .trans
    (fun port b _ => @extends_returnThisBuffer _ own port b)
    (l := port.retainedbufferq) { port with retainedbufferq := [] }
  exact ⟨hloop.handed, hloop.returned⟩

theorem extends_returnOneRetainedBuffer (port : Port H) :
    port.Extends (port.returnOneRetainedBuffer own) := by
  unfold returnOneRetainedBuffer
  split
  · exact .refl port
  · rename_i b q _
    have hreturn := @extends_returnThisBuffer _ own { port with retainedbufferq := q } b
    exact ⟨hreturn.handed, hreturn.returned⟩

theorem extends_returnQueue (q : List (Option H)) (port : Port H) :
    port.Extends (returnQueue own q port) := by
  induction q generalizing port with
  | nil => exact ⟨rfl, suffix_rfl⟩
  | cons x q ih =>
    cases x with
    | none => exact ⟨rfl, suffix_rfl⟩
    | some b => exact (extends_returnThisBuffer port b).trans (ih _)

theorem extends_flushPort (port : Port H) : port.Extends (port.flushPort own) :=
  (extends_returnAllRetainedBuffers port).trans (extends_returnQueue _ _)

end

theorem extends_returnCached (port : Port H) (b : H) : port.Extends (port.returnCached own b) := by
  have hreturn := @extends_returnThisBuffer _ own
    { port with cached := port.cached.erase b } b
  exact ⟨hreturn.handed, hreturn.returned⟩

omit [DecidableEq H] in
theorem extends_popBuffer (port : Port H) : port.Extends port.popBuffer := by
  unfold popBuffer
  split <;> exact ⟨rfl, suffix_rfl⟩

theorem extends_retainAndReturnBuffer (port : Port H) (a : Option H) (b : H) :
    port.Extends (port.retainAndReturnBuffer own a b) := by
  unfold retainAndReturnBuffer
  split
  · exact extends_returnThisBuffer port b
  · dsimp only
    split
    · rename_i q _
      have hreturn := @extends_returnThisBuffer _ own
        { port.retainGetAgain a with bufferq := q } b
      exact ⟨hreturn.handed, hreturn.returned⟩
    · exact ⟨rfl, suffix_rfl⟩

theorem extends_distribute (refused : Bool) (hdr : Option H) (retain : Retain) (port : Port H) :
    port.Extends (port.distribute own refused hdr retain) := by
  cases hdr with
  | none => exact .refl port
  | some b =>
    cases retain with
    | notRetain => exact extends_returnThisBuffer port b
    | getAgain => exact ⟨rfl, suffix_rfl⟩
    | accumulate =>
      simp only [distribute, retainAccumulate]
      split
      · exact .refl port
      · split <;> exact ⟨rfl, suffix_rfl⟩
    | overridden => exact extends_retainAndReturnBuffer port _ b
    | cache => exact .refl port

theorem extends_finish (refused : Bool) (hdr : Option H) (retain : Retain) (port : Port H) :
    port.Extends (port.finish own refused hdr retain) := by
  have hdistribute := @extends_distribute _ _ own refused hdr retain port
  exact ⟨hdistribute.handed, hdistribute.returned⟩

omit [DecidableEq H] in
theorem extends_fail (hdr : Option H) (port : Port H) : port.Extends (port.fail own hdr) := by
  have hpopped : port.Extends { port with popped := none } := ⟨rfl, suffix_rfl⟩
  cases hdr with
  | none => exact hpopped
  | some b =>
    exact hpopped.trans ((extends_returnThisBuffer _ b).trans (extends_flushPort _))

/-- The headers that a port does not have any more are those that it returned. -/
theorem Extends.count_returnedSince (h : port.Extends port') (hbalanced : port.Balanced own)
    (hbalanced' : port'.Balanced own) (b : H) :
    (MarkedBuffers.returnedSince port port').count b + port'.held b = port.held b := by
  obtain ⟨l, hl⟩ := h.returned
  have hsince : MarkedBuffers.returnedSince port port' = l := by
    simp [MarkedBuffers.returnedSince, ← hl]
  have hb := hbalanced.balance b
  have hb' := hbalanced'.balance b
  rw [h.handed, ← hl, count_append] at hb'
  rw [hsince]
  omega

end Port

/-! ## Conservation of the marks -/

variable {setup : Setup n H} {s t : Buffers n H}

/-- The steps in which the client hands in a buffer. -/
def BufferStep.handsIn : BufferStep n H → Bool
  | .emptyThisBuffer _ _ => true
  | .fillThisBuffer _ _ => true
  | _ => false

omit [DecidableEq H] [DecidableEq C] in
theorem extends_onPort (s : Buffers n H) {p : Fin n} {f : Port H → Port H}
    (hf : (s.ports p).Extends (f (s.ports p))) (i : Fin n) :
    (s.ports i).Extends ((s.onPort p f).ports i) := by
  unfold Buffers.onPort
  by_cases hi : i = p
  · subst hi
    simpa using hf
  · simpa [hi] using Port.Extends.refl (s.ports i)

section

omit [DecidableEq C]

theorem extends_distributeBuffers {r : Processed n H}
    (hstep : distributeBuffers setup s r = some t) (p : Fin n) :
    (s.ports p).Extends (t.ports p) := by
  unfold distributeBuffers at hstep
  split at hstep
  · obtain ⟨eos, _, rfl⟩ := map_eq_some_iff.mp hstep
    exact Port.extends_finish _ _ _ _
  · exact some.inj hstep ▸ Port.extends_fail _ _

/-- Only the client hands in buffers, and no step takes back what was returned. -/
theorem extends_bufferStep {x : BufferStep n H} (hx : x.handsIn = false)
    (hstep : bufferStep setup s x = some t) (p : Fin n) : (s.ports p).Extends (t.ports p) := by
  cases x with
  | emptyThisBuffer b eos => cases hx
  | fillThisBuffer b eos => cases hx
  | popBuffers =>
    obtain ⟨-, hstep⟩ := ite_none_right_eq_some.mp hstep
    exact some.inj hstep ▸ Port.extends_popBuffer _
  | distributeBuffers r =>
    obtain ⟨-, hstep⟩ := ite_none_right_eq_some.mp hstep
    exact extends_distributeBuffers hstep p
  | flushPort q =>
    obtain ⟨-, hstep⟩ := ite_none_left_eq_some.mp hstep
    exact some.inj hstep ▸ extends_onPort s (Port.extends_flushPort _) p
  | flushAllPorts =>
    obtain ⟨-, hstep⟩ := ite_none_left_eq_some.mp hstep
    exact some.inj hstep ▸ Port.extends_flushPort _
  | returnOneRetainedBuffer q =>
    exact some.inj hstep ▸ extends_onPort s (Port.extends_returnOneRetainedBuffer _) p
  | returnAllRetainedBuffers q =>
    exact some.inj hstep ▸ extends_onPort s (Port.extends_returnAllRetainedBuffers _) p
  | returnCached q b =>
    obtain ⟨-, hstep⟩ := ite_none_right_eq_some.mp hstep
    exact some.inj hstep ▸ extends_onPort s (Port.extends_returnCached _ b) p
  | setState state => exact some.inj hstep ▸ Port.Extends.refl _
  | setPort q enabled count =>
    refine some.inj hstep ▸ extends_onPort s ?_ p
    exact ⟨rfl, suffix_rfl⟩

/-- A buffer that is handed in goes to the port that takes it. -/
theorem ports_handThisBuffer (s : Buffers n H) (portIndex : ℕ) (b : H) (eos : Bool) :
    (handThisBuffer s portIndex b eos).ports =
      match accepts s portIndex with
      | none => s.ports
      | some p => Function.update s.ports p ((s.ports p).pushThisBuffer b) := by
  unfold handThisBuffer accepts
  dsimp only
  split
  · split <;> rfl
  · rfl

theorem held_pushThisBuffer (port : Port H) (b c : H) :
    (port.pushThisBuffer b).held c = port.held c + if b = c then 1 else 0 := by
  simp only [Port.pushThisBuffer, Port.held, count_append, count_singleton, beq_iff_eq, some.injEq]
  omega

end

variable [DecidableEq D] {handle : C} {s t : MarkedBuffers n H C D}

/-- The buffers are conserved, the marks are tallied, and the component has the headers that its
ports hold. -/
structure MarksConserved (setup : Setup n H) (handle : C) (s : MarkedBuffers n H C D) : Prop where
  conserved : Conserved setup s.buffers
  tallied : s.Tallied handle
  inside : ∀ b, s.inside.count b = ∑ p, (s.buffers.ports p).held b

theorem marksConserved_new (enabled : Fin n → Bool) (count : Fin n → ℕ) (eos : H → Bool)
    (state : OmxState) (mark : H → Option (Mark C D)) :
    MarksConserved setup handle (.new (.new enabled count eos state) mark) := by
  refine ⟨conserved_new setup enabled count eos state, MarkedBuffers.tallied_new _ _, fun b => ?_⟩
  simp [MarkedBuffers.new, Buffers.new, Port.new, Port.held]

variable {x : Buffers n H} {b : H}

/-- A header that no port holds does not belong to the component. -/
theorem MarksConserved.notMem_inside (h : MarksConserved setup handle s)
    (hb : ∀ p, (s.buffers.ports p).held b = 0) : b ∉ s.inside := by
  rw [← count_eq_zero, h.inside b]
  exact Finset.sum_eq_zero fun p _ => hb p

/-- The headers in a round are those of the ports. -/
theorem MarksConserved.ownHeaders (h : MarksConserved setup handle s) {r : Processed n H}
    (hr : ∀ p, (r.hdr p).all (fun b => decide (0 < (s.buffers.ports p).held b)) = true) :
    MarkedBuffers.OwnHeaders r s := by
  have hheld : ∀ p b, r.hdr p = some b → 0 < (s.buffers.ports p).held b := by
    intro p b hb
    simpa [hb] using hr p
  have hsingle : ∀ p b, (s.buffers.ports p).held b ≤ ∑ q, (s.buffers.ports q).held b := fun p b =>
    Finset.single_le_sum (fun q _ => Nat.zero_le ((s.buffers.ports q).held b)) (Finset.mem_univ p)
  constructor
  · intro p b hb
    have hpos := hheld p b hb
    have hle := hsingle p b
    rw [← h.inside b] at hle
    exact count_pos_iff.mp (by omega)
  · intro p q b hp hq
    by_contra hpq
    have hnodup := nodup_iff_count_le_one.mp h.tallied.nodup b
    have hpair := Finset.add_le_sum (fun q _ => Nat.zero_le ((s.buffers.ports q).held b))
      (Finset.mem_univ p) (Finset.mem_univ q) hpq
    have hp' := hheld p b hp
    have hq' := hheld q b hq
    rw [← h.inside b] at hpair
    omega

omit [DecidableEq H] in
theorem MarkedBuffers.Tallied.setBuffers (h : s.Tallied handle) (x : Buffers n H) :
    Tallied handle { s with buffers := x } :=
  { h with }

section

variable (h : MarksConserved setup handle s)
include h

/-- A buffer that a port takes. -/
theorem MarksConserved.taken (ht : t.Tallied handle) (hinside : t.inside = b :: s.inside)
    {p : Fin n} (hx : Conserved setup x)
    (hports : x.ports = Function.update s.buffers.ports p ((s.buffers.ports p).pushThisBuffer b)) :
    MarksConserved setup handle { t with buffers := x } := by
  refine ⟨hx, ht.setBuffers x, fun c => ?_⟩
  have hsum := sum_update (fun port : Port H => port.held c) s.buffers.ports p
    ((s.buffers.ports p).pushThisBuffer b)
  rw [held_pushThisBuffer] at hsum
  simp only [hinside, count_cons, h.inside c, hports, beq_iff_eq]
  omega

/-- A buffer that no port takes: the client has written a mark into its own header. -/
theorem MarksConserved.notTaken (hb : ∀ p, (s.buffers.ports p).held b = 0)
    (carried : Option (Mark C D)) (hx : Conserved setup x) (hports : x.ports = s.buffers.ports) :
    MarksConserved setup handle
      { s with mark := Function.update s.mark b carried, buffers := x } := by
  have htallied := h.tallied
  refine ⟨hx, { htallied with balance := fun m => ?_ }, fun c => ?_⟩
  · change s.arrived.count m =
      _ + (s.inside.filterMap (Function.update s.mark b carried)).count m + _ + _
    rw [htallied.balance m, filterMap_update_of_notMem (h.notMem_inside hb)]
  · change s.inside.count c = ∑ p, (x.ports p).held c
    rw [h.inside c, hports]

/-- The headers that the ports returned leave the component with their marks. -/
theorem MarksConserved.returnMarks (ht : t.Tallied handle) (hinside : t.inside = s.inside)
    (hx : Conserved setup x) (hextends : ∀ p, (s.buffers.ports p).Extends (x.ports p)) :
    MarksConserved setup handle { t.returnMarks handle s.buffers x with buffers := x } := by
  let l := (List.finRange n).flatMap fun p =>
    (MarkedBuffers.returnedSince (s.buffers.ports p) (x.ports p)).reverse
  have hreturned : ∀ b, l.count b + ∑ p, (x.ports p).held b = t.inside.count b := by
    intro b
    rw [count_flatMap, hinside, h.inside b, Fin.sum_univ_def, Fin.sum_univ_def, ← sum_map_add]
    refine congrArg List.sum (map_congr_left fun p _ => ?_)
    rw [comp_apply, count_reverse]
    exact (hextends p).count_returnedSince (h.conserved.balanced p) (hx.balanced p) b
  have hle : ∀ b, l.count b ≤ t.inside.count b := fun b => by
    rw [← hreturned b]
    exact Nat.le_add_right _ _
  obtain ⟨htallied, hcount⟩ := ht.foldl_returnMark hle
  refine ⟨hx, htallied.setBuffers x, fun b => ?_⟩
  have hb := hcount b
  rw [← hreturned b] at hb
  exact Nat.add_left_cancel hb

/-- A buffer that the client hands in at a port; `v` is what becomes of the marks if it is taken. -/
theorem MarksConserved.handedIn {k : ℕ} {eos : Bool} {carried : Option (Mark C D)}
    {v : Option (Fin n) → MarkedBuffers n H C D} (hb : ∀ p, (s.buffers.ports p).held b = 0)
    (hx : Conserved setup (handThisBuffer s.buffers k b eos))
    (hnone : v none = { s with mark := Function.update s.mark b carried })
    (hsome : ∀ p, (s.takeHeader b carried).Tallied handle →
      (v (some p)).Tallied handle ∧ (v (some p)).inside = b :: s.inside) :
    MarksConserved setup handle
      { v (accepts s.buffers k) with buffers := handThisBuffer s.buffers k b eos } := by
  have hports := ports_handThisBuffer s.buffers k b eos
  cases haccepts : accepts s.buffers k with
  | none =>
    rw [haccepts] at hports
    exact hnone ▸ h.notTaken hb carried hx hports
  | some p =>
    rw [haccepts] at hports
    obtain ⟨htaken, hinside⟩ := hsome p (h.tallied.takeHeader (h.notMem_inside hb) carried)
    exact h.taken htaken hinside hx hports

theorem MarksConserved.pushThisMark (portIndex : ℕ) (m : Mark C D) :
    MarksConserved setup handle (s.pushThisMark portIndex m) := by
  have htallied := h.tallied.pushThisMark portIndex m
  unfold MarkedBuffers.pushThisMark at htallied ⊢
  split
  · rename_i hp
    rw [dif_pos hp] at htallied
    exact ⟨h.conserved, htallied, h.inside⟩
  · exact h

/-- Every step in which no buffer is lost keeps the balance of the marks. -/
theorem MarksConserved.markStep {x : MarkStep n H C D} (hkeeps : keepsMarks setup s x = true)
    (hstep : markStep setup handle s x = some t) :
    MarksConserved setup handle t := by
  cases x with
  | markBuffer portIndex m => exact some.inj hstep ▸ h.pushThisMark portIndex m
  | step x carried =>
    obtain ⟨hkeeps, hheaders⟩ := Bool.and_eq_true_iff.mp hkeeps
    obtain ⟨y, hy, hmove⟩ := bind_eq_some_iff.mp hstep
    obtain ⟨u, hu, rfl⟩ := map_eq_some_iff.mp hmove
    have hconserved := h.conserved.bufferStep hkeeps hy
    -- the steps that are no call of the client only return headers
    have hreturns : x.handsIn = false → ∀ v : MarkedBuffers n H C D, v.Tallied handle →
        v.inside = s.inside → u = v.returnMarks handle s.buffers y →
        MarksConserved setup handle { u with buffers := y } := by
      rintro hx v hv hinside rfl
      exact h.returnMarks hv hinside hconserved (extends_bufferStep hx hy)
    cases x with
    | emptyThisBuffer b eos =>
      obtain rfl := some.inj hy
      obtain rfl := some.inj hu
      refine h.handedIn (v := (s.emptyThisBuffer · b carried)) (of_decide_eq_true hheaders) hconserved
        rfl fun p htaken => ?_
      cases carried with
      | none => exact ⟨htaken.popMark (mem_cons_self ..) (update_self ..) p,
          MarkedBuffers.inside_popMark _ p b⟩
      | some m => exact ⟨htaken, rfl⟩
    | fillThisBuffer b eos =>
      obtain rfl := some.inj hy
      obtain rfl := some.inj hu
      exact h.handedIn (v := (s.fillThisBuffer · b carried)) (of_decide_eq_true hheaders) hconserved
        rfl fun p htaken => ⟨htaken, rfl⟩
    | distributeBuffers r =>
      obtain ⟨v, hv, rfl⟩ := map_eq_some_iff.mp hu
      obtain ⟨htallied, hinside⟩ :=
        h.tallied.postProcessMarks (h.ownHeaders (of_decide_eq_true hheaders)) hv
      exact hreturns rfl v htallied hinside rfl
    | _ => exact hreturns rfl s h.tallied rfl (some.inj hu).symm

end

end HardwareIntel.Omx
