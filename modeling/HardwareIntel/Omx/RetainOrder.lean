import HardwareIntel.Omx.Buffers
import Mathlib.Data.List.Nodup

/-!
# The order of the buffers in `RetainAndReturnBuffer`

`PortBase::RetainAndReturnBuffer` of `wrs_omxil_core/base/src/portbase.cpp` keeps one buffer to get
it again and returns another one from the queue of the port. `Port.retainAndReturnBuffer` is the
function when all allocations of queue entries succeed; here the outcome of each of them is given,
and an entry that cannot be allocated loses its buffer.

The function takes the buffers from the head of the queue and puts them back at the tail until it
finds the one to return. So the buffers before it, with the retained one as the first of them, end
up behind the others; `inOrder` says when this does no harm.
-/

namespace HardwareIntel.Omx

open List

variable {H : Type} [DecidableEq H]

namespace Port

/-! ## With allocations -/

/-- What `RetainAndReturnBuffer` returns, `OMX_ErrorNone` or an error, and the port after it. -/
structure Retained (H : Type) where
  ok : Bool
  port : Port H

/-- The loop, which is at the `i`-th of its `k + i` rounds. A push that fails is not noticed. -/
def searchBuffer (alloc : ℕ → Bool) (b : H) : ℕ → ℕ → List (Option H) → List (Option H) × Bool
  | 0, _, q => (q, false)
  | k + 1, i, [] => searchBuffer alloc b k (i + 1) (if alloc i then [none] else [])
  | k + 1, i, p :: q =>
    if p = some b then (q, true)
    else searchBuffer alloc b k (i + 1) (if alloc i then q ++ [p] else q)

/-- `ReturnThisBuffer` with its result. -/
def returning (own : H → Bool) (port : Port H) (b : H) : Retained H :=
  ⟨own b, port.returnThisBuffer own b⟩

/-- `RetainAndReturnBuffer`, where `alloc 0` is the allocation of the push at the head and
`alloc (i + 1)` the one of the `i`-th push at the tail. -/
def retainAndReturnBufferWith (alloc : ℕ → Bool) (own : H → Bool) (port : Port H)
    (pRetain : Option H) (pReturn : H) : Retained H :=
  if pRetain = some pReturn then port.returning own pReturn
  else if !alloc 0 then ⟨false, port⟩
  else
    let port := port.retainGetAgain pRetain
    match searchBuffer alloc pReturn port.bufferq.length 1 port.bufferq with
    | (q, true) => { port with bufferq := q }.returning own pReturn
    | (q, false) => ⟨true, { port with bufferq := q }⟩

/-- The buffers of a list that are pushed from the `i`-th round on. -/
def pushed (alloc : ℕ → Bool) : ℕ → List (Option H) → List (Option H)
  | _, [] => []
  | i, p :: q => (if alloc i then [p] else []) ++ pushed alloc (i + 1) q

omit [DecidableEq H] in
theorem pushed_cons (alloc : ℕ → Bool) (i : ℕ) (p : Option H) (q : List (Option H)) :
    pushed alloc i (p :: q) = (if alloc i then [p] else []) ++ pushed alloc (i + 1) q := rfl

theorem searchBuffer_cons (alloc : ℕ → Bool) (b : H) (k i : ℕ) (p : Option H)
    (q : List (Option H)) :
    searchBuffer alloc b (k + 1) i (p :: q) =
      if p = some b then (q, true)
      else searchBuffer alloc b k (i + 1) (if alloc i then q ++ [p] else q) := rfl

omit [DecidableEq H] in
theorem pushed_sublist (alloc : ℕ → Bool) (i : ℕ) (q : List (Option H)) :
    (pushed alloc i q).Sublist q := by
  induction q generalizing i with
  | nil => exact .slnil
  | cons p q ih =>
    rw [pushed_cons]
    split_ifs
    · exact (ih (i + 1)).cons_cons p
    · exact (ih (i + 1)).cons p

omit [DecidableEq H] in
/-- All buffers are pushed if no allocation fails. -/
theorem pushed_eq_self_iff (alloc : ℕ → Bool) (i : ℕ) (q : List (Option H)) :
    pushed alloc i q = q ↔ ∀ j < q.length, alloc (i + j) = true := by
  induction q generalizing i with
  | nil => simp [pushed]
  | cons p q ih =>
    constructor
    · intro h j hj
      by_cases hi : alloc i = true
      · rw [pushed_cons, if_pos hi, singleton_append, List.cons.injEq] at h
        cases j with
        | zero => exact hi
        | succ j =>
          have := (ih (i + 1)).mp h.2 j (by simpa using hj)
          rwa [Nat.add_right_comm] at this
      · have hlength := (pushed_sublist alloc (i + 1) q).length_le
        rw [pushed_cons, if_neg hi, nil_append] at h
        rw [h, length_cons] at hlength
        omega
    · intro h
      have hi : alloc i = true := h 0 (by simp)
      rw [pushed_cons, if_pos hi, singleton_append]
      refine congrArg _ ((ih (i + 1)).mpr fun j hj => ?_)
      have := h (j + 1) (by simpa using hj)
      rw [Nat.add_right_comm]
      exact this

/-- The loop over a queue without the buffer puts all of it behind the rest. -/
theorem searchBuffer_of_notMem (alloc : ℕ → Bool) {b : H} (i : ℕ) (q rest : List (Option H))
    (hb : some b ∉ q) :
    searchBuffer alloc b q.length i (q ++ rest) = (rest ++ pushed alloc i q, false) := by
  induction q generalizing i rest with
  | nil => exact congrArg (·, false) (append_nil rest).symm
  | cons p q ih =>
    rw [mem_cons, not_or] at hb
    rw [length_cons, cons_append, searchBuffer_cons, if_neg (Ne.symm hb.1), pushed_cons]
    split_ifs
    · rw [append_assoc, ih _ _ hb.2, append_assoc]
    · rw [ih _ _ hb.2, nil_append]

/-- The loop ends at the buffer, and what stood before it stands behind the rest. -/
theorem searchBuffer_of_append (alloc : ℕ → Bool) {b : H} (i k : ℕ) (q rest : List (Option H))
    (hb : some b ∉ q) (hk : q.length < k) :
    searchBuffer alloc b k i (q ++ some b :: rest) = (rest ++ pushed alloc i q, true) := by
  induction q generalizing i k rest with
  | nil =>
    obtain ⟨k, rfl⟩ := Nat.exists_eq_add_one_of_ne_zero (Nat.ne_of_gt hk)
    rw [nil_append, searchBuffer_cons, if_pos rfl]
    exact congrArg (·, true) (append_nil rest).symm
  | cons p q ih =>
    obtain ⟨k, rfl⟩ := Nat.exists_eq_add_one_of_ne_zero (Nat.ne_of_gt (Nat.zero_lt_of_lt hk))
    rw [mem_cons, not_or] at hb
    rw [length_cons, Nat.add_lt_add_iff_right] at hk
    rw [cons_append, searchBuffer_cons, if_neg (Ne.symm hb.1), pushed_cons]
    split_ifs
    · rw [append_assoc, cons_append, ih _ _ _ hb.2 hk, append_assoc]
    · rw [ih _ _ _ hb.2 hk, nil_append]

/-- Without failures, the loop is the one of `retainAndReturnBuffer`. -/
theorem searchBuffer_eq (b : H) (k i : ℕ) (q : List (Option H)) (hk : k ≤ q.length) :
    searchBuffer (fun _ => true) b k i q = removeBuffer b k q := by
  induction k generalizing i q with
  | zero => rfl
  | succ k ih =>
    cases q with
    | nil => exact absurd hk (by simp)
    | cons p q =>
      simp only [searchBuffer_cons, removeBuffer, if_true]
      split_ifs
      · rfl
      · refine ih _ _ ?_
        rw [length_append, length_singleton]
        exact Nat.le_of_succ_le hk

/-- Without failures, the port is as `retainAndReturnBuffer` leaves it. -/
theorem retainAndReturnBufferWith_true (own : H → Bool) (port : Port H) (pRetain : Option H)
    (pReturn : H) :
    (port.retainAndReturnBufferWith (fun _ => true) own pRetain pReturn).port =
      port.retainAndReturnBuffer own pRetain pReturn := by
  unfold retainAndReturnBufferWith retainAndReturnBuffer
  by_cases hsame : pRetain = some pReturn
  · rw [if_pos hsame, if_pos hsame]
    rfl
  · rw [if_neg hsame, if_neg hsame, if_neg (by simp)]
    simp only [searchBuffer_eq _ _ _ _ (Nat.le_refl _)]
    obtain ⟨q, found⟩ :=
      removeBuffer pReturn (port.retainGetAgain pRetain).bufferq.length
        (port.retainGetAgain pRetain).bufferq
    cases found <;> rfl

/-! ## The order -/

/-- After the call for a queue `q`: a buffer of `q` is returned, the retained one comes next, and
the others follow in their order. If `q` has not got the buffer, it stays as it is, and the retained
one is before it, or returned, or still with the caller. -/
def Orderly (port : Port H) (q : List H) (pRetain pReturn : H) (r : Retained H) : Prop :=
  if pReturn ∈ q then
    r.port.returned = pReturn :: port.returned ∧ r.port.popBuffer.popped = some pRetain ∧
      r.port.popBuffer.bufferq = (q.erase pReturn).map some
  else if r.ok then
    (r.port.bufferq = (pRetain :: q).map some ∧ r.port.returned = port.returned) ∨
      (r.port.bufferq = q.map some ∧ r.port.returned = pRetain :: port.returned)
  else r.port.bufferq = q.map some ∧ r.port.returned = port.returned

/-- The first pushes at the tail succeed. -/
def pushes (alloc : ℕ → Bool) (n : ℕ) : Bool := (List.range n).all fun j => alloc (j + 1)

/-- The buffer to return is the last one of the queue, or the only one besides the retained one. -/
def inOrder (alloc : ℕ → Bool) (own : H → Bool) (q : List H) (pRetain pReturn : H) : Bool :=
  if pReturn ∈ q then
    own pReturn &&
      if pRetain = pReturn then q.head? = some pReturn
      else alloc 0 && pushes alloc (q.idxOf pReturn + 1) &&
        (q.getLast? = some pReturn || q = [pReturn, pRetain])
  else pRetain = pReturn || !alloc 0 || pushes alloc (q.length + 1)

variable {alloc : ℕ → Bool} {own : H → Bool} {port : Port H} {q : List H} {pRetain pReturn : H}

section

omit [DecidableEq H]

theorem pushes_iff (n : ℕ) (l : List (Option H)) (hl : l.length = n) :
    pushes alloc n = true ↔ pushed alloc 1 l = l := by
  rw [pushed_eq_self_iff, hl]
  simp [pushes, Nat.add_comm]

theorem popBuffer_eq_iff (port : Port H) (b : H) (l : List (Option H)) :
    port.popBuffer.popped = some b ∧ port.popBuffer.bufferq = l ↔ port.bufferq = some b :: l := by
  cases h : port.bufferq with
  | nil => simp [popBuffer, h]
  | cons p q => simp [popBuffer, h]

theorem returned_returnThisBuffer (port : Port H) (b : H) :
    (port.returnThisBuffer own b).returned = b :: port.returned ↔ own b = true := by
  unfold returnThisBuffer
  split_ifs with h
  · simp [h]
  · simp [h]

@[simp] theorem bufferq_returnThisBuffer (port : Port H) (b : H) :
    (port.returnThisBuffer own b).bufferq = port.bufferq := by
  unfold returnThisBuffer
  split_ifs <;> rfl

end

/-- Two lists that have been exchanged around an element. -/
theorem swapped_iff {before behind : List H} (hnodup : (before ++ behind).Nodup) :
    behind ++ pRetain :: before = pRetain :: (before ++ behind) ↔
      behind = [] ∨ before = [] ∧ behind = [pRetain] := by
  cases behind with
  | nil => simp
  | cons d ds =>
    constructor
    · intro h
      rw [cons_append, List.cons.injEq] at h
      obtain ⟨rfl, h⟩ := h
      rw [nodup_append] at hnodup
      obtain ⟨-, hds, hdisjoint⟩ := hnodup
      have hnotMem : d ∉ ds := (nodup_cons.mp hds).1
      have hnotMem' : d ∉ before := fun hd => hdisjoint d hd d mem_cons_self rfl
      -- the retained buffer has the same place on both sides
      have hlength : ds.length = before.length := by
        have hplace := congrArg (List.idxOf d) h
        rwa [idxOf_append_of_notMem hnotMem, idxOf_append_of_notMem hnotMem',
          idxOf_cons_self, idxOf_cons_self] at hplace
      obtain ⟨rfl, -⟩ := append_inj h hlength
      have hempty : ds = [] := eq_nil_iff_forall_not_mem.mpr fun x hx =>
        hdisjoint x hx x (mem_cons_of_mem _ hx) rfl
      exact .inr ⟨hempty, by rw [hempty]⟩
    · rintro (h | ⟨rfl, h⟩)
      · exact absurd h (cons_ne_nil _ _)
      · rw [h]
        rfl

/-- The call that retains and returns the same buffer. -/
theorem orderly_iff_of_same (hq : port.bufferq = q.map some) :
    Orderly port q pRetain pRetain
        (port.retainAndReturnBufferWith alloc own (some pRetain) pRetain) ↔
      if pRetain ∈ q then own pRetain = true ∧ q.head? = some pRetain else True := by
  rw [retainAndReturnBufferWith, if_pos rfl, Orderly, returning]
  split_ifs with hmem hown
  · rw [popBuffer_eq_iff, bufferq_returnThisBuffer, hq]
    refine and_congr (returned_returnThisBuffer _ _) ?_
    cases q with
    | nil => simp
    | cons p q =>
      by_cases hp : p = pRetain
      · simp [hp]
      · simp [hp]
  · exact iff_of_true (.inr ⟨by simpa using hq, (returned_returnThisBuffer _ _).mpr hown⟩) trivial
  · have hown : ¬ own pRetain = true := hown
    exact iff_of_true ⟨by simpa using hq, by rw [returnThisBuffer, if_neg hown]⟩ trivial

/-- The call for a buffer that is not in the queue. -/
theorem orderly_iff_of_notMem (hq : port.bufferq = q.map some) (hreturn : pReturn ∉ q)
    (hsame : pRetain ≠ pReturn) :
    Orderly port q pRetain pReturn
        (port.retainAndReturnBufferWith alloc own (some pRetain) pReturn) ↔
      alloc 0 = false ∨ pushes alloc (q.length + 1) = true := by
  have hqueue : (port.retainGetAgain (some pRetain)).bufferq = (pRetain :: q).map some := by
    rw [retainGetAgain, hq]
    rfl
  rw [retainAndReturnBufferWith, if_neg (by simpa using hsame), Orderly, if_neg hreturn]
  cases halloc : alloc 0 with
  | false => exact iff_of_true ⟨hq, rfl⟩ (.inl rfl)
  | true =>
    have hnotMem : some pReturn ∉ (pRetain :: q).map some := by
      simpa using ⟨hsame.symm, hreturn⟩
    have hsearch := searchBuffer_of_notMem alloc 1 _ [] hnotMem
    rw [append_nil, nil_append] at hsearch
    simp only [Bool.not_true, Bool.false_eq_true, if_false, hqueue, hsearch, if_true,
      Bool.true_eq_false, false_or]
    rw [pushes_iff _ ((pRetain :: q).map some) (by simp)]
    refine ⟨fun h => ?_, fun h => .inl ⟨h, rfl⟩⟩
    rcases h with h | h
    · exact h.1
    · exact absurd h.2 (ne_cons_self)

/-- The call for another buffer of the queue. -/
theorem orderly_iff_of_mem (hq : port.bufferq = q.map some) (hnodup : q.Nodup)
    (hreturn : pReturn ∈ q) (hsame : pRetain ≠ pReturn) :
    Orderly port q pRetain pReturn
        (port.retainAndReturnBufferWith alloc own (some pRetain) pReturn) ↔
      own pReturn = true ∧ alloc 0 = true ∧ pushes alloc (q.idxOf pReturn + 1) = true ∧
        (q.getLast? = some pReturn ∨ q = [pReturn, pRetain]) := by
  obtain ⟨before, behind, rfl, hbefore⟩ := eq_append_cons_of_mem hreturn
  have hbehind : pReturn ∉ behind :=
    (nodup_cons.mp (nodup_append.mp hnodup).2.1).1
  have hqueue : (port.retainGetAgain (some pRetain)).bufferq =
      (pRetain :: before).map some ++ some pReturn :: behind.map some := by
    simp [retainGetAgain, hq]
  have hplace : (before ++ pReturn :: behind).idxOf pReturn = before.length := by
    rw [idxOf_append_of_notMem hbefore, idxOf_cons_self, Nat.add_zero]
  have herase : (before ++ pReturn :: behind).erase pReturn = before ++ behind := by
    rw [erase_append_right _ hbefore, erase_cons_head]
  have hlast : (before ++ pReturn :: behind).getLast? = some pReturn ↔ behind = [] := by
    cases behind with
    | nil => simp
    | cons d ds =>
      have hne : (d :: ds).getLast (cons_ne_nil _ _) ≠ pReturn := fun h =>
        hbehind (h ▸ getLast_mem _)
      simpa [List.getLast?_eq_some_getLast] using hne
  have honly : before ++ pReturn :: behind = [pReturn, pRetain] ↔
      before = [] ∧ behind = [pRetain] := by
    cases before with
    | nil => simp
    | cons d ds =>
      have hne : d ≠ pReturn := fun h => hbefore (h ▸ mem_cons_self)
      simp [hne]
  have hothers : (before ++ behind).Nodup := herase ▸ hnodup.erase pReturn
  rw [retainAndReturnBufferWith, if_neg (by simpa using hsame), Orderly, if_pos hreturn, hplace,
    herase, hlast, honly, ← swapped_iff hothers]
  cases halloc : alloc 0 with
  | false => simp
  | true =>
    have hnotMem : some pReturn ∉ (pRetain :: before).map some := by
      simpa using ⟨hsame.symm, hbefore⟩
    have hsearch := searchBuffer_of_append alloc 1
      ((pRetain :: before).map some ++ some pReturn :: behind.map some).length _
      (behind.map some) hnotMem (by simp)
    simp only [Bool.not_true, Bool.false_eq_true, if_false, hqueue, hsearch, returning,
      popBuffer_eq_iff, bufferq_returnThisBuffer]
    rw [pushes_iff _ ((pRetain :: before).map some) (by simp)]
    refine and_congr (returned_returnThisBuffer _ _) ?_
    simp only [true_and]
    constructor
    · intro h
      -- a push that failed would leave fewer buffers than there are
      have hpushed : pushed alloc 1 ((pRetain :: before).map some) =
          (pRetain :: before).map some := by
        refine (pushed_sublist _ _ _).eq_of_length ?_
        have hlength := congrArg List.length h
        simp only [length_append, length_map, length_cons] at hlength ⊢
        omega
      rw [hpushed] at h
      exact ⟨hpushed, map_injective_iff.mpr (Option.some_injective H) (by simpa using h)⟩
    · rintro ⟨hpushed, h⟩
      rw [hpushed, ← map_append, h, map_cons]

/-- `RetainAndReturnBuffer` keeps the order of the buffers exactly if the one to return is the last
one, or the only one besides the retained one, and nothing fails. -/
theorem retainAndReturnBuffer_orderly_iff (alloc : ℕ → Bool) (own : H → Bool) (port : Port H)
    (q : List H) (hq : port.bufferq = q.map some) (hnodup : q.Nodup) (pRetain pReturn : H) :
    Orderly port q pRetain pReturn
        (port.retainAndReturnBufferWith alloc own (some pRetain) pReturn) ↔
      inOrder alloc own q pRetain pReturn = true := by
  by_cases hreturn : pReturn ∈ q
  · by_cases hsame : pRetain = pReturn
    · subst hsame
      rw [orderly_iff_of_same hq, if_pos hreturn]
      simp [inOrder, hreturn]
    · rw [orderly_iff_of_mem hq hnodup hreturn hsame]
      simp [inOrder, hreturn, hsame, and_assoc]
  · by_cases hsame : pRetain = pReturn
    · subst hsame
      rw [orderly_iff_of_same hq, if_neg hreturn]
      simp [inOrder, hreturn]
    · rw [orderly_iff_of_notMem hq hreturn hsame]
      simp [inOrder, hreturn, hsame]

/-- A port whose client has handed in three buffers. -/
def filledPort : Port ℕ :=
  ((Port.new true 4).pushThisBuffer 1).pushThisBuffer 2 |>.pushThisBuffer 3

/-- The last buffer is returned, and a fourth one is kept. -/
theorem retainAndReturnBuffer_orderly_last :
    Orderly filledPort [1, 2, 3] 4 3
      (filledPort.retainAndReturnBufferWith (fun _ => true) (fun _ => true) (some 4) 3) :=
  (retainAndReturnBuffer_orderly_iff _ _ filledPort [1, 2, 3] rfl (by decide) 4 3).mpr
    (by decide)

/-- When the first buffer is returned, the retained one goes to the end. -/
theorem retainAndReturnBuffer_not_orderly :
    (filledPort.retainAndReturnBufferWith (fun _ => true) (fun _ => true) (some 4) 1).port.bufferq =
        [some 2, some 3, some 4] ∧
      ¬ Orderly filledPort [1, 2, 3] 4 1
        (filledPort.retainAndReturnBufferWith (fun _ => true) (fun _ => true) (some 4) 1) := by
  refine ⟨rfl, fun h => ?_⟩
  exact absurd h.2.1 (by decide)

end Port

end HardwareIntel.Omx
