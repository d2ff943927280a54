import HardwareIntel.Library.DoublyLinked
import HardwareIntel.Library.Runs
import Mathlib.Data.List.Perm.Subperm

/-!
# The queue of the OMX core

`queue.c` and the parts of `list.c` that it uses (`wrs_omxil_core/utils/src`). The entries are
doubly linked, and the queue has a pointer to the first and to the last. Most operations are there
twice: with data, for which an entry is allocated and freed, and raw, with the entry itself.

A queue answers like a list of data pointers (`queue_refines_list`), as long as no entry is pushed
raw at the tail: `__queue_push_tail` calls the variant of the list function that takes data, which
allocates another entry, with the address of the given one as its data.

An entry is a number, its address; as data a NULL pointer is 0. A loop over the links ends within
as many rounds as there are entries allocated, or never.
-/

namespace HardwareIntel.Omx.Utils

open List Option Function

/-! ## Lists -/

/-- The allocated entries (`struct list`), with their links and their data. -/
structure Heap where
  allocated : List ℕ
  links : Links ℕ
  data : ℕ → ℕ

/-- `list_alloc`; `address` is what `malloc` returns. -/
def Heap.listAlloc (h : Heap) (data : ℕ) : Option ℕ → Option ℕ × Heap
  | none => (none, h)
  | some new =>
    (some new, { allocated := new :: h.allocated
                 links := (h.links.setPrev new none).setNext new none
                 data := Function.update h.data new data })

/-- `__list_free`. -/
def Heap.listFree (h : Heap) (entry : ℕ) : Heap := { h with allocated := h.allocated.erase entry }

/-- `list_free_all`. -/
def listFreeAll : ℕ → Option ℕ → Heap → Option Heap
  | _, none, h => some h
  | 0, some _, _ => none
  | fuel + 1, some entry, h => listFreeAll fuel (h.links.next entry) (h.listFree entry)

/-- `__list_first`. -/
def Heap.listFirst (h : Heap) (list : ℕ) : Option ℕ := follow h.links.prev h.allocated.length list

/-- `__list_last`. -/
def Heap.listLast (h : Heap) (list : ℕ) : Option ℕ := follow h.links.next h.allocated.length list

/-- `__list_add_head`. -/
def rawListAddHead (h : Heap) (list : Option ℕ) (new : ℕ) : Option (ℕ × Heap) :=
  match list with
  | none => some (new, h)
  | some list => (h.listFirst list).map fun first =>
      (new, { h with links := h.links.addBefore first new })

/-- `__list_add_tail`. -/
def rawListAddTail (h : Heap) (list : Option ℕ) (new : ℕ) : Option (ℕ × Heap) :=
  match list with
  | none => some (new, h)
  | some list => (h.listLast list).map fun last =>
      (list, { h with links := h.links.addAfter last new })

/-- `list_add_tail`. -/
def listAddTail (h : Heap) (list : Option ℕ) (data : ℕ) (address : Option ℕ) :
    Option (Option ℕ × Heap) :=
  match h.listAlloc data address with
  | (none, h) => some (none, h)
  | (some new, h) => (rawListAddTail h list new).map fun p => (some p.1, p.2)

/-- `__list_remove`. -/
def rawListRemove (h : Heap) (list : Option ℕ) (entry : ℕ) : Option ℕ × Heap :=
  (if (h.links.prev entry).isSome then list else h.links.next entry,
    { h with links := h.links.remove entry })

/-! ## Queues -/

/-- `struct queue`, with the memory. -/
structure Queue where
  head : Option ℕ
  tail : Option ℕ
  length : Int
  heap : Heap

/-- `__queue_init`. -/
def Queue.init (q : Queue) : Queue := { q with head := none, tail := none, length := 0 }

/-- `queue_free_all`. -/
def queueFreeAll (q : Queue) : Option Queue :=
  (listFreeAll q.heap.allocated.length q.head q.heap).map fun h => { q with heap := h }.init

/-- `__queue_push_head`. -/
def rawQueuePushHead (q : Queue) (entry : ℕ) : Option Queue :=
  (rawListAddHead q.heap q.head entry).map fun p =>
    { head := some p.1
      tail := if q.tail.isNone then some p.1 else q.tail
      length := q.length + 1
      heap := p.2 }

/-- `queue_push_head`. -/
def queuePushHead (q : Queue) (data : ℕ) (address : Option ℕ) : Option (Queue × Bool) :=
  match q.heap.listAlloc data address with
  | (none, h) => some ({ q with heap := h }, false)
  | (some entry, h) => (rawQueuePushHead { q with heap := h } entry).map fun q => (q, true)

/-- The end of the functions that push at the tail: `tail` is what the list function returned. -/
def Queue.moveTail (q : Queue) (tail : ℕ) : Queue :=
  match q.heap.links.next tail with
  | some next => { q with tail := some next, length := q.length + 1 }
  | none => { q with tail := some tail, head := some tail, length := q.length + 1 }

/-- `__queue_push_tail`: the entry is taken for data. -/
def rawQueuePushTail (q : Queue) (entry : ℕ) (address : Option ℕ) : Option Queue :=
  (listAddTail q.heap q.tail entry address).map fun p =>
    match p.1 with
    | none => { q with tail := none, heap := p.2 }
    | some tail => { q with heap := p.2 }.moveTail tail

/-- `queue_push_tail`. -/
def queuePushTail (q : Queue) (data : ℕ) (address : Option ℕ) : Option (Queue × Bool) :=
  match q.heap.listAlloc data address with
  | (none, h) => some ({ q with heap := h }, false)
  | (some entry, h) => (rawListAddTail h q.tail entry).map fun p =>
      ({ q with heap := p.2 }.moveTail p.1, true)

/-- `__queue_pop_head`. -/
def rawQueuePopHead (q : Queue) : Queue × Option ℕ :=
  match q.head with
  | none => (q, none)
  | some entry =>
    let p := rawListRemove q.heap q.head entry
    ({ head := p.1
       tail := if p.1.isNone then none else q.tail
       length := q.length - 1
       heap := p.2 }, some entry)

/-- `__queue_pop_tail`. -/
def rawQueuePopTail (q : Queue) : Queue × Option ℕ :=
  match q.tail with
  | none => (q, none)
  | some entry =>
    let p := rawListRemove q.heap q.head entry
    ({ head := p.1
       tail := q.heap.links.prev entry
       length := q.length - 1
       heap := p.2 }, some entry)

/-- The data of an entry, and NULL without one. -/
def Queue.dataOf (q : Queue) (entry : Option ℕ) : ℕ := entry.elim 0 q.heap.data

/-- The end of `queue_pop_head` and `queue_pop_tail`: the entry is freed. -/
def popData (p : Queue × Option ℕ) : Queue × ℕ :=
  match p.2 with
  | none => (p.1, 0)
  | some entry => ({ p.1 with heap := p.1.heap.listFree entry }, p.1.heap.data entry)

/-- `queue_pop_head`. -/
def queuePopHead (q : Queue) : Queue × ℕ := popData (rawQueuePopHead q)

/-- `queue_pop_tail`. -/
def queuePopTail (q : Queue) : Queue × ℕ := popData (rawQueuePopTail q)

/-! ## Calls -/

/-- The calls; `address` is what `malloc` returns in the call. -/
inductive Call
  | pushHead (data : ℕ) (address : Option ℕ)
  | pushTail (data : ℕ) (address : Option ℕ)
  | rawPushHead (entry : ℕ)
  | rawPushTail (entry : ℕ) (address : Option ℕ)
  | popHead
  | popTail
  | rawPopHead
  | rawPopTail
  | peekHead
  | peekTail
  | rawPeekHead
  | rawPeekTail
  | length
  | freeAll

/-- What a call returns. With an entry comes its data. -/
inductive Answer
  | done
  | status (ok : Bool)
  | data (data : ℕ)
  | entry (entry : Option (ℕ × ℕ))
  | length (length : Int)
  deriving DecidableEq

/-- An entry that is returned. -/
def Queue.entryAnswer (q : Queue) (entry : Option ℕ) : Answer :=
  .entry (entry.map fun e => (e, q.heap.data e))

/-- A call; `none` if it does not return. -/
def Queue.call (q : Queue) : Call → Option (Queue × Answer)
  | .pushHead data address => (queuePushHead q data address).map fun p => (p.1, .status p.2)
  | .pushTail data address => (queuePushTail q data address).map fun p => (p.1, .status p.2)
  | .rawPushHead entry => (rawQueuePushHead q entry).map fun q => (q, .done)
  | .rawPushTail entry address => (rawQueuePushTail q entry address).map fun q => (q, .done)
  | .popHead => some ((queuePopHead q).1, .data (queuePopHead q).2)
  | .popTail => some ((queuePopTail q).1, .data (queuePopTail q).2)
  | .rawPopHead => some ((rawQueuePopHead q).1, q.entryAnswer (rawQueuePopHead q).2)
  | .rawPopTail => some ((rawQueuePopTail q).1, q.entryAnswer (rawQueuePopTail q).2)
  | .peekHead => some (q, .data (q.dataOf q.head))
  | .peekTail => some (q, .data (q.dataOf q.tail))
  | .rawPeekHead => some (q, q.entryAnswer q.head)
  | .rawPeekTail => some (q, q.entryAnswer q.tail)
  | .length => some (q, .length q.length)
  | .freeAll => (queueFreeAll q).map fun q => (q, .done)

/-! ## The list of data pointers -/

/-- A double-ended list of data pointers. The entries that were handed out raw keep theirs. -/
structure Deque where
  items : List ℕ
  held : ℕ → Option ℕ

/-- The answer is one with an entry that has the given data. -/
def Answer.hasData (answer : Answer) (data : Option ℕ) : Bool :=
  match answer with
  | .entry e => e.map Prod.snd == data
  | _ => false

/-- The entry that is handed out with the answer. -/
def Deque.handOut (d : Deque) (answer : Answer) : ℕ → Option ℕ :=
  match answer with
  | .entry (some e) => Function.update d.held e.1 (some e.2)
  | _ => d.held

/-- The list after a call, if the call was answered as it should be. -/
def Deque.after (d : Deque) (call : Call) (answer : Answer) : Option Deque :=
  match call with
  | .pushHead data address =>
    if answer = .status address.isSome then
      some (if address.isSome then { d with items := data :: d.items } else d)
    else none
  | .pushTail data address =>
    if answer = .status address.isSome then
      some (if address.isSome then { d with items := d.items ++ [data] } else d)
    else none
  | .rawPushHead entry =>
    if answer = .done then
      (d.held entry).map fun data => ⟨data :: d.items, Function.update d.held entry none⟩
    else none
  | .rawPushTail entry _ =>
    if answer = .done then
      (d.held entry).map fun data => ⟨d.items ++ [data], Function.update d.held entry none⟩
    else none
  | .popHead =>
    if answer = .data (d.items.head?.getD 0) then some { d with items := d.items.tail } else none
  | .popTail =>
    if answer = .data (d.items.getLast?.getD 0) then some { d with items := d.items.dropLast }
    else none
  | .rawPopHead =>
    if answer.hasData d.items.head? then some ⟨d.items.tail, d.handOut answer⟩ else none
  | .rawPopTail =>
    if answer.hasData d.items.getLast? then some ⟨d.items.dropLast, d.handOut answer⟩ else none
  | .peekHead => if answer = .data (d.items.head?.getD 0) then some d else none
  | .peekTail => if answer = .data (d.items.getLast?.getD 0) then some d else none
  | .rawPeekHead => if answer.hasData d.items.head? then some d else none
  | .rawPeekTail => if answer.hasData d.items.getLast? then some d else none
  | .length => if answer = .length d.items.length then some d else none
  | .freeAll => if answer = .done then some { d with items := [] } else none

/-- A queue and the list that it should be. -/
structure Both where
  queue : Queue
  deque : Deque

/-- A call of both; `none` if the queue does not return, or not what it should. -/
def bothStep (s : Both) (call : Call) : Option Both :=
  (s.queue.call call).bind fun p => (s.deque.after call p.2).map fun d => ⟨p.1, d⟩

/-- What `malloc` and the clients promise: new entries are not allocated yet, and an entry that is
pushed raw was popped raw. -/
def Proper (s : Both) : Call → Prop
  | .pushHead _ address | .pushTail _ address => ∀ new ∈ address, new ∉ s.queue.heap.allocated
  | .rawPushHead entry => (s.deque.held entry).isSome = true
  | .rawPushTail entry address => (s.deque.held entry).isSome = true ∧
      ∀ new ∈ address, new ∉ s.queue.heap.allocated
  | _ => True

instance (s : Both) : (call : Call) → Decidable (Proper s call)
  | .pushHead _ address | .pushTail _ address =>
    inferInstanceAs (Decidable (∀ new ∈ address, new ∉ s.queue.heap.allocated))
  | .rawPushHead entry => inferInstanceAs (Decidable ((s.deque.held entry).isSome = true))
  | .rawPushTail entry address =>
    inferInstanceAs (Decidable ((s.deque.held entry).isSome = true ∧
      ∀ new ∈ address, new ∉ s.queue.heap.allocated))
  | .popHead | .popTail | .rawPopHead | .rawPopTail | .peekHead | .peekTail | .rawPeekHead
  | .rawPeekTail | .length | .freeAll => isTrue trivial

/-- The call is not one of `__queue_push_tail`. -/
def Call.notRawPushTail : Call → Bool
  | .rawPushTail _ _ => false
  | _ => true

/-! ## The entries of a queue -/

/-- The queue consists of the entries of a list, and the entries that were handed out are linked to
none and have their data. -/
structure Holds (q : Queue) (held : ℕ → Option ℕ) (l : List ℕ) : Prop where
  head : q.head = l.head?
  tail : q.tail = l.getLast?
  linked : DoublyLinked q.heap.links none l
  nodup : l.Nodup
  length : q.length = l.length
  allocated : ∀ a ∈ l, a ∈ q.heap.allocated
  out : ∀ e d, held e = some d →
    e ∉ l ∧ e ∈ q.heap.allocated ∧ q.heap.links.Alone e ∧ q.heap.data e = d

section Entries

variable {q : Queue} {held : ℕ → Option ℕ} {l : List ℕ} {a new : ℕ}

/-- One round is enough for a loop that starts at its end. -/
theorem follow_allocated {link : ℕ → Option ℕ} (h : link a = none)
    (hmem : a ∈ q.heap.allocated) : follow link q.heap.allocated.length a = some a := by
  obtain ⟨n, hn⟩ := Nat.exists_eq_add_of_lt (length_pos_of_mem hmem)
  rw [Nat.zero_add] at hn
  rw [hn]
  exact follow_of_none h n

/-- A new entry. -/
theorem Holds.listAlloc (h : Holds q held l) (hnew : new ∉ q.heap.allocated) (data : ℕ) :
    Holds { q with heap := (q.heap.listAlloc data (some new)).2 } held l ∧
      (q.heap.listAlloc data (some new)).2.links.Alone new ∧ held new = none ∧ new ∉ l := by
  have hne : ∀ e ∈ q.heap.allocated, e ≠ new := fun e he heq => hnew (heq ▸ he)
  refine ⟨⟨h.head, h.tail, ?_, h.nodup, h.length, ?_, ?_⟩, ?_, ?_,
    fun hmem => hnew (h.allocated _ hmem)⟩
  · refine h.linked.congr fun b hb => ?_
    have hb' := hne b (h.allocated b hb)
    simp [Heap.listAlloc, hb']
  · exact fun b hb => mem_cons_of_mem _ (h.allocated b hb)
  · intro e d hd
    obtain ⟨hmem, hallocated, halone, hdata⟩ := h.out e d hd
    have he := hne e hallocated
    refine ⟨hmem, mem_cons_of_mem _ hallocated, ?_, ?_⟩
    · simpa [Links.Alone, Heap.listAlloc, he] using halone
    · simpa [Heap.listAlloc, he] using hdata
  · simp [Links.Alone, Heap.listAlloc]
  · cases hd : held new with
    | none => rfl
    | some d => exact absurd (h.out new d hd).2.1 hnew

/-- The new entry is not held any more. -/
theorem of_update_none {e d : ℕ} (hd : Function.update held new none e = some d) :
    e ≠ new ∧ held e = some d := by
  by_cases heq : e = new
  · simp [heq] at hd
  · exact ⟨heq, by simpa [heq] using hd⟩

/-- A free entry is pushed at the head. -/
theorem Holds.rawPushHead (h : Holds q held l) (hmem : new ∉ l) (hnew : new ∈ q.heap.allocated)
    (halone : q.heap.links.Alone new) :
    ∃ t, rawQueuePushHead q new = some t ∧ t.heap.data = q.heap.data ∧
      Holds t (Function.update held new none) (new :: l) := by
  cases l with
  | nil =>
    have hpush : rawQueuePushHead q new =
        some ⟨some new, if q.tail.isNone then some new else q.tail, q.length + 1, q.heap⟩ := by
      rw [rawQueuePushHead, h.head]
      rfl
    refine ⟨_, hpush, rfl, ?_⟩
    constructor
    · rfl
    · simp [h.tail]
    · exact ⟨halone.2, halone.1, trivial⟩
    · exact nodup_singleton _
    · simp [h.length]
    · simpa using hnew
    · intro e d hd
      obtain ⟨hne, hd⟩ := of_update_none hd
      exact ⟨by simpa using hne, (h.out e d hd).2⟩
  | cons a l =>
    have hfirst : q.heap.listFirst a = some a :=
      follow_allocated h.linked.1 (h.allocated a (mem_cons_self ..))
    have hpush : rawQueuePushHead q new =
        some ⟨some new, if q.tail.isNone then some new else q.tail, q.length + 1,
          { q.heap with links := q.heap.links.addBefore a new }⟩ := by
      rw [rawQueuePushHead, h.head, List.head?_cons, rawListAddHead, hfirst]
      rfl
    refine ⟨_, hpush, rfl, ?_⟩
    constructor
    · rfl
    · simp [h.tail, List.getLast?_cons_cons]
    · exact h.linked.addBefore h.nodup hmem
    · exact nodup_cons.mpr ⟨hmem, h.nodup⟩
    · simp [h.length]
    · intro b hb
      rcases mem_cons.mp hb with rfl | hb
      · exact hnew
      · exact h.allocated b hb
    · intro e d hd
      obtain ⟨hne, hd⟩ := of_update_none hd
      obtain ⟨hout', hallocated, halone', hdata⟩ := h.out e d hd
      exact ⟨by simpa [hne] using hout', hallocated,
        h.linked.alone_addBefore halone' hne hout', hdata⟩

/-- A free entry is pushed at the tail. -/
theorem Holds.addTail (h : Holds q held l) (hmem : new ∉ l) (hnew : new ∈ q.heap.allocated)
    (halone : q.heap.links.Alone new) :
    ∃ p, rawListAddTail q.heap q.tail new = some p ∧ p.2.data = q.heap.data ∧
      Holds ({ q with heap := p.2 }.moveTail p.1) (Function.update held new none) (l ++ [new]) := by
  rcases eq_nil_or_concat l with rfl | ⟨l, a, rfl⟩
  · have hadd : rawListAddTail q.heap q.tail new = some (new, q.heap) := by
      rw [h.tail]
      rfl
    refine ⟨_, hadd, rfl, ?_⟩
    unfold Queue.moveTail
    simp only [halone.1]
    constructor
    · rfl
    · rfl
    · exact ⟨halone.2, halone.1, trivial⟩
    · exact nodup_singleton _
    · simp [h.length]
    · simpa using hnew
    · intro e d hd
      obtain ⟨hne, hd⟩ := of_update_none hd
      exact ⟨by simpa using hne, (h.out e d hd).2⟩
  · rw [concat_eq_append] at h hmem ⊢
    have hlast : q.heap.listLast a = some a :=
      follow_allocated h.linked.links_eq.2 (h.allocated a (by simp))
    have htail : q.tail = some a := by simp [h.tail]
    have hadd : rawListAddTail q.heap q.tail new =
        some (a, { q.heap with links := q.heap.links.addAfter a new }) := by
      rw [htail, rawListAddTail, hlast]
      rfl
    refine ⟨_, hadd, rfl, ?_⟩
    unfold Queue.moveTail
    have hnext : (q.heap.links.addAfter a new).next a = some new := by simp [Links.addAfter]
    simp only [hnext]
    constructor
    · rw [h.head]
      cases l <;> rfl
    · simp
    · exact h.linked.addAfter h.nodup hmem
    · exact nodup_append.mpr ⟨h.nodup, nodup_singleton _, fun b hb c hc heq =>
        hmem (by rw [← mem_singleton.mp hc, ← heq]; exact hb)⟩
    · simp only [h.length, length_append, length_singleton]
      omega
    · intro b hb
      rcases mem_append.mp hb with hb | hb
      · exact h.allocated b hb
      · exact mem_singleton.mp hb ▸ hnew
    · intro e d hd
      obtain ⟨hne, hd⟩ := of_update_none hd
      obtain ⟨hout', hallocated, halone', hdata⟩ := h.out e d hd
      refine ⟨?_, hallocated, h.linked.alone_addAfter halone' hne hout', hdata⟩
      rw [mem_append, mem_singleton, not_or]
      exact ⟨hout', hne⟩

/-- An entry is taken out and handed out. -/
theorem Holds.remove {l₁ l₂ : List ℕ} (h : Holds q held (l₁ ++ a :: l₂)) {t : Queue}
    (hhead : t.head = (l₁ ++ l₂).head?) (htail : t.tail = (l₁ ++ l₂).getLast?)
    (hlength : t.length = q.length - 1)
    (hheap : t.heap = { q.heap with links := q.heap.links.remove a }) :
    Holds t (Function.update held a (some (q.heap.data a))) (l₁ ++ l₂) := by
  have hsub : ∀ b ∈ l₁ ++ l₂, b ∈ l₁ ++ a :: l₂ := by
    intro b hb
    rcases mem_append.mp hb with hb | hb
    · exact mem_append_left _ hb
    · exact mem_append_right _ (mem_cons_of_mem _ hb)
  have hnot : a ∉ l₁ ++ l₂ := (nodup_middle.mp h.nodup).notMem
  constructor
  · exact hhead
  · exact htail
  · rw [hheap]
    exact h.linked.remove h.nodup (by simp)
  · exact (nodup_middle.mp h.nodup).of_cons
  · rw [hlength, h.length]
    simp only [length_append, length_cons]
    omega
  · intro b hb
    rw [hheap]
    exact h.allocated b (hsub b hb)
  · intro e d hd
    rw [hheap]
    by_cases heq : e = a
    · subst heq
      rw [update_self, some.injEq] at hd
      exact ⟨hnot, h.allocated e (by simp), Links.alone_remove, hd⟩
    · rw [update_of_ne heq] at hd
      obtain ⟨hmem, hallocated, halone, hdata⟩ := h.out e d hd
      exact ⟨fun hin => hmem (hsub e hin), hallocated, h.linked.alone_remove halone hmem, hdata⟩

/-- The first entry is popped. -/
theorem Holds.rawPopHead (h : Holds q held (a :: l)) :
    (rawQueuePopHead q).2 = some a ∧ (rawQueuePopHead q).1.heap.data = q.heap.data ∧
      Holds (rawQueuePopHead q).1 (Function.update held a (some (q.heap.data a))) l := by
  have hpop : rawQueuePopHead q =
      ({ head := l.head?
         tail := if l.head?.isNone then none else q.tail
         length := q.length - 1
         heap := { q.heap with links := q.heap.links.remove a } }, some a) := by
    rw [rawQueuePopHead, h.head, List.head?_cons]
    dsimp only [rawListRemove]
    rw [h.linked.1, h.linked.2.1]
    rfl
  rw [hpop]
  refine ⟨rfl, rfl, @Holds.remove _ _ _ [] l h _ rfl ?_ rfl rfl⟩
  cases l with
  | nil => rfl
  | cons b l => simp [h.tail, List.getLast?_cons_cons]

/-- The last entry is popped. -/
theorem Holds.rawPopTail (h : Holds q held (l ++ [a])) :
    (rawQueuePopTail q).2 = some a ∧ (rawQueuePopTail q).1.heap.data = q.heap.data ∧
      Holds (rawQueuePopTail q).1 (Function.update held a (some (q.heap.data a))) l := by
  obtain ⟨hprev, hnext⟩ := h.linked.links_eq
  rw [or_none] at hprev
  have htail : q.tail = some a := by simp [h.tail]
  have hpop : rawQueuePopTail q =
      ({ head := if l.getLast?.isSome then q.head else none
         tail := l.getLast?
         length := q.length - 1
         heap := { q.heap with links := q.heap.links.remove a } }, some a) := by
    rw [rawQueuePopTail, htail]
    dsimp only [rawListRemove]
    rw [hprev, hnext]
    rfl
  rw [hpop]
  have hremoved := @Holds.remove q held a l [] h
    { head := if l.getLast?.isSome then q.head else none
      tail := l.getLast?
      length := q.length - 1
      heap := { q.heap with links := q.heap.links.remove a } }
  rw [append_nil] at hremoved
  refine ⟨rfl, rfl, hremoved ?_ rfl rfl rfl⟩
  cases l with
  | nil => rfl
  | cons b l => simp [h.head, List.getLast?_cons]

/-- An entry that was handed out is freed. -/
theorem Holds.free {x : Option ℕ} (h : Holds q (Function.update held a x) l) (hmem : a ∉ l)
    (hheld : held a = none) : Holds { q with heap := q.heap.listFree a } held l := by
  have hfreed : ∀ b ∈ q.heap.allocated, b ≠ a → b ∈ (q.heap.listFree a).allocated :=
    fun b hb hne => (mem_erase_of_ne hne).mpr hb
  refine { h with allocated := ?_, out := ?_ }
  · exact fun b hb => hfreed b (h.allocated b hb) fun heq => hmem (heq ▸ hb)
  · intro e d hd
    have hne : e ≠ a := by
      rintro rfl
      exact absurd hd (by simp [hheld])
    obtain ⟨hout, hallocated, halone, hdata⟩ := h.out e d (by rwa [update_of_ne hne])
    exact ⟨hout, hfreed e hallocated hne, halone, hdata⟩

/-- The entries of a queue have not been handed out. -/
theorem Holds.held_eq_none (h : Holds q held l) (hmem : a ∈ l) : held a = none := by
  cases hd : held a with
  | none => rfl
  | some d => exact absurd hmem (h.out a d hd).1

/-- All entries of the list are freed. -/
theorem listFreeAll_of_linked {before : Option ℕ} {h : Heap}
    (hlinked : DoublyLinked h.links before l) {fuel : ℕ} (hfuel : l.length ≤ fuel) :
    ∃ freed, listFreeAll fuel l.head? h = some { h with allocated := freed } ∧
      ∀ e ∈ h.allocated, e ∉ l → e ∈ freed := by
  induction l generalizing before h fuel with
  | nil => exact ⟨h.allocated, by cases fuel <;> rfl, fun e he _ => he⟩
  | cons a l ih =>
    obtain ⟨-, hnext, hrest⟩ := hlinked
    cases fuel with
    | zero => simp at hfuel
    | succ fuel =>
      obtain ⟨freed, hfreed, hkept⟩ := @ih _ (h.listFree a) hrest fuel (by simpa using hfuel)
      refine ⟨freed, ?_, fun e he hmem => ?_⟩
      · rw [List.head?_cons, listFreeAll, hnext, hfreed]
        rfl
      · rw [mem_cons, not_or] at hmem
        exact hkept e ((mem_erase_of_ne hmem.1).mpr he) hmem.2

theorem Holds.freeAll (h : Holds q held l) :
    ∃ t, queueFreeAll q = some t ∧ t.heap.data = q.heap.data ∧ Holds t held [] := by
  have hfuel : l.length ≤ q.heap.allocated.length :=
    (subperm_of_subset h.nodup h.allocated).length_le
  obtain ⟨freed, hfreed, hkept⟩ := listFreeAll_of_linked h.linked hfuel
  refine ⟨⟨none, none, 0, { q.heap with allocated := freed }⟩, ?_, rfl, ?_⟩
  · rw [queueFreeAll, h.head, hfreed]
    rfl
  · refine ⟨rfl, rfl, trivial, nodup_nil, rfl, by simp, fun e d hd => ?_⟩
    obtain ⟨hmem, hallocated, halone, hdata⟩ := h.out e d hd
    exact ⟨not_mem_nil, hkept e hallocated hmem, halone, hdata⟩

end Entries

/-! ## Every run -/

/-- The queue is the list: its entries have the data pointers of the list, in this order. -/
def Refines (s : Both) : Prop :=
  ∃ l, Holds s.queue s.deque.held l ∧ l.map s.queue.heap.data = s.deque.items

section Runs

variable {s t : Both} {call : Call}

variable {held : ℕ → Option ℕ} {entry : Option ℕ} {q : Queue}

/-- A call that the queue answers as the list would. -/
theorem bothStep_eq {answer : Answer} {d : Deque} (hcall : s.queue.call call = some (q, answer))
    (hafter : s.deque.after call answer = some d) : bothStep s call = some ⟨q, d⟩ := by
  rw [bothStep, hcall, bind_some, hafter]
  rfl

theorem map_data_update {h : Heap} {new data : ℕ} {l : List ℕ} (hmem : new ∉ l) :
    l.map (Function.update h.data new data) = l.map h.data := by
  refine map_congr_left fun b hb => update_of_ne ?_ _ _
  rintro rfl
  exact hmem hb

theorem queuePushHead_some (q : Queue) (data new : ℕ) :
    queuePushHead q data (some new) =
      (rawQueuePushHead { q with heap := (q.heap.listAlloc data (some new)).2 } new).map
        fun q => (q, true) := rfl

theorem queuePushTail_some (q : Queue) (data new : ℕ) :
    queuePushTail q data (some new) =
      (rawListAddTail (q.heap.listAlloc data (some new)).2 q.tail new).map
        fun p => ({ q with heap := p.2 }.moveTail p.1, true) := rfl

theorem step_pushHead {data : ℕ} {address : Option ℕ} (h : Refines s)
    (hproper : Proper s (.pushHead data address)) :
    ∃ t, bothStep s (.pushHead data address) = some t ∧ Refines t := by
  obtain ⟨l, hl, hitems⟩ := h
  cases address with
  | none => exact ⟨_, bothStep_eq rfl rfl, l, hl, hitems⟩
  | some new =>
    have hnew := hproper new rfl
    obtain ⟨hl', halone, hheld, hmem⟩ := hl.listAlloc hnew data
    obtain ⟨q, hpush, hdata, hq⟩ := hl'.rawPushHead hmem (mem_cons_self ..) halone
    have hcall : s.queue.call (.pushHead data (some new)) = some (q, .status true) := by
      rw [Queue.call, queuePushHead_some, hpush]
      rfl
    refine ⟨_, bothStep_eq hcall rfl, new :: l, ?_, ?_⟩
    · rwa [update_eq_self_iff.mpr hheld.symm] at hq
    · change (new :: l).map q.heap.data = data :: s.deque.items
      rw [hdata, map_cons, ← hitems]
      exact congrArg₂ List.cons (update_self ..) (map_data_update hmem)

theorem step_pushTail {data : ℕ} {address : Option ℕ} (h : Refines s)
    (hproper : Proper s (.pushTail data address)) :
    ∃ t, bothStep s (.pushTail data address) = some t ∧ Refines t := by
  obtain ⟨l, hl, hitems⟩ := h
  cases address with
  | none => exact ⟨_, bothStep_eq rfl rfl, l, hl, hitems⟩
  | some new =>
    have hnew := hproper new rfl
    obtain ⟨hl', halone, hheld, hmem⟩ := hl.listAlloc hnew data
    obtain ⟨p, hpush, hdata, hq⟩ := hl'.addTail hmem (mem_cons_self ..) halone
    have hcall : s.queue.call (.pushTail data (some new)) =
        some ({ s.queue with heap := p.2 }.moveTail p.1, .status true) := by
      rw [Queue.call, queuePushTail_some, hpush]
      rfl
    refine ⟨_, bothStep_eq hcall rfl, l ++ [new], ?_, ?_⟩
    · rwa [update_eq_self_iff.mpr hheld.symm] at hq
    · have hmoved : ({ s.queue with heap := p.2 }.moveTail p.1).heap.data = p.2.data := by
        unfold Queue.moveTail
        split <;> rfl
      change (l ++ [new]).map ({ s.queue with heap := p.2 }.moveTail p.1).heap.data =
        s.deque.items ++ [data]
      rw [hmoved, hdata, map_append, ← hitems]
      exact congrArg₂ List.append (map_data_update hmem)
        (congrArg (fun x => [x]) (update_self ..))

theorem step_rawPushHead {entry : ℕ} (h : Refines s) (hproper : Proper s (.rawPushHead entry)) :
    ∃ t, bothStep s (.rawPushHead entry) = some t ∧ Refines t := by
  obtain ⟨l, hl, hitems⟩ := h
  obtain ⟨d, hd⟩ := isSome_iff_exists.mp hproper
  obtain ⟨hmem, hallocated, halone, hdata⟩ := hl.out entry d hd
  obtain ⟨q, hpush, hkept, hq⟩ := hl.rawPushHead hmem hallocated halone
  have hcall : s.queue.call (.rawPushHead entry) = some (q, .done) := by
    rw [Queue.call, hpush]
    rfl
  have hafter : s.deque.after (.rawPushHead entry) .done =
      some ⟨d :: s.deque.items, Function.update s.deque.held entry none⟩ := by
    rw [Deque.after, if_pos rfl, hd]
    rfl
  refine ⟨_, bothStep_eq hcall hafter, entry :: l, hq, ?_⟩
  change (entry :: l).map q.heap.data = d :: s.deque.items
  rw [hkept, map_cons, hdata, hitems]

/-- The outcome of a raw pop: `entry`, if there is one, is handed out, and `rest` remains. -/
structure Popped (q : Queue) (held : ℕ → Option ℕ) (p : Queue × Option ℕ) (entry : Option ℕ)
    (rest : List ℕ) : Prop where
  popped : p.2 = entry
  data : p.1.heap.data = q.heap.data
  holds : Holds p.1 (entry.elim held fun a => Function.update held a (some (q.heap.data a))) rest
  gone : ∀ a ∈ entry, a ∉ rest ∧ held a = none

theorem popped_rawQueuePopHead {l : List ℕ} (h : Holds q held l) :
    Popped q held (rawQueuePopHead q) l.head? l.tail := by
  cases l with
  | nil =>
    have hpop : rawQueuePopHead q = (q, none) := by
      rw [rawQueuePopHead, h.head]
      rfl
    rw [hpop]
    exact ⟨rfl, rfl, h, by simp⟩
  | cons a l =>
    obtain ⟨hentry, hdata, hq⟩ := h.rawPopHead
    refine ⟨hentry, hdata, hq, fun b hb => ?_⟩
    obtain rfl : a = b := some.inj hb
    exact ⟨(nodup_cons.mp h.nodup).1, h.held_eq_none (mem_cons_self ..)⟩

theorem popped_rawQueuePopTail {l : List ℕ} (h : Holds q held l) :
    Popped q held (rawQueuePopTail q) l.getLast? l.dropLast := by
  rcases eq_nil_or_concat l with rfl | ⟨l, a, rfl⟩
  · have hpop : rawQueuePopTail q = (q, none) := by
      rw [rawQueuePopTail, h.tail]
      rfl
    rw [hpop]
    exact ⟨rfl, rfl, h, by simp⟩
  · rw [concat_eq_append] at h ⊢
    rw [List.getLast?_concat, dropLast_concat]
    obtain ⟨hentry, hdata, hq⟩ := h.rawPopTail
    refine ⟨hentry, hdata, hq, fun b hb => ?_⟩
    obtain rfl : a = b := some.inj hb
    refine ⟨fun hmem => ?_, h.held_eq_none (by simp)⟩
    have hnodup := h.nodup
    rw [nodup_append] at hnodup
    exact hnodup.2.2 a hmem a (mem_singleton_self a) rfl

/-- A popped entry gives its data and is freed. -/
theorem Popped.popData {p : Queue × Option ℕ} {rest : List ℕ} (h : Popped q held p entry rest) :
    (popData p).2 = (entry.map q.heap.data).getD 0 ∧ (popData p).1.heap.data = q.heap.data ∧
      Holds (popData p).1 held rest := by
  obtain ⟨t, x⟩ := p
  obtain rfl : x = entry := h.popped
  cases x with
  | none => exact ⟨rfl, h.data, h.holds⟩
  | some a =>
    obtain ⟨hmem, hheld⟩ := h.gone a rfl
    exact ⟨congrFun h.data a, h.data, h.holds.free hmem hheld⟩

/-- The answer with a popped entry. -/
theorem Popped.entryAnswer {p : Queue × Option ℕ} {rest : List ℕ} (h : Popped q held p entry rest) :
    q.entryAnswer p.2 = .entry (entry.map fun e => (e, q.heap.data e)) := by
  rw [Queue.entryAnswer, h.popped]

theorem hasData_entry {f : ℕ → ℕ} {data : Option ℕ} (h : entry.map f = data) :
    (Answer.entry (entry.map fun e => (e, f e))).hasData data = true := by
  subst h
  cases entry <;> simp [Answer.hasData]

theorem handOut_entry {f : ℕ → ℕ} {d : Deque} :
    d.handOut (.entry (entry.map fun e => (e, f e))) =
      entry.elim d.held fun a => Function.update d.held a (some (f a)) := by
  cases entry <;> rfl

/-- The calls that take an entry out, or look at one. -/
theorem step_out (h : Refines s)
    (hcall : call = .popHead ∨ call = .popTail ∨ call = .rawPopHead ∨ call = .rawPopTail ∨
      call = .peekHead ∨ call = .peekTail ∨ call = .rawPeekHead ∨ call = .rawPeekTail) :
    ∃ t, bothStep s call = some t ∧ Refines t := by
  obtain ⟨l, hl, hitems⟩ := h
  have hhead : l.head?.map s.queue.heap.data = s.deque.items.head? := by
    rw [← hitems, List.head?_map]
  have hlast : l.getLast?.map s.queue.heap.data = s.deque.items.getLast? := by
    rw [← hitems, List.getLast?_map]
  have htail : l.tail.map s.queue.heap.data = s.deque.items.tail := by
    rw [← hitems, map_tail]
  have hinit : l.dropLast.map s.queue.heap.data = s.deque.items.dropLast := by
    rw [← hitems, map_dropLast]
  have hpopHead := popped_rawQueuePopHead hl
  have hpopTail := popped_rawQueuePopTail hl
  have hdataOf : ∀ x : Option ℕ, s.queue.dataOf x = (x.map s.queue.heap.data).getD 0 := by
    intro x
    cases x <;> rfl
  rcases hcall with rfl | rfl | rfl | rfl | rfl | rfl | rfl | rfl
  · obtain ⟨hdata, hkept, hq⟩ := hpopHead.popData
    rw [hhead] at hdata
    refine ⟨_, bothStep_eq rfl (if_pos (congrArg Answer.data hdata)), l.tail, hq, ?_⟩
    exact (congrArg (fun f => l.tail.map f) hkept).trans htail
  · obtain ⟨hdata, hkept, hq⟩ := hpopTail.popData
    rw [hlast] at hdata
    refine ⟨_, bothStep_eq rfl (if_pos (congrArg Answer.data hdata)), l.dropLast, hq, ?_⟩
    exact (congrArg (fun f => l.dropLast.map f) hkept).trans hinit
  · have hcall : s.queue.call .rawPopHead = some ((rawQueuePopHead s.queue).1,
        .entry (l.head?.map fun e => (e, s.queue.heap.data e))) := by
      rw [Queue.call, hpopHead.entryAnswer]
    refine ⟨_, bothStep_eq hcall (if_pos (hasData_entry hhead)), l.tail, ?_, ?_⟩
    · rw [handOut_entry]
      exact hpopHead.holds
    · exact (congrArg (fun f => l.tail.map f) hpopHead.data).trans htail
  · have hcall : s.queue.call .rawPopTail = some ((rawQueuePopTail s.queue).1,
        .entry (l.getLast?.map fun e => (e, s.queue.heap.data e))) := by
      rw [Queue.call, hpopTail.entryAnswer]
    refine ⟨_, bothStep_eq hcall (if_pos (hasData_entry hlast)), l.dropLast, ?_, ?_⟩
    · rw [handOut_entry]
      exact hpopTail.holds
    · exact (congrArg (fun f => l.dropLast.map f) hpopTail.data).trans hinit
  · have hdata : s.queue.dataOf s.queue.head = s.deque.items.head?.getD 0 := by
      rw [hl.head, hdataOf, hhead]
    exact ⟨_, bothStep_eq rfl (if_pos (congrArg Answer.data hdata)), l, hl, hitems⟩
  · have hdata : s.queue.dataOf s.queue.tail = s.deque.items.getLast?.getD 0 := by
      rw [hl.tail, hdataOf, hlast]
    exact ⟨_, bothStep_eq rfl (if_pos (congrArg Answer.data hdata)), l, hl, hitems⟩
  · have hanswer : (s.queue.entryAnswer s.queue.head).hasData s.deque.items.head? = true := by
      rw [hl.head]
      exact hasData_entry hhead
    exact ⟨_, bothStep_eq rfl (if_pos hanswer), l, hl, hitems⟩
  · have hanswer : (s.queue.entryAnswer s.queue.tail).hasData s.deque.items.getLast? = true := by
      rw [hl.tail]
      exact hasData_entry hlast
    exact ⟨_, bothStep_eq rfl (if_pos hanswer), l, hl, hitems⟩

theorem step_length (h : Refines s) : ∃ t, bothStep s .length = some t ∧ Refines t := by
  obtain ⟨l, hl, hitems⟩ := h
  have hlength : s.queue.length = s.deque.items.length := by
    rw [hl.length, ← hitems, length_map]
  exact ⟨_, bothStep_eq rfl (if_pos (congrArg Answer.length hlength)), l, hl, hitems⟩

theorem step_freeAll (h : Refines s) : ∃ t, bothStep s .freeAll = some t ∧ Refines t := by
  obtain ⟨l, hl, -⟩ := h
  obtain ⟨q, hfree, -, hq⟩ := hl.freeAll
  have hcall : s.queue.call .freeAll = some (q, .done) := by
    rw [Queue.call, hfree]
    rfl
  exact ⟨_, bothStep_eq hcall rfl, [], hq, rfl⟩

/-- Every call but `__queue_push_tail` returns what the list returns, and keeps the queue a list. -/
theorem Refines.step (h : Refines s) (hproper : Proper s call)
    (hcall : call.notRawPushTail = true) : ∃ t, bothStep s call = some t ∧ Refines t := by
  cases call with
  | pushHead data address => exact step_pushHead h hproper
  | pushTail data address => exact step_pushTail h hproper
  | rawPushHead entry => exact step_rawPushHead h hproper
  | rawPushTail entry address => exact absurd hcall (by simp [Call.notRawPushTail])
  | length => exact step_length h
  | freeAll => exact step_freeAll h
  | _ => exact step_out h (by simp)

/-- A queue without entries, in any memory. -/
def emptyBoth (heap : Heap) : Both := ⟨⟨none, none, 0, heap⟩, ⟨[], fun _ => none⟩⟩

theorem refines_emptyBoth (heap : Heap) : Refines (emptyBoth heap) :=
  ⟨[], ⟨rfl, rfl, trivial, nodup_nil, rfl, by simp, by simp [emptyBoth]⟩, rfl⟩

/-- From an empty queue on, in every run of calls without `__queue_push_tail`, the queue has
answered like a list of data pointers, its pointers, links and length are those of one list with
these data, and the next such call returns what the list returns. -/
theorem queue_refines_list {heap : Heap}
    (hrun : Reach bothStep (fun s call => Proper s call ∧ call.notRawPushTail = true)
      (emptyBoth heap) s) :
    Refines s ∧ ∀ call, Proper s call → call.notRawPushTail = true →
      (bothStep s call).isSome = true := by
  have hrefines : Refines s := by
    refine hrun.invariant (refines_emptyBoth heap) fun a call b ha hcall hb => ?_
    obtain ⟨t, ht, hrefines⟩ := ha.step hcall.1 hcall.2
    rw [hb, some.injEq] at ht
    exact ht ▸ hrefines
  refine ⟨hrefines, fun call hproper hcall => ?_⟩
  obtain ⟨t, ht, -⟩ := hrefines.step hproper hcall
  rw [ht]
  rfl

end Runs

/-- A memory without entries. -/
def emptyHeap : Heap := ⟨[], ⟨fun _ => none, fun _ => none⟩, fun _ => 0⟩

/-- Two data pointers are pushed; the entry of the first is popped and pushed at the head again. -/
theorem queue_refines_list_raw :
    ∃ s, Reach bothStep (fun s call => Proper s call ∧ call.notRawPushTail = true)
        (emptyBoth emptyHeap) s ∧
      s.deque.items = [5, 6] ∧ s.queue.head = some 100 ∧
      (bothStep s .popTail).isSome = true :=
  Reach.exists_of_decide (fun s hrun (h : s.deque.items = [5, 6] ∧ s.queue.head = some 100) =>
      ⟨h.1, h.2, (queue_refines_list hrun).2 .popTail trivial rfl⟩)
    [.pushHead 5 (some 100), .pushTail 6 (some 200), .rawPopHead, .rawPushHead 100] (by decide)

/-- An entry with the data 5 is popped and pushed at the tail again: then the queue gives the
address of the entry in place of its data. -/
theorem queue_not_list :
    ∃ s, Reach bothStep Proper (emptyBoth emptyHeap) s ∧ s.deque.items = [5] ∧
      (s.queue.call .popHead).map Prod.snd = some (.data 100) ∧ bothStep s .popHead = none :=
  Reach.exists_of_decide (fun s _ (h : s.deque.items = [5] ∧
      (s.queue.call .popHead).map Prod.snd = some (.data 100) ∧
      (bothStep s .popHead).isNone = true) => ⟨h.1, h.2.1, isNone_iff_eq_none.mp h.2.2⟩)
    [.pushTail 5 (some 100), .rawPopHead, .rawPushTail 100 (some 200)] (by decide)

end HardwareIntel.Omx.Utils
