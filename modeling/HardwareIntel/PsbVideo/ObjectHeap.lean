import HardwareIntel.Library.IntrusiveQueue
import HardwareIntel.Library.Runs
import Mathlib.Data.Int.Basic
import Mathlib.Tactic.Linarith

/-!
# The object heap of the VA driver

The driver hands out its configs, contexts, surfaces and buffers from object heaps. A heap keeps
its objects in an array; the `next_free` field of an object is a link of the free list, or one of
two marks that no link can be. When the free list is empty, an allocation first grows the array,
and that may fail half-way.

An object is written as the index of its entry in `heap_index`, and the entry is `none` where there
is no object: outside the array, or where the object was released after a failed growth. The
numbers are integers; `Sound` bounds the sizes and ids, so that none of the sums leaves an `int`.
-/

namespace HardwareIntel.PsbVideo

/-! ## The data -/

/-- `LAST_FREE`: the end of the free list. -/
def lastFree : ℤ := -1

/-- `ALLOCATED`. -/
def allocated : ℤ := -2

/-- `SUSPENDED`. -/
def suspended : ℤ := -3

/-- `OBJECT_HEAP_OFFSET_MASK`. -/
def objectHeapOffsetMask : BitVec 32 := 0x7F000000

/-- `OBJECT_HEAP_ID_MASK`. -/
def objectHeapIdMask : BitVec 32 := 0x00FFFFFF

/-- `x & mask` for an `int`. -/
def andMask (x : ℤ) (mask : BitVec 32) : ℤ :=
  (BitVec.ofInt 32 x &&& mask).toInt

/-- `struct object_base_s`. -/
structure ObjectBase where
  id : ℤ
  nextFree : ℤ
deriving DecidableEq

/-- `struct object_heap_s`. -/
structure ObjectHeap where
  objectSize : ℤ
  idOffset : ℤ
  heapIndex : ℤ → Option ObjectBase
  nextFree : ℤ
  heapSize : ℤ
  heapIncrement : ℤ

/-- How the calls of the C library end: whether `realloc` succeeds, and for which entries `calloc`
does. -/
structure Memory where
  realloc : Bool
  calloc : ℤ → Bool

namespace ObjectHeap

/-! ## Growing -/

/-- The variables of the loops in `object_heap_expand`. -/
structure Growth where
  heapIndex : ℤ → Option ObjectBase
  nextFree : ℤ
  mallocError : Bool

section Growing

variable (heap : ObjectHeap) (memory : Memory)

/-- The body of the first loop: the object of entry `i` is made, and linked in front. -/
def growOne (g : Growth) (i : ℤ) : Growth :=
  if memory.calloc i then
    { g with
      heapIndex := Function.update g.heapIndex i (some ⟨i + heap.idOffset, g.nextFree⟩)
      nextFree := i }
  else
    { g with heapIndex := Function.update g.heapIndex i none, mallocError := true }

/-- The first loop, from the entry `k` behind the end of the array downwards. -/
def grow : ℕ → Growth → Growth
  | 0, g => g
  | k + 1, g => grow k (growOne heap memory g (heap.heapSize + k))

/-- The second loop: the new objects are released. -/
def cleanUp : ℕ → (ℤ → Option ObjectBase) → ℤ → Option ObjectBase
  | 0, index => index
  | k + 1, index => cleanUp k (Function.update index (heap.heapSize + k) none)

/-- The end of a growth in which no call failed. -/
def commit (g : Growth) : ObjectHeap :=
  { heap with
    heapIndex := g.heapIndex
    nextFree := g.nextFree
    heapSize := heap.heapSize + heap.heapIncrement }

/-- `object_heap_expand`, with its result. -/
def expand : ObjectHeap × ℤ :=
  if memory.realloc then
    let g := heap.grow memory heap.heapIncrement.toNat ⟨heap.heapIndex, heap.nextFree, false⟩
    if g.mallocError then
      ({ heap with heapIndex := heap.cleanUp heap.heapIncrement.toNat g.heapIndex }, -1)
    else (heap.commit g, 0)
  else (heap, -1)

end Growing

/-- `object_heap_init` before it grows the heap. -/
def empty (objectSize idOffset : ℤ) : ObjectHeap where
  objectSize := objectSize
  idOffset := andMask idOffset objectHeapOffsetMask
  heapIndex := fun _ => none
  nextFree := lastFree
  heapSize := 0
  heapIncrement := 16

/-- `object_heap_init`, with its result. -/
def init (objectSize idOffset : ℤ) (memory : Memory) : ObjectHeap × ℤ :=
  (empty objectSize idOffset).expand memory

/-! ## The operations -/

section Operations

variable (heap : ObjectHeap)

/-- The rest of `object_heap_allocate`: the first object of the free list is taken. There is no
result if the list does not begin with an object. -/
def takeFirst : Option (ObjectHeap × ℤ) :=
  (heap.heapIndex heap.nextFree).map fun obj =>
    ({ heap with
        heapIndex :=
          Function.update heap.heapIndex heap.nextFree (some { obj with nextFree := allocated })
        nextFree := obj.nextFree }, obj.id)

/-- `object_heap_allocate`, with its result. -/
def allocate (memory : Memory) : Option (ObjectHeap × ℤ) :=
  if heap.nextFree = lastFree then
    if (heap.expand memory).2 = -1 then some ((heap.expand memory).1, -1)
    else (heap.expand memory).1.takeFirst
  else heap.takeFirst

/-- The entry of `heap_index` that `object_heap_lookup` reads and returns, if it does not return
NULL before. -/
def lookup (id : ℤ) : Option ℤ :=
  if id < heap.idOffset ∨ heap.heapSize + heap.idOffset < id then none
  else some (andMask id objectHeapIdMask)

/-- The `next_free` field of an object. -/
def mark (i : ℤ) : Option ℤ :=
  (heap.heapIndex i).map ObjectBase.nextFree

/-- The object is allocated and not suspended. -/
def Allocated (i : ℤ) : Prop :=
  heap.mark i = some allocated

/-- The object is allocated, or suspended. -/
def Live (i : ℤ) : Prop :=
  heap.mark i = some allocated ∨ heap.mark i = some suspended

instance (i : ℤ) : Decidable (heap.Allocated i) :=
  inferInstanceAs (Decidable (_ = _))

instance (i : ℤ) : Decidable (heap.Live i) :=
  inferInstanceAs (Decidable (_ ∨ _))

/-- The loop of `object_heap_next` from `i` on, with at most `fuel` entries to go: the object found
and the new value of the iterator. -/
def seek : ℕ → ℤ → Option ℤ × ℤ
  | 0, i => (none, i)
  | fuel + 1, i => if heap.Live i then (some i, i) else seek fuel (i + 1)

/-- `object_heap_next`. -/
def next (iter : ℤ) : Option ℤ × ℤ :=
  heap.seek (heap.heapSize - (iter + 1)).toNat (iter + 1)

/-- `object_heap_first`. -/
def first : Option ℤ × ℤ :=
  heap.next (-1)

/-- `object_heap_free`. The object is `none` for NULL. -/
def free (obj : Option ℤ) : Option ObjectHeap :=
  match obj with
  | none => some heap
  | some i =>
    (heap.heapIndex i).map fun obj =>
      { heap with
        heapIndex := Function.update heap.heapIndex i (some { obj with nextFree := heap.nextFree })
        nextFree := andMask obj.id objectHeapIdMask }

/-- `object_heap_suspend_object`. -/
def suspendObject (i : ℤ) (suspend : Bool) : Option ObjectHeap :=
  (heap.heapIndex i).map fun obj =>
    { heap with
      heapIndex := Function.update heap.heapIndex i
        (some { obj with nextFree := if suspend then suspended else allocated }) }

end Operations

/-- The calls that change a heap. -/
inductive Call
  | allocate (memory : Memory)
  | free (obj : Option ℤ)
  | suspendObject (obj : ℤ) (suspend : Bool)

/-- A call, if it is made for an object that was handed out and not freed since. -/
def step (heap : ObjectHeap) : Call → Option ObjectHeap
  | .allocate memory => (heap.allocate memory).map Prod.fst
  | .free none => heap.free none
  | .free (some i) => if heap.Live i then heap.free (some i) else none
  | .suspendObject i suspend => if heap.Live i then heap.suspendObject i suspend else none

end ObjectHeap

end HardwareIntel.PsbVideo
