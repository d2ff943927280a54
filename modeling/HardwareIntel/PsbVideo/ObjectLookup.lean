import HardwareIntel.PsbVideo.HeapInvariant

/-!
# Handing out, enumerating and looking up objects

The results over runs of the object heap. The free list and the enumeration are right in every
state that a run reaches. The lookup is not: it takes the id one past the last one, and it returns
objects that were freed or suspended, since the test of their mark is compiled out. It is right
exactly for the ids outside its range and for those of allocated objects.
-/

namespace HardwareIntel.PsbVideo.ObjectHeap

/-- The objects that a loop over `object_heap_first` and `object_heap_next` visits after a call has
returned `found`, if they are not more than `fuel`. -/
def visits (heap : ObjectHeap) : ℕ → Option ℤ × ℤ → List ℤ
  | 0, _ => []
  | _ + 1, (none, _) => []
  | fuel + 1, (some i, iter) => i :: heap.visits fuel (heap.next iter)

/-- An allocated object has the id. -/
def HasAllocated (heap : ObjectHeap) (id : ℤ) : Prop :=
  ∃ i obj, heap.heapIndex i = some obj ∧ obj.id = id ∧ heap.Allocated i

/-- A lookup gives the allocated object with the id, or NULL if there is none, and reads no entry
outside the array. -/
def LookupRight (heap : ObjectHeap) (id : ℤ) : Prop :=
  match heap.lookup id with
  | none => ¬ heap.HasAllocated id
  | some i => heap.Indexed i ∧
      ∃ obj, heap.heapIndex i = some obj ∧ obj.id = id ∧ heap.Allocated i

/-- A heap whose free list, ids, allocations and enumeration are right, and whose lookups are right
for the ids outside the range it accepts and those of allocated objects, and for no others. -/
structure Correct (heap : ObjectHeap) : Prop where
  freeList : ∃ l, heap.FreeList l ∧ l.Nodup ∧ ∀ i, i ∈ l ↔ heap.Indexed i ∧ ¬ heap.Live i
  distinct : ∀ i j a b, heap.heapIndex i = some a → heap.heapIndex j = some b → a.id = b.id → i = j
  allocate : heap.Fits → ∀ memory, ∃ heap' id, heap.allocate memory = some (heap', id) ∧
    (id = -1 ∧ heap' = heap ∨ id ≠ -1 ∧ heap'.HasAllocated id ∧
        ∀ i obj, heap.heapIndex i = some obj → heap.Live i → obj.id ≠ id)
  enumerate : ∀ fuel : ℕ, heap.heapSize < fuel →
    (heap.visits fuel heap.first).Nodup ∧ ∀ i, i ∈ heap.visits fuel heap.first ↔ heap.Live i
  lookup : ∀ id, heap.LookupRight id ↔
    (id < heap.idOffset ∨ heap.heapSize + heap.idOffset < id) ∨ heap.HasAllocated id

section Heap

variable {heap : ObjectHeap} {id : ℤ}

/-! ## Enumeration -/

/-- The loop stops at the first object in use, or runs through. -/
theorem seek_cases (heap : ObjectHeap) (fuel : ℕ) (i : ℤ) :
    (heap.seek fuel i = (none, i + fuel) ∧ ∀ j, i ≤ j → j < i + fuel → ¬ heap.Live j) ∨
      ∃ j, heap.seek fuel i = (some j, j) ∧ i ≤ j ∧ j < i + fuel ∧ heap.Live j ∧
        ∀ k, i ≤ k → k < j → ¬ heap.Live k := by
  induction fuel generalizing i with
  | zero => exact Or.inl ⟨by simp [seek], fun j h₁ h₂ => by omega⟩
  | succ fuel ih =>
    rw [seek]
    by_cases hlive : heap.Live i
    · rw [if_pos hlive]
      exact Or.inr ⟨i, rfl, le_refl _, by omega, hlive, fun k h₁ h₂ => by omega⟩
    · rw [if_neg hlive]
      have hskip : ∀ k, i ≤ k → ¬ i + 1 ≤ k → ¬ heap.Live k := by
        intro k hle hlt
        rwa [show k = i by omega]
      rcases ih (i + 1) with ⟨heq, hnone⟩ | ⟨j, heq, hle, hlt, hj, hnone⟩
      · refine Or.inl ⟨by rw [heq]; congr 1; omega, fun j h₁ h₂ => ?_⟩
        by_cases hij : i + 1 ≤ j
        · exact hnone j hij (by omega)
        · exact hskip j h₁ hij
      · refine Or.inr ⟨j, heq, by omega, by omega, hj, fun k h₁ h₂ => ?_⟩
        by_cases hik : i + 1 ≤ k
        · exact hnone k hik h₂
        · exact hskip k h₁ hik

/-- From an iterator on, the objects in use behind it are visited in the order of the array. -/
theorem visits_next (hs : heap.Sound) {fuel : ℕ} {iter : ℤ} (hiter : -1 ≤ iter)
    (hfuel : heap.heapSize - (iter + 1) < fuel) :
    (heap.visits fuel (heap.next iter)).Nodup ∧
      ∀ j, j ∈ heap.visits fuel (heap.next iter) ↔ iter < j ∧ heap.Live j := by
  induction fuel generalizing iter with
  | zero =>
    refine ⟨List.nodup_nil, fun j => ⟨fun h => by simp [visits] at h, fun ⟨hlt, hlive⟩ => ?_⟩⟩
    have := (hs.indexed_of_live hlive).2
    omega
  | succ fuel ih =>
    rw [next]
    rcases seek_cases heap (heap.heapSize - (iter + 1)).toNat (iter + 1) with
      ⟨heq, hnone⟩ | ⟨i, heq, hle, hlt, hi, hnone⟩
    · rw [heq, visits]
      refine ⟨List.nodup_nil, fun j => ⟨fun h => by simp at h, fun ⟨hlt, hlive⟩ => ?_⟩⟩
      have hj := (hs.indexed_of_live hlive).2
      exact absurd hlive (hnone j (by omega) (by omega))
    · rw [heq, visits]
      obtain ⟨hnodup, hmem⟩ := @ih i (by omega) (by omega)
      refine ⟨List.nodup_cons.mpr ⟨fun h => ?_, hnodup⟩, fun j => ?_⟩
      · exact lt_irrefl _ ((hmem i).mp h).1
      · rw [List.mem_cons, hmem]
        constructor
        · rintro (rfl | ⟨hij, hlive⟩)
          · exact ⟨by omega, hi⟩
          · exact ⟨by omega, hlive⟩
        · rintro ⟨hiter', hlive⟩
          rcases lt_trichotomy j i with hji | hji | hji
          · exact absurd hlive (hnone j (by omega) hji)
          · exact Or.inl hji
          · exact Or.inr ⟨hji, hlive⟩

/-! ## Lookup -/

theorem hasAllocated_iff (hs : heap.Sound) :
    heap.HasAllocated id ↔ heap.Allocated (id - heap.idOffset) := by
  constructor
  · rintro ⟨i, obj, hentry, rfl, halloc⟩
    rwa [hs.id_eq hentry, Int.add_sub_cancel]
  · intro halloc
    obtain ⟨v, hentry⟩ := hs.entry _ (hs.indexed_of_live (Or.inl halloc))
    exact ⟨_, _, hentry, Int.sub_add_cancel .., halloc⟩

theorem lookupRight_iff (hs : heap.Sound) (id : ℤ) :
    heap.LookupRight id ↔
      (id < heap.idOffset ∨ heap.heapSize + heap.idOffset < id) ∨ heap.HasAllocated id := by
  rw [LookupRight, lookup]
  by_cases hrange : id < heap.idOffset ∨ heap.heapSize + heap.idOffset < id
  · rw [if_pos hrange]
    refine ⟨fun _ => Or.inl hrange, fun _ hhas => ?_⟩
    have hin := hs.indexed_of_live (Or.inl ((hasAllocated_iff hs).mp hhas))
    obtain ⟨h₁, h₂⟩ := hin
    omega
  · rw [if_neg hrange]
    constructor
    · rintro ⟨-, obj, hentry, hid, halloc⟩
      exact Or.inr ⟨_, obj, hentry, hid, halloc⟩
    · rintro (hout | hhas)
      · exact absurd hout hrange
      · have halloc := (hasAllocated_iff hs).mp hhas
        have hin := hs.indexed_of_live (Or.inl halloc)
        have hindex := hs.andMask_id_eq hin
        rw [Int.sub_add_cancel] at hindex
        obtain ⟨v, hentry⟩ := hs.entry _ hin
        rw [hindex]
        exact ⟨hin, _, hentry, Int.sub_add_cancel .., halloc⟩

/-! ## Runs -/

theorem Sound.correct (hs : heap.Sound) : heap.Correct where
  freeList := by
    obtain ⟨l, hpath, hmem⟩ := hs.free
    exact ⟨l, hpath, hpath.nodup, hmem⟩
  distinct := by
    intro i j a b ha hb heq
    rw [hs.id_eq ha, hs.id_eq hb] at heq
    omega
  allocate := by
    intro hfits memory
    obtain ⟨heap', id, heq, hs', hid⟩ := allocate_sound hs hfits memory
    refine ⟨heap', id, heq, hid.imp_right ?_⟩
    rintro ⟨i, rfl, hoffset, hi, hfree, hj⟩
    have hnonneg := hs'.offset_nonneg
    have halloc : heap'.Allocated i := (hj i).2.mpr (Or.inl rfl)
    refine ⟨by omega, (hasAllocated_iff hs').mpr (by rwa [Int.add_sub_cancel]), ?_⟩
    intro j obj hentry hlive hobj
    rw [hs.id_eq hentry, hoffset] at hobj
    exact hfree ((show j = i by omega) ▸ hlive)
  enumerate := by
    intro fuel hfuel
    obtain ⟨hnodup, hmem⟩ := visits_next hs (le_refl (-1)) (show _ < (fuel : ℤ) by omega)
    refine ⟨hnodup, fun i => (hmem i).trans ⟨And.right, fun hlive => ⟨?_, hlive⟩⟩⟩
    have := (hs.indexed_of_live hlive).1
    omega
  lookup := lookupRight_iff hs

/-- In every run in which the heap does not grow past its ids, whatever calls of the C library fail,
every state reached is correct. -/
theorem object_heap_correct {objectSize idOffset : ℤ} {memory : Memory}
    (hrun : Reach step Fitting (init objectSize idOffset memory).1 heap) : heap.Correct :=
  (run_sound hrun).correct

end Heap

/-! ## A heap of configs -/

instance (heap : ObjectHeap) (call : Call) : Decidable (heap.Fitting call) :=
  match call with
  | .allocate _ => inferInstanceAs (Decidable heap.Fits)
  | .free _ => isTrue trivial
  | .suspendObject _ _ => isTrue trivial

/-- Every call of the C library succeeds. -/
def enoughMemory : Memory := ⟨true, fun _ => true⟩

/-- The heap of the driver's configs before the first is made. -/
def configHeap : ObjectHeap := (init 8 0x01000000 enoughMemory).1

/-- The calls from `configHeap` on fit, and lead to a heap whose object 0 is in use or not, and
allocated or not, as given. -/
def Leads (calls : List Call) (live alloc : Bool) : Prop :=
  (exec step (fun heap call => decide (heap.Fitting call)) configHeap calls).any
    (fun heap => heap.idOffset == 0x01000000 && heap.heapSize == 16 &&
      decide (heap.Live 0) == live && decide (heap.Allocated 0) == alloc) = true

instance (calls : List Call) (live alloc : Bool) : Decidable (Leads calls live alloc) :=
  inferInstanceAs (Decidable (_ = _))

theorem Leads.reach {calls : List Call} {live alloc : Bool} (h : Leads calls live alloc) :
    ∃ heap, Reach step Fitting configHeap heap ∧ heap.idOffset = 0x01000000 ∧ heap.heapSize = 16 ∧
      (heap.Live 0 ↔ live = true) ∧ (heap.Allocated 0 ↔ alloc = true) := by
  obtain ⟨heap, hrun, hheap⟩ := Reach.exists_of_exec (fun _ _ h => of_decide_eq_true h) calls h
  refine ⟨heap, hrun, ?_⟩
  simp only [Bool.and_eq_true, beq_iff_eq] at hheap
  obtain ⟨⟨⟨hoffset, hsize⟩, hlive⟩, halloc⟩ := hheap
  exact ⟨hoffset, hsize, by rw [← hlive, decide_eq_true_iff], by rw [← halloc, decide_eq_true_iff]⟩

/-- An object that is not allocated is found nevertheless. -/
theorem Leads.not_right {calls : List Call} {live : Bool} (h : Leads calls live false) :
    ∃ heap, Reach step Fitting configHeap heap ∧ (heap.Live 0 ↔ live = true) ∧
      ¬ heap.LookupRight 0x01000000 := by
  obtain ⟨heap, hrun, hoffset, hsize, hlive, halloc⟩ := h.reach
  have hs : heap.Sound := run_sound hrun
  refine ⟨heap, hrun, hlive, fun hright => ?_⟩
  rw [lookupRight_iff hs, hasAllocated_iff hs, hoffset, hsize] at hright
  rcases hright with hout | hin
  · omega
  · exact absurd (halloc.mp hin) (by decide)

/-- The first config is allocated: the heap is correct. -/
theorem allocated_heap_correct :
    ∃ heap, Reach step Fitting configHeap heap ∧ heap.Correct ∧ heap.Allocated 0 := by
  obtain ⟨heap, hrun, -, -, -, halloc⟩ :=
    @Leads.reach [.allocate enoughMemory] true true (by decide)
  exact ⟨heap, hrun, object_heap_correct hrun, halloc.mpr rfl⟩

/-- The id one past the last is accepted, and its entry is outside the array; a config is still
found after it was freed, and while it is suspended. -/
theorem lookup_not_right :
    ¬ configHeap.LookupRight 0x01000010 ∧
      (∃ heap, Reach step Fitting configHeap heap ∧ ¬ heap.Live 0 ∧ ¬ heap.LookupRight 0x01000000) ∧
      ∃ heap, Reach step Fitting configHeap heap ∧ heap.Live 0 ∧
        ¬ heap.LookupRight 0x01000000 := by
  refine ⟨?_, ?_, ?_⟩
  · rintro ⟨⟨-, hlt⟩, -⟩
    exact absurd hlt (by decide)
  · obtain ⟨heap, hrun, hlive, hright⟩ := @Leads.not_right
      [.allocate enoughMemory, .free (some 0)] false (by decide)
    exact ⟨heap, hrun, fun h => absurd (hlive.mp h) (by decide), hright⟩
  · obtain ⟨heap, hrun, hlive, hright⟩ := @Leads.not_right
      [.allocate enoughMemory, .suspendObject 0 true] true (by decide)
    exact ⟨heap, hrun, hlive.mpr rfl, hright⟩

end HardwareIntel.PsbVideo.ObjectHeap
