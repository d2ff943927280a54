import HardwareIntel.PsbVideo.ObjectHeap

/-!
# The invariant of the object heap

`Sound` says that the entries of a heap hold objects with their own ids and that the free list goes
through the objects that are not in use. Every call keeps it, as long as the heap does not grow
past the ids that its offset leaves room for.
-/

namespace HardwareIntel.PsbVideo.ObjectHeap

open Option Function

/-! ## Masks -/

theorem andMask_eq (x : ℤ) (mask : BitVec 32) (h : mask.toNat < 2 ^ 31) :
    andMask x mask = (((BitVec.ofInt 32 x).toNat &&& mask.toNat : ℕ) : ℤ) := by
  have hle : (BitVec.ofInt 32 x &&& mask).toNat ≤ mask.toNat := by
    exact Nat.and_le_right
  rw [andMask, BitVec.toInt_eq_toNat_of_lt (by omega), BitVec.toNat_and]

/-- An id keeps its lower 24 bits. -/
theorem andMask_id (x : ℤ) : andMask x objectHeapIdMask = x % 2 ^ 24 := by
  rw [andMask_eq x _ (by decide), show objectHeapIdMask.toNat = 2 ^ 24 - 1 from rfl,
    Nat.and_two_pow_sub_one_eq_mod, BitVec.toNat_ofInt]
  omega

theorem andMask_offset_dvd (x : ℤ) : (2 ^ 24 : ℤ) ∣ andMask x objectHeapOffsetMask := by
  have hmod : ((BitVec.ofInt 32 x).toNat &&& objectHeapOffsetMask.toNat) % 2 ^ 24 = 0 := by
    rw [Nat.and_mod_two_pow, show objectHeapOffsetMask.toNat % 2 ^ 24 = 0 from rfl, Nat.and_zero]
  rw [andMask_eq x _ (by decide)]
  omega

theorem andMask_offset_nonneg (x : ℤ) : 0 ≤ andMask x objectHeapOffsetMask := by
  rw [andMask_eq x _ (by decide)]
  omega

theorem andMask_offset_le (x : ℤ) : andMask x objectHeapOffsetMask ≤ 0x7F000000 := by
  have hle : ((BitVec.ofInt 32 x).toNat &&& objectHeapOffsetMask.toNat) ≤ 0x7F000000 :=
    Nat.and_le_right
  rw [andMask_eq x _ (by decide)]
  omega

/-! ## The free list -/

/-- A value of `next_free` as a link. -/
def linkOf (v : ℤ) : Option ℤ :=
  if v = lastFree then none else some v

/-- The link of an object. -/
def nextIn (index : ℤ → Option ObjectBase) (i : ℤ) : Option ℤ :=
  (index i).bind fun obj => linkOf obj.nextFree

@[simp] theorem linkOf_lastFree : linkOf lastFree = none := rfl

theorem linkOf_of_nonneg {v : ℤ} (h : 0 ≤ v) : linkOf v = some v := by
  rw [linkOf, if_neg]
  rintro rfl
  exact absurd h (by decide)

variable {index : ℤ → Option ObjectBase}

theorem nextIn_update {i j : ℤ} {obj : Option ObjectBase} (h : j ≠ i) :
    nextIn (Function.update index i obj) j = nextIn index j := by
  rw [nextIn, nextIn, update_of_ne h]

theorem nextIn_update_self {i : ℤ} {obj : ObjectBase} :
    nextIn (Function.update index i (some obj)) i = linkOf obj.nextFree := by
  rw [nextIn, update_self]
  rfl

/-- An index below the size of the heap. -/
def Indexed (heap : ObjectHeap) (i : ℤ) : Prop :=
  0 ≤ i ∧ i < heap.heapSize

instance (heap : ObjectHeap) (i : ℤ) : Decidable (heap.Indexed i) :=
  inferInstanceAs (Decidable (_ ∧ _))

/-- The free list that starts at `next_free` goes through `l`. -/
def FreeList (heap : ObjectHeap) (l : List ℤ) : Prop :=
  Path (nextIn heap.heapIndex) (linkOf heap.nextFree) l

/-- The invariant of a heap: the offset leaves the lower 24 bits to the index, the entries hold
objects with their ids, and the free list goes through those that are not in use. -/
structure Sound (heap : ObjectHeap) : Prop where
  offset_dvd : (2 ^ 24 : ℤ) ∣ heap.idOffset
  offset_nonneg : 0 ≤ heap.idOffset
  size_nonneg : 0 ≤ heap.heapSize
  size_le : heap.heapSize ≤ 2 ^ 24
  int_range : heap.heapSize + heap.idOffset < 2 ^ 31
  increment_pos : 0 < heap.heapIncrement
  entry : ∀ i, heap.Indexed i → ∃ v, heap.heapIndex i = some ⟨i + heap.idOffset, v⟩
  outside : ∀ i, ¬ heap.Indexed i → heap.heapIndex i = none
  free : ∃ l, heap.FreeList l ∧ ∀ i, i ∈ l ↔ heap.Indexed i ∧ ¬ heap.Live i

theorem empty_not_indexed (objectSize idOffset i : ℤ) :
    ¬ (empty objectSize idOffset).Indexed i := by
  rintro ⟨h₁, h₂⟩
  exact absurd h₂ (not_lt.mpr h₁)

theorem empty_sound (objectSize idOffset : ℤ) : (empty objectSize idOffset).Sound where
  offset_dvd := andMask_offset_dvd idOffset
  offset_nonneg := andMask_offset_nonneg idOffset
  size_nonneg := le_refl _
  size_le := show (0 : ℤ) ≤ 2 ^ 24 by decide
  int_range := by
    have hle := andMask_offset_le idOffset
    simp only [empty]
    omega
  increment_pos := show (0 : ℤ) < 16 by decide
  entry := fun i hi => absurd hi (empty_not_indexed objectSize idOffset i)
  outside := fun _ _ => rfl
  free := by
    refine ⟨[], Path.nil, fun i => ⟨fun h => by simp at h, fun h => ?_⟩⟩
    exact absurd h.1 (empty_not_indexed objectSize idOffset i)

section Heap

variable {heap heap' : ObjectHeap} {memory : Memory} {i j id : ℤ} {l : List ℤ}

/-- A link of the free list is no mark. -/
theorem not_live_of_mark_nonneg {v : ℤ} (h : heap.mark i = some v) (hv : -1 ≤ v) :
    ¬ heap.Live i := by
  rintro (hmark | hmark)
  all_goals
    rw [h, some.injEq] at hmark
    subst hmark
    exact absurd hv (by decide)

namespace Sound

section

variable (hs : heap.Sound)
include hs

theorem indexed_of_entry {obj : ObjectBase} (h : heap.heapIndex i = some obj) :
    heap.Indexed i := by
  by_contra hout
  rw [hs.outside i hout] at h
  cases h

theorem id_eq {obj : ObjectBase} (h : heap.heapIndex i = some obj) :
    obj.id = i + heap.idOffset := by
  obtain ⟨v, hv⟩ := hs.entry i (hs.indexed_of_entry h)
  rw [h, some.injEq] at hv
  rw [hv]

theorem indexed_of_live (h : heap.Live i) : heap.Indexed i := by
  by_contra hout
  rw [Live, mark, hs.outside i hout] at h
  rcases h with h | h <;> cases h

/-- The lower 24 bits of an id are the index of its object. -/
theorem andMask_id_eq (h : heap.Indexed i) :
    andMask (i + heap.idOffset) objectHeapIdMask = i := by
  obtain ⟨k, hk⟩ := hs.offset_dvd
  have hsize := hs.size_le
  obtain ⟨h₁, h₂⟩ := h
  rw [andMask_id]
  omega

/-- `next_free` is an end or the index of an object. -/
theorem nextFree_cases :
    heap.nextFree = lastFree ∨ heap.Indexed heap.nextFree ∧ ¬ heap.Live heap.nextFree := by
  obtain ⟨l, hpath, hmem⟩ := hs.free
  by_cases hlast : heap.nextFree = lastFree
  · exact Or.inl hlast
  · refine Or.inr ((hmem _).mp ?_)
    have hhead := hpath.head_eq
    rw [linkOf, if_neg hlast] at hhead
    exact List.mem_of_mem_head? hhead.symm

theorem neg_one_le_nextFree : -1 ≤ heap.nextFree := by
  rcases hs.nextFree_cases with h | ⟨⟨h, -⟩, -⟩
  · exact h ▸ le_refl _
  · omega

end

end Sound

/-! ## Growing -/

variable {g : Growth}

theorem grow_mallocError {k : ℕ} (h : g.mallocError = true) :
    (heap.grow memory k g).mallocError = true := by
  induction k generalizing g with
  | zero => exact h
  | succ k ih =>
    refine ih ?_
    rw [growOne]
    split
    · exact h
    · rfl

/-- Only the new entries are written. -/
theorem grow_outside {k : ℕ} (h : i < heap.heapSize ∨ heap.heapSize + k ≤ i) :
    (heap.grow memory k g).heapIndex i = g.heapIndex i := by
  induction k generalizing g with
  | zero => rfl
  | succ k ih =>
    have hne : i ≠ heap.heapSize + k := by omega
    rw [grow, ih (by omega), growOne]
    split
    · exact update_of_ne hne _ _
    · exact update_of_ne hne _ _

theorem cleanUp_apply (k : ℕ) (index : ℤ → Option ObjectBase) (i : ℤ) :
    heap.cleanUp k index i = if heap.heapSize ≤ i ∧ i < heap.heapSize + k then none else index i := by
  induction k generalizing index with
  | zero =>
    rw [cleanUp, if_neg (by omega)]
  | succ k ih =>
    rw [cleanUp, ih]
    by_cases hlast : i = heap.heapSize + k
    · subst hlast
      rw [if_neg (by omega), update_self, if_pos (by omega)]
    · rw [update_of_ne hlast]
      exact if_congr (by omega) rfl rfl

/-- The first loop, when the entries from `j` on are done: they hold new objects, which come before
those of the old free list `l`. -/
structure Grown (heap : ObjectHeap) (top : ℤ) (l : List ℤ) (j : ℤ) (g : Growth) : Prop where
  entry : ∀ i, j ≤ i → i < top → ∃ v, -1 ≤ v ∧ g.heapIndex i = some ⟨i + heap.idOffset, v⟩
  path : ∃ l', Path (nextIn g.heapIndex) (linkOf g.nextFree) l' ∧
    ∀ i, i ∈ l' ↔ j ≤ i ∧ i < top ∨ i ∈ l
  nextFree_ge : -1 ≤ g.nextFree

theorem Grown.growOne {top : ℤ} (h : Grown heap top l (j + 1) g) (hj : 0 ≤ j) (htop : j < top)
    (hl : j ∉ l) (herror : (heap.growOne memory g j).mallocError = false) :
    Grown heap top l j (heap.growOne memory g j) := by
  obtain ⟨l', hpath, hmem⟩ := h.path
  have hnew : j ∉ l' := fun hin => ((hmem j).mp hin).elim (fun hle => by omega) hl
  rw [ObjectHeap.growOne] at herror ⊢
  split at herror
  · rename_i hcalloc
    rw [if_pos hcalloc]
    refine ⟨fun i hle hlt => ?_, ⟨j :: l', ?_, fun i => ?_⟩, show -1 ≤ j by omega⟩
    · by_cases hi : i = j
      · subst hi
        exact ⟨g.nextFree, h.nextFree_ge, update_self ..⟩
      · obtain ⟨v, hv, hentry⟩ := h.entry i (by omega) hlt
        exact ⟨v, hv, (update_of_ne hi _ _).trans hentry⟩
    · rw [linkOf_of_nonneg hj]
      refine .cons ?_
      rw [nextIn_update_self]
      refine hpath.congr fun i hi => nextIn_update ?_
      rintro rfl
      exact hnew hi
    · rw [List.mem_cons, hmem]
      constructor
      · rintro (rfl | hnewer | hold)
        · exact Or.inl ⟨le_refl _, htop⟩
        · exact Or.inl (by omega)
        · exact Or.inr hold
      · rintro (hnewer | hold)
        · by_cases hi : i = j
          · exact Or.inl hi
          · exact Or.inr (Or.inl (by omega))
        · exact Or.inr (Or.inr hold)
  · cases herror

/-- If every object was made, the loop has linked them all in front of the free list. -/
theorem Grown.grow {top : ℤ} {k : ℕ} (hsize : 0 ≤ heap.heapSize) (hl : ∀ i ∈ l, i < heap.heapSize)
    (h : Grown heap top l (heap.heapSize + k) g) (htop : heap.heapSize + k ≤ top)
    (herror : (heap.grow memory k g).mallocError = false) :
    Grown heap top l heap.heapSize (heap.grow memory k g) := by
  induction k generalizing g with
  | zero => simpa [ObjectHeap.grow] using h
  | succ k ih =>
    have hone : (heap.growOne memory g (heap.heapSize + k)).mallocError = false := by
      by_contra herr
      rw [ObjectHeap.grow, grow_mallocError (Bool.eq_true_of_not_eq_false herr)] at herror
      cases herror
    refine ih ?_ (by omega) herror
    refine Grown.growOne ?_ (by omega) (by omega) (fun hin => ?_) hone
    · rw [show heap.heapSize + (k : ℤ) + 1 = heap.heapSize + ((k + 1 : ℕ) : ℤ) by omega]
      exact h
    · have := hl _ hin
      omega

/-- A growth that fails leaves the heap as it was. -/
theorem expand_failed (hs : heap.Sound) (h : (heap.expand memory).2 = -1) :
    (heap.expand memory).1 = heap := by
  rw [expand] at h ⊢
  split at h
  · rename_i hrealloc
    dsimp only at h ⊢
    split at h
    · rename_i herror
      rw [if_pos herror]
      have hindex : heap.cleanUp heap.heapIncrement.toNat (heap.grow memory
          heap.heapIncrement.toNat ⟨heap.heapIndex, heap.nextFree, false⟩).heapIndex =
            heap.heapIndex := by
        funext i
        rw [cleanUp_apply]
        split
        · rename_i hi
          exact (hs.outside i (fun hin => not_lt.mpr hi.1 hin.2)).symm
        · rename_i hi
          rw [grow_outside (by omega)]
      simp [hindex]
    · cases h
  · rename_i hrealloc
    rw [if_neg hrealloc]

/-- A growth succeeds if no object could not be made. -/
theorem expand_succeeded (h : (heap.expand memory).2 ≠ -1) :
    ∃ g, g = heap.grow memory heap.heapIncrement.toNat ⟨heap.heapIndex, heap.nextFree, false⟩ ∧
      g.mallocError = false ∧ (heap.expand memory).1 = heap.commit g := by
  rw [expand] at h ⊢
  split at h
  · rename_i hrealloc
    rw [if_pos hrealloc]
    dsimp only at h ⊢
    split at h
    · exact absurd rfl h
    · rename_i herror
      exact ⟨_, rfl, Bool.eq_false_of_not_eq_true herror, by rw [if_neg herror]⟩
  · exact absurd rfl h

/-- `heap'` has the objects in use of `heap`. -/
structure SameUse (heap heap' : ObjectHeap) : Prop where
  idOffset : heap'.idOffset = heap.idOffset
  live : ∀ i, heap'.Live i ↔ heap.Live i
  allocated : ∀ i, heap'.Allocated i ↔ heap.Allocated i

section Committed

variable {g : Growth}

/-- What a growth leaves behind: the old entries, and new objects in front of the free list. -/
structure Committed (heap : ObjectHeap) (l : List ℤ) (g : Growth) : Prop extends
    Grown heap (heap.heapSize + heap.heapIncrement) l heap.heapSize g where
  old : ∀ i, ¬ (heap.heapSize ≤ i ∧ i < heap.heapSize + heap.heapIncrement) →
    g.heapIndex i = heap.heapIndex i

theorem Committed.mark_old (hc : Committed heap l g)
    (h : ¬ (heap.heapSize ≤ i ∧ i < heap.heapSize + heap.heapIncrement)) :
    (heap.commit g).mark i = heap.mark i :=
  congrArg _ (hc.old i h)

theorem Committed.mark_new (hc : Committed heap l g) (hle : heap.heapSize ≤ i)
    (hlt : i < heap.heapSize + heap.heapIncrement) :
    ∃ v, -1 ≤ v ∧ (heap.commit g).mark i = some v := by
  obtain ⟨v, hv, hentry⟩ := hc.entry i hle hlt
  exact ⟨v, hv, congrArg _ hentry⟩

/-- The new objects are not in use. -/
theorem Committed.sameUse (hs : heap.Sound) (hc : Committed heap l g) :
    SameUse heap (heap.commit g) := by
  have hmark : ∀ i v, v < -1 → ((heap.commit g).mark i = some v ↔ heap.mark i = some v) := by
    intro i v hv
    by_cases hi : heap.heapSize ≤ i ∧ i < heap.heapSize + heap.heapIncrement
    · obtain ⟨w, hw, hmark⟩ := hc.mark_new hi.1 hi.2
      have hnone : heap.mark i = none := by
        rw [mark, hs.outside i fun hin => not_lt.mpr hi.1 hin.2]
        rfl
      rw [hmark, hnone, some.injEq]
      exact ⟨fun heq => by omega, fun heq => by cases heq⟩
    · rw [hc.mark_old hi]
  exact ⟨rfl, fun i => or_congr (hmark i _ (by decide)) (hmark i _ (by decide)),
    fun i => hmark i _ (by decide)⟩

theorem Committed.sound (hs : heap.Sound) (hc : Committed heap l g)
    (hmem : ∀ i, i ∈ l ↔ heap.Indexed i ∧ ¬ heap.Live i)
    (hsize : heap.heapSize + heap.heapIncrement ≤ 2 ^ 24)
    (hint : heap.heapSize + heap.heapIncrement + heap.idOffset < 2 ^ 31) :
    (heap.commit g).Sound where
  offset_dvd := hs.offset_dvd
  offset_nonneg := hs.offset_nonneg
  size_nonneg := add_nonneg hs.size_nonneg hs.increment_pos.le
  size_le := hsize
  int_range := hint
  increment_pos := hs.increment_pos
  entry := by
    rintro i ⟨hnonneg, hlt⟩
    by_cases hi : heap.heapSize ≤ i
    · obtain ⟨v, -, hentry⟩ := hc.entry i hi hlt
      exact ⟨v, hentry⟩
    · obtain ⟨v, hentry⟩ := hs.entry i ⟨hnonneg, by omega⟩
      exact ⟨v, (hc.old i fun hin => hi hin.1).trans hentry⟩
  outside := by
    intro i hi
    have hsize' := hs.size_nonneg
    have hpos := hs.increment_pos
    have hnew : ¬ (heap.heapSize ≤ i ∧ i < heap.heapSize + heap.heapIncrement) :=
      fun hin => hi ⟨by omega, hin.2⟩
    have hold : ¬ heap.Indexed i := fun hin => hi ⟨hin.1, show i < _ + _ by have := hin.2; omega⟩
    exact (hc.old i hnew).trans (hs.outside i hold)
  free := by
    obtain ⟨l', hpath, hmem'⟩ := hc.path
    refine ⟨l', hpath, fun i => ?_⟩
    have hsize' := hs.size_nonneg
    have hpos := hs.increment_pos
    rw [hmem', hmem, (hc.sameUse hs).live]
    have hlive : heap.Live i → heap.Indexed i := hs.indexed_of_live
    constructor
    · rintro (hnew | ⟨hin, hfree⟩)
      · exact ⟨⟨by omega, hnew.2⟩, fun h => not_lt.mpr hnew.1 (hlive h).2⟩
      · exact ⟨⟨hin.1, show i < _ + _ by have := hin.2; omega⟩, hfree⟩
    · rintro ⟨hin, hfree⟩
      by_cases hi : heap.heapSize ≤ i
      · exact Or.inl ⟨hi, hin.2⟩
      · exact Or.inr ⟨⟨hin.1, by omega⟩, hfree⟩

end Committed

/-- A growth that succeeds adds objects to the free list. -/
theorem expand_sound (hs : heap.Sound) (h : (heap.expand memory).2 ≠ -1)
    (hsize : heap.heapSize + heap.heapIncrement ≤ 2 ^ 24)
    (hint : heap.heapSize + heap.heapIncrement + heap.idOffset < 2 ^ 31) :
    (heap.expand memory).1.Sound ∧ SameUse heap (heap.expand memory).1 ∧
      (heap.expand memory).1.nextFree ≠ lastFree := by
  have hpos := hs.increment_pos
  obtain ⟨l, hfree, hmem⟩ := hs.free
  obtain ⟨g, hg, herror, heq⟩ := expand_succeeded h
  have hinit : Grown heap (heap.heapSize + heap.heapIncrement) l
      (heap.heapSize + heap.heapIncrement.toNat) ⟨heap.heapIndex, heap.nextFree, false⟩ := by
    refine ⟨fun i hle hlt => by omega, ⟨l, hfree, fun i => ?_⟩, hs.neg_one_le_nextFree⟩
    exact ⟨Or.inr, fun hi => hi.resolve_left (by omega)⟩
  have herror' : (heap.grow memory heap.heapIncrement.toNat
      ⟨heap.heapIndex, heap.nextFree, false⟩).mallocError = false := hg ▸ herror
  have hgrown := hinit.grow hs.size_nonneg (fun i hi => ((hmem i).mp hi).1.2) (by omega) herror'
  rw [← hg] at hgrown
  have hc : Committed heap l g := ⟨hgrown, fun i hi => by rw [hg]; exact grow_outside (by omega)⟩
  rw [heq]
  refine ⟨hc.sound hs hmem hsize hint, hc.sameUse hs, fun hlast => ?_⟩
  obtain ⟨l', hpath, hmem'⟩ := hc.path
  have hhead := hpath.head_eq
  rw [show g.nextFree = lastFree from hlast, linkOf_lastFree] at hhead
  have hin : heap.heapSize ∈ l' := (hmem' _).mpr (Or.inl ⟨le_refl _, by omega⟩)
  rw [List.head?_eq_none_iff.mp hhead.symm] at hin
  cases hin

/-! ## One entry -/

/-- The object of entry `i` gets the mark `v`, and the free list starts at `n`. -/
def setMark (heap : ObjectHeap) (i : ℤ) (obj : ObjectBase) (v n : ℤ) : ObjectHeap :=
  { heap with
    heapIndex := Function.update heap.heapIndex i (some { obj with nextFree := v })
    nextFree := n }

section SetMark

variable {obj : ObjectBase} {v n : ℤ}

@[simp] theorem mark_setMark_self : (heap.setMark i obj v n).mark i = some v := by
  simp [mark, setMark]

theorem mark_setMark_of_ne (h : j ≠ i) : (heap.setMark i obj v n).mark j = heap.mark j := by
  simp [mark, setMark, h]

theorem setMark_live_of_ne (h : j ≠ i) : (heap.setMark i obj v n).Live j ↔ heap.Live j := by
  rw [Live, Live, mark_setMark_of_ne h]

theorem setMark_allocated_of_ne (h : j ≠ i) :
    (heap.setMark i obj v n).Allocated j ↔ heap.Allocated j := by
  rw [Allocated, Allocated, mark_setMark_of_ne h]

theorem setMark_sound (hs : heap.Sound) (hobj : heap.heapIndex i = some obj)
    (hpath : Path (nextIn (heap.setMark i obj v n).heapIndex) (linkOf n) l)
    (hmem : ∀ j, j ∈ l ↔ heap.Indexed j ∧ ¬ (heap.setMark i obj v n).Live j) :
    (heap.setMark i obj v n).Sound where
  offset_dvd := hs.offset_dvd
  offset_nonneg := hs.offset_nonneg
  size_nonneg := hs.size_nonneg
  size_le := hs.size_le
  int_range := hs.int_range
  increment_pos := hs.increment_pos
  entry := by
    intro j hj
    by_cases hi : j = i
    · subst hi
      exact ⟨v, (update_self ..).trans (by rw [hs.id_eq hobj]; rfl)⟩
    · obtain ⟨w, hw⟩ := hs.entry j hj
      exact ⟨w, (update_of_ne hi _ _).trans hw⟩
  outside := by
    intro j hj
    have hi : j ≠ i := by
      rintro rfl
      exact hj (hs.indexed_of_entry hobj)
    exact (update_of_ne hi _ _).trans (hs.outside j hj)
  free := ⟨l, hpath, hmem⟩

end SetMark

/-- The first object of the free list is taken out of it. -/
theorem takeFirst_sound (hs : heap.Sound) (h : heap.nextFree ≠ lastFree) :
    ∃ heap', heap.takeFirst = some (heap', heap.nextFree + heap.idOffset) ∧ heap'.Sound ∧
      heap'.idOffset = heap.idOffset ∧ heap.Indexed heap.nextFree ∧ ¬ heap.Live heap.nextFree ∧
      ∀ j, (heap'.Live j ↔ j = heap.nextFree ∨ heap.Live j) ∧
        (heap'.Allocated j ↔ j = heap.nextFree ∨ heap.Allocated j) := by
  obtain ⟨hin, hfree⟩ := hs.nextFree_cases.resolve_left h
  obtain ⟨v, hentry⟩ := hs.entry _ hin
  obtain ⟨l, hpath, hmem⟩ := hs.free
  have hlive : ∀ j, (heap.setMark heap.nextFree ⟨heap.nextFree + heap.idOffset, v⟩ allocated v).Live j ↔
      j = heap.nextFree ∨ heap.Live j := by
    intro j
    by_cases hj : j = heap.nextFree
    · subst hj
      exact ⟨fun _ => Or.inl rfl, fun _ => Or.inl mark_setMark_self⟩
    · rw [setMark_live_of_ne hj, or_iff_right hj]
  refine ⟨heap.setMark heap.nextFree ⟨_, v⟩ allocated v, by rw [takeFirst, hentry]; rfl, ?_, rfl,
    hin, hfree, fun j => ⟨hlive j, ?_⟩⟩
  · rw [FreeList, linkOf_of_nonneg hin.1] at hpath
    have hnodup := hpath.nodup
    cases hpath with
    | @cons _ rest hrest =>
      have hnotin : heap.nextFree ∉ rest := (List.nodup_cons.mp hnodup).1
      refine setMark_sound (l := rest) hs hentry ?_ fun j => ?_
      · rw [nextIn, hentry] at hrest
        refine Path.congr hrest fun j hj => nextIn_update ?_
        rintro rfl
        exact hnotin hj
      · rw [hlive, not_or, and_left_comm, ← hmem j, List.mem_cons]
        constructor
        · intro hj
          exact ⟨fun heq => hnotin (heq ▸ hj), Or.inr hj⟩
        · rintro ⟨hne, hj⟩
          exact hj.resolve_left hne
  · by_cases hj : j = heap.nextFree
    · subst hj
      exact ⟨fun _ => Or.inl rfl, fun _ => mark_setMark_self⟩
    · rw [setMark_allocated_of_ne hj, or_iff_right hj]

/-- An object in use goes back to the front of the free list. -/
theorem free_sound (hs : heap.Sound) (h : heap.Live i) :
    ∃ heap', heap.free (some i) = some heap' ∧ heap'.Sound ∧ heap'.idOffset = heap.idOffset ∧
      ∀ j, (heap'.Live j ↔ j ≠ i ∧ heap.Live j) ∧
        (heap'.Allocated j ↔ j ≠ i ∧ heap.Allocated j) := by
  have hin := hs.indexed_of_live h
  obtain ⟨v, hentry⟩ := hs.entry i hin
  obtain ⟨l, hpath, hmem⟩ := hs.free
  have hmark : -1 ≤ heap.nextFree := hs.neg_one_le_nextFree
  have hfreed : ¬ (heap.setMark i ⟨i + heap.idOffset, v⟩ heap.nextFree i).Live i :=
    not_live_of_mark_nonneg mark_setMark_self hmark
  have hlive : ∀ j, (heap.setMark i ⟨i + heap.idOffset, v⟩ heap.nextFree i).Live j ↔
      j ≠ i ∧ heap.Live j := by
    intro j
    by_cases hj : j = i
    · subst hj
      exact ⟨fun hl => absurd hl hfreed, fun hl => absurd rfl hl.1⟩
    · rw [setMark_live_of_ne hj, and_iff_right hj]
  refine ⟨heap.setMark i ⟨_, v⟩ heap.nextFree i, ?_, ?_, rfl, fun j => ⟨hlive j, ?_⟩⟩
  · rw [free, hentry, map_some]
    simp only [hs.andMask_id_eq hin]
    rfl
  · have hnotin : i ∉ l := fun hi => ((hmem i).mp hi).2 h
    refine setMark_sound (l := i :: l) hs hentry ?_ fun j => ?_
    · rw [linkOf_of_nonneg hin.1]
      refine .cons ?_
      rw [setMark, nextIn_update_self]
      refine Path.congr hpath fun j hj => nextIn_update ?_
      rintro rfl
      exact hnotin hj
    · rw [hlive, List.mem_cons, hmem]
      by_cases hj : j = i
      · subst hj
        simpa using hin
      · simp [hj]
  · by_cases hj : j = i
    · subst hj
      exact ⟨fun hl => absurd (Or.inl hl) hfreed, fun hl => absurd rfl hl.1⟩
    · rw [setMark_allocated_of_ne hj, and_iff_right hj]

/-- An object in use changes its mark; the free list stays. -/
theorem suspendObject_sound (hs : heap.Sound) (h : heap.Live i) (suspend : Bool) :
    ∃ heap', heap.suspendObject i suspend = some heap' ∧ heap'.Sound ∧
      heap'.idOffset = heap.idOffset ∧
      ∀ j, (heap'.Live j ↔ heap.Live j) ∧
        (heap'.Allocated j ↔ if j = i then suspend = false else heap.Allocated j) := by
  have hin := hs.indexed_of_live h
  obtain ⟨v, hentry⟩ := hs.entry i hin
  obtain ⟨l, hpath, hmem⟩ := hs.free
  have hself : (heap.setMark i ⟨i + heap.idOffset, v⟩
      (if suspend then suspended else allocated) heap.nextFree).Live i := by
    rw [Live, mark_setMark_self]
    cases suspend
    · exact Or.inl rfl
    · exact Or.inr rfl
  have hlive : ∀ j, (heap.setMark i ⟨i + heap.idOffset, v⟩
      (if suspend then suspended else allocated) heap.nextFree).Live j ↔ heap.Live j := by
    intro j
    by_cases hj : j = i
    · subst hj
      exact ⟨fun _ => h, fun _ => hself⟩
    · rw [setMark_live_of_ne hj]
  refine ⟨heap.setMark i ⟨_, v⟩ (if suspend then suspended else allocated) heap.nextFree,
    by rw [suspendObject, hentry]; rfl, ?_, rfl, fun j => ⟨hlive j, ?_⟩⟩
  · have hnotin : i ∉ l := fun hi => ((hmem i).mp hi).2 h
    refine setMark_sound (l := l) hs hentry ?_ fun j => by rw [hlive, hmem]
    refine Path.congr hpath fun j hj => nextIn_update ?_
    rintro rfl
    exact hnotin hj
  · by_cases hj : j = i
    · subst hj
      rw [Allocated, mark_setMark_self, if_pos rfl]
      cases suspend <;> decide
    · rw [setMark_allocated_of_ne hj, if_neg hj]

/-! ## Calls -/

/-- If the heap has to grow for an allocation, its indices fit under the offset of the ids and its
ids in an `int`. -/
def Fits (heap : ObjectHeap) : Prop :=
  heap.nextFree = lastFree → heap.heapSize + heap.heapIncrement ≤ 2 ^ 24 ∧
    heap.heapSize + heap.heapIncrement + heap.idOffset < 2 ^ 31

instance (heap : ObjectHeap) : Decidable heap.Fits :=
  inferInstanceAs (Decidable (_ → _))

/-- An allocation fails and changes nothing, or an object that was not in use is allocated. -/
theorem allocate_sound (hs : heap.Sound) (hfits : heap.Fits) (memory : Memory) :
    ∃ heap' id, heap.allocate memory = some (heap', id) ∧ heap'.Sound ∧
      (id = -1 ∧ heap' = heap ∨
        ∃ i, id = i + heap'.idOffset ∧ heap'.idOffset = heap.idOffset ∧ 0 ≤ i ∧ ¬ heap.Live i ∧
          ∀ j, (heap'.Live j ↔ j = i ∨ heap.Live j) ∧
            (heap'.Allocated j ↔ j = i ∨ heap.Allocated j)) := by
  rw [allocate]
  by_cases hlast : heap.nextFree = lastFree
  · rw [if_pos hlast]
    obtain ⟨hsize, hint⟩ := hfits hlast
    by_cases hfail : (heap.expand memory).2 = -1
    · rw [if_pos hfail, expand_failed hs hfail]
      exact ⟨heap, -1, rfl, hs, Or.inl ⟨rfl, rfl⟩⟩
    · rw [if_neg hfail]
      obtain ⟨hs', huse, hfirst⟩ := expand_sound hs hfail hsize hint
      obtain ⟨heap', heq, hsound, hoffset, hin, hfree, hj⟩ := takeFirst_sound hs' hfirst
      refine ⟨heap', _, heq, hsound, Or.inr ⟨_, by rw [hoffset], hoffset.trans huse.idOffset,
        hin.1, fun hl => hfree ((huse.live _).mpr hl), fun j => ?_⟩⟩
      rw [(hj j).1, (hj j).2, huse.live, huse.allocated]
      exact ⟨Iff.rfl, Iff.rfl⟩
  · rw [if_neg hlast]
    obtain ⟨heap', heq, hsound, hoffset, hin, hfree, hj⟩ := takeFirst_sound hs hlast
    exact ⟨heap', _, heq, hsound, Or.inr ⟨_, by rw [hoffset], hoffset, hin.1, hfree, hj⟩⟩

/-- The condition on the calls of a run: the heap does not grow past its ids. -/
def Fitting (heap : ObjectHeap) : Call → Prop
  | .allocate _ => heap.Fits
  | .free _ => True
  | .suspendObject _ _ => True

/-- Every call keeps the invariant. -/
theorem step_sound {call : Call} (hs : heap.Sound) (hcond : heap.Fitting call)
    (hstep : heap.step call = some heap') : heap'.Sound := by
  cases call with
  | allocate memory =>
    obtain ⟨heap₁, id, heq, hsound, -⟩ := allocate_sound hs hcond memory
    rw [step, heq, map_some, some.injEq] at hstep
    exact hstep ▸ hsound
  | free obj =>
    cases obj with
    | none =>
      rw [step, free, some.injEq] at hstep
      exact hstep ▸ hs
    | some i =>
      rw [step] at hstep
      split at hstep
      · rename_i hlive
        obtain ⟨heap₁, heq, hsound, -⟩ := free_sound hs hlive
        rw [heq, some.injEq] at hstep
        exact hstep ▸ hsound
      · cases hstep
  | suspendObject i suspend =>
    rw [step] at hstep
    split at hstep
    · rename_i hlive
      obtain ⟨heap₁, heq, hsound, -⟩ := suspendObject_sound hs hlive suspend
      rw [heq, some.injEq] at hstep
      exact hstep ▸ hsound
    · cases hstep

/-- The heap that `object_heap_init` leaves is sound, also if its growth failed. -/
theorem init_sound (objectSize idOffset : ℤ) (memory : Memory) :
    (init objectSize idOffset memory).1.Sound := by
  have hs := empty_sound objectSize idOffset
  by_cases hfail : (init objectSize idOffset memory).2 = -1
  · exact (expand_failed hs hfail).symm ▸ hs
  · have hle := andMask_offset_le idOffset
    refine (expand_sound hs hfail (show (0 : ℤ) + 16 ≤ 2 ^ 24 by decide) ?_).1
    simp only [empty]
    omega

/-- The heaps that runs from `object_heap_init` reach. -/
theorem run_sound {objectSize idOffset : ℤ}
    (hrun : Reach step Fitting (init objectSize idOffset memory).1 heap) : heap.Sound :=
  hrun.invariant (init_sound objectSize idOffset memory) fun _ _ _ => step_sound

end Heap

end HardwareIntel.PsbVideo.ObjectHeap
