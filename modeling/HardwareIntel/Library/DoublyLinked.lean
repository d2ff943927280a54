import Mathlib.Data.List.Nodup
import Mathlib.Logic.Function.Basic

/-!
# Doubly linked lists

Nodes with a link to the next node and a link to the one before. `DoublyLinked k before l` says
that the links `k` of the nodes of `l` are those of a list, the first of them pointing back to
`before`. Each operation writes a few links and keeps such a list: a node is put before the first
one, or behind the last one, or any node is taken out.
-/

namespace HardwareIntel

open List

universe u

variable {α : Type u}

/-- The links of the nodes. -/
structure Links (α : Type u) where
  next : α → Option α
  prev : α → Option α

/-- The links of the nodes are those of the list; the first node points back to `before`. -/
def DoublyLinked (k : Links α) : Option α → List α → Prop
  | _, [] => True
  | before, a :: l => k.prev a = before ∧ k.next a = l.head? ∧ DoublyLinked k (some a) l

/-- Follow the links from a node to the end; `none` if it is not reached in `fuel` rounds. -/
def follow (link : α → Option α) : ℕ → α → Option α
  | 0, _ => none
  | fuel + 1, a =>
    match link a with
    | none => some a
    | some b => follow link fuel b

theorem follow_of_none {link : α → Option α} {a : α} (h : link a = none) (fuel : ℕ) :
    follow link (fuel + 1) a = some a := by
  rw [follow, h]

namespace Links

variable [DecidableEq α] (k : Links α)

def setNext (a : α) (b : Option α) : Links α := { k with next := Function.update k.next a b }

def setPrev (a : α) (b : Option α) : Links α := { k with prev := Function.update k.prev a b }

/-- The link to the next node, of the node before if there is one. -/
def setNext? (a? b : Option α) : Links α := a?.elim k fun a => k.setNext a b

/-- The link to the node before, of the next node if there is one. -/
def setPrev? (a? b : Option α) : Links α := a?.elim k fun a => k.setPrev a b

/-- Put `new` before `a`. -/
def addBefore (a new : α) : Links α :=
  (((k.setNext? (k.prev a) (some new)).setPrev new (k.prev a)).setNext new (some a)).setPrev a
    (some new)

/-- Put `new` behind `a`. -/
def addAfter (a new : α) : Links α :=
  (((k.setPrev? (k.next a) (some new)).setNext new (k.next a)).setPrev new (some a)).setNext a
    (some new)

/-- Take `a` out. -/
def remove (a : α) : Links α :=
  (((k.setNext? (k.prev a) (k.next a)).setPrev? (k.next a) (k.prev a)).setPrev a none).setNext a
    none

/-- The node is linked to none. -/
def Alone (a : α) : Prop := k.next a = none ∧ k.prev a = none

variable {k} {a b c : α} {a? b? : Option α}

@[simp] theorem next_setNext : (k.setNext a b?).next c = if c = a then b? else k.next c :=
  Function.update_apply ..

@[simp] theorem prev_setNext : (k.setNext a b?).prev = k.prev := rfl

@[simp] theorem next_setPrev : (k.setPrev a b?).next = k.next := rfl

@[simp] theorem prev_setPrev : (k.setPrev a b?).prev c = if c = a then b? else k.prev c :=
  Function.update_apply ..

@[simp] theorem next_setNext? :
    (k.setNext? a? b?).next c = if some c = a? then b? else k.next c := by
  cases a? <;> simp [setNext?]

@[simp] theorem prev_setNext? : (k.setNext? a? b?).prev = k.prev := by
  cases a? <;> rfl

@[simp] theorem next_setPrev? : (k.setPrev? a? b?).next = k.next := by
  cases a? <;> rfl

@[simp] theorem prev_setPrev? :
    (k.setPrev? a? b?).prev c = if some c = a? then b? else k.prev c := by
  cases a? <;> simp [setPrev?]

/-- A node that is taken out is linked to none. -/
theorem alone_remove : (k.remove a).Alone a := by
  simp [Alone, remove]

end Links

namespace DoublyLinked

variable {k : Links α} {before : Option α} {l l₁ l₂ : List α} {a new : α}

theorem congr {k' : Links α} (h : DoublyLinked k before l)
    (hlinks : ∀ a ∈ l, k'.next a = k.next a ∧ k'.prev a = k.prev a) : DoublyLinked k' before l := by
  induction l generalizing before with
  | nil => trivial
  | cons a l ih =>
    obtain ⟨hnext, hprev⟩ := hlinks a (mem_cons_self ..)
    exact ⟨hprev.trans h.1, hnext.trans h.2.1, ih h.2.2 fun b hb => hlinks b (mem_cons_of_mem _ hb)⟩

/-- The links of a node lead to its neighbours. -/
theorem links_eq (h : DoublyLinked k before (l₁ ++ a :: l₂)) :
    k.prev a = l₁.getLast?.or before ∧ k.next a = l₂.head? := by
  induction l₁ generalizing before with
  | nil => exact ⟨h.1, h.2.1⟩
  | cons b l₁ ih =>
    obtain ⟨hprev, hnext⟩ := ih h.2.2
    refine ⟨hprev.trans ?_, hnext⟩
    cases l₁ with
    | nil => rfl
    | cons c l₁ => simp [List.getLast?_cons]

variable [DecidableEq α]

/-- A node is put before the first one. -/
theorem addBefore (h : DoublyLinked k none (a :: l)) (hnodup : (a :: l).Nodup)
    (hnew : new ∉ a :: l) :
    DoublyLinked (k.addBefore a new) none (new :: a :: l) := by
  obtain ⟨hprev, hnext, hrest⟩ := h
  obtain ⟨hmem, -⟩ := nodup_cons.mp hnodup
  have hne : a ≠ new := fun heq => hnew (heq ▸ mem_cons_self ..)
  refine ⟨?_, ?_, ?_, ?_, ?_⟩
  · simp [Links.addBefore, hprev, hne.symm]
  · simp [Links.addBefore]
  · simp [Links.addBefore]
  · simp [Links.addBefore, hprev, hne, hnext]
  · refine hrest.congr fun b hb => ?_
    have hba : b ≠ a := fun heq => hmem (heq ▸ hb)
    have hbn : b ≠ new := fun heq => hnew (heq ▸ mem_cons_of_mem _ hb)
    simp [Links.addBefore, hprev, hba, hbn]

/-- A node is put behind the last one. -/
theorem addAfter (h : DoublyLinked k before (l ++ [a])) (hnodup : (l ++ [a]).Nodup)
    (hnew : new ∉ l ++ [a]) : DoublyLinked (k.addAfter a new) before (l ++ [a] ++ [new]) := by
  have hlast : k.next a = none := h.links_eq.2
  have hne : a ≠ new := fun heq => hnew (heq ▸ by simp)
  induction l generalizing before with
  | nil =>
    refine ⟨?_, ?_, ?_, ?_, trivial⟩
    · simp [Links.addAfter, hlast, hne, h.1]
    · simp [Links.addAfter]
    · simp [Links.addAfter]
    · simp [Links.addAfter, hlast, hne.symm]
  | cons b l ih =>
    obtain ⟨hprev, hnext, hrest⟩ := h
    rw [cons_append, nodup_cons] at hnodup
    rw [cons_append, mem_cons, not_or] at hnew
    have hba : b ≠ a := fun heq => hnodup.1 (heq ▸ by simp)
    have hbn : b ≠ new := fun heq => hnew.1 heq.symm
    refine ⟨?_, ?_, ih hrest hnodup.2 hnew.2⟩
    · simp [Links.addAfter, hlast, hbn, hprev]
    · have hhead : (l ++ [a] ++ [new]).head? = (l ++ [a]).head? := by
        cases l <;> rfl
      refine Eq.trans ?_ hhead.symm
      rw [Links.addAfter, Links.next_setNext, if_neg hba, Links.next_setPrev, Links.next_setNext,
        if_neg hbn, Links.next_setPrev?]
      exact hnext

/-- A node is taken out. -/
theorem remove (h : DoublyLinked k before (l₁ ++ a :: l₂)) (hnodup : (l₁ ++ a :: l₂).Nodup)
    (hbefore : ∀ b ∈ before, b ∉ l₁ ++ a :: l₂) : DoublyLinked (k.remove a) before (l₁ ++ l₂) := by
  obtain ⟨hprev, hnext⟩ := h.links_eq
  induction l₁ generalizing before with
  | nil =>
    cases l₂ with
    | nil => trivial
    | cons c l₂ =>
      obtain ⟨-, -, -, hcnext, hrest⟩ := h
      simp only [nil_append, nodup_cons, mem_cons, not_or] at hnodup hbefore
      have hca : c ≠ a := fun heq => hnodup.1.1 heq.symm
      have hcb : some c ≠ before := fun heq => (hbefore c heq.symm).2.1 rfl
      refine ⟨?_, ?_, ?_⟩
      · simp [Links.remove, hnext, hprev, hca]
      · simp [Links.remove, hprev, hca, hcb, hcnext]
      · refine hrest.congr fun b hb => ?_
        have hba : b ≠ a := fun heq => hnodup.1.2 (heq ▸ hb)
        have hbc : b ≠ c := fun heq => hnodup.2.1 (heq ▸ hb)
        have hbb : some b ≠ before := fun heq => (hbefore b heq.symm).2.2 hb
        simp [Links.remove, hprev, hnext, hba, hbc, hbb]
  | cons b l₁ ih =>
    obtain ⟨hbprev, hbnext, hrest⟩ := h
    rw [cons_append, nodup_cons] at hnodup
    have hrest' := ih hrest hnodup.2
      (fun c hc => by obtain rfl := Option.some.inj hc; exact hnodup.1) hrest.links_eq.1
    have hba : b ≠ a := fun heq => hnodup.1 (heq ▸ by simp)
    have hbn : some b ≠ k.next a := by
      rw [hnext]
      intro heq
      exact hnodup.1 (mem_append_right _ (mem_cons_of_mem _ (mem_of_mem_head? heq.symm)))
    refine ⟨?_, ?_, hrest'⟩
    · simp [Links.remove, hba, hbn, hbprev]
    · cases l₁ with
      | nil => simp [Links.remove, hrest.links_eq.1, hnext, hba]
      | cons c l₁ =>
        have hbp : some b ≠ k.prev a := by
          obtain ⟨x, hx⟩ : ∃ x, (c :: l₁).getLast? = some x := ⟨_, List.getLast?_cons⟩
          rw [hrest.links_eq.1, hx, Option.some_or]
          intro heq
          obtain rfl := Option.some.inj heq
          exact hnodup.1 (mem_append_left _ (mem_of_getLast? hx))
        simp [Links.remove, hba, hbp, hbnext]

/-! ## Nodes that are linked to none -/

section Alone

variable {e : α}

theorem alone_addBefore (h : DoublyLinked k none (a :: l)) (he : k.Alone e) (hnew : e ≠ new)
    (hmem : e ∉ a :: l) : (k.addBefore a new).Alone e := by
  have hne : e ≠ a := fun heq => hmem (heq ▸ mem_cons_self ..)
  constructor
  · simp [Links.addBefore, h.1, hnew, he.1]
  · simp [Links.addBefore, hnew, hne, he.2]

theorem alone_addAfter (h : DoublyLinked k before (l ++ [a])) (he : k.Alone e) (hnew : e ≠ new)
    (hmem : e ∉ l ++ [a]) : (k.addAfter a new).Alone e := by
  have hne : e ≠ a := fun heq => hmem (heq ▸ by simp)
  have hlast : k.next a = none := h.links_eq.2
  constructor
  · simp [Links.addAfter, hnew, hne, he.1]
  · simp [Links.addAfter, hlast, hnew, he.2]

theorem alone_remove (h : DoublyLinked k none (l₁ ++ a :: l₂)) (he : k.Alone e)
    (hmem : e ∉ l₁ ++ a :: l₂) : (k.remove a).Alone e := by
  obtain ⟨hprev, hnext⟩ := h.links_eq
  have hbefore : some e ≠ k.prev a := by
    rw [hprev, Option.or_none]
    intro heq
    exact hmem (mem_append_left _ (mem_of_getLast? heq.symm))
  have hbehind : some e ≠ k.next a := by
    rw [hnext]
    intro heq
    exact hmem (mem_append_right _ (mem_cons_of_mem _ (mem_of_mem_head? heq.symm)))
  constructor
  · simp [Links.remove, hbefore, he.1]
  · simp [Links.remove, hbehind, he.2]

end Alone

end DoublyLinked

end HardwareIntel
