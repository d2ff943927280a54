import Mathlib.Data.List.Nodup
import Mathlib.Logic.Function.Basic

/-!
# Intrusive queues

A queue whose links are kept in its nodes: `next a` is the node after `a`, and the queue has a
pointer to its first and to its last node. `Path next p l` says that the nodes met from `p` on are
those of `l`, and that they end; a path that ends has no node twice. Each operation writes one or
two links and keeps such a path.
-/

namespace HardwareIntel

open List Function

universe u

variable {α : Type u} {next : α → Option α} {p head tail : Option α} {l q : List α} {a : α}

/-- From `p` on, the links go through the nodes of a list and end. -/
inductive Path (next : α → Option α) : Option α → List α → Prop
  | nil : Path next none []
  | cons {a : α} {l : List α} : Path next (next a) l → Path next (some a) (a :: l)

/-- The nodes that are met from `p` on, if they are not more than `fuel`. -/
def nodes (next : α → Option α) : ℕ → Option α → List α
  | _, none => []
  | 0, some _ => []
  | fuel + 1, some a => a :: nodes next fuel (next a)

namespace Path

theorem unique {l' : List α} (h : Path next p l) (h' : Path next p l') : l = l' := by
  induction h generalizing l' with
  | nil =>
    cases h'
    rfl
  | cons _ ih =>
    cases h' with
    | cons h' => rw [ih h']

theorem head_eq (h : Path next p l) : p = l.head? := by
  cases h <;> rfl

theorem congr {next' : α → Option α} (h : Path next p l) (hnext : ∀ a ∈ l, next' a = next a) :
    Path next' p l := by
  induction h with
  | nil => exact .nil
  | @cons a l _ ih =>
    refine .cons ?_
    rw [hnext a (mem_cons_self ..)]
    exact ih fun b hb => hnext b (mem_cons_of_mem _ hb)

/-- The path from a node of the list on. -/
theorem suffix {l₁ l₂ : List α} (h : Path next p (l₁ ++ a :: l₂)) : Path next (next a) l₂ := by
  induction l₁ generalizing p with
  | nil =>
    cases h with
    | cons h => exact h
  | cons b l₁ ih =>
    cases h with
    | cons h => exact ih h

/-- A path that ends has no node twice: from the same node on, the same nodes would come again. -/
theorem nodup (h : Path next p l) : l.Nodup := by
  induction h with
  | nil => exact nodup_nil
  | @cons a l h ih =>
    refine nodup_cons.mpr ⟨fun hmem => ?_, ih⟩
    obtain ⟨l₁, l₂, rfl⟩ := append_of_mem hmem
    have hlength := congrArg List.length (h.unique h.suffix)
    simp only [length_append, length_cons] at hlength
    omega

theorem nodes_eq (h : Path next p l) {fuel : ℕ} (hfuel : l.length ≤ fuel) :
    nodes next fuel p = l := by
  induction h generalizing fuel with
  | nil => cases fuel <;> rfl
  | @cons a l _ ih =>
    cases fuel with
    | zero => simp at hfuel
    | succ fuel =>
      rw [nodes, ih (by simpa using hfuel)]

/-- The node before a node that is not the first. -/
theorem exists_before (h : Path next p l) (hmem : a ∈ l) (hne : p ≠ some a) :
    ∃ b ∈ l, next b = some a := by
  induction h with
  | nil => cases hmem
  | @cons b l h ih =>
    have hin : a ∈ l := (mem_cons.mp hmem).resolve_left fun heq => hne (by rw [heq])
    by_cases hfirst : next b = some a
    · exact ⟨b, mem_cons_self .., hfirst⟩
    · obtain ⟨c, hc, hnext⟩ := ih hin hfirst
      exact ⟨c, mem_cons_of_mem _ hc, hnext⟩

variable [DecidableEq α]

/-- A node that is put behind the last one, whose link ends the path. -/
theorem push {t : α} (h : Path next p (l ++ [t])) (hnew : a ∉ l ++ [t]) :
    Path (Function.update (Function.update next t (some a)) a none) p (l ++ [t] ++ [a]) := by
  have hnodup := h.nodup
  have hat : a ≠ t := fun heq => hnew (heq ▸ by simp)
  induction l generalizing p with
  | nil =>
    cases h with
    | cons h =>
      refine .cons ?_
      rw [update_of_ne hat.symm, update_self]
      refine .cons ?_
      rw [update_self]
      exact .nil
  | cons b l ih =>
    cases h with
    | cons h =>
      simp only [cons_append, nodup_cons, mem_append, mem_cons] at hnodup hnew
      have hba : b ≠ a := fun heq => hnew (Or.inl heq.symm)
      have hbt : b ≠ t := fun heq => hnodup.1 (Or.inr (Or.inl heq))
      refine .cons ?_
      rw [update_of_ne hba, update_of_ne hbt]
      exact ih h (fun hmem => hnew (Or.inr (by simpa using hmem))) hnodup.2

/-- A node behind the first one is taken out: the link of the node before goes past it. -/
theorem remove {b : α} {l₁ l₂ : List α} (h : Path next p (l₁ ++ b :: a :: l₂)) :
    Path (Function.update next b (next a)) p (l₁ ++ b :: l₂) := by
  have hnodup := h.nodup
  induction l₁ generalizing p with
  | nil =>
    cases h with
    | cons h =>
      have hrest : Path next (next a) l₂ := @suffix _ _ _ a [] l₂ h
      refine .cons ?_
      rw [update_self]
      refine hrest.congr fun c hc => update_of_ne ?_ _ _
      rintro rfl
      exact (nodup_cons.mp hnodup).1 (mem_cons_of_mem _ hc)
  | cons c l₁ ih =>
    cases h with
    | cons h =>
      have hcb : c ≠ b := by
        rintro rfl
        exact (nodup_cons.mp hnodup).1 (by simp)
      refine .cons ?_
      rw [update_of_ne hcb]
      exact ih h (nodup_cons.mp hnodup).2

end Path

/-- A queue: the links lead from the first node to the last. -/
structure IsQueue (next : α → Option α) (head tail : Option α) (q : List α) : Prop where
  path : Path next head q
  tail_eq : tail = q.getLast?

namespace IsQueue

theorem head_eq (h : IsQueue next head tail q) : head = q.head? := h.path.head_eq

theorem empty : IsQueue next none none [] := ⟨.nil, rfl⟩

/-- The two pointers are both empty or both set. -/
theorem head_none_iff (h : IsQueue next head tail q) : head = none ↔ tail = none := by
  rw [h.head_eq, h.tail_eq]
  cases q <;> simp

theorem congr {next' : α → Option α} (h : IsQueue next head tail q)
    (hnext : ∀ a ∈ q, next' a = next a) : IsQueue next' head tail q :=
  ⟨h.path.congr hnext, h.tail_eq⟩

/-- The first node is taken out. -/
theorem pop (h : IsQueue next (some a) tail q) :
    ∃ l, q = a :: l ∧ IsQueue next (next a) (if next a = none then none else tail) l := by
  cases hq : q with
  | nil =>
    rw [hq] at h
    cases h.path
  | cons b l =>
    rw [hq] at h
    cases h.path with
    | cons hpath =>
      refine ⟨l, rfl, hpath, ?_⟩
      have hhead := hpath.head_eq
      have htail := h.tail_eq
      cases l with
      | nil => simp [hhead]
      | cons c l => simpa [hhead] using htail

variable [DecidableEq α]

/-- A node is put into an empty queue. -/
theorem pushEmpty (h : IsQueue next none tail q) :
    IsQueue (Function.update next a none) (some a) (some a) (q ++ [a]) := by
  have hq : q = [] := by
    have hpath := h.path
    cases hpath
    rfl
  rw [hq]
  refine ⟨.cons ?_, rfl⟩
  rw [update_self]
  exact .nil

/-- A node is put behind the last one. -/
theorem push {t : α} (h : IsQueue next head (some t) q) (hnew : a ∉ q) :
    IsQueue (Function.update (Function.update next t (some a)) a none) head (some a)
      (q ++ [a]) := by
  obtain ⟨l, rfl⟩ : ∃ l, q = l ++ [t] := List.getLast?_eq_some_iff.mp h.tail_eq.symm
  exact ⟨h.path.push hnew, by simp⟩

/-- The node `a` is taken out from behind the node `b`. -/
theorem remove {b : α} {l₁ l₂ : List α} (h : IsQueue next head tail (l₁ ++ b :: a :: l₂)) :
    IsQueue (Function.update next b (next a)) head (if tail = some a then some b else tail)
      (l₁ ++ b :: l₂) := by
  refine ⟨h.path.remove, ?_⟩
  have hnodup := h.path.nodup
  have htail := h.tail_eq
  cases hl : l₂ with
  | nil =>
    rw [hl] at htail
    simp [htail]
  | cons c l =>
    rw [hl] at htail hnodup
    have hlast : tail = (c :: l).getLast? := by
      simpa [List.getLast?_append, List.getLast?_cons] using htail
    have hne : tail ≠ some a := by
      intro heq
      have hmem : a ∈ c :: l := mem_of_getLast? (hlast.symm.trans heq)
      have hboth := (nodup_append.mp hnodup).2.1
      exact (nodup_cons.mp (nodup_cons.mp hboth).2).1 hmem
    rw [if_neg hne, hlast]
    simp [List.getLast?_append, List.getLast?_cons]

end IsQueue

end HardwareIntel
