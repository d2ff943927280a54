import Mathlib.Algebra.BigOperators.Group.List.Basic
import Mathlib.Algebra.Order.Group.Int
import Mathlib.Algebra.Ring.Int.Defs
import Mathlib.Tactic.SplitIfs

/-!
# Lists with brackets

`elements` splits a text at its commas outside brackets. Brackets are counted, and in a text with balanced
brackets those of every element cancel: `net_of_mem_elements`.
-/

namespace HardwareIntel

open List

/-- What a character adds to the bracket level. -/
def weight (c : Char) : ℤ := if c = '(' then 1 else if c = ')' then -1 else 0

/-- Opening brackets less closing ones. -/
def net (l : List Char) : ℤ := (l.map weight).sum

/-- Every closing bracket closes one that is open, and none of the brackets stays open. -/
def balancedFrom : ℕ → List Char → Bool
  | d, [] => d == 0
  | d, c :: l =>
    if c = '(' then balancedFrom (d + 1) l
    else if c = ')' then decide (0 < d) && balancedFrom (d - 1) l
    else balancedFrom d l

def Balanced (l : List Char) : Prop := balancedFrom 0 l = true

instance (l : List Char) : Decidable (Balanced l) := instDecidableEqBool _ _

/-- The parts between the commas outside brackets, from a bracket level on. -/
def elements : ℤ → List Char → List (List Char)
  | _, [] => [[]]
  | d, c :: l =>
    if c = ',' ∧ d = 0 then [] :: elements 0 l else (elements (d + weight c) l).modifyHead (c :: ·)

/-- A value is an element, or an element without the pair of brackets around it. -/
def IsMember (value list : List Char) : Prop :=
  value ∈ elements 0 list ∨ ('(' :: value ++ [')'] ∈ elements 0 list ∧ Balanced value)

instance (value list : List Char) : Decidable (IsMember value list) := instDecidableOr

@[simp] theorem net_nil : net [] = 0 := rfl

theorem net_cons (c : Char) (l : List Char) : net (c :: l) = weight c + net l := sum_cons

theorem net_append (l l' : List Char) : net (l ++ l') = net l + net l' := by
  rw [net, map_append, sum_append, net, net]

variable {l : List Char}

theorem net_of_balancedFrom : ∀ {d : ℕ}, balancedFrom d l = true → d + net l = 0 := by
  induction l with
  | nil =>
    intro d h
    rw [eq_of_beq h]
    rfl
  | cons c l ih =>
    intro d h
    rw [balancedFrom] at h
    rw [net_cons, weight]
    split_ifs at h with hopen hclose
    · have hl := ih h
      rw [if_pos hopen]
      omega
    · obtain ⟨hd, hl⟩ := Bool.and_eq_true_iff.mp h
      have hd := of_decide_eq_true hd
      have hl := ih hl
      rw [if_neg hopen, if_pos hclose]
      omega
    · have hl := ih h
      rw [if_neg hopen, if_neg hclose, zero_add]
      exact hl

theorem Balanced.net (h : Balanced l) : net l = 0 := by
  have hnet := net_of_balancedFrom h
  omega

/-- A bracket level that the counted part accounts for. -/
theorem modifyHead_elements (seg : List Char) (c : Char) (d : ℤ) (l : List Char) :
    ((elements d l).modifyHead (c :: ·)).modifyHead (seg ++ ·) =
      (elements d l).modifyHead ((seg ++ [c]) ++ ·) := by
  rw [modifyHead_modifyHead]
  congr 1
  funext e
  exact append_cons seg c e

theorem modifyHead_nil_append (ls : List (List Char)) : ls.modifyHead ([] ++ ·) = ls :=
  modifyHead_id ▸ rfl

theorem net_append_singleton {seg : List Char} {d : ℤ} (h : net seg = d) (c : Char) :
    net (seg ++ [c]) = d + weight c := by
  rw [net_append, h, net_cons, net_nil, add_zero]

/-- The brackets of an element cancel if those of the text do. -/
theorem net_of_mem_modifyHead : ∀ {d : ℤ} {seg e : List Char}, net seg = d →
    d + net l = 0 → e ∈ (elements d l).modifyHead (seg ++ ·) → net e = 0 := by
  induction l with
  | nil =>
    intro d seg e hseg hl he
    rw [net_nil, add_zero] at hl
    have he : e = seg := (mem_singleton.mp he).trans (append_nil seg)
    rw [he, hseg, hl]
  | cons c l ih =>
    intro d seg e hseg hl he
    rw [net_cons] at hl
    rw [elements] at he
    split_ifs at he with hcomma
    · obtain ⟨rfl, rfl⟩ := hcomma
      obtain he | he := mem_cons.mp he
      · rw [he.trans (append_nil seg), hseg]
      · have hcomma : weight ',' = 0 := by decide
        rw [hcomma, zero_add] at hl
        exact ih net_nil hl ((modifyHead_nil_append _).symm ▸ he)
    · rw [modifyHead_elements] at he
      exact ih (net_append_singleton hseg c) ((add_assoc _ _ _).trans hl) he

theorem net_of_mem_elements {list e : List Char} (h : Balanced list) (he : e ∈ elements 0 list) :
    net e = 0 :=
  net_of_mem_modifyHead net_nil ((zero_add _).trans h.net) ((modifyHead_nil_append _).symm ▸ he)

end HardwareIntel
