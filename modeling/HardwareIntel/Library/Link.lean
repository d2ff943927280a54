import Mathlib.Logic.Function.Basic

/-!
# Two-way links

Two kinds of objects that point at each other: `f a` is the partner of `a`, if it has one, and
`g b` the partner of `b`. The two pointers are kept by different objects, so that every change has
to update both.
-/

namespace HardwareIntel

universe u v

variable {α : Type u} {β : Type v} {f : α → Option β} {g : β → Option α} {a : α} {b : β}

/-- The two pointers agree. -/
def Linked (f : α → Option β) (g : β → Option α) : Prop := ∀ a b, f a = some b ↔ g b = some a

/-- No two objects have the same partner. -/
theorem Linked.unique (h : Linked f g) {a' : α} (ha : f a = some b) (ha' : f a' = some b) :
    a = a' := by
  have hb := (h a b).mp ha
  rw [(h a' b).mp ha'] at hb
  exact (Option.some.inj hb).symm

/-- Two partners let each other go. -/
theorem Linked.detach [DecidableEq α] [DecidableEq β] (h : Linked f g) (hab : f a = some b) :
    Linked (Function.update f a none) (Function.update g b none) := by
  intro a' b'
  simp only [Function.update_apply]
  split <;> split
  · simp
  · rename_i ha hb
    subst ha
    simp only [reduceCtorEq, false_iff]
    intro hg
    have hf := (h a' b').mpr hg
    rw [hab] at hf
    exact hb (Option.some.inj hf).symm
  · rename_i ha hb
    subst hb
    simp only [reduceCtorEq, iff_false]
    exact fun hf => ha (h.unique hf hab)
  · exact h a' b'

/-- Two objects without partners become partners. -/
theorem Linked.attach [DecidableEq α] [DecidableEq β] (h : Linked f g) (ha : f a = none)
    (hb : g b = none) :
    Linked (Function.update f a (some b)) (Function.update g b (some a)) := by
  intro a' b'
  simp only [Function.update_apply]
  split <;> split
  · simp_all
  · rename_i ha' hb'
    subst ha'
    have hnone : g b' ≠ some a' := by
      intro hg
      rw [(h a' b').mpr hg] at ha
      exact absurd ha (by simp)
    simp [hnone, Ne.symm hb']
  · rename_i ha' hb'
    subst hb'
    have hnone : f a' ≠ some b' := by
      intro hf
      rw [(h a' b').mp hf] at hb
      exact absurd hb (by simp)
    simp [hnone, Ne.symm ha']
  · exact h a' b'

/-- What nothing points at has no partner. -/
theorem Linked.eq_none (h : Linked f g) (hfree : ∀ a, f a ≠ some b) : g b = none := by
  cases hg : g b with
  | none => rfl
  | some a => exact absurd ((h a b).mpr hg) (hfree a)

end HardwareIntel
