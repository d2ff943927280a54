import Mathlib.Data.List.Basic
import Mathlib.Logic.Nontrivial.Basic

/-!
# Writes to a memory

A write gives the cells that it covers a new value. Where all writes that cover a cell agree, their
order does not matter: `written_congr`. Otherwise the last one counts: `Settles`.
-/

namespace HardwareIntel

open List

universe u v w

variable {A : Type u} {α : Type v} {β : Type w}

/-- The new values of the cells that are covered. -/
abbrev Write (A : Type u) (α : Type v) := A → Option α

def Write.run (m : A → α) (w : Write A α) : A → α := fun a => (w a).getD (m a)

/-- The memory after writes. -/
def written (m : A → α) (ws : List (Write A α)) : A → α := ws.foldl Write.run m

/-- One of the writes gives the cell this value. -/
def Wrote (ws : List (Write A α)) (a : A) (v : α) : Prop := ∃ w ∈ ws, w a = some v

/-- The cell has this value afterwards, whatever it had before. -/
def Settles (ws : List (Write A α)) (a : A) (v : α) : Prop := ∀ m : A → α, written m ws a = v

variable {ws ws' : List (Write A α)} {a : A} {v : α}

theorem wrote_nil : ¬ Wrote ([] : List (Write A α)) a v := fun ⟨_, h, _⟩ => nomatch h

theorem wrote_cons {w : Write A α} : Wrote (w :: ws) a v ↔ w a = some v ∨ Wrote ws a v :=
  exists_mem_cons_iff ..

theorem wrote_append : Wrote (ws ++ ws') a v ↔ Wrote ws a v ∨ Wrote ws' a v := by
  simp [Wrote, or_and_right, exists_or]

theorem wrote_map {l : List β} {f : β → Write A α} :
    Wrote (l.map f) a v ↔ ∃ b ∈ l, f b a = some v := by
  simp only [Wrote, mem_map]
  constructor
  · rintro ⟨w, ⟨b, hb, rfl⟩, hv⟩
    exact ⟨b, hb, hv⟩
  · rintro ⟨b, hb, hv⟩
    exact ⟨f b, ⟨b, hb, rfl⟩, hv⟩

theorem wrote_flatMap {l : List β} {f : β → List (Write A α)} :
    Wrote (l.flatMap f) a v ↔ ∃ b ∈ l, Wrote (f b) a v := by
  simp only [Wrote, mem_flatMap]
  constructor
  · rintro ⟨w, ⟨b, hb, hw⟩, hv⟩
    exact ⟨b, hb, w, hw, hv⟩
  · rintro ⟨b, hb, w, hw, hv⟩
    exact ⟨w, ⟨b, hb, hw⟩, hv⟩

theorem written_append (m : A → α) (ws ws' : List (Write A α)) :
    written m (ws ++ ws') = written (written m ws) ws' := foldl_append

/-- Cells that are not covered stay. -/
theorem written_of_not_wrote (h : ∀ v, ¬ Wrote ws a v) (m : A → α) : written m ws a = m a := by
  induction ws generalizing m with
  | nil => rfl
  | cons w ws ih =>
    have hw : w a = none :=
      Option.eq_none_iff_forall_ne_some.mpr fun v hv => h v (wrote_cons.mpr (.inl hv))
    have hstep : w.run m a = m a := by rw [Write.run, hw, Option.getD_none]
    exact (ih (fun v hv => h v (wrote_cons.mpr (.inr hv))) (w.run m)).trans hstep

theorem Settles.append_right (h : Settles ws' a v) : Settles (ws ++ ws') a v := fun m => by
  rw [written_append]
  exact h _

theorem Settles.append_left (h : Settles ws a v) (h' : ∀ v, ¬ Wrote ws' a v) :
    Settles (ws ++ ws') a v := fun m => by
  rw [written_append, written_of_not_wrote h']
  exact h m

/-- A cell has the value on which all writes that cover it agree. -/
theorem settles_of_wrote (h : Wrote ws a v) (hagree : ∀ v', Wrote ws a v' → v' = v) :
    Settles ws a v := by
  induction ws with
  | nil => exact absurd h wrote_nil
  | cons w ws ih =>
    intro m
    by_cases hrest : ∃ v', Wrote ws a v'
    · obtain ⟨v', hv'⟩ := hrest
      obtain rfl := hagree v' (wrote_cons.mpr (.inr hv'))
      exact ih hv' (fun v'' hv'' => hagree v'' (wrote_cons.mpr (.inr hv''))) _
    · have hnone : ∀ v', ¬ Wrote ws a v' := not_exists.mp hrest
      have hw : w a = some v := (wrote_cons.mp h).resolve_right (hnone v)
      have hstep : w.run m a = v := by rw [Write.run, hw, Option.getD_some]
      exact (written_of_not_wrote hnone _).trans hstep

/-- A cell that has a value afterwards is covered. -/
theorem Settles.exists_wrote [Nontrivial α] (h : Settles ws a v) : ∃ v, Wrote ws a v := by
  by_contra hnone
  obtain ⟨v', hv'⟩ := exists_ne v
  have hkept := written_of_not_wrote (not_exists.mp hnone) fun _ => v'
  exact hv' (hkept.symm.trans (h _))

/-- In a loop, the last round that covers the cell counts. -/
theorem settles_flatMap_range {n i : ℕ} {f : ℕ → List (Write A α)} (hi : i < n)
    (h : Settles (f i) a v) (hlater : ∀ k, i < k → k < n → ∀ v, ¬ Wrote (f k) a v) :
    Settles ((List.range n).flatMap f) a v := by
  induction n with
  | zero => exact absurd hi (Nat.not_lt_zero i)
  | succ n ih =>
    rw [range_succ, flatMap_append, flatMap_singleton]
    obtain hi | rfl := Nat.lt_succ_iff_lt_or_eq.mp hi
    · exact (ih hi fun k hk hkn => hlater k hk (Nat.lt_succ_of_lt hkn)).append_left
        (hlater n hi n.lt_succ_self)
    · exact h.append_right

/-- Two sequences of writes that cover the same cells with the same values, in whatever order, have
the same effect if the values are unique. -/
theorem written_congr (h : ∀ a v, Wrote ws a v ↔ Wrote ws' a v)
    (hunique : ∀ a v v', Wrote ws a v → Wrote ws a v' → v = v') (m : A → α) :
    written m ws = written m ws' := by
  funext a
  by_cases hw : ∃ v, Wrote ws a v
  · obtain ⟨v, hv⟩ := hw
    have hleft := settles_of_wrote hv (fun v' hv' => hunique a v' v hv' hv)
    have hright := settles_of_wrote ((h a v).mp hv)
      (fun v' hv' => hunique a v' v ((h a v').mpr hv') hv)
    rw [hleft, hright]
  · have hleft : ∀ v, ¬ Wrote ws a v := not_exists.mp hw
    have hright : ∀ v, ¬ Wrote ws' a v := fun v hv => hleft v ((h a v).mpr hv)
    rw [written_of_not_wrote hleft, written_of_not_wrote hright]

end HardwareIntel
