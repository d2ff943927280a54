import Mathlib.Data.Option.Basic
import Mathlib.Order.WellFounded

/-!
# Systems driven by what happens next

A callback is called again for as long as the system has asked for it, each time with the next of
an endless sequence of inputs. `driven k` is the state after the first `k` inputs; once the system
is not active any more, inputs are not taken and the state stays as it is.

A system that lowers a measure in each step that leaves it active does not stay active forever:
this is `driven_ends`.
-/

namespace HardwareIntel

universe u v w

section Driven

variable {σ : Type u} {ι : Type v} {step : σ → ι → Option σ} {active : σ → Bool} {inputs : ℕ → ι}
  {s t : σ}

/-- The state after `k` inputs; `none` if the program stops in one of the steps. -/
def driven (step : σ → ι → Option σ) (active : σ → Bool) (inputs : ℕ → ι) (s : σ) : ℕ → Option σ
  | 0 => some s
  | k + 1 => (driven step active inputs s k).bind fun t =>
      if active t then step t (inputs k) else some t

theorem driven_add_one (k : ℕ) :
    driven step active inputs s (k + 1) = (driven step active inputs s k).bind fun t =>
      if active t then step t (inputs k) else some t := rfl

theorem driven_succ {k : ℕ} (h : driven step active inputs s k = some t)
    (hactive : active t = true) :
    driven step active inputs s (k + 1) = step t (inputs k) := by
  rw [driven_add_one, h, Option.bind_some, if_pos hactive]

/-- Nothing happens to a system that is not active. -/
theorem driven_of_not_active {k : ℕ} (h : driven step active inputs s k = some t)
    (hactive : active t = false) {j : ℕ} (hj : k ≤ j) :
    driven step active inputs s j = some t := by
  induction hj with
  | refl => exact h
  | step _ ih => rw [driven_add_one, ih, Option.bind_some, if_neg (by simp [hactive])]

/-- What the steps keep holds of all states, and no step stops the program. -/
theorem driven_invariant {I : σ → Prop} (hinit : I s)
    (hstep : ∀ t k, I t → active t = true → ∃ u, step t (inputs k) = some u ∧ I u) (k : ℕ) :
    ∃ t, driven step active inputs s k = some t ∧ I t := by
  induction k with
  | zero => exact ⟨s, rfl, hinit⟩
  | succ k ih =>
    obtain ⟨t, ht, hI⟩ := ih
    cases hactive : active t with
    | false => exact ⟨t, driven_of_not_active ht hactive (Nat.le_succ k), hI⟩
    | true =>
      obtain ⟨u, hu, hI'⟩ := hstep t k hI hactive
      exact ⟨u, (driven_succ ht hactive).trans hu, hI'⟩

/-- If each step that leaves the system active lowers a measure, it ends. -/
theorem driven_ends {α : Type w} [LT α] [WellFoundedLT α] {I : σ → Prop} {μ : σ → α} (hinit : I s)
    (hstep : ∀ t k, I t → active t = true →
      ∃ u, step t (inputs k) = some u ∧ I u ∧ (active u = true → μ u < μ t)) :
    ∃ k t, driven step active inputs s k = some t ∧ active t = false ∧ I t := by
  have hall : ∀ a, ∀ k t, driven step active inputs s k = some t → I t → μ t = a →
      ∃ j u, driven step active inputs s j = some u ∧ active u = false ∧ I u := by
    intro a
    induction a using WellFoundedLT.induction with
    | ind a ih =>
      intro k t ht hI hμ
      cases hactive : active t with
      | false => exact ⟨k, t, ht, hactive, hI⟩
      | true =>
        obtain ⟨u, hu, hI', hlt⟩ := hstep t k hI hactive
        have hnext := (driven_succ ht hactive).trans hu
        cases hactive' : active u with
        | false => exact ⟨k + 1, u, hnext, hactive', hI'⟩
        | true => exact ih (μ u) (hμ ▸ hlt hactive') (k + 1) u hnext hI' rfl
  exact hall (μ s) 0 s rfl hinit rfl

/-! ### Inputs of a kind -/

/-- The inputs behind the first `k`. -/
theorem driven_add {k : ℕ} (h : driven step active inputs s k = some t) (j : ℕ) :
    driven step active inputs s (k + j) =
      driven step active (fun i => inputs (k + i)) t j := by
  induction j with
  | zero => exact h
  | succ j ih => rw [← Nat.add_assoc, driven_add_one, ih, driven_add_one]

/-- All sequences of inputs with `P` lead from `s` to `t`. -/
def Leads (step : σ → ι → Option σ) (active : σ → Bool) (P : ι → Prop) (s t : σ) : Prop :=
  ∀ inputs : ℕ → ι, (∀ k, P (inputs k)) → ∃ k, driven step active inputs s k = some t

variable {P : ι → Prop} {u : σ}

theorem Leads.refl (s : σ) : Leads step active P s s := fun _ _ => ⟨0, rfl⟩

theorem Leads.of_step (hactive : active s = true) (h : ∀ i, P i → step s i = some t) :
    Leads step active P s t :=
  fun inputs hinputs => ⟨1, (driven_succ rfl hactive).trans (h (inputs 0) (hinputs 0))⟩

theorem Leads.trans (hst : Leads step active P s t) (htu : Leads step active P t u) :
    Leads step active P s u := by
  intro inputs hinputs
  obtain ⟨k, hk⟩ := hst inputs hinputs
  obtain ⟨j, hj⟩ := htu (fun i => inputs (k + i)) fun i => hinputs (k + i)
  exact ⟨k + j, (driven_add hk j).trans hj⟩

/-- There is only one state in which a run can end. -/
theorem driven_end_unique {j k : ℕ} (ht : driven step active inputs s j = some t)
    (htactive : active t = false) (hu : driven step active inputs s k = some u)
    (huactive : active u = false) : t = u := by
  rcases Nat.le_total j k with h | h
  · exact Option.some.inj ((driven_of_not_active ht htactive h).symm.trans hu)
  · exact Option.some.inj (ht.symm.trans (driven_of_not_active hu huactive h))

end Driven

end HardwareIntel
