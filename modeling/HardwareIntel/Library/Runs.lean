import Mathlib.Data.List.Basic
import Mathlib.Logic.Function.Basic
import Mathlib.Order.Basic

/-!
# Runs of a partial step function and their histories

A system is given by a partial step function `step : σ → ι → Option σ`: `none` says that the
input is not enabled in the state, or that the program stops there. `Reach step C s t` says that
`t` is reached from `s` by steps that all meet the condition `C` on the state before the step and
its input. The rules below reduce a statement about every run to one about a single step.

A loop over a list is a `List.foldl`; `foldl_rel`, `foldl_establishes` and `Along.invariant` are
the rules for what its iterations keep and establish. `foldlM_invariant` is the rule for a loop
that may fail.

The last part is about histories: lists of observations, newest first, that a state may carry.
`sinceLast start hit` and `countSince start hit` look at the part of a history after its last
`start` entry.
-/

namespace HardwareIntel

open List Option

universe u v w

/-! ## Reachability -/

section Reachability

variable {σ : Type u} {ι : Type v} {step : σ → ι → Option σ} {C D : σ → ι → Prop}

/-- The states reached from `s` by steps that all meet the condition `C`. -/
inductive Reach (step : σ → ι → Option σ) (C : σ → ι → Prop) (s : σ) : σ → Prop
  /-- The empty run. -/
  | refl : Reach step C s s
  /-- A run followed by one more step. -/
  | tail {t u : σ} {x : ι} (run : Reach step C s t) (cond : C t x) (next : step t x = some u) :
      Reach step C s u

/-- An invariant that holds initially and is kept by every admitted step holds in every state
reached. -/
theorem Reach.invariant {I : σ → Prop} {s t : σ} (hrun : Reach step C s t) (hinit : I s)
    (hstep : ∀ a x b, I a → C a x → step a x = some b → I b) : I t := by
  induction hrun with
  | refl => exact hinit
  | tail _ hcond hnext ih => exact hstep _ _ _ ih hcond hnext

/-- A run of one step. -/
theorem Reach.single {s t : σ} {x : ι} (hcond : C s x) (hnext : step s x = some t) :
    Reach step C s t :=
  .tail .refl hcond hnext

/-- Runs compose. -/
theorem Reach.trans {s t u : σ} (hst : Reach step C s t) (htu : Reach step C t u) :
    Reach step C s u := by
  induction htu with
  | refl => exact hst
  | tail _ hcond hnext ih => exact ih.tail hcond hnext

/-- Run a list of inputs, stopping at the first one that fails the test `ok` or is not enabled. -/
def exec (step : σ → ι → Option σ) (ok : σ → ι → Bool) (s : σ) : List ι → Option σ
  | [] => some s
  | x :: xs => if ok s x then (step s x).bind fun t => exec step ok t xs else none

/-- A run computed by `exec` is a run. -/
theorem Reach.of_exec {ok : σ → ι → Bool} (hok : ∀ a x, ok a x = true → C a x) (xs : List ι) :
    ∀ {s t : σ}, exec step ok s xs = some t → Reach step C s t := by
  induction xs with
  | nil =>
    intro s t h
    rw [exec, some.injEq] at h
    exact h ▸ .refl
  | cons x xs ih =>
    intro s t h
    obtain ⟨hx, h⟩ := ite_none_right_eq_some.mp h
    obtain ⟨a, ha, hrest⟩ := bind_eq_some_iff.mp h
    exact (Reach.single (hok s x hx) ha).trans (ih hrest)

/-- A run computed by `exec` whose last state passes the test `p`. -/
theorem Reach.exists_of_exec {ok : σ → ι → Bool} {p : σ → Bool} {s : σ}
    (hok : ∀ a x, ok a x = true → C a x) (xs : List ι)
    (h : (exec step ok s xs).any p = true) : ∃ t, Reach step C s t ∧ p t = true := by
  cases hrun : exec step ok s xs with
  | none => simp [hrun] at h
  | some t =>
    rw [hrun, any_some] at h
    exact ⟨t, Reach.of_exec hok xs hrun, h⟩

/-- A run given by its inputs, and what follows from what its last state is decided to be. -/
theorem Reach.exists_of_check {ok : σ → ι → Bool} (hok : ∀ a x, ok a x = true → C a x)
    {P Q : σ → Prop} [DecidablePred P] {s : σ} (hPQ : ∀ t, Reach step C s t → P t → Q t)
    (xs : List ι) (h : (exec step ok s xs).any (fun t => decide (P t)) = true) :
    ∃ t, Reach step C s t ∧ Q t := by
  obtain ⟨t, hrun, ht⟩ := Reach.exists_of_exec hok xs h
  exact ⟨t, hrun, hPQ t hrun (of_decide_eq_true ht)⟩

/-- The same for a condition that is decidable. -/
theorem Reach.exists_of_decide [∀ a x, Decidable (C a x)] {P Q : σ → Prop} [DecidablePred P]
    {s : σ} (hPQ : ∀ t, Reach step C s t → P t → Q t) (xs : List ι)
    (h : (exec step (fun a x => decide (C a x)) s xs).any (fun t => decide (P t)) = true) :
    ∃ t, Reach step C s t ∧ Q t :=
  Reach.exists_of_check (fun _ _ => of_decide_eq_true) hPQ xs h

end Reachability

/-! ## Loops -/

section Loops

variable {σ : Type u} {α : Type v} {f : σ → α → σ}

variable {l : List α}

/-- A preorder that every iteration follows is followed by the whole loop. -/
theorem foldl_rel {R : σ → σ → Prop} (hrefl : ∀ s, R s s)
    (htrans : ∀ {s t u}, R s t → R t u → R s u) (hstep : ∀ s, ∀ x ∈ l, R s (f s x)) (s : σ) :
    R s (l.foldl f s) := by
  induction l generalizing s with
  | nil => exact hrefl s
  | cons x l ih =>
    have hx : R s (f s x) := hstep s x (mem_cons_self ..)
    exact htrans hx (ih (fun s y hy => hstep s y (mem_cons_of_mem _ hy)) (f s x))

/-- What the iteration for an element establishes, and the other iterations keep, holds for every
element after the loop. -/
theorem foldl_establishes {R : σ → σ → Prop} {P : α → σ → Prop} (hrefl : ∀ s, R s s)
    (htrans : ∀ {s t u}, R s t → R t u → R s u) (hstep : ∀ s, ∀ x ∈ l, R s (f s x))
    (hest : ∀ s, ∀ x ∈ l, P x (f s x)) (hkeep : ∀ {x s t}, R s t → P x s → P x t) (s : σ) :
    ∀ x ∈ l, P x (l.foldl f s) := by
  induction l generalizing s with
  | nil => simp
  | cons y l ih =>
    have hstep' : ∀ s, ∀ x ∈ l, R s (f s x) := fun s x hx => hstep s x (mem_cons_of_mem _ hx)
    intro x hx
    rcases mem_cons.mp hx with rfl | hmem
    · exact hkeep (foldl_rel hrefl htrans hstep' (f s x)) (hest s x (mem_cons_self ..))
    · exact ih hstep' (fun s x hx => hest s x (mem_cons_of_mem _ hx)) (f s y) x hmem

/-- `P` holds of every element of a loop and the state its iteration starts from. -/
def Along (f : σ → α → σ) (P : σ → α → Prop) : σ → List α → Prop
  | _, [] => True
  | s, x :: l => P s x ∧ Along f P (f s x) l

instance Along.decidable {P : σ → α → Prop} [∀ s x, Decidable (P s x)] :
    ∀ (s : σ) (l : List α), Decidable (Along f P s l)
  | _, [] => isTrue trivial
  | s, x :: l => @instDecidableAnd _ _ _ (Along.decidable (f s x) l)

theorem Along.mono {P Q : σ → α → Prop} (h : ∀ s x, P s x → Q s x) {s : σ}
    (halong : Along f P s l) : Along f Q s l := by
  induction l generalizing s with
  | nil => trivial
  | cons x l ih => exact ⟨h s x halong.1, ih halong.2⟩

/-- An invariant that every iteration meeting `P` keeps holds after the loop. -/
theorem Along.invariant {P : σ → α → Prop} {I : σ → Prop} (hstep : ∀ s x, I s → P s x → I (f s x))
    {s : σ} (halong : Along f P s l) (hinit : I s) : I (l.foldl f s) := by
  induction l generalizing s with
  | nil => exact hinit
  | cons x l ih => exact ih halong.2 (hstep s x hinit halong.1)

/-- The values of a table after a loop has gone through `done`, if the iteration for an element with
`C` sets its entry to the new value. -/
def progress {β : Type w} [DecidableEq α] (done : List α) (C : α → Bool) (new old : α → β) (x : α) :
    β :=
  if decide (x ∈ done) && C x then new x else old x

section Progress

variable {β : Type w} [DecidableEq α] {done : List α} {C : α → Bool} {new old : α → β} {x : α}

@[simp] theorem progress_nil : progress [] C new old = old := by
  funext x
  simp [progress]

theorem progress_of_notMem (hx : x ∉ done) : progress done C new old x = old x := by
  simp [progress, hx]

theorem progress_append_of_pos (hx : C x = true) :
    progress (done ++ [x]) C new old = Function.update (progress done C new old) x (new x) := by
  funext y
  by_cases hy : y = x
  · subst hy
    simp [progress, hx]
  · simp [progress, hy]

theorem progress_append_of_neg (hx : C x = false) :
    progress (done ++ [x]) C new old = progress done C new old := by
  funext y
  by_cases hy : y = x
  · subst hy
    simp [progress, hx]
  · simp [progress, hy]

end Progress

/-- A loop that may fail does not, if every iteration goes on from what the ones before it have
established. -/
theorem foldlM_invariant {g : σ → α → Option σ} {I : List α → σ → Prop} {l : List α}
    (hstep : ∀ done x rest s, l = done ++ x :: rest → I done s →
      ∃ t, g s x = some t ∧ I (done ++ [x]) t) {s : σ} (hinit : I [] s) :
    ∃ t, l.foldlM g s = some t ∧ I l t := by
  suffices hrest : ∀ rest done s, l = done ++ rest → I done s →
      ∃ t, rest.foldlM g s = some t ∧ I l t from hrest l [] s rfl hinit
  intro rest
  induction rest with
  | nil =>
    intro done s hl hdone
    rw [append_nil] at hl
    exact ⟨s, rfl, hl ▸ hdone⟩
  | cons x rest ih =>
    intro done s hl hdone
    obtain ⟨t, ht, hnext⟩ := hstep done x rest s hl hdone
    obtain ⟨u, hu, hI⟩ := ih (done ++ [x]) t (by simp [hl]) hnext
    exact ⟨u, by simp [foldlM_cons, ht, hu], hI⟩

/-- `P` holds of every element of a loop that may fail and the state its iteration starts from. -/
def AlongM (g : σ → α → Option σ) (P : σ → α → Prop) : σ → List α → Prop
  | _, [] => True
  | s, x :: l => P s x ∧ ∀ t, g s x = some t → AlongM g P t l

section AlongM

variable {g : σ → α → Option σ} {P : σ → α → Prop} {l l' : List α} {s t : σ}

theorem AlongM.left (h : AlongM g P s (l ++ l')) : AlongM g P s l := by
  induction l generalizing s with
  | nil => trivial
  | cons x l ih => exact ⟨h.1, fun t ht => ih (h.2 t ht)⟩

/-- What holds along a loop holds along the rest of it. -/
theorem AlongM.right (h : AlongM g P s (l ++ l')) (hrun : l.foldlM g s = some t) :
    AlongM g P t l' := by
  induction l generalizing s with
  | nil =>
    obtain rfl := some.inj hrun
    exact h
  | cons x l ih =>
    obtain ⟨u, hu, hrest⟩ := bind_eq_some_iff.mp hrun
    exact ih (h.2 u hu) hrest

/-- A loop goes to its end if and only if no iteration fails, where an iteration says by `P` when it
does not, as long as an invariant holds. -/
theorem isSome_foldlM_iff {I : σ → Prop} (hiff : ∀ s x, I s → ((g s x).isSome ↔ P s x))
    (hkeep : ∀ s x t, I s → g s x = some t → I t) (hinit : I s) :
    (l.foldlM g s).isSome ↔ AlongM g P s l := by
  induction l generalizing s with
  | nil => exact ⟨fun _ => trivial, fun _ => rfl⟩
  | cons x l ih =>
    rw [foldlM_cons, AlongM, ← hiff s x hinit]
    cases hx : g s x with
    | none => exact ⟨fun h => absurd h Bool.false_ne_true, fun h => absurd h.1 Bool.false_ne_true⟩
    | some t =>
      have hrest := ih (hkeep s x t hinit hx)
      exact ⟨fun h => ⟨rfl, fun u hu => some.inj hu ▸ hrest.mp h⟩, fun h => hrest.mpr (h.2 t rfl)⟩

/-- An invariant that every iteration keeps. -/
theorem foldlM_keeps {I : σ → Prop} (hkeep : ∀ s x t, I s → g s x = some t → I t) (hinit : I s)
    (hrun : l.foldlM g s = some t) : I t := by
  induction l generalizing s with
  | nil =>
    obtain rfl := some.inj hrun
    exact hinit
  | cons x l ih =>
    obtain ⟨u, hu, hrest⟩ := bind_eq_some_iff.mp hrun
    exact ih (hkeep s x u hinit hu) hrest

end AlongM

end Loops

/-! ## Histories -/

section Histories

variable {ω : Type w} {start hit : ω → Bool}

/-- Some entry of the history is a `hit`, and no `start` entry is newer than it. -/
def sinceLast (start hit : ω → Bool) : List ω → Bool
  | [] => false
  | o :: l => hit o || (!start o && sinceLast start hit l)

/-- A `hit` since the last `start` stays one when entries are added that are no `start`. -/
theorem sinceLast_append {new old : List ω} (hnew : ∀ o ∈ new, start o = false)
    (hold : sinceLast start hit old = true) : sinceLast start hit (new ++ old) = true := by
  induction new with
  | nil => exact hold
  | cons o new ih =>
    have ho : start o = false := hnew o (mem_cons_self ..)
    have hrest := ih fun p hp => hnew p (mem_cons_of_mem _ hp)
    simp [sinceLast, ho, hrest]

/-- The number of `hit` entries newer than the last `start` entry. -/
def countSince (start hit : ω → Bool) : List ω → ℕ
  | [] => 0
  | o :: l =>
    if start o then 0 else countSince start hit l + (if hit o then 1 else 0)

/-- Entries that are neither `start` nor `hit` do not change the count. -/
theorem countSince_append {new old : List ω}
    (hnew : ∀ o ∈ new, start o = false ∧ hit o = false) :
    countSince start hit (new ++ old) = countSince start hit old := by
  induction new with
  | nil => rfl
  | cons o new ih =>
    obtain ⟨hs, hh⟩ := hnew o (mem_cons_self ..)
    have hrest := ih fun p hp => hnew p (mem_cons_of_mem _ hp)
    simp [countSince, hs, hh, hrest]

end Histories

end HardwareIntel
