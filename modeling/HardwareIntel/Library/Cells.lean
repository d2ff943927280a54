import Mathlib.Data.List.Nodup
import Mathlib.Logic.Function.Basic

/-!
# Stages over independent cells

A state has a cell for every index, and a stage treats the cells of a list of indices, where what
is done to a cell depends on this cell only. Such a stage fails iff it fails for one of the cells,
and its effect on a cell can be computed from the cell. `Cellwise` states this for a partial step
`G` on states and a partial step `F` on cells; it is kept by sequences, branches and loops.
-/

namespace HardwareIntel

open List Option

universe u v w

section Cells

variable {σ : Type u} {α : Type v} {V : Type w} {Rel : (α → V) → σ → Prop} {l : List α} {x : α}
  {G G' : σ → Option σ} {F F' : α → V → Option V}

/-- `G` treats the cells of `l`, and `F` is what it does to each of them. That the cells of a state
`s` are `c` is written `Rel c s`. -/
def Cellwise (Rel : (α → V) → σ → Prop) (l : List α) (G : σ → Option σ)
    (F : α → V → Option V) : Prop :=
  ∀ c s, Rel c s →
    match G s with
    | none => ∃ x ∈ l, F x (c x) = none
    | some t => ∃ c', Rel c' t ∧ (∀ x ∈ l, F x (c x) = some (c' x)) ∧ ∀ x, x ∉ l → c' x = c x

/-- A stage that succeeds. -/
theorem Cellwise.of_some (h : Cellwise Rel l G F) {c : α → V} {s t : σ} (hs : Rel c s)
    (ht : G s = some t) :
    ∃ c', Rel c' t ∧ (∀ x ∈ l, F x (c x) = some (c' x)) ∧ ∀ x, x ∉ l → c' x = c x := by
  have hcells := h c s hs
  rwa [ht] at hcells

/-- A stage that fails. -/
theorem Cellwise.of_none (h : Cellwise Rel l G F) {c : α → V} {s : σ} (hs : Rel c s)
    (ht : G s = none) : ∃ x ∈ l, F x (c x) = none := by
  have hcells := h c s hs
  rwa [ht] at hcells

/-- A stage fails iff it fails for one of the cells. -/
theorem Cellwise.isSome_iff (h : Cellwise Rel l G F) {c : α → V} {s : σ} (hs : Rel c s) :
    (G s).isSome = true ↔ ∀ x ∈ l, (F x (c x)).isSome = true := by
  cases ht : G s with
  | none =>
    obtain ⟨x, hx, hnone⟩ := h.of_none hs ht
    refine ⟨fun hsome => absurd hsome (by simp), fun hall => ?_⟩
    have hsome := hall x hx
    rw [hnone] at hsome
    exact absurd hsome (by simp)
  | some t =>
    obtain ⟨c', -, hcells, -⟩ := h.of_some hs ht
    exact ⟨fun _ x hx => by rw [hcells x hx]; rfl, fun _ => rfl⟩

/-- The stage that does nothing. -/
theorem Cellwise.skip : Cellwise Rel l some fun _ v => some v := by
  intro c s hs
  exact ⟨c, hs, fun _ _ => rfl, fun _ _ => rfl⟩

/-- One stage after the other. -/
theorem Cellwise.bind (h : Cellwise Rel l G F) (h' : Cellwise Rel l G' F') :
    Cellwise Rel l (fun s => (G s).bind G') fun x v => (F x v).bind (F' x) := by
  intro c s hs
  dsimp only
  cases ht : G s with
  | none =>
    obtain ⟨x, hx, hnone⟩ := h.of_none hs ht
    exact ⟨x, hx, by rw [hnone, bind_none]⟩
  | some t =>
    obtain ⟨c', hs', hcells, hrest⟩ := h.of_some hs ht
    rw [bind_some]
    cases ht' : G' t with
    | none =>
      obtain ⟨x, hx, hnone⟩ := h'.of_none hs' ht'
      exact ⟨x, hx, by rw [hcells x hx, bind_some, hnone]⟩
    | some t' =>
      obtain ⟨c'', hs'', hcells', hrest'⟩ := h'.of_some hs' ht'
      refine ⟨c'', hs'', fun x hx => ?_, fun x hx => ?_⟩
      · rw [hcells x hx, bind_some, hcells' x hx]
      · rw [hrest' x hx, hrest x hx]

/-- A stage for one cell with a branch. -/
theorem Cellwise.ite {b : σ → Bool} {B : α → V → Bool} (hb : ∀ c s, Rel c s → b s = B x (c x))
    (h : Cellwise Rel [x] G F) (h' : Cellwise Rel [x] G' F') :
    Cellwise Rel [x] (fun s => if b s then G s else G' s)
      fun x v => if B x v then F x v else F' x v := by
  intro c s hs
  have hbranch := hb c s hs
  dsimp only
  cases hB : B x (c x) with
  | true =>
    rw [hbranch, hB, if_pos rfl]
    have hcells := h c s hs
    cases ht : G s with
    | none => simpa [ht, hB] using hcells
    | some t => simpa [ht, hB] using hcells
  | false =>
    rw [hbranch, hB, if_neg (by decide)]
    have hcells := h' c s hs
    cases ht : G' s with
    | none => simpa [ht, hB] using hcells
    | some t => simpa [ht, hB] using hcells

/-- A change of one cell. -/
theorem Cellwise.update [DecidableEq α] {g : σ → σ} {f : α → V → V}
    (h : ∀ c s, Rel c s → Rel (Function.update c x (f x (c x))) (g s)) :
    Cellwise Rel [x] (fun s => some (g s)) fun x v => some (f x v) := by
  intro c s hs
  refine ⟨_, h c s hs, fun y hy => ?_, fun y hy => ?_⟩
  · obtain rfl := mem_singleton.mp hy
    rw [Function.update_self]
  · exact Function.update_of_ne (by simpa using hy) _ _

/-- A stage that fails. -/
theorem Cellwise.fail : Cellwise Rel [x] (fun _ => none) fun _ _ => none := by
  intro c s _
  exact ⟨x, mem_singleton_self x, rfl⟩

/-- A stage followed by a change of its cell. -/
theorem Cellwise.map [DecidableEq α] (h : Cellwise Rel [x] G F) {g : σ → σ} {f : α → V → V}
    (hg : ∀ c s, Rel c s → Rel (Function.update c x (f x (c x))) (g s)) :
    Cellwise Rel [x] (fun s => (G s).map g) fun x v => (F x v).map (f x) := by
  simp only [map_eq_bind]
  exact h.bind (.update hg)

/-- Two forms of one stage. -/
theorem Cellwise.congr (h : Cellwise Rel l G F) (hG : ∀ c s, Rel c s → G' s = G s)
    (hF : ∀ x ∈ l, F' x = F x) : Cellwise Rel l G' F' := by
  intro c s hs
  rw [hG c s hs]
  cases ht : G s with
  | none =>
    obtain ⟨x, hx, hnone⟩ := h.of_none hs ht
    exact ⟨x, hx, by rw [hF x hx, hnone]⟩
  | some t =>
    obtain ⟨c', hs', hcells, hrest⟩ := h.of_some hs ht
    exact ⟨c', hs', fun x hx => by rw [hF x hx, hcells x hx], hrest⟩

/-- A loop over distinct indices, in which each iteration treats its own cell. -/
theorem Cellwise.loop {g : α → σ → Option σ} (h : ∀ x ∈ l, Cellwise Rel [x] (g x) F)
    (hl : l.Nodup) : Cellwise Rel l (fun s => l.foldlM (fun s x => g x s) s) F := by
  intro c s hs
  dsimp only
  induction l generalizing c s with
  | nil => exact ⟨c, hs, by simp, by simp⟩
  | cons y l ih =>
    obtain ⟨hy, hrest⟩ := nodup_cons.mp hl
    have hfirst := h y (mem_cons_self ..)
    rw [foldlM_cons]
    cases ht : g y s with
    | none =>
      obtain ⟨z, hz, hnone⟩ := hfirst.of_none hs ht
      obtain rfl := mem_singleton.mp hz
      exact ⟨z, mem_cons_self .., hnone⟩
    | some t =>
      obtain ⟨c', hs', hcell, hsame⟩ := hfirst.of_some hs ht
      have hkept : ∀ z ∈ l, c' z = c z := fun z hz =>
        hsame z (by rw [mem_singleton]; rintro rfl; exact hy hz)
      have htail := ih (fun z hz => h z (mem_cons_of_mem _ hz)) hrest c' t hs'
      change match l.foldlM (fun s x => g x s) t with | none => _ | some t => _
      cases ht' : l.foldlM (fun s x => g x s) t with
      | none =>
        rw [ht'] at htail
        obtain ⟨z, hz, hnone⟩ := htail
        exact ⟨z, mem_cons_of_mem _ hz, by rw [← hkept z hz]; exact hnone⟩
      | some t' =>
        rw [ht'] at htail
        obtain ⟨c'', hs'', hcells, hothers⟩ := htail
        refine ⟨c'', hs'', fun z hz => ?_, fun z hz => ?_⟩
        · rcases mem_cons.mp hz with rfl | hz
          · rw [hothers z hy]
            exact hcell z (mem_singleton_self z)
          · rw [← hkept z hz]
            exact hcells z hz
        · rw [mem_cons, not_or] at hz
          rw [hothers z hz.2]
          exact hsame z (by simpa using hz.1)

end Cells

end HardwareIntel
