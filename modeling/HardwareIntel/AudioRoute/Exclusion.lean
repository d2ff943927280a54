import HardwareIntel.AudioRoute.RouteManager
import Mathlib.Algebra.Group.Nat.Defs

/-!
# Exclusion between the audio routes

After a round, two routes that are used and have different identifiers should share no port, and
should use no two ports of one group. Nothing checks this: it has to follow from the blocking that
comes with every route that is chosen. `RoutingInvariant` is what the blocking maintains in the
middle of a round, and `routes_exclusive` draws the conclusion for every run.

The blocked attribute of a port is not reset between rounds. A port that was blocked in an earlier
round is therefore not blocked again, and its routes, which were made available by the reset, stay
so; `routes_not_exclusive` is the second round of such a platform.
-/

namespace HardwareIntel.AudioRoute

variable {pf : Platform}

/-- Two ports belong to one group. -/
def Platform.Grouped (pf : Platform) (p q : ℕ) : Prop := ∃ g ∈ pf.groups, p ∈ g ∧ q ∈ g

/-- Two used routes with different identifiers share no port and use no two ports of one group. -/
def Exclusive (s : RouteManager pf) : Prop :=
  ∀ r₁ r₂, (s.route r₁).used = true → (s.route r₂).used = true →
    (pf.route r₁).id ≠ (pf.route r₂).id →
    ∀ p ∈ (pf.route r₁).ports, ∀ q ∈ (pf.route r₂).ports, p ≠ q ∧ ¬ pf.Grouped p q

/-! ## What blocking does -/

/-- From `s` to `t` routes and ports are blocked, and nothing else that matters here is changed. A
port that was blocked on the way had all its routes blocked. -/
structure Blocking (s t : RouteManager pf) : Prop where
  used : ∀ r, (t.route r).used = (s.route r).used
  blocked : ∀ r, (s.route r).blocked = true → (t.route r).blocked = true
  portUsed : ∀ p, (t.port p).used = (s.port p).used
  portBlocked : ∀ p, (s.port p).blocked = true → (t.port p).blocked = true
  users : ∀ p, (t.port p).blocked = true →
    (s.port p).blocked = true ∨ ∀ r, p ∈ (pf.route r).ports → (t.route r).blocked = true

theorem Blocking.refl (s : RouteManager pf) : Blocking s s :=
  ⟨fun _ => rfl, fun _ h => h, fun _ => rfl, fun _ h => h, fun _ h => .inl h⟩

variable {s : RouteManager pf} {r : Fin pf.size}

theorem Blocking.trans {t u : RouteManager pf} (hst : Blocking s t) (htu : Blocking t u) :
    Blocking s u where
  used r := (htu.used r).trans (hst.used r)
  blocked r h := htu.blocked r (hst.blocked r h)
  portUsed p := (htu.portUsed p).trans (hst.portUsed p)
  portBlocked p h := htu.portBlocked p (hst.portBlocked p h)
  users p h := by
    rcases htu.users p h with hp | hp
    · rcases hst.users p hp with hs | hs
      · exact .inl hs
      · exact .inr fun r hr => htu.blocked r (hs r hr)
    · exact .inr hp

theorem mem_users {p : ℕ} : r ∈ pf.users p ↔ p ∈ (pf.route r).ports := by
  simp [Platform.users]

theorem route_setRoute (r r' : Fin pf.size) (f : RouteState → RouteState) (s : RouteManager pf) :
    (setRoute r f s).route r' = if r' = r then f (s.route r) else s.route r' := by
  simp [setRoute, Function.update_apply]

theorem port_setPort (p p' : ℕ) (f : PortState pf.size → PortState pf.size)
    (s : RouteManager pf) :
    (setPort p f s).port p' = if p' = p then f (s.port p) else s.port p' := by
  simp [setPort, Function.update_apply]

theorem blocking_routeSetBlocked (r : Fin pf.size) (s : RouteManager pf) :
    Blocking s (routeSetBlocked r s) where
  used r' := by
    rw [routeSetBlocked, route_setRoute]
    split <;> simp [*]
  blocked r' h := by
    rw [routeSetBlocked, route_setRoute]
    split <;> simp [*]
  portUsed _ := rfl
  portBlocked _ h := h
  users _ h := .inl h

theorem blocked_routeSetBlocked (r : Fin pf.size) (s : RouteManager pf) :
    ((routeSetBlocked r s).route r).blocked = true := by
  simp [routeSetBlocked, route_setRoute]

/-- The loop that blocks routes blocks them all. -/
theorem blocking_foldl_routeSetBlocked (rs : List (Fin pf.size)) (s : RouteManager pf) :
    Blocking s (rs.foldl (fun s r => routeSetBlocked r s) s) ∧
      ∀ r ∈ rs, ((rs.foldl (fun s r => routeSetBlocked r s) s).route r).blocked = true :=
  ⟨foldl_rel Blocking.refl Blocking.trans (fun s r _ => blocking_routeSetBlocked r s) s,
    foldl_establishes (P := fun r s => (s.route r).blocked = true) Blocking.refl Blocking.trans
      (fun s r _ => blocking_routeSetBlocked r s) (fun s r _ => blocked_routeSetBlocked r s)
      (fun h hr => h.blocked _ hr) s⟩

/-- A port that is asked to be blocked is blocked afterwards; if it was not before, so are all its
routes. -/
theorem blocking_portSetBlocked (p : ℕ) (s : RouteManager pf) :
    Blocking s (portSetBlocked p true s) ∧ ((portSetBlocked p true s).port p).blocked = true := by
  unfold portSetBlocked
  split
  case isTrue h => exact ⟨.refl s, h⟩
  case isFalse h =>
    obtain ⟨hblocking, hall⟩ := blocking_foldl_routeSetBlocked (pf.users p)
      (setPort p (fun x => { x with blocked := true }) s)
    have hport : ∀ q, ((setPort p (fun x => { x with blocked := true }) s).port q).blocked = true →
        q = p ∨ (s.port q).blocked = true := by
      intro q hq
      rw [port_setPort] at hq
      split at hq
      · exact .inl ‹_›
      · exact .inr hq
    refine ⟨⟨?_, ?_, ?_, ?_, ?_⟩, ?_⟩
    · exact hblocking.used
    · exact hblocking.blocked
    · intro q
      refine (hblocking.portUsed q).trans ?_
      rw [port_setPort]
      split <;> simp [*]
    · intro q hq
      refine hblocking.portBlocked q ?_
      rw [port_setPort]
      split <;> simp [*]
    · -- the routes of the port itself have just been blocked
      intro q hq
      rcases hblocking.users q hq with hmark | hblocked
      · rcases hport q hmark with rfl | hs
        · exact .inr fun r hr => hall r (mem_users.mpr hr)
        · exact .inl hs
      · exact .inr hblocked
    · refine hblocking.portBlocked p ?_
      simp [port_setPort]

theorem blocking_blockMutualExclusivePort (p : ℕ) (group : List ℕ) (s : RouteManager pf) :
    Blocking s (blockMutualExclusivePort p group s) ∧
      ∀ q ∈ group, p ≠ q → ((blockMutualExclusivePort p group s).port q).blocked = true := by
  have hstep : ∀ (s : RouteManager pf), ∀ q ∈ group,
      Blocking s (if p ≠ q then portSetBlocked q true s else s) := by
    intro s q _
    split
    · exact (blocking_portSetBlocked q s).1
    · exact .refl s
  refine ⟨foldl_rel Blocking.refl Blocking.trans hstep s, ?_⟩
  refine foldl_establishes (P := fun q s => p ≠ q → (s.port q).blocked = true) Blocking.refl
    Blocking.trans hstep ?_ (fun h hq hne => h.portBlocked _ (hq hne)) s
  intro s q _ hne
  rw [if_pos hne]
  exact (blocking_portSetBlocked q s).2

/-! ## What the use of a port does -/

theorem blocking_blockGroups (p : ℕ) (s : RouteManager pf) :
    let t := (pf.groupsOf p).foldl (fun s group => blockMutualExclusivePort p group s) s
    Blocking s t ∧ ∀ q, p ≠ q → pf.Grouped p q → (t.port q).blocked = true := by
  refine ⟨foldl_rel Blocking.refl Blocking.trans
    (fun s group _ => (blocking_blockMutualExclusivePort p group s).1) s, ?_⟩
  intro q hne ⟨g, hg, hp, hq⟩
  have hmem : g ∈ pf.groupsOf p := by simp [Platform.groupsOf, hg, hp]
  exact foldl_establishes (P := fun group s => ∀ q ∈ group, p ≠ q → (s.port q).blocked = true)
    Blocking.refl Blocking.trans
    (fun s group _ => (blocking_blockMutualExclusivePort p group s).1)
    (fun s group _ => (blocking_blockMutualExclusivePort p group s).2)
    (fun h hall q hq hne => h.portBlocked q (hall q hq hne)) s g hmem q hq hne

/-- The other users of a port are blocked, unless they have the identifier of the route. -/
theorem blocking_blockUsers (r : Fin pf.size) (p : ℕ) (s : RouteManager pf) :
    let t := (pf.users p).foldl (fun s r' =>
      if r' = r ∨ (pf.route r).id = (pf.route r').id then s else routeSetBlocked r' s) s
    Blocking s t ∧ ∀ r', p ∈ (pf.route r').ports → (pf.route r).id ≠ (pf.route r').id →
      (t.route r').blocked = true := by
  have hstep : ∀ (s : RouteManager pf), ∀ r' ∈ pf.users p, Blocking s
      (if r' = r ∨ (pf.route r).id = (pf.route r').id then s else routeSetBlocked r' s) := by
    intro s r' _
    split
    · exact .refl s
    · exact blocking_routeSetBlocked r' s
  refine ⟨foldl_rel Blocking.refl Blocking.trans hstep s, ?_⟩
  intro r' hr' hid
  refine foldl_establishes
    (P := fun r' s => (pf.route r).id ≠ (pf.route r').id → (s.route r').blocked = true)
    Blocking.refl Blocking.trans hstep ?_ (fun h hr hne => h.blocked _ (hr hne)) s r'
    (mem_users.mpr hr') hid
  intro s r' _ hne
  have hother : ¬ (r' = r ∨ (pf.route r).id = (pf.route r').id) := by
    rintro (rfl | heq)
    · exact hne rfl
    · exact hne heq
  rw [if_neg hother]
  exact blocked_routeSetBlocked r' s

/-- The port has been taken for the route: the other users of the port are blocked, and so are the
ports of its groups. -/
def Taken (r : Fin pf.size) (p : ℕ) (t : RouteManager pf) : Prop :=
  (∀ r', p ∈ (pf.route r').ports → (pf.route r).id ≠ (pf.route r').id →
    (t.route r').blocked = true) ∧
  ∀ q, p ≠ q → pf.Grouped p q → (t.port q).blocked = true

/-- From `s` to `t` some ports of the route are taken for it. -/
structure Taking (r : Fin pf.size) (s t : RouteManager pf) : Prop where
  used : ∀ r, (t.route r).used = (s.route r).used
  blocked : ∀ r, (s.route r).blocked = true → (t.route r).blocked = true
  portBlocked : ∀ p, (s.port p).blocked = true → (t.port p).blocked = true
  users : ∀ p, (t.port p).blocked = true →
    (s.port p).blocked = true ∨ ∀ r, p ∈ (pf.route r).ports → (t.route r).blocked = true
  portUsed : ∀ p, (s.port p).used = true → (t.port p).used = true
  taken : ∀ p, (t.port p).used = true →
    (s.port p).used = true ∨ (p ∈ (pf.route r).ports ∧ Taken r p t)

theorem Taking.refl (r : Fin pf.size) (s : RouteManager pf) : Taking r s s :=
  ⟨fun _ => rfl, fun _ h => h, fun _ h => h, fun _ h => .inl h, fun _ h => h, fun _ h => .inl h⟩

theorem Taking.trans {t u : RouteManager pf} (hst : Taking r s t) (htu : Taking r t u) :
    Taking r s u where
  used r := (htu.used r).trans (hst.used r)
  blocked r h := htu.blocked r (hst.blocked r h)
  portBlocked p h := htu.portBlocked p (hst.portBlocked p h)
  users p h := by
    rcases htu.users p h with hp | hp
    · rcases hst.users p hp with hs | hs
      · exact .inl hs
      · exact .inr fun r hr => htu.blocked r (hs r hr)
    · exact .inr hp
  portUsed p h := htu.portUsed p (hst.portUsed p h)
  taken p h := by
    rcases htu.taken p h with hp | hp
    · rcases hst.taken p hp with hs | ⟨hmem, hfree, hgroup⟩
      · exact .inl hs
      · exact .inr ⟨hmem, fun r' hr' hid => htu.blocked r' (hfree r' hr' hid),
          fun q hne hq => htu.portBlocked q (hgroup q hne hq)⟩
    · exact .inr hp

/-- The use of a port takes it for the route. -/
theorem taking_portSetUsed {p : ℕ} (hp : p ∈ (pf.route r).ports) (s : RouteManager pf) :
    Taking r s (portSetUsed r p s) ∧ ((portSetUsed r p s).port p).used = true := by
  unfold portSetUsed
  split
  case isTrue h => exact ⟨.refl r s, h⟩
  case isFalse h =>
    let s₁ : RouteManager pf := setPort p (fun x => { x with
      used := true
      attached := Function.update x.attached (pf.route r).isOut (some r) }) s
    obtain ⟨hgroups, hmarked⟩ := blocking_blockGroups p s₁
    obtain ⟨husers, hfree⟩ := blocking_blockUsers r p
      ((pf.groupsOf p).foldl (fun s group => blockMutualExclusivePort p group s) s₁)
    have hblocking := hgroups.trans husers
    have hsame : ∀ q, (s₁.port q).blocked = (s.port q).blocked := by
      intro q
      simp only [s₁, port_setPort]
      split <;> simp [*]
    have hused : ∀ q, (s₁.port q).used = true ↔ (s.port q).used = true ∨ q = p := by
      intro q
      simp only [s₁, port_setPort]
      split <;> simp [*]
    refine ⟨⟨hblocking.used, hblocking.blocked, ?_, ?_, ?_, ?_⟩, ?_⟩
    · exact fun q hq => hblocking.portBlocked q ((hsame q).trans hq)
    · intro q hq
      rw [← hsame q]
      exact hblocking.users q hq
    · exact fun q hq => (hblocking.portUsed q).trans ((hused q).mpr (.inl hq))
    · intro q hq
      rcases (hused q).mp ((hblocking.portUsed q).symm.trans hq) with hs | rfl
      · exact .inl hs
      · exact .inr ⟨hp, hfree, fun q' hne hq' => husers.portBlocked q' (hmarked q' hne hq')⟩
    · exact (hblocking.portUsed p).trans ((hused p).mpr (.inr rfl))

/-- A route that becomes used takes all its ports. -/
theorem taking_routeSetUsed (r : Fin pf.size) (s : RouteManager pf)
    (h : (s.route r).used = false) :
    Taking r (setRoute r (fun x => { x with used := true }) s) (routeSetUsed r true s) ∧
      ∀ p ∈ (pf.route r).ports, ((routeSetUsed r true s).port p).used = true := by
  have heq : routeSetUsed r true s = (pf.route r).ports.foldl (fun s p => portSetUsed r p s)
      (setRoute r (fun x => { x with used := true }) s) := by
    simp [routeSetUsed, h]
  rw [heq]
  exact ⟨foldl_rel (Taking.refl r) Taking.trans (fun s p hp => (taking_portSetUsed hp s).1) _,
    foldl_establishes (P := fun p s => (s.port p).used = true) (Taking.refl r) Taking.trans
      (fun s p hp => (taking_portSetUsed hp s).1) (fun s p hp => (taking_portSetUsed hp s).2)
      (fun h hq => h.portUsed _ hq) _⟩

/-! ## The invariant of a round -/

/-- What holds at every point of a round: a used route has blocked the routes it excludes, and a
used port belongs to a used route. -/
structure RoutingInvariant (s : RouteManager pf) : Prop where
  sharing : ∀ r₁ r₂, (s.route r₁).used = true → (pf.route r₁).id ≠ (pf.route r₂).id →
    ∀ p ∈ (pf.route r₁).ports, p ∈ (pf.route r₂).ports → (s.route r₂).blocked = true
  grouped : ∀ r₁ r₂, (s.route r₁).used = true → (pf.route r₁).id ≠ (pf.route r₂).id →
    ∀ p ∈ (pf.route r₁).ports, ∀ q ∈ (pf.route r₂).ports, p ≠ q → pf.Grouped p q →
      (s.route r₂).blocked = true
  portUsed : ∀ p, (s.port p).used = true → ∃ r, (s.route r).used = true ∧ p ∈ (pf.route r).ports
  exclusive : Exclusive s

/-- A port that the use of the route asks to block, and that is marked as blocked already, has no
route of another identifier left. -/
def NoLeftover (s : RouteManager pf) (r : Fin pf.size) : Prop :=
  ∀ p ∈ (pf.route r).ports, (s.port p).used = false →
    ∀ q, p ≠ q → pf.Grouped p q → (s.port q).blocked = true →
      ∀ r', q ∈ (pf.route r').ports → (pf.route r).id ≠ (pf.route r').id →
        (s.route r').blocked = true

/-- When the route is about to be chosen, the marks of the ports it blocks were made in this
round. -/
def MarksFresh (s : RouteManager pf) (r : Fin pf.size) : Prop :=
  selected r s = true → NoLeftover s r

/-- A state in which nothing is used satisfies the invariant. -/
theorem routingInvariant_of_unused (hroute : ∀ r, (s.route r).used = false)
    (hport : ∀ p, (s.port p).used = false) : RoutingInvariant s where
  sharing r₁ _ h := absurd h (by simp [hroute r₁])
  grouped r₁ _ h := absurd h (by simp [hroute r₁])
  portUsed p h := absurd h (by simp [hport p])
  exclusive r₁ _ h := absurd h (by simp [hroute r₁])

/-- The invariant depends on the used and blocked attributes only, and more routes may be
blocked. -/
theorem RoutingInvariant.mono {t : RouteManager pf} (h : RoutingInvariant s)
    (hused : ∀ r, (t.route r).used = (s.route r).used)
    (hblocked : ∀ r, (s.route r).blocked = true → (t.route r).blocked = true)
    (hport : ∀ p, (t.port p).used = (s.port p).used) : RoutingInvariant t where
  sharing r₁ r₂ hr₁ hid p hp hp' :=
    hblocked r₂ (h.sharing r₁ r₂ ((hused r₁).symm.trans hr₁) hid p hp hp')
  grouped r₁ r₂ hr₁ hid p hp q hq hne hg :=
    hblocked r₂ (h.grouped r₁ r₂ ((hused r₁).symm.trans hr₁) hid p hp q hq hne hg)
  portUsed p hp := by
    obtain ⟨r, hr, hmem⟩ := h.portUsed p ((hport p).symm.trans hp)
    exact ⟨r, (hused r).trans hr, hmem⟩
  exclusive r₁ r₂ hr₁ hr₂ :=
    h.exclusive r₁ r₂ ((hused r₁).symm.trans hr₁) ((hused r₂).symm.trans hr₂)

theorem Platform.Grouped.symm {p q : ℕ} (h : pf.Grouped p q) : pf.Grouped q p := by
  obtain ⟨g, hg, hp, hq⟩ := h
  exact ⟨g, hg, hq, hp⟩

/-- A route that is not blocked is excluded by no used route. -/
theorem RoutingInvariant.free (h : RoutingInvariant s) {r₀ : Fin pf.size}
    (hfree : (s.route r).blocked = false) (hr₀ : (s.route r₀).used = true)
    (hid : (pf.route r₀).id ≠ (pf.route r).id) :
    ∀ p ∈ (pf.route r₀).ports, ∀ q ∈ (pf.route r).ports, p ≠ q ∧ ¬ pf.Grouped p q := by
  intro p hp q hq
  have hne : p ≠ q := by
    rintro rfl
    have hblocked := h.sharing r₀ r hr₀ hid p hp hq
    simp [hfree] at hblocked
  refine ⟨hne, fun hg => ?_⟩
  have hblocked := h.grouped r₀ r hr₀ hid p hp q hq hne hg
  simp [hfree] at hblocked

/-- A route that is chosen is not blocked. -/
theorem not_blocked_of_selected (h : selected r s = true) : (s.route r).blocked = false := by
  unfold selected at h
  split at h
  · obtain ⟨st, hst⟩ := Option.isSome_iff_exists.mp h
    have hfound := List.find?_some hst
    simp only [streamRouteIsApplicable, routeIsApplicable, Bool.and_eq_true] at hfound
    simpa using hfound.2.1.1.1.1
  · simp only [routeIsApplicable, Bool.and_eq_true] at h
    simpa using h.1

/-- A route that takes its ports blocks what it excludes. -/
theorem RoutingInvariant.take {t : RouteManager pf} (h : RoutingInvariant s)
    (hfree : (s.route r).blocked = false) (hfresh : NoLeftover s r)
    (htaking : Taking r (setRoute r (fun x => { x with used := true }) s) t)
    (hports : ∀ p ∈ (pf.route r).ports, (t.port p).used = true) : RoutingInvariant t := by
  have hused : ∀ r', (t.route r').used = true ↔ r' = r ∨ (s.route r').used = true := by
    intro r'
    rw [htaking.used, route_setRoute]
    split <;> simp [*]
  have hblocked : ∀ r', (s.route r').blocked = true → (t.route r').blocked = true := by
    intro r' hr'
    refine htaking.blocked r' ?_
    rw [route_setRoute]
    split
    · subst r'
      simpa using hr'
    · exact hr'
  -- a port that was in use before belongs to a route with the same identifier
  have hsame : ∀ p ∈ (pf.route r).ports, (s.port p).used = true →
      ∃ r₀, (s.route r₀).used = true ∧ p ∈ (pf.route r₀).ports ∧
        (pf.route r₀).id = (pf.route r).id := by
    intro p hp hpused
    obtain ⟨r₀, hr₀, hmem⟩ := h.portUsed p hpused
    refine ⟨r₀, hr₀, hmem, ?_⟩
    by_contra hid
    exact (h.free hfree hr₀ hid p hmem p hp).1 rfl
  have htaken : ∀ p ∈ (pf.route r).ports, (s.port p).used = true ∨ Taken r p t := by
    intro p hp
    rcases htaking.taken p (hports p hp) with hs | ⟨-, hdone⟩
    · exact .inl hs
    · exact .inr hdone
  refine ⟨?_, ?_, ?_, ?_⟩
  · intro r₁ r₂ hr₁ hid p hp hp'
    rcases (hused r₁).mp hr₁ with rfl | hr₁
    · rcases htaken p hp with hs | hdone
      · obtain ⟨r₀, hr₀, hmem, heq⟩ := hsame p hp hs
        exact hblocked r₂ (h.sharing r₀ r₂ hr₀ (heq ▸ hid) p hmem hp')
      · exact hdone.1 r₂ hp' hid
    · exact hblocked r₂ (h.sharing r₁ r₂ hr₁ hid p hp hp')
  · intro r₁ r₂ hr₁ hid p hp q hq hne hg
    rcases (hused r₁).mp hr₁ with rfl | hr₁
    · cases hs : (s.port p).used with
      | true =>
        obtain ⟨r₀, hr₀, hmem, heq⟩ := hsame p hp hs
        exact hblocked r₂ (h.grouped r₀ r₂ hr₀ (heq ▸ hid) p hmem q hq hne hg)
      | false =>
        have hdone : Taken r₁ p t := by
          rcases htaken p hp with hs' | hdone
          · exact absurd hs' (by simp [hs])
          · exact hdone
        -- the mark of the other port is an old one, or its routes were blocked with it
        rcases htaking.users q (hdone.2 q hne hg) with hmark | hall
        · exact hblocked r₂ (hfresh p hp hs q hne hg hmark r₂ hq hid)
        · exact hall r₂ hq
    · exact hblocked r₂ (h.grouped r₁ r₂ hr₁ hid p hp q hq hne hg)
  · intro p hp
    rcases htaking.taken p hp with hs | ⟨hmem, -⟩
    · obtain ⟨r₀, hr₀, hmem⟩ := h.portUsed p hs
      exact ⟨r₀, (hused r₀).mpr (.inr hr₀), hmem⟩
    · exact ⟨r, (hused r).mpr (.inl rfl), hmem⟩
  · intro r₁ r₂ hr₁ hr₂ hid p hp q hq
    rcases (hused r₁).mp hr₁ with rfl | hs₁
    · rcases (hused r₂).mp hr₂ with rfl | hs₂
      · exact absurd rfl hid
      · obtain ⟨hne, hg⟩ := h.free hfree hs₂ hid.symm q hq p hp
        exact ⟨hne.symm, fun hpq => hg hpq.symm⟩
    · rcases (hused r₂).mp hr₂ with rfl | hs₂
      · exact h.free hfree hs₁ hid p hp q hq
      · exact h.exclusive r₁ r₂ hs₁ hs₂ hid p hp q hq

/-! ## Rounds and runs -/

/-- The choice of a stream does not touch what the invariant is about. -/
theorem setStreamForRoute_frame (r : Fin pf.size) (s : RouteManager pf) :
    (∀ r', ((setStreamForRoute r s).route r').used = (s.route r').used ∧
      ((setStreamForRoute r s).route r').blocked = (s.route r').blocked) ∧
      (setStreamForRoute r s).port = s.port := by
  unfold setStreamForRoute
  split
  · refine ⟨fun r' => ?_, rfl⟩
    simp only [setStream, setStreamState, route_setRoute]
    split <;> simp [*]
  · exact ⟨fun _ => ⟨rfl, rfl⟩, rfl⟩

/-- One iteration of a round keeps the invariant. -/
theorem RoutingInvariant.checkRoute (h : RoutingInvariant s) (hfresh : MarksFresh s r) :
    RoutingInvariant (checkRoute s r) := by
  obtain ⟨hroute, hport⟩ := setStreamForRoute_frame r s
  have h₁ : RoutingInvariant (setStreamForRoute r s) :=
    h.mono (fun r' => (hroute r').1) (fun r' hr' => (hroute r').2.trans hr')
      (fun p => by rw [hport])
  have hprepared : RoutingInvariant (routeSetUsed r (selected r s) (setStreamForRoute r s)) := by
    cases hselected : selected r s with
    | false => simpa [routeSetUsed] using h₁
    | true =>
      cases hused : ((setStreamForRoute r s).route r).used with
      | true => simpa [routeSetUsed, hused] using h₁
      | false =>
        obtain ⟨htaking, hports⟩ := taking_routeSetUsed r (setStreamForRoute r s) hused
        have hfree : ((setStreamForRoute r s).route r).blocked = false :=
          (hroute r).2.trans (not_blocked_of_selected hselected)
        have hnone : NoLeftover (setStreamForRoute r s) r := by
          intro p hp hpused q hne hg hmark r' hr' hid
          rw [hport] at hpused hmark
          rw [(hroute r').2]
          exact hfresh hselected p hp hpused q hne hg hmark r' hr' hid
        exact h₁.take hfree hnone htaking hports
  exact hprepared.mono (fun _ => rfl) (fun _ hr => hr) (fun _ => rfl)

theorem used_routeResetAvailability (r r' : Fin pf.size) (s : RouteManager pf)
    (h : r' = r ∨ (s.route r').used = false) :
    ((routeResetAvailability r s).route r').used = false := by
  unfold routeResetAvailability
  split
  · simp only [setStreamState, route_setRoute]
    split
    · rfl
    · exact h.resolve_left ‹_›
  · simp only [route_setRoute]
    split
    · rfl
    · exact h.resolve_left ‹_›

/-- After the reset nothing is used. -/
theorem routingInvariant_resetRouting (s : RouteManager pf) : RoutingInvariant (resetRouting s) := by
  refine routingInvariant_of_unused ?_ (fun _ => rfl)
  intro r
  refine foldl_establishes
    (R := fun s t : RouteManager pf => ∀ r, (s.route r).used = false → (t.route r).used = false)
    (P := fun r s => (s.route r).used = false) (fun _ _ h => h)
    (fun hst htu r hr => htu r (hst r hr)) ?_ ?_ (fun h hr => h _ hr) _ r (List.mem_finRange r)
  · exact fun s r _ r' hr' => used_routeResetAvailability r r' s (.inr hr')
  · exact fun s r _ => used_routeResetAvailability r r s (.inl rfl)

/-- In a round, whenever a route is about to be chosen, the marks of the ports it blocks were made
in this round. -/
def RoundMarksFresh (s : RouteManager pf) : Operation pf → Prop
  | .round => Along checkRoute MarksFresh (resetRouting s) (List.finRange pf.size)
  | _ => True

theorem RoutingInvariant.setRoute (h : RoutingInvariant s) {f : RouteState → RouteState}
    (hused : ∀ x, (f x).used = x.used) (hblocked : ∀ x, (f x).blocked = x.blocked) :
    RoutingInvariant (setRoute r f s) := by
  refine h.mono ?_ ?_ (fun _ => rfl)
  · intro r'
    rw [route_setRoute]
    split <;> simp [*]
  · intro r' hr'
    rw [route_setRoute]
    split
    · subst r'
      rw [hblocked]
      exact hr'
    · exact hr'

theorem RoutingInvariant.portSetBlocked (h : RoutingInvariant s) (p : ℕ) (blocked : Bool) :
    RoutingInvariant (portSetBlocked p blocked s) := by
  cases blocked with
  | true =>
    have hblocking := (blocking_portSetBlocked p s).1
    exact h.mono hblocking.used hblocking.blocked hblocking.portUsed
  | false =>
    unfold AudioRoute.portSetBlocked
    split
    · exact h
    · refine h.mono (fun _ => rfl) (fun _ hr => hr) (fun q => ?_)
      simp only [Bool.false_eq_true, if_false, port_setPort]
      split <;> simp [*]

/-- One operation keeps the invariant. -/
theorem RoutingInvariant.operate {t : RouteManager pf} {x : Operation pf} (h : RoutingInvariant s)
    (hcond : RoundMarksFresh s x) (hstep : operate s x = some t) : RoutingInvariant t := by
  cases x <;> rw [AudioRoute.operate, Option.some.injEq] at hstep <;> subst hstep
  case round =>
    exact Along.invariant (fun _ _ hi hf => hi.checkRoute hf) hcond (routingInvariant_resetRouting s)
  case setPortBlocked p blocked => exact h.portSetBlocked p blocked
  case addStream | removeStream | setStreamRequest =>
    exact h.mono (fun _ => rfl) (fun _ hr => hr) (fun _ => rfl)
  all_goals exact h.setRoute (fun _ => rfl) (fun _ => rfl)

/-- In every run whose rounds block the ports anew, the used routes exclude each other as their
ports and groups ask for. -/
theorem routes_exclusive {s : RouteManager pf}
    (hrun : Reach operate RoundMarksFresh (RouteManager.initial pf) s) : Exclusive s := by
  have hinit : RoutingInvariant (RouteManager.initial pf) :=
    routingInvariant_of_unused (fun _ => rfl) (fun _ => rfl)
  have hlast : RoutingInvariant s :=
    hrun.invariant hinit fun _ _ _ h hcond hstep => h.operate hcond hstep
  exact hlast.exclusive

/-! ## A platform with two exclusive ports -/

/-- Two routes, each over a port of its own, and a group that holds both ports. -/
def twoPorts : Platform where
  size := 2
  route := fun r => ⟨2 ^ r.val, true, false, [r.val], by simp⟩
  groups := [[0, 1]]

/-- A test for `MarksFresh`. -/
def marksFresh (s : RouteManager pf) (r : Fin pf.size) : Bool :=
  !selected r s || (pf.route r).ports.all fun p => (s.port p).used ||
    (pf.groupsOf p).all fun g => g.all fun q => p == q || !(s.port q).blocked ||
      (pf.users q).all fun r' => (pf.route r).id == (pf.route r').id || (s.route r').blocked

theorem marksFresh_of_test (h : marksFresh s r = true) : MarksFresh s r := by
  intro hselected p hp hused q hne ⟨g, hg, hpg, hqg⟩ hmark r' hr' hid
  have hmem : g ∈ pf.groupsOf p := by simp [Platform.groupsOf, hg, hpg]
  simp only [marksFresh, hselected, Bool.not_true, Bool.false_or, List.all_eq_true,
    Bool.or_eq_true] at h
  have hport := (h p hp).resolve_left (by simp [hused]) g hmem q hqg
  have husers := hport.resolve_left (by simp [hne, hmark]) r' (mem_users.mpr hr')
  exact husers.resolve_left (by simp [hid])

/-- A test for `RoundMarksFresh`. -/
def roundMarksFresh (s : RouteManager pf) : Operation pf → Bool
  | .round => decide (Along checkRoute (fun s r => marksFresh s r = true) (resetRouting s)
      (List.finRange pf.size))
  | _ => true

/-- The two routes of the platform. -/
def firstRoute : Fin twoPorts.size := ⟨0, by decide⟩

@[inherit_doc firstRoute]
def secondRoute : Fin twoPorts.size := ⟨1, by decide⟩

/-- The first route is chosen, then the second one in its place. -/
theorem routes_exclusive_run :
    ∃ s, Reach operate RoundMarksFresh (RouteManager.initial twoPorts) s ∧
      (s.route secondRoute).used = true ∧ (s.route firstRoute).previouslyUsed = true ∧
      Exclusive s := by
  refine Reach.exists_of_check (fun s x (hx : roundMarksFresh s x = true) => ?_)
    (fun s hrun (h : (s.route secondRoute).used = true ∧
      (s.route firstRoute).previouslyUsed = true) => ⟨h.1, h.2, routes_exclusive hrun⟩)
    [.setRouteApplicable firstRoute true, .round, .setRouteApplicable firstRoute false,
      .setRouteApplicable secondRoute true, .round] (by decide)
  cases x with
  | round => exact Along.mono (fun _ _ => marksFresh_of_test) (of_decide_eq_true hx)
  | _ => trivial

/-- When the second route becomes applicable too, the mark that the first round left on its port
keeps it from being blocked: both routes are used, over two ports of one group. -/
theorem routes_not_exclusive :
    ∃ s, Reach operate (fun _ _ => True) (RouteManager.initial twoPorts) s ∧
      (s.route firstRoute).used = true ∧ (s.route secondRoute).used = true ∧ ¬ Exclusive s := by
  refine Reach.exists_of_decide (fun s _ (h : (s.route firstRoute).used = true ∧
    (s.route secondRoute).used = true) => ⟨h.1, h.2, fun hexclusive => ?_⟩)
    [.setRouteApplicable firstRoute true, .round, .setRouteApplicable secondRoute true, .round]
    (by decide)
  have hports := hexclusive firstRoute secondRoute h.1 h.2 (by decide) 0 (by decide) 1 (by decide)
  exact hports.2 ⟨[0, 1], by decide, by decide, by decide⟩

end HardwareIntel.AudioRoute
