import HardwareIntel.AudioRoute.Execution
import HardwareIntel.Library.Cells

/-!
# Routing after failures

What a round does to a stream route does not depend on the other stream routes: the stages are
stages over independent cells, a `Device` each, and a round runs into an assertion iff it does so
for one of them.

A device that cannot be opened does no harm. When the conversion of a stream cannot be set up, on
the other hand, its route is left open without a current stream, and the next round, which detaches
the current stream of every open route that is closed or gets another stream, runs into an
assertion. `routes_survive` states that nothing else can go wrong: as long as every stream could be
attached, the next round comes to an end, whatever the devices and the streams answer in it.
-/

namespace HardwareIntel.AudioRoute

open List Option Function

variable {pf : Platform}

/-! ## A stream route on its own -/

/-- What the stages change about a stream route: whether its device is open, and its stream. -/
structure Device where
  opened : Bool
  current : Option ℕ

section Device

variable (p : Routing pf) (o : Answers pf) (r : Fin pf.size) (c : Device)

/-- `detachCurrentStream`. -/
def Device.detach : Option Device := c.current.map fun _ => { c with current := none }

/-- `attachNewStream`. -/
def Device.attach : Option Device :=
  (p.manager.route r).newStream.bind fun st =>
    (p.manager.stream st).newStreamRoute.map fun _ =>
      if o.attachOk r then { c with current := some st } else c

/-- `unroute`. -/
def Device.unroute (isPostDisable : Bool) : Option Device :=
  if !isPostDisable && !c.opened then some c
  else
    (if isPostDisable then some c else c.detach).map fun c =>
      if isPostDisable = p.postDisable r then { c with opened := false } else c

/-- The second part of `route`. -/
def Device.routeOpened (isPreEnable : Bool) : Option Device :=
  if isPreEnable then some c
  else if c.opened then c.attach p o r
  else some c

/-- `route`. -/
def Device.route (isPreEnable : Bool) : Option Device :=
  if isPreEnable = p.preEnable r then
    if c.opened then none
    else if o.openOk r then ({ c with opened := true } : Device).routeOpened p o r isPreEnable
    else some c
  else c.routeOpened p o r isPreEnable

/-- `configure`. -/
def Device.configure : Option Device :=
  if decide (c.current = (p.manager.route r).newStream) then some c
  else if c.opened then c.detach.bind fun c => c.attach p o r
  else some c

/-- `needReflow`. -/
def Device.needReflow : Bool :=
  (p.manager.route r).previouslyUsed && (p.manager.route r).used &&
    ((p.manager.route r).flowRequested || (p.manager.route r).pathRequested ||
      decide (c.current ≠ (p.manager.route r).newStream))

/-- The five stages of `executeRouting`. -/
def Device.settle : Option Device :=
  (if toDisable p.manager r then c.unroute p r false else some c).bind fun c =>
    (if toDisable p.manager r then c.unroute p r true else some c).bind fun c =>
      (if c.needReflow p r then c.configure p o r else some c).bind fun c =>
        (if toEnable p.manager r then c.route p o r true else some c).bind fun c =>
          if toEnable p.manager r then c.route p o r false else some c

end Device

/-- In the course of the stages from `p` on, the devices and the streams are those of `c`. -/
def Arranged (p : Routing pf) (c : Fin pf.size → Device) (s : Routing pf) : Prop :=
  ∃ streamRoute, s = p.arranged (fun r => (c r).opened) (fun r => (c r).current) streamRoute

section Arranged

variable {p s : Routing pf} {o : Answers pf} {c : Fin pf.size → Device} {r : Fin pf.size}

theorem Arranged.opened (h : Arranged p c s) (r : Fin pf.size) : s.opened r = (c r).opened := by
  obtain ⟨_, rfl⟩ := h
  rfl

theorem Arranged.currentStream (h : Arranged p c s) (r : Fin pf.size) :
    (s.manager.route r).currentStream = (c r).current := by
  obtain ⟨_, rfl⟩ := h
  rfl

/-- The settings and the choices of the round stay. -/
theorem Arranged.plan (h : Arranged p c s) (r : Fin pf.size) :
    (s.manager.route r).newStream = (p.manager.route r).newStream ∧
      s.manager.stream = p.manager.stream ∧ toDisable s.manager r = toDisable p.manager r ∧
      toEnable s.manager r = toEnable p.manager r ∧
      s.preEnable = p.preEnable ∧ s.postDisable = p.postDisable := by
  obtain ⟨_, rfl⟩ := h
  exact ⟨rfl, rfl, rfl, rfl, rfl, rfl⟩

/-- A field of the devices, when one of them is changed. -/
theorem device_update {β : Type} (f : Device → β) (c : Fin pf.size → Device) (d : Device) :
    (fun r' => f (Function.update c r d r')) = Function.update (fun r' => f (c r')) r (f d) :=
  comp_update f c r d

theorem Arranged.setOpened (h : Arranged p c s) (b : Bool) :
    Arranged p (Function.update c r { c r with opened := b })
      { s with opened := Function.update s.opened r b } := by
  obtain ⟨streamRoute, rfl⟩ := h
  refine ⟨streamRoute, ?_⟩
  have hcurrent : Function.update (fun r' => (c r').current) r (c r).current =
      fun r' => (c r').current := update_eq_self r _
  rw [device_update Device.opened, device_update Device.current, hcurrent]
  rfl

theorem Arranged.setCurrentStream (h : Arranged p c s) (st : Option ℕ)
    (streamRoute : ℕ → Option (Fin pf.size)) :
    Arranged p (Function.update c r { c r with current := st })
      { setCurrentStream r s st with streamRoute := streamRoute } := by
  obtain ⟨streamRoute', rfl⟩ := h
  refine ⟨streamRoute, ?_⟩
  have hopened : Function.update (fun r' => (c r').opened) r (c r).opened =
      fun r' => (c r').opened := update_eq_self r _
  rw [setCurrentStream_arranged, device_update Device.opened, device_update Device.current, hopened]
  rfl

theorem Arranged.setStreamRoute (h : Arranged p c s) (streamRoute : ℕ → Option (Fin pf.size)) :
    Arranged p c { s with streamRoute := streamRoute } := by
  obtain ⟨_, rfl⟩ := h
  exact ⟨streamRoute, rfl⟩

end Arranged

/-! ## The stages treat each stream route on its own -/

section Stages

variable (p : Routing pf) (o : Answers pf) (r : Fin pf.size)

theorem cellwise_detachCurrentStream :
    Cellwise (Arranged p) [r] (detachCurrentStream r) fun _ c => c.detach := by
  intro c s hs
  rw [detachCurrentStream, hs.currentStream]
  cases hcurrent : (c r).current with
  | none => exact ⟨r, mem_singleton_self r, by simp [Device.detach, hcurrent]⟩
  | some st =>
    refine ⟨_, hs.setCurrentStream (r := r) none _, fun r' hr' => ?_, fun r' hr' => ?_⟩
    · obtain rfl := mem_singleton.mp hr'
      simp [Device.detach, hcurrent]
    · exact update_of_ne (by simpa using hr') _ _

theorem cellwise_attachNewStream :
    Cellwise (Arranged p) [r] (fun s => attachNewStream r s o) fun r c => c.attach p o r := by
  intro c s hs
  obtain ⟨hnew, hstream, -⟩ := hs.plan r
  dsimp only
  rw [attachNewStream, hnew, hstream]
  cases hst : (p.manager.route r).newStream with
  | none => exact ⟨r, mem_singleton_self r, by simp [Device.attach, hst]⟩
  | some st =>
    cases hroute : (p.manager.stream st).newStreamRoute with
    | none =>
      rw [bind_some, hroute, map_none]
      exact ⟨r, mem_singleton_self r, by simp [Device.attach, hst, hroute]⟩
    | some r' =>
      simp only [bind_some, map_some, hroute]
      cases hok : o.attachOk r with
      | false =>
        refine ⟨c, hs.setStreamRoute _, fun x hx => ?_, fun _ _ => rfl⟩
        obtain rfl := mem_singleton.mp hx
        simp [Device.attach, hst, hroute, hok]
      | true =>
        refine ⟨_, hs.setCurrentStream (r := r) (some st) _, fun x hx => ?_, fun x hx => ?_⟩
        · obtain rfl := mem_singleton.mp hx
          simp [Device.attach, hst, hroute, hok]
        · exact update_of_ne (by simpa using hx) _ _

theorem cellwise_unroute (isPostDisable : Bool) :
    Cellwise (Arranged p) [r] (fun s => unroute r s isPostDisable)
      fun r c => c.unroute p r isPostDisable := by
  have hdetach : Cellwise (Arranged p) [r]
      (fun s => if isPostDisable then some s else detachCurrentStream r s)
      fun _ c => if isPostDisable then some c else c.detach :=
    Cellwise.ite (B := fun _ _ => isPostDisable) (fun _ _ _ => rfl) .skip
      (cellwise_detachCurrentStream p r)
  refine Cellwise.ite (b := fun s => !isPostDisable && !s.opened r)
    (B := fun _ c => !isPostDisable && !c.opened) (fun c s hs => ?_) .skip
    (hdetach.map (g := fun s => if isPostDisable = s.postDisable r then
        { s with opened := Function.update s.opened r false } else s)
      (f := fun r c => if isPostDisable = p.postDisable r then { c with opened := false } else c)
      fun c s hs => ?_)
  · rw [hs.opened]
  · have hpost : s.postDisable = p.postDisable := (hs.plan r).2.2.2.2.2
    by_cases hclose : isPostDisable = p.postDisable r
    · rw [if_pos hclose, if_pos (by rw [hpost]; exact hclose)]
      exact hs.setOpened false
    · rwa [if_neg hclose, if_neg (by rw [hpost]; exact hclose), update_eq_self]

theorem cellwise_routeOpened (isPreEnable : Bool) :
    Cellwise (Arranged p) [r] (fun s => routeOpened r s o isPreEnable)
      fun r c => c.routeOpened p o r isPreEnable :=
  Cellwise.ite (B := fun _ _ => isPreEnable) (fun _ _ _ => rfl) .skip
    (Cellwise.ite (B := fun _ c => c.opened) (fun _ _ hs => hs.opened r)
      (cellwise_attachNewStream p o r) .skip)

theorem cellwise_route (isPreEnable : Bool) :
    Cellwise (Arranged p) [r] (fun s => route r s o isPreEnable)
      fun r c => c.route p o r isPreEnable := by
  have hopen : Cellwise (Arranged p) [r] (fun s => (some { s with
      opened := Function.update s.opened r true }).bind fun s => routeOpened r s o isPreEnable)
      fun r c => (some { c with opened := true }).bind fun c => c.routeOpened p o r isPreEnable :=
    (Cellwise.update fun _ _ hs => hs.setOpened true).bind (cellwise_routeOpened p o r isPreEnable)
  have hdevice : Cellwise (Arranged p) [r] _ _ :=
    Cellwise.ite (B := fun _ c => c.opened) (fun _ _ hs => hs.opened r) .fail
      (Cellwise.ite (B := fun r _ => o.openOk r) (fun _ _ _ => rfl) hopen .skip)
  refine (Cellwise.ite (B := fun r _ => decide (isPreEnable = p.preEnable r))
    (b := fun s => decide (isPreEnable = s.preEnable r)) (fun c s hs => ?_) hdevice
    (cellwise_routeOpened p o r isPreEnable)).congr (fun c s _ => ?_) fun r' _ => ?_
  · rw [(hs.plan r).2.2.2.2.1]
  · simp [route]
  · funext c
    simp [Device.route]

theorem cellwise_configure :
    Cellwise (Arranged p) [r] (fun s => configure r s o) fun r c => c.configure p o r := by
  refine (Cellwise.ite (B := fun r c => decide (c.current = (p.manager.route r).newStream))
    (b := fun s => decide ((s.manager.route r).currentStream = (s.manager.route r).newStream))
    (fun c s hs => ?_) .skip (Cellwise.ite (B := fun _ c => c.opened) (fun _ _ hs => hs.opened r)
      ((cellwise_detachCurrentStream p r).bind (cellwise_attachNewStream p o r)) .skip)).congr
    (fun c s _ => ?_) fun _ _ => rfl
  · rw [hs.currentStream, (hs.plan r).1]
  · simp [configure]

/-- Stages run through the stream routes, each of which is on its own. -/
theorem cellwise_executeRouting :
    Cellwise (Arranged p) pf.streamRoutes (executeRouting o) fun r c => c.settle p o r := by
  have hnodup : pf.streamRoutes.Nodup := (nodup_finRange pf.size).filter _
  have hdisable : ∀ isPostDisable, Cellwise (Arranged p) pf.streamRoutes
      (doDisableRoutes isPostDisable) fun r c =>
        if toDisable p.manager r then c.unroute p r isPostDisable else some c :=
    fun isPostDisable => Cellwise.loop (fun r _ => Cellwise.ite
      (B := fun r _ => toDisable p.manager r) (fun _ _ hs => (hs.plan r).2.2.1)
      (cellwise_unroute p r isPostDisable) .skip) hnodup
  have henable : ∀ isPreEnable, Cellwise (Arranged p) pf.streamRoutes
      (doEnableRoutes o isPreEnable) fun r c =>
        if toEnable p.manager r then c.route p o r isPreEnable else some c :=
    fun isPreEnable => Cellwise.loop (fun r _ => Cellwise.ite
      (B := fun r _ => toEnable p.manager r) (fun _ _ hs => (hs.plan r).2.2.2.1)
      (cellwise_route p o r isPreEnable) .skip) hnodup
  have hconfigure : Cellwise (Arranged p) pf.streamRoutes (configureRoutes o) fun r c =>
      if c.needReflow p r then c.configure p o r else some c := by
    refine Cellwise.loop (fun r hr => Cellwise.ite (B := fun r c => c.needReflow p r)
      (fun c s hs => ?_) (cellwise_configure p o r) .skip) hnodup
    obtain ⟨streamRoute, rfl⟩ := hs
    simp only [needReflow, Device.needReflow, Routing.arranged, mem_streamRoutes.mp hr,
      Bool.true_and]
    congr
  exact (hdisable false).bind ((hdisable true).bind
    (hconfigure.bind ((henable true).bind (henable false))))

end Stages

/-! ## A stream route in a round -/

section Settle

variable {p : Routing pf} {o : Answers pf} {r : Fin pf.size} {c : Device} {st : ℕ}

/-- The stream that is chosen takes the route; it becomes the current one if its conversion can be
set up. -/
theorem Device.attach_spec (hst : (p.manager.route r).newStream = some st)
    (hroute : (p.manager.stream st).newStreamRoute = some r) :
    ∃ c', c.attach p o r = some c' ∧ c'.opened = c.opened ∧
      (o.attachOk r = true → c'.current.isSome = true) := by
  rw [Device.attach, hst, bind_some, hroute, map_some]
  cases hok : o.attachOk r with
  | false => exact ⟨c, rfl, rfl, by simp⟩
  | true => exact ⟨{ c with current := some st }, rfl, rfl, fun _ => rfl⟩

/-- The two passes that disable a route close its device. -/
theorem Device.unroute_spec (hattached : c.opened = true → c.current.isSome = true) :
    ∃ c' c'', c.unroute p r false = some c' ∧ c'.unroute p r true = some c'' ∧
      c''.opened = false := by
  cases hopened : c.opened with
  | false =>
    refine ⟨c, if true = p.postDisable r then { c with opened := false } else c, ?_, ?_, ?_⟩
    · simp [Device.unroute, hopened]
    · simp [Device.unroute]
    · split <;> simp [hopened]
  | true =>
    obtain ⟨st, hst⟩ := isSome_iff_exists.mp (hattached hopened)
    cases hpost : p.postDisable r with
    | false =>
      exact ⟨⟨false, none⟩, ⟨false, none⟩, by simp [Device.unroute, Device.detach, hopened, hst,
        hpost], by simp [Device.unroute, hpost], rfl⟩
    | true =>
      exact ⟨⟨true, none⟩, ⟨false, none⟩, by simp [Device.unroute, Device.detach, hopened, hst,
        hpost], by simp [Device.unroute, hpost], rfl⟩

/-- A route that stays in use changes its stream. -/
theorem Device.configure_spec (hattached : c.opened = true → c.current.isSome = true)
    (hst : (p.manager.route r).newStream = some st)
    (hroute : (p.manager.stream st).newStreamRoute = some r) :
    ∃ c', c.configure p o r = some c' ∧ c'.opened = c.opened ∧
      (o.attachOk r = true → c'.opened = true → c'.current.isSome = true) := by
  by_cases hsame : c.current = (p.manager.route r).newStream
  · exact ⟨c, by simp [Device.configure, hsame], rfl, fun _ => hattached⟩
  cases hopened : c.opened with
  | false => exact ⟨c, by simp [Device.configure, hsame, hopened], hopened, by simp [hopened]⟩
  | true =>
    obtain ⟨old, hold⟩ := isSome_iff_exists.mp (hattached hopened)
    obtain ⟨c', hattach, hopened', hcurrent⟩ :=
      Device.attach_spec (o := o) (c := { c with current := none }) hst hroute
    refine ⟨c', ?_, hopened'.trans hopened, fun hok _ => hcurrent hok⟩
    rw [Device.configure, if_neg (by simpa using hsame), if_pos hopened, Device.detach, hold,
      map_some, bind_some]
    exact hattach

/-- The two passes that enable a route leave it open only if its stream was to be attached. -/
theorem Device.route_spec (hclosed : c.opened = false)
    (hst : (p.manager.route r).newStream = some st)
    (hroute : (p.manager.stream st).newStreamRoute = some r) :
    ∃ c' c'', c.route p o r true = some c' ∧ c'.route p o r false = some c'' ∧
      (o.attachOk r = true → c''.opened = true → c''.current.isSome = true) := by
  have hattach : ∀ d : Device, ∃ d', d.routeOpened p o r false = some d' ∧
      (o.attachOk r = true → d'.opened = true → d'.current.isSome = true) := by
    intro d
    cases hopened : d.opened with
    | false => exact ⟨d, by simp [Device.routeOpened, hopened], by simp [hopened]⟩
    | true =>
      obtain ⟨d', hd', -, hcurrent⟩ := Device.attach_spec (o := o) (c := d) hst hroute
      exact ⟨d', by simp [Device.routeOpened, hopened, hd'], fun hok _ => hcurrent hok⟩
  cases hpre : p.preEnable r with
  | true =>
    have hsecond : ∀ d : Device, d.route p o r false = d.routeOpened p o r false := by
      intro d
      simp [Device.route, hpre]
    cases hok : o.openOk r with
    | false =>
      obtain ⟨d, hd, hcurrent⟩ := hattach c
      exact ⟨c, d, by simp [Device.route, hpre, hclosed, hok], (hsecond c).trans hd, hcurrent⟩
    | true =>
      obtain ⟨d, hd, hcurrent⟩ := hattach { c with opened := true }
      exact ⟨{ c with opened := true }, d,
        by simp [Device.route, Device.routeOpened, hpre, hclosed, hok], (hsecond _).trans hd,
        hcurrent⟩
  | false =>
    have hfirst : c.route p o r true = some c := by simp [Device.route, Device.routeOpened, hpre]
    cases hok : o.openOk r with
    | false => exact ⟨c, c, hfirst, by simp [Device.route, hpre, hclosed, hok], by simp [hclosed]⟩
    | true =>
      obtain ⟨d, hd, hcurrent⟩ := hattach { c with opened := true }
      refine ⟨c, d, hfirst, ?_, hcurrent⟩
      rw [← hd]
      simp [Device.route, hpre, hclosed, hok]

/-- A route that is open has a stream: no assertion fails for it, and it is open afterwards only if
it is used. -/
theorem Device.settle_spec (hprev : c.opened = true → (p.manager.route r).previouslyUsed = true)
    (hattached : c.opened = true → c.current.isSome = true)
    (hused : (p.manager.route r).used = true → ∃ st, (p.manager.route r).newStream = some st ∧
      (p.manager.stream st).newStreamRoute = some r) :
    ∃ c', c.settle p o r = some c' ∧
      (c'.opened = true → (p.manager.route r).used = true) ∧
      (o.attachOk r = true → c'.opened = true → c'.current.isSome = true) := by
  obtain ⟨d, d', hunroute, hunroute', hclosed⟩ := Device.unroute_spec (p := p) (r := r) hattached
  cases hu : (p.manager.route r).used with
  | false =>
    have hflow : ∀ d : Device, d.needReflow p r = false := fun d => by simp [Device.needReflow, hu]
    have henable : toEnable p.manager r = false := by simp [toEnable, needRepath, hu]
    cases hdisable : toDisable p.manager r with
    | true =>
      exact ⟨d', by simp [Device.settle, hdisable, hunroute, hunroute', hflow, henable],
        by simp [hclosed], by simp [hclosed]⟩
    | false =>
      have hnot : c.opened = false := by
        by_contra hopened
        simp [toDisable, hprev (by simpa using hopened), hu] at hdisable
      exact ⟨c, by simp [Device.settle, hdisable, hflow, henable], by simp [hnot], by simp [hnot]⟩
  | true =>
    obtain ⟨st, hst, hroute⟩ := hused hu
    -- The device that the first two stages leave.
    obtain ⟨d₁, hdisabled, hattached₁, hclosed₁⟩ : ∃ d₁ : Device,
        ((if toDisable p.manager r then c.unroute p r false else some c).bind fun c =>
          if toDisable p.manager r then c.unroute p r true else some c) = some d₁ ∧
        (d₁.opened = true → d₁.current.isSome = true) ∧
        (toEnable p.manager r = true → d₁.opened = false) := by
      cases hdisable : toDisable p.manager r with
      | true => exact ⟨d', by simp [hunroute, hunroute'], by simp [hclosed], fun _ => hclosed⟩
      | false =>
        refine ⟨c, by simp, hattached, fun henable => ?_⟩
        by_contra hopened
        simp only [toDisable, hu, Bool.not_true, Bool.and_false, Bool.false_or] at hdisable
        simp [toEnable, hdisable, hprev (by simpa using hopened)] at henable
    obtain ⟨d₂, hconfigured, hopened₂, hattached₂⟩ : ∃ d₂ : Device,
        (if d₁.needReflow p r then d₁.configure p o r else some d₁) = some d₂ ∧
        d₂.opened = d₁.opened ∧
        (o.attachOk r = true → d₂.opened = true → d₂.current.isSome = true) := by
      obtain ⟨d₂, hd₂, hopened₂, hcurrent⟩ :=
        Device.configure_spec (p := p) (o := o) hattached₁ hst hroute
      split
      · exact ⟨d₂, hd₂, hopened₂, hcurrent⟩
      · exact ⟨d₁, rfl, rfl, fun _ => hattached₁⟩
    simp only [Device.settle, ← bind_assoc, hdisabled, bind_some, hconfigured]
    cases henable : toEnable p.manager r with
    | false => exact ⟨d₂, by simp, fun _ => trivial, hattached₂⟩
    | true =>
      obtain ⟨e, e', he, he', hcurrent⟩ := Device.route_spec (p := p) (o := o) (c := d₂)
        (hopened₂.trans (hclosed₁ henable)) hst hroute
      exact ⟨e', by simp [he, he'], fun _ => trivial, hcurrent⟩

/-- An open route without a stream is detached or changes its stream, and an assertion fails. -/
theorem Device.settle_of_stuck (hprev : (p.manager.route r).previouslyUsed = true)
    (hopened : c.opened = true) (hcurrent : c.current = none)
    (hused : (p.manager.route r).used = true → (p.manager.route r).newStream.isSome = true) :
    c.settle p o r = none := by
  have hdetach : c.detach = none := by simp [Device.detach, hcurrent]
  cases hdisable : toDisable p.manager r with
  | true => simp [Device.settle, hdisable, Device.unroute, hopened, hdetach]
  | false =>
    have hu : (p.manager.route r).used = true := by
      by_contra hunused
      simp [toDisable, hprev, hunused] at hdisable
    obtain ⟨st, hst⟩ := isSome_iff_exists.mp (hused hu)
    simp [Device.settle, hdisable, Device.needReflow, Device.configure, hprev, hu, hcurrent, hst,
      hopened, hdetach]

end Settle

/-! ## Runs -/

/-- What holds between two rounds, whatever has failed: only stream routes in use are open. -/
structure Standing (s : Routing pf) : Prop where
  newLink : NewLink s.manager
  stream : ∀ r, (pf.route r).isStreamRoute = true →
    (s.manager.route r).newStream.isSome = (s.manager.route r).used
  enabled : ∀ d k, (s.manager.routes d).enabled.testBit k = true ↔
    ∃ r, (pf.route r).isOut = d ∧ (s.manager.route r).used = true ∧
      (pf.route r).id.testBit k = true
  opened : ∀ r, s.opened r = true → active s.manager r = true

/-- Every route that is open has a current stream. -/
def Attached (s : Routing pf) : Prop :=
  ∀ r, s.opened r = true → (s.manager.route r).currentStream.isSome = true

section Runs

variable {s t : Routing pf} {o : Answers pf}

theorem Settled.standing (h : Settled s) : Standing s :=
  { h with opened := fun r hr => (h.consistent.opened r).symm.trans hr }

theorem arranged_self (p : Routing pf) :
    Arranged p (fun r => ⟨p.opened r, (p.manager.route r).currentStream⟩) p := ⟨p.streamRoute, rfl⟩

/-- What is known of a stream route when the stages begin. -/
theorem Standing.prepared (h : Standing s) (r : Fin pf.size)
    (hisStream : (pf.route r).isStreamRoute = true) :
    (s.opened r = true → ((checkAndPrepareRouting s.manager).route r).previouslyUsed = true) ∧
      (((checkAndPrepareRouting s.manager).route r).used = true →
        ∃ st, ((checkAndPrepareRouting s.manager).route r).newStream = some st ∧
          ((checkAndPrepareRouting s.manager).stream st).newStreamRoute = some r) := by
  have hprepared := prepared_checkAndPrepareRouting h.newLink
  constructor
  · intro hopened
    have hactive := h.opened r hopened
    rw [active, Bool.and_eq_true] at hactive
    rw [hprepared.previouslyUsed]
    exact hactive.2
  · intro hused
    obtain ⟨st, hst⟩ := isSome_iff_exists.mp ((hprepared.stream r hisStream).trans hused)
    exact ⟨st, hst, (hprepared.link.link r st).mp hst⟩

/-- The stages come to an end iff every route that was open had a stream. -/
theorem Standing.executeRouting_iff (h : Standing s) :
    (executeRouting o { s with manager := checkAndPrepareRouting s.manager }).isSome = true ↔
      Attached s := by
  have hprepared := prepared_checkAndPrepareRouting h.newLink
  rw [(cellwise_executeRouting _ o).isSome_iff (arranged_self _)]
  constructor
  · intro hall r hopened
    have hactive := h.opened r hopened
    rw [active, Bool.and_eq_true] at hactive
    obtain ⟨hprev, hused⟩ := h.prepared r hactive.1
    by_contra hnone
    rw [Bool.not_eq_true, isSome_eq_false_iff, isNone_iff_eq_none] at hnone
    have hsettled := hall r (mem_streamRoutes.mpr hactive.1)
    rw [Device.settle_of_stuck (hprev hopened) hopened ((hprepared.currentStream r).trans hnone)
      fun hu => (hused hu).elim fun st hst => by rw [hst.1]; rfl] at hsettled
    exact absurd hsettled (by simp)
  · intro hattached r hr
    obtain ⟨hprev, hused⟩ := h.prepared r (mem_streamRoutes.mp hr)
    obtain ⟨c', hc', -⟩ := Device.settle_spec (o := o) (r := r)
      (p := { s with manager := checkAndPrepareRouting s.manager })
      (c := ⟨s.opened r, ((checkAndPrepareRouting s.manager).route r).currentStream⟩)
      hprev (fun hopened => by rw [hprepared.currentStream]; exact hattached r hopened) hused
    rw [hc']
    rfl

section

variable (hids : pf.DistinctIds) (h : Standing s)
include hids h

/-- If the stages are left out, the routes that are open keep their streams. -/
theorem Standing.unchanged
    (hmasks : ∀ d, routingHasChanged (checkAndPrepareRouting s.manager) d = false) :
    Standing { s with manager := checkAndPrepareRouting s.manager } ∧ Attached s ∧
      Attached { s with manager := checkAndPrepareRouting s.manager } := by
  have hprepared := prepared_checkAndPrepareRouting h.newLink
  have hsteady := used_of_unchanged hids h.newLink h.enabled hmasks
  have hattached : Attached s := by
    intro r hopened
    have hactive := h.opened r hopened
    rw [active, Bool.and_eq_true] at hactive
    have hneed := (hsteady r).2
    have hsome := hprepared.stream r hactive.1
    simp only [needReflow, hprepared.previouslyUsed, (hsteady r).1, hactive.1, hactive.2,
      Bool.true_and, Bool.or_eq_false_iff, decide_eq_false_iff_not, not_not,
      hprepared.currentStream] at hneed hsome
    rw [hneed.2]
    exact hsome
  refine ⟨⟨hprepared.link, hprepared.stream, fun d k => ?_, fun r hopened => ?_⟩, hattached,
    fun r hopened => ?_⟩
  · simpa using hprepared.enabled d k
  · rw [active, (hsteady r).1]
    exact h.opened r hopened
  · rw [hprepared.currentStream]
    exact hattached r hopened

/-- A round comes to an end iff every open route has a stream. -/
theorem Standing.round_iff :
    (doReconsiderRouting o s).isSome = true ↔ Attached s := by
  unfold doReconsiderRouting
  dsimp only
  split
  · exact h.executeRouting_iff
  · rename_i hmasks
    simp only [Bool.or_eq_true, not_or, Bool.not_eq_true] at hmasks
    have hunchanged := h.unchanged hids (Bool.rec hmasks.2 hmasks.1)
    exact ⟨fun _ => hunchanged.2.1, fun _ => rfl⟩

/-- After a round, every open route has a stream again if every stream could be attached. -/
theorem Standing.round (ht : doReconsiderRouting o s = some t) :
    Standing t ∧ ((∀ r, o.attachOk r = true) → Attached t) := by
  have hattached := (h.round_iff hids (o := o)).mp (by rw [ht]; rfl)
  have hprepared := prepared_checkAndPrepareRouting h.newLink
  unfold doReconsiderRouting at ht
  dsimp only at ht
  split at ht
  · obtain ⟨c, harranged, hcells, hrest⟩ :=
      (cellwise_executeRouting _ o).of_some (arranged_self _) ht
    have hroute : ∀ r, (t.opened r = true → active (checkAndPrepareRouting s.manager) r = true) ∧
        (o.attachOk r = true → t.opened r = true →
          (t.manager.route r).currentStream.isSome = true) := by
      intro r
      rw [harranged.opened, harranged.currentStream]
      by_cases hr : r ∈ pf.streamRoutes
      · obtain ⟨hprev, hused⟩ := h.prepared r (mem_streamRoutes.mp hr)
        obtain ⟨c', hc', hopened, hcurrent⟩ := Device.settle_spec (o := o) (r := r)
          (p := { s with manager := checkAndPrepareRouting s.manager })
          (c := ⟨s.opened r, ((checkAndPrepareRouting s.manager).route r).currentStream⟩)
          hprev (fun hopened => by rw [hprepared.currentStream]; exact hattached r hopened) hused
        obtain rfl : c r = c' := some.inj ((hcells r hr).symm.trans hc')
        refine ⟨fun ho => ?_, hcurrent⟩
        rw [active, mem_streamRoutes.mp hr, Bool.true_and]
        exact hopened ho
      · have hclosed : s.opened r = false := by
          by_contra hopened
          have hactive := h.opened r (by simpa using hopened)
          rw [active, Bool.and_eq_true] at hactive
          exact hr (mem_streamRoutes.mpr hactive.1)
        rw [hrest r hr]
        simp [hclosed]
    refine ⟨?_, fun hok r hopened => (hroute r).2 (hok r) hopened⟩
    obtain ⟨streamRoute, rfl⟩ := harranged
    refine ⟨hprepared.link.of_newStream (fun _ => rfl) rfl, hprepared.stream, fun d k => ?_,
      fun r hopened => (hroute r).1 hopened⟩
    refine (hprepared.enabled d k).trans ?_
    simp [Routing.arranged]
  · rename_i hmasks
    obtain rfl := some.inj ht
    simp only [Bool.or_eq_true, not_or, Bool.not_eq_true] at hmasks
    have hunchanged := h.unchanged hids (Bool.rec hmasks.2 hmasks.1)
    exact ⟨hunchanged.1, fun _ => hunchanged.2.2⟩

end

/-- Every stream can be attached. -/
def RoutingStep.attaches : RoutingStep pf → Bool
  | .round o => decide (∀ r, o.attachOk r = true)
  | _ => true

theorem Standing.of_frame (h : Standing s) {x : RoutingStep pf} (hx : ∀ o, x ≠ .round o)
    (ht : routingStep s x = some t) : Standing t ∧ (Attached s → Attached t) := by
  obtain ⟨hopened, -, hroute, hstream, hroutes⟩ := routingStep_frame hx ht
  refine ⟨⟨⟨?_, fun r => ?_⟩, fun r => ?_, fun d k => ?_, fun r => ?_⟩, fun hattached r => ?_⟩
  · simp only [hroute, hstream]
    exact h.newLink.link
  · rw [(hroute r).2.2]
    exact h.newLink.isStreamRoute r
  · rw [(hroute r).2.2, (hroute r).1]
    exact h.stream r
  · simp only [hroutes, hroute]
    exact h.enabled d k
  · rw [hopened, active, (hroute r).1]
    exact h.opened r
  · rw [hopened, (hroute r).2.1]
    exact hattached r

/-- One step of a run. -/
theorem Standing.routingStep (hids : pf.DistinctIds) (h : Standing s) {x : RoutingStep pf}
    (ht : routingStep s x = some t) :
    Standing t ∧ (x.attaches = true → Attached s → Attached t) := by
  by_cases hx : ∃ o, x = .round o
  · obtain ⟨o, rfl⟩ := hx
    obtain ⟨hstanding, hattached⟩ := h.round hids (o := o) ht
    exact ⟨hstanding, fun hok _ => hattached (of_decide_eq_true hok)⟩
  · obtain ⟨hstanding, hattached⟩ := h.of_frame (fun o ho => hx ⟨o, ho⟩) ht
    exact ⟨hstanding, fun _ => hattached⟩

/-- In every run, whatever has failed in it, the next round comes to an end iff every open route
has a current stream. -/
theorem round_iff_attached (hids : pf.DistinctIds)
    (hrun : Reach routingStep (fun _ _ => True) (Routing.initial pf) s) (o : Answers pf) :
    (routingStep s (.round o)).isSome = true ↔ Attached s := by
  have hstanding : Standing s := hrun.invariant (settled_initial pf).standing
    fun a x b ha _ hb => (ha.routingStep hids hb).1
  exact hstanding.round_iff hids

/-- In every run in which every stream could be attached, whatever the devices answered, the next
round comes to an end, whatever the devices and the streams answer in it. -/
theorem routes_survive (hids : pf.DistinctIds)
    (hrun : Reach routingStep (fun _ x => x.attaches = true) (Routing.initial pf) s)
    (o : Answers pf) : (routingStep s (.round o)).isSome = true := by
  have hinvariant : Standing s ∧ Attached s := by
    refine hrun.invariant (I := fun s => Standing s ∧ Attached s) ⟨?_, ?_⟩ ?_
    · exact (settled_initial pf).standing
    · exact fun r hopened => absurd hopened Bool.false_ne_true
    · intro a x b ha hx hb
      obtain ⟨hstanding, hattached⟩ := ha.1.routingStep hids hb
      exact ⟨hstanding, hattached hx ha.2⟩
  exact (hinvariant.1.round_iff hids).mpr hinvariant.2

end Runs

/-- The first device cannot be opened while the second one is; the streams then stop. -/
theorem routes_survive_open_fails :
    ∃ s, Reach routingStep (fun _ x => x.attaches = true) (Routing.initial twoStreamRoutes) s ∧
      (s.manager.route lowRoute).used = true ∧ s.opened lowRoute = false ∧
      ∀ o, (routingStep s (.round o)).isSome = true :=
  Reach.exists_of_decide (fun s hrun (h : (s.manager.route lowRoute).used = true ∧
      s.opened lowRoute = false) => ⟨h.1, h.2, routes_survive distinctIds_twoStreamRoutes hrun⟩)
    (startTwoStreams.dropLast ++ [.round ⟨fun r => decide (r ≠ lowRoute), fun _ => true⟩,
      .operation (.setStreamRequest 1 false 2 0)]) (by decide)

/-- A route whose stream could not be attached stops every later round. -/
theorem round_iff_attached_conversion_fails :
    ∃ s, Reach routingStep (fun _ _ => True) (Routing.initial twoStreamRoutes) s ∧ ¬ Attached s ∧
      ∀ o, routingStep s (.round o) = none := by
  refine Reach.exists_of_decide
    (fun s hrun (hfails : (routingStep s .fine).isNone = true) => ?_)
    (startTwoStreams.dropLast ++ [.round ⟨fun _ => true, fun r => decide (r ≠ lowRoute)⟩])
    (by decide)
  rw [isNone_iff_eq_none] at hfails
  have hiff := round_iff_attached distinctIds_twoStreamRoutes hrun
  have hnot : ¬ Attached s := fun h => by
    have hsome : (routingStep s .fine).isSome = true := (hiff _).mpr h
    rw [hfails] at hsome
    exact absurd hsome (by decide)
  refine ⟨hnot, fun o => ?_⟩
  rw [← not_isSome_iff_eq_none]
  exact fun hsome => hnot ((hiff o).mp hsome)

/-- The conversion of the first stream cannot be set up once: the next round fails an assertion. -/
theorem routes_do_not_survive :
    ∃ s, Reach routingStep (fun _ _ => True) (Routing.initial twoStreamRoutes) s ∧
      routingStep s .fine = none :=
  Reach.exists_of_decide (fun _ _ => isNone_iff_eq_none.mp)
    (startTwoStreams.dropLast ++ [.round ⟨fun _ => true, fun r => decide (r ≠ lowRoute)⟩])
    (by decide)

end HardwareIntel.AudioRoute
