import HardwareIntel.AudioRoute.Preparation

/-!
# Execution of the routing

The stages in which `doReconsiderRouting` carries out what `checkAndPrepareRouting` has chosen:
`executeRouting` of `AudioRouteManager.cpp` with `route`, `unroute` and `configure` of
`AudioStreamRoute.cpp` and `attachRoute`, `detachRoute` of `IoStream.cpp`. Stream routes that are
no longer used, or get a new path, are detached from their stream and closed; those that stay used
change their stream; those that become used, or get a new path, are opened and attached.

Afterwards exactly the used stream routes are open and have the stream chosen for them, and route
and stream point at each other (`Consistent`). The configure stage goes through the routes in the
order of their names: it detaches the old stream of a route after it may have given this stream to
another route, which then loses it. `smooth` rounds have no such move.
-/

namespace HardwareIntel.AudioRoute

open List Option

variable {pf : Platform}

/-! ## The stages -/

/-- The route manager with the devices of the stream routes, the routes the streams are attached to
(`mCurrentStreamRoute`), and two settings of the routes. -/
structure Routing (pf : Platform) where
  manager : RouteManager pf
  opened : Fin pf.size → Bool
  streamRoute : ℕ → Option (Fin pf.size)
  preEnable : Fin pf.size → Bool
  postDisable : Fin pf.size → Bool

/-- What the devices and the conversions of the streams answer in a round, for each route. -/
structure Answers (pf : Platform) where
  openOk : Fin pf.size → Bool
  attachOk : Fin pf.size → Bool

/-- The stream routes (`mStreamRouteMap`), in the order of their names. -/
def Platform.streamRoutes (pf : Platform) : List (Fin pf.size) :=
  (List.finRange pf.size).filter fun r => (pf.route r).isStreamRoute

section Stages

variable (r : Fin pf.size) (s : Routing pf)

/-- Set the current stream of a route. -/
def setCurrentStream (st : Option ℕ) : Routing pf :=
  { s with manager := setRoute r (fun x => { x with currentStream := st }) s.manager }

/-- `AudioStreamRoute::detachCurrentStream`; it is an assertion that there is a stream. -/
def detachCurrentStream : Option (Routing pf) :=
  (s.manager.route r).currentStream.map fun st =>
    { setCurrentStream r s none with streamRoute := Function.update s.streamRoute st none }

/-- `AudioStreamRoute::attachNewStream`. The stream takes its route before its conversion is set
up, which may fail. -/
def attachNewStream (o : Answers pf) : Option (Routing pf) :=
  (s.manager.route r).newStream.bind fun st =>
    (s.manager.stream st).newStreamRoute.map fun r' =>
      let s := { s with streamRoute := Function.update s.streamRoute st (some r') }
      if o.attachOk r then setCurrentStream r s (some st) else s

/-- `AudioStreamRoute::unroute`. -/
def unroute (isPostDisable : Bool) : Option (Routing pf) :=
  if !isPostDisable && !s.opened r then some s
  else
    (if isPostDisable then some s else detachCurrentStream r s).map fun s =>
      if isPostDisable = s.postDisable r then
        { s with opened := Function.update s.opened r false }
      else s

/-- The second part of `AudioStreamRoute::route`. -/
def routeOpened (o : Answers pf) (isPreEnable : Bool) : Option (Routing pf) :=
  if isPreEnable then some s
  else if s.opened r then attachNewStream r s o
  else some s

/-- `AudioStreamRoute::route`; it is an assertion of the device that it is not open yet. -/
def route (o : Answers pf) (isPreEnable : Bool) : Option (Routing pf) :=
  if isPreEnable = s.preEnable r then
    if s.opened r then none
    else if o.openOk r then
      routeOpened r { s with opened := Function.update s.opened r true } o isPreEnable
    else some s
  else routeOpened r s o isPreEnable

/-- `AudioStreamRoute::configure`. -/
def configure (o : Answers pf) : Option (Routing pf) :=
  if (s.manager.route r).currentStream = (s.manager.route r).newStream then some s
  else if s.opened r then (detachCurrentStream r s).bind fun s => attachNewStream r s o
  else some s

end Stages

/-- The route is to be disabled. -/
def toDisable (s : RouteManager pf) (r : Fin pf.size) : Bool :=
  ((s.route r).previouslyUsed && !(s.route r).used) || needRepath r s

/-- The route is to be enabled. -/
def toEnable (s : RouteManager pf) (r : Fin pf.size) : Bool :=
  (!(s.route r).previouslyUsed && (s.route r).used) || needRepath r s

/-- `doDisableRoutes` and `doPostDisableRoutes`. -/
def doDisableRoutes (isPostDisable : Bool) (s : Routing pf) : Option (Routing pf) :=
  pf.streamRoutes.foldlM (fun s r =>
    if toDisable s.manager r then unroute r s isPostDisable else some s) s

/-- The routes in `executeConfigureRoutingStage`. -/
def configureRoutes (o : Answers pf) (s : Routing pf) : Option (Routing pf) :=
  pf.streamRoutes.foldlM (fun s r =>
    if needReflow r s.manager then configure r s o else some s) s

/-- `doPreEnableRoutes` and `doEnableRoutes`. -/
def doEnableRoutes (o : Answers pf) (isPreEnable : Bool) (s : Routing pf) : Option (Routing pf) :=
  pf.streamRoutes.foldlM (fun s r =>
    if toEnable s.manager r then route r s o isPreEnable else some s) s

/-- `executeRouting`. -/
def executeRouting (o : Answers pf) (s : Routing pf) : Option (Routing pf) := do
  let s ← doDisableRoutes false s
  let s ← doDisableRoutes true s
  let s ← configureRoutes o s
  let s ← doEnableRoutes o true s
  doEnableRoutes o false s

/-- `doReconsiderRouting`. -/
def doReconsiderRouting (o : Answers pf) (s : Routing pf) : Option (Routing pf) :=
  let s := { s with manager := checkAndPrepareRouting s.manager }
  if routingHasChanged s.manager true || routingHasChanged s.manager false then executeRouting o s
  else some s

/-! ## Runs -/

/-- A round, a change of the settings of a route, or another operation of the route manager. -/
inductive RoutingStep (pf : Platform)
  | round (o : Answers pf)
  | updateStreamRouteConfig (r : Fin pf.size) (preEnable postDisable : Bool)
  | operation (x : Operation pf)

/-- One step. A round is always executed. -/
def routingStep (s : Routing pf) : RoutingStep pf → Option (Routing pf)
  | .round o => doReconsiderRouting o s
  | .updateStreamRouteConfig r pre post =>
    some { s with
      preEnable := Function.update s.preEnable r pre
      postDisable := Function.update s.postDisable r post }
  | .operation .round => none
  | .operation x => (operate s.manager x).map fun m => { s with manager := m }

/-- Before the first round no device is open. -/
def Routing.initial (pf : Platform) : Routing pf :=
  ⟨.initial pf, fun _ => false, fun _ => none, fun _ => false, fun _ => false⟩

/-! ## Consistency -/

/-- The route is a stream route and is used. -/
def active (s : RouteManager pf) (r : Fin pf.size) : Bool :=
  (pf.route r).isStreamRoute && (s.route r).used

/-- A device is open iff its stream route is used; the current stream of a route is the one chosen
for it, if it is used; and route and stream point at each other. -/
structure Consistent (s : Routing pf) : Prop where
  opened : ∀ r, s.opened r = active s.manager r
  currentStream : ∀ r, (s.manager.route r).currentStream =
    if active s.manager r then (s.manager.route r).newStream else none
  link : Linked (fun r => (s.manager.route r).currentStream) s.streamRoute

/-! ## The stages, one by one -/

/-- The state with other devices open and other streams attached. -/
def Routing.arranged (s : Routing pf) (opened : Fin pf.size → Bool)
    (current : Fin pf.size → Option ℕ) (streamRoute : ℕ → Option (Fin pf.size)) : Routing pf :=
  { s with
    manager := { s.manager with
      route := fun r => { s.manager.route r with currentStream := current r } }
    opened := opened
    streamRoute := streamRoute }

/-- In the course of the stages from `s` on, the given devices are open, and the given streams are
attached; route and stream point at each other. -/
def Arrangement (s : Routing pf) (isOpen : Fin pf.size → Bool) (current : Fin pf.size → Option ℕ)
    (t : Routing pf) : Prop :=
  ∃ streamRoute, t = s.arranged isOpen current streamRoute ∧ Linked current streamRoute

section Arranged

variable {s t : Routing pf} {isOpen : Fin pf.size → Bool} {current : Fin pf.size → Option ℕ}
  {r : Fin pf.size} {o : Answers pf}

section

variable (h : Arrangement s isOpen current t)
include h

theorem Arrangement.opened : t.opened = isOpen := by
  obtain ⟨_, rfl, -⟩ := h
  rfl

theorem Arrangement.currentStream (r : Fin pf.size) :
    (t.manager.route r).currentStream = current r := by
  obtain ⟨_, rfl, -⟩ := h
  rfl

/-- The settings and the choices of the round stay. -/
theorem Arrangement.plan (r : Fin pf.size) :
    (t.manager.route r).newStream = (s.manager.route r).newStream ∧
      toDisable t.manager r = toDisable s.manager r ∧
      toEnable t.manager r = toEnable s.manager r ∧
      t.preEnable = s.preEnable ∧ t.postDisable = s.postDisable := by
  obtain ⟨_, rfl, -⟩ := h
  exact ⟨rfl, rfl, rfl, rfl, rfl⟩

theorem Arrangement.needReflow (hstream : (pf.route r).isStreamRoute = true)
    (hprev : (s.manager.route r).previouslyUsed = true) (hused : (s.manager.route r).used = true)
    (hdiffer : current r ≠ (s.manager.route r).newStream) : needReflow r t.manager = true := by
  obtain ⟨_, rfl, -⟩ := h
  simp [AudioRoute.needReflow, Routing.arranged, hprev, hused, hstream, hdiffer]

end

theorem setCurrentStream_arranged (st : Option ℕ) (streamRoute : ℕ → Option (Fin pf.size)) :
    setCurrentStream r (s.arranged isOpen current streamRoute) st =
      s.arranged isOpen (Function.update current r st) streamRoute := by
  unfold setCurrentStream Routing.arranged setRoute
  congr 2
  funext r'
  by_cases hr : r' = r
  · subst hr
    simp
  · simp [hr]

section

variable (h : Arrangement s isOpen current t)
include h

theorem Arrangement.setOpened (b : Bool) :
    Arrangement s (Function.update isOpen r b) current
      { t with opened := Function.update t.opened r b } := by
  obtain ⟨streamRoute, rfl, hlink⟩ := h
  exact ⟨streamRoute, rfl, hlink⟩

theorem Arrangement.detach (hcurrent : (current r).isSome = true) :
    ∃ t', detachCurrentStream r t = some t' ∧
      Arrangement s isOpen (Function.update current r none) t' := by
  obtain ⟨streamRoute, rfl, hlink⟩ := h
  obtain ⟨st, hst⟩ := isSome_iff_exists.mp hcurrent
  have hroute : ((s.arranged isOpen current streamRoute).manager.route r).currentStream =
    some st := hst
  rw [detachCurrentStream, hroute, map_some, setCurrentStream_arranged]
  exact ⟨_, rfl, Function.update streamRoute st none, rfl, hlink.detach hst⟩

theorem Arrangement.attach (hnewLink : NewLink s.manager) {st : ℕ}
    (hnew : (s.manager.route r).newStream = some st) (hcurrent : current r = none)
    (hfree : ∀ r', current r' ≠ some st) (hok : o.attachOk r = true) :
    ∃ t', attachNewStream r t o = some t' ∧
      Arrangement s isOpen (Function.update current r (some st)) t' := by
  obtain ⟨streamRoute, rfl, hlink⟩ := h
  have hnew' : ((s.arranged isOpen current streamRoute).manager.route r).newStream = some st := hnew
  have hroute : ((s.arranged isOpen current streamRoute).manager.stream st).newStreamRoute =
    some r := (hnewLink.link r st).mp hnew
  rw [attachNewStream, hnew', bind_some, hroute, map_some]
  rw [if_pos hok]
  exact ⟨_, rfl, Function.update streamRoute st (some r), setCurrentStream_arranged _ _,
    hlink.attach hcurrent (hlink.eq_none hfree)⟩

end

end Arranged

theorem mem_streamRoutes {r : Fin pf.size} :
    r ∈ pf.streamRoutes ↔ (pf.route r).isStreamRoute = true := by
  simp [Platform.streamRoutes]

/-- The stages go through the routes in their order. -/
theorem pairwise_streamRoutes (pf : Platform) : pf.streamRoutes.Pairwise (· < ·) :=
  (pairwise_lt_finRange pf.size).filter _

/-- The routes before an iteration of a stage, and those after it. -/
theorem streamRoutes_split {done rest : List (Fin pf.size)} {r : Fin pf.size}
    (h : pf.streamRoutes = done ++ r :: rest) : r ∉ done ∧ ∀ r' ∈ rest, r < r' := by
  have hpairwise := pairwise_streamRoutes pf
  rw [h, pairwise_append] at hpairwise
  refine ⟨fun hr => ?_, fun r' hr' => ?_⟩
  · exact absurd (hpairwise.2.2 r hr r (mem_cons_self ..)) (lt_irrefl r)
  · exact (pairwise_cons.mp hpairwise.2.1).1 r' hr'

theorem progress_streamRoutes {β : Type} (C : Fin pf.size → Bool) (new old : Fin pf.size → β)
    (r : Fin pf.size) : progress pf.streamRoutes C new old r =
      if (pf.route r).isStreamRoute && C r then new r else old r := by
  simp [progress, mem_streamRoutes]

section Stages

variable {s t : Routing pf} {isOpen : Fin pf.size → Bool} {current : Fin pf.size → Option ℕ}
  {o : Answers pf}

section

variable (h : Arrangement s isOpen current t)
include h

/-- The first pass over the routes to disable detaches their streams, and closes the devices that
need not wait. -/
theorem Arrangement.doDisableRoutes_false
    (hopen : ∀ r ∈ pf.streamRoutes, toDisable s.manager r = true →
      isOpen r = true ∧ (current r).isSome = true) :
    ∃ t', doDisableRoutes false t = some t' ∧ Arrangement s
      (progress pf.streamRoutes (fun r => toDisable s.manager r && !s.postDisable r)
        (fun _ => false) isOpen)
      (progress pf.streamRoutes (toDisable s.manager) (fun _ => none) current) t' := by
  refine foldlM_invariant (I := fun done t => Arrangement s
      (progress done (fun r => toDisable s.manager r && !s.postDisable r) (fun _ => false) isOpen)
      (progress done (toDisable s.manager) (fun _ => none) current) t) ?_ (by simpa using h)
  intro done r rest t hsplit ht
  obtain ⟨hr, -⟩ := streamRoutes_split hsplit
  obtain ⟨-, hdisable, -, -, hpost⟩ := ht.plan r
  rw [hdisable]
  cases hdis : toDisable s.manager r with
  | false =>
    rw [progress_append_of_neg hdis, progress_append_of_neg (by simp [hdis])]
    exact ⟨t, rfl, ht⟩
  | true =>
    obtain ⟨ho, hc⟩ := hopen r (by simp [hsplit]) hdis
    obtain ⟨t', ht', harranged⟩ := ht.detach (r := r) (by rwa [progress_of_notMem hr])
    have hopened : t.opened r = true := by rw [ht.opened, progress_of_notMem hr, ho]
    have hpost' : t'.postDisable = s.postDisable := (harranged.plan r).2.2.2.2
    rw [progress_append_of_pos hdis]
    simp only [if_true, unroute, hopened, Bool.not_true, Bool.and_false, Bool.false_eq_true,
      if_false, ht', map_some]
    cases hp : s.postDisable r with
    | false =>
      rw [progress_append_of_pos (by simp [hdis, hp]), if_pos (by rw [hpost', hp])]
      exact ⟨_, rfl, harranged.setOpened false⟩
    | true =>
      rw [progress_append_of_neg (by simp [hp]), if_neg (by simp [hpost', hp])]
      exact ⟨_, rfl, harranged⟩

/-- The second pass closes the other devices. -/
theorem Arrangement.doDisableRoutes_true :
    ∃ t', doDisableRoutes true t = some t' ∧ Arrangement s
      (progress pf.streamRoutes (fun r => toDisable s.manager r && s.postDisable r)
        (fun _ => false) isOpen) current t' := by
  refine foldlM_invariant (I := fun done t => Arrangement s
      (progress done (fun r => toDisable s.manager r && s.postDisable r) (fun _ => false) isOpen)
      current t) ?_ (by simpa using h)
  intro done r rest t hsplit ht
  obtain ⟨-, hdisable, -, -, hpost⟩ := ht.plan r
  rw [hdisable]
  cases hdis : toDisable s.manager r with
  | false =>
    rw [progress_append_of_neg (by simp [hdis])]
    exact ⟨t, rfl, ht⟩
  | true =>
    simp only [if_true, unroute, Bool.not_true, Bool.false_and, Bool.false_eq_true, if_false,
      map_some]
    cases hp : s.postDisable r with
    | false =>
      rw [progress_append_of_neg (by simp [hp]), if_neg (by simp [hpost, hp])]
      exact ⟨_, rfl, ht⟩
    | true =>
      rw [progress_append_of_pos (by simp [hdis, hp]), if_pos (by rw [hpost, hp])]
      exact ⟨_, rfl, ht.setOpened false⟩

/-- The routes that were open before the configure stage take the streams chosen for them, if no
stream goes to a route before the one it is taken from. -/
theorem Arrangement.configureRoutes (hnewLink : NewLink s.manager) (hok : ∀ r, o.attachOk r = true)
    (hopen : ∀ r, isOpen r = true → r ∈ pf.streamRoutes ∧
      (s.manager.route r).previouslyUsed = true ∧ (s.manager.route r).used = true ∧
      (current r).isSome = true ∧ (s.manager.route r).newStream.isSome = true)
    (hforward : ∀ r r' st, isOpen r = true → (s.manager.route r).newStream = some st →
      current r' = some st → isOpen r' = true ∧ r' ≤ r) :
    ∃ t', configureRoutes o t = some t' ∧ Arrangement s isOpen
      (progress pf.streamRoutes isOpen (fun r => (s.manager.route r).newStream) current) t' := by
  refine foldlM_invariant (I := fun done t => Arrangement s isOpen
      (progress done isOpen (fun r => (s.manager.route r).newStream) current) t) ?_
    (by simpa using h)
  intro done r rest t hsplit ht
  obtain ⟨hr, hrest⟩ := streamRoutes_split hsplit
  have hcurrent := ht.currentStream r
  rw [progress_of_notMem hr] at hcurrent
  have hnew := (ht.plan r).1
  cases ho : isOpen r with
  | false =>
    refine ⟨t, ?_, by rwa [progress_append_of_neg ho]⟩
    simp [configure, ht.opened, ho]
  | true =>
    obtain ⟨hmem, hprev, hused, hsome, hsomeNew⟩ := hopen r ho
    obtain ⟨st, hst⟩ := isSome_iff_exists.mp hsomeNew
    by_cases hsame : current r = some st
    · refine ⟨t, ?_, ?_⟩
      · simp [configure, hcurrent, hnew, hst, hsame]
      · have hold : progress done isOpen (fun r => (s.manager.route r).newStream) current r =
            (s.manager.route r).newStream := by rw [progress_of_notMem hr, hsame, hst]
        rw [progress_append_of_pos ho, ← hold, Function.update_eq_self]
        exact ht
    · have hneed := ht.needReflow (mem_streamRoutes.mp hmem) hprev hused
        (by rwa [progress_of_notMem hr, hst])
      obtain ⟨t', ht', harranged⟩ := ht.detach (r := r) (by rwa [progress_of_notMem hr])
      obtain ⟨t'', ht'', hfinal⟩ := harranged.attach (o := o) hnewLink hst
        (Function.update_self ..) (by
          intro r' hr'
          by_cases hself : r' = r
          · subst hself
            simp at hr'
          rw [Function.update_of_ne hself] at hr'
          unfold progress at hr'
          split at hr'
          · exact hself (hnewLink.link.unique hr' hst)
          · rename_i hdone
            obtain ⟨hopen', hle⟩ := hforward r r' st ho hst hr'
            have hmem' := (hopen r' hopen').1
            rw [hsplit] at hmem'
            rcases mem_append.mp hmem' with hd | hd
            · simp [hd, hopen'] at hdone
            · rcases mem_cons.mp hd with hd | hd
              · exact hself hd
              · exact absurd (hrest r' hd) (not_lt_of_ge hle)) (hok r)
      refine ⟨t'', ?_, ?_⟩
      · rw [if_pos hneed, configure, if_neg (by rw [hcurrent, hnew, hst]; exact hsame),
          if_pos (by rw [ht.opened, ho]), ht', bind_some, ht'']
      · rw [progress_append_of_pos ho, hst]
        simpa using hfinal

/-- The first pass over the routes to enable opens the devices that are to be opened early. -/
theorem Arrangement.doEnableRoutes_true (hok : ∀ r, o.openOk r = true)
    (hclosed : ∀ r, toEnable s.manager r = true → isOpen r = false) :
    ∃ t', doEnableRoutes o true t = some t' ∧ Arrangement s
      (progress pf.streamRoutes (fun r => toEnable s.manager r && s.preEnable r)
        (fun _ => true) isOpen) current t' := by
  refine foldlM_invariant (I := fun done t => Arrangement s
      (progress done (fun r => toEnable s.manager r && s.preEnable r) (fun _ => true) isOpen)
      current t) ?_ (by simpa using h)
  intro done r rest t hsplit ht
  obtain ⟨hr, -⟩ := streamRoutes_split hsplit
  obtain ⟨-, -, henable, hpre, -⟩ := ht.plan r
  rw [henable]
  cases hen : toEnable s.manager r with
  | false =>
    rw [progress_append_of_neg (by simp [hen])]
    exact ⟨t, rfl, ht⟩
  | true =>
    have hopened : t.opened r = false := by
      rw [ht.opened, progress_of_notMem hr, hclosed r hen]
    cases hp : s.preEnable r with
    | false =>
      rw [progress_append_of_neg (by simp [hp])]
      exact ⟨t, by simp [route, routeOpened, hpre, hp], ht⟩
    | true =>
      rw [progress_append_of_pos (by simp [hen, hp])]
      exact ⟨_, by simp [route, routeOpened, hpre, hp, hopened, hok], ht.setOpened true⟩

/-- The second pass opens the other devices, and attaches the streams. -/
theorem Arrangement.doEnableRoutes_false (hnewLink : NewLink s.manager)
    (hopenOk : ∀ r, o.openOk r = true) (hattachOk : ∀ r, o.attachOk r = true)
    (hready : ∀ r ∈ pf.streamRoutes, toEnable s.manager r = true →
      isOpen r = s.preEnable r ∧ current r = none ∧ (s.manager.route r).newStream.isSome = true)
    (hfree : ∀ r r' st, toEnable s.manager r = true → (s.manager.route r).newStream = some st →
      current r' ≠ some st) :
    ∃ t', doEnableRoutes o false t = some t' ∧ Arrangement s
      (progress pf.streamRoutes (fun r => toEnable s.manager r && !s.preEnable r)
        (fun _ => true) isOpen)
      (progress pf.streamRoutes (toEnable s.manager) (fun r => (s.manager.route r).newStream)
        current) t' := by
  refine foldlM_invariant (I := fun done t => Arrangement s
      (progress done (fun r => toEnable s.manager r && !s.preEnable r) (fun _ => true) isOpen)
      (progress done (toEnable s.manager) (fun r => (s.manager.route r).newStream) current) t)
    ?_ (by simpa using h)
  intro done r rest t hsplit ht
  obtain ⟨hr, -⟩ := streamRoutes_split hsplit
  obtain ⟨-, -, henable, hpre, -⟩ := ht.plan r
  rw [henable]
  cases hen : toEnable s.manager r with
  | false =>
    rw [progress_append_of_neg hen, progress_append_of_neg (by simp [hen])]
    exact ⟨t, rfl, ht⟩
  | true =>
    obtain ⟨ho, hnone, hsome⟩ := hready r (by simp [hsplit]) hen
    obtain ⟨st, hst⟩ := isSome_iff_exists.mp hsome
    have hopened : t.opened r = s.preEnable r := by
      rw [ht.opened, progress_of_notMem hr, ho]
    have hfree' : ∀ r', progress done (toEnable s.manager)
        (fun r => (s.manager.route r).newStream) current r' ≠ some st := by
      intro r' hr'
      unfold progress at hr'
      split at hr'
      · rename_i hdone
        simp only [Bool.and_eq_true, decide_eq_true_eq] at hdone
        exact hr (hnewLink.link.unique hr' hst ▸ hdone.1)
      · exact hfree r r' st hen hst hr'
    rw [progress_append_of_pos hen, hst]
    cases hp : s.preEnable r with
    | false =>
      obtain ⟨t', ht', hfinal⟩ := (ht.setOpened (r := r) true).attach (o := o) hnewLink hst
        (by rw [progress_of_notMem hr, hnone]) hfree' (hattachOk r)
      rw [progress_append_of_pos (by simp [hen, hp])]
      refine ⟨t', ?_, hfinal⟩
      rw [← ht']
      simp [route, routeOpened, hpre, hp, hopened, hopenOk]
    | true =>
      obtain ⟨t', ht', hfinal⟩ := ht.attach (o := o) hnewLink hst
        (by rw [progress_of_notMem hr, hnone]) hfree' (hattachOk r)
      rw [progress_append_of_neg (by simp [hp])]
      refine ⟨t', ?_, hfinal⟩
      rw [← ht']
      simp [route, routeOpened, hpre, hp, hopened]

end

end Stages

/-! ## A round -/

/-- The stream route stays used and keeps its path. -/
def kept (s : RouteManager pf) (r : Fin pf.size) : Bool :=
  (pf.route r).isStreamRoute && (s.route r).previouslyUsed && (s.route r).used &&
    !(s.route r).pathRequested

/-- Among the routes that stay used, no stream moves to a route before its present one. -/
def ForwardMoves (s : RouteManager pf) : Prop :=
  ∀ r r', kept s r = true → kept s r' = true →
    (s.route r).newStream = (s.route r').currentStream → r' ≤ r

instance (s : RouteManager pf) : Decidable (ForwardMoves s) :=
  inferInstanceAs (Decidable (∀ _ _, _ → _ → _ → _))

/-- The identifiers of the routes of one direction are different bits. -/
structure Platform.DistinctIds (pf : Platform) : Prop where
  exists_bit : ∀ r, ∃ k, (pf.route r).id.testBit k = true
  unique : ∀ r r' k, (pf.route r).isOut = (pf.route r').isOut →
    (pf.route r).id.testBit k = true → (pf.route r').id.testBit k = true → r = r'

/-- What holds between two rounds: the state is consistent, the choices of the last round are, and
the mask of the enabled routes is that of the used ones. -/
structure Settled (s : Routing pf) : Prop where
  consistent : Consistent s
  newLink : NewLink s.manager
  stream : ∀ r, (pf.route r).isStreamRoute = true →
    (s.manager.route r).newStream.isSome = (s.manager.route r).used
  enabled : ∀ d k, (s.manager.routes d).enabled.testBit k = true ↔
    ∃ r, (pf.route r).isOut = d ∧ (s.manager.route r).used = true ∧
      (pf.route r).id.testBit k = true

/-- Before the stages of a round: the devices of the routes used until now are open, and have their
streams. -/
structure Ready (s : Routing pf) : Prop where
  newLink : NewLink s.manager
  stream : ∀ r, (pf.route r).isStreamRoute = true →
    (s.manager.route r).newStream.isSome = (s.manager.route r).used
  opened : ∀ r, s.opened r =
    ((pf.route r).isStreamRoute && (s.manager.route r).previouslyUsed)
  currentStream : ∀ r, (s.manager.route r).currentStream.isSome =
    ((pf.route r).isStreamRoute && (s.manager.route r).previouslyUsed)
  link : Linked (fun r => (s.manager.route r).currentStream) s.streamRoute

section Round

variable {s t : Routing pf} {o : Answers pf}

theorem Arrangement.congr {isOpen isOpen' : Fin pf.size → Bool}
    {current current' : Fin pf.size → Option ℕ} (h : Arrangement s isOpen current t)
    (hopen : ∀ r, isOpen r = isOpen' r) (hcurrent : ∀ r, current r = current' r) :
    Arrangement s isOpen' current' t := by
  obtain rfl : isOpen = isOpen' := funext hopen
  obtain rfl : current = current' := funext hcurrent
  exact h

/-- The two passes of the disable stage leave the routes that are kept. -/
theorem Ready.disable (h : Ready s) :
    ∃ t t', doDisableRoutes false s = some t ∧ doDisableRoutes true t = some t' ∧
      Arrangement s (kept s.manager)
        (fun r => if kept s.manager r then (s.manager.route r).currentStream else none) t' := by
  have hstart : Arrangement s s.opened (fun r => (s.manager.route r).currentStream) s :=
    ⟨s.streamRoute, rfl, h.link⟩
  have hdisable : ∀ r ∈ pf.streamRoutes, toDisable s.manager r = true →
      s.opened r = true ∧ (s.manager.route r).currentStream.isSome = true := by
    intro r hr hdis
    have hprev : (s.manager.route r).previouslyUsed = true := by
      simp only [toDisable, needRepath, Bool.or_eq_true, Bool.and_eq_true] at hdis
      tauto
    rw [h.opened, h.currentStream, mem_streamRoutes.mp hr, hprev]
    exact ⟨rfl, rfl⟩
  obtain ⟨t, ht, hfirst⟩ := hstart.doDisableRoutes_false hdisable
  obtain ⟨t', ht', hsecond⟩ := hfirst.doDisableRoutes_true
  refine ⟨t, t', ht, ht', hsecond.congr (fun r => ?_) fun r => ?_⟩
  · simp only [progress_streamRoutes, h.opened, toDisable, needRepath, kept]
    cases (pf.route r).isStreamRoute <;> cases (s.manager.route r).previouslyUsed <;>
      cases (s.manager.route r).used <;> cases (s.manager.route r).pathRequested <;>
        cases s.postDisable r <;> rfl
  · have hkept : kept s.manager r = (((pf.route r).isStreamRoute &&
        (s.manager.route r).previouslyUsed) &&
          !((pf.route r).isStreamRoute && toDisable s.manager r)) := by
      simp only [kept, toDisable, needRepath]
      cases (pf.route r).isStreamRoute <;> cases (s.manager.route r).previouslyUsed <;>
        cases (s.manager.route r).used <;> cases (s.manager.route r).pathRequested <;> rfl
    rw [progress_streamRoutes, hkept, ← h.currentStream r]
    cases (pf.route r).isStreamRoute && toDisable s.manager r <;>
      cases (s.manager.route r).currentStream <;> simp

/-- The configure stage gives the routes that are kept their new streams. -/
theorem Arrangement.configure_kept (h : Ready s) (hok : ∀ r, o.attachOk r = true)
    (hforward : ForwardMoves s.manager)
    (ht : Arrangement s (kept s.manager)
      (fun r => if kept s.manager r then (s.manager.route r).currentStream else none) t) :
    ∃ t', AudioRoute.configureRoutes o t = some t' ∧ Arrangement s (kept s.manager)
      (fun r => if kept s.manager r then (s.manager.route r).newStream else none) t' := by
  have hkept : ∀ r, kept s.manager r = true → r ∈ pf.streamRoutes ∧
      (s.manager.route r).previouslyUsed = true ∧ (s.manager.route r).used = true ∧
      (if kept s.manager r then (s.manager.route r).currentStream else none).isSome = true ∧
      (s.manager.route r).newStream.isSome = true := by
    intro r hr
    have hr' := hr
    simp only [kept, Bool.and_eq_true] at hr'
    obtain ⟨⟨⟨hstream, hprev⟩, hused⟩, -⟩ := hr'
    refine ⟨mem_streamRoutes.mpr hstream, hprev, hused, ?_, ?_⟩
    · rw [if_pos hr, h.currentStream, hstream, hprev]
      rfl
    · rw [h.stream r hstream, hused]
  obtain ⟨t', ht', hconfigured⟩ := ht.configureRoutes h.newLink hok hkept (by
    intro r r' st hr hst hr'
    split at hr'
    · rename_i hk
      exact ⟨hk, hforward r r' hr hk (hst.trans hr'.symm)⟩
    · exact absurd hr' (by simp))
  refine ⟨t', ht', hconfigured.congr (fun _ => rfl) fun r => ?_⟩
  by_cases hr : kept s.manager r = true
  · simp [progress, hr, (hkept r hr).1]
  · simp [progress, hr]

/-- The two passes of the enable stage leave all used stream routes open, with their new streams. -/
theorem Arrangement.enable (h : Ready s) (hopenOk : ∀ r, o.openOk r = true)
    (hattachOk : ∀ r, o.attachOk r = true)
    (ht : Arrangement s (kept s.manager)
      (fun r => if kept s.manager r then (s.manager.route r).newStream else none) t) :
    ∃ t' t'', doEnableRoutes o true t = some t' ∧ doEnableRoutes o false t' = some t'' ∧
      Arrangement s (active s.manager)
        (fun r => if active s.manager r then (s.manager.route r).newStream else none) t'' := by
  have hnotKept : ∀ r, toEnable s.manager r = true → kept s.manager r = false := by
    intro r
    simp only [toEnable, needRepath, kept]
    cases (s.manager.route r).previouslyUsed <;> cases (s.manager.route r).pathRequested <;> simp
  have hused : ∀ r, toEnable s.manager r = true → (s.manager.route r).used = true := by
    intro r
    simp only [toEnable, needRepath]
    cases (s.manager.route r).used <;> simp
  obtain ⟨t', ht', hfirst⟩ := ht.doEnableRoutes_true hopenOk hnotKept
  obtain ⟨t'', ht'', hsecond⟩ := hfirst.doEnableRoutes_false h.newLink hopenOk hattachOk
    (by
      intro r hr hen
      refine ⟨?_, ?_, ?_⟩
      · simp [progress, hr, hen, hnotKept r hen]
      · simp [hnotKept r hen]
      · rw [h.stream r (mem_streamRoutes.mp hr), hused r hen])
    (by
      intro r r' st hen hst hr'
      split at hr'
      · rename_i hk
        obtain rfl := h.newLink.link.unique hst hr'
        simp [hnotKept r hen] at hk
      · exact absurd hr' (by simp))
  refine ⟨t', t'', ht', ht'', hsecond.congr (fun r => ?_) fun r => ?_⟩
  · simp only [progress_streamRoutes, toEnable, needRepath, kept, active]
    cases (pf.route r).isStreamRoute <;> cases (s.manager.route r).previouslyUsed <;>
      cases (s.manager.route r).used <;> cases (s.manager.route r).pathRequested <;>
        cases s.preEnable r <;> rfl
  · have hactive : active s.manager r =
        (((pf.route r).isStreamRoute && toEnable s.manager r) || kept s.manager r) := by
      simp only [toEnable, needRepath, kept, active]
      cases (pf.route r).isStreamRoute <;> cases (s.manager.route r).previouslyUsed <;>
        cases (s.manager.route r).used <;> cases (s.manager.route r).pathRequested <;> rfl
    rw [progress_streamRoutes, hactive]
    cases (pf.route r).isStreamRoute && toEnable s.manager r <;> simp

/-- All stages together. -/
theorem Ready.executeRouting (h : Ready s) (hopenOk : ∀ r, o.openOk r = true)
    (hattachOk : ∀ r, o.attachOk r = true) (hforward : ForwardMoves s.manager) :
    ∃ t, executeRouting o s = some t ∧ Arrangement s (active s.manager)
      (fun r => if active s.manager r then (s.manager.route r).newStream else none) t := by
  obtain ⟨t₁, t₂, h₁, h₂, hdisabled⟩ := h.disable
  obtain ⟨t₃, h₃, hconfigured⟩ := hdisabled.configure_kept h hattachOk hforward
  obtain ⟨t₄, t₅, h₄, h₅, henabled⟩ := hconfigured.enable h hopenOk hattachOk
  refine ⟨t₅, ?_, henabled⟩
  simp only [AudioRoute.executeRouting, bind_eq_bind, h₁, h₂, h₃, h₄, h₅, bind_some]

end Round

/-! ## Every run -/

/-- A round opens every device and attaches every stream it wants to. -/
def RoutingStep.succeeds : RoutingStep pf → Bool
  | .round o => decide ((∀ r, o.openOk r = true) ∧ ∀ r, o.attachOk r = true)
  | _ => true

/-- A round succeeds, and moves streams forward only. -/
def smooth (s : Routing pf) : RoutingStep pf → Bool
  | .round o => (RoutingStep.round o).succeeds &&
    decide (ForwardMoves (checkAndPrepareRouting s.manager))
  | _ => true

section Runs

variable {s t : Routing pf} {o : Answers pf}

/-- The state in which the stages start. -/
theorem Settled.ready (h : Settled s) :
    Ready { s with manager := checkAndPrepareRouting s.manager } := by
  have hprepared := prepared_checkAndPrepareRouting h.newLink
  refine ⟨hprepared.link, hprepared.stream, fun r => ?_, fun r => ?_, ?_⟩
  · rw [hprepared.previouslyUsed]
    exact h.consistent.opened r
  · have hcurrent := h.consistent.currentStream r
    have hstream := h.stream r
    rw [hprepared.previouslyUsed, hprepared.currentStream, hcurrent, active]
    cases hisStream : (pf.route r).isStreamRoute with
    | false => rfl
    | true =>
      cases hused : (s.manager.route r).used with
      | false => rfl
      | true => exact (hstream hisStream).trans hused
  · simpa only [hprepared.currentStream] using h.consistent.link

/-- A state that differs from the prepared one in devices and streams only, and is consistent. -/
theorem Settled.of_arrangement (h : Settled s)
    (ht : Arrangement { s with manager := checkAndPrepareRouting s.manager }
      (active (checkAndPrepareRouting s.manager))
      (fun r => if active (checkAndPrepareRouting s.manager) r then
        ((checkAndPrepareRouting s.manager).route r).newStream else none) t) : Settled t := by
  have hprepared := prepared_checkAndPrepareRouting h.newLink
  obtain ⟨streamRoute, rfl, hlink⟩ := ht
  refine ⟨⟨fun _ => rfl, fun _ => rfl, hlink⟩, ?_, hprepared.stream, fun d k => ?_⟩
  · exact hprepared.link.of_newStream (fun _ => rfl) rfl
  · refine (hprepared.enabled d k).trans ?_
    simp [Routing.arranged]

/-- If the masks say that nothing has changed, the same routes are used, and none is reflowed. -/
theorem used_of_unchanged (hids : pf.DistinctIds) {m : RouteManager pf} (hlink : NewLink m)
    (henabled : ∀ d k, (m.routes d).enabled.testBit k = true ↔
      ∃ r, (pf.route r).isOut = d ∧ (m.route r).used = true ∧ (pf.route r).id.testBit k = true)
    (hmasks : ∀ d, routingHasChanged (checkAndPrepareRouting m) d = false) (r : Fin pf.size) :
    ((checkAndPrepareRouting m).route r).used = (m.route r).used ∧
      needReflow r (checkAndPrepareRouting m) = false := by
  have hprepared := prepared_checkAndPrepareRouting hlink
  simp only [routingHasChanged, Bool.or_eq_false_iff, decide_eq_false_iff_not, not_not] at hmasks
  obtain ⟨k, hk⟩ := hids.exists_bit r
  constructor
  · have hbefore := henabled (pf.route r).isOut k
    have hafter := hprepared.enabled (pf.route r).isOut k
    rw [← (hmasks _).1.1, hprepared.prevEnabled] at hafter
    refine Bool.eq_iff_iff.mpr ⟨fun hused => ?_, fun hused => ?_⟩
    · obtain ⟨r', hout, hused', hk'⟩ := hbefore.mp (hafter.mpr ⟨r, by simp, rfl, hused, hk⟩)
      exact hids.unique r r' k hout.symm hk hk' ▸ hused'
    · obtain ⟨r', -, hout, hused', hk'⟩ := hafter.mp (hbefore.mpr ⟨r, rfl, hused, hk⟩)
      exact hids.unique r r' k hout.symm hk hk' ▸ hused'
  · by_contra hneed
    have hset := (hprepared.needReflow (pf.route r).isOut k).mpr
      ⟨r, by simp, rfl, by simpa using hneed, hk⟩
    rw [(hmasks _).1.2] at hset
    simp at hset

/-- If the masks say that nothing has changed, the same routes are used, with the same streams. -/
theorem Settled.unchanged (hids : pf.DistinctIds) (h : Settled s)
    (hmasks : ∀ d, routingHasChanged (checkAndPrepareRouting s.manager) d = false) :
    Settled { s with manager := checkAndPrepareRouting s.manager } := by
  have hprepared := prepared_checkAndPrepareRouting h.newLink
  have hready := h.ready
  have hsteady := used_of_unchanged hids h.newLink h.enabled hmasks
  set m := checkAndPrepareRouting s.manager with hm
  have hused : ∀ r, (m.route r).used = (m.route r).previouslyUsed := by
    intro r
    rw [hprepared.previouslyUsed]
    exact (hsteady r).1
  have hstart : Arrangement { s with manager := m } s.opened
      (fun r => (m.route r).currentStream) { s with manager := m } :=
    ⟨s.streamRoute, rfl, hready.link⟩
  refine h.of_arrangement (hstart.congr (fun r => ?_) fun r => ?_)
  · rw [active, hused]
    exact hready.opened r
  · have hsame := (hsteady r).2
    have hcurrent := hready.currentStream r
    rw [active, hused]
    cases hactive : ((pf.route r).isStreamRoute && (m.route r).previouslyUsed) with
    | false => simpa [hactive] using hcurrent
    | true =>
      rw [Bool.and_eq_true] at hactive
      simp only [needReflow, hactive.1, hactive.2, hused, Bool.true_and, Bool.or_eq_false_iff,
        decide_eq_false_iff_not, not_not] at hsame
      exact hsame.2

/-- A smooth round comes to an end, and the state is settled again. -/
theorem Settled.doReconsiderRouting (hids : pf.DistinctIds) (h : Settled s)
    (hsmooth : smooth s (.round o) = true) :
    ∃ t, doReconsiderRouting o s = some t ∧ Settled t := by
  simp only [smooth, RoutingStep.succeeds, Bool.and_eq_true, decide_eq_true_eq] at hsmooth
  obtain ⟨⟨hopenOk, hattachOk⟩, hforward⟩ := hsmooth
  unfold AudioRoute.doReconsiderRouting
  dsimp only
  split
  · obtain ⟨t, ht, harranged⟩ := h.ready.executeRouting hopenOk hattachOk hforward
    exact ⟨t, ht, h.of_arrangement harranged⟩
  · rename_i hmasks
    simp only [Bool.or_eq_true, not_or, Bool.not_eq_true] at hmasks
    exact ⟨_, rfl, h.unchanged hids (Bool.rec hmasks.2 hmasks.1)⟩

theorem Consistent.of_fields (h : Consistent s) (hopened : t.opened = s.opened)
    (hstreamRoute : t.streamRoute = s.streamRoute)
    (hroute : ∀ r, (t.manager.route r).used = (s.manager.route r).used ∧
      (t.manager.route r).currentStream = (s.manager.route r).currentStream ∧
      (t.manager.route r).newStream = (s.manager.route r).newStream) : Consistent t := by
  have hactive : ∀ r, active t.manager r = active s.manager r := by
    intro r
    rw [active, active, (hroute r).1]
  refine ⟨fun r => ?_, fun r => ?_, ?_⟩
  · rw [hopened, hactive, h.opened]
  · rw [hactive, (hroute r).2.1, (hroute r).2.2, h.currentStream]
  · simp only [hstreamRoute, hroute]
    exact h.link

/-- The fields of the state that only a round changes. -/
theorem Settled.of_fields (h : Settled s) (hopened : t.opened = s.opened)
    (hstreamRoute : t.streamRoute = s.streamRoute)
    (hroute : ∀ r, (t.manager.route r).used = (s.manager.route r).used ∧
      (t.manager.route r).currentStream = (s.manager.route r).currentStream ∧
      (t.manager.route r).newStream = (s.manager.route r).newStream)
    (hstream : ∀ st, (t.manager.stream st).newStreamRoute = (s.manager.stream st).newStreamRoute)
    (hroutes : t.manager.routes = s.manager.routes) : Settled t := by
  refine ⟨h.consistent.of_fields hopened hstreamRoute hroute, ⟨?_, fun r => ?_⟩, fun r => ?_,
    fun d k => ?_⟩
  · simp only [hroute, hstream]
    exact h.newLink.link
  · rw [(hroute r).2.2]
    exact h.newLink.isStreamRoute r
  · rw [(hroute r).2.2, (hroute r).1]
    exact h.stream r
  · simp only [hroutes, hroute]
    exact h.enabled d k

/-- Every operation but a round leaves the choices, and what the stages have done, as they are. -/
theorem operate_frame {m m' : RouteManager pf} {x : Operation pf} (hx : x ≠ .round)
    (h : operate m x = some m') :
    (∀ r, (m'.route r).used = (m.route r).used ∧
      (m'.route r).currentStream = (m.route r).currentStream ∧
      (m'.route r).newStream = (m.route r).newStream) ∧
    (∀ st, (m'.stream st).newStreamRoute = (m.stream st).newStreamRoute) ∧
    m'.routes = m.routes := by
  have hroute : ∀ (r : Fin pf.size) {f : RouteState → RouteState},
      (∀ x, (f x).used = x.used ∧ (f x).currentStream = x.currentStream ∧
        (f x).newStream = x.newStream) →
      ∀ r', ((setRoute r f m).route r').used = (m.route r').used ∧
        ((setRoute r f m).route r').currentStream = (m.route r').currentStream ∧
        ((setRoute r f m).route r').newStream = (m.route r').newStream := by
    intro r f hf r'
    by_cases hr : r' = r
    · subst hr
      simp [setRoute, hf]
    · simp [setRoute, hr]
  cases x with
  | round => exact absurd rfl hx
  | setPortBlocked p blocked =>
    obtain rfl := some.inj h
    have hblocks := onlyBlocks_portSetBlocked p blocked m
    refine ⟨fun r => ⟨?_, ?_, ?_⟩, fun st => ?_, hblocks.routes⟩
    · exact hblocks.field RouteState.used (fun _ => rfl) r
    · exact hblocks.field RouteState.currentStream (fun _ => rfl) r
    · exact hblocks.field RouteState.newStream (fun _ => rfl) r
    · rw [hblocks.stream]
  | setStreamRequest st started mask effect =>
    obtain rfl := some.inj h
    refine ⟨fun _ => ⟨rfl, rfl, rfl⟩, fun st' => ?_, rfl⟩
    by_cases hst : st' = st
    · subst hst
      simp [setStreamState]
    · simp [setStreamState, hst]
  | addStream | removeStream =>
    obtain rfl := some.inj h
    exact ⟨fun _ => ⟨rfl, rfl, rfl⟩, fun _ => rfl, rfl⟩
  | setRouteApplicable | setRouteNeedReconfigure | setRouteNeedReroute | updateStreamRouteConfig
    | addRouteSupportedEffect =>
    obtain rfl := some.inj h
    exact ⟨hroute _ fun _ => ⟨rfl, rfl, rfl⟩, fun _ => rfl, rfl⟩

/-- An operation in a run is one of the route manager, but no round. -/
theorem operate_of_routingStep {x : Operation pf}
    (ht : routingStep s (.operation x) = some t) :
    x ≠ .round ∧ ∃ m, operate s.manager x = some m ∧ { s with manager := m } = t := by
  by_cases hround : x = .round
  · subst hround
    exact absurd ht (by simp [AudioRoute.routingStep])
  · have hmap : (AudioRoute.operate s.manager x).map (fun m => { s with manager := m }) =
        some t := by
      rw [← ht]
      cases x <;> first | rfl | exact absurd rfl hround
    exact ⟨hround, map_eq_some_iff.mp hmap⟩

/-- The same for a step of a run that is not a round. -/
theorem routingStep_frame {x : RoutingStep pf} (hx : ∀ o, x ≠ .round o)
    (ht : routingStep s x = some t) :
    t.opened = s.opened ∧ t.streamRoute = s.streamRoute ∧
    (∀ r, (t.manager.route r).used = (s.manager.route r).used ∧
      (t.manager.route r).currentStream = (s.manager.route r).currentStream ∧
      (t.manager.route r).newStream = (s.manager.route r).newStream) ∧
    (∀ st, (t.manager.stream st).newStreamRoute = (s.manager.stream st).newStreamRoute) ∧
    t.manager.routes = s.manager.routes := by
  cases x with
  | round o => exact absurd rfl (hx o)
  | updateStreamRouteConfig r pre post =>
    obtain rfl := some.inj ht
    exact ⟨rfl, rfl, fun _ => ⟨rfl, rfl, rfl⟩, fun _ => rfl, rfl⟩
  | operation x =>
    obtain ⟨hround, m, hm, rfl⟩ := operate_of_routingStep ht
    exact ⟨rfl, rfl, operate_frame hround hm⟩

/-- One step of a run. -/
theorem Settled.routingStep (hids : pf.DistinctIds) (h : Settled s) {x : RoutingStep pf}
    (hsmooth : smooth s x = true) (ht : routingStep s x = some t) : Settled t := by
  by_cases hx : ∃ o, x = .round o
  · obtain ⟨o, rfl⟩ := hx
    obtain ⟨t', ht', hsettled⟩ := h.doReconsiderRouting hids hsmooth
    obtain rfl : t' = t := some.inj (ht'.symm.trans ht)
    exact hsettled
  · obtain ⟨hopened, hstreamRoute, hroute, hstream, hroutes⟩ :=
      routingStep_frame (fun o ho => hx ⟨o, ho⟩) ht
    exact h.of_fields hopened hstreamRoute hroute hstream hroutes

theorem settled_initial (pf : Platform) : Settled (Routing.initial pf) := by
  constructor
  · constructor <;> simp [Routing.initial, RouteManager.initial, active, Linked]
  · constructor <;> simp [Routing.initial, RouteManager.initial, Linked]
  · simp [Routing.initial, RouteManager.initial]
  · simp [Routing.initial, RouteManager.initial]

/-- In every run of smooth rounds, in any order with the other operations, the routing is
consistent, and the next smooth round comes to an end. -/
theorem routing_consistent (hids : pf.DistinctIds)
    (hrun : Reach routingStep (fun s x => smooth s x = true) (Routing.initial pf) s) :
    Consistent s ∧ ∀ o, smooth s (.round o) = true → (routingStep s (.round o)).isSome = true := by
  have hsettled : Settled s := hrun.invariant (settled_initial pf) fun a x b ha hx hb =>
    ha.routingStep hids hx hb
  refine ⟨hsettled.consistent, fun o ho => ?_⟩
  obtain ⟨t, ht, -⟩ := hsettled.doReconsiderRouting hids ho
  exact isSome_iff_exists.mpr ⟨t, ht⟩

end Runs

/-- Two output stream routes without ports. -/
def twoStreamRoutes : Platform := ⟨2, fun r => ⟨r.val + 1, true, true, [], by decide⟩, []⟩

def lowRoute : Fin twoStreamRoutes.size := ⟨0, by decide⟩

def highRoute : Fin twoStreamRoutes.size := ⟨1, by decide⟩

theorem distinctIds_twoStreamRoutes : twoStreamRoutes.DistinctIds := by
  constructor
  · intro r
    exact ⟨r.val, by revert r; decide⟩
  · intro r r' k _ hk hk'
    by_contra hne
    have hdisjoint : ∀ r r' : Fin 2, r ≠ r' → (r.val + 1) &&& (r'.val + 1) = 0 := by decide
    have hbits := congrArg (Nat.testBit · k) (hdisjoint r r' hne)
    have hboth : ((r.val + 1).testBit k && (r'.val + 1).testBit k) = true :=
      Bool.and_eq_true_iff.mpr ⟨hk, hk'⟩
    simp only [Nat.testBit_and, Nat.zero_testBit, hboth] at hbits
    exact absurd hbits (by decide)

/-- A round in which everything succeeds. -/
def RoutingStep.fine : RoutingStep pf := .round ⟨fun _ => true, fun _ => true⟩

/-- Stream 0 starts for the first route and stream 1 for the second one. -/
def startTwoStreams : List (RoutingStep twoStreamRoutes) :=
  [.operation (.setRouteApplicable lowRoute true), .operation (.setRouteApplicable highRoute true),
    .operation (.updateStreamRouteConfig lowRoute 1),
    .operation (.updateStreamRouteConfig highRoute 2),
    .operation (.addStream true 0), .operation (.addStream true 1), .operation (.addStream true 2),
    .operation (.setStreamRequest 0 true 1 0), .operation (.setStreamRequest 1 true 2 0), .fine]

/-- Stream 0 moves to the second route, where stream 1 stops; stream 2 takes the first one. -/
theorem routing_consistent_stream_moves :
    ∃ s, Reach routingStep (fun s x => smooth s x = true) (Routing.initial twoStreamRoutes) s ∧
      s.streamRoute 0 = some highRoute ∧ Consistent s :=
  Reach.exists_of_decide (fun s hrun (hmoved : s.streamRoute 0 = some highRoute) =>
      ⟨hmoved, (routing_consistent distinctIds_twoStreamRoutes hrun).1⟩)
    (startTwoStreams ++ [.operation (.setStreamRequest 0 true 2 0),
      .operation (.setStreamRequest 1 false 2 0), .operation (.setStreamRequest 2 true 1 0),
      .fine]) (by decide)

/-- Two streams change their places: the first route has stream 1, which has no route. -/
theorem swapped_stream_loses_route :
    ∃ s, Reach routingStep (fun _ x => x.succeeds = true) (Routing.initial twoStreamRoutes) s ∧
      (s.manager.route lowRoute).currentStream = some 1 ∧ s.streamRoute 1 = none ∧
      ¬ Consistent s := by
  refine Reach.exists_of_decide (fun s _ (h : (s.manager.route lowRoute).currentStream = some 1 ∧
    s.streamRoute 1 = none) => ⟨h.1, h.2, fun hconsistent => ?_⟩)
    (startTwoStreams ++ [.operation (.setStreamRequest 0 true 2 0),
      .operation (.setStreamRequest 1 true 1 0), .fine]) (by decide)
  have hlink := (hconsistent.link lowRoute 1).mp h.1
  rw [h.2] at hlink
  exact absurd hlink (by simp)

end HardwareIntel.AudioRoute
