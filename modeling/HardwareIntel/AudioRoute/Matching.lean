import HardwareIntel.AudioRoute.Exclusion
import HardwareIntel.AudioRoute.Execution
import Mathlib.Data.Nat.Bitwise

/-!
# Which stream gets which route

`checkAndPrepareRouting` goes through the routes in the order of their names and gives each stream
route the first started stream that is not served yet and that the route accepts. A later choice
blocks other routes, but never frees one, so a route that found no stream finds none in the end
either: the matching is maximal. `streams_matched` states this for every run, whatever the earlier
rounds have chosen and the devices and streams have made of it.

A stream has one direction for its life; it is put into the list of this direction.
-/

namespace HardwareIntel.AudioRoute

open List Option Function

variable {pf : Platform}

/-! ## The masks of the stages -/

/-- `setRouteCriteriaForMute`: the routes to mute. -/
def routesToMute (m : RouteMasks) : ℕ := m.prevEnabled.ldiff m.enabled ||| m.needReflow

/-- `setRouteCriteriaForDisable`: the routes to disable. -/
def routesToDisable (m : RouteMasks) : ℕ := m.prevEnabled.ldiff m.enabled ||| m.needRepath

/-- A stream is added to the list of its direction. -/
def Directed (isOut : ℕ → Bool) (_ : RouteManager pf) : Operation pf → Prop
  | .addStream d st => d = isOut st
  | _ => True

/-- The same for a step of a run. -/
def DirectedStep (isOut : ℕ → Bool) (s : Routing pf) : RoutingStep pf → Prop
  | .operation x => Directed isOut s.manager x
  | _ => True

/-- Every stream is in a list of its direction. -/
def ListsDirected (isOut : ℕ → Bool) (s : RouteManager pf) : Prop :=
  ∀ d, ∀ st ∈ s.streamsList d, isOut st = d

/-- The streams and the stream routes as a round leaves them. -/
structure Matched (isOut : ℕ → Bool) (t : RouteManager pf) : Prop where
  atMostOne : ∀ r r' st, (t.route r).newStream = some st → (t.route r').newStream = some st → r = r'
  used : ∀ r, (pf.route r).isStreamRoute = true → (t.route r).used = true →
    ∃ st, (t.route r).newStream = some st ∧ (t.stream st).started = true ∧
      isOut st = (pf.route r).isOut ∧ (t.stream st).newStreamRoute = some r
  unused : ∀ r, (t.route r).used = false → (t.route r).newStream = none
  maximal : ∀ r, (pf.route r).isStreamRoute = true →
    ∀ st ∈ t.streamsList (pf.route r).isOut, (t.stream st).started = true →
      (t.stream st).newStreamRoute = none → streamRouteIsApplicable r st t = false
  muted : ∀ r, needRepath r t = true →
    ∀ k, (pf.route r).id.testBit k = true →
      (routesToMute (t.routes (pf.route r).isOut)).testBit k = true
  disabledMuted : ∀ d k, (routesToDisable (t.routes d)).testBit k = true →
    (routesToMute (t.routes d)).testBit k = true

/-! ## What an iteration leaves alone -/

/-- From `s` to `t` the streams to choose from stay the same, and no route is freed. -/
structure Narrows (s t : RouteManager pf) : Prop where
  streamsList : t.streamsList = s.streamsList
  blocked : ∀ r, (s.route r).blocked = true → (t.route r).blocked = true

theorem Narrows.refl (s : RouteManager pf) : Narrows s s := ⟨rfl, fun _ h => h⟩

variable {s : RouteManager pf} {r : Fin pf.size}

theorem Narrows.trans {t u : RouteManager pf} (hst : Narrows s t) (htu : Narrows t u) :
    Narrows s u :=
  ⟨htu.streamsList.trans hst.streamsList, fun r h => htu.blocked r (hst.blocked r h)⟩

theorem narrows_routeSetBlocked (r : Fin pf.size) (s : RouteManager pf) :
    Narrows s (routeSetBlocked r s) := ⟨rfl, (blocking_routeSetBlocked r s).blocked⟩

theorem narrows_setPort (p : ℕ) (f : PortState pf.size → PortState pf.size) (s : RouteManager pf) :
    Narrows s (setPort p f s) := ⟨rfl, fun _ h => h⟩

/-- A change of a route that keeps its blocked attribute. -/
theorem narrows_setRoute (r : Fin pf.size) {f : RouteState → RouteState}
    (hf : ∀ x, (f x).blocked = x.blocked) (s : RouteManager pf) : Narrows s (setRoute r f s) := by
  refine ⟨rfl, fun r' hr' => ?_⟩
  rw [route_setRoute]
  split
  · subst r'
    rw [hf, hr']
  · exact hr'

theorem narrows_portSetBlocked (p : ℕ) (s : RouteManager pf) :
    Narrows s (portSetBlocked p true s) := by
  unfold portSetBlocked
  split
  · exact .refl s
  · exact (narrows_setPort p _ s).trans
      (foldl_rel Narrows.refl Narrows.trans (fun s r _ => narrows_routeSetBlocked r s) _)

theorem streamsList_portSetBlocked (p : ℕ) (blocked : Bool) (s : RouteManager pf) :
    (portSetBlocked p blocked s).streamsList = s.streamsList := by
  cases blocked with
  | true => exact (narrows_portSetBlocked p s).streamsList
  | false =>
    unfold portSetBlocked
    split <;> rfl

theorem narrows_portSetUsed (r : Fin pf.size) (p : ℕ) (s : RouteManager pf) :
    Narrows s (portSetUsed r p s) := by
  unfold portSetUsed
  split
  · exact .refl s
  refine (narrows_setPort p _ s).trans
    ((foldl_rel Narrows.refl Narrows.trans (fun s group _ => ?_) _).trans
      (foldl_rel Narrows.refl Narrows.trans (fun s r' _ => ?_) _))
  · refine foldl_rel Narrows.refl Narrows.trans (fun s q _ => ?_) s
    split
    · exact narrows_portSetBlocked q s
    · exact .refl s
  · split
    · exact .refl s
    · exact narrows_routeSetBlocked r' s

theorem narrows_routeSetUsed (r : Fin pf.size) (isUsed : Bool) (s : RouteManager pf) :
    Narrows s (routeSetUsed r isUsed s) := by
  unfold routeSetUsed
  split
  · exact (narrows_setRoute r (f := fun x => { x with used := true }) (fun _ => rfl) s).trans
      (foldl_rel Narrows.refl Narrows.trans (fun s p _ => narrows_portSetUsed r p s) _)
  · exact .refl s

theorem narrows_setStreamForRoute (r : Fin pf.size) (s : RouteManager pf) :
    Narrows s (setStreamForRoute r s) := by
  unfold setStreamForRoute
  split
  · rename_i st _ _
    obtain ⟨hlist, hblocked⟩ :=
      narrows_setRoute r (f := fun x => { x with newStream := some st }) (fun _ => rfl) s
    exact ⟨hlist, hblocked⟩
  · exact .refl s

theorem narrows_checkRoute (r : Fin pf.size) (s : RouteManager pf) : Narrows s (checkRoute s r) := by
  obtain ⟨hlist, hblocked⟩ := (narrows_setStreamForRoute r s).trans
    (narrows_routeSetUsed r (selected r s) _)
  exact ⟨hlist, hblocked⟩

/-! ## Streams and routes in an iteration -/

/-- What a stream asks for, and whether it is started. -/
def StreamState.request {n : ℕ} (x : StreamState n) : Bool × ℕ × ℕ :=
  (x.started, x.applicabilityMask, x.effectRequested)

/-- What a stream route accepts. -/
def RouteState.offer (x : RouteState) : Bool × ℕ × ℕ :=
  (x.applicable, x.applicabilityMask, x.effectSupportedMask)

/-- A stream that gets a route keeps its request, and no stream loses its route. -/
theorem stream_setStreamForRoute (r : Fin pf.size) (s : RouteManager pf) (st : ℕ) :
    ((setStreamForRoute r s).stream st).request = (s.stream st).request ∧
      (((setStreamForRoute r s).stream st).newStreamRoute = none →
        (s.stream st).newStreamRoute = none) := by
  unfold setStreamForRoute
  split
  · rename_i st' _ _
    by_cases hst : st = st'
    · subst hst
      simp [setStream, setStreamState, setRoute, StreamState.request]
    · simp [setStream, setStreamState, setRoute, hst]
  · exact ⟨rfl, id⟩

/-- A route that accepts a stream has accepted it before, as long as it is not used. -/
theorem streamRouteIsApplicable_of_narrows {t : RouteManager pf} {st : ℕ} (hnarrows : Narrows s t)
    (hoffer : (t.route r).offer = (s.route r).offer)
    (hrequest : (t.stream st).request = (s.stream st).request) (hused : (s.route r).used = false)
    (h : streamRouteIsApplicable r st t = true) : streamRouteIsApplicable r st s = true := by
  simp only [RouteState.offer, StreamState.request, Prod.mk.injEq] at hoffer hrequest
  obtain ⟨happlicable, hmask, hsupported⟩ := hoffer
  obtain ⟨-, hrequested, heffect⟩ := hrequest
  simp only [streamRouteIsApplicable, routeIsApplicable, happlicable, hmask, hsupported, hrequested,
    heffect, Bool.and_eq_true, Bool.not_eq_true'] at h ⊢
  obtain ⟨⟨⟨⟨hfree, hroute⟩, -⟩, haccepts⟩, heffects⟩ := h
  refine ⟨⟨⟨⟨?_, hroute⟩, hused⟩, haccepts⟩, heffects⟩
  by_contra hblocked
  rw [hnarrows.blocked r (by simpa using hblocked)] at hfree
  exact absurd hfree (by decide)

/-- What holds of the streams in the course of a round that started from `s`, when the routes of
`done` have been served. -/
structure Serving (s : RouteManager pf) (done : List (Fin pf.size)) (t : RouteManager pf) :
    Prop where
  narrows : Narrows s t
  request : ∀ st, (t.stream st).request = (s.stream st).request
  offer : ∀ r, (t.route r).offer = (s.route r).offer
  chosen : ∀ r st, (t.route r).newStream = some st →
    (t.stream st).started = true ∧ st ∈ t.streamsList (pf.route r).isOut
  refused : ∀ r ∈ done, (pf.route r).isStreamRoute = true → (t.route r).used = false →
    ∀ st ∈ t.streamsList (pf.route r).isOut, (t.stream st).started = true →
      (t.stream st).newStreamRoute = none → streamRouteIsApplicable r st t = false
  repathReflow : ∀ d k, (t.routes d).needRepath.testBit k = true →
    (t.routes d).needReflow.testBit k = true

/-- A route that is not selected finds no stream it accepts. -/
theorem not_applicable_of_not_selected {st : ℕ} (hstream : (pf.route r).isStreamRoute = true)
    (h : selected r s = false) (hmem : st ∈ s.streamsList (pf.route r).isOut)
    (hstarted : (s.stream st).started = true) (hnone : (s.stream st).newStreamRoute = none) :
    streamRouteIsApplicable r st s = false := by
  rw [selected, if_pos hstream, isSome_eq_false_iff, isNone_iff_eq_none,
    streamForRoute, List.find?_eq_none] at h
  simpa [hstarted, hnone] using h st hmem

/-- The stream that is found is started, and in the list of the direction of the route. -/
theorem started_of_streamForRoute {st : ℕ} (h : streamForRoute r s = some st) :
    (s.stream st).started = true ∧ st ∈ s.streamsList (pf.route r).isOut := by
  have hfound := List.find?_some h
  simp only [Bool.and_eq_true] at hfound
  exact ⟨hfound.1.1, mem_of_find?_eq_some h⟩

theorem needReflow_of_needRepath (h : needRepath r s = true) : needReflow r s = true := by
  simp only [needRepath, Bool.and_eq_true] at h
  simp [needReflow, h.1.1, h.1.2, h.2]

theorem Serving.checkRoute {s₀ t : RouteManager pf} {done : List (Fin pf.size)}
    (h : Serving s done t) (hprepared : Prepared s₀ done t) (hr : r ∉ done) :
    Serving s (done ++ [r]) (checkRoute t r) := by
  obtain ⟨hused, hnew⟩ := hprepared.todo r hr
  have hchecked := checkRoute_spec hprepared.link hnew hused
  have hnarrows := narrows_checkRoute r t
  obtain ⟨hstreams, new, hself, hselected⟩ := unblocked_checkRoute hprepared.link hnew hused
  have hrequest : ∀ st, ((AudioRoute.checkRoute t r).stream st).request = (t.stream st).request :=
    fun st => by rw [hstreams, (stream_setStreamForRoute r t st).1]
  have hstarted : ∀ st, ((AudioRoute.checkRoute t r).stream st).started = (t.stream st).started :=
    fun st => congrArg Prod.fst (hrequest st)
  have hoffer : ∀ r', ((AudioRoute.checkRoute t r).route r').offer = (t.route r').offer := by
    intro r'
    by_cases hr' : r' = r
    · subst hr'
      have hfield := congrArg RouteState.offer hself
      exact hfield
    · have hfield := congrArg RouteState.offer (hchecked.other r' hr')
      exact hfield
  constructor
  · exact h.narrows.trans hnarrows
  · exact fun st => (hrequest st).trans (h.request st)
  · exact fun r' => (hoffer r').trans (h.offer r')
  · intro r' st hst
    rw [hstarted, hnarrows.streamsList]
    by_cases hr' : r' = r
    · subst hr'
      have hisStream := hchecked.link.isStreamRoute r' (by simp [hst])
      have hnewStream : ((AudioRoute.checkRoute t r').route r').newStream = new :=
        congrArg RouteState.newStream hself
      rw [hnewStream, hselected hisStream] at hst
      exact started_of_streamForRoute hst
    · have hsame : ((AudioRoute.checkRoute t r).route r').newStream = (t.route r').newStream :=
        have hfield := congrArg RouteState.newStream (hchecked.other r' hr')
        hfield
      exact h.chosen r' st (hsame ▸ hst)
  · intro r' hmem hisStream hunused st hst hst' hnone
    rw [hnarrows.streamsList] at hst
    rw [hstarted] at hst'
    have hbefore : (t.stream st).newStreamRoute = none :=
      (stream_setStreamForRoute r t st).2 (hstreams ▸ hnone)
    suffices hrefused : (t.route r').used = false ∧ streamRouteIsApplicable r' st t = false by
      by_contra happlicable
      have hold := streamRouteIsApplicable_of_narrows hnarrows (hoffer r') (hrequest st)
        hrefused.1 (by simpa using happlicable)
      rw [hrefused.2] at hold
      exact absurd hold (by decide)
    by_cases hr' : r' = r
    · subst hr'
      rw [hchecked.used] at hunused
      exact ⟨hused, not_applicable_of_not_selected hisStream hunused hst hst' hbefore⟩
    · have hsame : ((AudioRoute.checkRoute t r).route r').used = (t.route r').used :=
        have hfield := congrArg RouteState.used (hchecked.other r' hr')
        hfield
      have hdone : r' ∈ done := by simpa [hr'] using hmem
      rw [hsame] at hunused
      exact ⟨hunused, h.refused r' hdone hisStream hunused st hst hst' hbefore⟩
  · intro d k
    rw [routes_checkRoute hprepared.link hnew hused d]
    split
    · simp only [testBit_setBit]
      rintro (hold | ⟨hneed, hk⟩)
      · exact .inl (h.repathReflow d k hold)
      · exact .inr ⟨needReflow_of_needRepath hneed, hk⟩
    · exact h.repathReflow d k

/-! ## A round -/

theorem streamsList_resetRouting (s : RouteManager pf) :
    (resetRouting s).streamsList = s.streamsList := by
  have hkeeps : ∀ (r : Fin pf.size) (s : RouteManager pf),
      (routeResetAvailability r s).streamsList = s.streamsList := by
    intro r s
    unfold routeResetAvailability
    split <;> rfl
  exact foldl_rel (R := fun s t : RouteManager pf => t.streamsList = s.streamsList)
    (fun _ => rfl) (fun hst htu => htu.trans hst) (fun s r _ => hkeeps r s) _

theorem serving_resetRouting (h : NewLink s) : Serving (resetRouting s) [] (resetRouting s) := by
  obtain ⟨-, hroute, hroutes⟩ := resetRouting_spec h
  constructor
  · exact .refl _
  · exact fun _ => rfl
  · exact fun _ => rfl
  · intro r st hst
    rw [hroute] at hst
    exact absurd hst (by simp [RouteState.reset])
  · intro r hr
    exact absurd hr (not_mem_nil)
  · intro d k hk
    rw [hroutes] at hk
    exact absurd hk (by simp)

theorem serving_checkAndPrepareRouting (h : NewLink s) :
    Serving (resetRouting s) (List.finRange pf.size) (checkAndPrepareRouting s) :=
  (foldl_done (P := fun done t => Serving (resetRouting s) done t ∧ Prepared s done t)
    (fun ht hr => ⟨ht.1.checkRoute ht.2 hr, ht.2.checkRoute hr⟩)
    ⟨serving_resetRouting h, prepared_resetRouting h⟩ (nodup_finRange pf.size) (by simp)).1

/-- One round, from any state in which routes and streams agree. -/
theorem matched_checkAndPrepareRouting {isOut : ℕ → Bool} (h : NewLink s)
    (hlists : ListsDirected isOut s) : Matched isOut (checkAndPrepareRouting s) := by
  have hprepared := prepared_checkAndPrepareRouting h
  have hserving := serving_checkAndPrepareRouting h
  have hlist : (checkAndPrepareRouting s).streamsList = s.streamsList :=
    hserving.narrows.streamsList.trans (streamsList_resetRouting s)
  constructor
  · intro r r' st hr hr'
    have hback := (hprepared.link.link r st).mp hr
    have hback' := (hprepared.link.link r' st).mp hr'
    rw [hback] at hback'
    exact some.inj hback'
  · intro r hisStream hused
    have hsome := hprepared.stream r hisStream
    rw [hused] at hsome
    obtain ⟨st, hst⟩ := isSome_iff_exists.mp hsome
    obtain ⟨hstarted, hmem⟩ := hserving.chosen r st hst
    rw [hlist] at hmem
    exact ⟨st, hst, hstarted, hlists _ st hmem, (hprepared.link.link r st).mp hst⟩
  · intro r hunused
    by_contra hsome
    have hisStream := hprepared.link.isStreamRoute r hsome
    have hnone := hprepared.stream r hisStream
    rw [hunused, isSome_eq_false_iff, isNone_iff_eq_none] at hnone
    exact hsome hnone
  · intro r hisStream st hmem hstarted hnone
    cases hused : ((checkAndPrepareRouting s).route r).used with
    | false => exact hserving.refused r (mem_finRange r) hisStream hused st hmem hstarted hnone
    | true => simp [streamRouteIsApplicable, hused]
  · intro r hrepath k hk
    have hbit := (hprepared.needReflow (pf.route r).isOut k).mpr
      ⟨r, mem_finRange r, rfl, needReflow_of_needRepath hrepath, hk⟩
    simp [routesToMute, hbit]
  · intro d k hk
    simp only [routesToDisable, routesToMute, Nat.testBit_or, Bool.or_eq_true] at hk ⊢
    exact hk.imp_right (hserving.repathReflow d k)

/-! ## Every run -/

theorem NewLink.operate {t : RouteManager pf} (h : NewLink s) {x : Operation pf}
    (ht : operate s x = some t) : NewLink t := by
  cases x <;> simp only [AudioRoute.operate, some.injEq] at ht <;> subst ht
  case round => exact (prepared_checkAndPrepareRouting h).link
  case setPortBlocked p blocked => exact h.of_onlyBlocks (onlyBlocks_portSetBlocked p blocked s)
  case addStream d st => exact ⟨h.link, h.isStreamRoute⟩
  case removeStream d st => exact ⟨h.link, h.isStreamRoute⟩
  case setStreamRequest st started mask effect =>
    refine ⟨fun r st' => (h.link r st').trans ?_, h.isStreamRoute⟩
    by_cases hst : st' = st
    · subst hst
      simp [setStreamState]
    · simp [setStreamState, hst]
  all_goals exact h.setRoute _ fun _ => rfl

theorem ListsDirected.operate {isOut : ℕ → Bool} {t : RouteManager pf} (h : ListsDirected isOut s)
    (hlink : NewLink s) {x : Operation pf} (hx : Directed isOut s x) (ht : operate s x = some t) :
    ListsDirected isOut t := by
  cases x <;> simp only [AudioRoute.operate, some.injEq] at ht <;> subst ht
  case round =>
    intro d
    rw [(serving_checkAndPrepareRouting hlink).narrows.streamsList, streamsList_resetRouting]
    exact h d
  case setPortBlocked p blocked =>
    intro d
    rw [streamsList_portSetBlocked]
    exact h d
  case addStream d st =>
    intro d' st' hst'
    simp only [Directed] at hx
    by_cases hd : d' = d
    · subst hd
      simp only [update_self, mem_append, mem_singleton] at hst'
      rcases hst' with hold | rfl
      · exact h d' st' hold
      · exact hx.symm
    · simp only [update_of_ne hd] at hst'
      exact h d' st' hst'
  case removeStream d st =>
    intro d' st' hst'
    by_cases hd : d' = d
    · subst hd
      simp only [update_self] at hst'
      exact h d' st' (mem_of_mem_filter hst')
    · simp only [update_of_ne hd] at hst'
      exact h d' st' hst'
  all_goals exact h

/-- The stages of a round change the current streams only, not what has been chosen. -/
structure SamePlan (s t : Routing pf) : Prop where
  stream : t.manager.stream = s.manager.stream
  streamsList : t.manager.streamsList = s.manager.streamsList
  newStream : ∀ r, (t.manager.route r).newStream = (s.manager.route r).newStream

namespace SamePlan

variable {s t : Routing pf} {r : Fin pf.size} {o : Answers pf} {b : Bool}

theorem refl (s : Routing pf) : SamePlan s s := ⟨rfl, rfl, fun _ => rfl⟩

theorem trans {u : Routing pf} (hst : SamePlan s t) (htu : SamePlan t u) : SamePlan s u :=
  ⟨htu.stream.trans hst.stream, htu.streamsList.trans hst.streamsList,
    fun r => (htu.newStream r).trans (hst.newStream r)⟩

/-- A loop over the routes whose iterations keep the choices keeps them. -/
theorem foldlM {g : Routing pf → Fin pf.size → Option (Routing pf)} {l : List (Fin pf.size)}
    (hg : ∀ s r t, g s r = some t → SamePlan s t) (h : l.foldlM g s = some t) : SamePlan s t :=
  foldlM_keeps (I := SamePlan s) (fun u r v hu hv => hu.trans (hg u r v hv)) (.refl s) h

theorem setCurrentStream (st : Option ℕ) : SamePlan s (setCurrentStream r s st) := by
  refine ⟨rfl, rfl, fun r' => ?_⟩
  by_cases hr : r' = r
  · subst hr
    simp [AudioRoute.setCurrentStream, setRoute]
  · simp [AudioRoute.setCurrentStream, setRoute, hr]

theorem detachCurrentStream (h : detachCurrentStream r s = some t) : SamePlan s t := by
  obtain ⟨st, -, rfl⟩ := map_eq_some_iff.mp h
  obtain ⟨hstream, hlist, hnew⟩ := @setCurrentStream pf s r none
  exact ⟨hstream, hlist, hnew⟩

theorem attachNewStream (h : attachNewStream r s o = some t) : SamePlan s t := by
  obtain ⟨st, -, h⟩ := bind_eq_some_iff.mp h
  obtain ⟨r', -, rfl⟩ := map_eq_some_iff.mp h
  dsimp only
  split
  · obtain ⟨hstream, hlist, hnew⟩ := @setCurrentStream pf
      { s with streamRoute := Function.update s.streamRoute st (some r') } r (some st)
    exact ⟨hstream, hlist, hnew⟩
  · exact ⟨rfl, rfl, fun _ => rfl⟩

theorem unroute (h : unroute r s b = some t) : SamePlan s t := by
  unfold AudioRoute.unroute at h
  split at h
  · obtain rfl := some.inj h
    exact .refl s
  · obtain ⟨u, hu, rfl⟩ := map_eq_some_iff.mp h
    have hdetached : SamePlan s u := by
      split at hu
      · obtain rfl := some.inj hu
        exact .refl s
      · exact detachCurrentStream hu
    refine hdetached.trans ?_
    split
    · exact ⟨rfl, rfl, fun _ => rfl⟩
    · exact .refl u

theorem routeOpened (h : routeOpened r s o b = some t) : SamePlan s t := by
  unfold AudioRoute.routeOpened at h
  split at h
  · obtain rfl := some.inj h
    exact .refl s
  · split at h
    · exact attachNewStream h
    · obtain rfl := some.inj h
      exact .refl s

theorem route (h : route r s o b = some t) : SamePlan s t := by
  unfold AudioRoute.route at h
  split at h
  · split at h
    · cases h
    · split at h
      · obtain ⟨hstream, hlist, hnew⟩ := routeOpened h
        exact ⟨hstream, hlist, hnew⟩
      · obtain rfl := some.inj h
        exact .refl s
  · exact routeOpened h

theorem configure (h : configure r s o = some t) : SamePlan s t := by
  unfold AudioRoute.configure at h
  split at h
  · obtain rfl := some.inj h
    exact .refl s
  · split at h
    · obtain ⟨u, hu, ht⟩ := bind_eq_some_iff.mp h
      exact (detachCurrentStream hu).trans (attachNewStream ht)
    · obtain rfl := some.inj h
      exact .refl s

/-- An iteration of a stage carries out its step for the routes it is for. -/
theorem guarded {c : Bool} {x : Option (Routing pf)} (hx : x = some t → SamePlan s t)
    (h : (if c then x else some s) = some t) : SamePlan s t := by
  split at h
  · exact hx h
  · obtain rfl := some.inj h
    exact .refl s

/-- All stages together. -/
theorem executeRouting (h : executeRouting o s = some t) : SamePlan s t := by
  obtain ⟨s₁, h₁, h⟩ := bind_eq_some_iff.mp h
  obtain ⟨s₂, h₂, h⟩ := bind_eq_some_iff.mp h
  obtain ⟨s₃, h₃, h⟩ := bind_eq_some_iff.mp h
  obtain ⟨s₄, h₄, h⟩ := bind_eq_some_iff.mp h
  have hdisable := foldlM (fun _ _ _ => guarded unroute) h₁
  have hpostDisable := foldlM (fun _ _ _ => guarded unroute) h₂
  have hconfigure := foldlM (fun _ _ _ => guarded configure) h₃
  have hpreEnable := foldlM (fun _ _ _ => guarded route) h₄
  have henable := foldlM (fun _ _ _ => guarded route) h
  exact hdisable.trans (hpostDisable.trans (hconfigure.trans (hpreEnable.trans henable)))

/-- A round leaves what `checkAndPrepareRouting` has chosen. -/
theorem doReconsiderRouting (h : doReconsiderRouting o s = some t) :
    SamePlan { s with manager := checkAndPrepareRouting s.manager } t := by
  unfold AudioRoute.doReconsiderRouting at h
  dsimp only at h
  split at h
  · exact executeRouting h
  · obtain rfl := some.inj h
    exact .refl _

end SamePlan

/-- What a round needs: new streams and new routes point at each other, and every stream is in a
list of its direction. -/
def Orderly (isOut : ℕ → Bool) (s : RouteManager pf) : Prop := NewLink s ∧ ListsDirected isOut s

variable {isOut : ℕ → Bool}

theorem Orderly.samePlan {s t : Routing pf} (h : Orderly isOut s.manager) (hsame : SamePlan s t) :
    Orderly isOut t.manager := by
  refine ⟨h.1.of_newStream hsame.newStream hsame.stream, fun d => ?_⟩
  rw [hsame.streamsList]
  exact h.2 d

theorem Orderly.operate {s t : RouteManager pf} {x : Operation pf} (h : Orderly isOut s)
    (hx : Directed isOut s x) (ht : operate s x = some t) : Orderly isOut t :=
  ⟨h.1.operate ht, h.2.operate h.1 hx ht⟩

/-- One step of a run. -/
theorem Orderly.routingStep {s t : Routing pf} {x : RoutingStep pf} (h : Orderly isOut s.manager)
    (hx : DirectedStep isOut s x) (ht : routingStep s x = some t) : Orderly isOut t.manager := by
  cases x with
  | round o =>
    have hround : Orderly isOut (checkAndPrepareRouting s.manager) := h.operate (x := .round) trivial rfl
    exact Orderly.samePlan (s := { s with manager := checkAndPrepareRouting s.manager }) hround
      (.doReconsiderRouting ht)
  | updateStreamRouteConfig r pre post =>
    obtain rfl := some.inj ht
    exact h
  | operation x =>
    obtain ⟨-, m, hm, rfl⟩ := operate_of_routingStep ht
    exact h.operate hx hm

/-- After every run of executed rounds, whatever the devices and the streams answer, and other
operations, the next round matches the streams with the routes. -/
theorem streams_matched {isOut : ℕ → Bool} {s : Routing pf}
    (hrun : Reach routingStep (DirectedStep isOut) (Routing.initial pf) s) :
    Matched isOut (checkAndPrepareRouting s.manager) := by
  have horderly : Orderly isOut s.manager := by
    refine hrun.invariant (I := fun s => Orderly isOut s.manager) ⟨?_, ?_⟩ ?_
    · exact (settled_initial pf).newLink
    · exact fun d st hst => absurd hst not_mem_nil
    · exact fun a x b ha hx hb => ha.routingStep hx hb
  exact matched_checkAndPrepareRouting horderly.1 horderly.2

/-- Stream 0 is started for the first route, and stream 1 for both of them; after the round, stream
0, which is attached to the first route, asks for the second one. -/
theorem streams_matched_twoStreamRoutes :
    ∃ s, Reach routingStep (DirectedStep fun _ => true) (Routing.initial twoStreamRoutes) s ∧
      s.streamRoute 0 = some lowRoute ∧
      Matched (fun _ => true) (checkAndPrepareRouting s.manager) := by
  let check : Routing twoStreamRoutes → RoutingStep twoStreamRoutes → Bool
    | _, .operation (.addStream d _) => d
    | _, _ => true
  refine Reach.exists_of_check (fun s x (h : check s x = true) => ?_)
    (fun s hrun (hattached : s.streamRoute 0 = some lowRoute) => ⟨hattached, streams_matched hrun⟩)
    (startTwoStreams ++ [.operation (.setStreamRequest 0 true 2 0)]) (by decide)
  cases x with
  | operation x => cases x <;> trivial
  | _ => trivial

end HardwareIntel.AudioRoute
