import HardwareIntel.AudioRoute.RouteManager
import HardwareIntel.Library.Link

/-!
# What a round prepares

`checkAndPrepareRouting` chooses the routes that are used from now on, a stream for each stream
route among them, and the masks from which `doReconsiderRouting` sees whether anything is to be
done. Blocking does not matter here: which routes are chosen is left open, and what is recorded of
the choice is stated (`Prepared`).
-/

namespace HardwareIntel.AudioRoute

open List Function

variable {pf : Platform}

/-! ## Blocking -/

/-- A route without its blocked attribute. -/
def RouteState.unblocked (x : RouteState) : RouteState := { x with blocked := false }

/-- From `s` to `t` only ports, and what is blocked, are changed. -/
structure OnlyBlocks (s t : RouteManager pf) : Prop where
  route : ∀ r, (t.route r).unblocked = (s.route r).unblocked
  stream : t.stream = s.stream
  routes : t.routes = s.routes

theorem OnlyBlocks.refl (s : RouteManager pf) : OnlyBlocks s s := ⟨fun _ => rfl, rfl, rfl⟩

theorem OnlyBlocks.trans {s t u : RouteManager pf} (hst : OnlyBlocks s t) (htu : OnlyBlocks t u) :
    OnlyBlocks s u :=
  ⟨fun r => (htu.route r).trans (hst.route r), htu.stream.trans hst.stream,
    htu.routes.trans hst.routes⟩

/-- What does not depend on the blocked attribute of a route stays. -/
theorem OnlyBlocks.field {α : Type} {s t : RouteManager pf} (h : OnlyBlocks s t)
    (f : RouteState → α) (hf : ∀ x, f x.unblocked = f x) (r : Fin pf.size) :
    f (t.route r) = f (s.route r) := by
  rw [← hf, h.route, hf]

theorem onlyBlocks_setPort (p : ℕ) (f : PortState pf.size → PortState pf.size)
    (s : RouteManager pf) : OnlyBlocks s (setPort p f s) := ⟨fun _ => rfl, rfl, rfl⟩

theorem onlyBlocks_routeSetBlocked (r : Fin pf.size) (s : RouteManager pf) :
    OnlyBlocks s (routeSetBlocked r s) := by
  refine ⟨fun r' => ?_, rfl, rfl⟩
  by_cases hr : r' = r
  · subst hr
    simp [routeSetBlocked, setRoute, RouteState.unblocked]
  · simp [routeSetBlocked, setRoute, hr]

theorem onlyBlocks_portSetBlocked (p : ℕ) (blocked : Bool) (s : RouteManager pf) :
    OnlyBlocks s (portSetBlocked p blocked s) := by
  unfold portSetBlocked
  split
  · exact .refl s
  split
  · exact (onlyBlocks_setPort p _ s).trans
      (foldl_rel OnlyBlocks.refl OnlyBlocks.trans (fun s r _ => onlyBlocks_routeSetBlocked r s) _)
  · exact onlyBlocks_setPort p _ s

theorem onlyBlocks_blockMutualExclusivePort (p : ℕ) (group : List ℕ) (s : RouteManager pf) :
    OnlyBlocks s (blockMutualExclusivePort p group s) := by
  refine foldl_rel OnlyBlocks.refl OnlyBlocks.trans (fun s q _ => ?_) s
  split
  · exact onlyBlocks_portSetBlocked q true s
  · exact .refl s

theorem onlyBlocks_portSetUsed (r : Fin pf.size) (p : ℕ) (s : RouteManager pf) :
    OnlyBlocks s (portSetUsed r p s) := by
  unfold portSetUsed
  split
  · exact .refl s
  refine (onlyBlocks_setPort p _ s).trans ((foldl_rel OnlyBlocks.refl OnlyBlocks.trans
    (fun s group _ => onlyBlocks_blockMutualExclusivePort p group s) _).trans
      (foldl_rel OnlyBlocks.refl OnlyBlocks.trans (fun s r' _ => ?_) _))
  split
  · exact .refl s
  · exact onlyBlocks_routeSetBlocked r' s

/-- A route that becomes used is marked, and the rest is blocking. -/
theorem onlyBlocks_routeSetUsed (r : Fin pf.size) {isUsed : Bool} {s : RouteManager pf}
    (h : (s.route r).used = false) :
    OnlyBlocks (setRoute r (fun x => { x with used := isUsed }) s) (routeSetUsed r isUsed s) := by
  unfold routeSetUsed
  cases isUsed with
  | false =>
    refine ⟨fun r' => ?_, rfl, rfl⟩
    by_cases hr : r' = r
    · subst hr
      simp [setRoute, RouteState.unblocked, h]
    · simp [setRoute, hr]
  | true =>
    simp only [h, Bool.not_false, Bool.and_self, if_true]
    exact foldl_rel OnlyBlocks.refl OnlyBlocks.trans (fun s p _ => onlyBlocks_portSetUsed r p s) _

/-! ## The streams that are chosen -/

/-- The stream of a route and the route of a stream, as chosen in the last round, agree; and only a
stream route has a stream. -/
structure NewLink (s : RouteManager pf) : Prop where
  link : Linked (fun r => (s.route r).newStream) fun st => (s.stream st).newStreamRoute
  isStreamRoute : ∀ r, (s.route r).newStream ≠ none → (pf.route r).isStreamRoute = true

theorem NewLink.of_newStream {s t : RouteManager pf} (h : NewLink s)
    (hnew : ∀ r, (t.route r).newStream = (s.route r).newStream) (hstream : t.stream = s.stream) :
    NewLink t := by
  constructor
  · simp only [hnew, hstream]
    exact h.link
  · intro r
    rw [hnew]
    exact h.isStreamRoute r

theorem NewLink.of_onlyBlocks {s t : RouteManager pf} (h : NewLink s) (hst : OnlyBlocks s t) :
    NewLink t :=
  h.of_newStream (hst.field RouteState.newStream fun _ => rfl) hst.stream

/-- Changes of a route that keep its stream. -/
theorem NewLink.setRoute {s : RouteManager pf} (h : NewLink s) (r : Fin pf.size)
    {f : RouteState → RouteState} (hf : ∀ x, (f x).newStream = x.newStream) :
    NewLink (setRoute r f s) := by
  refine h.of_newStream (fun r' => ?_) rfl
  by_cases hr : r' = r
  · subst hr
    simp [AudioRoute.setRoute, hf]
  · simp [AudioRoute.setRoute, hr]

variable {r : Fin pf.size} {l : List (Fin pf.size)} {st : ℕ}

/-- The stream fields of a route and a stream, both set to each other or to nothing. -/
theorem NewLink.of_update {s : RouteManager pf} {new : Option ℕ} {newRoute : Option (Fin pf.size)}
    (h : NewLink s)
    (hlink : Linked (Function.update (fun r => (s.route r).newStream) r new)
      (Function.update (fun st => (s.stream st).newStreamRoute) st newRoute))
    (hstream : (pf.route r).isStreamRoute = true) :
    NewLink (setStreamState st (fun x => { x with newStreamRoute := newRoute })
      (AudioRoute.setRoute r (fun x => { x with newStream := new }) s)) := by
  constructor
  · intro r' st'
    have hpair := hlink r' st'
    simp only [setStreamState, AudioRoute.setRoute, update_apply] at hpair ⊢
    split <;> split <;> simp_all
  · intro r'
    simp only [setStreamState, AudioRoute.setRoute, update_apply]
    split
    · rename_i hr'
      exact fun _ => hr' ▸ hstream
    · exact h.isStreamRoute r'

/-- The stream of a route is let go. -/
theorem NewLink.release {s : RouteManager pf} (h : NewLink s)
    (hst : (s.route r).newStream = some st) :
    NewLink (setStreamState st (fun x => { x with newStreamRoute := none })
      (AudioRoute.setRoute r (fun x => { x with newStream := none }) s)) :=
  h.of_update (h.link.detach hst) (h.isStreamRoute r (by simp [hst]))

/-- A stream is chosen for a route that has none. -/
theorem NewLink.setStream {s : RouteManager pf} (h : NewLink s) (hr : (s.route r).newStream = none)
    (hst : (s.stream st).newStreamRoute = none) (hstream : (pf.route r).isStreamRoute = true) :
    NewLink (setStream r st s) :=
  h.of_update (h.link.attach hr hst) hstream

/-! ## The reset -/

/-- What the reset makes of a route. -/
def RouteState.reset (x : RouteState) : RouteState :=
  { x with blocked := false, previouslyUsed := x.used, used := false, newStream := none }

theorem routeResetAvailability_spec {s : RouteManager pf} (h : NewLink s) (r : Fin pf.size) :
    NewLink (routeResetAvailability r s) ∧
      (routeResetAvailability r s).route = Function.update s.route r (s.route r).reset ∧
      (routeResetAvailability r s).routes = s.routes := by
  cases hnew : (s.route r).newStream with
  | none =>
    have hcase : routeResetAvailability r s = setRoute r (fun x =>
        { x with blocked := false, previouslyUsed := x.used, used := false }) s := by
      unfold routeResetAvailability
      rw [hnew]
      cases (pf.route r).isStreamRoute <;> rfl
    rw [hcase]
    refine ⟨h.setRoute r fun x => rfl, ?_, rfl⟩
    simp [setRoute, RouteState.reset, hnew]
  | some st =>
    have hcase : routeResetAvailability r s = setRoute r (fun x =>
        { x with blocked := false, previouslyUsed := x.used, used := false })
        (setStreamState st (fun x => { x with newStreamRoute := none })
          (setRoute r (fun x => { x with newStream := none }) s)) := by
      unfold routeResetAvailability
      rw [hnew, h.isStreamRoute r (by simp [hnew])]
    rw [hcase]
    refine ⟨(h.release hnew).setRoute r fun x => rfl, ?_, rfl⟩
    simp [setRoute, setStreamState, RouteState.reset]

theorem foldl_routeResetAvailability {s : RouteManager pf} (h : NewLink s) (hl : l.Nodup) :
    NewLink (l.foldl (fun s r => routeResetAvailability r s) s) ∧
      (∀ r, (l.foldl (fun s r => routeResetAvailability r s) s).route r =
        if r ∈ l then (s.route r).reset else s.route r) ∧
      (l.foldl (fun s r => routeResetAvailability r s) s).routes = s.routes := by
  induction l generalizing s with
  | nil => exact ⟨h, fun _ => by simp, rfl⟩
  | cons r l ih =>
    obtain ⟨hlink, hroute, hroutes⟩ := routeResetAvailability_spec h r
    obtain ⟨hlink', hroute', hroutes'⟩ := ih hlink (nodup_cons.mp hl).2
    have hr : r ∉ l := (nodup_cons.mp hl).1
    rw [foldl_cons]
    refine ⟨hlink', fun r' => ?_, hroutes'.trans hroutes⟩
    rw [hroute', hroute]
    by_cases hr' : r' = r
    · subst hr'
      simp [hr]
    · simp [hr']

/-- The state after the reset. -/
theorem resetRouting_spec {s : RouteManager pf} (h : NewLink s) :
    NewLink (resetRouting s) ∧ (∀ r, (resetRouting s).route r = (s.route r).reset) ∧
      ∀ d, (resetRouting s).routes d = ⟨(s.routes d).enabled, 0, 0, 0⟩ := by
  have hstart : NewLink { s with routes := fun d => ⟨(s.routes d).enabled, 0, 0, 0⟩ } :=
    ⟨h.link, h.isStreamRoute⟩
  obtain ⟨hlink, hroute, hroutes⟩ :=
    foldl_routeResetAvailability hstart (nodup_finRange pf.size)
  refine ⟨⟨hlink.link, hlink.isStreamRoute⟩, fun r => ?_, fun d => ?_⟩
  · unfold resetRouting
    rw [hroute, if_pos (mem_finRange r)]
  · unfold resetRouting
    rw [hroutes]

/-! ## One route -/

/-- The stream that is chosen has no route yet. -/
theorem newStreamRoute_of_streamForRoute {s : RouteManager pf} (h : streamForRoute r s = some st) :
    (s.stream st).newStreamRoute = none := by
  have hfound := List.find?_some h
  simp only [Bool.and_eq_true, Option.isNone_iff_eq_none] at hfound
  exact hfound.1.2

/-- What `checkRoute` does to its route: it is used if it was selected, and a stream route that is
used has a stream. -/
structure Checked (s : RouteManager pf) (r : Fin pf.size) (t : RouteManager pf) : Prop where
  link : NewLink t
  other : ∀ r', r' ≠ r → (t.route r').unblocked = (s.route r').unblocked
  used : (t.route r).used = selected r s
  stream : (pf.route r).isStreamRoute = true → (t.route r).newStream.isSome = selected r s
  previouslyUsed : (t.route r).previouslyUsed = (s.route r).previouslyUsed
  currentStream : (t.route r).currentStream = (s.route r).currentStream

theorem setStreamForRoute_spec {s : RouteManager pf} (h : NewLink s)
    (hnew : (s.route r).newStream = none) :
    NewLink (setStreamForRoute r s) ∧ (setStreamForRoute r s).routes = s.routes ∧
      ∃ new, (setStreamForRoute r s).route =
          Function.update s.route r { s.route r with newStream := new } ∧
        ((pf.route r).isStreamRoute = true → new = streamForRoute r s) := by
  have hsame : Function.update s.route r { s.route r with newStream := none } = s.route := by
    rw [← hnew]
    exact update_eq_self r s.route
  unfold setStreamForRoute
  cases hstream : (pf.route r).isStreamRoute with
  | false => exact ⟨h, rfl, none, hsame.symm, by simp⟩
  | true =>
    cases hst : streamForRoute r s with
    | none => exact ⟨h, rfl, none, hsame.symm, fun _ => rfl⟩
    | some st =>
      exact ⟨h.setStream hnew (newStreamRoute_of_streamForRoute hst) hstream, rfl, some st, rfl,
        fun _ => rfl⟩

/-- The selection of the route. -/
theorem onlyBlocks_selected {s : RouteManager pf} (h : NewLink s)
    (hnew : (s.route r).newStream = none) (hused : (s.route r).used = false) :
    OnlyBlocks (setRoute r (fun x => { x with used := selected r s }) (setStreamForRoute r s))
      (routeSetUsed r (selected r s) (setStreamForRoute r s)) := by
  obtain ⟨-, -, new, hroute, -⟩ := setStreamForRoute_spec h hnew
  refine onlyBlocks_routeSetUsed r ?_
  rw [hroute, update_self]
  exact hused

/-- The route and the streams after `checkRoute`. -/
theorem unblocked_checkRoute {s : RouteManager pf} (h : NewLink s)
    (hnew : (s.route r).newStream = none) (hused : (s.route r).used = false) :
    (checkRoute s r).stream = (setStreamForRoute r s).stream ∧
      ∃ new, ((checkRoute s r).route r).unblocked =
          { s.route r with newStream := new, used := selected r s }.unblocked ∧
        ((pf.route r).isStreamRoute = true → new = streamForRoute r s) := by
  obtain ⟨-, -, new, hroute, hstream⟩ := setStreamForRoute_spec h hnew
  have hblocks := onlyBlocks_selected h hnew hused
  refine ⟨hblocks.stream, new, (hblocks.route r).trans ?_, hstream⟩
  simp [setRoute, hroute]

theorem checkRoute_spec {s : RouteManager pf} (h : NewLink s) (hnew : (s.route r).newStream = none)
    (hused : (s.route r).used = false) : Checked s r (checkRoute s r) := by
  obtain ⟨hlink, -, new, hroute, -⟩ := setStreamForRoute_spec h hnew
  obtain ⟨-, new', hself, hstream⟩ := unblocked_checkRoute h hnew hused
  have hblocks := onlyBlocks_selected h hnew hused
  refine ⟨?_, fun r' hr' => ?_, ?_, fun hisStream => ?_, ?_, ?_⟩
  · have hmarked : NewLink (setRoute r (fun x => { x with used := selected r s })
        (setStreamForRoute r s)) := hlink.setRoute r fun _ => rfl
    have hused := hmarked.of_onlyBlocks hblocks
    exact ⟨hused.link, hused.isStreamRoute⟩
  · refine (hblocks.route r').trans ?_
    simp [setRoute, hroute, hr']
  · exact congrArg RouteState.used hself
  · have hnewStream := congrArg RouteState.newStream hself
    have hselected : (selected r s) = (streamForRoute r s).isSome := by
      simp [selected, hisStream]
    rw [hselected, ← hstream hisStream]
    exact congrArg Option.isSome hnewStream
  · have hfield := congrArg RouteState.previouslyUsed hself
    exact hfield
  · have hfield := congrArg RouteState.currentStream hself
    exact hfield

/-- The masks after `checkRoute`. -/
theorem routes_checkRoute {s : RouteManager pf} (h : NewLink s)
    (hnew : (s.route r).newStream = none) (hused : (s.route r).used = false) (d : Bool) :
    (checkRoute s r).routes d =
      if d = (pf.route r).isOut then
        { prevEnabled := (s.routes d).prevEnabled
          enabled := setBit (selected r s) (pf.route r).id (s.routes d).enabled
          needReflow := setBit (needReflow r (checkRoute s r)) (pf.route r).id
            (s.routes d).needReflow
          needRepath := setBit (needRepath r (checkRoute s r)) (pf.route r).id
            (s.routes d).needRepath }
      else s.routes d := by
  obtain ⟨hlink, hroutes, new, hroute, hstream⟩ := setStreamForRoute_spec h hnew
  have hblocks := onlyBlocks_selected h hnew hused
  have hsame : (routeSetUsed r (selected r s) (setStreamForRoute r s)).routes = s.routes :=
    hblocks.routes.trans hroutes
  split
  · rename_i hd
    subst hd
    simp [checkRoute, prepareRoute, setMasks, hsame, needReflow, needRepath]
  · rename_i hd
    simp [checkRoute, prepareRoute, setMasks, hsame, hd]

/-! ## A round -/

/-- What `checkAndPrepareRouting` has recorded when the routes of `l` are done, from a round that
started in `s`. -/
structure Prepared (s : RouteManager pf) (l : List (Fin pf.size)) (t : RouteManager pf) :
    Prop where
  link : NewLink t
  previouslyUsed : ∀ r, (t.route r).previouslyUsed = (s.route r).used
  currentStream : ∀ r, (t.route r).currentStream = (s.route r).currentStream
  todo : ∀ r, r ∉ l → (t.route r).used = false ∧ (t.route r).newStream = none
  stream : ∀ r, (pf.route r).isStreamRoute = true →
    (t.route r).newStream.isSome = (t.route r).used
  prevEnabled : ∀ d, (t.routes d).prevEnabled = (s.routes d).enabled
  enabled : ∀ d k, (t.routes d).enabled.testBit k = true ↔
    ∃ r ∈ l, (pf.route r).isOut = d ∧ (t.route r).used = true ∧ (pf.route r).id.testBit k = true
  needReflow : ∀ d k, (t.routes d).needReflow.testBit k = true ↔
    ∃ r ∈ l, (pf.route r).isOut = d ∧ needReflow r t = true ∧ (pf.route r).id.testBit k = true

/-- `needReflow` does not depend on the blocked attribute. -/
theorem needReflow_congr {s t : RouteManager pf}
    (h : (t.route r).unblocked = (s.route r).unblocked) : needReflow r t = needReflow r s := by
  have hneed : ∀ u : RouteManager pf, needReflow r u =
      ((u.route r).unblocked.previouslyUsed && (u.route r).unblocked.used &&
        ((u.route r).unblocked.flowRequested || (u.route r).unblocked.pathRequested ||
          ((pf.route r).isStreamRoute &&
            decide ((u.route r).unblocked.currentStream ≠ (u.route r).unblocked.newStream)))) :=
    fun _ => rfl
  rw [hneed, hneed, h]

theorem prepared_resetRouting {s : RouteManager pf} (h : NewLink s) :
    Prepared s [] (resetRouting s) := by
  obtain ⟨hlink, hroute, hroutes⟩ := resetRouting_spec h
  constructor
  · exact hlink
  all_goals simp [hroute, hroutes, RouteState.reset]

theorem testBit_setBit (isSet : Bool) (id mask k : ℕ) :
    (setBit isSet id mask).testBit k = true ↔
      mask.testBit k = true ∨ isSet = true ∧ id.testBit k = true := by
  unfold setBit
  cases isSet <;> simp

/-- A mask that collects the identifiers of the routes with `P`, and one more route. -/
theorem testBit_mask_append (r : Fin pf.size) (Q : Fin pf.size → Bool) {d isSet : Bool} {k mask : ℕ}
    {P : Fin pf.size → Bool}
    (hmask : mask.testBit k = true ↔ ∃ r' ∈ l, (pf.route r').isOut = d ∧ P r' = true ∧
      (pf.route r').id.testBit k = true)
    (hsame : ∀ r' ∈ l, Q r' = P r') (hisSet : Q r = isSet) :
    (if d = (pf.route r).isOut then setBit isSet (pf.route r).id mask else mask).testBit k = true ↔
      ∃ r' ∈ l ++ [r], (pf.route r').isOut = d ∧ Q r' = true ∧
        (pf.route r').id.testBit k = true := by
  have hold : mask.testBit k = true ↔
      ∃ r' ∈ l, (pf.route r').isOut = d ∧ Q r' = true ∧ (pf.route r').id.testBit k = true := by
    rw [hmask]
    constructor <;> rintro ⟨r', hr', hP⟩
    · exact ⟨r', hr', by rw [hsame r' hr']; exact hP⟩
    · exact ⟨r', hr', by rw [← hsame r' hr']; exact hP⟩
  have happend : (∃ r' ∈ l ++ [r], (pf.route r').isOut = d ∧ Q r' = true ∧
      (pf.route r').id.testBit k = true) ↔ mask.testBit k = true ∨
        ((pf.route r).isOut = d ∧ Q r = true ∧ (pf.route r).id.testBit k = true) := by
    rw [hold]
    simp
  rw [happend, hisSet]
  split
  · rename_i hd
    rw [testBit_setBit]
    simp [hd]
  · rename_i hd
    simp [Ne.symm hd]

theorem Prepared.checkRoute {s t : RouteManager pf} (h : Prepared s l t) (hr : r ∉ l) :
    Prepared s (l ++ [r]) (checkRoute t r) := by
  obtain ⟨hused, hnew⟩ := h.todo r hr
  have hchecked := checkRoute_spec h.link hnew hused
  have hroutes := routes_checkRoute h.link hnew hused
  have hother : ∀ {α : Type} (f : RouteState → α), (∀ x, f x.unblocked = f x) → ∀ r', r' ≠ r →
      f ((AudioRoute.checkRoute t r).route r') = f (t.route r') := by
    intro α f hf r' hr'
    rw [← hf, hchecked.other r' hr', hf]
  have hne : ∀ {r'}, r' ∈ l → r' ≠ r := by
    rintro r' hr' rfl
    exact hr hr'
  constructor
  · exact hchecked.link
  · intro r'
    by_cases hr' : r' = r
    · subst hr'
      rw [hchecked.previouslyUsed, h.previouslyUsed]
    · rw [hother RouteState.previouslyUsed (fun _ => rfl) r' hr', h.previouslyUsed]
  · intro r'
    by_cases hr' : r' = r
    · subst hr'
      rw [hchecked.currentStream, h.currentStream]
    · rw [hother RouteState.currentStream (fun _ => rfl) r' hr', h.currentStream]
  · intro r' hr'
    simp only [mem_append, mem_singleton, not_or] at hr'
    rw [hother RouteState.used (fun _ => rfl) r' hr'.2,
      hother RouteState.newStream (fun _ => rfl) r' hr'.2]
    exact h.todo r' hr'.1
  · intro r' hstream
    by_cases hr' : r' = r
    · subst hr'
      rw [hchecked.stream hstream, hchecked.used]
    · rw [hother RouteState.used (fun _ => rfl) r' hr',
        hother RouteState.newStream (fun _ => rfl) r' hr']
      exact h.stream r' hstream
  · intro d
    rw [hroutes d, ← h.prevEnabled d]
    split <;> rfl
  · intro d k
    have hmask := testBit_mask_append r (fun r' => ((AudioRoute.checkRoute t r).route r').used)
      (h.enabled d k) (fun r' hr' => hother RouteState.used (fun _ => rfl) r' (hne hr'))
      hchecked.used
    rw [← hmask, hroutes d]
    split <;> rfl
  · intro d k
    have hmask := testBit_mask_append r
      (fun r' => AudioRoute.needReflow r' (AudioRoute.checkRoute t r))
      (h.needReflow d k) (fun r' hr' => needReflow_congr (hchecked.other r' (hne hr'))) rfl
    rw [← hmask, hroutes d]
    split <;> rfl

/-- A loop over routes, none of them twice, that keeps what it has done. -/
theorem foldl_done {α : Type} {P : List (Fin pf.size) → α → Prop} {f : α → Fin pf.size → α}
    (hstep : ∀ {done t r}, P done t → r ∉ done → P (done ++ [r]) (f t r)) {done : List (Fin pf.size)}
    {t : α} (h : P done t) (hl : l.Nodup) (hdone : ∀ r ∈ l, r ∉ done) :
    P (done ++ l) (l.foldl f t) := by
  induction l generalizing done t with
  | nil => simpa using h
  | cons r l ih =>
    have hrest := ih (hstep h (hdone r (mem_cons_self ..))) (nodup_cons.mp hl).2
      fun r' hr' => by
        simp only [mem_append, mem_singleton, not_or]
        refine ⟨hdone r' (mem_cons_of_mem _ hr'), ?_⟩
        rintro rfl
        exact (nodup_cons.mp hl).1 hr'
    simpa using hrest

/-- What a round records. -/
theorem prepared_checkAndPrepareRouting {s : RouteManager pf} (h : NewLink s) :
    Prepared s (List.finRange pf.size) (checkAndPrepareRouting s) :=
  foldl_done (P := Prepared s) (fun ht hr => ht.checkRoute hr) (prepared_resetRouting h)
    (nodup_finRange pf.size) (by simp)

end HardwareIntel.AudioRoute
