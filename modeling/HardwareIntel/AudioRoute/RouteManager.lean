import HardwareIntel.Library.Runs
import Mathlib.Data.List.FinRange

/-!
# Choice of the audio routes

The part of `audio_route_manager` of the audio HAL that decides which routes are used:
`AudioPort.cpp`, `AudioPortGroup.cpp`, `AudioRoute.cpp`, the applicability of
`AudioStreamRoute.cpp`, and `checkAndPrepareRouting` of `AudioRouteManager.cpp`. The routes of a
platform are numbered in the order of `mRouteMap`, that is by name; ports and streams have numbers
that stand for their addresses.

A route that is chosen marks its ports as used. A port that is used blocks the other routes over
it, unless they have the same identifier, and the other ports of its groups, with all their
routes.
-/

namespace HardwareIntel.AudioRoute

/-! ## The platform -/

/-- What is fixed about a route when the platform is built. `addRoute` gives it at most a source
and a destination. -/
structure Route where
  id : ℕ
  isOut : Bool
  isStreamRoute : Bool
  ports : List ℕ
  ports_le : ports.length ≤ 2

/-- The routes of a platform, in the order of their names, and its port groups. -/
structure Platform where
  size : ℕ
  route : Fin size → Route
  groups : List (List ℕ)

/-- The routes that may use a port (`mRouteList`). -/
def Platform.users (pf : Platform) (p : ℕ) : List (Fin pf.size) :=
  (List.finRange pf.size).filter fun r => (pf.route r).ports.contains p

/-- The groups a port belongs to (`mPortGroupList`). -/
def Platform.groupsOf (pf : Platform) (p : ℕ) : List (List ℕ) :=
  pf.groups.filter fun g => g.contains p

/-! ## The state -/

/-- The state of a route. The stream fields are those of a stream route. -/
structure RouteState where
  used : Bool
  previouslyUsed : Bool
  blocked : Bool
  applicable : Bool
  flowRequested : Bool
  pathRequested : Bool
  applicabilityMask : ℕ
  effectSupportedMask : ℕ
  currentStream : Option ℕ
  newStream : Option ℕ

/-- The state of a port. -/
structure PortState (n : ℕ) where
  used : Bool
  blocked : Bool
  attached : Bool → Option (Fin n)

/-- The state of a stream. -/
structure StreamState (n : ℕ) where
  started : Bool
  applicabilityMask : ℕ
  effectRequested : ℕ
  newStreamRoute : Option (Fin n)

/-- The routes of one direction, as masks of identifiers (`mRoutes`). -/
structure RouteMasks where
  prevEnabled : ℕ
  enabled : ℕ
  needReflow : ℕ
  needRepath : ℕ

/-- The state of the route manager; directions are told apart by `isOut`. -/
structure RouteManager (pf : Platform) where
  route : Fin pf.size → RouteState
  port : ℕ → PortState pf.size
  stream : ℕ → StreamState pf.size
  streamsList : Bool → List ℕ
  routes : Bool → RouteMasks

section Operations

variable {pf : Platform}

def setRoute (r : Fin pf.size) (f : RouteState → RouteState)
    (s : RouteManager pf) : RouteManager pf :=
  { s with route := Function.update s.route r (f (s.route r)) }

def setPort (p : ℕ) (f : PortState pf.size → PortState pf.size) (s : RouteManager pf) :
    RouteManager pf :=
  { s with port := Function.update s.port p (f (s.port p)) }

def setStreamState (st : ℕ) (f : StreamState pf.size → StreamState pf.size)
    (s : RouteManager pf) : RouteManager pf :=
  { s with stream := Function.update s.stream st (f (s.stream st)) }

/-! ## Ports -/

/-- `AudioRoute::setBlocked`. -/
def routeSetBlocked (r : Fin pf.size) (s : RouteManager pf) : RouteManager pf :=
  setRoute r (fun x => { x with blocked := true }) s

/-- `AudioPort::setBlocked`. Nothing is done for a port that is in the wanted state. -/
def portSetBlocked (p : ℕ) (blocked : Bool) (s : RouteManager pf) : RouteManager pf :=
  if (s.port p).blocked = blocked then s
  else
    let s := setPort p (fun x => { x with blocked := blocked }) s
    if blocked then (pf.users p).foldl (fun s r => routeSetBlocked r s) s else s

/-- `AudioPortGroup::blockMutualExclusivePort`. -/
def blockMutualExclusivePort (p : ℕ) (group : List ℕ) (s : RouteManager pf) : RouteManager pf :=
  group.foldl (fun s q => if p ≠ q then portSetBlocked q true s else s) s

/-- `AudioPort::setUsed`. -/
def portSetUsed (r : Fin pf.size) (p : ℕ) (s : RouteManager pf) : RouteManager pf :=
  if (s.port p).used then s
  else
    let s := setPort p (fun x => { x with
      used := true
      attached := Function.update x.attached (pf.route r).isOut (some r) }) s
    let s := (pf.groupsOf p).foldl (fun s group => blockMutualExclusivePort p group s) s
    (pf.users p).foldl (fun s r' =>
      if r' = r ∨ (pf.route r).id = (pf.route r').id then s else routeSetBlocked r' s) s

/-! ## Routes -/

/-- `AudioRoute::isApplicable`. -/
def routeIsApplicable (r : Fin pf.size) (s : RouteManager pf) : Bool :=
  !(s.route r).blocked && (s.route r).applicable

/-- `AudioRoute::setUsed`; its assertion is `not_blocked_of_selected`. -/
def routeSetUsed (r : Fin pf.size) (isUsed : Bool) (s : RouteManager pf) : RouteManager pf :=
  if isUsed && !(s.route r).used then
    (pf.route r).ports.foldl (fun s p => portSetUsed r p s)
      (setRoute r (fun x => { x with used := true }) s)
  else s

/-- `AudioStreamRoute::isApplicable`. -/
def streamRouteIsApplicable (r : Fin pf.size) (st : ℕ) (s : RouteManager pf) : Bool :=
  routeIsApplicable r s && !(s.route r).used &&
    decide ((s.stream st).applicabilityMask &&& (s.route r).applicabilityMask ≠ 0) &&
    decide ((s.route r).effectSupportedMask &&& (s.stream st).effectRequested =
      (s.stream st).effectRequested)

/-- `needReflow` of a route, or of a stream route. -/
def needReflow (r : Fin pf.size) (s : RouteManager pf) : Bool :=
  (s.route r).previouslyUsed && (s.route r).used &&
    ((s.route r).flowRequested || (s.route r).pathRequested ||
      ((pf.route r).isStreamRoute && decide ((s.route r).currentStream ≠ (s.route r).newStream)))

/-- `needRepath`. -/
def needRepath (r : Fin pf.size) (s : RouteManager pf) : Bool :=
  (s.route r).previouslyUsed && (s.route r).used && (s.route r).pathRequested

/-! ## A round -/

/-- `AudioRoute::resetAvailability` and `AudioStreamRoute::resetAvailability`. -/
def routeResetAvailability (r : Fin pf.size) (s : RouteManager pf) : RouteManager pf :=
  let s :=
    match (pf.route r).isStreamRoute, (s.route r).newStream with
    | true, some st => setStreamState st (fun x => { x with newStreamRoute := none })
        (setRoute r (fun x => { x with newStream := none }) s)
    | _, _ => s
  setRoute r (fun x => { x with blocked := false, previouslyUsed := x.used, used := false }) s

/-- `AudioPort::resetAvailability`. The blocked attribute stays. -/
def portResetAvailability (x : PortState pf.size) : PortState pf.size :=
  { x with used := false, attached := fun _ => none }

/-- `resetRouting`. -/
def resetRouting (s : RouteManager pf) : RouteManager pf :=
  let s := { s with routes := fun d => ⟨(s.routes d).enabled, 0, 0, 0⟩ }
  let s := (List.finRange pf.size).foldl (fun s r => routeResetAvailability r s) s
  { s with port := fun p => portResetAvailability (s.port p) }

/-- The stream that `setStreamForRoute` finds for a route. -/
def streamForRoute (r : Fin pf.size) (s : RouteManager pf) : Option ℕ :=
  (s.streamsList (pf.route r).isOut).find? fun st =>
    (s.stream st).started && (s.stream st).newStreamRoute.isNone && streamRouteIsApplicable r st s

/-- `AudioStreamRoute::setStream`. -/
def setStream (r : Fin pf.size) (st : ℕ) (s : RouteManager pf) : RouteManager pf :=
  setStreamState st (fun x => { x with newStreamRoute := some r })
    (setRoute r (fun x => { x with newStream := some st }) s)

/-- The route is chosen by `prepareRoute`. -/
def selected (r : Fin pf.size) (s : RouteManager pf) : Bool :=
  if (pf.route r).isStreamRoute then (streamForRoute r s).isSome else routeIsApplicable r s

/-- `setBit`. -/
def setBit (isSet : Bool) (index mask : ℕ) : ℕ := if isSet then mask ||| index else mask

def setMasks (d : Bool) (f : RouteMasks → RouteMasks) (s : RouteManager pf) : RouteManager pf :=
  { s with routes := Function.update s.routes d (f (s.routes d)) }

/-- `setStreamForRoute`, the part that changes the state. -/
def setStreamForRoute (r : Fin pf.size) (s : RouteManager pf) : RouteManager pf :=
  match (pf.route r).isStreamRoute, streamForRoute r s with
  | true, some st => setStream r st s
  | _, _ => s

/-- `prepareRoute`. -/
def prepareRoute (r : Fin pf.size) (s : RouteManager pf) : RouteManager pf :=
  let isApplicable := selected r s
  let s := routeSetUsed r isApplicable (setStreamForRoute r s)
  setMasks (pf.route r).isOut
    (fun x => { x with enabled := setBit isApplicable (pf.route r).id x.enabled }) s

/-- One iteration of `checkAndPrepareRouting`. -/
def checkRoute (s : RouteManager pf) (r : Fin pf.size) : RouteManager pf :=
  let s := prepareRoute r s
  setMasks (pf.route r).isOut
    (fun x => { x with
      needReflow := setBit (needReflow r s) (pf.route r).id x.needReflow
      needRepath := setBit (needRepath r s) (pf.route r).id x.needRepath }) s

/-- `checkAndPrepareRouting`, the state it leaves. -/
def checkAndPrepareRouting (s : RouteManager pf) : RouteManager pf :=
  (List.finRange pf.size).foldl checkRoute (resetRouting s)

/-- `routingHasChanged`; `checkAndPrepareRouting` returns this of its two directions. -/
def routingHasChanged (s : RouteManager pf) (d : Bool) : Bool :=
  decide ((s.routes d).prevEnabled ≠ (s.routes d).enabled) ||
    decide ((s.routes d).needReflow ≠ 0) || decide ((s.routes d).needRepath ≠ 0)

/-! ## Runs -/

/-- What happens to the route manager: a round, or a change made between two rounds. -/
inductive Operation (pf : Platform)
  | round
  | setRouteApplicable (r : Fin pf.size) (applicable : Bool)
  | setRouteNeedReconfigure (r : Fin pf.size) (need : Bool)
  | setRouteNeedReroute (r : Fin pf.size) (need : Bool)
  | updateStreamRouteConfig (r : Fin pf.size) (applicabilityMask : ℕ)
  | addRouteSupportedEffect (r : Fin pf.size) (effect : ℕ)
  | setPortBlocked (p : ℕ) (blocked : Bool)
  | addStream (isOut : Bool) (st : ℕ)
  | removeStream (isOut : Bool) (st : ℕ)
  /-- A stream is started or stopped, and asks for routes and effects. -/
  | setStreamRequest (st : ℕ) (started : Bool) (applicabilityMask effectRequested : ℕ)

/-- One operation. -/
def operate (s : RouteManager pf) : Operation pf → Option (RouteManager pf)
  | .round => some (checkAndPrepareRouting s)
  | .setRouteApplicable r applicable =>
    some (setRoute r (fun x => { x with applicable := applicable }) s)
  | .setRouteNeedReconfigure r need =>
    some (setRoute r (fun x => { x with flowRequested := need }) s)
  | .setRouteNeedReroute r need =>
    some (setRoute r (fun x => { x with pathRequested := need }) s)
  | .updateStreamRouteConfig r mask =>
    some (setRoute r (fun x => { x with applicabilityMask := mask }) s)
  | .addRouteSupportedEffect r effect =>
    some (setRoute r (fun x => { x with
      effectSupportedMask := x.effectSupportedMask ||| effect }) s)
  | .setPortBlocked p blocked => some (portSetBlocked p blocked s)
  | .addStream isOut st =>
    some { s with
      streamsList := Function.update s.streamsList isOut (s.streamsList isOut ++ [st]) }
  | .removeStream isOut st =>
    some { s with
      streamsList := Function.update s.streamsList isOut ((s.streamsList isOut).filter (· ≠ st)) }
  | .setStreamRequest st started mask effect =>
    some (setStreamState st (fun x => { x with
      started := started, applicabilityMask := mask, effectRequested := effect }) s)

end Operations

/-- The route manager before its first round. -/
def RouteManager.initial (pf : Platform) : RouteManager pf where
  route := fun _ => ⟨false, false, false, false, false, false, 0, 0, none, none⟩
  port := fun _ => ⟨false, false, fun _ => none⟩
  stream := fun _ => ⟨false, 0, 0, none⟩
  streamsList := fun _ => []
  routes := fun _ => ⟨0, 0, 0, 0⟩

end HardwareIntel.AudioRoute
