import HardwareIntel.AudioRoute.Exclusion

/-!
# The port groups of the route manager

`AudioRouteManager::addPort`, `addPortGroup` and `addElement` of `AudioRouteManager.cpp`, with
`AudioPortGroup::addPortToGroup` and `AudioPort::addGroupToPort`. The platform is described by calls
before the route manager is started, one for each pair of a group and a member. The maps of ports
and groups are functions of the name. A failed assertion ends the process: `none`.

`addPortGroup` adds the member only if `addElement` has inserted the group, which is the case for
the first call of each group. So a group has one member, and it is complete exactly if no other
member is named.
-/

namespace HardwareIntel.AudioRoute

open List Option

variable {Name : Type} [DecidableEq Name]

/-! ## The calls -/

/-- `AudioPort`, with the names of the groups it belongs to. -/
structure AudioPort (Name : Type) where
  id : UInt32
  portGroupList : List Name

/-- `AudioPortGroup`, with the names of its ports. -/
structure AudioPortGroup (Name : Type) where
  id : UInt32
  portList : List Name

/-- The ports and groups of a route manager, and whether its parameter manager is started. -/
structure RoutingElements (Name : Type) where
  started : Bool
  ports : Name → Option (AudioPort Name)
  groups : Name → Option (AudioPortGroup Name)

/-- A call that describes the platform. -/
inductive DescribeCall (Name : Type)
  | addPort (name : Name) (portId : UInt32)
  | addPortGroup (name : Name) (groupId : UInt32) (portMember : Name)

namespace RoutingElements

/-- The route manager before the platform is described. -/
def new : RoutingElements Name := ⟨false, fun _ => none, fun _ => none⟩

/-- `AudioRouteManager::addElement`: the result and the map after it. -/
def addElement {T : Type} (started : Bool) (name : Name) (element : T) (map : Name → Option T) :
    Bool × (Name → Option T) :=
  if started then (false, map)
  else if (map name).isSome then (false, map)
  else (true, Function.update map name (some element))

/-- `AudioPortGroup::addPortToGroup`; there is no result if there is no such port or group. -/
def addPortToGroup (s : RoutingElements Name) (name portMember : Name) :
    Option (RoutingElements Name) :=
  match s.groups name, s.ports portMember with
  | some group, some port =>
    some { s with
      groups := Function.update s.groups name
        (some { group with portList := group.portList ++ [portMember] })
      ports := Function.update s.ports portMember
        (some { port with portGroupList := port.portGroupList ++ [name] }) }
  | _, _ => none

/-- `AudioRouteManager::addPort`. -/
def addPort (s : RoutingElements Name) (name : Name) (portId : UInt32) : RoutingElements Name :=
  { s with ports := (addElement s.started name ⟨portId, []⟩ s.ports).2 }

/-- `AudioRouteManager::addPortGroup`. -/
def addPortGroup (s : RoutingElements Name) (name : Name) (groupId : UInt32) (portMember : Name) :
    Option (RoutingElements Name) :=
  match addElement s.started name ⟨groupId, []⟩ s.groups with
  | (true, groups) => { s with groups := groups }.addPortToGroup name portMember
  | (false, _) => some s

/-- The effect of a call. -/
def describe (s : RoutingElements Name) : DescribeCall Name → Option (RoutingElements Name)
  | .addPort name portId => some (s.addPort name portId)
  | .addPortGroup name groupId portMember => s.addPortGroup name groupId portMember

/-- The effect of a sequence of calls. -/
def describeAll (s : RoutingElements Name) (calls : List (DescribeCall Name)) :
    Option (RoutingElements Name) :=
  calls.foldlM describe s

end RoutingElements

/-! ## What the calls name -/

/-- A call adds the port. -/
def Added (calls : List (DescribeCall Name)) (m : Name) : Prop :=
  ∃ portId, .addPort m portId ∈ calls

/-- A call names the member for the group. -/
def NamedFor (calls : List (DescribeCall Name)) (g m : Name) : Prop :=
  ∃ groupId, .addPortGroup g groupId m ∈ calls

/-- The member that a call names for the group. -/
def memberOf (g : Name) : DescribeCall Name → Option Name
  | .addPort _ _ => none
  | .addPortGroup name _ portMember => if name = g then some portMember else none

/-- The member that the first call for a group names. -/
def firstMember (calls : List (DescribeCall Name)) (g : Name) : Option Name :=
  calls.findSome? (memberOf g)

/-- The state after calls: the ports that were added, the groups with the first member named, and
the groups of the ports accordingly. -/
structure Described (calls : List (DescribeCall Name)) (s : RoutingElements Name) : Prop where
  started : s.started = false
  ports : ∀ m, (s.ports m).isSome = true ↔ Added calls m
  groups : ∀ g, (s.groups g).map (·.portList) = (firstMember calls g).map fun m => [m]
  members : ∀ g m, firstMember calls g = some m → Added calls m
  back : ∀ m port, s.ports m = some port →
    ∀ g, g ∈ port.portGroupList ↔ firstMember calls g = some m

theorem described_new : Described [] (RoutingElements.new : RoutingElements Name) where
  started := rfl
  ports m := by simp [RoutingElements.new, Added]
  groups g := rfl
  members g m h := by simp [firstMember] at h
  back m port h := by simp [RoutingElements.new] at h

theorem firstMember_concat (calls : List (DescribeCall Name)) (c : DescribeCall Name) (g : Name) :
    firstMember (calls ++ [c]) g = (firstMember calls g).or (memberOf g c) := by
  cases h : memberOf g c <;> simp [firstMember, h]

/-- The first member is one that is named. -/
theorem namedFor_of_firstMember {calls : List (DescribeCall Name)} {g m : Name}
    (h : firstMember calls g = some m) : NamedFor calls g m := by
  obtain ⟨c, hc, hmember⟩ := exists_of_findSome?_eq_some h
  cases c with
  | addPort name portId => exact absurd hmember (by simp [memberOf])
  | addPortGroup name groupId portMember =>
    simp only [memberOf, ite_none_right_eq_some, some.injEq] at hmember
    obtain ⟨rfl, rfl⟩ := hmember
    exact ⟨groupId, hc⟩

/-- A group for which a member is named has a first member. -/
theorem exists_firstMember {calls : List (DescribeCall Name)} {g m : Name}
    (h : NamedFor calls g m) : ∃ m', firstMember calls g = some m' := by
  obtain ⟨groupId, hc⟩ := h
  rw [← isSome_iff_exists, firstMember, List.findSome?_isSome_iff]
  exact ⟨_, hc, by simp [memberOf]⟩

/-! ## The state after the calls -/

open RoutingElements

variable {calls : List (DescribeCall Name)} {s t : RoutingElements Name}

theorem addElement_of_isSome {T : Type} {name : Name} {element : T} {map : Name → Option T}
    (h : (map name).isSome = true) : addElement false name element map = (false, map) := by
  simp [addElement, h]

theorem addElement_of_none {T : Type} {name : Name} {element : T} {map : Name → Option T}
    (h : map name = none) :
    addElement false name element map = (true, Function.update map name (some element)) := by
  simp [addElement, h]

omit [DecidableEq Name] in
theorem added_concat (calls : List (DescribeCall Name)) (c : DescribeCall Name) (m : Name) :
    Added (calls ++ [c]) m ↔ Added calls m ∨ ∃ portId, c = .addPort m portId := by
  simp only [Added, mem_append, mem_singleton, exists_or]
  exact or_congr_right (exists_congr fun _ => eq_comm)

/-- A call of `addPort` inserts a port without groups, if there is none of the name. -/
theorem Described.addPort (h : Described calls s) (name : Name) (portId : UInt32) :
    Described (calls ++ [.addPort name portId]) (s.addPort name portId) := by
  have hadded : ∀ m, Added (calls ++ [.addPort name portId]) m ↔ Added calls m ∨ m = name := by
    intro m
    simp [added_concat, eq_comm]
  have hfirst : ∀ g, firstMember (calls ++ [.addPort name portId]) g = firstMember calls g := by
    intro g
    rw [firstMember_concat]
    exact or_none
  rw [RoutingElements.addPort, h.started]
  cases hport : s.ports name with
  | some port =>
    have hname : Added calls name := (h.ports name).mp (by rw [hport]; rfl)
    rw [addElement_of_isSome (by rw [hport]; rfl)]
    refine ⟨rfl, fun m => ?_, fun g => ?_, fun g m hm => ?_, fun m port hm g => ?_⟩
    · rw [hadded]
      refine (h.ports m).trans ⟨.inl, ?_⟩
      rintro (hm | rfl)
      · exact hm
      · exact hname
    · rw [hfirst]
      exact h.groups g
    · exact (hadded m).mpr (.inl (h.members g m (hfirst g ▸ hm)))
    · rw [hfirst]
      exact h.back m port hm g
  | none =>
    have hname : ¬ Added calls name := fun hname => by
      have := (h.ports name).mpr hname
      rw [hport] at this
      exact Bool.false_ne_true this
    rw [addElement_of_none hport]
    refine ⟨rfl, fun m => ?_, fun g => ?_, fun g m hm => ?_, fun m port hm g => ?_⟩
    · rw [hadded, ← h.ports m]
      by_cases hm : m = name
      · simp [hm]
      · simp [hm]
    · rw [hfirst]
      exact h.groups g
    · exact (hadded m).mpr (.inl (h.members g m (hfirst g ▸ hm)))
    · rw [hfirst]
      by_cases hmname : m = name
      · subst hmname
        obtain rfl : (⟨portId, []⟩ : AudioPort Name) = port := by simpa using hm
        exact iff_of_false not_mem_nil fun hg => hname (h.members g m hg)
      · exact h.back m port (by simpa [hmname] using hm) g

/-- The first call of `addPortGroup` for a group inserts the group with the member. -/
theorem Described.addPortGroup (h : Described calls s) (name : Name) (groupId : UInt32)
    (portMember : Name) (ht : s.addPortGroup name groupId portMember = some t) :
    Described (calls ++ [.addPortGroup name groupId portMember]) t := by
  have hadded : ∀ m, Added (calls ++ [.addPortGroup name groupId portMember]) m ↔
      Added calls m := by
    intro m
    simp [added_concat]
  have hfirst : ∀ g, firstMember (calls ++ [.addPortGroup name groupId portMember]) g =
      (firstMember calls g).or (if name = g then some portMember else none) := fun g =>
    firstMember_concat _ _ g
  rw [RoutingElements.addPortGroup, h.started] at ht
  cases hgroup : s.groups name with
  | some group =>
    rw [addElement_of_isSome (by rw [hgroup]; rfl)] at ht
    obtain rfl := some.inj ht
    have hsome : ∃ m, firstMember calls name = some m := by
      have := h.groups name
      rw [hgroup] at this
      obtain ⟨m, hm, -⟩ := map_eq_some_iff.mp this.symm
      exact ⟨m, hm⟩
    have hsame : ∀ g, firstMember (calls ++ [.addPortGroup name groupId portMember]) g =
        firstMember calls g := by
      intro g
      rw [hfirst]
      by_cases hg : name = g
      · obtain ⟨m, hm⟩ := hsome
        rw [← hg, hm]
        rfl
      · rw [if_neg hg, or_none]
    refine ⟨h.started, fun m => (h.ports m).trans (hadded m).symm, fun g => ?_, fun g m hm => ?_,
      fun m port hm g => ?_⟩
    · rw [hsame]
      exact h.groups g
    · exact (hadded m).mpr (h.members g m (hsame g ▸ hm))
    · rw [hsame]
      exact h.back m port hm g
  | none =>
    have hnone : firstMember calls name = none := by
      have := h.groups name
      rw [hgroup] at this
      exact map_eq_none_iff.mp this.symm
    have hnew : ∀ g, firstMember (calls ++ [.addPortGroup name groupId portMember]) g =
        if name = g then some portMember else firstMember calls g := by
      intro g
      rw [hfirst]
      by_cases hg : name = g
      · rw [← hg, hnone, if_pos rfl]
        rfl
      · rw [if_neg hg, if_neg hg, or_none]
    rw [addElement_of_none hgroup] at ht
    simp only [addPortToGroup, Function.update_self] at ht
    cases hport : s.ports portMember with
    | none =>
      rw [hport] at ht
      exact absurd ht (some_ne_none t).symm
    | some port =>
      rw [hport] at ht
      obtain rfl := some.inj ht
      have hmember : Added calls portMember := (h.ports portMember).mp (by rw [hport]; rfl)
      refine ⟨rfl, fun m => ?_, fun g => ?_, fun g m hm => ?_, fun m port' hm g => ?_⟩
      · rw [hadded, ← h.ports m]
        by_cases hm : m = portMember
        · simp [hm, hport]
        · simp [hm]
      · rw [hnew]
        by_cases hg : name = g
        · simp [hg]
        · simpa [hg, Ne.symm hg] using h.groups g
      · rw [hnew] at hm
        rw [hadded]
        by_cases hg : name = g
        · rw [if_pos hg] at hm
          exact some.inj hm ▸ hmember
        · rw [if_neg hg] at hm
          exact h.members g m hm
      · rw [hnew]
        by_cases hm' : m = portMember
        · subst hm'
          obtain rfl : { port with portGroupList := port.portGroupList ++ [name] } = port' := by
            simpa using hm
          have := h.back m port hport g
          by_cases hg : name = g
          · simp [hg]
          · simpa [hg, Ne.symm hg] using this
        · have := h.back m port' (by simpa [hm'] using hm) g
          by_cases hg : name = g
          · rw [this, if_pos hg, ← hg, hnone]
            simp [Ne.symm hm']
          · rw [this, if_neg hg]

/-- The state after a sequence of calls. -/
theorem Described.describeAll (h : Described calls s) (more : List (DescribeCall Name))
    (ht : s.describeAll more = some t) : Described (calls ++ more) t := by
  induction more generalizing calls s with
  | nil =>
    obtain rfl : s = t := by simpa [RoutingElements.describeAll] using ht
    simpa using h
  | cons c more ih =>
    rw [RoutingElements.describeAll, foldlM_cons, bind_eq_bind, bind_eq_some_iff] at ht
    obtain ⟨u, hu, ht⟩ := ht
    have hnext : Described (calls ++ [c]) u := by
      cases c with
      | addPort name portId =>
        obtain rfl := some.inj hu
        exact h.addPort name portId
      | addPortGroup name groupId portMember => exact h.addPortGroup name groupId portMember hu
    simpa using ih hnext ht

/-! ## Complete groups -/

/-- A platform has the groups of the route manager, with its ports numbered. -/
def Describes (pf : Platform) (number : Name → ℕ) (s : RoutingElements Name) : Prop :=
  ∀ g group, s.groups g = some group → group.portList.map number ∈ pf.groups

/-- Each group has the ports that were named for it, each once. When a route then uses one of them,
the others are blocked. -/
structure Complete (calls : List (DescribeCall Name)) (s : RoutingElements Name) : Prop where
  nodup : ∀ g group, s.groups g = some group → group.portList.Nodup
  exact : ∀ g group, s.groups g = some group →
    ∀ m, m ∈ group.portList ↔ NamedFor calls g m ∧ Added calls m
  blocks : ∀ (pf : Platform) (number : Name → ℕ), Function.Injective number →
    Describes pf number s → ∀ g p q, NamedFor calls g p → Added calls p → NamedFor calls g q →
    Added calls q → p ≠ q → ∀ (r : Fin pf.size) (rm : RouteManager pf),
    number p ∈ (pf.route r).ports → (rm.port (number p)).used = false →
    ((portSetUsed r (number p) rm).port (number q)).blocked = true

/-- No two ports are named for one group. -/
def SingleMembers (calls : List (DescribeCall Name)) : Prop :=
  ∀ g p q, NamedFor calls g p → Added calls p → NamedFor calls g q → Added calls q → p = q

omit [DecidableEq Name] in
/-- Ports of one group block each other. -/
theorem blocked_of_members {pf : Platform} {number : Name → ℕ} (hnumber : Function.Injective number)
    (hpf : Describes pf number s) {g : Name} {group : AudioPortGroup Name}
    (hgroup : s.groups g = some group) {p q : Name} (hp : p ∈ group.portList)
    (hq : q ∈ group.portList) (hne : p ≠ q) (r : Fin pf.size) (rm : RouteManager pf)
    (hmem : number p ∈ (pf.route r).ports) (hused : (rm.port (number p)).used = false) :
    ((portSetUsed r (number p) rm).port (number q)).blocked = true := by
  obtain ⟨htaking, htaken⟩ := taking_portSetUsed hmem rm
  rcases htaking.taken _ htaken with h | ⟨-, -, hblocked⟩
  · exact absurd (hused.symm.trans h) Bool.false_ne_true
  · exact hblocked _ (hnumber.ne hne)
      ⟨_, hpf g group hgroup, mem_map_of_mem hp, mem_map_of_mem hq⟩

/-- Each group is complete exactly if no two ports are named for one group. -/
theorem portGroups_complete_iff (calls : List (DescribeCall Name)) (s : RoutingElements Name)
    (h : RoutingElements.new.describeAll calls = some s) :
    Complete calls s ↔ SingleMembers calls := by
  have hs : Described calls s := by simpa using described_new.describeAll calls h
  have hgroup : ∀ g m, firstMember calls g = some m →
      ∃ group, s.groups g = some group ∧ group.portList = [m] := by
    intro g m hm
    have := hs.groups g
    rw [hm] at this
    simpa using this
  have hlist : ∀ g group, s.groups g = some group →
      ∃ m, group.portList = [m] ∧ NamedFor calls g m ∧ Added calls m := by
    intro g group hg
    have := hs.groups g
    rw [hg] at this
    obtain ⟨m, hm, hm'⟩ := map_eq_some_iff.mp this.symm
    exact ⟨m, hm'.symm, namedFor_of_firstMember hm, hs.members g m hm⟩
  constructor
  · intro hcomplete g p q hp hpadded hq hqadded
    obtain ⟨m, hm⟩ := exists_firstMember hp
    obtain ⟨group, hg, hmembers⟩ := hgroup g m hm
    have hpm := (hcomplete.exact g group hg p).mpr ⟨hp, hpadded⟩
    have hqm := (hcomplete.exact g group hg q).mpr ⟨hq, hqadded⟩
    rw [hmembers, mem_singleton] at hpm hqm
    rw [hpm, hqm]
  · intro hsingle
    have hexact : ∀ g group, s.groups g = some group →
        ∀ m, m ∈ group.portList ↔ NamedFor calls g m ∧ Added calls m := by
      intro g group hg m
      obtain ⟨m', hm', hnamed, hadded⟩ := hlist g group hg
      rw [hm', mem_singleton]
      constructor
      · rintro rfl
        exact ⟨hnamed, hadded⟩
      · rintro ⟨hm, hmadded⟩
        exact hsingle g m m' hm hmadded hnamed hadded
    refine ⟨fun g group hg => ?_, hexact, ?_⟩
    · obtain ⟨m, hm, -⟩ := hlist g group hg
      rw [hm]
      exact nodup_singleton m
    · intro pf number hnumber hpf g p q hp hpadded hq hqadded hne
      obtain ⟨m, hm⟩ := exists_firstMember hp
      obtain ⟨group, hg, -⟩ := hgroup g m hm
      exact blocked_of_members hnumber hpf hg ((hexact g group hg p).mpr ⟨hp, hpadded⟩)
        ((hexact g group hg q).mpr ⟨hq, hqadded⟩) hne

/-- A group with one port, which is named twice. -/
theorem portGroups_complete_single :
    ∃ s : RoutingElements String, RoutingElements.new.describeAll
        [.addPort "SSP0" 0, .addPortGroup "I2S0" 0 "SSP0", .addPortGroup "I2S0" 0 "SSP0"] = some s ∧
      Complete
        [.addPort "SSP0" 0, .addPortGroup "I2S0" 0 "SSP0", .addPortGroup "I2S0" 0 "SSP0"] s :=
  ⟨_, rfl, (portGroups_complete_iff _ _ rfl).mpr fun g p q ⟨i, hp⟩ _ ⟨j, hq⟩ _ => by simp_all⟩

/-- Of two ports on one bus, only the first is in the group. -/
theorem portGroups_not_complete :
    ∃ s : RoutingElements String, RoutingElements.new.describeAll
        [.addPort "SSP0" 0, .addPort "SSP1" 1, .addPortGroup "I2S0" 0 "SSP0",
          .addPortGroup "I2S0" 0 "SSP1"] = some s ∧
      (s.groups "I2S0").map (·.portList) = some ["SSP0"] ∧
      ¬ Complete
        [.addPort "SSP0" 0, .addPort "SSP1" 1, .addPortGroup "I2S0" 0 "SSP0",
          .addPortGroup "I2S0" 0 "SSP1"] s := by
  refine ⟨_, rfl, by decide, fun h => ?_⟩
  have hmem := (h.exact "I2S0" ⟨0, ["SSP0"]⟩ rfl "SSP1").mpr
    ⟨⟨0, by simp⟩, ⟨1, by simp⟩⟩
  exact absurd hmem (by decide)

end HardwareIntel.AudioRoute
