import HardwareIntel.Hwc.PlaneManager
import HardwareIntel.Library.Runs

/-!
# The display planes of the Medfield hardware composer

`IntelDisplayPlaneManager` keeps the sprite, primary and overlay planes of the display controller in
pairs of bit masks, and every display device has an `IntelHWComposerLayerList` whose layers point to
the planes they are shown on. An overlay index stands for two plane objects, the overlay and the RGB
overlay.

`planes_accounted` says that no plane is ever lost or owned twice, whatever the devices do: every
index of a pool is free, reclaimed, or attached to one layer of one list. What
`disableReclaimedPlanes` touches is in general more than what was reclaimed, since the RGB overlays
are not looked up in the mask; the theorem says when a call touches no plane that is in use.
-/

namespace HardwareIntel.Hwc

open List Option

/-! ### Disabling planes -/

namespace PlaneManager

/-- The planes that one iteration of `disableReclaimedPlanes` disables and invalidates. -/
def disabledAt (m : PlaneManager) (pool : PlanePool) (i : ℕ) : List Plane :=
  let reclaimed := (m.pools pool).reclaimed.getLsbD i
  match pool with
  | .sprite => if reclaimed then [⟨.sprite, i⟩] else []
  | .primary => if reclaimed then [⟨.primary, i⟩] else []
  -- the RGB overlay is outside the test of the mask
  | .overlay => (if reclaimed then [⟨.overlay, i⟩] else []) ++ [⟨.rgbOverlay, i⟩]

/-- The planes that `disableReclaimedPlanes` disables and invalidates. The type is `none` for a
number that is no type of plane. -/
def disabledPlanes (m : PlaneManager) : Option PlaneType → List Plane
  | none => []
  | some type =>
    if (m.pools type.pool).reclaimed = 0 then []
    else (List.range (m.counts.count type.pool)).flatMap (m.disabledAt type.pool)

/-- The manager after `disableReclaimedPlanes`. -/
def disableReclaimedPlanes (m : PlaneManager) : Option PlaneType → PlaneManager
  | none => m
  | some type =>
    if (m.pools type.pool).reclaimed = 0 then m
    else { m with pools := Function.update m.pools type.pool (m.pools type.pool).merge }

end PlaneManager

/-! ### Layer lists -/

/-- `HWC_FRAMEBUFFER_TARGET` -/
def framebufferTarget : ℕ := 3

/-- The first `mNumLayers` layers, each with its plane: the others are not accessed any more. -/
structure LayerList where
  planes : List (Option Plane)
  attachedSpritePlanes : ℤ
  attachedOverlayPlanes : ℤ
  numAttachedPlanes : ℤ

def PlaneType.isSprite (type : PlaneType) : Bool := type == .sprite

def PlaneType.isOverlay (type : PlaneType) : Bool := type == .overlay || type == .rgbOverlay

namespace LayerList

def empty : LayerList := ⟨[], 0, 0, 0⟩

/-- The layers of a list, less a frame buffer target at the end. -/
def numLayers (types : List ℕ) : ℕ :=
  if types.getLast? = some framebufferTarget then types.length - 1 else types.length

/-- `updateLayerList` with the composition types of the new layers, or `none` for a null pointer. -/
def updateLayerList (l : LayerList) : Option (List ℕ) → LayerList
  | none => empty
  | some types =>
    if numLayers types = 0 then empty
    else { l with planes := List.replicate (numLayers types) none, numAttachedPlanes := 0 }

/-- The list after `invalidatePlanes`. -/
def invalidated (l : LayerList) : LayerList := ⟨l.planes.map fun _ => none, 0, 0, 0⟩

def attachPlane (l : LayerList) (index : ℕ) (plane : Plane) : LayerList :=
  if l.planes.length ≤ index then l
  else
    { planes := l.planes.set index (some plane)
      attachedSpritePlanes := l.attachedSpritePlanes + plane.type.isSprite.toNat
      attachedOverlayPlanes := l.attachedOverlayPlanes + plane.type.isOverlay.toNat
      numAttachedPlanes := l.numAttachedPlanes + 1 }

/-- The list after `detachPlane`. -/
def detached (l : LayerList) (index : ℕ) (plane : Plane) : LayerList :=
  if l.planes.length ≤ index then l
  else
    { planes := l.planes.set index none
      attachedSpritePlanes := l.attachedSpritePlanes - plane.type.isSprite.toNat
      attachedOverlayPlanes := l.attachedOverlayPlanes - plane.type.isOverlay.toNat
      numAttachedPlanes := l.numAttachedPlanes - 1 }

end LayerList

namespace PlaneManager

/-- The manager after `invalidatePlanes`. -/
def invalidatePlanes (m : PlaneManager) (l : LayerList) : PlaneManager :=
  l.planes.foldl (fun m plane => plane.elim m m.reclaimPlane) m

/-- The manager after `detachPlane`. -/
def detachPlane (m : PlaneManager) (l : LayerList) (index : ℕ) (plane : Plane) : PlaneManager :=
  if l.planes.length ≤ index then m else m.reclaimPlane plane

end PlaneManager

/-! ### Runs -/

/-- The planes of a composer with several display devices. -/
structure Planes where
  manager : PlaneManager
  lists : List LayerList

/-- What a device asks for. -/
inductive PlaneRequest
  | sprite
  | primary (pipe : ℤ)
  | overlay
  | rgbOverlay

inductive PlaneOperation
  /-- `invalidatePlanes` and `updateLayerList` -/
  | geometryChanged (device : ℕ) (list : Option (List ℕ))
  /-- one of the `get*Plane`, and `attachPlane` if it succeeds -/
  | attach (device index : ℕ) (request : PlaneRequest)
  | detach (device index : ℕ)
  | disableReclaimedPlanes (type : Option PlaneType)

def PlaneManager.get (m : PlaneManager) : PlaneRequest → Option (Plane × PlaneManager)
  | .sprite => m.getSpritePlane
  | .primary pipe => m.getPrimaryPlane pipe
  | .overlay => m.getOverlayPlane
  | .rgbOverlay => m.getRGBOverlayPlane

namespace Planes

/-- The plane counts are known and no device has got a list yet. -/
def initial (counts : PlaneCounts) (devices : ℕ) : Planes :=
  ⟨.detect counts, List.replicate devices .empty⟩

/-- One operation. The devices prepare each layer once, and attach a primary plane only to a layer
that has none or has just lost it. -/
def step (s : Planes) : PlaneOperation → Option Planes
  | .geometryChanged device list =>
    s.lists[device]?.map fun l =>
      ⟨s.manager.invalidatePlanes l, s.lists.set device (l.invalidated.updateLayerList list)⟩
  | .attach device index request =>
    s.lists[device]?.bind fun l =>
      if l.planes[index]? = some none then
        match s.manager.get request with
        | none => some s
        | some (plane, manager) => some ⟨manager, s.lists.set device (l.attachPlane index plane)⟩
      else none
  | .detach device index =>
    s.lists[device]?.bind fun l =>
      l.planes[index]?.join.map fun plane =>
        ⟨s.manager.detachPlane l index plane, s.lists.set device (l.detached index plane)⟩
  | .disableReclaimedPlanes type => some ⟨s.manager.disableReclaimedPlanes type, s.lists⟩

end Planes

/-! ### The account -/

/-- The number of layers that a plane index of a pool is attached to. -/
def LayerList.attached (l : LayerList) (pool : PlanePool) (i : ℕ) : ℕ :=
  l.planes.countP fun plane => plane.any fun plane => plane.isAt pool i

def LayerList.numOfType (l : LayerList) (p : PlaneType → Bool) : ℕ :=
  l.planes.countP fun plane => plane.any fun plane => p plane.type

/-- The counters of a list equal the numbers of attached planes. -/
structure LayerList.Counted (l : LayerList) : Prop where
  sprites : l.attachedSpritePlanes = l.numOfType PlaneType.isSprite
  overlays : l.attachedOverlayPlanes = l.numOfType PlaneType.isOverlay
  all : l.numAttachedPlanes = l.numOfType fun _ => true

namespace Planes

def attached (s : Planes) (pool : PlanePool) (i : ℕ) : ℕ :=
  (s.lists.map fun l => l.attached pool i).sum

/-- Every plane is free, reclaimed, or attached to one layer of one list, and the counters are
right. -/
structure Accounted (s : Planes) : Prop where
  once : ∀ pool, ∀ i < s.manager.counts.count pool,
    ((s.manager.pools pool).free.getLsbD i).toNat +
      ((s.manager.pools pool).reclaimed.getLsbD i).toNat + s.attached pool i = 1
  counted : ∀ l ∈ s.lists, l.Counted

/-- A call that finds no reclaimed overlay, or no overlay attached to any layer; the other pools are
not concerned. -/
def Quiet (s : Planes) (type : Option PlaneType) : Prop :=
  type.map PlaneType.pool = some .overlay → (s.manager.pools .overlay).reclaimed ≠ 0 →
    ∀ i, s.attached .overlay i = 0

end Planes

/-! ### What the operations do to the masks -/

namespace PlaneManager

variable {m m' : PlaneManager} {plane : Plane}

/-- A plane that is handed out leaves the masks. -/
theorem holds_get {request : PlaneRequest} (h : m.get request = some (plane, m'))
    (pool : PlanePool) (i : ℕ) :
    m'.holds pool i + (plane.isAt pool i).toNat = m.holds pool i := by
  cases request with
  | sprite => exact holds_takePlane picks_getPlane h pool i
  | primary pipe => exact holds_takePlane (picks_getPlaneAt m.counts.total pipe) h pool i
  | overlay => exact holds_takePlane picks_getPlane h pool i
  | rgbOverlay => exact holds_takePlane picks_getPlane h pool i

/-- No request changes the numbers of planes. -/
theorem counts_get {request : PlaneRequest} (h : m.get request = some (plane, m')) :
    m'.counts = m.counts := by
  cases request with
  | sprite => exact counts_takePlane h
  | primary pipe => exact counts_takePlane h
  | overlay => exact counts_takePlane h
  | rgbOverlay => exact counts_takePlane h

/-- Disabling reclaimed planes keeps where each plane is. -/
theorem holds_disableReclaimedPlanes (h : ∀ pool i, m.holds pool i ≤ 1) (type : Option PlaneType)
    (pool : PlanePool) (i : ℕ) : (m.disableReclaimedPlanes type).holds pool i = m.holds pool i := by
  cases type with
  | none => rfl
  | some type =>
    unfold disableReclaimedPlanes
    dsimp only
    split
    · rfl
    · rw [holds_update]
      split
      · rename_i hpool
        subst hpool
        exact MaskPool.holds_merge (h type.pool i)
      · rfl

/-- It keeps the numbers of planes. -/
theorem counts_disableReclaimedPlanes (m : PlaneManager) (type : Option PlaneType) :
    (m.disableReclaimedPlanes type).counts = m.counts := by
  cases type with
  | none => rfl
  | some type =>
    unfold disableReclaimedPlanes
    dsimp only
    split <;> rfl

end PlaneManager

/-! ### What the lists hold -/

variable {planes : List (Option Plane)}

/-- Setting a plane counts it. -/
theorem countP_set_plane (p : Plane → Bool) {index : ℕ} (h : planes[index]? = some none)
    (plane : Plane) :
    (planes.set index (some plane)).countP (·.any p) = planes.countP (·.any p) + (p plane).toNat := by
  have hset := countP_set_add (b := some plane) (·.any p) h
  exact hset

/-- Clearing it counts it no longer. -/
theorem countP_set_none (p : Plane → Bool) {index : ℕ} {plane : Plane}
    (h : planes[index]? = some (some plane)) :
    (planes.set index none).countP (·.any p) + (p plane).toNat = planes.countP (·.any p) := by
  have hset := countP_set_add (b := none) (·.any p) h
  exact hset

namespace LayerList

variable {l : LayerList} {index : ℕ} {plane : Plane}

/-- The list after a plane is attached. -/
theorem attachPlane_eq (h : l.planes[index]? = some none) (plane : Plane) :
    l.attachPlane index plane =
      { planes := l.planes.set index (some plane)
        attachedSpritePlanes := l.attachedSpritePlanes + plane.type.isSprite.toNat
        attachedOverlayPlanes := l.attachedOverlayPlanes + plane.type.isOverlay.toNat
        numAttachedPlanes := l.numAttachedPlanes + 1 } := by
  obtain ⟨hlt, -⟩ := List.getElem?_eq_some_iff.mp h
  rw [attachPlane, if_neg (Nat.not_le.mpr hlt)]

/-- The list after it is detached. -/
theorem detached_eq (h : l.planes[index]? = some (some plane)) :
    l.detached index plane =
      { planes := l.planes.set index none
        attachedSpritePlanes := l.attachedSpritePlanes - plane.type.isSprite.toNat
        attachedOverlayPlanes := l.attachedOverlayPlanes - plane.type.isOverlay.toNat
        numAttachedPlanes := l.numAttachedPlanes - 1 } := by
  obtain ⟨hlt, -⟩ := List.getElem?_eq_some_iff.mp h
  rw [detached, if_neg (Nat.not_le.mpr hlt)]

/-- Attaching keeps the counters right. -/
theorem Counted.attachPlane (hl : l.Counted) (h : l.planes[index]? = some none) (plane : Plane) :
    (l.attachPlane index plane).Counted := by
  have hcount : ∀ p, (l.attachPlane index plane).numOfType p =
      l.numOfType p + (p plane.type).toNat := by
    intro p
    rw [attachPlane_eq h]
    exact countP_set_plane (fun plane => p plane.type) h plane
  refine ⟨?_, ?_, ?_⟩
  · rw [hcount, attachPlane_eq h, Int.natCast_add, ← hl.sprites]
  · rw [hcount, attachPlane_eq h, Int.natCast_add, ← hl.overlays]
  · rw [hcount, attachPlane_eq h, Int.natCast_add, ← hl.all]
    rfl

/-- Detaching keeps the counters right. -/
theorem Counted.detached (hl : l.Counted) (h : l.planes[index]? = some (some plane)) :
    (l.detached index plane).Counted := by
  have hcount : ∀ p, (l.detached index plane).numOfType p + (p plane.type).toNat =
      l.numOfType p := by
    intro p
    rw [detached_eq h]
    exact countP_set_none (fun plane => p plane.type) h
  refine ⟨?_, ?_, ?_⟩
  · have := hcount PlaneType.isSprite
    have := hl.sprites
    rw [detached_eq h] at *
    dsimp only at *
    omega
  · have := hcount PlaneType.isOverlay
    have := hl.overlays
    rw [detached_eq h] at *
    dsimp only at *
    omega
  · have := hcount fun _ => true
    have := hl.all
    rw [detached_eq h] at *
    simp only [Bool.toNat_true] at *
    omega

/-- A list after a change of the geometry: no layer has a plane. -/
theorem updateLayerList_invalidated (l : LayerList) (list : Option (List ℕ)) :
    ∃ n, l.invalidated.updateLayerList list = ⟨List.replicate n none, 0, 0, 0⟩ := by
  cases list with
  | none => exact ⟨0, rfl⟩
  | some types =>
    unfold updateLayerList
    dsimp only
    split
    · exact ⟨0, rfl⟩
    · exact ⟨numLayers types, rfl⟩

/-- A new list has no planes. -/
theorem countP_replicate_none (p : Plane → Bool) (n : ℕ) :
    (List.replicate n none).countP (fun plane : Option Plane => plane.any p) = 0 := by
  rw [countP_replicate]
  rfl

/-- Its counters are right. -/
theorem counted_replicate (n : ℕ) : Counted ⟨List.replicate n none, 0, 0, 0⟩ := by
  refine ⟨?_, ?_, ?_⟩ <;> rw [numOfType, countP_replicate_none] <;> rfl

end LayerList

namespace Planes

variable {s t : Planes}

/-- A change of one list changes how often a plane is attached by that list's share. -/
theorem attached_set {device : ℕ} {l : LayerList} (h : s.lists[device]? = some l) (l' : LayerList)
    (m : PlaneManager) (pool : PlanePool) (i : ℕ) :
    attached ⟨m, s.lists.set device l'⟩ pool i + l.attached pool i =
      s.attached pool i + l'.attached pool i :=
  sum_map_set (fun l => l.attached pool i) h

/-- A law of conservation for every number of every pool. -/
structure Balanced (s : Planes) : Prop where
  once : ∀ pool i, s.manager.holds pool i + s.attached pool i =
    if i < s.manager.counts.count pool then 1 else 0
  counted : ∀ l ∈ s.lists, l.Counted

/-- Balanced states are accounted for. -/
theorem Balanced.accounted (h : s.Balanced) : s.Accounted where
  once := by
    intro pool i hi
    have := h.once pool i
    rwa [if_pos hi] at this
  counted := h.counted

/-- The numbers of planes are below 32. -/
theorem count_lt (counts : PlaneCounts) (pool : PlanePool) : counts.count pool < 32 := by
  have := counts.total_lt
  cases pool <;> omega

/-- The initial state is balanced. -/
theorem balanced_initial (counts : PlaneCounts) (devices : ℕ) : (initial counts devices).Balanced where
  once := by
    intro pool i
    have hattached : (initial counts devices).attached pool i = 0 := by
      simp [attached, initial, LayerList.attached, LayerList.empty]
    rw [hattached]
    exact MaskPool.holds_full (count_lt counts pool) i
  counted := by
    intro l hl
    rw [eq_of_mem_replicate hl]
    exact LayerList.counted_replicate 0

/-- The step of a device: what its list gains, the masks lose. -/
theorem Balanced.set (h : s.Balanced) {device : ℕ} {l l' : LayerList} {m : PlaneManager}
    (hl : s.lists[device]? = some l) (hcounts : m.counts = s.manager.counts) (hcounted : l'.Counted)
    (hheld : ∀ pool i, m.holds pool i + l'.attached pool i =
      s.manager.holds pool i + l.attached pool i) :
    Balanced ⟨m, s.lists.set device l'⟩ where
  once := by
    intro pool i
    have hset := attached_set hl l' m pool i
    have hpool := hheld pool i
    have hs := h.once pool i
    simp only [hcounts]
    omega
  counted := by
    intro l₀ hl₀
    rcases mem_or_eq_of_mem_set hl₀ with hl₀ | rfl
    · exact h.counted l₀ hl₀
    · exact hcounted

/-- What a list holds is in no mask. -/
theorem Balanced.holds_add_attached_le (h : s.Balanced) {device : ℕ} {l : LayerList}
    (hl : s.lists[device]? = some l) (pool : PlanePool) (i : ℕ) :
    s.manager.holds pool i + l.attached pool i ≤ if i < 32 then 1 else 0 := by
  have honce := h.once pool i
  have hset := attached_set hl .empty s.manager pool i
  have hempty : LayerList.empty.attached pool i = 0 := rfl
  have hlt := count_lt s.manager.counts pool
  split at honce <;> split <;> omega

/-- Every operation keeps the balance. -/
theorem Balanced.step {x : PlaneOperation} (h : s.Balanced) (hstep : s.step x = some t) :
    t.Balanced := by
  cases x with
  | geometryChanged device list =>
    obtain ⟨l, hl, rfl⟩ := map_eq_some_iff.mp hstep
    obtain ⟨n, hn⟩ := l.updateLayerList_invalidated list
    rw [hn]
    refine h.set hl (PlaneManager.counts_foldl_reclaimPlane l.planes)
      (LayerList.counted_replicate n) fun pool i => ?_
    rw [LayerList.attached, LayerList.countP_replicate_none, Nat.add_zero]
    exact PlaneManager.holds_foldl_reclaimPlane (fun _ => True) l.planes
      (fun pool _ => h.holds_add_attached_le hl pool) trivial i
  | attach device index request =>
    obtain ⟨l, hl, hattach⟩ := bind_eq_some_iff.mp hstep
    obtain ⟨hnone, hattach⟩ := ite_none_right_eq_some.mp hattach
    split at hattach
    · cases hattach
      exact h
    · rename_i plane m hget
      cases hattach
      refine h.set hl (PlaneManager.counts_get hget)
        ((h.counted l (mem_of_getElem? hl)).attachPlane hnone plane) fun pool i => ?_
      have hheld := PlaneManager.holds_get hget pool i
      have hlist : (l.attachPlane index plane).attached pool i =
          l.attached pool i + (plane.isAt pool i).toNat := by
        rw [LayerList.attachPlane_eq hnone]
        exact countP_set_plane (·.isAt pool i) hnone plane
      omega
  | detach device index =>
    obtain ⟨l, hl, hdetach⟩ := bind_eq_some_iff.mp hstep
    obtain ⟨plane, hplane, rfl⟩ := map_eq_some_iff.mp hdetach
    rw [join_eq_some_iff] at hplane
    obtain ⟨hlt, -⟩ := List.getElem?_eq_some_iff.mp hplane
    rw [PlaneManager.detachPlane, if_neg (Nat.not_le.mpr hlt)]
    have hlist : ∀ pool i, (l.detached index plane).attached pool i +
        (plane.isAt pool i).toNat = l.attached pool i := by
      intro pool i
      rw [LayerList.detached_eq hplane]
      exact countP_set_none (·.isAt pool i) hplane
    refine h.set hl rfl ((h.counted l (mem_of_getElem? hl)).detached hplane) fun pool i => ?_
    have hown : plane.isAt plane.type.pool plane.index = true := by simp [Plane.isAt]
    have hhere := hlist plane.type.pool plane.index
    have hle := h.holds_add_attached_le hl plane.type.pool plane.index
    rw [hown, Bool.toNat_true] at hhere
    have hbound : plane.index < 32 := by
      by_contra hge
      rw [if_neg hge] at hle
      omega
    rw [if_pos hbound] at hle
    have hreclaim := PlaneManager.holds_reclaimPlane hbound (m := s.manager) (by omega) pool i
    have hthere := hlist pool i
    omega
  | disableReclaimedPlanes type =>
    cases hstep
    refine ⟨fun pool i => ?_, h.counted⟩
    have hle : ∀ pool i, s.manager.holds pool i ≤ 1 := by
      intro pool i
      have := h.once pool i
      split at this <;> omega
    rw [PlaneManager.counts_disableReclaimedPlanes, PlaneManager.holds_disableReclaimedPlanes hle]
    exact h.once pool i

/-! ### What is disabled -/

/-- A disabled plane is of this place, and was reclaimed or is an overlay. -/
theorem mem_disabledAt {m : PlaneManager} {pool : PlanePool} {i : ℕ} {plane : Plane}
    (h : plane ∈ m.disabledAt pool i) : plane.type.pool = pool ∧ plane.index = i ∧
      ((m.pools pool).reclaimed.getLsbD i = true ∨ pool = .overlay) := by
  cases pool with
  | sprite =>
    obtain ⟨hbit, rfl⟩ := by simpa [PlaneManager.disabledAt] using h
    exact ⟨rfl, rfl, Or.inl hbit⟩
  | primary =>
    obtain ⟨hbit, rfl⟩ := by simpa [PlaneManager.disabledAt] using h
    exact ⟨rfl, rfl, Or.inl hbit⟩
  | overlay =>
    rcases mem_append.mp h with h | h
    · obtain ⟨hbit, rfl⟩ := by simpa using h
      exact ⟨rfl, rfl, Or.inl hbit⟩
    · obtain rfl := mem_singleton.mp h
      exact ⟨rfl, rfl, Or.inr rfl⟩

/-- A reclaimed plane is attached to no layer, but an RGB overlay is disabled without being
reclaimed. -/
theorem Balanced.disabledPlanes_iff (h : s.Balanced) (type : Option PlaneType) :
    (∀ plane ∈ s.manager.disabledPlanes type, s.attached plane.type.pool plane.index = 0) ↔
      s.Quiet type := by
  cases type with
  | none => simp [PlaneManager.disabledPlanes, Quiet]
  | some type =>
    unfold PlaneManager.disabledPlanes
    dsimp only
    constructor
    · intro hdisabled htype hreclaimed i
      rw [map_some, some.injEq] at htype
      rw [htype, if_neg hreclaimed] at hdisabled
      by_cases hi : i < s.manager.counts.count .overlay
      · refine hdisabled ⟨.rgbOverlay, i⟩ (mem_flatMap.mpr ⟨i, mem_range.mpr hi, ?_⟩)
        exact mem_append_right _ (mem_singleton_self _)
      · have honce := h.once .overlay i
        rw [if_neg hi] at honce
        omega
    · intro hquiet plane hplane
      split at hplane
      · cases hplane
      · rename_i hreclaimed
        obtain ⟨i, hi, hat⟩ := mem_flatMap.mp hplane
        obtain ⟨hpool, hindex, hbit | hoverlay⟩ := mem_disabledAt hat
        · have honce := h.once type.pool i
          rw [if_pos (mem_range.mp hi), PlaneManager.holds, MaskPool.holds, hbit,
            Bool.toNat_true] at honce
          rw [hpool, hindex]
          omega
        · rw [hoverlay] at hreclaimed hpool
          rw [hpool]
          exact hquiet (by rw [map_some, hoverlay]) hreclaimed plane.index

end Planes

/-- After any operations of any number of devices every plane is free, reclaimed, or attached to one
layer of one list, and the counters are right; and a call of `disableReclaimedPlanes` touches only
planes that are attached to no layer exactly when it is one for the overlays that finds nothing
reclaimed or no overlay attached, or one for another pool. -/
theorem planes_accounted {counts : PlaneCounts} {devices : ℕ} {s : Planes}
    (hrun : Reach Planes.step (fun _ _ => True) (Planes.initial counts devices) s) :
    s.Accounted ∧ ∀ type,
      (∀ plane ∈ s.manager.disabledPlanes type, s.attached plane.type.pool plane.index = 0) ↔
        s.Quiet type := by
  have hbalanced : s.Balanced := hrun.invariant (Planes.balanced_initial counts devices)
    fun _ _ _ h _ hstep => h.step hstep
  exact ⟨hbalanced.accounted, hbalanced.disabledPlanes_iff⟩

/-- Three primary planes and two overlays. -/
def medfieldCounts : PlaneCounts where
  count
    | .sprite => 0
    | .primary => 3
    | .overlay => 2
  total_lt := by decide

/-- Two devices share the overlays, and the first one gives its overlay back. -/
theorem planes_accounted_two_devices : ∃ s : Planes,
    (s.Accounted ∧ ∀ type,
      (∀ plane ∈ s.manager.disabledPlanes type, s.attached plane.type.pool plane.index = 0) ↔
        s.Quiet type) ∧ s.attached .overlay 1 = 1 ∧ (s.manager.pools .overlay).reclaimed = 1 := by
  obtain ⟨s, hrun, hs⟩ : ∃ s, Reach Planes.step (fun _ _ => True)
      (Planes.initial medfieldCounts 2) s ∧
      s.attached .overlay 1 = 1 ∧ (s.manager.pools .overlay).reclaimed = 1 :=
    Reach.exists_of_decide (fun _ _ h => h)
      [.geometryChanged 0 (some [0, 3]), .geometryChanged 1 (some [0]), .attach 0 0 .overlay,
        .attach 1 0 .overlay, .detach 0 0] (by decide)
  exact ⟨s, planes_accounted hrun, hs⟩

/-- An overlay is reclaimed while a layer is shown on the other RGB overlay, and is disabled: so is
the RGB overlay. -/
theorem attached_rgb_overlay_disabled : ¬ ∀ (counts : PlaneCounts) (devices : ℕ) (s : Planes),
    Reach Planes.step (fun _ _ => True) (Planes.initial counts devices) s →
      ∀ type, ∀ plane ∈ s.manager.disabledPlanes type,
        s.attached plane.type.pool plane.index = 0 := by
  intro h
  obtain ⟨s, hrun, plane, hplane, hattached⟩ : ∃ s, Reach Planes.step (fun _ _ => True)
      (Planes.initial medfieldCounts 1) s ∧
        ∃ plane ∈ s.manager.disabledPlanes (some .overlay),
          s.attached plane.type.pool plane.index ≠ 0 :=
    Reach.exists_of_decide (fun _ _ h => h) [.geometryChanged 0 (some [0, 0]),
      .attach 0 0 .overlay, .attach 0 1 .rgbOverlay, .detach 0 0] (by decide)
  exact hattached (h medfieldCounts 1 s hrun (some .overlay) plane hplane)

end HardwareIntel.Hwc
