import HardwareIntel.Hwc.PlaneManager
import HardwareIntel.Library.Runs
import Mathlib.Data.List.Sort

/-!
# The layer list of the Merrifield hardware composer

An `HwcLayerList` is made for the layers of one frame. `analyze` gives sprite and overlay planes to
the layers whose checks pass, the rest is composed into the frame buffer target, which is then shown
on the primary plane. `update` sets the new buffers; a layer whose buffer is refused falls back to
the frame buffer, and the whole list is updated again.

The answers of the hardware are inputs: whether a layer passes the check of a kind of plane, and
whether a plane accepts a buffer. `planes_conserved` says that no plane is lost and `update`
terminates as long as no layer is given two planes, only the frame buffer target has one of the low
bits in its composition type, and a layer whose buffer is refused can be taken over by the primary
plane at once.
-/

namespace HardwareIntel.Hwc

open List Option Function

/-- `HwcLayer::LAYER_*` -/
inductive LayerType
  | fb
  | sprite
  | overlay
  | primary
  deriving DecidableEq

structure HwcLayer where
  plane : Option Plane
  type : LayerType

namespace HwcLayer

/-- A new layer. -/
def blank : HwcLayer := ⟨none, .fb⟩

/-- A layer that has a plane refuses another one. -/
def attachPlane (l : HwcLayer) (plane : Plane) : HwcLayer :=
  if l.plane.isSome then l else { l with plane := some plane }

/-- The layer after `detachPlane`. -/
def detached (l : HwcLayer) : HwcLayer := { l with plane := none }

def setType (l : HwcLayer) (type : LayerType) : HwcLayer := { l with type := type }

/-- A layer that `update` sets the buffer of. -/
def active (l : HwcLayer) : Bool := l.type != .fb && l.plane.isSome

end HwcLayer

/-- What is known of a layer when the list is made: its composition type, the answers of the dummy
planes to `check`, and whether an external display is connected when the code asks. -/
structure LayerInput where
  compositionType : ℕ
  spriteCheck : Bool
  overlayCheck : Bool
  extConnected : Bool

/-- `HWC_FRAMEBUFFER_TARGET` is two bits, which the code tests with `&`. -/
def LayerInput.isTarget (x : LayerInput) : Bool := x.compositionType &&& 3 != 0

/-- What the list is made with. -/
structure ListConfig where
  layerCount : ℕ
  inputs : ℕ → LayerInput
  supportExtendVideo : Bool
  displayIndex : ℕ
  primaryIndex : ℕ

def ListConfig.primaryPlane (cfg : ListConfig) : Plane := ⟨.primary, cfg.primaryIndex⟩

/-! ### Sorted vectors -/

/-- `SortedVector::add` of a layer, by its index. -/
def addLayer (i : ℕ) (l : List ℕ) : List ℕ := if i ∈ l then l else l.orderedInsert (· ≤ ·) i

def removeLayer (i : ℕ) (l : List ℕ) : List ℕ := l.filter fun j => j ≠ i

/-- Adding a layer adds this layer only. -/
@[simp] theorem mem_addLayer {i j : ℕ} {l : List ℕ} : j ∈ addLayer i l ↔ j = i ∨ j ∈ l := by
  unfold addLayer
  split
  · rename_i hi
    constructor
    · exact Or.inr
    · rintro (rfl | h)
      · exact hi
      · exact h
  · rw [mem_orderedInsert]

/-- Removing a layer removes this layer only. -/
@[simp] theorem mem_removeLayer {i j : ℕ} {l : List ℕ} : j ∈ removeLayer i l ↔ j ∈ l ∧ j ≠ i := by
  simp [removeLayer]

/-! ### The plane manager -/

namespace PlaneManager

/-- `getFreeSpriteCount` and `getFreeOverlayCount` -/
def freeCount (m : PlaneManager) (pool : PlanePool) : ℕ :=
  (List.range 32).countP fun i => ((m.pools pool).free ||| (m.pools pool).reclaimed).getLsbD i

/-- `hasFreeSprites` and `hasFreeOverlays` -/
def hasFree (m : PlaneManager) (pool : PlanePool) : Bool :=
  (m.pools pool).free != 0 || (m.pools pool).reclaimed != 0

/-- The plane comes back to the free mask. -/
def putOverlayPlane (m : PlaneManager) (plane : Plane) : PlaneManager :=
  if plane.type = .overlay then
    let pool := m.pools .overlay
    let pool := { pool with free := putPlane plane.index pool.free }
    { m with pools := Function.update m.pools .overlay pool }
  else m

end PlaneManager

/-! ### The list -/

/-- The list with its plane manager. -/
structure HwcLayerList where
  manager : PlaneManager
  layers : ℕ → HwcLayer
  overlayLayers : List ℕ
  fbLayers : List ℕ
  framebufferTarget : Option ℕ

namespace HwcLayerList

variable (cfg : ListConfig)

def setLayer (s : HwcLayerList) (i : ℕ) (l : HwcLayer) : HwcLayerList :=
  { s with layers := Function.update s.layers i l }

/-- A layer has passed the check of a sprite plane. -/
def attachSprite (s : HwcLayerList) (i : ℕ) : HwcLayerList :=
  match s.manager.getSpritePlane with
  | none => s
  | some (plane, manager) =>
    { s with manager := manager }.setLayer i (((s.layers i).attachPlane plane).setType .sprite)

/-- A layer has passed the check of an overlay plane. -/
def attachOverlay (s : HwcLayerList) (i : ℕ) : HwcLayerList :=
  match s.manager.getOverlayPlane with
  | none => if cfg.supportExtendVideo then s.setLayer i ((s.layers i).setType .overlay) else s
  | some (plane, manager) =>
    let l := ((s.layers i).attachPlane plane).setType .overlay
    let s := { s with manager := manager }
    -- in extended video mode the external display gets the overlay
    if cfg.supportExtendVideo && (cfg.inputs i).extConnected && cfg.displayIndex == 0 then
      { s with manager := s.manager.putOverlayPlane plane }.setLayer i l.detached
    else s.setLayer i l

/-- One iteration of `analyzeFrom`, with the numbers of free planes that the loop began with. -/
def analyzeLayer (freeSprites freeOverlays : ℕ) (s : HwcLayerList) (i : ℕ) : HwcLayerList :=
  let x := cfg.inputs i
  if x.isTarget then { s with framebufferTarget := some i }
  else
    let s := if freeSprites ≠ 0 ∧ x.spriteCheck then s.attachSprite i else s
    let s := if freeOverlays ≠ 0 ∧ x.overlayCheck then s.attachOverlay cfg i else s
    if (s.layers i).type = .fb then { s with fbLayers := addLayer i s.fbLayers }
    else { s with overlayLayers := addLayer i s.overlayLayers }

/-- The loop of `analyzeFrom` over the layers below the given one, from top to bottom. -/
def analyzeBelow (freeSprites freeOverlays : ℕ) : ℕ → HwcLayerList → HwcLayerList
  | 0, s => s
  | i + 1, s => analyzeBelow freeSprites freeOverlays i
      (s.analyzeLayer cfg freeSprites freeOverlays i)

/-- The first part of `revisit`: the primary plane takes over the only layer that is left, if it
accepts it. -/
def takeOver (s : HwcLayerList) (accepts : Bool) : HwcLayerList :=
  match s.fbLayers with
  | [i] =>
    if accepts then
      { s.setLayer i (((s.layers i).attachPlane cfg.primaryPlane).setType .primary) with
        fbLayers := removeLayer i s.fbLayers
        overlayLayers := addLayer i s.overlayLayers }
    else s
  | _ => s

/-- The second part: the frame buffer target is shown if anything is composed. -/
def showTarget (s : HwcLayerList) : HwcLayerList :=
  match s.framebufferTarget with
  | none => s
  | some f =>
    if s.fbLayers ≠ [] then
      { s.setLayer f (((s.layers f).attachPlane cfg.primaryPlane).setType .primary) with
        overlayLayers := addLayer f s.overlayLayers }
    else s

/-- `revisit`, with the answer of the primary plane to the check of the layer that is left. The
z order that it generates does not concern the lists. -/
def revisit (s : HwcLayerList) (accepts : Bool) : HwcLayerList :=
  (s.takeOver cfg accepts).showTarget cfg

/-- A list whose layers have not been analyzed. -/
def unanalyzed (m : PlaneManager) : HwcLayerList := ⟨m, fun _ => .blank, [], [], none⟩

/-- The constructor. -/
def construct (m : PlaneManager) (accepts : Bool) : HwcLayerList :=
  if cfg.layerCount = 0 then unanalyzed m
  else ((unanalyzed m).analyzeBelow cfg (m.freeCount .sprite) (m.freeCount .overlay)
    cfg.layerCount).revisit cfg accepts

/-- The answers during one call of `update`, by pass and layer: whether the plane of the layer
accepts the new buffer, and whether the primary plane accepts what is left in `revisit`. -/
structure Answers where
  sets : ℕ → ℕ → Bool
  accepts : ℕ → ℕ → Bool

/-- A layer whose buffer was refused falls back. -/
def fallBack (s : HwcLayerList) (i : ℕ) (accepts : Bool) : HwcLayerList :=
  { s.setLayer i ((s.layers i).setType .fb) with
    overlayLayers := removeLayer i s.overlayLayers
    fbLayers := addLayer i s.fbLayers }.revisit cfg accepts

/-- One iteration of the loop of `update`; the flag is `updateError`. -/
def updateLayer (a : Answers) (pass : ℕ) (s : HwcLayerList × Bool) (i : ℕ) : HwcLayerList × Bool :=
  if (s.1.layers i).active && !a.sets pass i then (s.1.fallBack cfg i (a.accepts pass i), true)
  else s

def updatePass (a : Answers) (pass : ℕ) (s : HwcLayerList) : HwcLayerList × Bool :=
  (List.range cfg.layerCount).foldl (updateLayer cfg a pass) (s, false)

/-- The retry loop of `update`; `none` says that it is still running after `fuel` passes. -/
def updateLoop (a : Answers) : ℕ → ℕ → HwcLayerList → Option HwcLayerList
  | 0, _, _ => none
  | fuel + 1, pass, s =>
    let (s, updateError) := s.updatePass cfg a pass
    if updateError && !s.overlayLayers.isEmpty then updateLoop a fuel (pass + 1) s else some s

/-- `update` with a list of the same length. -/
def update (s : HwcLayerList) (fuel : ℕ) (a : Answers) : Option HwcLayerList :=
  s.updateLoop cfg a fuel 0

/-- The manager after the destructor. -/
def destroyed (s : HwcLayerList) : PlaneManager :=
  (List.range cfg.layerCount).foldl
    (fun m i => (s.layers i).plane.elim m m.reclaimPlane) s.manager

/-! ### What is to be kept, and when it is -/

/-- The number of layers that a plane is attached to. -/
def attached (s : HwcLayerList) (pool : PlanePool) (k : ℕ) : ℕ :=
  (List.range cfg.layerCount).countP fun i => (s.layers i).plane.any (·.isAt pool k)

/-- What a list keeps that was made with the manager `m`: a sprite or overlay plane that has left the
masks is attached to one layer, a layer that is composed has no plane, one layer at most has the
primary plane, and the two vectors split the layers other than the frame buffer target. -/
structure Conserves (m : PlaneManager) (s : HwcLayerList) : Prop where
  once : ∀ pool ≠ .primary, ∀ k,
    s.manager.holds pool k + s.attached cfg pool k = m.holds pool k
  fb : ∀ i < cfg.layerCount, (s.layers i).type = .fb → (s.layers i).plane = none
  primary : ∀ i < cfg.layerCount, ∀ j < cfg.layerCount,
    (s.layers i).plane = some cfg.primaryPlane → (s.layers j).plane = some cfg.primaryPlane → i = j
  lists : ∀ i < cfg.layerCount, (cfg.inputs i).compositionType ≠ 3 →
    (i ∈ s.fbLayers ↔ i ∉ s.overlayLayers)

/-- A layer that has got a sprite plane does not get an overlay plane too. -/
def layerKeeps (freeSprites freeOverlays : ℕ) (s : HwcLayerList) (i : ℕ) : Bool :=
  let x := cfg.inputs i
  x.isTarget || !(freeSprites != 0 && x.spriteCheck && s.manager.hasFree .sprite &&
    (freeOverlays != 0 && x.overlayCheck && s.manager.hasFree .overlay))

/-- The condition on every iteration of `analyzeBelow`. -/
def analyzeKeeps (freeSprites freeOverlays : ℕ) : ℕ → HwcLayerList → Bool
  | 0, _ => true
  | i + 1, s => s.layerKeeps cfg freeSprites freeOverlays i &&
      analyzeKeeps freeSprites freeOverlays i (s.analyzeLayer cfg freeSprites freeOverlays i)

/-- The condition on the constructor. -/
def ConstructKeeps (m : PlaneManager) : Prop :=
  (∀ i < cfg.layerCount, (cfg.inputs i).isTarget = true → (cfg.inputs i).compositionType = 3) ∧
    (unanalyzed m).analyzeKeeps cfg (m.freeCount .sprite) (m.freeCount .overlay) cfg.layerCount =
      true

/-- A refused buffer of the frame buffer target, or of a layer that the primary plane accepts while
no other layer is composed. -/
def refusalKeeps (s : HwcLayerList) (a : Answers) (pass i : ℕ) : Bool :=
  s.framebufferTarget == some i || (s.fbLayers.isEmpty && a.accepts pass i)

/-- No buffer is refused in the pass `passes`, and those before it keep the planes. -/
def KeepsAt (s : HwcLayerList) (a : Answers) (passes : ℕ) : Prop :=
  (∀ i < cfg.layerCount, (s.layers i).active = true → a.sets passes i = true) ∧
    ∀ k < passes, ∀ i < cfg.layerCount, (s.layers i).active = true → a.sets k i = false →
      s.refusalKeeps a k i = true

instance (s : HwcLayerList) (a : Answers) (passes : ℕ) : Decidable (s.KeepsAt cfg a passes) :=
  inferInstanceAs (Decidable (_ ∧ _))

instance (m : PlaneManager) : Decidable (ConstructKeeps cfg m) :=
  inferInstanceAs (Decidable (_ ∧ _))

/-- The condition on a call of `update`. -/
def Keeps (s : HwcLayerList) (a : Answers) : Prop := ∃ passes, s.KeepsAt cfg a passes

/-- One call of `update` that returns within the given number of passes. -/
def step (s : HwcLayerList) (x : ℕ × Answers) : Option HwcLayerList := s.update cfg x.1 x.2

/-! ### The analysis -/

variable {cfg} {m : PlaneManager} {s t u : HwcLayerList} {i : ℕ}

/-- A layer has been given a plane of the masks, or none. -/
structure Placed (s t : HwcLayerList) (i : ℕ) : Prop where
  layers : ∀ j ≠ i, t.layers j = s.layers j
  overlayLayers : t.overlayLayers = s.overlayLayers
  fbLayers : t.fbLayers = s.fbLayers
  target : t.framebufferTarget = s.framebufferTarget
  fb : (t.layers i).type = .fb → (t.layers i).plane = none
  kind : ∀ plane, (t.layers i).plane = some plane → plane.type ≠ .primary
  held : ∀ pool ≠ .primary, ∀ k,
    t.manager.holds pool k + ((t.layers i).plane.any (·.isAt pool k)).toNat =
      s.manager.holds pool k + ((s.layers i).plane.any (·.isAt pool k)).toNat

/-- Two steps at one layer are one. -/
theorem Placed.trans (h : Placed s t i) (h' : Placed t u i) : Placed s u i where
  layers := fun j hj => (h'.layers j hj).trans (h.layers j hj)
  overlayLayers := h'.overlayLayers.trans h.overlayLayers
  fbLayers := h'.fbLayers.trans h.fbLayers
  target := h'.target.trans h.target
  fb := h'.fb
  kind := h'.kind
  held := fun pool hpool k => (h'.held pool hpool k).trans (h.held pool hpool k)

/-- A layer that is left alone has been given nothing. -/
theorem Placed.refl (hfb : (s.layers i).type = .fb → (s.layers i).plane = none)
    (hkind : ∀ plane, (s.layers i).plane = some plane → plane.type ≠ .primary) : Placed s s i :=
  ⟨fun _ _ => rfl, rfl, rfl, rfl, hfb, hkind, fun _ _ _ => rfl⟩

variable {a : Answers} {pass : ℕ} {plane : Plane}

/-- A plane that is taken has the type asked for. -/
theorem type_takePlane {m m' : PlaneManager} {type : PlaneType}
    {pick : BitVec 32 → Option (ℕ × BitVec 32)} (h : m.takePlane type pick = some (plane, m')) :
    plane.type = type := by
  obtain ⟨_, _, heq⟩ := map_eq_some_iff.mp h
  cases heq
  rfl

/-- No plane can be taken where none is free. -/
theorem takePlane_eq_none {m : PlaneManager} {type : PlaneType}
    (h : m.hasFree type.pool = false) : m.takePlane type getPlane = none := by
  rw [PlaneManager.hasFree, Bool.or_eq_false_iff, bne_eq_false_iff_eq, bne_eq_false_iff_eq] at h
  rw [PlaneManager.takePlane, MaskPool.take, h.1, h.2]
  rfl

/-- A layer without a plane is given one. -/
theorem placed_setLayer {manager : PlaneManager} {type : LayerType}
    (hnone : (s.layers i).plane = none) (htype : type ≠ .fb) (hkind : plane.type ≠ .primary)
    (hheld : ∀ pool k, manager.holds pool k + (plane.isAt pool k).toNat = s.manager.holds pool k) :
    Placed s
      ({ s with manager := manager }.setLayer i (((s.layers i).attachPlane plane).setType type))
      i := by
  have hlayer : ({ s with manager := manager }.setLayer i
      (((s.layers i).attachPlane plane).setType type)).layers i = ⟨some plane, type⟩ := by
    simp [setLayer, HwcLayer.attachPlane, HwcLayer.setType, hnone]
  refine ⟨fun j hj => update_of_ne hj _ _, rfl, rfl, rfl, ?_, ?_, ?_⟩
  · rw [hlayer]
    exact fun h => absurd h htype
  · rw [hlayer]
    rintro _ ⟨⟩
    exact hkind
  · intro pool _ k
    rw [hlayer, hnone, any_some, any_none, Bool.toNat_false, Nat.add_zero]
    exact hheld pool k

/-- A layer that has no use of another plane changes its type at most. -/
theorem placed_setType (hkind : ∀ plane, (s.layers i).plane = some plane → plane.type ≠ .primary)
    {type : LayerType} (htype : type ≠ .fb) :
    Placed s (s.setLayer i ((s.layers i).setType type)) i := by
  have hlayer : (s.setLayer i ((s.layers i).setType type)).layers i =
      ⟨(s.layers i).plane, type⟩ := by
    simp [setLayer, HwcLayer.setType]
  refine ⟨fun j hj => update_of_ne hj _ _, rfl, rfl, rfl, ?_, ?_, ?_⟩
  · rw [hlayer]
    exact fun h => absurd h htype
  · rw [hlayer]
    exact hkind
  · intro pool _ k
    rw [hlayer]
    rfl

/-- A sprite plane goes to a layer that has none. -/
theorem placed_attachSprite (hblank : s.layers i = .blank) : Placed s (s.attachSprite i) i := by
  unfold attachSprite
  split
  · exact Placed.refl (fun _ => by rw [hblank]; rfl) (by simp [hblank, HwcLayer.blank])
  · rename_i plane manager hget
    refine placed_setLayer (by rw [hblank]; rfl) (by decide) ?_ ?_
    · rw [type_takePlane hget]
      decide
    · exact PlaneManager.holds_takePlane picks_getPlane hget

/-- An overlay plane that is put back is in the masks again. -/
theorem holds_putOverlayPlane {m : PlaneManager} (htype : plane.type = .overlay)
    (hlt : plane.index < 32) (h : m.holds .overlay plane.index = 0) (pool : PlanePool) (k : ℕ) :
    (m.putOverlayPlane plane).holds pool k = m.holds pool k + (plane.isAt pool k).toNat := by
  have hbit : (m.pools .overlay).free.getLsbD plane.index = false := by
    rw [← Bool.toNat_eq_zero]
    unfold PlaneManager.holds MaskPool.holds at h
    omega
  have hput : putPlane plane.index (m.pools .overlay).free =
      setBit (m.pools .overlay).free plane.index := by
    rw [putPlane, if_neg (Nat.not_le.mpr hlt), hbit]
    rfl
  have hheld := MaskPool.holds_setBit_free hlt h k
  rw [PlaneManager.putOverlayPlane, if_pos htype, Plane.toNat_isAt, htype]
  dsimp only
  rw [hput]
  refine (PlaneManager.holds_update (t := .overlay) _ pool k).trans ?_
  rw [hheld]
  by_cases hpool : pool = PlaneType.overlay.pool
  · subst hpool
    rfl
  · rw [if_neg hpool, if_neg hpool]
    rfl

/-- An overlay plane goes to a layer that has none. -/
theorem placed_attachOverlay (hfb : (s.layers i).type = .fb → (s.layers i).plane = none)
    (hkind : ∀ plane, (s.layers i).plane = some plane → plane.type ≠ .primary)
    (hone : s.manager.hasFree .overlay = true → (s.layers i).plane = none)
    (hle : ∀ k, s.manager.holds .overlay k ≤ 1) : Placed s (s.attachOverlay cfg i) i := by
  unfold attachOverlay
  split
  · split
    · exact placed_setType hkind (by decide)
    · exact Placed.refl hfb hkind
  · rename_i plane manager hget
    have htype : plane.type = .overlay := type_takePlane hget
    have hheld := PlaneManager.holds_takePlane picks_getPlane hget
    have hnone : (s.layers i).plane = none := by
      refine hone ?_
      by_contra hfree
      rw [PlaneManager.getOverlayPlane, takePlane_eq_none (Bool.not_eq_true _ ▸ hfree)] at hget
      cases hget
    split
    · have hown : (plane.isAt .overlay plane.index).toNat = 1 := by simp [Plane.isAt, htype, PlaneType.pool]
      have hhere := hheld .overlay plane.index
      have hbound := hle plane.index
      have hlt : plane.index < 32 := by
        by_contra hge
        have hzero : s.manager.holds .overlay plane.index = 0 :=
          MaskPool.holds_eq_zero_of_le (Nat.le_of_not_lt hge)
        omega
      have hput := holds_putOverlayPlane htype hlt (m := manager) (by omega)
      refine ⟨fun j hj => update_of_ne hj _ _, rfl, rfl, rfl, ?_, ?_, ?_⟩
      · simp [setLayer, HwcLayer.detached]
      · simp [setLayer, HwcLayer.detached]
      · intro pool _ k
        have hlayer : (({ s with manager := manager.putOverlayPlane plane } : HwcLayerList).setLayer i
            (((s.layers i).attachPlane plane).setType .overlay).detached).layers i =
              ⟨none, .overlay⟩ := by
          simp [setLayer, HwcLayer.detached, HwcLayer.setType]
        rw [hlayer, hnone]
        exact (congrArg (· + 0) ((hput pool k).trans (hheld pool k)))
    · refine placed_setLayer hnone (by decide) ?_ hheld
      rw [htype]
      decide

/-- The list while the layers from `i` on have been analyzed. -/
structure Analyzed (cfg : ListConfig) (m : PlaneManager) (s : HwcLayerList) (i : ℕ) : Prop where
  once : ∀ pool ≠ .primary, ∀ k,
    s.manager.holds pool k + s.attached cfg pool k = m.holds pool k
  blank : ∀ j, j < i ∨ (cfg.inputs j).isTarget = true → s.layers j = .blank
  fb : ∀ j, (s.layers j).type = .fb → (s.layers j).plane = none
  kind : ∀ j plane, (s.layers j).plane = some plane → plane.type ≠ .primary
  mem_fb : ∀ j, j ∈ s.fbLayers ↔ i ≤ j ∧ j < cfg.layerCount ∧ (cfg.inputs j).isTarget = false ∧
    (s.layers j).type = .fb
  mem_overlay : ∀ j, j ∈ s.overlayLayers ↔ i ≤ j ∧ j < cfg.layerCount ∧
    (cfg.inputs j).isTarget = false ∧ (s.layers j).type ≠ .fb
  target : ∀ f, s.framebufferTarget = some f →
    f < cfg.layerCount ∧ (cfg.inputs f).isTarget = true

/-- What a layer gains, the masks lose. -/
theorem Placed.attached (h : Placed s t i) (hi : i < cfg.layerCount) {p : PlanePool}
    (hpool : p ≠ .primary) (k : ℕ) :
    t.manager.holds p k + t.attached cfg p k =
      s.manager.holds p k + s.attached cfg p k := by
  have hcount := countP_range_add (f := fun j => (t.layers j).plane.any (·.isAt p k))
    (g := fun j => (s.layers j).plane.any (·.isAt p k)) (fun j hj => by rw [h.layers j hj]) hi
  have hheld := h.held p hpool k
  unfold HwcLayerList.attached
  omega

/-- A layer goes to the vector that fits its type. -/
theorem Analyzed.add (h : s.Analyzed cfg m (i + 1)) (hplaced : Placed s t i)
    (hi : i < cfg.layerCount) (htarget : (cfg.inputs i).isTarget = false) :
    Analyzed cfg m (if (t.layers i).type = .fb then { t with fbLayers := addLayer i t.fbLayers }
      else { t with overlayLayers := addLayer i t.overlayLayers }) i := by
  have hfb : ∀ j, (t.layers j).type = .fb → (t.layers j).plane = none := by
    intro j
    rcases eq_or_ne j i with rfl | hj
    · exact hplaced.fb
    · rw [hplaced.layers j hj]
      exact h.fb j
  have hkind : ∀ j plane, (t.layers j).plane = some plane → plane.type ≠ .primary := by
    intro j
    rcases eq_or_ne j i with rfl | hj
    · exact hplaced.kind
    · rw [hplaced.layers j hj]
      exact h.kind j
  have hblank : ∀ j, j < i ∨ (cfg.inputs j).isTarget = true → t.layers j = .blank := by
    intro j hj
    have hne : j ≠ i := by
      rintro rfl
      rcases hj with hlt | hj
      · exact Nat.lt_irrefl j hlt
      · rw [htarget] at hj
        cases hj
    rw [hplaced.layers j hne]
    exact h.blank j (hj.imp_left Nat.lt_succ_of_lt)
  have hmem : ∀ j ≠ i, (j ∈ t.fbLayers ↔ i ≤ j ∧ j < cfg.layerCount ∧
      (cfg.inputs j).isTarget = false ∧ (t.layers j).type = .fb) ∧
      (j ∈ t.overlayLayers ↔ i ≤ j ∧ j < cfg.layerCount ∧
        (cfg.inputs j).isTarget = false ∧ (t.layers j).type ≠ .fb) := by
    intro j hj
    rw [hplaced.fbLayers, hplaced.overlayLayers, hplaced.layers j hj, h.mem_fb, h.mem_overlay]
    have hle : i + 1 ≤ j ↔ i ≤ j := by omega
    rw [hle]
    exact ⟨Iff.rfl, Iff.rfl⟩
  have hnew : i ∉ t.fbLayers ∧ i ∉ t.overlayLayers := by
    rw [hplaced.fbLayers, hplaced.overlayLayers, h.mem_fb, h.mem_overlay]
    omega
  have honce : ∀ pool ≠ .primary, ∀ k,
      t.manager.holds pool k + t.attached cfg pool k = m.holds pool k :=
    fun pool hpool k => (hplaced.attached hi hpool k).trans (h.once pool hpool k)
  have htargets : ∀ f, t.framebufferTarget = some f →
      f < cfg.layerCount ∧ (cfg.inputs f).isTarget = true :=
    fun f hf => h.target f (hplaced.target ▸ hf)
  split
  · rename_i htype
    refine ⟨honce, hblank, hfb, hkind, fun j => ?_, fun j => ?_, htargets⟩
    · rw [mem_addLayer]
      rcases eq_or_ne j i with rfl | hj
      · simp [hi, htarget, htype]
      · simp only [hj, false_or]
        exact (hmem j hj).1
    · rcases eq_or_ne j i with rfl | hj
      · simp [hnew.2, htype]
      · exact (hmem j hj).2
  · rename_i htype
    refine ⟨honce, hblank, hfb, hkind, fun j => ?_, fun j => ?_, htargets⟩
    · rcases eq_or_ne j i with rfl | hj
      · simp [hnew.1, htype]
      · exact (hmem j hj).1
    · rw [mem_addLayer]
      rcases eq_or_ne j i with rfl | hj
      · simp [hi, htarget, htype]
      · simp only [hj, false_or]
        exact (hmem j hj).2

/-- Without a free sprite plane nothing is attached. -/
theorem attachSprite_eq_self (h : s.manager.hasFree .sprite = false) (i : ℕ) :
    s.attachSprite i = s := by
  rw [attachSprite, PlaneManager.getSpritePlane, takePlane_eq_none h]

/-- Sprite planes leave the overlay planes alone. -/
theorem hasFree_attachSprite (s : HwcLayerList) (i : ℕ) :
    (s.attachSprite i).manager.hasFree .overlay = s.manager.hasFree .overlay := by
  unfold attachSprite
  split
  · rfl
  · rename_i plane manager hget
    obtain ⟨⟨index, pool⟩, -, heq⟩ := map_eq_some_iff.mp hget
    cases heq
    rfl

/-- One layer is analyzed. -/
theorem Analyzed.layer {freeSprites freeOverlays : ℕ} (h : s.Analyzed cfg m (i + 1))
    (hm : ∀ pool k, m.holds pool k ≤ 1) (hi : i < cfg.layerCount)
    (hkeeps : s.layerKeeps cfg freeSprites freeOverlays i = true) :
    (s.analyzeLayer cfg freeSprites freeOverlays i).Analyzed cfg m i := by
  have hblank : s.layers i = .blank := h.blank i (Or.inl (Nat.lt_succ_self i))
  unfold analyzeLayer
  dsimp only
  split
  · rename_i htarget
    refine ⟨h.once, fun j hj => h.blank j (hj.imp_left Nat.lt_succ_of_lt), h.fb, h.kind,
      fun j => ?_, fun j => ?_, ?_⟩
    · rw [h.mem_fb]
      rcases eq_or_ne j i with rfl | hj
      · simp [htarget]
      · have hle : i + 1 ≤ j ↔ i ≤ j := by omega
        rw [hle]
    · rw [h.mem_overlay]
      rcases eq_or_ne j i with rfl | hj
      · simp [htarget]
      · have hle : i + 1 ≤ j ↔ i ≤ j := by omega
        rw [hle]
    · rintro f ⟨⟩
      exact ⟨hi, htarget⟩
  · rename_i htarget
    rw [Bool.not_eq_true] at htarget
    refine h.add ?_ hi htarget
    have hsprite : Placed s (if freeSprites ≠ 0 ∧ (cfg.inputs i).spriteCheck = true then
        s.attachSprite i else s) i := by
      split
      · exact placed_attachSprite hblank
      · exact Placed.refl (h.fb i) (h.kind i)
    have hone : freeOverlays ≠ 0 ∧ (cfg.inputs i).overlayCheck = true →
        (if freeSprites ≠ 0 ∧ (cfg.inputs i).spriteCheck = true then
          s.attachSprite i else s).manager.hasFree .overlay = true →
        ((if freeSprites ≠ 0 ∧ (cfg.inputs i).spriteCheck = true then
          s.attachSprite i else s).layers i).plane = none := by
      intro hoverlay hfree
      split
      · -- an overlay is left: then the layer was given no sprite plane
        rename_i hspriteCheck
        rw [if_pos hspriteCheck, hasFree_attachSprite] at hfree
        have hnone : s.manager.hasFree .sprite = false := by
          by_contra hsome
          simp [layerKeeps, htarget, hspriteCheck, hoverlay, hsome, hfree] at hkeeps
        rw [attachSprite_eq_self hnone, hblank]
        rfl
      · rw [hblank]
        rfl
    generalize (if freeSprites ≠ 0 ∧ (cfg.inputs i).spriteCheck = true then
      s.attachSprite i else s) = t at hsprite hone ⊢
    refine hsprite.trans ?_
    split
    · rename_i hoverlay
      refine placed_attachOverlay hsprite.fb hsprite.kind (hone hoverlay) fun k => ?_
      have hattached := hsprite.attached hi (p := .overlay) (by decide) k
      have honce := h.once .overlay (by decide) k
      have hbound := hm .overlay k
      omega
    · exact Placed.refl hsprite.fb hsprite.kind

/-- All layers below are analyzed. -/
theorem Analyzed.below {freeSprites freeOverlays : ℕ} (hm : ∀ pool k, m.holds pool k ≤ 1)
    (h : s.Analyzed cfg m i) (hi : i ≤ cfg.layerCount)
    (hkeeps : s.analyzeKeeps cfg freeSprites freeOverlays i = true) :
    (s.analyzeBelow cfg freeSprites freeOverlays i).Analyzed cfg m 0 := by
  induction i generalizing s with
  | zero => exact h
  | succ i ih =>
    rw [analyzeKeeps, Bool.and_eq_true] at hkeeps
    exact ih (h.layer hm hi hkeeps.1) (Nat.le_of_succ_le hi) hkeeps.2

/-- At the beginning no layer has been analyzed. -/
theorem analyzed_unanalyzed (cfg : ListConfig) (m : PlaneManager) :
    (unanalyzed m).Analyzed cfg m cfg.layerCount where
  once := fun pool _ k => by simp [attached, unanalyzed, HwcLayer.blank]
  blank := fun _ _ => rfl
  fb := fun _ _ => rfl
  kind := fun _ _ h => by cases h
  mem_fb := fun j => by simp only [unanalyzed, not_mem_nil, false_iff]; omega
  mem_overlay := fun j => by simp only [unanalyzed, not_mem_nil, false_iff]; omega
  target := fun _ h => by cases h

/-! ### The primary plane -/

/-- The list between two calls. -/
structure Settled (cfg : ListConfig) (m : PlaneManager) (s : HwcLayerList) : Prop extends
    Conserves cfg m s where
  target : ∀ f, s.framebufferTarget = some f → (cfg.inputs f).compositionType = 3
  composed : ∀ f, s.framebufferTarget = some f → (s.layers f).plane ≠ none → s.fbLayers ≠ []
  other : s.fbLayers ≠ [] → ∃ i ∈ s.fbLayers, s.framebufferTarget ≠ some i

/-- The primary plane takes over only a layer that is left alone. -/
theorem takeOver_of_ne (h : ∀ i, s.fbLayers ≠ [i]) (accepts : Bool) : s.takeOver cfg accepts = s := by
  unfold takeOver
  split
  · rename_i i hi
    exact absurd hi (h i)
  · rfl

/-- It takes over the layer and shows it. -/
theorem takeOver_singleton (h : s.fbLayers = [i]) :
    s.takeOver cfg true =
      { s.setLayer i (((s.layers i).attachPlane cfg.primaryPlane).setType .primary) with
        fbLayers := []
        overlayLayers := addLayer i s.overlayLayers } := by
  have hremoved : removeLayer i [i] = [] := by simp [removeLayer]
  simp [takeOver, h, hremoved]

/-- With nothing composed the target is not shown. -/
theorem showTarget_of_nil (h : s.fbLayers = []) : s.showTarget cfg = s := by
  unfold showTarget
  split
  · rfl
  · rw [if_neg (not_not.mpr h)]

/-- The target is shown on the primary plane. -/
theorem showTarget_of_ne {f : ℕ} (hf : s.framebufferTarget = some f) (h : s.fbLayers ≠ []) :
    s.showTarget cfg =
      { s.setLayer f (((s.layers f).attachPlane cfg.primaryPlane).setType .primary) with
        overlayLayers := addLayer f s.overlayLayers } := by
  simp only [showTarget, hf, if_pos h]

/-- How often a plane is attached depends on the planes of the layers. -/
theorem attached_congr {pool : PlanePool} {k : ℕ}
    (h : ∀ i, (t.layers i).plane.any (·.isAt pool k) = (s.layers i).plane.any (·.isAt pool k)) :
    t.attached cfg pool k = s.attached cfg pool k := by
  simp only [attached, h]

section

variable (h : s.Analyzed cfg m 0)
include h

/-- The list after the analysis, with the primary plane on a layer that had no plane. -/
theorem Analyzed.primaryOn {g : ℕ} (hnone : (s.layers g).plane = none)
    (hmanager : t.manager = s.manager)
    (hlayers : t.layers = Function.update s.layers g ⟨some cfg.primaryPlane, .primary⟩)
    (hlists : ∀ i < cfg.layerCount, (cfg.inputs i).compositionType ≠ 3 → (i ∈ t.fbLayers ↔ i ∉ t.overlayLayers)) : Conserves cfg m t where
  once := by
    intro pool hpool k
    rw [hmanager, attached_congr (s := s), h.once pool hpool k]
    intro i
    rw [hlayers]
    rcases eq_or_ne i g with rfl | hi
    · have hprimary : cfg.primaryPlane.isAt pool k = false := by
        simp [Plane.isAt, ListConfig.primaryPlane, PlaneType.pool, Ne.symm hpool]
      rw [update_self, hnone]
      exact hprimary
    · rw [update_of_ne hi]
  fb := by
    intro i _ htype
    rw [hlayers] at htype ⊢
    rcases eq_or_ne i g with rfl | hi
    · rw [update_self] at htype
      cases htype
    · rw [update_of_ne hi] at htype ⊢
      exact h.fb i htype
  primary := by
    have hown : ∀ i, (t.layers i).plane = some cfg.primaryPlane → i = g := by
      intro i hi
      by_contra hne
      rw [hlayers, update_of_ne hne] at hi
      exact h.kind i _ hi rfl
    intro i _ j _ hi hj
    rw [hown i hi, hown j hj]
  lists := hlists

/-- Each layer is composed or shown by a plane. -/
theorem Analyzed.lists
    (htargets : ∀ i < cfg.layerCount, (cfg.inputs i).isTarget = true → (cfg.inputs i).compositionType = 3)
    {i : ℕ} (hi : i < cfg.layerCount) (hthree : (cfg.inputs i).compositionType ≠ 3) : i ∈ s.fbLayers ↔ i ∉ s.overlayLayers := by
  have hplain : (cfg.inputs i).isTarget = false := by
    by_contra htarget
    exact hthree (htargets i hi ((Bool.not_eq_false _).mp htarget))
  rw [h.mem_fb, h.mem_overlay]
  simp [hi, hplain]

/-- The list after the analysis, when nothing is shown on the primary plane. -/
theorem Analyzed.conserves
    (htargets : ∀ i < cfg.layerCount, (cfg.inputs i).isTarget = true → (cfg.inputs i).compositionType = 3) : s.Conserves cfg m where
  once := h.once
  fb := fun i _ => h.fb i
  primary := fun i _ _ _ hi => absurd rfl (h.kind i _ hi)
  lists := fun _ hi hthree => h.lists htargets hi hthree

/-- `revisit` gives the primary plane to the only layer that is left, or to the frame buffer target,
or to none. -/
theorem Analyzed.revisit
    (htargets : ∀ i < cfg.layerCount, (cfg.inputs i).isTarget = true → (cfg.inputs i).compositionType = 3)
    (accepts : Bool) :
    (s.revisit cfg accepts).Settled cfg m := by
  have htarget : ∀ f, s.framebufferTarget = some f → (cfg.inputs f).compositionType = 3 :=
    fun f hf => htargets f (h.target f hf).1 (h.target f hf).2
  have hblank : ∀ f, s.framebufferTarget = some f → s.layers f = .blank :=
    fun f hf => h.blank f (Or.inr (h.target f hf).2)
  have hmem : ∀ i ∈ s.fbLayers, i < cfg.layerCount ∧ (cfg.inputs i).isTarget = false ∧
      (s.layers i).plane = none := by
    intro i hi
    obtain ⟨-, hlt, hplain, htype⟩ := (h.mem_fb i).mp hi
    exact ⟨hlt, hplain, h.fb i htype⟩
  have hattach : ∀ i, (s.layers i).plane = none →
      ((s.layers i).attachPlane cfg.primaryPlane).setType .primary =
        ⟨some cfg.primaryPlane, .primary⟩ := by
    intro i hnone
    simp [HwcLayer.attachPlane, HwcLayer.setType, hnone]
  have hother : s.fbLayers ≠ [] → ∃ i ∈ s.fbLayers, s.framebufferTarget ≠ some i := by
    intro hne
    obtain ⟨i, hi⟩ := exists_mem_of_ne_nil _ hne
    refine ⟨i, hi, fun hf => ?_⟩
    have hplain := (hmem i hi).2.1
    rw [(h.target i hf).2] at hplain
    cases hplain
  have hshown : (s.showTarget cfg).Settled cfg m := by
    cases hf : s.framebufferTarget with
    | none =>
      have hsame : s.showTarget cfg = s := by simp only [HwcLayerList.showTarget, hf]
      rw [hsame]
      exact ⟨h.conserves htargets, htarget, (by rw [hf]; rintro _ ⟨⟩), hother⟩
    | some f =>
      by_cases hnil : s.fbLayers = []
      · rw [showTarget_of_nil hnil]
        refine ⟨h.conserves htargets, htarget, ?_, hother⟩
        intro g hg hplane
        rw [hblank g hg] at hplane
        exact absurd rfl hplane
      · have hnone : (s.layers f).plane = none := by
          rw [hblank f hf]
          rfl
        rw [showTarget_of_ne hf hnil]
        refine ⟨h.primaryOn hnone rfl (by rw [hattach f hnone]; rfl) ?_, htarget, fun _ _ _ => hnil,
          hother⟩
        intro i hi hthree
        have hif : i ≠ f := by
          rintro rfl
          exact hthree (htarget i hf)
        dsimp only [setLayer]
        rw [mem_addLayer, h.lists htargets hi hthree]
        simp [hif]
  unfold HwcLayerList.revisit
  by_cases hsingle : ∃ i, s.fbLayers = [i]
  · obtain ⟨i, hfb⟩ := hsingle
    cases accepts with
    | false =>
      have hsame : s.takeOver cfg false = s := by simp [HwcLayerList.takeOver, hfb]
      rw [hsame]
      exact hshown
    | true =>
      have hi : i ∈ s.fbLayers := by
        rw [hfb]
        exact mem_singleton_self i
      obtain ⟨hlt, hplain, hnone⟩ := hmem i hi
      rw [takeOver_singleton hfb, showTarget_of_nil rfl]
      refine ⟨h.primaryOn hnone rfl (by rw [hattach i hnone]; rfl) ?_, htarget, ?_,
        fun hne => absurd rfl hne⟩
      · intro j hj hthree
        have hlists := h.lists htargets hj hthree
        rw [hfb, mem_singleton] at hlists
        by_cases hji : j = i
        · simp [hji]
        · simp [hji] at hlists ⊢
          exact hlists
      · intro f hf hplane
        have hfi : f ≠ i := by
          rintro rfl
          rw [(h.target f hf).2] at hplain
          cases hplain
        exfalso
        apply hplane
        dsimp only [setLayer]
        rw [update_of_ne hfi, hblank f hf]
        rfl
  · rw [takeOver_of_ne fun i hi => hsingle ⟨i, hi⟩]
    exact hshown

end

/-- The constructor leads to a settled list. -/
theorem ConstructKeeps.settled (h : ConstructKeeps cfg m) (hm : ∀ pool k, m.holds pool k ≤ 1)
    (accepts : Bool) : (construct cfg m accepts).Settled cfg m := by
  unfold construct
  split
  · rename_i hzero
    refine ⟨⟨fun pool _ k => ?_, fun _ _ _ => rfl, fun _ _ _ _ hi => ?_, fun i hi => ?_⟩,
      fun f hf => ?_, fun f hf => ?_, fun hne => absurd rfl hne⟩
    · simp [attached, unanalyzed, hzero]
    · cases hi
    · omega
    · cases hf
    · cases hf
  · exact ((analyzed_unanalyzed cfg m).below hm (Nat.le_refl _) h.2).revisit h.1 accepts

/-! ### Updates -/

/-- A call of `update` that meets its condition changes types to `LAYER_PRIMARY` at most, and may add
the frame buffer target to the composed layers. -/
structure Kept (cfg : ListConfig) (s t : HwcLayerList) : Prop where
  manager : t.manager = s.manager
  target : t.framebufferTarget = s.framebufferTarget
  plane : ∀ i, (t.layers i).plane = (s.layers i).plane
  type : ∀ i, (t.layers i).type = .fb ↔ (s.layers i).type = .fb
  nil : t.fbLayers = [] ↔ s.fbLayers = []
  mono : ∀ i ∈ s.fbLayers, i ∈ t.fbLayers
  lists : ∀ i < cfg.layerCount, (cfg.inputs i).compositionType ≠ 3 →
    (i ∈ t.fbLayers ↔ i ∈ s.fbLayers) ∧ (i ∈ t.overlayLayers ↔ i ∈ s.overlayLayers)

/-- Nothing done keeps the list. -/
theorem Kept.refl (s : HwcLayerList) : Kept cfg s s :=
  ⟨rfl, rfl, fun _ => rfl, fun _ => Iff.rfl, Iff.rfl, fun _ h => h, fun _ _ _ => ⟨Iff.rfl, Iff.rfl⟩⟩

/-- Two calls keep what each keeps. -/
theorem Kept.trans (h : Kept cfg s t) (h' : Kept cfg t u) : Kept cfg s u where
  manager := h'.manager.trans h.manager
  target := h'.target.trans h.target
  plane := fun i => (h'.plane i).trans (h.plane i)
  type := fun i => (h'.type i).trans (h.type i)
  nil := h'.nil.trans h.nil
  mono := fun i hi => h'.mono i (h.mono i hi)
  lists := fun i hi hthree =>
    ⟨(h'.lists i hi hthree).1.trans (h.lists i hi hthree).1,
      (h'.lists i hi hthree).2.trans (h.lists i hi hthree).2⟩

/-- The same layers are active. -/
theorem Kept.active (h : Kept cfg s t) (i : ℕ) : (t.layers i).active = (s.layers i).active := by
  rw [HwcLayer.active, HwcLayer.active, h.plane, Bool.eq_iff_iff]
  simp [h.type i]

/-- The condition on a refusal stays the same. -/
theorem Kept.refusalKeeps (h : Kept cfg s t) (a : Answers) (pass i : ℕ) :
    t.refusalKeeps a pass i = s.refusalKeeps a pass i := by
  have hempty : t.fbLayers.isEmpty = s.fbLayers.isEmpty := by
    rw [Bool.eq_iff_iff, List.isEmpty_iff, List.isEmpty_iff]
    exact h.nil
  rw [HwcLayerList.refusalKeeps, HwcLayerList.refusalKeeps, h.target, hempty]

/-- A settled list stays settled. -/
theorem Kept.settled (h : Kept cfg s t) (hs : s.Settled cfg m) : t.Settled cfg m where
  once := by
    intro pool hpool k
    rw [h.manager, attached_congr (s := s), hs.once pool hpool k]
    intro i
    rw [h.plane]
  fb := by
    intro i hi htype
    rw [h.plane]
    exact hs.fb i hi ((h.type i).mp htype)
  primary := by
    intro i hi j hj hpi hpj
    rw [h.plane] at hpi hpj
    exact hs.primary i hi j hj hpi hpj
  lists := by
    intro i hi hthree
    rw [(h.lists i hi hthree).1, (h.lists i hi hthree).2]
    exact hs.toConserves.lists i hi hthree
  target := by
    intro f hf
    rw [h.target] at hf
    exact hs.target f hf
  composed := by
    intro f hf hplane
    rw [h.target] at hf
    rw [h.plane] at hplane
    rw [Ne, h.nil]
    exact hs.composed f hf hplane
  other := by
    intro hne
    rw [Ne, h.nil] at hne
    obtain ⟨i, hi, hother⟩ := hs.other hne
    exact ⟨i, h.mono i hi, h.target ▸ hother⟩

/-- A layer that has a plane keeps it when the primary plane takes it over. -/
theorem takeOver_of_plane {l : HwcLayer} (h : l.plane ≠ none) (plane : Plane) :
    ((l.setType .fb).attachPlane plane).setType .primary = ⟨l.plane, .primary⟩ := by
  obtain ⟨_, hsome⟩ := ne_none_iff_exists'.mp h
  simp [HwcLayer.attachPlane, HwcLayer.setType, hsome]

/-- A change to the primary type keeps planes and composed layers. -/
theorem kept_primary (htype : (s.layers i).type ≠ .fb) :
    (∀ j, (Function.update s.layers i ⟨(s.layers i).plane, .primary⟩ j).plane =
      (s.layers j).plane) ∧
    ∀ j, (Function.update s.layers i ⟨(s.layers i).plane, .primary⟩ j).type = .fb ↔
      (s.layers j).type = .fb := by
  constructor
  · intro j
    rcases eq_or_ne j i with rfl | hj
    · rw [update_self]
    · rw [update_of_ne hj]
  · intro j
    rcases eq_or_ne j i with rfl | hj
    · rw [update_self]
      simp [htype]
    · rw [update_of_ne hj]

/-- An active layer is not composed and has a plane. -/
theorem ne_fb_of_active {l : HwcLayer} (h : l.active = true) : l.type ≠ .fb ∧ l.plane ≠ none := by
  rw [HwcLayer.active, Bool.and_eq_true, bne_iff_ne, isSome_iff_ne_none] at h
  exact h

/-- The frame buffer target is refused a buffer: it is composed, and shown on the primary plane as
before. -/
theorem Settled.kept_target (hs : s.Settled cfg m) (hactive : (s.layers i).active = true)
    (htarget : s.framebufferTarget = some i) (accepts : Bool) :
    Kept cfg s (s.fallBack cfg i accepts) := by
  obtain ⟨htype, hplane⟩ := ne_fb_of_active hactive
  obtain ⟨j, hj, hji⟩ := hs.other (hs.composed i htarget hplane)
  have hij : j ≠ i := by
    rintro rfl
    exact hji htarget
  have hne : s.fbLayers ≠ [] := ne_nil_of_mem hj
  have hlist : ∀ k, addLayer i s.fbLayers ≠ [k] := by
    intro k hk
    have hmem : ∀ x, x ∈ addLayer i s.fbLayers ↔ x = k := fun x => by rw [hk, mem_singleton]
    have hi := (hmem i).mp (mem_addLayer.mpr (Or.inl rfl))
    have hj := (hmem j).mp (mem_addLayer.mpr (Or.inr hj))
    exact hij (hj.trans hi.symm)
  have hadd : addLayer i s.fbLayers ≠ [] := ne_nil_of_mem (mem_addLayer.mpr (Or.inl rfl))
  have hresult : s.fallBack cfg i accepts =
      { s with
        layers := Function.update s.layers i ⟨(s.layers i).plane, .primary⟩
        fbLayers := addLayer i s.fbLayers
        overlayLayers := addLayer i (removeLayer i s.overlayLayers) } := by
    rw [fallBack, HwcLayerList.revisit, takeOver_of_ne hlist, showTarget_of_ne (by exact htarget) (by exact hadd)]
    dsimp only [setLayer]
    rw [update_self, update_idem, takeOver_of_plane hplane]
  rw [hresult]
  obtain ⟨hplanes, htypes⟩ := kept_primary (s := s) htype
  refine ⟨rfl, rfl, hplanes, htypes, ?_, fun k hk => mem_addLayer.mpr (Or.inr hk), ?_⟩
  · exact ⟨fun h => absurd h hadd, fun h => absurd h hne⟩
  · intro k _ hthree
    have hki : k ≠ i := by
      rintro rfl
      exact hthree (hs.target k htarget)
    simp [hki]

/-- A layer is refused a buffer while nothing is composed: the primary plane takes it over. -/
theorem Settled.kept_takenOver (hs : s.Settled cfg m)
    (hactive : (s.layers i).active = true) (hnil : s.fbLayers = []) :
    Kept cfg s (s.fallBack cfg i true) := by
  obtain ⟨htype, hplane⟩ := ne_fb_of_active hactive
  have hresult : s.fallBack cfg i true =
      { s with
        layers := Function.update s.layers i ⟨(s.layers i).plane, .primary⟩
        fbLayers := []
        overlayLayers := addLayer i (removeLayer i s.overlayLayers) } := by
    have hsingle : addLayer i s.fbLayers = [i] := by
      rw [hnil]
      rfl
    rw [fallBack, HwcLayerList.revisit, takeOver_singleton hsingle, showTarget_of_nil rfl]
    dsimp only [setLayer]
    rw [update_self, update_idem, takeOver_of_plane hplane]
  rw [hresult]
  obtain ⟨hplanes, htypes⟩ := kept_primary (s := s) htype
  refine ⟨rfl, rfl, hplanes, htypes, by rw [hnil], fun k hk => ?_, fun k hk hthree => ?_⟩
  · rw [hnil] at hk
    exact hk
  · have hlists := hs.toConserves.lists k hk hthree
    rw [hnil] at hlists ⊢
    refine ⟨Iff.rfl, ?_⟩
    have hoverlay : k ∈ s.overlayLayers := by simpa using hlists
    by_cases hki : k = i <;> simp [hki, hoverlay]
    exact hki ▸ hoverlay

/-- A layer that falls back keeps the list. -/
theorem Settled.kept_fallBack (hs : s.Settled cfg m) (hactive : (s.layers i).active = true)
    (hkeeps : s.refusalKeeps a pass i = true) :
    Kept cfg s (s.fallBack cfg i (a.accepts pass i)) := by
  rw [refusalKeeps, Bool.or_eq_true, beq_iff_eq, Bool.and_eq_true, List.isEmpty_iff] at hkeeps
  rcases hkeeps with htarget | ⟨hnil, haccepts⟩
  · exact hs.kept_target hactive htarget _
  · rw [haccepts]
    exact hs.kept_takenOver hactive hnil

/-- A pass whose refusals meet the condition. -/
theorem Settled.kept_updatePass (hs : s.Settled cfg m)
    (hkeeps : ∀ i < cfg.layerCount, (s.layers i).active = true → a.sets pass i = false →
      s.refusalKeeps a pass i = true) : Kept cfg s (s.updatePass cfg a pass).1 := by
  have hloop : ∀ l : List ℕ, (∀ i ∈ l, i < cfg.layerCount) → ∀ t : HwcLayerList × Bool,
      Kept cfg s t.1 → Kept cfg s (l.foldl (updateLayer cfg a pass) t).1 := by
    intro l
    induction l with
    | nil => exact fun _ _ ht => ht
    | cons i l ih =>
      intro hl t ht
      refine ih (fun j hj => hl j (mem_cons_of_mem _ hj)) _ ?_
      unfold updateLayer
      split
      · rename_i hrefused
        rw [Bool.and_eq_true, Bool.not_eq_true'] at hrefused
        have hactive : (s.layers i).active = true := by rw [← ht.active, hrefused.1]
        have hadmitted := hkeeps i (hl i (mem_cons_self ..)) hactive hrefused.2
        rw [← ht.refusalKeeps] at hadmitted
        exact ht.trans ((ht.settled hs).kept_fallBack hrefused.1 hadmitted)
      · exact ht
  exact hloop _ (fun i hi => mem_range.mp hi) (s, false) (Kept.refl s)

/-- A pass in which no buffer is refused changes nothing. -/
theorem updatePass_of_sets
    (h : ∀ i < cfg.layerCount, (s.layers i).active = true → a.sets pass i = true) :
    s.updatePass cfg a pass = (s, false) := by
  have hloop : ∀ l : List ℕ, (∀ i ∈ l, i < cfg.layerCount) →
      l.foldl (updateLayer cfg a pass) (s, false) = (s, false) := by
    intro l
    induction l with
    | nil => exact fun _ => rfl
    | cons i l ih =>
      intro hl
      have hsame : updateLayer cfg a pass (s, false) i = (s, false) := by
        refine if_neg ?_
        rw [Bool.and_eq_true, Bool.not_eq_true']
        rintro ⟨hactive, hrefused⟩
        rw [h i (hl i (mem_cons_self ..)) hactive] at hrefused
        cases hrefused
      rw [foldl_cons, hsame]
      exact ih fun j hj => hl j (mem_cons_of_mem _ hj)
  exact hloop _ fun i hi => mem_range.mp hi

/-- The condition seen from a later pass. -/
def KeepsFrom (cfg : ListConfig) (s : HwcLayerList) (a : Answers) (pass passes : ℕ) : Prop :=
  (∀ i < cfg.layerCount, (s.layers i).active = true → a.sets passes i = true) ∧
    ∀ k, pass ≤ k → k < passes → ∀ i < cfg.layerCount, (s.layers i).active = true →
      a.sets k i = false → s.refusalKeeps a k i = true

/-- The condition in the next pass. -/
theorem KeepsFrom.next {passes : ℕ} (h : KeepsFrom cfg s a pass passes) (hkept : Kept cfg s t) :
    KeepsFrom cfg t a (pass + 1) passes := by
  refine ⟨fun i hi hactive => h.1 i hi (hkept.active i ▸ hactive),
    fun k hk hlt i hi hactive hrefused => ?_⟩
  rw [hkept.refusalKeeps]
  exact h.2 k (Nat.le_of_succ_le hk) hlt i hi (hkept.active i ▸ hactive) hrefused

/-- Whatever the number of passes that is allowed, a loop that returns has kept the planes. -/
theorem Settled.kept_updateLoop {fuel passes : ℕ} (hs : s.Settled cfg m)
    (hkeeps : KeepsFrom cfg s a pass passes) (hle : pass ≤ passes)
    (hloop : s.updateLoop cfg a fuel pass = some t) : Kept cfg s t := by
  induction fuel generalizing pass s with
  | zero => cases hloop
  | succ fuel ih =>
    rw [updateLoop] at hloop
    dsimp only at hloop
    rcases Nat.eq_or_lt_of_le hle with rfl | hlt
    · rw [updatePass_of_sets hkeeps.1] at hloop
      cases hloop
      exact Kept.refl s
    · have hpass := hs.kept_updatePass (hkeeps.2 pass (Nat.le_refl _) hlt)
      split at hloop
      · exact hpass.trans (ih (hpass.settled hs) (hkeeps.next hpass) hlt hloop)
      · cases hloop
        exact hpass

/-- The loop returns: in the pass `passes` at the latest. -/
theorem Settled.updateLoop_returns {passes : ℕ} (hs : s.Settled cfg m)
    (hkeeps : KeepsFrom cfg s a pass passes) (hle : pass ≤ passes) :
    ∃ fuel t, s.updateLoop cfg a fuel pass = some t := by
  obtain ⟨left, hleft⟩ : ∃ left, passes = pass + left := ⟨passes - pass, by omega⟩
  induction left generalizing pass s with
  | zero =>
    refine ⟨1, s, ?_⟩
    rw [Nat.add_zero] at hleft
    rw [updateLoop, updatePass_of_sets (hleft ▸ hkeeps.1)]
    rfl
  | succ left ih =>
    have hpass := hs.kept_updatePass (hkeeps.2 pass (Nat.le_refl _) (by omega))
    obtain ⟨fuel, t, ht⟩ := ih (hpass.settled hs) (hkeeps.next hpass) (by omega) (by omega)
    by_cases hagain : ((s.updatePass cfg a pass).2 &&
        !(s.updatePass cfg a pass).1.overlayLayers.isEmpty) = true
    · exact ⟨fuel + 1, t, by rw [updateLoop]; dsimp only; rw [if_pos hagain, ht]⟩
    · exact ⟨1, _, by rw [updateLoop]; dsimp only; rw [if_neg hagain]⟩

/-- The condition on a call is that on its first pass. -/
theorem KeepsAt.from {passes : ℕ} (h : s.KeepsAt cfg a passes) : KeepsFrom cfg s a 0 passes :=
  ⟨h.1, fun k _ hk => h.2 k hk⟩

/-! ### Destruction -/

/-- The destructor gives the planes back. -/
theorem Settled.holds_destroyed (hs : s.Settled cfg m) (hm : ∀ pool k, m.holds pool k ≤ 1)
    {pool : PlanePool} (hpool : pool ≠ .primary) (k : ℕ) :
    (s.destroyed cfg).holds pool k = m.holds pool k := by
  have hfold : s.destroyed cfg =
      ((List.range cfg.layerCount).map fun i => (s.layers i).plane).foldl
        (fun m plane => plane.elim m m.reclaimPlane) s.manager := by
    rw [foldl_map]
    rfl
  have hcount : ∀ pool k, ((List.range cfg.layerCount).map fun i => (s.layers i).plane).countP
      (fun plane => plane.any (·.isAt pool k)) = s.attached cfg pool k := by
    intro pool k
    rw [countP_map]
    rfl
  rw [hfold, PlaneManager.holds_foldl_reclaimPlane (fun pool => pool ≠ .primary) _ ?_ hpool k,
    hcount, hs.once pool hpool k]
  intro pool hpool k
  rw [hcount, hs.once pool hpool k]
  split
  · exact hm pool k
  · rename_i hge
    exact Nat.le_of_eq (MaskPool.holds_eq_zero_of_le (Nat.le_of_not_lt hge))

end HwcLayerList

open HwcLayerList

/-- In every run whose constructor and updates meet their conditions the planes are conserved after
every call; a further update that meets the condition returns; and the destructor gives every sprite
and overlay plane back. -/
theorem planes_conserved {cfg : ListConfig} {m : PlaneManager} {accepts : Bool} {s : HwcLayerList}
    (hm : ∀ pool k, m.holds pool k ≤ 1) (hconstruct : ConstructKeeps cfg m)
    (hrun : Reach (HwcLayerList.step cfg) (fun s x => s.Keeps cfg x.2) (construct cfg m accepts) s) :
    s.Conserves cfg m ∧ (∀ a, s.Keeps cfg a → ∃ fuel t, s.update cfg fuel a = some t) ∧
      ∀ pool ≠ .primary, ∀ k, (s.destroyed cfg).holds pool k = m.holds pool k := by
  have hs : s.Settled cfg m := by
    refine hrun.invariant (hconstruct.settled hm accepts) fun s x t hs hkeeps hstep => ?_
    obtain ⟨passes, hpasses⟩ := hkeeps
    exact (hs.kept_updateLoop hpasses.from (Nat.zero_le _) hstep).settled hs
  refine ⟨hs.toConserves, fun a ⟨passes, hpasses⟩ => ?_, fun pool hpool k =>
    hs.holds_destroyed hm hpool k⟩
  exact hs.updateLoop_returns hpasses.from (Nat.zero_le _)

/-- Two sprite planes, one overlay and one primary plane. -/
def merrifieldCounts : PlaneCounts where
  count
    | .sprite => 2
    | .primary => 1
    | .overlay => 1
  total_lt := by decide

/-- A detected plane is in one of the masks at most once. -/
theorem holds_detect_le (counts : PlaneCounts) (pool : PlanePool) (k : ℕ) :
    (PlaneManager.detect counts).holds pool k ≤ 1 := by
  have hlt : counts.count pool < 32 := by
    have := counts.total_lt
    cases pool <;> omega
  have hfull := MaskPool.holds_full hlt k
  refine (Nat.le_of_eq hfull).trans ?_
  split <;> decide

/-- A layer for a sprite, one that is composed, and the frame buffer target. -/
def threeLayers : ListConfig where
  layerCount := 3
  inputs
    | 0 => ⟨0, true, false, false⟩
    | 1 => ⟨0, false, false, false⟩
    | _ => ⟨3, false, false, false⟩
  supportExtendVideo := false
  displayIndex := 0
  primaryIndex := 0

/-- The frame buffer target is refused its buffer once. -/
theorem planes_conserved_target_refused : ∃ s : HwcLayerList,
    (s.Conserves threeLayers (.detect merrifieldCounts) ∧
      (∀ a, s.Keeps threeLayers a → ∃ fuel t, s.update threeLayers fuel a = some t) ∧
      ∀ pool ≠ .primary, ∀ k, (s.destroyed threeLayers).holds pool k =
        (PlaneManager.detect merrifieldCounts).holds pool k) ∧
    (s.layers 0).plane = some ⟨.sprite, 0⟩ ∧ (s.layers 2).plane = some ⟨.primary, 0⟩ := by
  obtain ⟨s, hrun, hs⟩ : ∃ s, Reach (HwcLayerList.step threeLayers)
      (fun s x => s.Keeps threeLayers x.2) (construct threeLayers (.detect merrifieldCounts) false)
      s ∧ (s.layers 0).plane = some ⟨.sprite, 0⟩ ∧ (s.layers 2).plane = some ⟨.primary, 0⟩ :=
    Reach.exists_of_check (fun s x (h : decide (s.KeepsAt threeLayers x.2 1) = true) =>
        ⟨1, of_decide_eq_true h⟩) (fun _ _ h => h)
      [(2, ⟨fun pass i => pass != 0 || i != 2, fun _ _ => false⟩)] (by decide)
  exact ⟨s, planes_conserved (holds_detect_le merrifieldCounts) (by decide) hrun, hs⟩

/-- The sprite plane of the first layer refuses a buffer: the layer is composed from then on, but it
keeps the plane. -/
theorem composed_layer_keeps_plane : ¬ ∀ (cfg : ListConfig) (m : PlaneManager) (accepts : Bool)
    (s : HwcLayerList), (∀ pool k, m.holds pool k ≤ 1) →
      Reach (HwcLayerList.step cfg) (fun _ _ => True) (construct cfg m accepts) s →
        s.Conserves cfg m := by
  intro h
  obtain ⟨s, hrun, hfb, hplane⟩ : ∃ s, Reach (HwcLayerList.step threeLayers) (fun _ _ => True)
      (construct threeLayers (.detect merrifieldCounts) false) s ∧ (s.layers 0).type = .fb ∧
        (s.layers 0).plane.isSome = true :=
    Reach.exists_of_decide (fun _ _ h => h)
      [(2, ⟨fun pass i => pass != 0 || i != 0, fun _ _ => false⟩)] (by decide)
  have hnone := (h threeLayers _ false s (holds_detect_le merrifieldCounts) hrun).fb 0 (by decide)
    hfb
  rw [hnone] at hplane
  exact absurd hplane (by decide)

end HardwareIntel.Hwc
