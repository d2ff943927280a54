import HardwareIntel.Library.MaskPool
import Mathlib.Data.Int.Notation

/-!
# The display plane manager of the hardware composer

`IntelDisplayPlaneManager` keeps the sprite, primary and overlay planes of the display controller in
pairs of bit masks. An overlay index stands for two plane objects, the overlay and the RGB overlay.
The `DisplayPlaneManager` of Merrifield has the same masks and the same functions on them, but no RGB
overlays.

`PlaneManager.holds m pool i` is the number of masks of a pool that an index is in. A plane that is
handed out leaves them, a plane that is reclaimed comes back.
-/

namespace HardwareIntel.Hwc

open Option

/-- `IntelDisplayPlane::DISPLAY_PLANE_*` -/
inductive PlaneType
  | sprite
  | primary
  | overlay
  | rgbOverlay
  deriving DecidableEq

/-- The pools of planes that share a pair of masks. -/
inductive PlanePool
  | sprite
  | primary
  | overlay
  deriving DecidableEq

def PlaneType.pool : PlaneType → PlanePool
  | .sprite => .sprite
  | .primary => .primary
  | .overlay => .overlay
  | .rgbOverlay => .overlay

structure Plane where
  type : PlaneType
  index : ℕ
  deriving DecidableEq

/-- The plane has this number of this pool. -/
def Plane.isAt (plane : Plane) (pool : PlanePool) (i : ℕ) : Bool :=
  plane.type.pool = pool ∧ plane.index = i

/-- The plane counts that drm reports, which fit into the masks. -/
structure PlaneCounts where
  count : PlanePool → ℕ
  total_lt : count .sprite + count .primary + count .overlay < 32

/-- `mTotalPlaneCount` -/
def PlaneCounts.total (c : PlaneCounts) : ℕ := c.count .sprite + c.count .primary + c.count .overlay

/-! ### The plane manager -/

/-- `pools .sprite` are `mFreeSpritePlanes` and `mReclaimedSpritePlanes`, and so on. -/
structure PlaneManager where
  counts : PlaneCounts
  pools : PlanePool → MaskPool 32

def getPlane (mask : BitVec 32) : Option (ℕ × BitVec 32) :=
  if mask = 0 then none else takeLowest mask

/-- `getPlane` with an index. -/
def getPlaneAt (total : ℕ) (index : ℤ) (mask : BitVec 32) : Option (ℕ × BitVec 32) :=
  if mask = 0 ∨ index < 0 ∨ total < index then none
  else if mask.getLsbD index.toNat then some (index.toNat, clearBit mask index.toNat)
  else none

def putPlane (index : ℕ) (mask : BitVec 32) : BitVec 32 :=
  if 32 ≤ index then mask else if mask.getLsbD index then mask else setBit mask index

namespace PlaneManager

/-- The masks after `detect`. -/
def detect (counts : PlaneCounts) : PlaneManager :=
  ⟨counts, fun pool => MaskPool.full 32 (counts.count pool)⟩

/-- What the four functions below have in common: a reclaimed plane is preferred to a free one. -/
def takePlane (m : PlaneManager) (type : PlaneType)
    (pick : BitVec 32 → Option (ℕ × BitVec 32)) : Option (Plane × PlaneManager) :=
  ((m.pools type.pool).take pick).map fun (index, pool) =>
    (⟨type, index⟩, { m with pools := Function.update m.pools type.pool pool })

def getSpritePlane (m : PlaneManager) : Option (Plane × PlaneManager) := m.takePlane .sprite getPlane

def getPrimaryPlane (m : PlaneManager) (pipe : ℤ) : Option (Plane × PlaneManager) :=
  m.takePlane .primary (getPlaneAt m.counts.total pipe)

def getOverlayPlane (m : PlaneManager) : Option (Plane × PlaneManager) :=
  m.takePlane .overlay getPlane

def getRGBOverlayPlane (m : PlaneManager) : Option (Plane × PlaneManager) :=
  m.takePlane .rgbOverlay getPlane

def reclaimPlane (m : PlaneManager) (plane : Plane) : PlaneManager :=
  let pool := m.pools plane.type.pool
  let pool := { pool with reclaimed := putPlane plane.index pool.reclaimed }
  { m with pools := Function.update m.pools plane.type.pool pool }

end PlaneManager

/-! ### What the manager does to the masks -/

/-- The lowest free plane is a free plane. -/
theorem picks_getPlane : Picks getPlane := by
  intro mask i rest h
  unfold getPlane at h
  split at h
  · cases h
  · exact picks_takeLowest mask i rest h

/-- So is the one asked for. -/
theorem picks_getPlaneAt (total : ℕ) (index : ℤ) : Picks (getPlaneAt total index) := by
  intro mask i rest h
  obtain ⟨-, h⟩ := ite_none_left_eq_some.mp h
  split at h
  · rename_i hbit
    cases h
    exact ⟨hbit, rfl⟩
  · cases h

/-- A plane counts at its own place only. -/
theorem Plane.toNat_isAt (plane : Plane) (pool : PlanePool) (i : ℕ) :
    (plane.isAt pool i).toNat =
      if pool = plane.type.pool then (if i = plane.index then 1 else 0) else 0 := by
  by_cases hpool : pool = plane.type.pool
  · by_cases hi : i = plane.index
    · simp [isAt, hpool, hi]
    · simp [isAt, hpool, hi, Ne.symm hi]
  · simp [isAt, hpool, Ne.symm hpool]

namespace PlaneManager

variable {m m' : PlaneManager} {plane : Plane}

/-- The masks that an index is in. -/
def holds (m : PlaneManager) (pool : PlanePool) (i : ℕ) : ℕ := (m.pools pool).holds i

/-- Only the masks of a plane's own pool change. -/
theorem holds_update (pool' : MaskPool 32) (pool : PlanePool) (i : ℕ) {t : PlaneType} :
    holds { m with pools := Function.update m.pools t.pool pool' } pool i =
      if pool = t.pool then pool'.holds i else m.holds pool i := by
  unfold holds
  dsimp only
  rw [Function.update_apply]
  split <;> rfl

variable {pick : BitVec 32 → Option (ℕ × BitVec 32)}

/-- A plane that is taken leaves the masks. -/
theorem holds_takePlane {type : PlaneType} (hpick : Picks pick)
    (h : m.takePlane type pick = some (plane, m')) (pool : PlanePool) (i : ℕ) :
    m'.holds pool i + (plane.isAt pool i).toNat = m.holds pool i := by
  obtain ⟨⟨index, pool'⟩, htake, heq⟩ := map_eq_some_iff.mp h
  cases heq
  have hheld := MaskPool.holds_take hpick htake i
  rw [holds_update, Plane.toNat_isAt]
  by_cases hpool : pool = type.pool
  · subst hpool
    rw [if_pos rfl, if_pos rfl]
    exact hheld
  · rw [if_neg hpool, if_neg hpool]
    rfl

/-- Taking a plane keeps the numbers of planes. -/
theorem counts_takePlane {type : PlaneType} (h : m.takePlane type pick = some (plane, m')) :
    m'.counts = m.counts := by
  obtain ⟨_, _, heq⟩ := map_eq_some_iff.mp h
  cases heq
  rfl

/-- A plane that is reclaimed is in the masks again. -/
theorem holds_reclaimPlane (hlt : plane.index < 32) (h : m.holds plane.type.pool plane.index = 0)
    (pool : PlanePool) (i : ℕ) :
    (m.reclaimPlane plane).holds pool i = m.holds pool i + (plane.isAt pool i).toNat := by
  have hbit : (m.pools plane.type.pool).reclaimed.getLsbD plane.index = false := by
    rw [← Bool.toNat_eq_zero]
    unfold holds MaskPool.holds at h
    omega
  have hput : putPlane plane.index (m.pools plane.type.pool).reclaimed =
      setBit (m.pools plane.type.pool).reclaimed plane.index := by
    rw [putPlane, if_neg (Nat.not_le.mpr hlt), hbit]
    rfl
  have hheld := MaskPool.holds_setBit_reclaimed hlt h i
  unfold reclaimPlane
  rw [holds_update, hput, hheld, Plane.toNat_isAt]
  by_cases hpool : pool = plane.type.pool
  · subst hpool
    rw [if_pos rfl, if_pos rfl]
    rfl
  · rw [if_neg hpool, if_neg hpool]
    rfl

/-- The other pools do not change. -/
theorem holds_reclaimPlane_of_ne {pool : PlanePool} (hpool : pool ≠ plane.type.pool) (i : ℕ) :
    (m.reclaimPlane plane).holds pool i = m.holds pool i := by
  unfold reclaimPlane
  rw [holds_update, if_neg hpool]

/-- The planes of a whole list are reclaimed, seen in the pools `P`. The induction is on the layers:
what the layers to come hold is in no mask yet. -/
theorem holds_foldl_reclaimPlane (P : PlanePool → Prop) (planes : List (Option Plane))
    (h : ∀ pool, P pool → ∀ i,
      m.holds pool i + planes.countP (fun plane => plane.any (·.isAt pool i)) ≤
        if i < 32 then 1 else 0) {pool : PlanePool} (hpool : P pool) (i : ℕ) :
    (planes.foldl (fun m plane => plane.elim m m.reclaimPlane) m).holds pool i =
      m.holds pool i + planes.countP fun plane => plane.any (·.isAt pool i) := by
  induction planes generalizing m with
  | nil => rfl
  | cons plane planes ih =>
    cases plane with
    | none =>
      have hcount : ∀ pool i, (none :: planes).countP (fun plane => plane.any (·.isAt pool i)) =
          planes.countP fun plane => plane.any (·.isAt pool i) := fun _ _ => by simp
      exact ih h
    | some plane =>
      have hcount : ∀ pool i,
          (some plane :: planes).countP (fun plane => plane.any (·.isAt pool i)) =
            planes.countP (fun plane => plane.any (·.isAt pool i)) +
              (plane.isAt pool i).toNat := by
        intro pool i
        rw [List.countP_cons, any_some]
        cases plane.isAt pool i <;> rfl
      simp only [hcount] at h ⊢
      have hreclaim : ∀ pool, P pool → ∀ i, (m.reclaimPlane plane).holds pool i =
          m.holds pool i + (plane.isAt pool i).toNat := by
        intro pool hpool i
        by_cases hown : pool = plane.type.pool
        · subst hown
          have hhere := h plane.type.pool hpool plane.index
          rw [Plane.toNat_isAt, if_pos rfl, if_pos rfl] at hhere
          have hlt : plane.index < 32 := by
            by_contra hge
            rw [if_neg hge] at hhere
            omega
          rw [if_pos hlt] at hhere
          exact holds_reclaimPlane hlt (by omega) plane.type.pool i
        · rw [holds_reclaimPlane_of_ne hown, Plane.toNat_isAt, if_neg hown, Nat.add_zero]
      rw [List.foldl_cons, ih fun pool hpool i => ?_]
      · rw [elim_some, hreclaim pool hpool]
        omega
      · rw [elim_some, hreclaim pool hpool]
        have := h pool hpool i
        omega

/-- Giving planes back keeps them too. -/
theorem counts_foldl_reclaimPlane (planes : List (Option Plane)) :
    (planes.foldl (fun m plane => plane.elim m m.reclaimPlane) m).counts = m.counts := by
  induction planes generalizing m with
  | nil => rfl
  | cons plane planes ih =>
    rw [List.foldl_cons, ih]
    cases plane <;> rfl

end PlaneManager

end HardwareIntel.Hwc
