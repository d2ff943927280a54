import Mathlib.Data.List.Basic
import Mathlib.Data.List.Induction
import Mathlib.Data.List.Nodup
import Mathlib.Order.Basic
import Mathlib.Tactic.Ring

/-!
# Online exposure bracketing

`OnlineBracket` (`libcamera2/OnlineBracket.cpp`) takes a burst of snapshots, each with an exposure
value of its own. The sensor needs some frames before a value takes effect, so the values are
applied ahead of time: some while the first frames are skipped in `startBracketing`, the others in
`applyBracketing`, either before the first skipped frame or before the real one.

Frames have numbers, and some may be lost before one is delivered. A snapshot and an applied value
are recorded with the frame they belong to; `exposure` says what the sensor makes of that.
`startBracketing` takes the lag of the sensor from its configuration, but where `applyBracketing`
applies a value is fixed for a lag of two frames. `exposures_hit` says for which lags every snapshot
still gets its value.
-/

namespace HardwareIntel.Camera

open List Option

variable {α : Type}

/-- `MAX_RETRY_COUNT` -/
def maxRetryCount : ℕ := 1

/-- The states of the thread. -/
inductive BracketState
  | stopped
  | bracketing
  | capture
  deriving DecidableEq

/-- The object in exposure mode, and what it has done: `nextFrame` and `grabs` count the frames of
the sensor and those that were grabbed, `applied` has the values given to the sensor, newest first,
with the frame that came next, and `mSnapshotBufs` has the frames of the snapshots. -/
structure OnlineBracket (α : Type) where
  mState : BracketState
  mFpsAdaptSkip : ℕ
  mBurstLength : ℕ
  mSnapshotReqNum : ℕ
  mBracketNum : ℕ
  mLastFrameSequenceNbr : Option ℕ
  values : List α
  currentValue : α
  mSnapshotBufs : List ℕ
  applied : List (ℕ × α)
  nextFrame : ℕ
  grabs : ℕ

/-- The value that a frame is exposed with: the last one that was applied `lag` frames before. -/
def exposure (lag frame : ℕ) (applied : List (ℕ × α)) : Option α :=
  (applied.find? fun p => p.1 + lag ≤ frame).map Prod.snd

/-- A value between `EV_MIN` and `EV_MAX`. -/
def limitEv [LinearOrder α] (evMin evMax value : α) : α :=
  if value ≤ evMax ∧ evMin ≤ value then value
  else if evMax < value then evMax
  else evMin

/-- `initBracketing` with a custom sequence, and `OnlineBracket::init`. There has to be a value. -/
def initBracketing [LinearOrder α] (evMin evMax : α) (bracketValues : List α) (skip : ℕ) :
    Option (OnlineBracket α) :=
  let values := bracketValues.map (limitEv evMin evMax)
  values[0]?.map fun value =>
    { mState := .stopped, mFpsAdaptSkip := skip, mBurstLength := values.length,
      mSnapshotReqNum := 0, mBracketNum := 0, mLastFrameSequenceNbr := none, values,
      currentValue := value, mSnapshotBufs := [], applied := [], nextFrame := 0, grabs := 0 }

namespace OnlineBracket

/-- `applyBracketingParams`. It fails if a value behind the last one is read. -/
def applyBracketingParams (b : OnlineBracket α) : Option (OnlineBracket α) :=
  if b.mBracketNum < b.mBurstLength then
    let b := { b with
      applied := (b.nextFrame, b.currentValue) :: b.applied
      mBracketNum := b.mBracketNum + 1 }
    if b.mBracketNum < b.mBurstLength then
      b.values[b.mBracketNum]?.map fun value => { b with currentValue := value }
    else some b
  else some b

section Frames

/- How many frames are lost before each one that is grabbed. -/
variable (lost : ℕ → ℕ)

/-- `getSnapshot` of the ISP: the number of the frame. -/
def grab (b : OnlineBracket α) : ℕ × OnlineBracket α :=
  let frame := b.nextFrame + lost b.grabs
  (frame, { b with nextFrame := frame + 1, grabs := b.grabs + 1 })

def getNumLostFrames (b : OnlineBracket α) (frameSequenceNbr : ℕ) : ℕ × OnlineBracket α :=
  let numLost := match b.mLastFrameSequenceNbr with
    | none => 0
    | some last => frameSequenceNbr - last - 1
  (numLost, { b with mLastFrameSequenceNbr := some frameSequenceNbr })

/-- `getRecoveryParams`: back to the value of the last snapshot that was asked for. The result is the
number of frames to skip and of values to apply. -/
def getRecoveryParams (b : OnlineBracket α) : Option ((ℕ × ℕ) × OnlineBracket α) :=
  b.values[b.mSnapshotReqNum]?.map fun value =>
    ((2, if 0 < b.mFpsAdaptSkip then 1 else 2),
      { b with mBracketNum := b.mSnapshotReqNum, currentValue := value })

/-- The loop in `skipFrames` from index `i` on; it ends with `true` if the frames that were lost have
to be recovered. Every iteration raises `i`. -/
def skipPass (retry : Bool) (numFrames doBracket : ℕ) :
    ℕ → ℕ → OnlineBracket α → Option (Bool × OnlineBracket α)
  | 0, _, b => some (false, b)
  | fuel + 1, i, b =>
    if i < numFrames then
      (if i < doBracket then b.applyBracketingParams else some b).bind fun b =>
        let (frame, b) := b.grab lost
        let (numLost, b) := b.getNumLostFrames frame
        if 0 < numLost then
          if !retry then some (false, b)
          -- only skipped frames were lost
          else if i + numLost < numFrames then
            skipPass retry numFrames doBracket fuel (i + numLost + 1) b
          else some (true, b)
        else skipPass retry numFrames doBracket fuel (i + 1) b
    else some (false, b)

/-- `skipFrames` with a number of retries left. -/
def skipFramesRetrying : ℕ → ℕ → ℕ → OnlineBracket α → Option (OnlineBracket α)
  | retries, numFrames, doBracket, b =>
    (b.skipPass lost (0 < retries) numFrames doBracket numFrames 0).bind fun
      | (false, b) => some b
      | (true, b) =>
        match retries with
        | 0 => some b
        | retries + 1 => b.getRecoveryParams.bind fun ((numFrames, doBracket), b) =>
            skipFramesRetrying retries numFrames doBracket b

def skipFrames (b : OnlineBracket α) (numFrames doBracket : ℕ) : Option (OnlineBracket α) :=
  skipFramesRetrying lost maxRetryCount numFrames doBracket b

/-- The loop in `applyBracketing` that takes the snapshot; its result is the frame. -/
def takeSnapshot : ℕ → OnlineBracket α → Option (ℕ × OnlineBracket α)
  | retries, b =>
    let (frame, b) := b.grab lost
    let (numLost, b) := b.getNumLostFrames frame
    if 0 < numLost then
      match retries with
      | 0 => some (frame, b)
      | retries + 1 => b.getRecoveryParams.bind fun ((skip, doBracket), b) =>
          (b.skipFrames lost skip doBracket).bind fun b => takeSnapshot retries b
    else some (frame, b)

def applyBracketing (b : OnlineBracket α) : Option (OnlineBracket α) :=
  -- an exposure value needs two frames to take effect
  (if 0 < b.mFpsAdaptSkip then
    b.skipFrames lost b.mFpsAdaptSkip (if 2 ≤ b.mFpsAdaptSkip then 1 else 0)
  else some b).bind fun b =>
  (if b.mFpsAdaptSkip < 2 then b.applyBracketingParams else some b).bind fun b =>
  (b.takeSnapshot lost maxRetryCount).map fun (frame, b) =>
    let b := { b with
      mSnapshotBufs := b.mSnapshotBufs ++ [frame]
      mLastFrameSequenceNbr := some frame }
    if b.mSnapshotBufs.length = b.mBurstLength then { b with mState := .capture } else b

/-- The lag that `startBracketing` goes by, from the configuration and the version of the ISP. -/
def exposureLag (cpfLag cssMajorVersion : ℕ) : ℕ :=
  (if cpfLag = 0 then 2 else cpfLag) + if cssMajorVersion = 2 then 1 else 0

def startBracketing (b : OnlineBracket α) (cpfLag cssMajorVersion : ℕ) :
    Option (OnlineBracket α) :=
  let lag := exposureLag cpfLag cssMajorVersion
  (if b.mFpsAdaptSkip < lag then
    b.skipFrames lost (lag - b.mFpsAdaptSkip) (lag - b.mFpsAdaptSkip)
  else some b).map fun b => { b with mState := .bracketing }

/-- The thread calls `applyBracketing` until all snapshots have been taken. -/
def applyBracketings : ℕ → OnlineBracket α → Option (OnlineBracket α)
  | 0, b => some b
  | n + 1, b => (b.applyBracketing lost).bind fun b => applyBracketings n b

end Frames

end OnlineBracket

/-- A burst with these exposure values. -/
def bracket [LinearOrder α] (evMin evMax : α) (lost : ℕ → ℕ) (cpfLag cssMajorVersion : ℕ)
    (bracketValues : List α) (skip : ℕ) : Option (OnlineBracket α) :=
  (initBracketing evMin evMax bracketValues skip).bind fun b =>
    (b.startBracketing lost cpfLag cssMajorVersion).bind fun b =>
      b.applyBracketings lost bracketValues.length

/-! ### Values and their frames -/

/-- Values that are applied each before a frame of its own, newest first. -/
def timeline (before : ℕ → ℕ) (values : List α) : List (ℕ × α) :=
  (values.mapIdx fun j value => (before j, value)).reverse

theorem timeline_concat (before : ℕ → ℕ) (values : List α) (value : α) :
    timeline before (values ++ [value]) =
      (before values.length, value) :: timeline before values := by
  simp [timeline, mapIdx_concat]

theorem exposure_cons (lag frame i : ℕ) (value : α) (applied : List (ℕ × α)) :
    exposure lag frame ((i, value) :: applied) =
      if i + lag ≤ frame then some value else exposure lag frame applied := by
  by_cases h : i + lag ≤ frame
  · simp [exposure, h]
  · simp [exposure, h]

/-- A frame is exposed with a value that has taken effect, while all later ones have not. -/
theorem exposure_timeline {before : ℕ → ℕ} {values : List α} {lag frame : ℕ} {value : α}
    (h : exposure lag frame (timeline before values) = some value) :
    ∃ j, values[j]? = some value ∧ before j + lag ≤ frame ∧
      ∀ i, j < i → i < values.length → frame < before i + lag := by
  induction values using List.reverseRecOn with
  | nil => simp [timeline, exposure] at h
  | append_singleton values v ih =>
    rw [timeline_concat, exposure_cons] at h
    split at h
    · rename_i heffect
      obtain rfl := some.inj h
      refine ⟨values.length, List.getElem?_concat_length, heffect, fun i hi hlt => ?_⟩
      rw [length_append, length_singleton] at hlt
      omega
    · rename_i hlate
      obtain ⟨j, hj, heffect, hlater⟩ := ih h
      have hjlt : j < values.length := (List.getElem?_eq_some_iff.mp hj).1
      refine ⟨j, by rw [List.getElem?_append_left hjlt, hj], heffect, fun i hi hlt => ?_⟩
      rw [length_append, length_singleton] at hlt
      rcases Nat.lt_succ_iff_lt_or_eq.mp hlt with hlt | rfl
      · exact hlater i hi hlt
      · omega

/-- The last value that has taken effect is the one a frame is exposed with. -/
theorem exposure_timeline_of_effect {before : ℕ → ℕ} {values : List α} {lag frame j : ℕ}
    (hj : j < values.length) (heffect : before j + lag ≤ frame)
    (hlater : ∀ i, j < i → i < values.length → frame < before i + lag) :
    exposure lag frame (timeline before values) = some values[j] := by
  induction values using List.reverseRecOn with
  | nil => exact absurd hj (Nat.not_lt_zero j)
  | append_singleton values v ih =>
    rw [timeline_concat, exposure_cons]
    rw [length_append, length_singleton] at hj
    rcases Nat.lt_succ_iff_lt_or_eq.mp hj with hlt | rfl
    · have hlate : frame < before values.length + lag := hlater _ hlt (by simp)
      rw [if_neg (by omega), getElem_append_left hlt]
      exact ih hlt fun i hi hilt => hlater i hi (by rw [length_append]; omega)
    · rw [if_pos heffect, getElem_concat_length rfl]

/-! ### A burst without losses -/

section Burst

variable {values : List α} {before : ℕ → ℕ} {skip pushed frame : ℕ} {snapshots : List ℕ}
  {b : OnlineBracket α} {lost : ℕ → ℕ}

/-- So many values have been applied, each before its frame, and so many frames were grabbed. -/
structure Scheduled (values : List α) (before : ℕ → ℕ) (skip : ℕ) (b : OnlineBracket α)
    (pushed frame : ℕ) (snapshots : List ℕ) : Prop where
  values_eq : b.values = values
  burstLength : b.mBurstLength = values.length
  skip_eq : b.mFpsAdaptSkip = skip
  bracketNum : b.mBracketNum = min pushed values.length
  currentValue : ∀ v, values[b.mBracketNum]? = some v → b.currentValue = v
  applied : b.applied = timeline before (values.take pushed)
  nextFrame : b.nextFrame = frame
  last : ∀ f ∈ b.mLastFrameSequenceNbr, f + 1 = frame
  snapshots_eq : b.mSnapshotBufs = snapshots

namespace Scheduled

theorem applyBracketingParams (h : Scheduled values before skip b pushed frame snapshots)
    (hbefore : pushed < values.length → before pushed = frame) :
    ∃ b', b.applyBracketingParams = some b' ∧
      Scheduled values before skip b' (pushed + 1) frame snapshots := by
  have hnum := h.bracketNum
  have hlength := h.burstLength
  rw [OnlineBracket.applyBracketingParams]
  by_cases hlt : pushed < values.length
  · have hpushed : b.mBracketNum = pushed := by omega
    have hvalue : b.currentValue = values[pushed] :=
      h.currentValue _ (by rw [hpushed, List.getElem?_eq_getElem hlt])
    have happlied : (b.nextFrame, b.currentValue) :: b.applied =
        timeline before (values.take (pushed + 1)) := by
      rw [take_succ_eq_append_getElem hlt, timeline_concat, h.applied, h.nextFrame, hvalue,
        length_take, Nat.min_eq_left hlt.le, hbefore hlt]
    rw [if_pos (by omega)]
    dsimp only
    by_cases hnext : pushed + 1 < values.length
    · have hread : b.values[b.mBracketNum + 1]? = some values[pushed + 1] := by
        rw [h.values_eq, hpushed, List.getElem?_eq_getElem hnext]
      rw [if_pos (by omega), hread]
      refine ⟨_, rfl, { h with bracketNum := ?_, currentValue := ?_, applied := happlied }⟩
      · change b.mBracketNum + 1 = _
        omega
      · intro v hv
        change values[b.mBracketNum + 1]? = some v at hv
        rw [hpushed, List.getElem?_eq_getElem hnext] at hv
        exact some.inj hv
    · rw [if_neg (by omega)]
      refine ⟨_, rfl, { h with bracketNum := ?_, currentValue := ?_, applied := happlied }⟩
      · change b.mBracketNum + 1 = _
        omega
      · intro v hv
        change values[b.mBracketNum + 1]? = some v at hv
        rw [List.getElem?_eq_none (by omega)] at hv
        exact absurd hv (by simp)
  · have htake : values.take (pushed + 1) = values.take pushed := by
      rw [take_of_length_le (by omega), take_of_length_le (by omega)]
    rw [if_neg (by omega)]
    refine ⟨b, rfl, { h with bracketNum := by omega, applied := ?_ }⟩
    rw [htake, h.applied]

/-- A frame is grabbed, and none is found to be lost. -/
theorem grab (h : Scheduled values before skip b pushed frame snapshots) (hlost : ∀ g, lost g = 0) :
    ∃ b', b.grab lost = (frame, (b.grab lost).2) ∧
      (b.grab lost).2.getNumLostFrames frame = (0, b') ∧
      Scheduled values before skip b' pushed (frame + 1) snapshots := by
  have hnext : b.nextFrame + lost b.grabs = frame := by
    rw [hlost, h.nextFrame, Nat.add_zero]
  have hnumLost : (match b.mLastFrameSequenceNbr with
      | none => 0
      | some last => frame - last - 1) = 0 := by
    cases hlast : b.mLastFrameSequenceNbr with
    | none => rfl
    | some last =>
      have hlast := h.last last hlast
      dsimp only
      omega
  refine ⟨{ (b.grab lost).2 with mLastFrameSequenceNbr := some frame }, ?_, ?_, ?_⟩
  · simp only [OnlineBracket.grab, hnext]
  · simp only [OnlineBracket.getNumLostFrames, OnlineBracket.grab, hnumLost]
  · refine { h with nextFrame := ?_, last := ?_ }
    · simp only [OnlineBracket.grab, hnext]
    · rintro f ⟨⟩
      rfl

/-- The loop of `skipFrames`, by induction on the iterations that are left. -/
theorem skipPass {numFrames doBracket : ℕ} (hlost : ∀ g, lost g = 0) (retry : Bool)
    (hbefore : ∀ j, j < min doBracket numFrames → pushed + j < values.length →
      before (pushed + j) = frame + j)
    {fuel i : ℕ} (hi : i ≤ numFrames) (hfuel : numFrames ≤ i + fuel)
    (h : Scheduled values before skip b (pushed + min i doBracket) (frame + i) snapshots) :
    ∃ b', b.skipPass lost retry numFrames doBracket fuel i = some (false, b') ∧
      Scheduled values before skip b' (pushed + min numFrames doBracket) (frame + numFrames)
        snapshots := by
  induction fuel generalizing i b with
  | zero =>
    obtain rfl : i = numFrames := by omega
    exact ⟨b, rfl, h⟩
  | succ fuel ih =>
    rw [OnlineBracket.skipPass]
    by_cases hlt : i < numFrames
    · have hpush : ∃ b₁, (if i < doBracket then b.applyBracketingParams else some b) = some b₁ ∧
          Scheduled values before skip b₁ (pushed + min (i + 1) doBracket) (frame + i)
            snapshots := by
        by_cases hdo : i < doBracket
        · rw [Nat.min_eq_left hdo.le] at h
          obtain ⟨b₁, hb₁, h₁⟩ := h.applyBracketingParams (hbefore i (by omega))
          refine ⟨b₁, by rw [if_pos hdo, hb₁], ?_⟩
          rwa [Nat.min_eq_left hdo]
        · rw [Nat.min_eq_right (by omega)] at h
          refine ⟨b, by rw [if_neg hdo], ?_⟩
          rwa [Nat.min_eq_right (by omega)]
      obtain ⟨b₁, hb₁, h₁⟩ := hpush
      obtain ⟨b₂, hframe, hnumLost, h₂⟩ := h₁.grab hlost
      obtain ⟨b₃, hb₃, h₃⟩ := ih (i := i + 1) (by omega) (by omega) h₂
      refine ⟨b₃, ?_, h₃⟩
      rw [if_pos hlt, hb₁, bind_some]
      rw [hframe]
      dsimp only
      rw [hnumLost]
      exact hb₃
    · obtain rfl : i = numFrames := by omega
      exact ⟨b, by rw [if_neg hlt], h⟩

theorem skipFrames (numFrames doBracket : ℕ) (hlost : ∀ g, lost g = 0)
    (h : Scheduled values before skip b pushed frame snapshots)
    (hbefore : ∀ j, j < min doBracket numFrames → pushed + j < values.length →
      before (pushed + j) = frame + j) :
    ∃ b', b.skipFrames lost numFrames doBracket = some b' ∧
      Scheduled values before skip b' (pushed + min numFrames doBracket) (frame + numFrames)
        snapshots := by
  have hstart : Scheduled values before skip b (pushed + min 0 doBracket) (frame + 0) snapshots := by
    rwa [Nat.zero_min]
  obtain ⟨b', hb', h'⟩ := skipPass hlost (decide (0 < maxRetryCount)) hbefore (Nat.zero_le _)
    (Nat.le_add_left _ _) hstart
  refine ⟨b', ?_, h'⟩
  rw [OnlineBracket.skipFrames, OnlineBracket.skipFramesRetrying, hb', bind_some]

theorem takeSnapshot (hlost : ∀ g, lost g = 0) (retries : ℕ)
    (h : Scheduled values before skip b pushed frame snapshots) :
    ∃ b', b.takeSnapshot lost retries = some (frame, b') ∧
      Scheduled values before skip b' pushed (frame + 1) snapshots := by
  obtain ⟨b', hframe, hnumLost, h'⟩ := h.grab hlost
  refine ⟨b', ?_, h'⟩
  cases retries with
  | zero => rw [OnlineBracket.takeSnapshot, hframe]; dsimp only; rw [hnumLost]; rfl
  | succ retries => rw [OnlineBracket.takeSnapshot, hframe]; dsimp only; rw [hnumLost]; rfl

theorem applyBracketing (hlost : ∀ g, lost g = 0)
    (h : Scheduled values before skip b pushed frame snapshots)
    (hbefore : pushed < values.length → before pushed = if skip < 2 then frame + skip else frame) :
    ∃ b', b.applyBracketing lost = some b' ∧
      Scheduled values before skip b' (pushed + 1) (frame + skip + 1)
        (snapshots ++ [frame + skip]) ∧
      (snapshots.length + 1 = values.length → b'.mState = .capture) := by
  -- the skipped frames, with a value before the first one if there are two
  have hskipped : ∃ b₁, (if 0 < b.mFpsAdaptSkip then
      b.skipFrames lost b.mFpsAdaptSkip (if 2 ≤ b.mFpsAdaptSkip then 1 else 0)
      else some b) = some b₁ ∧
      Scheduled values before skip b₁ (pushed + if 2 ≤ skip then 1 else 0) (frame + skip)
        snapshots := by
    rw [h.skip_eq]
    by_cases hpos : 0 < skip
    · obtain ⟨b₁, hb₁, h₁⟩ := h.skipFrames skip
        (if 2 ≤ skip then 1 else 0) hlost fun j hj hlt => by
          have htwo : 2 ≤ skip := by
            by_contra hone
            rw [if_neg hone] at hj
            omega
          rw [if_pos htwo] at hj
          obtain rfl : j = 0 := by omega
          have hfirst := hbefore hlt
          rwa [if_neg (by omega)] at hfirst
      refine ⟨b₁, by rw [if_pos hpos, hb₁], ?_⟩
      rwa [Nat.min_eq_right (by split <;> omega)] at h₁
    · obtain rfl : skip = 0 := by omega
      exact ⟨b, rfl, h⟩
  obtain ⟨b₁, hb₁, h₁⟩ := hskipped
  have hpush : ∃ b₂, (if b₁.mFpsAdaptSkip < 2 then b₁.applyBracketingParams else some b₁) =
      some b₂ ∧ Scheduled values before skip b₂ (pushed + 1) (frame + skip) snapshots := by
    rw [h₁.skip_eq]
    by_cases htwo : skip < 2
    · rw [if_neg (by omega), Nat.add_zero] at h₁
      obtain ⟨b₂, hb₂, h₂⟩ := h₁.applyBracketingParams fun hlt => by
        rw [hbefore hlt, if_pos htwo]
      exact ⟨b₂, by rw [if_pos htwo, hb₂], h₂⟩
    · rw [if_pos (by omega)] at h₁
      exact ⟨b₁, by rw [if_neg htwo], h₁⟩
  obtain ⟨b₂, hb₂, h₂⟩ := hpush
  obtain ⟨b₃, hb₃, h₃⟩ := h₂.takeSnapshot hlost maxRetryCount
  have htaken : (b₃.mSnapshotBufs ++ [frame + skip]).length = snapshots.length + 1 := by
    rw [h₃.snapshots_eq, length_append, length_singleton]
  rw [OnlineBracket.applyBracketing, hb₁, bind_some, hb₂, bind_some, hb₃, map_some]
  dsimp only
  have hsnapshots : b₃.mSnapshotBufs ++ [frame + skip] = snapshots ++ [frame + skip] := by
    rw [h₃.snapshots_eq]
  have hlast : ∀ f ∈ some (frame + skip), f + 1 = frame + skip + 1 := by
    rintro f ⟨⟩
    rfl
  by_cases hall : snapshots.length + 1 = values.length
  · rw [if_pos (by rw [htaken, h₃.burstLength, hall])]
    exact ⟨_, rfl, { h₃ with last := hlast, snapshots_eq := hsnapshots }, fun _ => rfl⟩
  · rw [if_neg (by rwa [htaken, h₃.burstLength])]
    exact ⟨_, rfl, { h₃ with last := hlast, snapshots_eq := hsnapshots }, fun h => absurd h hall⟩

end Scheduled

/-- The frame before which a value is applied, when the first `start` ones are applied one after the
other and the others one for each snapshot. -/
def appliedBefore (skip start j : ℕ) : ℕ :=
  if j < start then j else start + (j - start) * (skip + 1) + if skip < 2 then skip else 0

/-- The frame of a snapshot. -/
def capturedAt (skip start k : ℕ) : ℕ := start + k * (skip + 1) + skip

/-- All snapshots, by induction on those that are still to be taken. -/
theorem Scheduled.applyBracketings (hlost : ∀ g, lost g = 0) (start : ℕ) {n taken : ℕ}
    (htaken : taken + n = values.length)
    (h : Scheduled values (appliedBefore skip start) skip b (start + taken)
      (start + taken * (skip + 1)) ((List.range taken).map (capturedAt skip start))) :
    ∃ b', b.applyBracketings lost n = some b' ∧
      Scheduled values (appliedBefore skip start) skip b' (start + values.length)
        (start + values.length * (skip + 1))
        ((List.range values.length).map (capturedAt skip start)) ∧
      (0 < n → b'.mState = .capture) := by
  induction n generalizing taken b with
  | zero =>
    obtain rfl : taken = values.length := htaken
    exact ⟨b, rfl, h, fun hpos => absurd hpos (Nat.lt_irrefl 0)⟩
  | succ n ih =>
    obtain ⟨b₁, hb₁, h₁, hstate⟩ := h.applyBracketing hlost fun hlt => by
      rw [appliedBefore, if_neg (by omega), Nat.add_sub_cancel_left]
      split <;> rfl
    rw [show start + taken + 1 = start + (taken + 1) by omega,
      show start + taken * (skip + 1) + skip + 1 = start + (taken + 1) * (skip + 1) by ring,
      show (List.range taken).map (capturedAt skip start) ++
        [start + taken * (skip + 1) + skip] =
        (List.range (taken + 1)).map (capturedAt skip start) by
          rw [range_succ, map_append]; rfl] at h₁
    obtain ⟨b₂, hb₂, h₂, hdone⟩ := ih (by omega) h₁
    refine ⟨b₂, by rw [OnlineBracket.applyBracketings, hb₁, bind_some, hb₂], h₂, fun _ => ?_⟩
    cases n with
    | zero =>
      obtain rfl := some.inj hb₂
      exact hstate (by rw [length_map, length_range]; exact htaken)
    | succ n => exact hdone (Nat.succ_pos n)

/-- The whole burst. -/
theorem bracket_scheduled [LinearOrder α] (evMin evMax : α) {bracketValues : List α}
    (hpos : 0 < bracketValues.length) (hlost : ∀ g, lost g = 0) (cpfLag cssMajorVersion : ℕ) :
    ∃ b, bracket evMin evMax lost cpfLag cssMajorVersion bracketValues skip = some b ∧
      b.mState = .capture ∧
      b.applied = timeline
        (appliedBefore skip (OnlineBracket.exposureLag cpfLag cssMajorVersion - skip))
        (bracketValues.map (limitEv evMin evMax)) ∧
      b.mSnapshotBufs = (List.range bracketValues.length).map
        (capturedAt skip (OnlineBracket.exposureLag cpfLag cssMajorVersion - skip)) := by
  set lag := OnlineBracket.exposureLag cpfLag cssMajorVersion with hlag
  set values := bracketValues.map (limitEv evMin evMax) with hvalues
  have hlength : values.length = bracketValues.length := by rw [hvalues, length_map]
  have hfirst : values[0]? = some values[0] := List.getElem?_eq_getElem (by omega)
  obtain ⟨b₀, hb₀, h₀⟩ : ∃ b₀, initBracketing evMin evMax bracketValues skip = some b₀ ∧
      Scheduled values (appliedBefore skip (lag - skip)) skip b₀ 0 0 [] := by
    refine ⟨_, by rw [initBracketing, ← hvalues, hfirst, map_some],
      ⟨rfl, rfl, rfl, (Nat.zero_min _).symm, fun v hv => ?_, ?_, rfl, ?_, rfl⟩⟩
    · exact some.inj (hfirst.symm.trans hv)
    · rw [take_zero]
      rfl
    · rintro f ⟨⟩
  obtain ⟨b₁, hb₁, h₁⟩ : ∃ b₁, b₀.startBracketing lost cpfLag cssMajorVersion = some b₁ ∧
      Scheduled values (appliedBefore skip (lag - skip)) skip b₁ (lag - skip) (lag - skip) [] := by
    rw [OnlineBracket.startBracketing, ← hlag, h₀.skip_eq]
    by_cases hskip : skip < lag
    · obtain ⟨b₁, hb₁, h₁⟩ := h₀.skipFrames (lag - skip) (lag - skip) hlost
        fun j hj _ => by rw [Nat.min_self] at hj; simp [appliedBefore, hj]
      rw [Nat.min_self, Nat.zero_add] at h₁
      rw [if_pos hskip, hb₁]
      exact ⟨_, rfl, { h₁ with }⟩
    · rw [if_neg hskip, Nat.sub_eq_zero_of_le (by omega)] at *
      exact ⟨_, rfl, { h₀ with }⟩
  have hstart : Scheduled values (appliedBefore skip (lag - skip)) skip b₁ (lag - skip + 0)
      (lag - skip + 0 * (skip + 1)) ((List.range 0).map (capturedAt skip (lag - skip))) := by
    simpa using h₁
  obtain ⟨b₂, hb₂, h₂, hstate⟩ :=
    Scheduled.applyBracketings hlost (lag - skip) (Nat.zero_add values.length) hstart
  refine ⟨b₂, ?_, hstate (by omega), ?_, ?_⟩
  · rw [bracket, hb₀, bind_some, hb₁, bind_some, ← hlength, hb₂]
  · rw [h₂.applied, take_of_length_le (by omega)]
  · rw [h₂.snapshots_eq, hlength]

end Burst

/-! ### When the values take effect -/

/-- Every snapshot is exposed with its own value. -/
def HitsExposures [DecidableEq α] (lag : ℕ) (values : List α) (b : OnlineBracket α) : Prop :=
  ∀ k < values.length,
    (b.mSnapshotBufs[k]?.bind fun frame => exposure lag frame b.applied) = values[k]?

instance [DecidableEq α] (lag : ℕ) (values : List α) (b : OnlineBracket α) :
    Decidable (HitsExposures lag values b) := Nat.decidableBallLT _ _

/-- The lags and skips that the fixed frames of `applyBracketing` are right for. -/
def OnTime (burst skip lag : ℕ) : Prop :=
  skip = 0 ∨ ((skip = 1 → 2 ≤ lag) ∧ (burst = 2 ∨ lag ≤ max 3 (skip + 1)))

/-- A value has taken effect in its snapshot, and the later ones have not. -/
def Timely (burst skip lag k : ℕ) : Prop :=
  appliedBefore skip (lag - skip) k + lag ≤ capturedAt skip (lag - skip) k ∧
    ∀ i, k < i → i < burst →
      capturedAt skip (lag - skip) k < appliedBefore skip (lag - skip) i + lag

theorem appliedBefore_of_lt {skip start j : ℕ} (h : j < start) : appliedBefore skip start j = j :=
  if_pos h

theorem appliedBefore_add (skip start m : ℕ) :
    appliedBefore skip start (start + m) =
      start + m * (skip + 1) + if skip < 2 then skip else 0 := by
  rw [appliedBefore, if_neg (by omega), Nat.add_sub_cancel_left]

/-- No frame is skipped between the snapshots: every frame has a value of its own. -/
theorem timely_of_zero {burst lag k : ℕ} : Timely burst 0 lag k := by
  have hbefore : ∀ j, appliedBefore 0 (lag - 0) j = j := by
    intro j
    rcases Nat.lt_or_ge j lag with hj | hj
    · exact appliedBefore_of_lt hj
    · obtain ⟨m, rfl⟩ := Nat.exists_eq_add_of_le hj
      rw [Nat.sub_zero, appliedBefore_add]
      simp
  constructor
  · rw [hbefore, capturedAt]
    omega
  · intro i hi _
    rw [hbefore, capturedAt]
    omega

/-- One frame is skipped before each snapshot. -/
theorem timely_of_one {burst lag k : ℕ} (hlow : 2 ≤ lag) (hhigh : lag ≤ 3) :
    Timely burst 1 lag k := by
  have hbefore : ∀ j, appliedBefore 1 (lag - 1) j =
      if lag = 2 then 2 * j else if j < 2 then j else 2 * j - 1 := by
    intro j
    rw [appliedBefore]
    split_ifs <;> omega
  constructor
  · rw [hbefore, capturedAt]
    split_ifs <;> omega
  · intro i hi _
    rw [hbefore, capturedAt]
    split_ifs <;> omega

/-- The frames that are skipped before a snapshot suffice for the lag, up to one. -/
theorem timely_of_skipped {burst skip lag k : ℕ} (hlag : 1 ≤ lag) (hskip : 2 ≤ skip)
    (hhigh : lag ≤ skip + 1) : Timely burst skip lag k := by
  have hbefore : ∀ m, appliedBefore skip (lag - skip) (lag - skip + m) =
      lag - skip + m * (skip + 1) := by
    intro m
    rw [appliedBefore_add, if_neg (by omega), Nat.add_zero]
  constructor
  · rcases Nat.lt_or_ge k (lag - skip) with hk | hk
    · rw [appliedBefore_of_lt hk, capturedAt]
      omega
    · obtain ⟨m, rfl⟩ := Nat.exists_eq_add_of_le hk
      rw [hbefore, capturedAt, Nat.add_mul]
      have hstart : lag - skip = 0 ∨ lag - skip = 1 := by omega
      rcases hstart with hstart | hstart <;> rw [hstart] <;> omega
  · intro i hi _
    obtain ⟨m, rfl⟩ := Nat.exists_eq_add_of_le (show lag - skip ≤ i by omega)
    have hle : (k + 1) * (skip + 1) ≤ (lag - skip + m) * (skip + 1) :=
      Nat.mul_le_mul_right _ hi
    rw [hbefore, capturedAt]
    rw [Nat.succ_mul, Nat.add_mul] at hle
    have hstart : lag - skip = 0 ∨ lag - skip = 1 := by omega
    rcases hstart with hstart | hstart <;> rw [hstart] at hle ⊢ <;> omega

/-- A burst of two: no third value is applied too early. -/
theorem timely_of_two {skip lag k : ℕ} (hskip : 1 ≤ skip) (hlag : skip + 2 ≤ lag) (hk : k < 2) :
    Timely 2 skip lag k := by
  constructor
  · rw [appliedBefore_of_lt (by omega), capturedAt]
    have hle : k * 1 ≤ k * (skip + 1) := Nat.mul_le_mul_left k (by omega)
    omega
  · intro i hi hi2
    obtain rfl : k = 0 := by omega
    rw [appliedBefore_of_lt (by omega), capturedAt]
    omega

theorem timely_of_onTime {burst skip lag k : ℕ} (hlag : 1 ≤ lag) (h : OnTime burst skip lag)
    (hk : k < burst) : Timely burst skip lag k := by
  rcases h with rfl | ⟨hone, htwo⟩
  · exact timely_of_zero
  · rcases Nat.lt_or_ge lag (skip + 2) with hshort | hlong
    · rcases Nat.lt_trichotomy skip 1 with hskip | rfl | hskip
      · obtain rfl : skip = 0 := by omega
        exact timely_of_zero
      · exact timely_of_one (hone rfl) (by omega)
      · exact timely_of_skipped hlag hskip (by omega)
    · rcases htwo with rfl | hmax
      · rcases Nat.eq_zero_or_pos skip with rfl | hpos
        · exact timely_of_zero
        · exact timely_of_two hpos hlong hk
      · rcases Nat.eq_zero_or_pos skip with rfl | hpos
        · exact timely_of_zero
        · obtain rfl : skip = 1 := by omega
          exact timely_of_one (hone rfl) (by omega)

theorem onTime_of_timely {burst skip lag : ℕ} (hlag : 1 ≤ lag) (hburst : 2 ≤ burst)
    (h : ∀ k < burst, Timely burst skip lag k) : OnTime burst skip lag := by
  by_contra hlate
  rw [OnTime, not_or, not_and_or] at hlate
  obtain ⟨hpos, hlate⟩ := hlate
  rcases hlate with hone | hlong
  · -- the value is applied just before its own frame
    have hfirst := (h 0 (by omega)).1
    rw [appliedBefore, capturedAt] at hfirst
    split_ifs at hfirst <;> omega
  · -- the third value takes effect in the second snapshot
    have hsecond := (h 1 (by omega)).2 2 (by omega) (by omega)
    rw [appliedBefore, capturedAt] at hsecond
    have hstart : 2 ≤ lag - skip := by omega
    have hrest : (2 - (lag - skip)) * (skip + 1) = 0 := by
      rw [Nat.sub_eq_zero_of_le hstart, Nat.zero_mul]
    split_ifs at hsecond <;> omega

/-! ### The burst -/

/-- Without a loss of frames a burst takes all its snapshots and reads no value behind the last one.
With the lags and skips of `OnTime`, and no others, the snapshots have the exposure values they are
meant to have. -/
theorem exposures_hit [LinearOrder α] (evMin evMax : α) (bracketValues : List α)
    (skip cpfLag cssMajorVersion : ℕ) (lost : ℕ → ℕ) (hlength : 2 ≤ bracketValues.length)
    (hlost : ∀ g, lost g = 0) :
    ∃ b, bracket evMin evMax lost cpfLag cssMajorVersion bracketValues skip = some b ∧
      b.mState = .capture ∧ b.mSnapshotBufs.length = bracketValues.length ∧
      (OnTime bracketValues.length skip (OnlineBracket.exposureLag cpfLag cssMajorVersion) →
        HitsExposures (OnlineBracket.exposureLag cpfLag cssMajorVersion)
          (bracketValues.map (limitEv evMin evMax)) b) ∧
      ((bracketValues.map (limitEv evMin evMax)).Nodup →
        HitsExposures (OnlineBracket.exposureLag cpfLag cssMajorVersion)
          (bracketValues.map (limitEv evMin evMax)) b → OnTime bracketValues.length skip
          (OnlineBracket.exposureLag cpfLag cssMajorVersion)) := by
  obtain ⟨b, hrun, hstate, happlied, hsnapshots⟩ : ∃ b,
      bracket evMin evMax lost cpfLag cssMajorVersion bracketValues skip = some b ∧ _ :=
    bracket_scheduled evMin evMax (by omega) hlost cpfLag cssMajorVersion
  set lag := OnlineBracket.exposureLag cpfLag cssMajorVersion with hlag
  set values := bracketValues.map (limitEv evMin evMax) with hvalues
  have hcount : values.length = bracketValues.length := by rw [hvalues, length_map]
  have hone : 1 ≤ lag := by
    rw [hlag, OnlineBracket.exposureLag]
    split_ifs <;> omega
  have hexposure : ∀ k < values.length,
      (b.mSnapshotBufs[k]?.bind fun frame => exposure lag frame b.applied) =
        exposure lag (capturedAt skip (lag - skip) k)
          (timeline (appliedBefore skip (lag - skip)) values) := by
    intro k hk
    rw [hsnapshots, happlied, List.getElem?_map, List.getElem?_range (by omega), map_some,
      bind_some]
  refine ⟨b, hrun, hstate, by rw [hsnapshots, length_map, length_range], ?_, ?_⟩
  · intro honTime k hk
    obtain ⟨heffect, hlater⟩ := timely_of_onTime hone honTime (by omega : k < bracketValues.length)
    rw [hexposure k hk, List.getElem?_eq_getElem hk]
    exact exposure_timeline_of_effect hk heffect fun i hi hlt => hlater i hi (by omega)
  · intro hdistinct hhits
    refine onTime_of_timely hone hlength fun k hk => ?_
    have hk' : k < values.length := by omega
    have hvalue := hhits k hk'
    rw [hexposure k hk', List.getElem?_eq_getElem hk'] at hvalue
    obtain ⟨j, hj, heffect, hlater⟩ := exposure_timeline hvalue
    obtain ⟨hjlt, hjk⟩ := List.getElem?_eq_some_iff.mp hj
    obtain rfl : j = k := (List.Nodup.getElem_inj_iff hdistinct).mp hjk
    exact ⟨heffect, fun i hi hlt => hlater i hi (by omega)⟩

/-- Three values with the default lag, and two frames skipped before each snapshot. -/
theorem exposures_hit_three : ∃ b, bracket (-2 : ℤ) 2 (fun _ => 0) 0 1 [-2, 0, 2] 2 = some b ∧
    HitsExposures 2 [-2, 0, 2] b := by
  obtain ⟨b, hrun, -, -, hhits, -⟩ := exposures_hit (-2 : ℤ) 2 [-2, 0, 2] 2 0 1 (fun _ => 0)
    (by decide) (fun _ => rfl)
  exact ⟨b, hrun, hhits (Or.inr ⟨by decide, Or.inr (by decide)⟩)⟩

/-- With a lag of one frame and one skipped frame, each value is applied just before its own
snapshot, too late for it. -/
theorem value_too_late : ¬ ∃ b, bracket (-2 : ℤ) 2 (fun _ => 0) 1 1 [-2, 2] 1 = some b ∧
    HitsExposures 1 [-2, 2] b := by
  have hnot : (bracket (-2 : ℤ) 2 (fun _ => 0) 1 1 [-2, 2] 1).all
      (fun b => ¬ HitsExposures 1 [-2, 2] b) = true := by decide +kernel
  rintro ⟨b, hrun, hhits⟩
  rw [hrun] at hnot
  exact (of_decide_eq_true hnot) hhits

end HardwareIntel.Camera
