import HardwareIntel.Camera.BracketSafety

/-!
# The sensor pipeline during a burst

A value that is applied before a frame is seen two frames later, so what the next frames show depends on
what was applied before the last ones. `Shows` says what they show, and `Ready` what they have to show at
each place of the thread, for the next snapshot to get its value.
-/

namespace HardwareIntel.Camera

open List

variable {α : Type}

namespace BracketSession

variable {s : BracketSession α} {lost d d' : ℕ} {g g' : ℕ → ℕ}

/-! ## What the next frames show -/

/-- From the frame `d` frames ahead on, a frame that is `j` frames ahead is exposed with the value at
`g j`, if nothing is applied meanwhile. -/
def Shows (s : BracketSession α) (d : ℕ) (g : ℕ → ℕ) : Prop :=
  ∀ j, d ≤ j → exposure 2 (s.nextFrame + j) s.applied = s.values[g j]?

theorem Shows.mono (h : s.Shows d g) (hd : d ≤ d') (hg : ∀ j, d' ≤ j → g j = g' j) :
    s.Shows d' g' := fun j hj => hg j hj ▸ h j (hd.trans hj)

variable {t : BracketSession α}

/-- After a frame was grabbed, the next ones are closer. -/
theorem Shows.grabbed (h : s.Shows d g) (lost : ℕ) (hnext : t.nextFrame = s.nextFrame + lost + 1)
    (happlied : t.applied = s.applied) (hvalues : t.values = s.values) :
    t.Shows (d - (lost + 1)) fun j => g (j + (lost + 1)) := by
  intro j hj
  have hframe : t.nextFrame + j = s.nextFrame + (j + (lost + 1)) := by omega
  rw [hframe, happlied, hvalues]
  exact h _ (by omega)

/-- A value that is applied is seen from the second frame on. -/
theorem Shows.applied (h : s.Shows d g) {k : ℕ} {value : α} (hnext : t.nextFrame = s.nextFrame)
    (happlied : t.applied = (s.nextFrame, value) :: s.applied) (hvalues : t.values = s.values)
    (hvalue : s.values[k]? = some value) : t.Shows d fun j => if 2 ≤ j then k else g j := by
  intro j hj
  rw [hnext, happlied, hvalues, exposure_cons]
  dsimp only
  by_cases htwo : 2 ≤ j
  · rw [if_pos htwo, if_pos (Nat.add_le_add_left htwo _), hvalue]
  · rw [if_neg htwo, if_neg (by omega)]
    exact h j hj

theorem shows_of_applied {k : ℕ} {value : α} (hnext : t.nextFrame = s.nextFrame)
    (happlied : t.applied = (s.nextFrame, value) :: s.applied) (hvalues : t.values = s.values)
    (hvalue : s.values[k]? = some value) : t.Shows 2 fun _ => k := by
  intro j hj
  rw [hnext, happlied, hvalues, exposure_cons, if_pos (Nat.add_le_add_left hj _), hvalue]

/-! ## Settings -/

/-- The settings that the client has got, and those that it will get. -/
def settings (s : BracketSession α) : List (Option α) :=
  s.configs ++ s.mBracketingParams.reverse.map some

theorem settings_cons (value : α) (hconfigs : t.configs = s.configs)
    (hparams : t.mBracketingParams = value :: s.mBracketingParams) :
    t.settings = s.settings ++ [some value] := by
  rw [settings, settings, hconfigs, hparams, reverse_cons, map_append, append_assoc]
  rfl

/-- The client takes the oldest settings. -/
theorem settings_getNextAeConfig (hne : s.mBracketingParams ≠ []) :
    s.getNextAeConfig.settings = s.settings := by
  have hsplit := dropLast_append_getLast hne
  change (s.configs ++ [s.mBracketingParams.getLast?]) ++
    s.mBracketingParams.dropLast.reverse.map some = s.configs ++ s.mBracketingParams.reverse.map some
  conv_rhs => rw [← hsplit]
  rw [reverse_append, map_append, append_assoc, List.getLast?_eq_some_getLast hne]
  rfl

/-! ## The values of the snapshots and of the settings -/

/-- What holds at every place: the snapshots have their values, and so have the settings. The settings
in the list are those of the values that were applied, until there are settings for all snapshots. -/
structure Applies (values : List α) (s : BracketSession α) : Prop where
  values_eq : s.values = values
  currentValue : ∀ v, s.values[s.mBracketNum]? = some v → s.currentValue = v
  captureNum_le : s.mBurstCaptureNum ≤ s.mBracketNum
  bracketNum_le : s.mBracketNum ≤ s.mBurstLength
  last : ∀ frame ∈ s.mLastFrameSequenceNbr, frame + 1 = s.nextFrame
  lt : ∀ frame ∈ s.mSnapshotBufs, frame < s.nextFrame
  hits : ∀ k < s.mBurstCaptureNum,
    (s.mSnapshotBufs[k]?.bind fun frame => exposure 2 frame s.applied) = s.values[k]?
  settings : ∀ k < s.mBurstLength, k < s.settings.length → s.settings[k]? = some s.values[k]?
  pushed : s.settings.length = s.mBracketNum ∨ s.mBurstLength ≤ s.settings.length

section Applies

variable {values : List α}

theorem numLost_eq (lost : ℕ) (s : BracketSession α) :
    s.numLost lost =
      match s.mLastFrameSequenceNbr with
      | none => 0
      | some last => s.nextFrame + lost - last - 1 :=
  rfl

theorem numLost_of_last (h : s.Applies values) (hseen : s.mLastFrameSequenceNbr ≠ none) :
    s.numLost lost = lost := by
  obtain ⟨last, hlast⟩ := Option.ne_none_iff_exists'.mp hseen
  have hnext := h.last last hlast
  have hnum : s.numLost lost = s.nextFrame + lost - last - 1 := by
    rw [numLost_eq, hlast]
  omega

/-- A loss is found only behind a frame that was seen. -/
theorem numLost_of_pos (h : s.Applies values) (hpos : 0 < s.numLost lost) :
    s.mLastFrameSequenceNbr ≠ none ∧ s.numLost lost = lost := by
  have hseen : s.mLastFrameSequenceNbr ≠ none := by
    intro hnone
    have hzero : s.numLost lost = 0 := by
      rw [numLost_eq, hnone]
    omega
  exact ⟨hseen, numLost_of_last h hseen⟩

end Applies

/-! ## The places of the thread -/

/-- The values that are applied before the thread is at the head of its loop, beyond those of the
snapshots it has taken. -/
def ahead (skip : ℕ) : ℕ := 2 - skip

/-- How many of the last snapshots of a burst the thread can take again without disturbing another
one. -/
def spare (skip : ℕ) : ℕ := if skip = 0 then 2 else 1

/-- The value that the frame `j` frames ahead shows before a value is applied for the next snapshot. -/
def next (skip captureNum burstLength j : ℕ) : ℕ :=
  min (captureNum + min j (1 - skip)) (burstLength - 1)

/-- The value that the frame `j` frames ahead shows before the next snapshot. -/
def due (skip captureNum burstLength j : ℕ) : ℕ :=
  min (captureNum + if j < 2 then min j (1 - skip) else ahead skip) (burstLength - 1)

/-- The calls of `skipFrames`: at the start, before a snapshot, and after frames were lost. The last ones
are for snapshots that can be taken again, when there are settings for all. -/
inductive Mission (skip captureNum burstLength pushed : ℕ) (seen : Prop) :
    ℕ → ℕ → ℕ → ℕ → SkipCaller → Prop
  | startTwo {i : ℕ} (hskip : skip = 0) (hfirst : captureNum = 0) (hseen : seen → 0 < i) :
      Mission skip captureNum burstLength pushed seen 2 2 i 0 .startBracketing
  | startOne {i : ℕ} (hskip : skip = 1) (hfirst : captureNum = 0) (hseen : seen → 0 < i) :
      Mission skip captureNum burstLength pushed seen 1 1 i 0 .startBracketing
  | each {i : ℕ} (hskip : skip = 1) :
      Mission skip captureNum burstLength pushed seen 1 0 i 0 .applyBracketing
  | many {i : ℕ} (hskip : 2 ≤ skip) :
      Mission skip captureNum burstLength pushed seen skip 1 i 0 .applyBracketing
  | again {i retryCount : ℕ} {caller : SkipCaller} (hspare : burstLength ≤ captureNum + spare skip)
      (hpushed : burstLength ≤ pushed) (hcaller : caller = .startBracketing → skip = 0) :
      Mission skip captureNum burstLength pushed seen 2 (if 0 < skip then 1 else 2) i retryCount caller

/-- What has been applied when `skipFrames` has skipped `i` frames. -/
def Progress (s : BracketSession α) (doBracket i : ℕ) : Prop :=
  match doBracket with
  | 0 => s.mBracketNum = s.mBurstCaptureNum + 1 ∧ s.Shows (1 - i) fun _ => s.mBurstCaptureNum
  | 1 =>
    if i = 0 then s.mBracketNum = s.mBurstCaptureNum
    else s.mBracketNum = s.mBurstCaptureNum + 1 ∧ s.Shows (2 - i) fun _ => s.mBurstCaptureNum
  | _ =>
    if i = 0 then s.mBracketNum = s.mBurstCaptureNum
    else if i = 1 then
      s.mBracketNum = s.mBurstCaptureNum + 1 ∧ s.Shows 1 fun _ => s.mBurstCaptureNum
    else s.mBracketNum = min (s.mBurstCaptureNum + 2) s.mBurstLength ∧
      s.Shows 0 (next 0 s.mBurstCaptureNum s.mBurstLength)

theorem progress_one_succ (s : BracketSession α) (i : ℕ) : s.Progress 1 (i + 1) =
    (s.mBracketNum = s.mBurstCaptureNum + 1 ∧ s.Shows (2 - (i + 1)) fun _ => s.mBurstCaptureNum) :=
  rfl

theorem progress_two_add (s : BracketSession α) (i : ℕ) : s.Progress 2 (i + 2) =
    (s.mBracketNum = min (s.mBurstCaptureNum + 2) s.mBurstLength ∧
      s.Shows 0 (next 0 s.mBurstCaptureNum s.mBurstLength)) :=
  rfl

/-- The same before the next frame is grabbed. -/
def Applied (s : BracketSession α) (doBracket i : ℕ) : Prop :=
  match doBracket with
  | 0 => s.mBracketNum = s.mBurstCaptureNum + 1 ∧ s.Shows (1 - i) fun _ => s.mBurstCaptureNum
  | 1 => s.mBracketNum = s.mBurstCaptureNum + 1 ∧ s.Shows (2 - i) fun _ => s.mBurstCaptureNum
  | _ =>
    if i = 0 then s.mBracketNum = s.mBurstCaptureNum + 1 ∧ s.Shows 2 fun _ => s.mBurstCaptureNum
    else s.mBracketNum = min (s.mBurstCaptureNum + 2) s.mBurstLength ∧
      s.Shows 1 fun j => next 0 s.mBurstCaptureNum s.mBurstLength (j - 1)

theorem applied_two_succ (s : BracketSession α) (i : ℕ) : s.Applied 2 (i + 1) =
    (s.mBracketNum = min (s.mBurstCaptureNum + 2) s.mBurstLength ∧
      s.Shows 1 fun j => next 0 s.mBurstCaptureNum s.mBurstLength (j - 1)) :=
  rfl

/-- Before `applyBracketing`. -/
def AtLoop (s : BracketSession α) : Prop :=
  s.mBracketNum = min (s.mBurstCaptureNum + ahead s.mFpsAdaptSkip) s.mBurstLength ∧
    (s.mFpsAdaptSkip < 2 → s.mLastFrameSequenceNbr ≠ none ∧
      s.Shows s.mFpsAdaptSkip (next s.mFpsAdaptSkip s.mBurstCaptureNum s.mBurstLength))

/-- Before a value is applied for the next snapshot. -/
def AtApply (s : BracketSession α) : Prop :=
  s.mFpsAdaptSkip < 2 ∧ s.mLastFrameSequenceNbr ≠ none ∧
    s.mBracketNum = min (s.mBurstCaptureNum + ahead s.mFpsAdaptSkip) s.mBurstLength ∧
    s.Shows 0 (next s.mFpsAdaptSkip s.mBurstCaptureNum s.mBurstLength)

/-- Before a snapshot is taken. -/
def AtTake (s : BracketSession α) : Prop :=
  s.mLastFrameSequenceNbr ≠ none ∧
    s.mBracketNum = min (s.mBurstCaptureNum + ahead s.mFpsAdaptSkip + 1) s.mBurstLength ∧
    s.Shows 0 (due s.mFpsAdaptSkip s.mBurstCaptureNum s.mBurstLength)

/-- There are settings for all snapshots, if the thread may go back. -/
def AtRecover (s : BracketSession α) : Prop :=
  s.mBurstLength ≤ s.mBurstCaptureNum + spare s.mFpsAdaptSkip → s.mBurstLength ≤ s.settings.length

/-- What holds at the place of the thread. -/
def Ready (s : BracketSession α) : Prop :=
  match s.place with
  | .loop => s.mState ≠ .capture → s.AtLoop
  | .skip numFrames doBracket i retryCount caller =>
    Mission s.mFpsAdaptSkip s.mBurstCaptureNum s.mBurstLength s.settings.length
      (s.mLastFrameSequenceNbr ≠ none) numFrames doBracket i retryCount caller ∧
    (0 < i → s.mLastFrameSequenceNbr ≠ none) ∧ s.Progress doBracket i
  | .skipGrab numFrames doBracket i retryCount caller =>
    Mission s.mFpsAdaptSkip s.mBurstCaptureNum s.mBurstLength s.settings.length
      (s.mLastFrameSequenceNbr ≠ none) numFrames doBracket i retryCount caller ∧
    (0 < i → s.mLastFrameSequenceNbr ≠ none) ∧ i < numFrames ∧ s.Applied doBracket i
  | .skipRecover _ caller =>
    s.AtRecover ∧ (caller = .startBracketing → s.mFpsAdaptSkip = 0)
  | .apply => s.AtApply
  | .take _ => s.AtTake
  | .takeRecover _ => s.AtRecover

end BracketSession

end HardwareIntel.Camera
