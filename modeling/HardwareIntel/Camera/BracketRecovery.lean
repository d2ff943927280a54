import HardwareIntel.Camera.BracketPipeline

/-!
# Recovery from lost frames

When frames are lost the thread goes back to the snapshot that the client asks for next. That is the one
it was about to take only if the client is not behind, and the values that have been applied for later
snapshots, and their settings, stay where they are. `snapshots_recovered` says when every snapshot still
gets its value.
-/

namespace HardwareIntel.Camera

open List Option

variable {α : Type}

namespace BracketSession

variable {s s' t : BracketSession α} {values : List α} {lost numFrames doBracket i retryCount : ℕ}
  {caller : SkipCaller}

/-! ## Steps keep the values of the snapshots and of the settings -/

namespace Applies

section

variable (h : s.Applies values)
include h

/-- Where the thread is does not matter, nor what the client does besides taking settings. -/
theorem of_same (hb : t.toOnlineBracket = s.toOnlineBracket) (hsettings : t.settings = s.settings) :
    t.Applies values := by
  refine ⟨?_, ?_, ?_, ?_, ?_, ?_, ?_, ?_, ?_⟩
  · rw [hb, h.values_eq]
  · rw [hb]
    exact h.currentValue
  · rw [mBurstCaptureNum, hb]
    exact h.captureNum_le
  · rw [hb]
    exact h.bracketNum_le
  · rw [hb]
    exact h.last
  · rw [hb]
    exact h.lt
  · rw [mBurstCaptureNum, hb]
    exact h.hits
  · rw [hb, hsettings]
    exact h.settings
  · rw [hb, hsettings]
    exact h.pushed

theorem grabbed (lost : ℕ) : (s.grabbed lost).Applies values :=
  { h with
    last := fun frame hframe => by
      obtain rfl := mem_some.mp hframe
      rfl
    lt := fun frame hframe => by
      have hlt := h.lt frame hframe
      change frame < s.nextFrame + lost + 1
      omega }

theorem returned (lost : ℕ) : (s.returned lost).Applies values :=
  (h.grabbed lost).of_same rfl rfl

theorem skipped (caller : SkipCaller) :
    (s.skipped caller).Applies values := by
  cases caller with
  | startBracketing =>
    exact { h with }
  | applyBracketing => exact h.of_same rfl rfl
  | recovery => exact h.of_same rfl rfl

theorem skipGrab (lost numFrames doBracket i retryCount : ℕ) (caller : SkipCaller) :
    (s.skipGrab lost numFrames doBracket i retryCount caller).Applies values := by
  have hreturned := h.returned lost
  rw [skipGrab_eq]
  split
  · split
    · exact hreturned.skipped caller
    · split
      · exact hreturned.of_same rfl rfl
      · exact hreturned.of_same rfl rfl
  · exact hreturned.of_same rfl rfl

/-- The value at `mBracketNum` is the current one. -/
theorem getElem?_bracketNum (hlength : s.values.length = s.mBurstLength)
    (hlt : s.mBracketNum < s.mBurstLength) :
    s.values[s.mBracketNum]? = some s.currentValue := by
  have hread := List.getElem?_eq_getElem (hlt.trans_eq hlength.symm)
  rw [h.currentValue _ hread, hread]

/-- A value that is left is applied, with its settings. -/
theorem applied (hlength : s.values.length = s.mBurstLength) (hlt : s.mBracketNum < s.mBurstLength)
    {value : α} (hvalue : ∀ v, s.values[s.mBracketNum + 1]? = some v → value = v) :
    Applies values { s with
      mBracketNum := s.mBracketNum + 1
      currentValue := value
      applied := (s.nextFrame, s.currentValue) :: s.applied
      mBracketingParams := s.currentValue :: s.mBracketingParams } := by
  have hcurrent := h.getElem?_bracketNum hlength hlt
  set t : BracketSession α := { s with
    mBracketNum := s.mBracketNum + 1
    currentValue := value
    applied := (s.nextFrame, s.currentValue) :: s.applied
    mBracketingParams := s.currentValue :: s.mBracketingParams } with ht
  have hsettings : t.settings = s.settings ++ [some s.currentValue] := settings_cons _ rfl rfl
  have hpushed := h.pushed
  refine ⟨h.values_eq, hvalue, h.captureNum_le.trans (Nat.le_succ _), hlt, h.last, h.lt,
    fun k hk => ?_, fun k hk hlen => ?_, ?_⟩
  · -- the frames of the snapshots come before the next one
    rw [← h.hits k hk]
    change (s.mSnapshotBufs[k]?.bind fun frame => exposure 2 frame (_ :: s.applied)) = _
    cases hframe : s.mSnapshotBufs[k]? with
    | none => rfl
    | some frame =>
      have hbefore := h.lt frame (mem_of_getElem? hframe)
      rw [bind_some, bind_some, exposure_cons, if_neg (by omega)]
  · rw [hsettings, length_append, length_singleton] at hlen
    rw [hsettings]
    change k < s.mBurstLength at hk
    change _ = some s.values[k]?
    obtain hold | hnew := Nat.lt_succ_iff_lt_or_eq.mp hlen
    · rw [List.getElem?_append_left hold, h.settings k hk hold]
    · have hnum : k = s.mBracketNum := by omega
      rw [hnew, List.getElem?_concat_length, ← hnew, hnum, hcurrent]
  · rw [hsettings, length_append, length_singleton]
    change s.settings.length + 1 = s.mBracketNum + 1 ∨ s.mBurstLength ≤ s.settings.length + 1
    omega

/-- The thread goes back, with settings for all snapshots in the list. -/
theorem recovered (hpushed : s.mBurstLength ≤ s.settings.length)
    (hreq : s.mSnapshotReqNum = s.mBurstCaptureNum) {value : α}
    (hvalue : s.values[s.mSnapshotReqNum]? = some value) (hlt : s.mBurstCaptureNum < s.mBurstLength)
    (place : Place) :
    Applies values { s with
      mBracketNum := s.mSnapshotReqNum
      currentValue := value
      place := place } :=
  { h with
    currentValue := fun _ hv => some.inj (hvalue.symm.trans hv)
    captureNum_le := hreq.ge
    bracketNum_le := hreq.trans_le hlt.le
    pushed := .inr hpushed }

/-- A snapshot is taken that shows its value. -/
theorem captured (hshows : exposure 2 s.nextFrame s.applied = s.values[s.mBurstCaptureNum]?)
    (hnum : s.mBurstCaptureNum < s.mBracketNum) :
    ((s.grabbed 0).capture s.nextFrame).Applies values := by
  have hgrabbed := h.grabbed 0
  have hcount : (s.mSnapshotBufs ++ [s.nextFrame]).length = s.mBurstCaptureNum + 1 :=
    length_append
  have hlt : ∀ frame ∈ s.mSnapshotBufs ++ [s.nextFrame], frame < s.nextFrame + 0 + 1 := by
    intro frame hframe
    obtain hframe | hframe := mem_append.mp hframe
    · exact hgrabbed.lt frame hframe
    · rw [mem_singleton.mp hframe]
      exact Nat.lt_succ_self _
  have hhits : ∀ k < (s.mSnapshotBufs ++ [s.nextFrame]).length,
      ((s.mSnapshotBufs ++ [s.nextFrame])[k]?.bind fun frame => exposure 2 frame s.applied) =
        s.values[k]? := by
    intro k hk
    obtain hold | hnew := Nat.lt_succ_iff_lt_or_eq.mp (hk.trans_eq hcount)
    · rw [List.getElem?_append_left hold]
      exact h.hits k hold
    · rw [hnew, mBurstCaptureNum, List.getElem?_concat_length]
      exact hshows
  rw [capture]
  split
  · exact { h with captureNum_le := hcount.trans_le hnum, last := hgrabbed.last, lt := hlt, hits :=
    hhits }
  · exact { h with captureNum_le := hcount.trans_le hnum, last := hgrabbed.last, lt := hlt, hits :=
    hhits }

end

end Applies

/-! ## Skipping -/

variable {seen : Prop} {burstLength captureNum : ℕ}

/-- Before a value is applied: at most two are in one call, each before a frame of its own. -/
theorem Mission.frames {skip pushed : ℕ}
    (h : Mission skip captureNum burstLength pushed seen numFrames doBracket i retryCount caller) :
    (doBracket = 0 → numFrames = 1) ∧ doBracket ≤ 2 ∧ (doBracket = 2 → numFrames = 2 ∧ skip = 0) := by
  cases h with
  | startTwo hskip => exact ⟨fun h => (nomatch h), le_rfl, fun _ => ⟨rfl, hskip⟩⟩
  | startOne => exact ⟨fun h => (nomatch h), by decide, fun h => (nomatch h)⟩
  | each => exact ⟨fun _ => rfl, by decide, fun h => (nomatch h)⟩
  | many => exact ⟨fun h => (nomatch h), by decide, fun h => (nomatch h)⟩
  | again => split <;> omega

/-- Another round of the same call. -/
theorem Mission.next {skip pushed i' : ℕ} {seen' : Prop}
    (h : Mission skip captureNum burstLength pushed seen numFrames doBracket i retryCount caller)
    (hi : 0 < i') :
    Mission skip captureNum burstLength pushed seen' numFrames doBracket i' retryCount caller := by
  cases h with
  | startTwo hskip hfirst => exact .startTwo hskip hfirst fun _ => hi
  | startOne hskip hfirst => exact .startOne hskip hfirst fun _ => hi
  | each hskip => exact .each hskip
  | many hskip => exact .many hskip
  | again hspare hpushed hcaller => exact .again hspare hpushed hcaller

/-- There may be more settings. -/
theorem Mission.mono {skip pushed pushed' : ℕ}
    (h : Mission skip captureNum burstLength pushed seen numFrames doBracket i retryCount caller)
    (hle : pushed ≤ pushed') :
    Mission skip captureNum burstLength pushed' seen numFrames doBracket i retryCount caller := by
  cases h with
  | startTwo hskip hfirst hseen => exact .startTwo hskip hfirst hseen
  | startOne hskip hfirst hseen => exact .startOne hskip hfirst hseen
  | each hskip => exact .each hskip
  | many hskip => exact .many hskip
  | again hspare hpushed hcaller => exact .again hspare (hpushed.trans hle) hcaller

section

variable (h : s.Applies values)
include h

section

variable (hlength : s.values.length = s.mBurstLength)
include hlength

/-- `applyBracketingParams` applies the value at `mBracketNum`, unless all have been applied. -/
theorem applyBracketingParams_cases (happly : s.applyBracketingParams = some t) :
    (s.mBracketNum < s.mBurstLength ∧ ∃ value,
      (∀ v, s.values[s.mBracketNum + 1]? = some v → value = v) ∧ t = { s with
        mBracketNum := s.mBracketNum + 1
        currentValue := value
        applied := (s.nextFrame, s.currentValue) :: s.applied
        mBracketingParams := s.currentValue :: s.mBracketingParams }) ∨
    s.mBracketNum = s.mBurstLength ∧ t = s := by
  by_cases hlt : s.mBracketNum < s.mBurstLength
  · obtain ⟨value, hvalue, happly'⟩ := applyBracketingParams_of_lt hlength hlt
    exact .inl ⟨hlt, value, hvalue, some.inj (happly.symm.trans happly')⟩
  · have happly' := applyBracketingParams_of_le (not_lt.mp hlt)
    exact .inr ⟨le_antisymm h.bracketNum_le (not_lt.mp hlt), some.inj (happly.symm.trans happly')⟩

/-- The first value of a call. -/
theorem shows_of_applyBracketingParams (hrun : s.mBurstCaptureNum < s.mBurstLength)
    (hnum : s.mBracketNum = s.mBurstCaptureNum) (happly : s.applyBracketingParams = some t) :
    t.mBracketNum = t.mBurstCaptureNum + 1 ∧ t.Shows 2 fun _ => t.mBurstCaptureNum := by
  obtain ⟨hlt, value, -, rfl⟩ | ⟨heq, -⟩ := applyBracketingParams_cases h hlength happly
  · have hcurrent := h.getElem?_bracketNum hlength hlt
    refine ⟨congrArg (· + 1) hnum, ?_⟩
    exact shows_of_applied (s := s) rfl rfl rfl (hnum ▸ hcurrent)
  · omega

/-- The second value of a call. -/
theorem shows_of_applyBracketingParams_again (hnum : s.mBracketNum = s.mBurstCaptureNum + 1)
    (hshows : s.Shows 1 fun _ => s.mBurstCaptureNum) (happly : s.applyBracketingParams = some t) :
    t.mBracketNum = min (t.mBurstCaptureNum + 2) t.mBurstLength ∧
      t.Shows 1 fun j => next 0 t.mBurstCaptureNum t.mBurstLength (j - 1) := by
  obtain ⟨hlt, value, -, rfl⟩ | ⟨heq, rfl⟩ := applyBracketingParams_cases h hlength happly
  · have hcurrent := h.getElem?_bracketNum hlength hlt
    refine ⟨?_, ?_⟩
    · change s.mBracketNum + 1 = min (s.mBurstCaptureNum + 2) s.mBurstLength
      omega
    · refine Shows.mono (g := fun j => if 2 ≤ j then s.mBracketNum else s.mBurstCaptureNum)
        (hshows.applied rfl rfl rfl hcurrent) le_rfl fun j hj => ?_
      change _ = min (s.mBurstCaptureNum + min (j - 1) (1 - 0)) (s.mBurstLength - 1)
      split
      · omega
      · omega
  · refine ⟨by omega, hshows.mono le_rfl fun j hj => ?_⟩
    rw [next]
    omega

/-- A value is applied if it is its turn. -/
theorem applied_of_progress (hrun : s.mBurstCaptureNum < s.mBurstLength) (hdo : doBracket ≤ 2)
    (hframes : doBracket = 2 → i < 2) (hprogress : s.Progress doBracket i)
    (happly : (if i < doBracket then s.applyBracketingParams else some s) = some t) :
    t.Applied doBracket i := by
  obtain rfl | rfl | rfl : doBracket = 0 ∨ doBracket = 1 ∨ doBracket = 2 := by omega
  · rw [if_neg (Nat.not_lt_zero i)] at happly
    exact some.inj happly ▸ hprogress
  · by_cases hi : i = 0
    · subst hi
      exact shows_of_applyBracketingParams h hlength hrun hprogress happly
    · rw [if_neg (by omega)] at happly
      obtain rfl := some.inj happly
      change if i = 0 then _ else _ at hprogress
      rw [if_neg hi] at hprogress
      exact hprogress
  · by_cases hi : i = 0
    · subst hi
      exact shows_of_applyBracketingParams h hlength hrun hprogress happly
    · obtain rfl : i = 1 := by omega
      exact shows_of_applyBracketingParams_again h hlength hprogress.1 hprogress.2 happly

/-- What holds of the burst is kept when a value is applied. -/
theorem applies_of_applyBracketingParams (happly : s.applyBracketingParams = some t) :
    t.Applies values ∧ t.mFpsAdaptSkip = s.mFpsAdaptSkip ∧ t.mSnapshotBufs = s.mSnapshotBufs ∧
      t.mBurstLength = s.mBurstLength ∧ t.mLastFrameSequenceNbr = s.mLastFrameSequenceNbr ∧
      s.settings.length ≤ t.settings.length := by
  obtain ⟨hlt, value, hvalue, ht⟩ | ⟨-, rfl⟩ := applyBracketingParams_cases h hlength happly
  · have hsettings : t.settings = s.settings ++ [some s.currentValue] :=
      settings_cons _ (by rw [ht]) (by rw [ht])
    have hle : s.settings.length ≤ t.settings.length := by
      rw [hsettings, length_append]
      exact Nat.le_add_right _ _
    refine ⟨ht ▸ h.applied hlength hlt hvalue, ?_, ?_, ?_, ?_, hle⟩ <;> rw [ht]
  · exact ⟨h, rfl, rfl, rfl, rfl, le_rfl⟩

end

/-! ## A frame is skipped -/

/-- No frame was found to be lost. -/
theorem progress_of_applied (hseen : 0 < i → s.mLastFrameSequenceNbr ≠ none)
    (hnum : s.numLost lost = 0) (hdo : doBracket ≤ 2) (happlied : s.Applied doBracket i) :
    (s.returned lost).Progress doBracket (i + 1) := by
  obtain rfl | rfl | rfl : doBracket = 0 ∨ doBracket = 1 ∨ doBracket = 2 := by omega
  · refine ⟨happlied.1, ?_⟩
    exact Shows.mono (happlied.2.grabbed lost rfl rfl rfl) (by omega) fun _ _ => rfl
  · rw [progress_one_succ]
    refine ⟨happlied.1, ?_⟩
    exact Shows.mono (happlied.2.grabbed lost rfl rfl rfl) (by omega) fun _ _ => rfl
  · cases i with
    | zero =>
      refine ⟨happlied.1, ?_⟩
      exact Shows.mono (happlied.2.grabbed lost rfl rfl rfl) (by omega) fun _ _ => rfl
    | succ i =>
      -- the two values are seen one after the other
      have hlost := @numLost_of_last _ _ lost _ h (hseen (Nat.succ_pos i))
      refine ⟨happlied.1, Shows.mono (happlied.2.grabbed lost rfl rfl rfl) (by omega)
        fun j _ => ?_⟩
      have hj : j + (lost + 1) - 1 = j := by omega
      rw [hj]
      rfl

/-- Frames that are lost count as skipped. -/
theorem progress_of_lost (hpos : 0 < s.numLost lost) (hdo : doBracket ≤ 2)
    (hzero : doBracket = 0 → numFrames = 1)
    (htwo : doBracket = 2 → numFrames = 2 ∧ s.mBurstCaptureNum + 1 = s.mBurstLength)
    (hi : i + s.numLost lost < numFrames) (happlied : s.Applied doBracket i) :
    (s.returned lost).Progress doBracket (i + s.numLost lost + 1) := by
  have hlost := (numLost_of_pos h hpos).2
  rw [hlost] at hi ⊢
  obtain rfl | rfl | rfl : doBracket = 0 ∨ doBracket = 1 ∨ doBracket = 2 := by omega
  · have hone := hzero rfl
    omega
  · rw [progress_one_succ]
    refine ⟨happlied.1, ?_⟩
    exact Shows.mono (happlied.2.grabbed lost rfl rfl rfl) (by omega) fun _ _ => rfl
  · obtain ⟨hframes, hlast⟩ := htwo rfl
    obtain ⟨rfl, rfl⟩ : i = 0 ∧ lost = 1 := by omega
    have hnum : s.mBracketNum = s.mBurstCaptureNum + 1 := happlied.1
    refine ⟨?_, Shows.mono (happlied.2.grabbed 1 rfl rfl rfl) (by omega)
      fun j _ => ?_⟩
    · change s.mBracketNum = min (s.mBurstCaptureNum + 2) s.mBurstLength
      omega
    · change s.mBurstCaptureNum = min (s.mBurstCaptureNum + min j 1) (s.mBurstLength - 1)
      omega

end

/-! ## The end of skipping -/

/-- What `skipFrames` leaves: the value of the next snapshot is seen, and if no frames are skipped before
snapshots, that of the one behind it. -/
def Finished (s : BracketSession α) : Prop :=
  if s.mFpsAdaptSkip = 0 then
    s.mBracketNum = min (s.mBurstCaptureNum + 2) s.mBurstLength ∧
      s.Shows 0 (next 0 s.mBurstCaptureNum s.mBurstLength)
  else s.mBracketNum = s.mBurstCaptureNum + 1 ∧ s.Shows 0 fun _ => s.mBurstCaptureNum

section

variable (hrun : s.mBurstCaptureNum < s.mBurstLength)
include hrun

section

variable (hfinished : s.Finished) (hseen : s.mLastFrameSequenceNbr ≠ none)
include hfinished hseen

theorem atApply_of_finished (hskip : s.mFpsAdaptSkip < 2) : s.AtApply := by
  refine ⟨hskip, hseen, ?_⟩
  rw [Finished] at hfinished
  rw [ahead]
  split at hfinished
  · next hzero =>
    rw [hzero]
    exact hfinished
  · refine ⟨by omega, hfinished.2.mono le_rfl fun j _ => ?_⟩
    rw [next]
    omega

/-- No value has to be applied for the next snapshots, or the next snapshot is one of the last. -/
theorem atTake_of_finished
    (hle : 2 ≤ s.mFpsAdaptSkip ∨ s.mBurstLength ≤ s.mBurstCaptureNum + spare s.mFpsAdaptSkip) :
    s.AtTake := by
  rw [Finished] at hfinished
  rw [spare] at hle
  split at hfinished
  · next hzero =>
    rw [hzero, if_pos rfl] at hle
    refine ⟨hseen, ?_, hfinished.2.mono le_rfl fun j _ => ?_⟩
    · rw [ahead]
      omega
    · rw [next, due, ahead, hzero]
      split
      · omega
      · omega
  · next hzero =>
    rw [if_neg hzero] at hle
    refine ⟨hseen, ?_, hfinished.2.mono le_rfl fun j _ => ?_⟩
    · rw [ahead]
      omega
    · rw [due, ahead]
      split
      · omega
      · omega

/-- The thread goes on where it has called `skipFrames`. -/
theorem ready_skipped
    (hspare : ∀ retryCount, caller = .recovery retryCount →
      s.mBurstLength ≤ s.mBurstCaptureNum + spare s.mFpsAdaptSkip)
    (hstart : caller = .startBracketing → s.mFpsAdaptSkip = 0) : (s.skipped caller).Ready := by
  cases caller with
  | startBracketing =>
    have hskip := hstart rfl
    have happly := atApply_of_finished hrun hfinished hseen (by omega)
    refine fun _ => ⟨happly.2.2.1, fun _ => ⟨hseen, ?_⟩⟩
    exact Shows.mono happly.2.2.2 (Nat.zero_le _) fun _ _ => rfl
  | applyBracketing =>
    rw [skipped]
    split
    · next hskip =>
      have happly := atApply_of_finished hrun hfinished hseen hskip
      exact happly
    · next hskip =>
      have htake := atTake_of_finished hrun hfinished hseen (.inl (not_lt.mp hskip))
      exact htake
  | recovery retryCount =>
    have htake := atTake_of_finished hrun hfinished hseen (.inr (hspare retryCount rfl))
    exact htake

end

/-- All frames have been skipped. -/
theorem ready_skipped_of_progress
    (hmission : Mission s.mFpsAdaptSkip s.mBurstCaptureNum s.mBurstLength s.settings.length
      (s.mLastFrameSequenceNbr ≠ none) numFrames doBracket i retryCount caller)
    (hseen : 0 < i → s.mLastFrameSequenceNbr ≠ none) (hi : ¬ i < numFrames)
    (hprogress : s.Progress doBracket i) : (s.skipped caller).Ready := by
  cases hmission with
  | startTwo hskip hfirst =>
    obtain ⟨i, rfl⟩ := Nat.exists_eq_add_of_le' (not_lt.mp hi)
    have hfinished : s.Finished := by
      rw [Finished, if_pos hskip]
      exact hprogress
    exact ready_skipped hrun hfinished (hseen (Nat.succ_pos _)) (fun _ h => nomatch h) fun _ => hskip
  | startOne hskip hfirst =>
    obtain ⟨i, rfl⟩ := Nat.exists_eq_add_of_le' (not_lt.mp hi)
    obtain ⟨hnum, hshows⟩ := hprogress
    refine fun _ => ⟨?_, fun _ => ⟨hseen (Nat.succ_pos i), ?_⟩⟩
    · change s.mBracketNum = min (s.mBurstCaptureNum + (2 - s.mFpsAdaptSkip)) s.mBurstLength
      omega
    · change s.Shows s.mFpsAdaptSkip (next s.mFpsAdaptSkip s.mBurstCaptureNum s.mBurstLength)
      refine hshows.mono (by omega) fun j _ => ?_
      rw [next]
      omega
  | each hskip =>
    have hfinished : s.Finished := by
      rw [Finished, if_neg (by omega)]
      exact ⟨hprogress.1, hprogress.2.mono (by omega) fun _ _ => rfl⟩
    exact ready_skipped hrun hfinished (hseen (by omega)) (fun _ h => nomatch h) fun h => nomatch h
  | many hskip =>
    obtain ⟨i, rfl⟩ : ∃ i', i = i' + 1 := ⟨i - 1, by omega⟩
    have hfinished : s.Finished := by
      rw [Finished, if_neg (by omega)]
      exact ⟨hprogress.1, hprogress.2.mono (by omega) fun _ _ => rfl⟩
    exact ready_skipped hrun hfinished (hseen (Nat.succ_pos i)) (fun _ h => nomatch h)
      fun h => nomatch h
  | again hspare hpushed hcaller =>
    obtain ⟨i, rfl⟩ := Nat.exists_eq_add_of_le' (not_lt.mp hi)
    have hfinished : s.Finished := by
      rw [Finished]
      by_cases hskip : 0 < s.mFpsAdaptSkip
      · rw [if_pos hskip, progress_one_succ] at hprogress
        rw [if_neg hskip.ne']
        exact ⟨hprogress.1, hprogress.2.mono (by omega) fun _ _ => rfl⟩
      · rw [if_neg hskip, progress_two_add] at hprogress
        rw [if_pos (Nat.eq_zero_of_not_pos hskip)]
        exact hprogress
    exact ready_skipped hrun hfinished (hseen (Nat.succ_pos _)) (fun _ _ => hspare) hcaller

end

/-- Frames were lost once more, and the thread gives up. -/
theorem finished_of_lost (h : s.Applies values) (hpos : 0 < s.numLost lost)
    (hrun : s.mBurstCaptureNum < s.mBurstLength)
    (hlast : 0 < s.mFpsAdaptSkip ∨ s.mBurstCaptureNum + 1 = s.mBurstLength)
    (happlied : s.Applied (if 0 < s.mFpsAdaptSkip then 1 else 2) i) :
    (s.returned lost).Finished := by
  have hlost := (numLost_of_pos h hpos).2
  change if s.mFpsAdaptSkip = 0 then _ else _
  by_cases hskip : 0 < s.mFpsAdaptSkip
  · rw [if_pos hskip] at happlied
    rw [if_neg hskip.ne']
    refine ⟨happlied.1, ?_⟩
    exact Shows.mono (happlied.2.grabbed lost rfl rfl rfl) (by omega) fun _ _ => rfl
  · rw [if_neg hskip] at happlied
    rw [if_pos (Nat.eq_zero_of_not_pos hskip)]
    cases i with
    | zero =>
      have hnum : s.mBracketNum = s.mBurstCaptureNum + 1 := happlied.1
      refine ⟨?_, Shows.mono (happlied.2.grabbed lost rfl rfl rfl) (by omega)
        fun j _ => ?_⟩
      · change s.mBracketNum = min (s.mBurstCaptureNum + 2) s.mBurstLength
        omega
      · change s.mBurstCaptureNum = min (s.mBurstCaptureNum + min j 1) (s.mBurstLength - 1)
        omega
    | succ i =>
      refine ⟨happlied.1, Shows.mono (happlied.2.grabbed lost rfl rfl rfl) (by omega)
        fun j _ => ?_⟩
      change min _ _ = min (s.mBurstCaptureNum + min j 1) (s.mBurstLength - 1)
      omega

/-! ## Steps -/

/-- When a step of the thread goes well. Frames that are lost while no frames are skipped before
snapshots may count as skipped, or be given up, only for the last snapshot. The thread goes back only if
the client has all snapshots that were taken, and only from the last one, or the last two if no frames
are skipped. -/
def RecoversAt (s : BracketSession α) (lost : ℕ) : Place → Prop
  | .skipGrab numFrames _ i retryCount _ => 0 < s.numLost lost →
      retryCount = maxRetryCount ∨ i + s.numLost lost < numFrames →
      0 < s.mFpsAdaptSkip ∨ s.mBurstCaptureNum + 1 = s.mBurstLength
  | .skipRecover .. | .takeRecover .. => s.mSnapshotReqNum = s.mBurstCaptureNum ∧
      s.mBurstLength ≤ s.mBurstCaptureNum + spare s.mFpsAdaptSkip
  | _ => True

instance (s : BracketSession α) (lost : ℕ) : ∀ place, Decidable (s.RecoversAt lost place)
  | .skipGrab .. => inferInstanceAs (Decidable (_ → _ → _ ∨ _))
  | .skipRecover .. | .takeRecover .. => inferInstanceAs (Decidable (_ ∧ _))
  | .loop | .skip .. | .apply | .take .. => .isTrue trivial

/-- When a step goes well. The client asks for the snapshots of the burst only, and takes settings only
if there are some. -/
def Recovers (s : BracketSession α) : BracketEvent → Prop
  | .thread lost => s.RecoversAt lost s.place
  | .getSnapshot => s.mSnapshotReqNum < s.mBurstLength
  | .answered => True
  | .getNextAeConfig => s.mBracketingParams ≠ []

instance (s : BracketSession α) : ∀ e, Decidable (s.Recovers e)
  | .thread lost => inferInstanceAs (Decidable (s.RecoversAt lost s.place))
  | .getSnapshot => inferInstanceAs (Decidable (_ < _))
  | .answered => .isTrue trivial
  | .getNextAeConfig => inferInstanceAs (Decidable (¬ s.mBracketingParams = []))

/-- No error has been reported before or is reported by the step. -/
def Succeeds (s : BracketSession α) (e : BracketEvent) : Prop :=
  ∀ s', s.step e = some s' → s'.failed = false

instance (s : BracketSession α) (e : BracketEvent) : Decidable (s.Succeeds e) :=
  decidable_of_iff ((s.step e).all fun s' => !s'.failed) <| by
    rw [Succeeds, Option.all_eq_true]
    exact forall₂_congr fun s' _ => by rw [Bool.not_eq_true']

/-- What holds in a run whose steps go well. -/
structure Sound (values : List α) (s : BracketSession α) : Prop where
  bounded : s.Bounded
  applies : s.Applies values
  ready : s.Ready

/-- The thread goes back to the snapshot it was about to take. -/
theorem ready_recover (hbounded : s.Bounded) (happlies : s.Applies values)
    (hrun : s.mBurstCaptureNum < s.mBurstLength) (hrecover : s.AtRecover)
    (hstart : caller = .startBracketing → s.mFpsAdaptSkip = 0)
    (hreq : s.mSnapshotReqNum = s.mBurstCaptureNum)
    (hspare : s.mBurstLength ≤ s.mBurstCaptureNum + spare s.mFpsAdaptSkip)
    (hstep : s.recover retryCount caller = some s') : s'.Applies values ∧ s'.Ready := by
  obtain ⟨value, hvalue, hsome⟩ :=
    @recover_of_lt _ _ retryCount caller hbounded.length (hreq.trans_lt hrun)
  obtain rfl := some.inj (hstep.symm.trans hsome)
  have hpushed := hrecover hspare
  refine ⟨happlies.recovered hpushed hreq hvalue hrun _, .again hspare hpushed hstart,
    fun h => absurd h (lt_irrefl 0), ?_⟩
  by_cases hskip : 0 < s.mFpsAdaptSkip
  · rw [if_pos hskip]
    exact hreq
  · rw [if_neg hskip]
    exact hreq

/-- The settings for all snapshots are there when frames are found to be lost. -/
theorem atRecover_of_applied (happlies : s.Applies values)
    (hrun : s.mBurstCaptureNum < s.mBurstLength)
    (hmission : Mission s.mFpsAdaptSkip s.mBurstCaptureNum s.mBurstLength s.settings.length
      (s.mLastFrameSequenceNbr ≠ none) numFrames doBracket i retryCount caller)
    (hseen : s.mLastFrameSequenceNbr ≠ none) (happlied : s.Applied doBracket i) : s.AtRecover := by
  intro hle
  have hpushed := happlies.pushed
  rw [spare] at hle
  cases hmission with
  | startTwo hskip hfirst hseen' =>
    obtain ⟨i, rfl⟩ := Nat.exists_eq_succ_of_ne_zero (hseen' hseen).ne'
    rw [applied_two_succ] at happlied
    rw [if_pos hskip] at hle
    omega
  | startOne hskip =>
    have hnum : s.mBracketNum = s.mBurstCaptureNum + 1 := happlied.1
    rw [if_neg (by omega)] at hle
    omega
  | each hskip =>
    have hnum : s.mBracketNum = s.mBurstCaptureNum + 1 := happlied.1
    rw [if_neg (by omega)] at hle
    omega
  | many hskip =>
    have hnum : s.mBracketNum = s.mBurstCaptureNum + 1 := happlied.1
    rw [if_neg (by omega)] at hle
    omega
  | again _ hall => exact hall

/-- After the first frame, `startBracketing` goes on only if no frames are skipped before snapshots. -/
theorem Mission.skip_eq_zero {skip pushed : ℕ} (hseen : seen) (hi : i < numFrames)
    (h : Mission skip captureNum burstLength pushed seen numFrames doBracket i retryCount caller) :
    caller = .startBracketing → skip = 0 := by
  cases h with
  | startTwo hskip => exact fun _ => hskip
  | startOne _ _ hseen' =>
    have hpos := hseen' hseen
    omega
  | each => exact fun h => nomatch h
  | many => exact fun h => nomatch h
  | again _ _ hcaller => exact hcaller

/-- After all retries, the thread has gone back before. -/
theorem Mission.of_retried {skip pushed : ℕ} (hretry : retryCount = maxRetryCount)
    (h : Mission skip captureNum burstLength pushed seen numFrames doBracket i retryCount caller) :
    doBracket = (if 0 < skip then 1 else 2) ∧ burstLength ≤ captureNum + spare skip := by
  cases h with
  | startTwo => exact nomatch hretry
  | startOne => exact nomatch hretry
  | each => exact nomatch hretry
  | many => exact nomatch hretry
  | again hspare => exact ⟨rfl, hspare⟩

section

variable (happlies : s.Applies values)
include happlies

theorem ready_skipGrab (hrun : s.mBurstCaptureNum < s.mBurstLength)
    (hmission : Mission s.mFpsAdaptSkip s.mBurstCaptureNum s.mBurstLength s.settings.length (s.mLastFrameSequenceNbr ≠ none) numFrames doBracket i retryCount caller)
    (hseen : 0 < i → s.mLastFrameSequenceNbr ≠ none) (hi : i < numFrames)
    (happlied : s.Applied doBracket i)
    (hcond : 0 < s.numLost lost → retryCount = maxRetryCount ∨ i + s.numLost lost < numFrames → 0 < s.mFpsAdaptSkip ∨ s.mBurstCaptureNum + 1 = s.mBurstLength) :
    (s.skipGrab lost numFrames doBracket i retryCount caller).Ready := by
  obtain ⟨hzero, hdo, htwo⟩ := hmission.frames
  rw [skipGrab_eq]
  split
  · next hpos =>
    have hseen' := (numLost_of_pos happlies hpos).1
    have hcaller := hmission.skip_eq_zero hseen' hi
    split
    · next hretry =>
      obtain ⟨rfl, hspare⟩ := hmission.of_retried hretry
      have hfinished := finished_of_lost happlies hpos hrun (hcond hpos (.inl hretry)) happlied
      exact ready_skipped hrun hfinished (some_ne_none _) (fun _ _ => hspare) hcaller
    · split
      · next hless =>
        have hlast := hcond hpos (.inr hless)
        have hprogress := progress_of_lost happlies hpos hdo hzero
          (fun h => ⟨(htwo h).1, hlast.resolve_left (by rw [(htwo h).2]; exact lt_irrefl 0)⟩) hless
          happlied
        exact ⟨hmission.next (Nat.succ_pos _), fun _ => some_ne_none _, hprogress⟩
      · have hrecover := atRecover_of_applied happlies hrun hmission hseen' happlied
        exact ⟨hrecover, hcaller⟩
  · next hzero' =>
    have hnum : s.numLost lost = 0 := Nat.eq_zero_of_not_pos hzero'
    have hprogress := progress_of_applied happlies hseen hnum hdo happlied
    exact ⟨hmission.next (Nat.succ_pos _), fun _ => some_ne_none _, hprogress⟩

/-- The value for a later snapshot is applied, if there is one. -/
theorem atTake_of_apply (hlength : s.values.length = s.mBurstLength)
    (hrun : s.mBurstCaptureNum < s.mBurstLength) (hready : s.AtApply)
    (happly : s.applyBracketingParams = some t) : t.AtTake := by
  obtain ⟨hskip, hseen, hnum, hshows⟩ := hready
  rw [ahead] at hnum
  obtain ⟨hlt, value, -, rfl⟩ | ⟨heq, rfl⟩ := applyBracketingParams_cases happlies hlength happly
  · have hcurrent := happlies.getElem?_bracketNum hlength hlt
    refine ⟨hseen, ?_, ?_⟩
    · change s.mBracketNum + 1 = min (s.mBurstCaptureNum + (2 - s.mFpsAdaptSkip) + 1) s.mBurstLength
      omega
    · refine Shows.mono (g := fun j => if 2 ≤ j then s.mBracketNum
          else next s.mFpsAdaptSkip s.mBurstCaptureNum s.mBurstLength j)
        (hshows.applied rfl rfl rfl hcurrent) le_rfl fun j _ => ?_
      change (if 2 ≤ j then s.mBracketNum
          else min (s.mBurstCaptureNum + min j (1 - s.mFpsAdaptSkip)) (s.mBurstLength - 1)) =
        min (s.mBurstCaptureNum + if j < 2 then min j (1 - s.mFpsAdaptSkip) else 2 - s.mFpsAdaptSkip)
          (s.mBurstLength - 1)
      by_cases hj : 2 ≤ j
      · rw [if_pos hj, if_neg (not_lt.mpr hj)]
        omega
      · rw [if_neg hj, if_pos (not_le.mp hj)]
  · refine ⟨hseen, ?_, hshows.mono le_rfl fun j _ => ?_⟩
    · rw [ahead]
      omega
    · rw [next, due, ahead]
      by_cases hj : 2 ≤ j
      · rw [if_neg (not_lt.mpr hj)]
        omega
      · rw [if_pos (not_le.mp hj)]

/-- The snapshot shows its value, and the next frames those of the next snapshots. -/
theorem ready_capture (hrun : s.mBurstCaptureNum < s.mBurstLength) (hready : s.AtTake) : ((s.grabbed 0).capture s.nextFrame).Applies values ∧
      ((s.grabbed 0).capture s.nextFrame).Ready := by
  obtain ⟨hseen, hnum, hshows⟩ := hready
  rw [ahead] at hnum
  have hvalue := hshows 0 le_rfl
  have hzero : due s.mFpsAdaptSkip s.mBurstCaptureNum s.mBurstLength 0 = s.mBurstCaptureNum := by
    rw [due, if_pos (by decide)]
    omega
  rw [hzero] at hvalue
  refine ⟨happlies.captured hvalue (by omega), ?_⟩
  have hcount : (s.mSnapshotBufs ++ [s.nextFrame]).length = s.mBurstCaptureNum + 1 :=
    length_append
  rw [capture]
  split
  · exact fun hcapture => absurd rfl hcapture
  · next hmore =>
    change ¬ (s.mSnapshotBufs ++ [s.nextFrame]).length = s.mBurstLength at hmore
    refine fun _ => ⟨?_, fun hskip => ⟨some_ne_none _, ?_⟩⟩
    · change s.mBracketNum = min ((s.mSnapshotBufs ++ [s.nextFrame]).length + (2 - s.mFpsAdaptSkip))
        s.mBurstLength
      omega
    · refine Shows.mono (hshows.grabbed 0 rfl rfl rfl) (Nat.zero_le _) fun j hj => ?_
      change s.mFpsAdaptSkip ≤ j at hj
      change s.mFpsAdaptSkip < 2 at hskip
      change min (s.mBurstCaptureNum + if j + (0 + 1) < 2 then min (j + (0 + 1)) (1 - s.mFpsAdaptSkip)
          else 2 - s.mFpsAdaptSkip) (s.mBurstLength - 1) =
        min ((s.mSnapshotBufs ++ [s.nextFrame]).length + min j (1 - s.mFpsAdaptSkip))
          (s.mBurstLength - 1)
      split
      · omega
      · omega

/-- A snapshot is taken, or frames were lost before it. -/
theorem ready_take (hrun : s.mBurstCaptureNum < s.mBurstLength) (hready : s.AtTake)
    (hstep : s.take lost retryCount = some s') (hok : s'.failed = false) :
    s'.Applies values ∧ s'.Ready := by
  have hlost := @numLost_of_last _ _ lost _ happlies hready.1
  rw [take_eq, if_pos hrun] at hstep
  split at hstep
  · split at hstep
    · obtain rfl := some.inj hstep
      have hfailed : (({ s.grabbed lost with failed := true } : BracketSession α).capture
          (s.nextFrame + lost)).failed = true := by
        rw [capture]
        split
        · rfl
        · rfl
      exact absurd (hfailed.symm.trans hok) Bool.noConfusion
    · obtain rfl := some.inj hstep
      obtain ⟨hseen, hnum, -⟩ := hready
      rw [ahead] at hnum
      have hpushed := happlies.pushed
      have hrecover : s.AtRecover := by
        intro hle
        rw [spare] at hle
        split at hle
        · omega
        · omega
      exact ⟨(happlies.returned lost).of_same rfl rfl, hrecover⟩
  · next hzero =>
    obtain rfl : lost = 0 := by omega
    obtain rfl := some.inj hstep
    exact ready_capture happlies hrun hready

end

/-- The next snapshot is prepared, or the client gets its answer. -/
theorem ready_threadLoop (hbounded : s.Bounded) (happlies : s.Applies values)
    (hplace : s.place = .loop) (hready : s.Ready) :
    s.threadLoop.Applies values ∧ s.threadLoop.Ready := by
  have hanswer : s.waitForAndExecuteMessage.Applies values ∧ s.waitForAndExecuteMessage.Ready := by
    rw [waitForAndExecuteMessage]
    split
    · exact ⟨happlies.of_same rfl rfl, hready⟩
    · exact ⟨happlies, hready⟩
  rw [threadLoop]
  split
  · exact hanswer
  · exact hanswer
  · next hbracketing =>
    split
    · exact hanswer
    · have hrun : s.mState ≠ .capture := fun hcapture => by cases hcapture.symm.trans hbracketing
      have hlt := hbounded.running hrun
      rw [Ready, hplace] at hready
      obtain ⟨hnum, hseen⟩ := hready hrun
      rw [ahead] at hnum
      rw [applyBracketing]
      split
      · next hpos =>
        refine ⟨happlies.of_same rfl rfl, ?_⟩
        by_cases hskip : 2 ≤ s.mFpsAdaptSkip
        · rw [if_pos hskip]
          refine ⟨.many hskip, fun h => absurd h (lt_irrefl 0), ?_⟩
          change s.mBracketNum = s.mBurstCaptureNum
          omega
        · have hone : s.mFpsAdaptSkip = 1 := by omega
          obtain ⟨hlast, hshows⟩ := hseen (by omega)
          have hshows' : s.Shows 1 fun _ => s.mBurstCaptureNum := by
            refine hshows.mono hone.le fun j _ => ?_
            rw [next]
            omega
          rw [if_neg hskip]
          refine ⟨?_, fun h => absurd h (lt_irrefl 0), ?_, ?_⟩
          · change Mission s.mFpsAdaptSkip _ _ _ _ s.mFpsAdaptSkip 0 0 0 .applyBracketing
            rw [hone]
            exact .each rfl
          · change s.mBracketNum = s.mBurstCaptureNum + 1
            omega
          · exact hshows'
      · next hzero =>
        have hskip : s.mFpsAdaptSkip = 0 := Nat.eq_zero_of_not_pos hzero
        obtain ⟨hlast, hshows⟩ := hseen (by omega)
        refine ⟨happlies.of_same rfl rfl, ?_⟩
        have happly : s.AtApply := ⟨by omega, hlast, hnum, hshows.mono hskip.le fun _ _ => rfl⟩
        exact happly

section

variable (h : s.Sound values)
include h

/-- What the thread does keeps the run sound. -/
theorem Sound.thread (hcond : s.Recovers (.thread lost)) (hstep : s.thread lost = some s')
    (hok : s'.failed = false) : s'.Applies values ∧ s'.Ready := by
  have hready := h.ready
  have hrun (hplace : s.place ≠ .loop) := h.bounded.running (h.bounded.ne_capture hplace)
  rw [BracketSession.thread] at hstep
  rw [Recovers] at hcond
  cases hplace : s.place with
  | loop =>
    rw [hplace] at hstep
    exact some.inj hstep ▸ ready_threadLoop h.bounded h.applies hplace hready
  | skip numFrames doBracket i retryCount caller =>
    have hlt := hrun fun hloop => by cases hloop.symm.trans hplace
    rw [hplace] at hstep
    rw [Ready, hplace] at hready
    obtain ⟨hmission, hseen, hprogress⟩ := hready
    dsimp only at hstep
    split at hstep
    · next hi =>
      obtain ⟨t, ht, rfl⟩ := map_eq_some_iff.mp hstep
      obtain ⟨-, hdo, htwo⟩ := hmission.frames
      have happlied := applied_of_progress h.applies h.bounded.length hlt hdo
        (fun hd => hi.trans_eq (htwo hd).1) hprogress ht
      split at ht
      · obtain ⟨happlies, hskip, hbufs, hn, hlast, hsettings⟩ :=
          applies_of_applyBracketingParams h.applies h.bounded.length ht
        refine ⟨happlies.of_same rfl rfl, ?_, ?_, hi, happlied⟩
        · have hmission' := hmission.mono hsettings
          rw [mBurstCaptureNum, ← hskip, ← hbufs, ← hn, ← hlast] at hmission'
          exact hmission'
        · rw [← hlast] at hseen
          exact hseen
      · obtain rfl := some.inj ht
        exact ⟨h.applies.of_same rfl rfl, hmission, hseen, hi, happlied⟩
    · next hi =>
      obtain rfl := some.inj hstep
      exact ⟨h.applies.skipped caller, ready_skipped_of_progress hlt hmission hseen hi hprogress⟩
  | skipGrab numFrames doBracket i retryCount caller =>
    have hlt := hrun fun hloop => by cases hloop.symm.trans hplace
    rw [hplace] at hstep hcond
    rw [Ready, hplace] at hready
    obtain ⟨hmission, hseen, hi, happlied⟩ := hready
    obtain rfl := some.inj hstep
    exact ⟨h.applies.skipGrab .., ready_skipGrab h.applies hlt hmission hseen hi happlied hcond⟩
  | skipRecover retryCount caller =>
    have hlt := hrun fun hloop => by cases hloop.symm.trans hplace
    rw [hplace] at hstep hcond
    rw [Ready, hplace] at hready
    exact ready_recover h.bounded h.applies hlt hready.1 hready.2 hcond.1 hcond.2 hstep
  | apply =>
    have hlt := hrun fun hloop => by cases hloop.symm.trans hplace
    rw [hplace] at hstep
    rw [Ready, hplace] at hready
    obtain ⟨t, ht, rfl⟩ := map_eq_some_iff.mp hstep
    have happlies := (applies_of_applyBracketingParams h.applies h.bounded.length ht).1
    have htake := atTake_of_apply h.applies h.bounded.length hlt hready ht
    exact ⟨happlies.of_same rfl rfl, htake⟩
  | take retryCount =>
    have hlt := hrun fun hloop => by cases hloop.symm.trans hplace
    rw [hplace] at hstep
    rw [Ready, hplace] at hready
    exact ready_take h.applies hlt hready hstep hok
  | takeRecover retryCount =>
    have hlt := hrun fun hloop => by cases hloop.symm.trans hplace
    rw [hplace] at hstep hcond
    rw [Ready, hplace] at hready
    have hstart : SkipCaller.recovery (retryCount + 1) = .startBracketing → s.mFpsAdaptSkip = 0 :=
      fun hcaller => by cases hcaller
    exact ready_recover h.bounded h.applies hlt hready hstart hcond.1 hcond.2 hstep

/-- The session after something that the client does. -/
def ofClient (s : BracketSession α) (mSnapshotReqNum : ℕ) (client : BracketClient)
    (configs : List (Option α)) (mBracketingParams : List α) : BracketSession α :=
  { s with mSnapshotReqNum, client, configs, mBracketingParams }

/-- The thread does not notice what the client does until it goes back. -/
theorem Sound.ofClient {mSnapshotReqNum : ℕ} {client : BracketClient} {configs : List (Option α)}
    {mBracketingParams : List α}
    (hsettings : (s.ofClient mSnapshotReqNum client configs mBracketingParams).settings = s.settings)
    (hbounded : (s.ofClient mSnapshotReqNum client configs mBracketingParams).Bounded) :
    (s.ofClient mSnapshotReqNum client configs mBracketingParams).Sound values := by
  set t := s.ofClient mSnapshotReqNum client configs mBracketingParams with ht
  have happlies := h.applies
  refine ⟨hbounded, ?_, ?_⟩
  · refine { happlies with settings := ?_, pushed := ?_ }
    · rw [hsettings]
      exact happlies.settings
    · rw [hsettings]
      exact happlies.pushed
  · have hready := h.ready
    have hplace : t.place = s.place := rfl
    have hrecover : s.AtRecover → t.AtRecover := fun hle => by
      rw [AtRecover, hsettings]
      exact hle
    rw [Ready] at hready
    rw [Ready, hplace, hsettings]
    cases hs : s.place with
    | skipRecover retryCount caller =>
      rw [hs] at hready
      exact ⟨hrecover hready.1, hready.2⟩
    | takeRecover retryCount =>
      rw [hs] at hready
      exact hrecover hready
    | _ =>
      rw [hs] at hready
      exact hready

/-- A step that goes well keeps the run sound. -/
theorem Sound.step {e : BracketEvent} (hsucceeds : s.Succeeds e) (hcond : s.Recovers e)
    (hstep : s.step e = some s') : s'.Sound values := by
  have hasks : e = .getSnapshot → s.mSnapshotReqNum < s.mBurstLength := by
    rintro rfl
    exact hcond
  obtain ⟨u, hu, hbounded⟩ := h.bounded.step e hasks
  obtain rfl : s' = u := some.inj (hstep.symm.trans hu)
  have hfetch (hsome : s.fetch = some s') : s'.Sound values := by
    rw [fetch, ite_none_right_eq_some] at hsome
    obtain rfl := some.inj hsome.2
    exact h.ofClient rfl hbounded
  cases e with
  | thread lost =>
    obtain ⟨happlies, hready⟩ := h.thread hcond hstep (hsucceeds s' hstep)
    exact ⟨hbounded, happlies, hready⟩
  | getSnapshot =>
    rw [BracketSession.step] at hstep
    split at hstep
    · rw [getSnapshot] at hstep
      split at hstep
      · exact hfetch hstep
      · obtain rfl := some.inj hstep
        exact h.ofClient rfl hbounded
    · exact some.inj hstep ▸ h
  | answered =>
    rw [BracketSession.step] at hstep
    split at hstep
    · exact hfetch hstep
    · exact some.inj hstep ▸ h
  | getNextAeConfig =>
    rw [BracketSession.step] at hstep
    split at hstep
    · obtain rfl := some.inj hstep
      exact h.ofClient (settings_getNextAeConfig hcond) hbounded
    · exact some.inj hstep ▸ h

/-! ## Runs -/

/-- Every snapshot is exposed with its value. -/
def HitsValues (values : List α) (s : BracketSession α) : Prop :=
  ∀ k < s.mBurstCaptureNum,
    (s.mSnapshotBufs[k]?.bind fun frame => exposure 2 frame s.applied) = values[k]?

instance [DecidableEq α] (values : List α) (s : BracketSession α) : Decidable (s.HitsValues values) :=
  Nat.decidableBallLT _ _

/-- The calls of `getNextAeConfig` have returned the settings of the values, in order. -/
def ReturnsSettings (values : List α) (s : BracketSession α) : Prop :=
  ∀ k < values.length, k < s.configs.length → s.configs[k]? = some values[k]?

instance [DecidableEq α] (values : List α) (s : BracketSession α) :
    Decidable (s.ReturnsSettings values) :=
  Nat.decidableBallLT _ _

theorem Sound.hitsValues : s.HitsValues values := by
  rw [HitsValues, ← h.applies.values_eq]
  exact h.applies.hits

theorem Sound.returnsSettings : s.ReturnsSettings values := by
  intro k hk hlen
  have hlength := h.bounded.length
  rw [h.applies.values_eq] at hlength
  have hlen' : k < s.settings.length := by
    rw [settings, length_append]
    omega
  have hsetting := h.applies.settings k (hk.trans_eq hlength) hlen'
  rw [settings, List.getElem?_append_left hlen, h.applies.values_eq] at hsetting
  exact hsetting

end

section Init

variable [LinearOrder α] {evMin evMax : α} {bracketValues : List α} {skip : ℕ}

/-- The start of a burst, with a lag of two frames. -/
theorem sound_init {cpfLag cssMajorVersion : ℕ}
    (hlag : OnlineBracket.exposureLag cpfLag cssMajorVersion = 2) (hbounded : s.Bounded)
    (hinit : init evMin evMax cpfLag cssMajorVersion bracketValues skip = some s) :
    s.Sound (bracketValues.map (limitEv evMin evMax)) := by
  obtain ⟨b, hb, hs⟩ := map_eq_some_iff.mp hinit
  obtain ⟨value, hvalue, rfl⟩ := map_eq_some_iff.mp hb
  rw [hlag] at hs
  dsimp only at hs
  split at hs
  · next hskip =>
    subst hs
    refine ⟨hbounded, ⟨rfl, fun v hv => some.inj (hvalue.symm.trans hv), le_rfl,
      Nat.zero_le _, fun _ h => (nomatch h), fun _ h => absurd h not_mem_nil,
      fun k hk => absurd hk (Nat.not_lt_zero k), fun k _ hk => absurd hk (Nat.not_lt_zero k),
      .inl rfl⟩, ?_⟩
    obtain rfl | rfl : skip = 0 ∨ skip = 1 := by omega
    · exact ⟨.startTwo rfl rfl fun h => absurd rfl h, fun h => absurd h (lt_irrefl 0), rfl⟩
    · exact ⟨.startOne rfl rfl fun h => absurd rfl h, fun h => absurd h (lt_irrefl 0), rfl⟩
  · next hskip =>
    subst hs
    refine ⟨hbounded, ⟨rfl, fun v hv => some.inj (hvalue.symm.trans hv), le_rfl,
      Nat.zero_le _, fun _ h => (nomatch h), fun _ h => absurd h not_mem_nil,
      fun k hk => absurd hk (Nat.not_lt_zero k), fun k _ hk => absurd hk (Nat.not_lt_zero k),
      .inl rfl⟩, fun _ => ⟨?_, fun h => absurd h hskip⟩⟩
    change 0 = min (0 + (2 - skip)) _
    omega

end Init

end BracketSession

/-- In every run, however frames are lost and the client calls, no array is indexed behind its end and
every buffer taken from the ISP is a snapshot or has been put back once. If no error is reported and all
steps go well, every snapshot is exposed with its value, and the client gets the settings of the values
in their order. -/
theorem snapshots_recovered [LinearOrder α] (evMin evMax : α) (bracketValues : List α)
    (skip cpfLag cssMajorVersion : ℕ) (hlength : 2 ≤ bracketValues.length)
    (hlag : OnlineBracket.exposureLag cpfLag cssMajorVersion = 2) :
    ∃ s₀ : BracketSession α,
      BracketSession.init evMin evMax cpfLag cssMajorVersion bracketValues skip = some s₀ ∧
      (∀ s, Reach BracketSession.step BracketSession.Asks s₀ s →
        s.Bounded ∧ s.Accounted ∧ ∀ e, s.Asks e → (s.step e).isSome) ∧
      ∀ s, Reach BracketSession.step (fun s e => s.Succeeds e ∧ s.Recovers e) s₀ s →
        s.HitsValues (bracketValues.map (limitEv evMin evMax)) ∧
        s.ReturnsSettings (bracketValues.map (limitEv evMin evMax)) := by
  obtain ⟨s₀, hinit, hbounded, haccounted⟩ := @BracketSession.exists_init _ _ evMin evMax bracketValues
    skip (by omega) cpfLag cssMajorVersion
  refine ⟨s₀, hinit, fun s hrun => ?_, fun s hrun => ?_⟩
  · obtain ⟨hs, hs'⟩ := BracketSession.bounded_of_reach hbounded haccounted hrun
    refine ⟨hs, hs', fun e hasks => ?_⟩
    obtain ⟨s', hstep, -⟩ := hs.step e hasks
    exact hstep ▸ rfl
  · have hsound := BracketSession.sound_init hlag hbounded hinit
    have h := hrun.invariant hsound fun a e b ha hcond hstep => ha.step hcond.1 hcond.2 hstep
    exact ⟨h.hitsValues, h.returnsSettings⟩

/-- Three frames are lost before the last snapshot, when the client has the first one. -/
theorem snapshots_recovered_last : ∃ s₀ s : BracketSession ℤ,
    BracketSession.init (-2) 2 0 1 [-2, 2] 2 = some s₀ ∧
    Reach BracketSession.step (fun s e => s.Succeeds e ∧ s.Recovers e) s₀ s ∧
    s.mSnapshotBufs = [2, 11] ∧ s.configs.length = 2 ∧ s.HitsValues [-2, 2] ∧
    s.ReturnsSettings [-2, 2] := by
  obtain ⟨s₀, hinit, -, hrecovered⟩ := snapshots_recovered (-2 : ℤ) 2 [-2, 2] 2 0 1 (by decide) rfl
  have hexec : ((BracketSession.init (-2 : ℤ) 2 0 1 [-2, 2] 2).all fun s₀ =>
      (exec BracketSession.step (fun s e => decide (s.Succeeds e ∧ s.Recovers e)) s₀
        (List.replicate 7 (.thread 0) ++ [.getSnapshot, .getNextAeConfig] ++
          List.replicate 6 (.thread 0) ++ [.thread 3] ++ List.replicate 7 (.thread 0) ++
          [.getSnapshot, .getNextAeConfig])).any fun s =>
        decide (s.mSnapshotBufs = [2, 11] ∧ s.configs.length = 2)) = true := by decide
  rw [hinit, all_some] at hexec
  obtain ⟨s, hrun, hs⟩ := Reach.exists_of_exec (fun _ _ h => of_decide_eq_true h) _ hexec
  obtain ⟨hbufs, hconfigs⟩ := of_decide_eq_true hs
  obtain ⟨hhits, hreturns⟩ := hrecovered s hrun
  exact ⟨s₀, s, hinit, hrun, hbufs, hconfigs, hhits, hreturns⟩

/-- A client that is late sets the thread back too far; one that is not still gets settings twice. -/
theorem snapshots_not_recovered :
    (¬ ∀ s₀ s : BracketSession ℤ, BracketSession.init (-2) 2 0 1 [-2, 2] 2 = some s₀ →
      Reach BracketSession.step (fun s e => s.Succeeds e ∧ s.Asks e) s₀ s → s.HitsValues [-2, 2]) ∧
    ¬ ∀ s₀ s : BracketSession ℤ, BracketSession.init (-2) 2 0 1 [-2, 2] 2 = some s₀ →
      Reach BracketSession.step (fun s e => s.Succeeds e ∧ s.Asks e) s₀ s →
      s.ReturnsSettings [-2, 2] := by
  obtain ⟨s₀, hinit, -⟩ := @BracketSession.exists_init _ _ (-2 : ℤ) 2 [-2, 2] 2 (by decide) 0 1
  constructor
  · intro hclaim
    have hexec : ((BracketSession.init (-2 : ℤ) 2 0 1 [-2, 2] 2).all fun s₀ =>
        (exec BracketSession.step (fun s e => decide (s.Succeeds e ∧ s.Asks e)) s₀
          (List.replicate 13 (.thread 0) ++ [.thread 1] ++ List.replicate 7 (.thread 0))).any fun s =>
          decide (¬ s.HitsValues [-2, 2])) = true := by decide
    rw [hinit, all_some] at hexec
    obtain ⟨s, hrun, hs⟩ := Reach.exists_of_exec (fun _ _ h => of_decide_eq_true h) _ hexec
    exact of_decide_eq_true hs (hclaim s₀ s hinit hrun)
  · intro hclaim
    have hexec : ((BracketSession.init (-2 : ℤ) 2 0 1 [-2, 2] 2).all fun s₀ =>
        (exec BracketSession.step (fun s e => decide (s.Succeeds e ∧ s.Asks e)) s₀
          (List.replicate 6 (.thread 0) ++ [.thread 1] ++ List.replicate 7 (.thread 0) ++
            [.getSnapshot, .getNextAeConfig] ++ List.replicate 7 (.thread 0) ++
            [.getSnapshot, .getNextAeConfig])).any fun s =>
          decide (¬ s.ReturnsSettings [-2, 2])) = true := by decide
    rw [hinit, all_some] at hexec
    obtain ⟨s, hrun, hs⟩ := Reach.exists_of_exec (fun _ _ h => of_decide_eq_true h) _ hexec
    exact of_decide_eq_true hs (hclaim s₀ s hinit hrun)

end HardwareIntel.Camera
