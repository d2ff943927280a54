import Mathlib.Data.List.Perm.Basic
import HardwareIntel.Camera.BracketSession
import HardwareIntel.Library.Runs

/-!
# Indices and buffers of a burst

Whatever frames are lost and whatever the client does, as long as it asks for no more snapshots than the
burst has, no array is indexed behind its end, and every buffer that was taken from the ISP is one of the
snapshots or has been put back once: `bounded_of_reach`.
-/

namespace HardwareIntel.Camera

open List Option

variable {α : Type}

namespace BracketSession

variable {s s' t : BracketSession α} {lost frame retryCount : ℕ} {caller : SkipCaller}

/-! ## What the pieces of a step do -/

/-- How many frames the thread finds to be lost when it grabs the next one. -/
def numLost (lost : ℕ) (s : BracketSession α) : ℕ :=
  ((s.grab lost).2.getNumLostFrames (s.grab lost).1).1

/-- The thread has grabbed a frame. -/
def grabbed (lost : ℕ) (s : BracketSession α) : BracketSession α :=
  { s with
    nextFrame := s.nextFrame + lost + 1
    grabs := s.grabs + 1
    mLastFrameSequenceNbr := some (s.nextFrame + lost)
    taken := s.taken ++ [s.nextFrame + lost] }

/-- The thread has grabbed a frame and put it back. -/
def returned (lost : ℕ) (s : BracketSession α) : BracketSession α :=
  { s.grabbed lost with put := s.put ++ [s.nextFrame + lost] }

theorem skipGrab_eq (numFrames doBracket i : ℕ) :
    s.skipGrab lost numFrames doBracket i retryCount caller =
      if 0 < s.numLost lost then
        if retryCount = maxRetryCount then (s.returned lost).skipped caller
        else if i + s.numLost lost < numFrames then
          { s.returned lost with
            place := .skip numFrames doBracket (i + s.numLost lost + 1) retryCount caller }
        else { s.returned lost with place := .skipRecover retryCount caller }
      else { s.returned lost with place := .skip numFrames doBracket (i + 1) retryCount caller } :=
  rfl

theorem take_eq : s.take lost retryCount =
    if s.mBurstCaptureNum < s.mBurstLength then
      if 0 < s.numLost lost then
        if retryCount = maxRetryCount then
          some ({ s.grabbed lost with failed := true }.capture (s.nextFrame + lost))
        else some { s.returned lost with place := .takeRecover retryCount }
      else some ((s.grabbed lost).capture (s.nextFrame + lost))
    else none :=
  rfl

/-- A value that is left is applied, and the next one is read. -/
theorem applyBracketingParams_of_lt (hlength : s.values.length = s.mBurstLength)
    (hlt : s.mBracketNum < s.mBurstLength) :
    ∃ value, (∀ v, s.values[s.mBracketNum + 1]? = some v → value = v) ∧
      s.applyBracketingParams = some { s with
        mBracketNum := s.mBracketNum + 1
        currentValue := value
        applied := (s.nextFrame, s.currentValue) :: s.applied
        mBracketingParams := s.currentValue :: s.mBracketingParams } := by
  rw [applyBracketingParams, OnlineBracket.applyBracketingParams, if_pos hlt, if_pos hlt]
  by_cases hnext : s.mBracketNum + 1 < s.mBurstLength
  · have hread := List.getElem?_eq_getElem (hnext.trans_eq hlength.symm)
    rw [if_pos hnext, hread]
    exact ⟨_, fun v hv => some.inj hv, rfl⟩
  · refine ⟨s.currentValue, fun v hv => ?_, ?_⟩
    · rw [List.getElem?_eq_none (by omega)] at hv
      cases hv
    · rw [if_neg hnext]
      rfl

/-- With no value left nothing is applied. -/
theorem applyBracketingParams_of_le (hle : s.mBurstLength ≤ s.mBracketNum) :
    s.applyBracketingParams = some s := by
  rw [applyBracketingParams, OnlineBracket.applyBracketingParams, if_neg hle.not_gt, if_neg hle.not_gt]
  rfl

/-- The thread goes back to the value of the snapshot that the client asks for next. -/
theorem recover_of_lt (hlength : s.values.length = s.mBurstLength)
    (hlt : s.mSnapshotReqNum < s.mBurstLength) :
    ∃ value, s.values[s.mSnapshotReqNum]? = some value ∧ s.recover retryCount caller = some { s with
      mBracketNum := s.mSnapshotReqNum
      currentValue := value
      place := .skip 2 (if 0 < s.mFpsAdaptSkip then 1 else 2) 0 retryCount caller } := by
  have hread := List.getElem?_eq_getElem (hlt.trans_eq hlength.symm)
  rw [recover, OnlineBracket.getRecoveryParams, hread]
  exact ⟨_, rfl, rfl⟩

/-! ## Indices -/

/-- The counters stay within the burst. -/
structure Bounded (s : BracketSession α) : Prop where
  length : s.values.length = s.mBurstLength
  req_le : s.mSnapshotReqNum ≤ s.mBurstCaptureNum
  stopped : s.mState = .stopped → s.client = .idle
  running : s.mState ≠ .capture → s.mBurstCaptureNum < s.mBurstLength
  capture : s.mState = .capture → s.place = .loop ∧ s.mBurstCaptureNum = s.mBurstLength
  waiting : s.client ≠ .idle → s.mSnapshotReqNum < s.mBurstLength
  answered : s.client = .answered → s.mSnapshotReqNum < s.mBurstCaptureNum

namespace Bounded

section

variable (h : s.Bounded)
include h

/-- The thread may change everything else. -/
theorem of_running (hrun : s.mState ≠ .capture) (hvalues : t.values = s.values)
    (hn : t.mBurstLength = s.mBurstLength) (hreq : t.mSnapshotReqNum = s.mSnapshotReqNum)
    (hbufs : t.mSnapshotBufs = s.mSnapshotBufs) (hstate : t.mState = s.mState)
    (hclient : t.client = s.client) : t.Bounded := by
  have hnum : t.mBurstCaptureNum = s.mBurstCaptureNum := congrArg List.length hbufs
  refine ⟨?_, ?_, ?_, ?_, ?_, ?_, ?_⟩
  · rw [hvalues, hn, h.length]
  · rw [hreq, hnum]
    exact h.req_le
  · rw [hstate, hclient]
    exact h.stopped
  · rw [hnum, hn]
    exact fun _ => h.running hrun
  · rw [hstate]
    exact fun hcapture => absurd hcapture hrun
  · rw [hclient, hreq, hn]
    exact h.waiting
  · rw [hclient, hreq, hnum]
    exact h.answered

theorem ne_capture (hplace : s.place ≠ .loop) : s.mState ≠ .capture :=
  fun hcapture => hplace (h.capture hcapture).1

section

variable (hrun : s.mState ≠ .capture)
include hrun

theorem req_lt : s.mSnapshotReqNum < s.mBurstLength :=
  h.req_le.trans_lt (h.running hrun)

theorem applyBracketingParams :
    ∃ s', s.applyBracketingParams = some s' ∧ s'.Bounded ∧ s'.mState = s.mState := by
  by_cases hlt : s.mBracketNum < s.mBurstLength
  · obtain ⟨value, -, happly⟩ := applyBracketingParams_of_lt h.length hlt
    exact ⟨_, happly, h.of_running hrun rfl rfl rfl rfl rfl rfl, rfl⟩
  · exact ⟨s, applyBracketingParams_of_le (not_lt.mp hlt), h, rfl⟩

theorem recover (retryCount : ℕ) (caller : SkipCaller) :
    ∃ s', s.recover retryCount caller = some s' ∧ s'.Bounded := by
  obtain ⟨value, -, hrecover⟩ := @recover_of_lt _ _ retryCount caller h.length (h.req_lt hrun)
  exact ⟨_, hrecover, h.of_running hrun rfl rfl rfl rfl rfl rfl⟩

theorem skipped (caller : SkipCaller) :
    (s.skipped caller).Bounded := by
  cases caller with
  | startBracketing =>
    exact ⟨h.length, h.req_le, fun hstopped => (nomatch hstopped), fun _ => h.running hrun,
      fun hcapture => (nomatch hcapture), h.waiting, h.answered⟩
  | applyBracketing => exact h.of_running hrun rfl rfl rfl rfl rfl rfl
  | recovery => exact h.of_running hrun rfl rfl rfl rfl rfl rfl

theorem captured (frame : ℕ) :
    (s.capture frame).Bounded := by
  have hlt := h.running hrun
  have hreq := h.req_le
  have hnum : (s.mSnapshotBufs ++ [frame]).length = s.mBurstCaptureNum + 1 := length_append
  have hreq' : s.mSnapshotReqNum ≤ (s.mSnapshotBufs ++ [frame]).length := by omega
  have hanswered : s.client = .answered → s.mSnapshotReqNum < (s.mSnapshotBufs ++ [frame]).length :=
    fun _ => by omega
  rw [BracketSession.capture]
  split
  · next hall =>
    exact ⟨h.length, hreq', fun hstopped => (nomatch hstopped), fun hne => absurd rfl hne,
      fun _ => ⟨rfl, hall⟩, h.waiting, hanswered⟩
  · next hall =>
    have hlt' : (s.mSnapshotBufs ++ [frame]).length < s.mBurstLength := by
      change ¬ (s.mSnapshotBufs ++ [frame]).length = s.mBurstLength at hall
      omega
    exact ⟨h.length, hreq', h.stopped, fun _ => hlt', fun hcapture => absurd hcapture hrun, h.waiting,
      hanswered⟩

theorem skipGrab (lost numFrames doBracket i : ℕ) (retryCount : ℕ) (caller : SkipCaller) :
    (s.skipGrab lost numFrames doBracket i retryCount caller).Bounded := by
  have hreturned : (s.returned lost).Bounded := h.of_running hrun rfl rfl rfl rfl rfl rfl
  rw [skipGrab_eq]
  split
  · split
    · exact hreturned.skipped hrun caller
    · split
      · exact h.of_running hrun rfl rfl rfl rfl rfl rfl
      · exact h.of_running hrun rfl rfl rfl rfl rfl rfl
  · exact h.of_running hrun rfl rfl rfl rfl rfl rfl

theorem take (lost retryCount : ℕ) :
    ∃ s', s.take lost retryCount = some s' ∧ s'.Bounded := by
  rw [take_eq, if_pos (h.running hrun)]
  split
  · split
    · have hfailed : Bounded { s.grabbed lost with failed := true } :=
        h.of_running hrun rfl rfl rfl rfl rfl rfl
      exact ⟨_, rfl, hfailed.captured hrun _⟩
    · exact ⟨_, rfl, h.of_running hrun rfl rfl rfl rfl rfl rfl⟩
  · have hgrabbed : (s.grabbed lost).Bounded := h.of_running hrun rfl rfl rfl rfl rfl rfl
    exact ⟨_, rfl, hgrabbed.captured hrun _⟩

end

/-- A message is handled if there is a snapshot for it. -/
theorem waitForAndExecuteMessage (hrun : s.mState ≠ .stopped)
    (hreq : s.client = .waiting → s.mSnapshotReqNum < s.mBurstCaptureNum) :
    s.waitForAndExecuteMessage.Bounded := by
  rw [BracketSession.waitForAndExecuteMessage]
  split
  · next hwaiting =>
    have hne : s.client ≠ .idle := fun hidle => nomatch hidle.symm.trans hwaiting
    exact ⟨h.length, h.req_le, fun hstopped => absurd hstopped hrun, h.running, h.capture,
      fun _ => h.waiting hne, fun _ => hreq hwaiting⟩
  · exact h

theorem threadLoop : s.threadLoop.Bounded := by
  rw [BracketSession.threadLoop]
  split
  · next hstopped =>
    rw [BracketSession.waitForAndExecuteMessage, h.stopped hstopped]
    exact h
  · next hcapture =>
    refine h.waitForAndExecuteMessage (fun hstopped => nomatch hstopped.symm.trans hcapture)
      fun hwaiting => ?_
    rw [(h.capture hcapture).2]
    exact h.waiting fun hidle => nomatch hidle.symm.trans hwaiting
  · next hbracketing =>
    split
    · next hready =>
      exact h.waitForAndExecuteMessage (fun hstopped => nomatch hstopped.symm.trans hbracketing)
        fun _ => hready.2
    · have hrun : s.mState ≠ .capture := fun hcapture => nomatch hcapture.symm.trans hbracketing
      rw [applyBracketing]
      split
      · exact h.of_running hrun rfl rfl rfl rfl rfl rfl
      · exact h.of_running hrun rfl rfl rfl rfl rfl rfl

/-- The thread never indexes an array behind its end. -/
theorem thread (lost : ℕ) : ∃ s', s.thread lost = some s' ∧ s'.Bounded := by
  rw [BracketSession.thread]
  cases hplace : s.place with
  | loop => exact ⟨_, rfl, h.threadLoop⟩
  | skip numFrames doBracket i retryCount caller =>
    have hrun := h.ne_capture fun hloop => nomatch hloop.symm.trans hplace
    dsimp only
    split
    · split
      · obtain ⟨s', happly, h', hstate⟩ := h.applyBracketingParams hrun
        rw [happly]
        exact ⟨_, rfl, h'.of_running (hstate ▸ hrun) rfl rfl rfl rfl rfl rfl⟩
      · exact ⟨_, rfl, h.of_running hrun rfl rfl rfl rfl rfl rfl⟩
    · exact ⟨_, rfl, h.skipped hrun caller⟩
  | skipGrab numFrames doBracket i retryCount caller =>
    have hrun := h.ne_capture fun hloop => nomatch hloop.symm.trans hplace
    exact ⟨_, rfl, h.skipGrab hrun ..⟩
  | skipRecover retryCount caller =>
    exact h.recover (h.ne_capture fun hloop => nomatch hloop.symm.trans hplace) _ _
  | apply =>
    have hrun := h.ne_capture fun hloop => nomatch hloop.symm.trans hplace
    obtain ⟨s', happly, h', hstate⟩ := h.applyBracketingParams hrun
    rw [happly]
    exact ⟨_, rfl, h'.of_running (hstate ▸ hrun) rfl rfl rfl rfl rfl rfl⟩
  | take retryCount =>
    exact h.take (h.ne_capture fun hloop => nomatch hloop.symm.trans hplace) _ _
  | takeRecover retryCount =>
    exact h.recover (h.ne_capture fun hloop => nomatch hloop.symm.trans hplace) _ _

theorem fetch (hreq : s.mSnapshotReqNum < s.mBurstCaptureNum) (hstate : s.mState ≠ .stopped) :
    ∃ s', s.fetch = some s' ∧ s'.Bounded := by
  have hle : s.mBurstCaptureNum ≤ s.mBurstLength := by
    by_cases hcapture : s.mState = .capture
    · exact (h.capture hcapture).2.le
    · exact (h.running hcapture).le
  rw [BracketSession.fetch, if_pos (hreq.trans_le hle)]
  exact ⟨_, rfl, h.length, hreq, fun hstopped => absurd hstopped hstate, h.running, h.capture,
    fun hne => absurd rfl hne, fun hanswered => (nomatch hanswered)⟩

/-- Neither does the client, if it asks for the snapshots of the burst only. -/
theorem step (e : BracketEvent) (hasks : e = .getSnapshot → s.mSnapshotReqNum < s.mBurstLength) :
    ∃ s', s.step e = some s' ∧ s'.Bounded := by
  cases e with
  | thread lost => exact h.thread lost
  | getSnapshot =>
    rw [BracketSession.step]
    split
    · next hturn =>
      rw [BracketSession.getSnapshot]
      split
      · next hreq => exact h.fetch hreq hturn.1
      · exact ⟨_, rfl, h.length, h.req_le, fun hstopped => absurd hstopped hturn.1, h.running,
          h.capture, fun _ => hasks rfl, fun hanswered => (nomatch hanswered)⟩
    · exact ⟨s, rfl, h⟩
  | answered =>
    rw [BracketSession.step]
    split
    · next hanswered =>
      refine h.fetch (h.answered hanswered) fun hstopped => ?_
      exact nomatch (h.stopped hstopped).symm.trans hanswered
    · exact ⟨s, rfl, h⟩
  | getNextAeConfig =>
    rw [BracketSession.step]
    split
    · exact ⟨_, rfl, { h with }⟩
    · exact ⟨s, rfl, h⟩

end

end Bounded

/-! ## Buffers -/

/-- Every frame that was taken is a snapshot or has been put back, and no frame was taken twice. -/
structure Accounted (s : BracketSession α) : Prop where
  perm : s.taken.Perm (s.put ++ s.mSnapshotBufs)
  nodup : s.taken.Nodup
  lt : ∀ frame ∈ s.taken, frame < s.nextFrame

namespace Accounted

section

variable (h : s.Accounted)
include h

/-- A step that takes no frame. -/
theorem of_same (htaken : t.taken = s.taken) (hput : t.put = s.put)
    (hbufs : t.mSnapshotBufs = s.mSnapshotBufs) (hnext : t.nextFrame = s.nextFrame) :
    t.Accounted := by
  refine ⟨?_, ?_, ?_⟩
  · rw [htaken, hput, hbufs]
    exact h.perm
  · rw [htaken]
    exact h.nodup
  · rw [htaken, hnext]
    exact h.lt

theorem nodup_taken : (s.taken ++ [s.nextFrame + lost]).Nodup := by
  rw [nodup_append_comm, singleton_append, nodup_cons]
  exact ⟨fun hmem => absurd (h.lt _ hmem) (by omega), h.nodup⟩

theorem lt_taken :
    ∀ frame ∈ s.taken ++ [s.nextFrame + lost], frame < s.nextFrame + lost + 1 := by
  intro frame hframe
  obtain hframe | hframe := mem_append.mp hframe
  · have hlt := h.lt frame hframe
    omega
  · rw [mem_singleton.mp hframe]
    exact Nat.lt_succ_self _

theorem returned : (s.returned lost).Accounted := by
  refine ⟨?_, h.nodup_taken, h.lt_taken⟩
  have hperm := h.perm.append_right [s.nextFrame + lost]
  refine hperm.trans ?_
  rw [BracketSession.returned, append_assoc, append_assoc]
  exact List.Perm.append_left _ perm_append_comm

theorem captured (ht : t.toOnlineBracket = (s.grabbed lost).toOnlineBracket)
    (htaken : t.taken = s.taken ++ [s.nextFrame + lost]) (hput : t.put = s.put) :
    (t.capture (s.nextFrame + lost)).Accounted := by
  have hperm : t.taken.Perm (t.put ++ (t.mSnapshotBufs ++ [s.nextFrame + lost])) := by
    rw [htaken, hput, ht, ← append_assoc]
    exact h.perm.append_right _
  have hnodup : t.taken.Nodup := htaken ▸ h.nodup_taken
  have hlt : ∀ frame ∈ t.taken, frame < t.nextFrame := by
    rw [htaken, ht]
    exact h.lt_taken
  rw [BracketSession.capture]
  split
  · exact ⟨hperm, hnodup, hlt⟩
  · exact ⟨hperm, hnodup, hlt⟩

theorem skipped (caller : SkipCaller) : (s.skipped caller).Accounted := by
  cases caller with
  | startBracketing => exact h.of_same rfl rfl rfl rfl
  | applyBracketing => exact h.of_same rfl rfl rfl rfl
  | recovery => exact h.of_same rfl rfl rfl rfl

theorem applyBracketingParams (happly : s.applyBracketingParams = some s') :
    s'.Accounted := by
  obtain ⟨b, hb, rfl⟩ := map_eq_some_iff.mp happly
  rw [OnlineBracket.applyBracketingParams] at hb
  split at hb
  · dsimp only at hb
    split at hb
    · obtain ⟨value, -, rfl⟩ := map_eq_some_iff.mp hb
      exact h.of_same rfl rfl rfl rfl
    · obtain rfl := some.inj hb
      exact h.of_same rfl rfl rfl rfl
  · obtain rfl := some.inj hb
    exact h.of_same rfl rfl rfl rfl

theorem recover (hrecover : s.recover retryCount caller = some s') :
    s'.Accounted := by
  obtain ⟨⟨params, b⟩, hb, rfl⟩ := map_eq_some_iff.mp hrecover
  obtain ⟨value, -, hb⟩ := map_eq_some_iff.mp hb
  obtain ⟨-, rfl⟩ := Prod.mk.inj hb
  exact h.of_same rfl rfl rfl rfl

theorem fetch (hfetch : s.fetch = some s') : s'.Accounted := by
  rw [BracketSession.fetch, ite_none_right_eq_some] at hfetch
  obtain rfl := some.inj hfetch.2
  exact h.of_same rfl rfl rfl rfl

theorem skipGrab (lost numFrames doBracket i retryCount : ℕ) (caller : SkipCaller) :
    (s.skipGrab lost numFrames doBracket i retryCount caller).Accounted := by
  have hreturned : (s.returned lost).Accounted := h.returned
  rw [skipGrab_eq]
  split
  · split
    · exact hreturned.skipped caller
    · split
      · exact hreturned.of_same rfl rfl rfl rfl
      · exact hreturned.of_same rfl rfl rfl rfl
  · exact hreturned.of_same rfl rfl rfl rfl

theorem take (htake : s.take lost retryCount = some s') : s'.Accounted := by
  rw [take_eq, ite_none_right_eq_some] at htake
  obtain ⟨-, htake⟩ := htake
  split at htake
  · split at htake
    · obtain rfl := some.inj htake
      exact h.captured rfl rfl rfl
    · obtain rfl := some.inj htake
      exact (h.returned).of_same rfl rfl rfl rfl
  · obtain rfl := some.inj htake
    exact h.captured rfl rfl rfl

theorem waitForAndExecuteMessage : s.waitForAndExecuteMessage.Accounted := by
  rw [BracketSession.waitForAndExecuteMessage]
  split
  · exact h.of_same rfl rfl rfl rfl
  · exact h

theorem threadLoop : s.threadLoop.Accounted := by
  rw [BracketSession.threadLoop]
  split
  · exact h.waitForAndExecuteMessage
  · exact h.waitForAndExecuteMessage
  · split
    · exact h.waitForAndExecuteMessage
    · rw [applyBracketing]
      split
      · exact h.of_same rfl rfl rfl rfl
      · exact h.of_same rfl rfl rfl rfl

theorem thread (hthread : s.thread lost = some s') : s'.Accounted := by
  rw [BracketSession.thread] at hthread
  split at hthread
  · exact some.inj hthread ▸ h.threadLoop
  · split at hthread
    · obtain ⟨u, hu, rfl⟩ := map_eq_some_iff.mp hthread
      split at hu
      · exact (h.applyBracketingParams hu).of_same rfl rfl rfl rfl
      · obtain rfl := some.inj hu
        exact h.of_same rfl rfl rfl rfl
    · exact some.inj hthread ▸ h.skipped _
  · exact some.inj hthread ▸ h.skipGrab ..
  · exact h.recover hthread
  · obtain ⟨u, hu, rfl⟩ := map_eq_some_iff.mp hthread
    exact (h.applyBracketingParams hu).of_same rfl rfl rfl rfl
  · exact h.take hthread
  · exact h.recover hthread

theorem step {e : BracketEvent} (hstep : s.step e = some s') : s'.Accounted := by
  cases e with
  | thread lost => exact h.thread hstep
  | getSnapshot =>
    rw [BracketSession.step] at hstep
    split at hstep
    · rw [BracketSession.getSnapshot] at hstep
      split at hstep
      · exact h.fetch hstep
      · obtain rfl := some.inj hstep
        exact h.of_same rfl rfl rfl rfl
    · exact some.inj hstep ▸ h
  | answered =>
    rw [BracketSession.step] at hstep
    split at hstep
    · exact h.fetch hstep
    · exact some.inj hstep ▸ h
  | getNextAeConfig =>
    rw [BracketSession.step] at hstep
    split at hstep
    · obtain rfl := some.inj hstep
      exact h.of_same rfl rfl rfl rfl
    · exact some.inj hstep ▸ h

end

end Accounted

/-! ## Runs -/

/-- The client asks for the snapshots of the burst only. -/
def Asks (s : BracketSession α) (e : BracketEvent) : Prop :=
  e = .getSnapshot → s.mSnapshotReqNum < s.mBurstLength

instance (s : BracketSession α) (e : BracketEvent) : Decidable (s.Asks e) :=
  inferInstanceAs (Decidable (_ → _))

section Init

variable [LinearOrder α] {evMin evMax : α} {bracketValues : List α} {skip : ℕ}

/-- There is a start for every burst, and it has taken no frame. -/
theorem exists_init (hlength : 0 < bracketValues.length) (cpfLag cssMajorVersion : ℕ) :
    ∃ s : BracketSession α,
      init evMin evMax cpfLag cssMajorVersion bracketValues skip = some s ∧
      s.Bounded ∧ s.Accounted := by
  have hcount : 0 < (bracketValues.map (limitEv evMin evMax)).length := by rwa [length_map]
  rw [init, initBracketing, List.getElem?_eq_getElem hcount]
  dsimp only [map_some]
  split
  · refine ⟨_, rfl, ⟨rfl, le_rfl, fun _ => rfl, fun _ => hcount, fun hcapture => (by cases hcapture),
      fun hne => absurd rfl hne, fun hanswered => (by cases hanswered)⟩, .refl _, nodup_nil, ?_⟩
    exact fun frame hframe => absurd hframe not_mem_nil
  · refine ⟨_, rfl, ⟨rfl, le_rfl, fun _ => rfl, fun _ => hcount, fun hcapture => (by cases hcapture),
      fun hne => absurd rfl hne, fun hanswered => (by cases hanswered)⟩, .refl _, nodup_nil, ?_⟩
    exact fun frame hframe => absurd hframe not_mem_nil

end Init

/-- In a run in which the client asks for the snapshots of the burst, all buffers are accounted for, and
no step indexes an array behind its end. -/
theorem bounded_of_reach (hbounded : s.Bounded) (haccounted : s.Accounted)
    (hrun : Reach step Asks s t) : t.Bounded ∧ t.Accounted := by
  refine Reach.invariant (I := fun a => a.Bounded ∧ a.Accounted) hrun ⟨hbounded, haccounted⟩
    fun a e b ha hasks hstep => ?_
  obtain ⟨b', hb', hbounded'⟩ := ha.1.step e hasks
  obtain rfl : b = b' := some.inj (hstep.symm.trans hb')
  exact ⟨hbounded', ha.2.step hstep⟩

end BracketSession

end HardwareIntel.Camera
