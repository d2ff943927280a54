import HardwareIntel.Vpp.Agreement

/-!
# The time stamps of the output slots

The output slots of a task get the time stamp of its frame, less `1000000 * k / 60` microseconds where
`k` slots of the task follow. The value `-1` stands for no time stamp and is an error to
`updateRenderList`, also when it has been computed. `Spaced` leaves out the frames for which it is.
The thread hands a time stamp on from the input slot to the output slots, and no slot becomes `READY`
with `-1` as long as all frames are spaced for the factors that the run uses.
-/

namespace HardwareIntel.Vpp

open List Option

/-- No output slot gets the time stamp `-1` from a frame with this one, at factors up to `factor`. -/
def Spaced (factor : ℕ) (timeUs : ℤ) : Prop := ∀ k < factor, timeUs ≠ (1000000 * k / 60 : ℕ) - 1

instance (factor : ℕ) (timeUs : ℤ) : Decidable (Spaced factor timeUs) := Nat.decidableBallLT _ _

variable {factor : ℕ}

theorem Spaced.sub_ne {k : ℕ} {timeUs : ℤ} (h : Spaced factor timeUs) (hk : k < factor) :
    timeUs - (1000000 * k / 60 : ℕ) ≠ -1 := fun heq =>
  h k hk (by omega)

theorem Spaced.ne {timeUs : ℤ} (h : Spaced factor timeUs) (hpos : 0 < factor) : timeUs ≠ -1 := by
  simpa using h.sub_ne hpos

/-- A loaded frame is spaced. -/
def VPPBuffer.InputTimed (factor : ℕ) (b : VPPBuffer) : Prop :=
  b.mStatus = .loaded → Spaced factor b.mTimeUs

/-- An output slot has the time stamp of a spaced frame until it is `READY`, and then not `-1`. -/
structure VPPBuffer.OutputTimed (factor : ℕ) (b : VPPBuffer) : Prop where
  processing : b.mStatus = .processing → Spaced factor b.mTimeUs
  ready : b.mStatus = .ready → b.mTimeUs ≠ -1

/-- A status other than `PROCESSING` and `READY` makes no promise about the time stamp. -/
theorem VPPBuffer.OutputTimed.of_status {b : VPPBuffer} (hprocessing : b.mStatus ≠ .processing)
    (hready : b.mStatus ≠ .ready) : b.OutputTimed factor :=
  ⟨fun h => absurd h hprocessing, fun h => absurd h hready⟩

/-- It does not matter who has the buffer. -/
theorem VPPBuffer.OutputTimed.withOwner {b : VPPBuffer} (h : b.OutputTimed factor) (owner : Owner) :
    { b with owner := owner }.OutputTimed factor := ⟨h.processing, h.ready⟩

/-! ### All slots -/

namespace Slots

variable {P : VPPBuffer → Prop} {s : Slots} {factor : ℕ} {cells : List ℕ}

/-- Every slot has the property. -/
def All (P : VPPBuffer → Prop) (s : Slots) : Prop := ∀ i, P (s.buf i)

theorem All.set (h : s.All P) {b : VPPBuffer} (hb : P b) (i : ℕ) : (s.set i b).All P := by
  intro j
  by_cases hj : j = i
  · rwa [hj, buf_set_self]
  · rw [buf_set_of_ne hj]
    exact h j

theorem All.sweep (h : s.All P) (n : ℕ) {release : VPPBuffer → Bool}
    (hreset : ∀ b : VPPBuffer, P b.resetBuffer) : (s.sweep n release).All P := by
  intro i
  rw [buf_sweep]
  split
  · exact hreset _
  · exact h i

theorem All.giveSlots {timeUs : ℤ} (htime : Spaced factor timeUs) :
    ∀ {number : ℕ} {s : Slots}, s.All (VPPBuffer.OutputTimed factor) →
      (State.giveSlots timeUs cells number s).All (VPPBuffer.OutputTimed factor) := by
  induction cells with
  | nil => exact fun h => h
  | cons pos rest ih =>
    intro number s h
    exact ih (h.set ⟨fun _ => htime, by simp⟩ pos)

/-- The loop of a task that is finished. With three slots in the ring, a task of four has the first
slot a second time, as the last one: nothing is subtracted any more then. -/
theorem All.showFilled {fillBufNum : ℕ} :
    ∀ {s : Slots}, s.All (VPPBuffer.OutputTimed factor) → cells.length ≤ factor →
      cells.dropLast.Nodup → (∀ i ∈ cells.dropLast, s.status i = .processing) →
      (∀ i ∈ cells, s.status i = .processing ∨ s.status i = .ready) →
      (State.showFilled fillBufNum cells s).All (VPPBuffer.OutputTimed factor) := by
  induction cells with
  | nil => exact fun h _ _ _ _ => h
  | cons pos rest ih =>
    intro s h hlength hnodup hprocessing hstatus
    have hlt : rest.length < factor := hlength
    have htime : (s.buf pos).mTimeUs - (1000000 * rest.length / 60 : ℕ) ≠ -1 := by
      rcases hstatus pos mem_cons_self with hpos | hpos
      · exact ((h pos).processing hpos).sub_ne hlt
      · cases rest with
        | nil => simpa using (h pos).ready hpos
        | cons next rest =>
          have hfirst := hprocessing pos (mem_cons_self (l := (next :: rest).dropLast))
          rw [hpos] at hfirst
          cases hfirst
    have hstamp : (s.buf pos).mTimeUs ≠ -1 :=
      (hstatus pos mem_cons_self).elim
        (fun hpos => ((h pos).processing hpos).ne (Nat.zero_lt_of_lt hlt)) (h pos).ready
    refine ih (h.set ⟨by simp, fun _ => ?_⟩ pos) hlt.le ?_ (fun i hi => ?_)
      fun i hi => ?_
    · dsimp only
      split
      · exact htime
      · exact hstamp
    · cases rest with
      | nil => exact nodup_nil
      | cons next rest => exact (nodup_cons.mp hnodup).2
    · cases rest with
      | nil => exact absurd hi not_mem_nil
      | cons next rest =>
        have hne : i ≠ pos := fun heq => (nodup_cons.mp hnodup).1 (heq ▸ hi)
        rw [status, buf_set_of_ne hne]
        exact hprocessing i (mem_cons_of_mem _ hi)
    · by_cases hi' : i = pos
      · rw [hi', status, buf_set_self]
        exact Or.inr rfl
      · rw [status, buf_set_of_ne hi']
        exact hstatus i (mem_cons_of_mem _ hi)

end Slots

/-! ### The thread -/

namespace State

variable {cfg : Config} {s t : State} {factor : ℕ}

/-- Loaded frames are spaced, no slot is `READY` without a time stamp, and the frame rate factors are
the run's. -/
structure Timed (factor : ℕ) (s : State) : Prop where
  inputs : s.mInput.All (VPPBuffer.InputTimed factor)
  outputs : s.mOutput.All (VPPBuffer.OutputTimed factor)
  rate : s.worker.mFrcRate.value ≤ factor
  updated : s.thread.mFrcChange = true → s.worker.mUpdatedFrcRate.value ≤ factor

section

variable (h : s.Timed factor)
include h

theorem Timed.checkFrc {a : Answers}
    (hrate : s.thread.mNeedCheckFrc = true → a.frcRate.value ≤ factor) :
    (s.checkFrc a).Timed factor := by
  rw [State.checkFrc]
  split
  · rename_i hneed
    split
    · exact { h with updated := fun _ => hrate hneed }
    · exact { h with }
  · exact h

/-- The input slot of a task is not loaded any more. -/
theorem Timed.releaseInput : (s.releaseInput cfg).Timed factor := by
  rw [State.releaseInput]
  split
  · exact { h with }
  · exact ⟨h.inputs.set (by simp [VPPBuffer.InputTimed]) _, h.outputs, h.rate, h.updated⟩

theorem Timed.filled : s.filled.Timed factor :=
  { h with }

theorem Timed.takeEndFlag : s.takeEndFlag.Timed factor := by
  have houtputs : s.takeEndFlag.mOutput.All (VPPBuffer.OutputTimed factor) :=
    h.outputs.set (.of_status (by simp) (by simp)) _
  have hchange : s.takeEndFlag.thread.mFrcChange = s.thread.mFrcChange := by
    rw [State.takeEndFlag]
    split <;> rfl
  exact ⟨h.inputs, houtputs, h.rate, fun hchanged => h.updated (hchange ▸ hchanged)⟩

/-- The new factor is one of the run's. -/
theorem Timed.completeFlush : s.completeFlush.Timed factor := by
  refine ⟨h.inputs, h.outputs, ?_, by simp [State.completeFlush]⟩
  rw [State.completeFlush]
  split
  · rename_i hchange
    exact h.updated hchange.1
  · exact h.rate

end

/-- The slots that `fill` is called for are in processing, or there is the end flag. -/
theorem getBufForFirmwareOutput_eq_some {l : List ℕ}
    (h : s.getBufForFirmwareOutput cfg = some l) :
    s.mOutput.status s.thread.mOutputFillIdx = .endFlag ∨
      l = ring cfg.mOutputBufferNum s.thread.mOutputFillIdx l.length ∧ l.length ≤ 4 ∧
        l.length = s.worker.getFillBufCount ∧ ∀ i ∈ l, s.mOutput.status i = .processing := by
  by_cases hflag : s.mOutput.status s.thread.mOutputFillIdx = .endFlag
  · exact Or.inl hflag
  · right
    obtain ⟨hnum, hrest⟩ := ite_none_left_eq_some.mp h
    rw [if_neg hflag] at hrest
    obtain ⟨hall, hl⟩ := ite_none_right_eq_some.mp hrest
    obtain rfl := some.inj hl
    rw [length_ring]
    exact ⟨rfl, not_lt.mp (not_or.mp hnum).2, rfl, hall⟩

/-- Nothing is to be given back. -/
theorem finishTask_of_other {n : ℕ} (heq : s.filled.releaseInput cfg = t)
    (hend : t.mOutput.status t.thread.mOutputFillIdx ≠ .endFlag)
    (hprocessing : t.mOutput.status t.thread.mOutputFillIdx ≠ .processing) :
    s.finishTask cfg n = t := by
  rw [finishTask_eq, updateFirmwareOutputBufStatus, heq]
  cases hstatus : t.mOutput.status t.thread.mOutputFillIdx with
  | endFlag => exact absurd hstatus hend
  | processing => exact absurd hstatus hprocessing
  | free | ready | loaded | rendering => simp only

/-- The worker gives a task back. -/
theorem Timed.finishTask (h : s.Timed factor) (hslots : 3 ≤ cfg.mOutputBufferNum) {l : List ℕ}
    (hbuf : s.getBufForFirmwareOutput cfg = some l) :
    (s.finishTask cfg l.length).Timed factor := by
  have hu : (s.filled.releaseInput cfg).Timed factor := h.filled.releaseInput
  have hout : (s.filled.releaseInput cfg).mOutput = s.mOutput ∧
      (s.filled.releaseInput cfg).thread.mOutputFillIdx = s.thread.mOutputFillIdx := by
    rw [State.releaseInput]
    split <;> exact ⟨rfl, rfl⟩
  generalize heq : s.filled.releaseInput cfg = u at hu hout
  by_cases hend : u.mOutput.status u.thread.mOutputFillIdx = .endFlag
  · rw [finishTask_of_endFlag heq hend]
    exact hu.takeEndFlag.completeFlush
  · by_cases hprocessing : u.mOutput.status u.thread.mOutputFillIdx = .processing
    · rw [finishTask_of_processing heq hprocessing]
      rw [hout.1, hout.2] at hend
      obtain ⟨hring, hfour, hcount, hall⟩ :=
        (getBufForFirmwareOutput_eq_some hbuf).resolve_left hend
      rw [← hout.1] at hall
      refine { hu with outputs := ?_ }
      rw [State.takeFilled, hout.2]
      rw [← hring]
      refine hu.outputs.showFilled ?_ ?_ (fun i hi => hall i (mem_of_mem_dropLast hi))
        fun i hi => Or.inl (hall i hi)
      · exact hcount.trans_le ((Worker.getOutputBufCount_le ..).trans h.rate)
      · rw [hring]
        exact nodup_dropLast_ring (by omega)
    · rw [finishTask_of_other heq hend hprocessing]
      exact hu

theorem Timed.fillTasks (hslots : 3 ≤ cfg.mOutputBufferNum) {fills : List FillStatus}
    {bPending : Bool} (h : s.Timed factor) (ht : s.fillTasks cfg fills bPending = some t) :
    t.Timed factor :=
  fillTasks_rule (fun hs _ hbuf => hs.finishTask hslots hbuf) h ht

/-- The output slots of a task get the time stamp of its frame. -/
theorem Timed.handFrame (h : s.Timed factor) (procBufNum : ℕ)
    (hloaded : s.mInput.status s.thread.mInputProcIdx = .loaded) :
    (s.handFrame cfg procBufNum).Timed factor :=
  ⟨h.inputs.set (by simp [VPPBuffer.InputTimed]) _,
    h.outputs.giveSlots (h.inputs s.thread.mInputProcIdx hloaded), h.rate, h.updated⟩

theorem Timed.handEndFlag (h : s.Timed factor) : s.handEndFlag.Timed factor :=
  ⟨h.inputs, h.outputs.set (.of_status (by simp) (by simp)) _, h.rate, h.updated⟩

/-- Without a flush there is a loaded frame. -/
theorem Timed.processNext (h : s.Timed factor) (process : Bool) :
    (s.processNext cfg process).Timed factor := by
  rw [State.processNext]
  split
  · rename_i hgo
    generalize hbFlush : ((!decide (s.mInput.status s.thread.mInputProcIdx = .loaded) &&
      (s.thread.mEOS || s.thread.mSeek) || s.thread.mFrcChange) &&
        !s.thread.mbFlushPipelineInProcessing) = bFlush at hgo
    cases hbuf : s.getBufForFirmwareInput cfg bFlush with
    | none => exact h
    | some procBufNum =>
      cases process with
      | false => exact h
      | true =>
        cases bFlush with
        | true => exact h.handEndFlag
        | false =>
          refine h.handFrame procBufNum ?_
          simp only [Bool.or_false, Bool.and_eq_true, decide_eq_true_eq] at hgo
          exact hgo.1.1
  · exact h

theorem Timed.threadLoop (h : s.Timed factor) (hslots : 3 ≤ cfg.mOutputBufferNum) {a : Answers}
    (hrate : s.thread.mNeedCheckFrc = true → a.frcRate.value ≤ factor)
    (ht : s.threadLoop cfg a = some t) : t.Timed factor := by
  obtain ⟨u, hu, rfl⟩ := map_eq_some_iff.mp ht
  exact ((h.checkFrc hrate).fillTasks hslots hu).processNext a.process

/-! ### The player -/

theorem all_release {out : Slots} (h : out.All (VPPBuffer.OutputTimed factor)) (e : Entry) :
    (release out e).All (VPPBuffer.OutputTimed factor) := by
  rw [release]
  split
  · exact h
  · exact h.set (.of_status (by simp [VPPBuffer.resetBuffer]) (by simp [VPPBuffer.resetBuffer])) _

/-- A slot that is shown or dropped is not `READY` any more. -/
theorem Timed.placeOutput (h : s.Timed factor) (pos : ℕ) (before after : List Entry) :
    (s.placeOutput pos before after).Timed factor := by
  have hset : ∀ {out : Slots}, out.All (VPPBuffer.OutputTimed factor) →
      (out.set pos { out.buf pos with mStatus := .rendering }).All
        (VPPBuffer.OutputTimed factor) :=
    fun hout => hout.set (.of_status (by simp) (by simp)) _
  have hdropped : ∀ e, { s with mOutput := release s.mOutput e }.Timed factor := fun e =>
    { h with outputs := all_release h.outputs e }
  cases after with
  | nil => exact hdropped _
  | cons e rest =>
    simp only [State.placeOutput]
    split_ifs
    · exact hdropped _
    · exact { h with outputs := hset (all_release h.outputs e) }
    · exact { h with outputs := hset h.outputs }
    · exact hdropped _

theorem Timed.renderOutputs {fuel : ℕ} :
    ∀ {s : State}, s.Timed factor → (s.renderOutputs cfg fuel).1.Timed factor := by
  induction fuel with
  | zero => exact fun h => h
  | succ fuel ih =>
    intro s h
    rw [State.renderOutputs]
    split
    · cases hrender : s.renderOutput cfg with
      | none => exact h
      | some t =>
        obtain ⟨⟨before, after⟩, -, rfl⟩ :=
          map_eq_some_iff.mp (ite_none_left_eq_some.mp hrender).2
        have hplaced := h.placeOutput s.mOutputLoadPoint before after
        exact ih { hplaced with }
    · exact h

theorem Timed.setDecoderBufferToVPP (h : s.Timed factor) {timeUs : ℤ}
    (hspaced : Spaced factor timeUs) : (s.setDecoderBufferToVPP cfg timeUs).Timed factor := by
  rw [State.setDecoderBufferToVPP]
  split
  · exact { h with inputs := h.inputs.set (fun _ => hspaced) _ }
  · exact { h with }

theorem Timed.clearInput (h : s.Timed factor) : (s.clearInput cfg).Timed factor :=
  ⟨h.inputs.sweep _ fun b => by simp [VPPBuffer.InputTimed, VPPBuffer.resetBuffer], h.outputs,
    h.rate, h.updated⟩

/-- The buffer that `read` takes has the status that it had. -/
theorem Timed.read (h : s.Timed factor) : s.read.Timed factor := by
  rw [State.read]
  split
  · split <;> exact { h with }
  · exact { h with }
  · exact { h with outputs := h.outputs.set ((h.outputs _).withOwner _) _ }

theorem Timed.signalBufferReturned (h : s.Timed factor) (pos : ℕ) (rendered dequeued : Bool) :
    (s.signalBufferReturned pos rendered dequeued).Timed factor := by
  rw [State.signalBufferReturned]
  split
  · exact { h with outputs := h.outputs.set ((h.outputs pos).withOwner _) _ }
  · exact ⟨h.inputs, h.outputs.set (.of_status (by simp [VPPBuffer.resetBuffer])
      (by simp [VPPBuffer.resetBuffer])) _, h.rate, h.updated⟩

end State


end HardwareIntel.Vpp
