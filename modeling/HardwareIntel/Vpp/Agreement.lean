import HardwareIntel.Vpp.Rings
import Mathlib.Algebra.BigOperators.Group.Finset.Basic

/-!
# The player and the thread agree

The player and the thread agree about the rings as long as both go on from where the other one is.
They do not while the player waits in `seek`, and after an end of stream, when the thread has gone
back to the first slots and the player has not. `Ordered` says what still holds then. It is kept by
every iteration of the thread: each task that is given back and each that is handed out is one
operation of the two rings.
-/

namespace HardwareIntel.Vpp

open Option

open Isv (FrcRate)

/-! ### How many output slots a task has -/

namespace Worker

variable {w : Worker} {k : ℕ}

theorem getOutputBufCount_pos (w : Worker) (index : BitVec 32) : 0 < w.getOutputBufCount index := by
  rw [getOutputBufCount]
  split
  · cases w.mFrcRate <;> simp [FrcRate.value]
    omega
  · exact Nat.one_pos

theorem getOutputBufCount_le (w : Worker) (index : BitVec 32) :
    w.getOutputBufCount index ≤ w.mFrcRate.value := by
  rw [getOutputBufCount]
  split
  · exact Nat.sub_le ..
  · cases w.mFrcRate <;> simp [FrcRate.value]

/-- The output slots of the next `k` tasks that the worker gives back. -/
def taskSlots (w : Worker) (k : ℕ) : ℕ :=
  ∑ i ∈ Finset.range k, w.getOutputBufCount (w.mOutputIndex + BitVec.ofNat 32 i)

@[simp] theorem taskSlots_zero : w.taskSlots 0 = 0 := rfl

theorem taskSlots_succ (w : Worker) (k : ℕ) :
    w.taskSlots (k + 1) =
      w.taskSlots k + w.getOutputBufCount (w.mOutputIndex + BitVec.ofNat 32 k) :=
  Finset.sum_range_succ ..

theorem index_succ (index : BitVec 32) (k : ℕ) :
    index + BitVec.ofNat 32 (k + 1) = index + 1 + BitVec.ofNat 32 k := by
  rw [BitVec.ofNat_add, BitVec.add_comm (BitVec.ofNat 32 k), BitVec.add_assoc]
  rfl

/-- The first of the tasks is given back. -/
theorem taskSlots_fill (w : Worker) (k : ℕ) :
    w.taskSlots (k + 1) =
      w.getFillBufCount + { w with mOutputIndex := w.mOutputIndex + 1 }.taskSlots k := by
  rw [taskSlots, Finset.sum_range_succ', Nat.add_comm]
  congr 1
  · simp [getFillBufCount]
  · refine Finset.sum_congr rfl fun i _ => ?_
    rw [index_succ]
    rfl

end Worker

/-! ### The invariant -/

/-- The output slots whose buffers are in the render list. -/
def slotsOf (l : List Entry) : List ℕ := l.filterMap Entry.slot

/-- The slots in the render list are rendered, each once; while the player waits in `seek`, they have
been released but are still listed. -/
structure Listed (m : ℕ) (out : Slots) (l : List Entry) (seeking : Bool) : Prop where
  nodup : (slotsOf l).Nodup
  lt : ∀ i ∈ slotsOf l, i < m
  vpp : ∀ i ∈ slotsOf l, out.owner i = .vpp
  rendering : seeking = false → ∀ i ∈ slotsOf l, out.status i = .rendering

/-- Slots that are not rendered are not listed. -/
theorem Listed.of_moved {m : ℕ} {out t : Slots} {l : List Entry} {seeking : Bool} {cells : List ℕ}
    {new : VPPBufferStatus} (h : Listed m out l seeking) (hmoved : Slots.Moved cells new out t)
    (howner : t.owner = out.owner) (hcells : ∀ i ∈ cells, out.status i ≠ .rendering) :
    Listed m t l seeking where
  nodup := h.nodup
  lt := h.lt
  vpp := howner ▸ h.vpp
  rendering hseeking i hi := by
    have hrendering := h.rendering hseeking i hi
    rw [hmoved.of_notMem i fun hmem => hcells i hmem hrendering, hrendering]

namespace State

/-- The slots that are kept as a reference after their task. -/
def kept (s : State) : ℕ := if s.thread.mFirstInputFrame then 0 else 1

/-- The player is not where the thread is. -/
def Apart (s : State) : Prop := s.ended = true ∨ s.seeking = true

/-- The thread has flushed the pipeline and gone back to the first slots. -/
structure Drained (s : State) (tasks waiting : ℕ) : Prop where
  tasks : tasks = 0
  waiting : waiting = 0
  first : s.thread.mFirstInputFrame = true
  inputFill : s.thread.mInputFillIdx = 0
  outputFill : s.thread.mOutputFillIdx = 0
  apart : s.Apart

/-- The thread has done what `seek` waits for, and has nothing else to do. -/
structure Parked (s : State) (tasks waiting : ℕ) : Prop where
  drained : s.Drained tasks waiting
  flush : s.thread.mbFlushPipelineInProcessing = false
  eos : s.thread.mEOS = false
  frcChange : s.thread.mFrcChange = false
  needCheck : s.thread.mNeedCheckFrc = false

/-- The number of tasks, and the indices of the worker. -/
structure Counted (cfg : Config) (s : State) (tasks : ℕ) : Prop where
  number : s.thread.mNumTaskInProcesing =
    tasks + if s.thread.mbFlushPipelineInProcessing then 1 else 0
  index : s.thread.mbFlushPipelineInProcessing = false →
    s.worker.mInputIndex = s.worker.mOutputIndex + BitVec.ofNat 32 tasks
  rate : s.worker.mFrcRate.value + 1 ≤ cfg.mOutputBufferNum
  updated : s.thread.mFrcChange = true →
    s.worker.mUpdatedFrcRate.value + 1 ≤ cfg.mOutputBufferNum

/-- Why the thread is told to flush the pipeline, and what waits meanwhile. -/
structure Flagged (s : State) (waiting : ℕ) : Prop where
  flushing : s.thread.mbFlushPipelineInProcessing = true →
    s.thread.mFrcChange = true ∨ s.thread.mEOS = true ∨ s.thread.mSeek = true
  idle : s.thread.mbFlushPipelineInProcessing = true → s.Apart → waiting = 0
  ended : s.ended = true → s.thread.mFrcChange = false ∧ s.thread.mNeedCheckFrc = false
  seeking : s.seeking = true → waiting = 0
  eos : s.thread.mEOS = true → s.Apart
  seek : s.thread.mSeek = true → s.seeking = true

/-- The invariant: `tasks` are at the worker, `waiting` frames are loaded, and `shown` slots from
`start` on are `READY`. -/
structure Ordered (cfg : Config) (s : State) (tasks waiting start shown : ℕ) : Prop where
  inputs : InputRing cfg.mInputBufferNum s.mInput s.thread.mInputFillIdx s.thread.mInputProcIdx
    (tasks + s.kept) waiting s.handed s.mInputCount
  outputs : OutputRing cfg.mOutputBufferNum s.mOutput s.thread.mOutputFillIdx
    s.thread.mOutputProcIdx (s.worker.taskSlots tasks) start shown
    s.thread.mbFlushPipelineInProcessing s.given s.readied
  listed : Listed cfg.mOutputBufferNum s.mOutput s.mRenderList s.seeking
  counted : s.Counted cfg tasks
  flagged : s.Flagged waiting
  parked : s.seeking = true → s.thread.mSeek = false → s.Parked tasks waiting
  loadPoint : ¬s.Apart → s.mInputLoadPoint = (s.thread.mInputProcIdx + waiting) % cfg.mInputBufferNum
  showPoint : s.seeking = false → start = s.mOutputLoadPoint
  sync : s.thread.mOutputFillIdx = (start + shown) % cfg.mOutputBufferNum ∨
    s.Drained tasks waiting

variable {cfg : Config} {s t : State} {tasks waiting start shown : ℕ}

/-! ### The thread -/

/-- A new frame rate is only looked for while the player and the thread agree or a seek has just
begun. -/
theorem Ordered.checkFrc (h : s.Ordered cfg tasks waiting start shown) {a : Answers}
    (hfit : s.thread.mNeedCheckFrc = true → a.frcRate.value + 1 ≤ cfg.mOutputBufferNum) :
    (s.checkFrc a).Ordered cfg tasks waiting start shown := by
  rw [State.checkFrc]
  split
  · rename_i hneed
    have hended : s.ended = false := by
      by_contra hended
      simp [(h.flagged.ended (by simpa using hended)).2] at hneed
    have hparked : ∀ {P : Prop}, s.seeking = true → s.thread.mSeek = false → P := fun hseeking hseek =>
      absurd (h.parked hseeking hseek).needCheck (by simp [hneed])
    split
    · exact { h with
        counted := { h.counted with updated := fun _ => hfit hneed }
        flagged := { h.flagged with
          flushing := fun _ => .inl rfl
          ended := fun heq => absurd heq (by simp [hended]) }
        parked := hparked
        sync := h.sync.imp id fun hd => { hd with } }
    · exact { h with
        counted := { h.counted with }
        flagged := { h.flagged with ended := fun heq => absurd heq (by simp [hended]) }
        parked := hparked
        sync := h.sync.imp id fun hd => { hd with } }
  · exact h

/-- The input slot of a task is released, or kept if it is the first one. -/
theorem releaseInput_eq {k : ℕ}
    (h : InputRing cfg.mInputBufferNum s.mInput s.thread.mInputFillIdx s.thread.mInputProcIdx
      (k + s.kept) waiting s.handed s.mInputCount) :
    ∃ ins fill, s.releaseInput cfg = { s with
        mInput := ins
        thread := { s.thread with mFirstInputFrame := false, mInputFillIdx := fill } } ∧
      InputRing cfg.mInputBufferNum ins fill s.thread.mInputProcIdx k waiting s.handed
        s.mInputCount := by
  rw [releaseInput]
  rcases hfirst : s.thread.mFirstInputFrame with _ | _
  · rw [kept, if_neg (by simp [hfirst])] at h
    refine ⟨_, _, by simp [hfirst], h.giveBack (b := { s.mInput.buf s.thread.mInputFillIdx with
      mStatus := .ready }) rfl rfl⟩
  · rw [kept, if_pos hfirst] at h
    exact ⟨_, _, rfl, h⟩

/-- The worker has made a task ready. -/
def filled (s : State) : State :=
  { s with
    worker := { s.worker with mOutputIndex := s.worker.mOutputIndex + 1 }
    thread := { s.thread with mNumTaskInProcesing := s.thread.mNumTaskInProcesing - 1 } }

theorem finishTask_eq (n : ℕ) :
    s.finishTask cfg n =
      match s.filled.updateFirmwareOutputBufStatus cfg n with
      | (s, true) => s.completeFlush
      | (s, false) => s :=
  rfl

theorem finishTask_of_processing {n : ℕ} (heq : s.filled.releaseInput cfg = t)
    (hstatus : t.mOutput.status t.thread.mOutputFillIdx = .processing) :
    s.finishTask cfg n = t.takeFilled cfg n := by
  rw [finishTask_eq, updateFirmwareOutputBufStatus, heq]
  simp [hstatus]

theorem finishTask_of_endFlag {n : ℕ} (heq : s.filled.releaseInput cfg = t)
    (hstatus : t.mOutput.status t.thread.mOutputFillIdx = .endFlag) :
    s.finishTask cfg n = t.takeEndFlag.completeFlush := by
  rw [finishTask_eq, updateFirmwareOutputBufStatus, heq]
  simp [hstatus]

/-- The slot at the fill index belongs to a task, if there is one. -/
theorem Ordered.status_fill (h : s.Ordered cfg (tasks + 1) waiting start shown) :
    s.mOutput.status s.thread.mOutputFillIdx = .processing := by
  refine h.outputs.processing.status_of_mem (List.mem_map.mpr ⟨0, List.mem_range.mpr ?_, ?_⟩)
  · rw [Worker.taskSlots_fill]
    exact Nat.add_pos_left (Worker.getOutputBufCount_pos ..) _
  · exact Nat.mod_eq_of_lt h.outputs.fill_lt

/-- The worker gives the oldest task back. -/
theorem Ordered.finishTask (h : s.Ordered cfg (tasks + 1) waiting start shown) :
    (s.finishTask cfg s.worker.getFillBufCount).Ordered cfg tasks waiting start
      (shown + s.worker.getFillBufCount) := by
  have hfill : s.thread.mOutputFillIdx = (start + shown) % cfg.mOutputBufferNum :=
    h.sync.resolve_right fun hd => absurd hd.tasks (Nat.succ_ne_zero _)
  have houtputs := h.outputs
  rw [Worker.taskSlots_fill] at houtputs
  obtain ⟨ins, fill, heq, hinputs⟩ := releaseInput_eq (s := s.filled) h.inputs
  rw [finishTask_of_processing heq h.status_fill]
  exact { h with
    inputs := hinputs
    outputs := houtputs.showFilled hfill _
    listed := h.listed.of_moved (Slots.moved_showFilled _) (Slots.owner_showFilled _) fun i hi => by
      have hmem : i ∈ ring cfg.mOutputBufferNum s.thread.mOutputFillIdx
          (s.worker.taskSlots (tasks + 1)) := by
        rw [Worker.taskSlots_fill, ring_append]
        exact List.mem_append_left _ hi
      simp [h.outputs.processing.status_of_mem hmem]
    counted := {
      number := by
        have hnumber := h.counted.number
        change s.thread.mNumTaskInProcesing - 1 = tasks + _
        rw [hnumber, Nat.add_right_comm, Nat.add_sub_cancel]
        rfl
      index := fun hflush => (h.counted.index hflush).trans (Worker.index_succ ..)
      rate := h.counted.rate
      updated := h.counted.updated }
    flagged := { h.flagged with }
    parked := fun hseeking hseek =>
      absurd (h.parked hseeking hseek).drained.tasks (Nat.succ_ne_zero _)
    sync := .inl (by
      change (s.thread.mOutputFillIdx + _) % _ = _
      rw [hfill, Nat.mod_add_mod, Nat.add_assoc]) }

theorem takeEndFlag_of_pos (h : (s.thread.mEOS || s.thread.mSeek) = true) :
    s.takeEndFlag = { s with
      mOutput := s.mOutput.set s.thread.mOutputFillIdx
        { s.mOutput.buf s.thread.mOutputFillIdx with mStatus := .free }
      thread := { s.thread with
        mFirstInputFrame := true
        mInputFillIdx := 0
        mOutputFillIdx := 0
        mInputProcIdx := 0
        mOutputProcIdx := 0 } } := by
  rw [takeEndFlag, if_pos h]

theorem takeEndFlag_of_neg (h : (s.thread.mEOS || s.thread.mSeek) = false) :
    s.takeEndFlag = { s with
      mOutput := s.mOutput.set s.thread.mOutputFillIdx
        { s.mOutput.buf s.thread.mOutputFillIdx with mStatus := .free }
      thread := { s.thread with mFirstInputFrame := true } } := by
  rw [takeEndFlag, if_neg (by simp [h])]

/-- The worker starts again with a frame rate that the output slots suffice for. -/
theorem counted_completeFlush (hnumber : s.thread.mNumTaskInProcesing = 0)
    (hrate : s.worker.mFrcRate.value + 1 ≤ cfg.mOutputBufferNum)
    (hupdated : s.thread.mFrcChange = true →
      s.worker.mUpdatedFrcRate.value + 1 ≤ cfg.mOutputBufferNum) :
    s.completeFlush.Counted cfg 0 where
  number := hnumber
  index _ := rfl
  rate := by
    rw [completeFlush]
    split
    · rename_i hchange
      exact hupdated hchange.1
    · exact hrate
  updated h := by simp [completeFlush] at h

/-- With nothing but the end flag at the worker, it comes back and the pipeline is flushed. -/
theorem Ordered.finishFlush (h : s.Ordered cfg 0 waiting start shown)
    (hneed : s.thread.mNeedCheckFrc = false)
    (hflush : s.thread.mbFlushPipelineInProcessing = true) {n : ℕ} :
    (s.finishTask cfg n).Ordered cfg 0 waiting start shown := by
  have hproc : s.thread.mOutputFillIdx = s.thread.mOutputProcIdx := by
    rw [h.outputs.proc_eq, Worker.taskSlots_zero, Nat.add_zero, Nat.mod_eq_of_lt h.outputs.fill_lt]
  have hend : s.mOutput.status s.thread.mOutputFillIdx = .endFlag :=
    (h.outputs.endFlag _ h.outputs.fill_lt).mpr ⟨hflush, hproc⟩
  obtain ⟨ins, fill, heq, hinputs⟩ := releaseInput_eq (s := s.filled) h.inputs
  rw [finishTask_of_endFlag heq hend]
  have houtputs := h.outputs
  rw [hflush] at houtputs
  replace houtputs := houtputs.takeEnd (b := { s.mOutput.buf s.thread.mOutputFillIdx with
    mStatus := .free }) rfl rfl rfl
  have hlisted := h.listed.of_moved (t := s.mOutput.set s.thread.mOutputFillIdx
    { s.mOutput.buf s.thread.mOutputFillIdx with mStatus := .free }) (Slots.moved_set rfl)
    (Slots.owner_set rfl) (by simp [hend])
  have hnumber : s.thread.mNumTaskInProcesing - 1 = 0 := by
    rw [h.counted.number, if_pos hflush]
  rcases hback : s.thread.mEOS || s.thread.mSeek with _ | _
  · rw [takeEndFlag_of_neg (by exact hback)]
    obtain ⟨heos, hseek⟩ := Bool.or_eq_false_iff.mp hback
    have hchange : s.thread.mFrcChange = true := by
      simpa [heos, hseek] using h.flagged.flushing hflush
    have hended : s.ended = false := by
      by_contra hended
      simp [(h.flagged.ended (by simpa using hended)).1] at hchange
    have hseeking : s.seeking = false := by
      by_contra hseeking
      simp [(h.parked (by simpa using hseeking) hseek).frcChange] at hchange
    exact { h with
      inputs := hinputs
      outputs := houtputs
      listed := hlisted
      counted := counted_completeFlush hnumber h.counted.rate h.counted.updated
      flagged := {
        flushing := fun hfalse => absurd hfalse (by simp [completeFlush])
        idle := fun hfalse => absurd hfalse (by simp [completeFlush])
        ended := fun _ => ⟨rfl, hneed⟩
        seeking := h.flagged.seeking
        eos := fun hfalse => absurd hfalse (by simp [completeFlush])
        seek := fun hfalse => absurd hfalse (by simp [completeFlush]) }
      parked := fun htrue => absurd (hseeking.symm.trans htrue) (by simp)
      sync := h.sync.imp_right fun hd => absurd hd.apart (by simp [Apart, hended, hseeking]) }
  · rw [takeEndFlag_of_pos (by exact hback)]
    have hapart : s.Apart := ((Bool.or_eq_true_iff.mp hback).elim h.flagged.eos
      fun hseek => .inr (h.flagged.seek hseek))
    obtain rfl : waiting = 0 := h.flagged.idle hflush hapart
    have hdrained : (completeFlush { s.filled with
        mInput := ins
        mOutput := s.mOutput.set s.thread.mOutputFillIdx
          { s.mOutput.buf s.thread.mOutputFillIdx with mStatus := .free }
        thread := { s.filled.thread with
          mFirstInputFrame := true
          mInputFillIdx := 0
          mOutputFillIdx := 0
          mInputProcIdx := 0
          mOutputProcIdx := 0 } }).Drained 0 0 := ⟨rfl, rfl, rfl, rfl, rfl, hapart⟩
    exact {
      inputs := hinputs.restart
      outputs := houtputs.restart
      listed := hlisted
      counted := counted_completeFlush hnumber h.counted.rate h.counted.updated
      flagged := {
        flushing := fun hfalse => absurd hfalse (by simp [completeFlush])
        idle := fun _ _ => rfl
        ended := fun _ => ⟨rfl, hneed⟩
        seeking := fun _ => rfl
        eos := fun hfalse => absurd hfalse (by simp [completeFlush])
        seek := fun hfalse => absurd hfalse (by simp [completeFlush]) }
      parked := fun _ _ => ⟨hdrained, rfl, rfl, rfl, hneed⟩
      loadPoint := fun hnot => absurd hapart hnot
      showPoint := h.showPoint
      sync := .inr hdrained }

theorem needCheck_releaseInput (cfg : Config) (s : State) :
    (s.releaseInput cfg).thread.mNeedCheckFrc = s.thread.mNeedCheckFrc := by
  rw [releaseInput]
  split <;> rfl

theorem needCheck_finishTask {n : ℕ} :
    (s.finishTask cfg n).thread.mNeedCheckFrc = s.thread.mNeedCheckFrc := by
  refine Eq.trans ?_ (needCheck_releaseInput cfg s.filled)
  rw [finishTask_eq, updateFirmwareOutputBufStatus]
  generalize s.filled.releaseInput cfg = u
  cases u.mOutput.status u.thread.mOutputFillIdx with
  | endFlag =>
    change u.takeEndFlag.thread.mNeedCheckFrc = _
    rw [takeEndFlag]
    split <;> rfl
  | _ => rfl

/-- The invariant for some numbers of slots. -/
def Consistent (cfg : Config) (s : State) : Prop :=
  ∃ tasks waiting start shown, s.Ordered cfg tasks waiting start shown

/-- A task that is finished, whatever it is. -/
theorem Consistent.finishTask (h : s.Consistent cfg) (hneed : s.thread.mNeedCheckFrc = false)
    (hpos : 0 < s.thread.mNumTaskInProcesing) {fillBufList : List ℕ}
    (hbuf : s.getBufForFirmwareOutput cfg = some fillBufList) :
    (s.finishTask cfg fillBufList.length).Consistent cfg := by
  obtain ⟨tasks, waiting, start, shown, h⟩ := h
  cases tasks with
  | zero =>
    have hflush : s.thread.mbFlushPipelineInProcessing = true := by
      by_contra hflush
      simp [h.counted.number, hflush] at hpos
    exact ⟨_, _, _, _, h.finishFlush hneed hflush⟩
  | succ tasks =>
    have hlength : fillBufList.length = s.worker.getFillBufCount := by
      have hlist := (ite_none_left_eq_some.mp hbuf).2
      rw [if_neg (by simp [h.status_fill])] at hlist
      rw [← some.inj (ite_none_right_eq_some.mp hlist).2, length_ring]
    rw [hlength]
    exact ⟨_, _, _, _, h.finishTask⟩

/-- The first loop of `threadLoop`, by induction on the results of `fill`. -/
theorem fillTasks_rule {P : State → Prop} (hfinish : ∀ {s l}, P s →
      0 < s.thread.mNumTaskInProcesing → s.getBufForFirmwareOutput cfg = some l →
        P (s.finishTask cfg l.length)) {fills : List FillStatus} :
    ∀ {bPending : Bool} {s : State}, P s → s.fillTasks cfg fills bPending = some t → P t := by
  induction fills with
  | nil =>
    intro bPending s h ht
    rw [State.fillTasks] at ht
    split at ht
    · cases hbuf : s.getBufForFirmwareOutput cfg with
      | none => exact some.inj (hbuf ▸ ht) ▸ h
      | some l => simp [hbuf] at ht
    · exact some.inj ht ▸ h
  | cons fill fills ih =>
    intro bPending s h ht
    rw [State.fillTasks] at ht
    split at ht
    · rename_i hgo
      cases hbuf : s.getBufForFirmwareOutput cfg with
      | none =>
        simp only [hbuf, some.injEq] at ht
        exact ht ▸ h
      | some l =>
        simp only [hbuf] at ht
        cases fill with
        | ok => exact ih (hfinish h hgo.1 hbuf) ht
        | dataRendering => exact ih h ht
    · exact some.inj ht ▸ h

theorem Consistent.fillTasks {fills : List FillStatus} {bPending : Bool} (h : s.Consistent cfg)
    (hneed : s.thread.mNeedCheckFrc = false) (ht : s.fillTasks cfg fills bPending = some t) :
    t.Consistent cfg := by
  have hrule := @fillTasks_rule cfg t (fun s => s.Consistent cfg ∧ s.thread.mNeedCheckFrc = false)
    (fun hs hpos hbuf => ⟨hs.1.finishTask hs.2 hpos hbuf, needCheck_finishTask.trans hs.2⟩)
  exact (hrule ⟨h, hneed⟩ ht).1

/-! ### What the worker is given -/

/-- The next frame goes to the worker. -/
theorem Ordered.handFrame (h : s.Ordered cfg tasks waiting start shown)
    (hloaded : s.mInput.status s.thread.mInputProcIdx = .loaded)
    (hflush : s.thread.mbFlushPipelineInProcessing = false)
    (hfree : ∀ i ∈ ring cfg.mOutputBufferNum s.thread.mOutputProcIdx s.worker.getProcBufCount,
      s.mOutput.status i = .free) :
    (s.handFrame cfg s.worker.getProcBufCount).Consistent cfg := by
  obtain ⟨k, rfl⟩ : ∃ k, waiting = k + 1 := by
    have hmem := h.inputs.loaded.mem h.inputs.proc_lt hloaded
    exact Nat.exists_eq_succ_of_ne_zero (by rintro rfl; simp at hmem)
  have hcount : s.worker.getProcBufCount + 1 ≤ cfg.mOutputBufferNum :=
    (Nat.succ_le_succ (Worker.getOutputBufCount_le ..)).trans h.counted.rate
  have houtputs := h.outputs
  rw [hflush] at houtputs
  replace houtputs := houtputs.give (Nat.le_of_succ_le hcount) hfree
    (s.mInput.buf s.thread.mInputProcIdx).mTimeUs
  have hslots : s.worker.taskSlots (tasks + 1) =
      s.worker.taskSlots tasks + s.worker.getProcBufCount := by
    rw [Worker.taskSlots_succ, ← h.counted.index hflush]
    rfl
  have hinputs := h.inputs.hand (b := { s.mInput.buf s.thread.mInputProcIdx with
    mStatus := .processing }) rfl rfl
  have hseeking : ∀ {P : Prop}, s.seeking = true → P := fun hseeking =>
    absurd (h.flagged.seeking hseeking) (Nat.succ_ne_zero _)
  refine ⟨tasks + 1, k, start, shown, ?_⟩
  exact {
    inputs := by
      rw [Nat.add_right_comm] at hinputs
      exact hinputs
    outputs := by
      rw [← hslots, ← hflush] at houtputs
      exact houtputs
    listed := h.listed.of_moved (Slots.moved_giveSlots _) (Slots.owner_giveSlots _)
      fun i hi => by simp [hfree i hi]
    counted := {
      number := by
        change s.thread.mNumTaskInProcesing + 1 = tasks + 1 + _
        rw [h.counted.number, Nat.add_right_comm]
        rfl
      index := fun _ => by
        change s.worker.mInputIndex + 1 = s.worker.mOutputIndex + _
        rw [h.counted.index hflush, BitVec.ofNat_add, BitVec.add_assoc]
        rfl
      rate := h.counted.rate
      updated := h.counted.updated }
    flagged := { h.flagged with
      idle := fun htrue => absurd (hflush.symm.trans htrue) (by simp)
      seeking := hseeking }
    parked := fun htrue => hseeking htrue
    loadPoint := fun hnot => by
      refine (h.loadPoint hnot).trans ?_
      change _ = ((s.thread.mInputProcIdx + 1) % _ + k) % _
      rw [Nat.mod_add_mod, Nat.add_right_comm, Nat.add_assoc]
    showPoint := h.showPoint
    sync := .inl (h.sync.resolve_right fun hd => absurd hd.waiting (Nat.succ_ne_zero _)) }

/-- The thread starts to flush the pipeline. -/
theorem Ordered.handEndFlag (h : s.Ordered cfg tasks waiting start shown)
    (hflush : s.thread.mbFlushPipelineInProcessing = false)
    (hwhy : s.mInput.status s.thread.mInputProcIdx ≠ .loaded ∧
      (s.thread.mEOS = true ∨ s.thread.mSeek = true) ∨ s.thread.mFrcChange = true)
    (hfree : s.mOutput.status s.thread.mOutputProcIdx = .free) :
    s.handEndFlag.Ordered cfg tasks waiting start shown := by
  have houtputs := h.outputs
  rw [hflush] at houtputs
  exact { h with
    outputs := houtputs.putEnd hfree rfl rfl rfl
    listed := h.listed.of_moved (Slots.moved_set rfl) (Slots.owner_set rfl) (by simp [hfree])
    counted := {
      number := by
        change s.thread.mNumTaskInProcesing + 1 = tasks + 1
        rw [h.counted.number, hflush]
        rfl
      index := fun hfalse => absurd hfalse (by simp [State.handEndFlag])
      rate := h.counted.rate
      updated := h.counted.updated }
    flagged := { h.flagged with
      flushing := fun _ => hwhy.elim (fun hidle => .inr hidle.2) .inl
      idle := fun _ hapart => by
        rcases hwhy with ⟨hnot, -⟩ | hchange
        · by_contra hne
          obtain ⟨k, rfl⟩ := Nat.exists_eq_succ_of_ne_zero hne
          refine hnot (h.inputs.loaded.status_of_mem ?_)
          rw [ring_succ h.inputs.proc_lt]
          exact List.mem_cons_self ..
        · refine h.flagged.seeking (hapart.resolve_left fun hended => ?_)
          simp [(h.flagged.ended hended).1] at hchange }
    parked := fun hseeking hseek => by
      have hparked := h.parked hseeking hseek
      change s.thread.mSeek = false at hseek
      simp [hparked.eos, hparked.frcChange, hseek] at hwhy
    sync := h.sync.imp_right fun hd => { hd with } }

/-- What the slots are handed to the worker for, if they can be had. -/
theorem getBufForFirmwareInput_eq_some {bFlush : Bool} {procBufNum : ℕ}
    (hbuf : s.getBufForFirmwareInput cfg bFlush = some procBufNum) :
    procBufNum = (if bFlush then 1 else s.worker.getProcBufCount) ∧
      ∀ i ∈ ring cfg.mOutputBufferNum s.thread.mOutputProcIdx procBufNum,
        s.mOutput.status i = .free := by
  obtain ⟨hfree, hnum⟩ :=
    ite_none_right_eq_some.mp (ite_none_left_eq_some.mp hbuf).2
  obtain rfl := some.inj hnum
  exact ⟨rfl, hfree⟩

theorem Consistent.processNext (h : s.Consistent cfg) (process : Bool) :
    (s.processNext cfg process).Consistent cfg := by
  rw [State.processNext]
  split
  · rename_i hgo
    simp only [Bool.and_eq_true, Bool.or_eq_true, Bool.not_eq_true'] at hgo
    obtain ⟨hwhy, hflush⟩ := hgo
    generalize hbFlush : ((!decide (s.mInput.status s.thread.mInputProcIdx = .loaded) &&
      (s.thread.mEOS || s.thread.mSeek) || s.thread.mFrcChange) &&
        !s.thread.mbFlushPipelineInProcessing) = bFlush
    cases hbuf : s.getBufForFirmwareInput cfg bFlush with
    | none => exact h
    | some procBufNum =>
      obtain ⟨hnum, hfree⟩ := getBufForFirmwareInput_eq_some hbuf
      obtain ⟨tasks, waiting, start, shown, h⟩ := h
      cases process with
      | false => exact ⟨_, _, _, _, h⟩
      | true =>
        cases bFlush with
        | true =>
          rw [if_pos rfl] at hnum
          subst hnum
          rw [ring_one h.outputs.proc_lt] at hfree
          simp only [hflush, Bool.not_false, Bool.and_true, Bool.or_eq_true, Bool.and_eq_true,
            Bool.not_eq_true', decide_eq_false_iff_not] at hbFlush
          exact ⟨_, _, _, _, h.handEndFlag hflush hbFlush (hfree _ (List.mem_singleton_self _))⟩
        | false =>
          subst hnum
          have hloaded : s.mInput.status s.thread.mInputProcIdx = .loaded := by
            by_contra hnot
            simp_all
          exact h.handFrame hloaded hflush hfree
  · exact h

/-- One iteration of the thread. -/
theorem Consistent.threadLoop (h : s.Consistent cfg) {a : Answers}
    (hfit : s.thread.mNeedCheckFrc = true → a.frcRate.value + 1 ≤ cfg.mOutputBufferNum)
    (ht : s.threadLoop cfg a = some t) : t.Consistent cfg := by
  obtain ⟨u, hu, rfl⟩ := map_eq_some_iff.mp ht
  have hneed : (s.checkFrc a).thread.mNeedCheckFrc = false := by
    rw [State.checkFrc]
    split
    · split <;> rfl
    · simp_all
  obtain ⟨tasks, waiting, start, shown, h⟩ := h
  have hcheck : (s.checkFrc a).Consistent cfg := ⟨_, _, _, _, h.checkFrc hfit⟩
  exact (hcheck.fillTasks hneed hu).processNext _

end State

end HardwareIntel.Vpp
