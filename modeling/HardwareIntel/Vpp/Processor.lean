import HardwareIntel.Isv.Processor
import HardwareIntel.Library.Ring

/-!
# The video post processor of the media players

`VPPProcessor` puts the decoded frames of a player into the slots of `mInput`, and `VPPProcThread`
hands them to the worker together with free slots of `mOutput`. Finished output slots are shown by
`updateRenderList`, which puts them into the list of buffers to render among the decoded frames.
Both rings are walked by three indices: the player has a load point in each, the thread one index
for what it hands to the worker and one for what the worker gives back.

The player's calls and the iterations of `threadLoop` are atomic steps. `seek` is two of them: what
it does before it waits for the thread, and the `flush` that follows. The results of the worker's
`process` and `fill`, of `calculateFrc` and of the native window are inputs; a `fill` that fails ends
the thread and is not among them.

A slot carries the number of its buffer: the how-manieth frame was loaded there, or the how-manieth
output buffer it was when the thread handed it out. Every status that is written is recorded.
-/

namespace HardwareIntel.Vpp

open Isv (FrcRate)

/-! ### Slots -/

/-- `VPPBufferStatus` -/
inductive VPPBufferStatus
  | free
  | processing
  | ready
  | loaded
  | rendering
  | endFlag
  deriving DecidableEq

/-- The `mStatus` of the media buffer in an output slot. -/
inductive Owner
  | vpp
  | client
  | nativeWindow
  deriving DecidableEq

structure VPPBuffer where
  mStatus : VPPBufferStatus
  mTimeUs : ℤ
  owner : Owner
  number : ℕ

/-- `resetBuffer`; the new buffer belongs to the processor. -/
def VPPBuffer.resetBuffer (b : VPPBuffer) : VPPBuffer :=
  { b with mStatus := .free, mTimeUs := 0, owner := .vpp }

/-- `mInput` or `mOutput`, with the statuses that were written over each other. -/
structure Slots where
  buf : ℕ → VPPBuffer
  changes : List (VPPBufferStatus × VPPBufferStatus)

namespace Slots

def status (s : Slots) (i : ℕ) : VPPBufferStatus := (s.buf i).mStatus

def number (s : Slots) (i : ℕ) : ℕ := (s.buf i).number

def set (s : Slots) (i : ℕ) (b : VPPBuffer) : Slots where
  buf := Function.update s.buf i b
  changes := s.changes ++ [(s.status i, b.mStatus)]

/-- A loop over all slots that resets those with `release`. -/
def sweep (n : ℕ) (release : VPPBuffer → Bool) (s : Slots) : Slots :=
  (List.range n).foldl
    (fun s i => if release (s.buf i) then s.set i (s.buf i).resetBuffer else s) s

end Slots

/-! ### The worker -/

structure Worker where
  mFrcOn : Bool
  mFrcRate : FrcRate
  mUpdatedFrcOn : Bool
  mUpdatedFrcRate : FrcRate
  mInputIndex : BitVec 32
  mOutputIndex : BitVec 32

namespace Worker

def getOutputBufCount (w : Worker) (index : BitVec 32) : ℕ :=
  if w.mFrcOn ∧ 0 < index then
    w.mFrcRate.value - (if w.mFrcRate = .x2_5 then (index &&& 1).toNat else 0)
  else 1

def getProcBufCount (w : Worker) : ℕ := w.getOutputBufCount w.mInputIndex

def getFillBufCount (w : Worker) : ℕ := w.getOutputBufCount w.mOutputIndex

def reset (w : Worker) : Worker := { w with mInputIndex := 0, mOutputIndex := 0 }

end Worker

/-- The results of `fill` that the thread goes on with. -/
inductive FillStatus
  | ok
  | dataRendering
  deriving DecidableEq

/-! ### The thread and the processor -/

structure ProcThread where
  mEOS : Bool
  mSeek : Bool
  mInputProcIdx : ℕ
  mOutputProcIdx : ℕ
  mInputFillIdx : ℕ
  mOutputFillIdx : ℕ
  mNumTaskInProcesing : ℕ
  mFirstInputFrame : Bool
  mbFlushPipelineInProcessing : Bool
  mFrcChange : Bool
  mNeedCheckFrc : Bool

/-- A media buffer in `mRenderList`: a decoded frame, or the buffer of an output slot. -/
structure Entry where
  time : ℤ
  slot : Option ℕ
  deriving DecidableEq

/-- The number of slots in use. -/
structure Config where
  mInputBufferNum : ℕ
  mOutputBufferNum : ℕ

/-- The processor, its thread and the worker. `ended` says that `setEOS` was called after the last
`seek`, `seeking` that the player waits in `seek`. `handed` are the numbers of the frames that the
worker was given, `given` is how many output slots it was given, and `readied` are the numbers of
those that became `READY`. -/
structure State where
  mInput : Slots
  mOutput : Slots
  thread : ProcThread
  worker : Worker
  mInputLoadPoint : ℕ
  mOutputLoadPoint : ℕ
  mRenderList : List Entry
  mEOS : Bool
  mIsEosRead : Bool
  mInputCount : ℕ
  ended : Bool
  seeking : Bool
  handed : List ℕ
  given : ℕ
  readied : List ℕ

namespace State

variable (cfg : Config)

/-! ### What the worker gives back -/

/-- The slots that `fill` is called for, if they can be had. -/
def getBufForFirmwareOutput (s : State) : Option (List ℕ) :=
  let needFillNum := s.worker.getFillBufCount
  if needFillNum = 0 ∨ 4 < needFillNum then none
  else if s.mOutput.status s.thread.mOutputFillIdx = .endFlag then some [s.thread.mOutputFillIdx]
  else
    let fillBufList := ring cfg.mOutputBufferNum s.thread.mOutputFillIdx needFillNum
    if ∀ fillPos ∈ fillBufList, s.mOutput.status fillPos = .processing then some fillBufList
    else none

/-- The loop that makes the slots of a task `READY`. -/
def showFilled (fillBufNum : ℕ) : List ℕ → Slots → Slots
  | [], s => s
  | outputVppPos :: rest, s =>
    let timeUs :=
      if 1 < fillBufNum then
        -- the slots that follow are as many as `fillBufNum - i - 1` says
        (s.buf outputVppPos).mTimeUs - (1000000 * rest.length / 60 : ℕ)
      else (s.buf outputVppPos).mTimeUs
    showFilled fillBufNum rest
      (s.set outputVppPos { s.buf outputVppPos with mStatus := .ready, mTimeUs := timeUs })

/-- The input slot of the task is not needed any more; the first one is kept as a reference. -/
def releaseInput (s : State) : State :=
  if s.thread.mFirstInputFrame then { s with thread := { s.thread with mFirstInputFrame := false } }
  else
    let pos := s.thread.mInputFillIdx
    { s with
      mInput := s.mInput.set pos { s.mInput.buf pos with mStatus := .ready }
      thread := { s.thread with mInputFillIdx := (pos + 1) % cfg.mInputBufferNum } }

/-- The thread has got the end flag back. -/
def takeEndFlag (s : State) : State :=
  let pos := s.thread.mOutputFillIdx
  { s with
    mOutput := s.mOutput.set pos { s.mOutput.buf pos with mStatus := .free }
    thread :=
      if s.thread.mEOS || s.thread.mSeek then
        { s.thread with
          mFirstInputFrame := true
          mInputFillIdx := 0
          mOutputFillIdx := 0
          mInputProcIdx := 0
          mOutputProcIdx := 0 }
      else { s.thread with mFirstInputFrame := true } }

/-- The thread has got the slots of a task back. -/
def takeFilled (s : State) (fillBufNum : ℕ) : State :=
  let fillBufList := ring cfg.mOutputBufferNum s.thread.mOutputFillIdx fillBufNum
  { s with
    mOutput := showFilled fillBufNum fillBufList s.mOutput
    readied := s.readied ++ fillBufList.map s.mOutput.number
    thread := { s.thread with
      mOutputFillIdx := (s.thread.mOutputFillIdx + fillBufNum) % cfg.mOutputBufferNum } }

/-- The answer is `true` if the pipeline has been flushed. -/
def updateFirmwareOutputBufStatus (s : State) (fillBufNum : ℕ) : State × Bool :=
  let s := s.releaseInput cfg
  match s.mOutput.status s.thread.mOutputFillIdx with
  | .endFlag => (s.takeEndFlag, true)
  | .processing => (s.takeFilled cfg fillBufNum, false)
  | _ => (s, false)

/-- The worker starts again, with the new frame rate conversion if there is one. -/
def completeFlush (s : State) : State :=
  let w := s.worker
  let worker :=
    if s.thread.mFrcChange ∧ (w.mFrcOn ≠ w.mUpdatedFrcOn ∨ w.mFrcRate ≠ w.mUpdatedFrcRate) then
      { w with mFrcRate := w.mUpdatedFrcRate, mFrcOn := w.mUpdatedFrcOn }
    else w
  { s with
    worker := worker.reset
    thread := { s.thread with
      mSeek := false
      mEOS := false
      mFrcChange := false
      mbFlushPipelineInProcessing := false } }

/-- What follows on a `fill` that succeeds. -/
def finishTask (s : State) (fillBufNum : ℕ) : State :=
  let s := { s with
    worker := { s.worker with mOutputIndex := s.worker.mOutputIndex + 1 }
    thread := { s.thread with mNumTaskInProcesing := s.thread.mNumTaskInProcesing - 1 } }
  match s.updateFirmwareOutputBufStatus cfg fillBufNum with
  | (s, true) => s.completeFlush
  | (s, false) => s

/-- The first loop of `threadLoop`, with the results of `fill`. There is no result for a loop that
goes on after the last of them. -/
def fillTasks : List FillStatus → Bool → State → Option State
  | fills, bPendingOnFirmware, s =>
    if 0 < s.thread.mNumTaskInProcesing ∧
        (bPendingOnFirmware = false ∨ s.thread.mbFlushPipelineInProcessing) then
      match s.getBufForFirmwareOutput cfg with
      | none => some s
      | some fillBufList =>
        match fills with
        | [] => none
        | .ok :: fills => fillTasks fills bPendingOnFirmware (s.finishTask cfg fillBufList.length)
        | .dataRendering :: fills => fillTasks fills true s
    else some s

/-! ### What the worker is given -/

def isOutputBufFree (s : State) : Bool :=
  let needOutputBufNum := s.worker.getProcBufCount
  (ring cfg.mOutputBufferNum s.thread.mOutputProcIdx (needOutputBufNum + 1)).all fun procPos =>
    decide (s.mOutput.status procPos = .free)

/-- How many output slots go to the worker, if they can be had. -/
def getBufForFirmwareInput (s : State) (bFlushPipeline : Bool) : Option ℕ :=
  let needProcNum := s.worker.getProcBufCount
  if needProcNum = 0 ∨ 4 < needProcNum then none
  else
    let needProcNum := if bFlushPipeline then 1 else needProcNum
    if ∀ procPos ∈ ring cfg.mOutputBufferNum s.thread.mOutputProcIdx needProcNum,
        s.mOutput.status procPos = .free then
      some needProcNum
    else none

/-- The loop that makes slots `PROCESSING`. -/
def giveSlots (timeUs : ℤ) : List ℕ → ℕ → Slots → Slots
  | [], _, s => s
  | procPos :: rest, number, s =>
    giveSlots timeUs rest (number + 1) (s.set procPos
      { s.buf procPos with mStatus := .processing, mTimeUs := timeUs, number := number })

/-- A call of `process` for the next frame, and `updateFirmwareInputBufStatus`. -/
def handFrame (s : State) (procBufNum : ℕ) : State :=
  let pos := s.thread.mInputProcIdx
  let procBufList := ring cfg.mOutputBufferNum s.thread.mOutputProcIdx procBufNum
  { s with
    mInput := s.mInput.set pos { s.mInput.buf pos with mStatus := .processing }
    mOutput := giveSlots (s.mInput.buf pos).mTimeUs procBufList s.given s.mOutput
    handed := s.handed ++ [s.mInput.number pos]
    given := s.given + procBufNum
    worker := { s.worker with mInputIndex := s.worker.mInputIndex + 1 }
    thread := { s.thread with
      mNumTaskInProcesing := s.thread.mNumTaskInProcesing + 1
      mInputProcIdx := (pos + 1) % cfg.mInputBufferNum
      mOutputProcIdx := (s.thread.mOutputProcIdx + procBufNum) % cfg.mOutputBufferNum } }

/-- A call of `process` that flushes the pipeline, and `updateFirmwareInputBufStatus`. -/
def handEndFlag (s : State) : State :=
  let pos := s.thread.mOutputProcIdx
  { s with
    mOutput := s.mOutput.set pos { s.mOutput.buf pos with mStatus := .endFlag }
    worker := { s.worker with mInputIndex := s.worker.mInputIndex + 1 }
    thread := { s.thread with
      mNumTaskInProcesing := s.thread.mNumTaskInProcesing + 1
      mbFlushPipelineInProcessing := true } }

/-- The part of `threadLoop` after the first loop, with the result of `process`. Where the code waits
for a signal, it has nothing to do afterwards. -/
def processNext (s : State) (process : Bool) : State :=
  let th := s.thread
  let bInputReady := decide (s.mInput.status th.mInputProcIdx = .loaded)
  let bOutputBufFree := s.isOutputBufFree cfg
  let bFlushPipeline := ((!bInputReady && (th.mEOS || th.mSeek)) || th.mFrcChange) &&
    !th.mbFlushPipelineInProcessing
  if ((bInputReady && bOutputBufFree) || bFlushPipeline) && !th.mbFlushPipelineInProcessing then
    match s.getBufForFirmwareInput cfg bFlushPipeline with
    | none => s
    | some procBufNum =>
      if process then
        if bFlushPipeline then s.handEndFlag else s.handFrame cfg procBufNum
      else s
  else s

/-- The results of `calculateFrc`, of the calls of `fill` and of `process`. -/
structure Answers where
  frcOn : Bool
  frcRate : FrcRate
  fills : List FillStatus
  process : Bool

def checkFrc (s : State) (a : Answers) : State :=
  if s.thread.mNeedCheckFrc then
    if a.frcOn ≠ s.worker.mFrcOn ∨ a.frcRate ≠ s.worker.mFrcRate then
      { s with
        worker := { s.worker with mUpdatedFrcRate := a.frcRate, mUpdatedFrcOn := a.frcOn }
        thread := { s.thread with mNeedCheckFrc := false, mFrcChange := true } }
    else { s with thread := { s.thread with mNeedCheckFrc := false } }
  else s

def threadLoop (s : State) (a : Answers) : Option State :=
  ((s.checkFrc a).fillTasks cfg a.fills false).map fun s => s.processNext cfg a.process

/-! ### The player's calls -/

/-- A decoded frame with this time stamp. -/
def setDecoderBufferToVPP (s : State) (timeUs : ℤ) : State :=
  let s := { s with mRenderList := s.mRenderList ++ [⟨timeUs, none⟩] }
  let pos := s.mInputLoadPoint
  if s.mInput.status pos = .free then
    { s with
      mIsEosRead := false
      mInput := s.mInput.set pos
        { s.mInput.buf pos with mStatus := .loaded, mTimeUs := timeUs, number := s.mInputCount }
      mInputLoadPoint := (pos + 1) % cfg.mInputBufferNum
      mInputCount := s.mInputCount + 1 }
  else s

def clearInput (s : State) : State :=
  { s with mInput := s.mInput.sweep cfg.mInputBufferNum fun b => b.mStatus = .ready }

/-- The end of a buffer's use: an output slot is reset, a decoded frame goes back to the codec. -/
def release (out : Slots) (e : Entry) : Slots :=
  match e.slot with
  | none => out
  | some i => out.set i (out.buf i).resetBuffer

/-- The search in the render list stops at the first entry whose time stamp passes the test. A time
stamp of `-1` ends the call. -/
def findEntry (stop : ℤ → Bool) : List Entry → Option (List Entry × List Entry)
  | [] => some ([], [])
  | e :: rest =>
    if e.time = -1 then none
    else if stop e.time then some ([], e :: rest)
    else (findEntry stop rest).map fun (before, after) => (e :: before, after)

/-- The buffer of a `READY` slot takes its place in the render list or is dropped. -/
def placeOutput (s : State) (pos : ℕ) (before after : List Entry) : State :=
  let timeBuffer := (s.mOutput.buf pos).mTimeUs
  let new : Entry := ⟨timeBuffer, some pos⟩
  let dropped := { s with mOutput := release s.mOutput new }
  match after with
  | [] => dropped
  | e :: rest =>
    if before = [] ∧ timeBuffer < e.time then dropped
    else if timeBuffer = e.time then
      let out := release s.mOutput e
      { s with
        mOutput := out.set pos { out.buf pos with mStatus := .rendering }
        mRenderList := before ++ new :: rest }
    else if timeBuffer < e.time then
      { s with
        mOutput := s.mOutput.set pos { s.mOutput.buf pos with mStatus := .rendering }
        mRenderList := before ++ new :: e :: rest }
    else dropped

/-- One iteration of the loop in `updateRenderList`. -/
def renderOutput (s : State) : Option State :=
  let pos := s.mOutputLoadPoint
  let timeBuffer := (s.mOutput.buf pos).mTimeUs
  if timeBuffer = -1 then none
  else
    let stop timeRenderList :=
      if s.worker.mFrcRate = .x1 then decide (timeBuffer = timeRenderList)
      else decide (timeBuffer ≤ timeRenderList)
    (findEntry stop s.mRenderList).map fun (before, after) =>
      { s.placeOutput pos before after with
        mOutputLoadPoint := (pos + 1) % cfg.mOutputBufferNum }

/-- The loop of `updateRenderList`; `false` is `VPP_FAIL`. Every iteration ends with one `READY`
slot less. -/
def renderOutputs : ℕ → State → State × Bool
  | 0, s => (s, true)
  | fuel + 1, s =>
    if s.mOutput.status s.mOutputLoadPoint = .ready then
      match s.renderOutput cfg with
      | none => (s, false)
      | some s => renderOutputs fuel s
    else (s, true)

def updateRenderList (s : State) : State × Bool := s.renderOutputs cfg cfg.mOutputBufferNum

def read (s : State) : State :=
  match s.mRenderList with
  | [] => if !s.mEOS && !s.mIsEosRead then s else { s with mEOS := false, mIsEosRead := true }
  | ⟨_, none⟩ :: rest => { s with mRenderList := rest }
  | ⟨_, some i⟩ :: rest =>
    { s with
      mRenderList := rest
      mOutput := s.mOutput.set i { s.mOutput.buf i with owner := .client } }

def setEOS (s : State) : State :=
  if s.mIsEosRead then s
  else { s with mEOS := true, thread := { s.thread with mEOS := true }, ended := true }

/-- The answer of `hasProcessingBuffer`. -/
def processing (s : State) : Bool :=
  (List.range cfg.mInputBufferNum).any fun i => decide (s.mInput.status i = .processing)

def dropsInput (b : VPPBuffer) : Bool := b.mStatus ≠ .processing ∧ b.mStatus ≠ .free

/-- A buffer that the native window has is not released either: its reference count is zero. -/
def dropsOutput (b : VPPBuffer) : Bool :=
  b.mStatus ≠ .processing ∧ b.mStatus ≠ .free ∧ b.mStatus ≠ .endFlag ∧ b.owner = .vpp

/-- What `hasProcessingBuffer` does. -/
def dropBuffers (s : State) : State :=
  { s with
    mInput := s.mInput.sweep cfg.mInputBufferNum dropsInput
    mOutput := s.mOutput.sweep cfg.mOutputBufferNum dropsOutput
    mInputLoadPoint := 0
    mOutputLoadPoint := 0 }

/-- `seek` up to where it waits for the thread. -/
def seek (s : State) : State :=
  if s.processing cfg then
    { s.dropBuffers cfg with thread := { s.thread with mSeek := true }, seeking := true }
  else { s.dropBuffers cfg with ended := false }

def flush (s : State) : State :=
  let out := s.mOutput.sweep cfg.mOutputBufferNum fun b => b.mStatus ≠ .free ∧ b.owner = .vpp
  { s with
    mInput := s.mInput.sweep cfg.mInputBufferNum fun b => b.mStatus ≠ .free
    mOutput := s.mRenderList.foldl release out
    mRenderList := []
    mInputLoadPoint := 0
    mOutputLoadPoint := 0 }

/-- The client returns the buffer of an output slot. If it has been rendered, the slot needs another
one from the native window. -/
def signalBufferReturned (s : State) (pos : ℕ) (rendered dequeued : Bool) : State :=
  if rendered && !dequeued then
    { s with mOutput := s.mOutput.set pos { s.mOutput.buf pos with owner := .nativeWindow } }
  else { s with mOutput := s.mOutput.set pos (s.mOutput.buf pos).resetBuffer }

def notifyCheckFrc (s : State) : State :=
  { s with thread := { s.thread with mNeedCheckFrc := true } }

end State

/-- The calls of the player and of the display listener, and the iterations of the thread. `seekEnd`
is the rest of `seek`, once the thread has signalled the end of the flush. -/
inductive Op
  | setDecoderBufferToVPP (timeUs : ℤ)
  | clearInput
  | updateRenderList
  | read
  | setEOS
  | seek
  | seekEnd
  | signalBufferReturned (pos : ℕ) (rendered dequeued : Bool)
  | notifyCheckFrc
  | threadLoop (a : State.Answers)

/-- One step. While the player waits in `seek` it makes no other call. -/
def step (cfg : Config) (s : State) : Op → Option State
  | .setDecoderBufferToVPP timeUs =>
    if s.seeking then none else some (s.setDecoderBufferToVPP cfg timeUs)
  | .clearInput => if s.seeking then none else some (s.clearInput cfg)
  | .updateRenderList => if s.seeking then none else some (s.updateRenderList cfg).1
  | .read => if s.seeking then none else some s.read
  | .setEOS => if s.seeking then none else some s.setEOS
  | .seek => if s.seeking then none else some (s.seek cfg)
  | .seekEnd =>
    if s.seeking ∧ s.thread.mSeek = false then
      some { s.flush cfg with seeking := false, ended := false }
    else none
  | .signalBufferReturned pos rendered dequeued =>
    if pos < cfg.mOutputBufferNum ∧ (s.mOutput.buf pos).owner = .client then
      some (s.signalBufferReturned pos rendered dequeued)
    else none
  | .notifyCheckFrc => some s.notifyCheckFrc
  | .threadLoop a => s.threadLoop cfg a

/-- A processor whose thread has just been created. The output slots suffice for the frame rate
conversion and one more is reserved for the flush of the pipeline. -/
structure Initial (cfg : Config) (s : State) : Prop where
  inputNum : 0 < cfg.mInputBufferNum
  outputNum : s.worker.mFrcRate.value + 1 ≤ cfg.mOutputBufferNum
  inputs : ∀ i, s.mInput.status i = .free
  inputChanges : s.mInput.changes = []
  outputs : ∀ i, s.mOutput.status i = .free ∧ (s.mOutput.buf i).owner = .vpp
  outputChanges : s.mOutput.changes = []
  thread : s.thread = ⟨false, false, 0, 0, 0, 0, 0, true, false, false, false⟩
  inputIndex : s.worker.mInputIndex = 0
  outputIndex : s.worker.mOutputIndex = 0
  inputLoadPoint : s.mInputLoadPoint = 0
  outputLoadPoint : s.mOutputLoadPoint = 0
  renderList : s.mRenderList = []
  seeking : s.seeking = false
  handed : s.handed = []
  readied : s.readied = []

def started (frcOn : Bool) (frcRate : FrcRate) : State where
  mInput := ⟨fun _ => ⟨.free, 0, .vpp, 0⟩, []⟩
  mOutput := ⟨fun _ => ⟨.free, 0, .vpp, 0⟩, []⟩
  thread := ⟨false, false, 0, 0, 0, 0, 0, true, false, false, false⟩
  worker := ⟨frcOn, frcRate, frcOn, frcRate, 0, 0⟩
  mInputLoadPoint := 0
  mOutputLoadPoint := 0
  mRenderList := []
  mEOS := false
  mIsEosRead := false
  mInputCount := 0
  ended := false
  seeking := false
  handed := []
  given := 0
  readied := []

/-- `validateVideoInfo` takes the numbers of slots from the references of the worker. -/
def validateVideoInfo (mNumForwardReferences : ℕ) (frcRate : FrcRate) : Config :=
  ⟨mNumForwardReferences + 3, 1 + (mNumForwardReferences + 2) * frcRate.value⟩

theorem initial_started (mNumForwardReferences : ℕ) (frcOn : Bool) (frcRate : FrcRate) :
    Initial (validateVideoInfo mNumForwardReferences frcRate) (started frcOn frcRate) where
  inputNum := Nat.succ_pos _
  outputNum := by
    have hle : frcRate.value ≤ (mNumForwardReferences + 2) * frcRate.value :=
      Nat.le_mul_of_pos_left _ (Nat.succ_pos _)
    simp only [started, validateVideoInfo]
    omega
  inputs _ := rfl
  inputChanges := rfl
  outputs _ := ⟨rfl, rfl⟩
  outputChanges := rfl
  thread := rfl
  inputIndex := rfl
  outputIndex := rfl
  inputLoadPoint := rfl
  outputLoadPoint := rfl
  renderList := rfl
  seeking := rfl
  handed := rfl
  readied := rfl

end HardwareIntel.Vpp
