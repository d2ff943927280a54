import HardwareIntel.Library.Runs
import Mathlib.Data.BitVec

/-!
# The video post processing component of ISV

`ISVComponent` sits between an OMX client and a video decoder. Of the buffer headers of the output
port some are with the client, some with the decoder, and the `ISVProcessor` keeps two queues:
decoded frames wait in `mInputBuffers` for the worker, the buffers to render into wait in
`mOutputBuffers`. A task takes the next frame and as many output buffers as the frame rate factor
says; the first `mInputProcIdx` frames and the first `mOutputProcIdx` output buffers belong to tasks
that the worker has not finished.

What the code cannot decide is an input: the answers of the driver, the frame rate that the floating
point formula makes of two time stamps, and the table of frame rate factors read from the profile.
The driver's `fill` and the observer's `releaseBuffer` are taken to succeed. An access outside a
vector ends a function with `none`.
-/

namespace HardwareIntel.Isv

/-! ### Buffers and filters -/

/-- A buffer header of the output port, by its address. -/
abbrev Header := ℕ

/-- The fields of a buffer header that the component reads or writes. -/
structure BufferInfo where
  nTimeStamp : ℤ
  nFilledLen : ℕ
  nOffset : ℕ
  nFlags : BitVec 32

def OMX_BUFFERFLAG_EOS : BitVec 32 := 0x00000001
def OMX_BUFFERFLAG_TFF : BitVec 32 := 0x00010000
def OMX_BUFFERFLAG_BFF : BitVec 32 := 0x00020000

def FilterDeinterlacing : BitVec 32 := 0x00000004
def FilterFrameRateConversion : BitVec 32 := 0x00000040

/-- `FRC_RATE` -/
inductive FrcRate
  | x1
  | x2
  | x2_5
  | x4
  deriving DecidableEq

def FrcRate.value : FrcRate → ℕ
  | x1 => 1
  | x2 => 2
  | x2_5 => 3
  | x4 => 4

/-- `none` is the factor of a parameter that has only been zeroed. -/
structure FilterParam where
  frameRate : ℕ
  frcRate : Option FrcRate
  deriving DecidableEq

/-- What the component is run with: the settings, the frame rate computed for the distance of two
time stamps, and the `mFrcRates` of the profile. -/
structure Profile where
  mVPPOn : Bool
  frameRateOf : ℤ → ℕ
  mFrcRates : List (ℕ × FrcRate)

/-- The first entry of the table for this frame rate. -/
def Profile.getFRCRate (cfg : Profile) (inputFps : ℕ) : FrcRate :=
  ((cfg.mFrcRates.find? fun entry => entry.1 == inputFps).map Prod.snd).getD .x1

def isFrameRateValid (fps : ℕ) : Bool :=
  fps == 15 || fps == 24 || fps == 25 || fps == 30 || fps == 50 || fps == 60

/-- Subtraction of `uint32_t`. -/
def sub32 (a b : ℕ) : ℕ := if b ≤ a then a - b else a + 2 ^ 32 - b

@[simp] theorem sub32_of_le {a b : ℕ} (h : b ≤ a) : sub32 a b = a - b := if_pos h

/-- The items `k, …, k + n - 1` of a vector, if all of them are inside it. -/
def itemsAt {α : Type*} (v : List α) (k : ℕ) : ℕ → Option (List α)
  | 0 => some []
  | n + 1 => do
    let x ← v[k]?
    let rest ← itemsAt v (k + 1) n
    return x :: rest

theorem itemsAt_of_le {α : Type*} {v : List α} {n : ℕ} : ∀ {k : ℕ}, k + n ≤ v.length →
    itemsAt v k n = some ((v.drop k).take n) := by
  induction n with
  | zero => exact fun _ => rfl
  | succ n ih =>
    intro k hk
    have hlt : k < v.length := by omega
    rw [itemsAt, List.getElem?_eq_getElem hlt, List.drop_eq_getElem_cons hlt,
      ih (k := k + 1) (by omega)]
    rfl

/-! ### The worker -/

/-- A frame and the output buffers it is processed into. -/
structure Task where
  input : Header
  outputs : List Header

/-- The worker, with the tasks it was given and the buffers it was told to fill. -/
structure Worker where
  mFilters : BitVec 32
  mFilterParam : FilterParam
  mNumForwardReferences : ℕ
  mInputIndex : ℕ
  mOutputIndex : ℕ
  processed : List Task
  filled : List (List Header)

/-- The outcome of `setupFilters`, and the number of references the worker is left with. -/
structure Setup where
  ok : Bool
  references : ℕ

namespace Worker

def getOutputBufCount (w : Worker) (index : ℕ) : ℕ :=
  if w.mFilters &&& FilterFrameRateConversion ≠ 0 ∧ 0 < index then
    (w.mFilterParam.frcRate.elim 0 FrcRate.value) -
      (if w.mFilterParam.frcRate = some .x2_5 then index % 2 else 0)
  else 1

def getProcBufCount (w : Worker) : ℕ := w.getOutputBufCount w.mInputIndex

def getFillBufCount (w : Worker) : ℕ := w.getOutputBufCount w.mOutputIndex

def configFilters (w : Worker) (filters : BitVec 32) (filterParam : FilterParam) (setup : Setup) :
    Worker × Bool :=
  let w := if filters ≠ 0 then { w with mFilterParam := filterParam } else w
  if w.mFilters ≠ filters then
    ({ w with mFilters := filters, mNumForwardReferences := setup.references }, setup.ok)
  else (w, true)

/-- A call of `process` for a frame that succeeds. -/
def process (w : Worker) (task : Task) : Worker :=
  { w with mInputIndex := (w.mInputIndex + 1) % 2 ^ 32, processed := w.processed ++ [task] }

def fill (w : Worker) (outputs : List Header) : Worker :=
  { w with mOutputIndex := (w.mOutputIndex + 1) % 2 ^ 32, filled := w.filled ++ [outputs] }

def reset (w : Worker) (setup : Setup) : Worker :=
  { w with mInputIndex := 0, mOutputIndex := 0, mNumForwardReferences := setup.references }

end Worker

/-! ### Commands -/

/-- `OMX_COMMANDTYPE` -/
inductive CommandType
  | stateSet
  | flush
  | portDisable
  | portEnable
  | markBuffer
  deriving DecidableEq

/-- A command, or the data of the event that says it is complete. -/
structure Command where
  cmd : CommandType
  nParam : ℕ

/-- The commands that take the buffers of the output port away. -/
def flushesOutput (c : Command) : Bool :=
  match c.cmd with
  | .flush => c.nParam == 1 || c.nParam == 0xFFFFFFFF
  | .stateSet => c.nParam == 2
  | .portDisable => c.nParam == 1
  | _ => false

/-! ### The processor and its surroundings -/

/-- `PORT_INDEX` -/
inductive PortIndex
  | kPortIndexInput
  | kPortIndexOutput

/-- The processor and the component, the headers that the client and the decoder hold, and what has
been seen so far: the time stamps of all frames that came from the decoder and of those that were
queued, the tasks whose buffers were given back, and the time stamps shown to the client. -/
structure State where
  info : Header → BufferInfo
  client : List Header
  decoder : List Header
  mInputBuffers : List Header
  mOutputBuffers : List Header
  mInputProcIdx : ℕ
  mOutputProcIdx : ℕ
  mNumTaskInProcesing : ℕ
  mNumRetry : ℕ
  mLastTimeStamp : ℤ
  mbFlush : Bool
  mbBypass : Bool
  mFilters : BitVec 32
  mFilterParam : FilterParam
  worker : Worker
  mVPPEnabled : Bool
  mVPPFlushing : Bool
  mNumDecoderBuffers : ℕ
  mNumDecoderBuffersBak : ℕ
  arrived : List ℤ
  queued : List ℤ
  returned : List Task
  rendered : List ℤ

namespace State

def setInfo (s : State) (h : Header) (b : BufferInfo) : State :=
  { s with info := Function.update s.info h b }

/-- `ISVProcThreadObserver::releaseBuffer` -/
def releaseBuffer (s : State) (index : PortIndex) (h : Header) (bFlush : Bool) : State :=
  if bFlush then
    { s.setInfo h { s.info h with nFilledLen := 0, nOffset := 0 } with client := h :: s.client }
  else
    match index with
    | .kPortIndexInput =>
      { s.setInfo h { s.info h with nFilledLen := 0, nOffset := 0, nFlags := 0 } with
        decoder := h :: s.decoder }
    | .kPortIndexOutput =>
      { s with client := h :: s.client, rendered := s.rendered ++ [(s.info h).nTimeStamp] }

/-- What the worker is to process; no frame means the end of the stream. -/
structure ProcBufs where
  input : Option Header
  outputs : List Header
  procBufNum : ℕ

/-- `some none` is the answer `false`. -/
def getBufForFirmwareInput (s : State) : Option (Option ProcBufs) :=
  let procBufCount := s.worker.getProcBufCount
  if procBufCount = 0 ∨ 4 < procBufCount then some none
  else if s.mbFlush then do
    let outputBuffer ← s.mOutputBuffers[0]?
    return some ⟨none, [outputBuffer], 1⟩
  else do
    let inputBuffer ← s.mInputBuffers[s.mInputProcIdx]?
    let outputs ← itemsAt s.mOutputBuffers s.mOutputProcIdx procBufCount
    return some ⟨some inputBuffer, outputs, procBufCount⟩

/-- The output buffers of a task get the frame's fields. -/
def updateFirmwareInputBufStatus (s : State) (procBufNum : ℕ) : Option State := do
  let inputBuffer ← s.mInputBuffers[s.mInputProcIdx]?
  let outputs ← itemsAt s.mOutputBuffers s.mOutputProcIdx procBufNum
  let s := outputs.foldl (fun s outputBuffer => s.setInfo outputBuffer (s.info inputBuffer)) s
  return { s with
    mInputProcIdx := s.mInputProcIdx + 1
    mOutputProcIdx := s.mOutputProcIdx + procBufNum }

/-- `some none` is the answer `false`. -/
def getBufForFirmwareOutput (s : State) : Option (Option (List Header)) :=
  let needFillNum := s.worker.getFillBufCount
  if s.mOutputProcIdx < needFillNum ∨ s.mInputProcIdx < 1 then some none
  else if needFillNum = 0 ∨ 4 < needFillNum then some none
  else do
    let fillBufList ← itemsAt s.mOutputBuffers 0 needFillNum
    return some fillBufList

/-- The frames per second that the time stamps of a task are computed for. -/
def outputRate (p : FilterParam) : ℕ := if p.frameRate = 15 then 30 else 60

/-- The distance between the first of `n` frames of a task and the last one. -/
def span (p : FilterParam) (n : ℕ) : ℕ := 1000000 * (n - 1) / outputRate p

/-- The loop that renders the buffers of a task. -/
def render (timeUs : ℤ) (fillBufNum : ℕ) : List Header → State → State
  | [], s => s
  | outputBuffer :: rest, s =>
    let s :=
      if 1 < fillBufNum then
        -- the buffers that follow are as many as `fillBufNum - i - 1` says
        let timeStamp := timeUs - (1000000 * rest.length / outputRate s.mFilterParam : ℕ)
        s.setInfo outputBuffer { s.info outputBuffer with nTimeStamp := timeStamp }
      else s
    render timeUs fillBufNum rest (s.releaseBuffer .kPortIndexOutput outputBuffer false)

/-- The oldest task is over: its frame goes back to the decoder, its output buffers are shown. -/
def returnTask (s : State) (inputBuffer first : Header) (outputs : List Header) : State :=
  let s := { s.releaseBuffer .kPortIndexInput inputBuffer false with
    mInputBuffers := s.mInputBuffers.drop 1
    mInputProcIdx := sub32 s.mInputProcIdx 1 }
  let s := render (s.info first).nTimeStamp outputs.length outputs s
  { s with
    mOutputBuffers := s.mOutputBuffers.drop outputs.length
    mOutputProcIdx := sub32 s.mOutputProcIdx outputs.length
    returned := s.returned ++ [⟨inputBuffer, outputs⟩] }

def updateFirmwareOutputBufStatus (s : State) (fillBufNum : ℕ) : Option State :=
  if s.mInputBuffers = [] then some s
  else if s.mOutputBuffers.length < fillBufNum then some s
  else do
    let inputBuffer ← s.mInputBuffers[0]?
    let first ← s.mOutputBuffers[0]?
    let outputs ← itemsAt s.mOutputBuffers 0 fillBufNum
    return s.returnTask inputBuffer first outputs

def isReadytoRun (s : State) : Bool :=
  decide (s.mInputProcIdx < s.mInputBuffers.length) &&
    decide (s.worker.getProcBufCount ≤ sub32 s.mOutputBuffers.length s.mOutputProcIdx)

/-- Both queues go back to the client. -/
def flush (s : State) : State :=
  let s := s.mInputBuffers.foldl (fun s h => s.releaseBuffer .kPortIndexInput h true) s
  let s := s.mOutputBuffers.foldl (fun s h => s.releaseBuffer .kPortIndexOutput h true) s
  { s with mInputBuffers := [], mOutputBuffers := [] }

/-- The status of the worker's `process`, and the driver's answers to `reset`. -/
structure Answers where
  process : Bool
  setup : Setup

/-- The loop of `threadLoop` that gives finished tasks back. Every iteration ends a task. -/
def fillLoop : ℕ → State → Option State
  | 0, s => some s
  | fuel + 1, s =>
    if 0 < s.mNumTaskInProcesing ∧ s.worker.mNumForwardReferences ≤ s.mNumTaskInProcesing then do
      match ← s.getBufForFirmwareOutput with
      | none => return s
      | some fillBufList =>
        let s := { s with
          worker := s.worker.fill fillBufList
          mNumTaskInProcesing := s.mNumTaskInProcesing - 1 }
        fillLoop fuel (← s.updateFirmwareOutputBufStatus fillBufList.length)
    else some s

def fillTasks (s : State) : Option State := fillLoop s.mNumTaskInProcesing s

/-- The end of a flush. -/
def endFlush (s : State) (setup : Setup) : State :=
  { { s with worker := s.worker.reset setup }.flush with
    mNumTaskInProcesing := 0
    mInputProcIdx := 0
    mOutputProcIdx := 0
    mbFlush := false }

/-- What follows on the call of `process`. -/
def afterProcess (s : State) (bufs : ProcBufs) (a : Answers) : Option State :=
  if a.process then
    match bufs.input with
    | none => some (s.endFlush a.setup)
    | some inputBuffer => do
      let s := { s with
        worker := s.worker.process ⟨inputBuffer, bufs.outputs⟩
        mNumTaskInProcesing := s.mNumTaskInProcesing + 1 }
      (← s.updateFirmwareInputBufStatus bufs.procBufNum).fillTasks
  else { s with mbBypass := true }.flush.fillTasks

/-- One iteration of `threadLoop`, from where it has nothing more to wait for. -/
def threadLoop (s : State) (a : Answers) : Option State :=
  if s.isReadytoRun || s.mbFlush then do
    -- the flags of the frame are read at the index that `getBufForFirmwareInput` reads
    match ← s.getBufForFirmwareInput with
    | none => s.fillTasks
    | some bufs => s.afterProcess bufs a
  else s.fillTasks

def notifyFlush (s : State) : State :=
  if s.mInputBuffers = [] ∧ s.mOutputBuffers = [] then s else { s with mbFlush := true }

/-! ### Frames and buffers that arrive -/

def MAX_RETRY_NUM : ℕ := 8

def MIN_OUTPUT_NUM : ℕ := 10

/-- The results of `configFilters`. -/
inductive Status
  | ok
  | notEnoughData
  | unknownError

variable (cfg : Profile)

/-- The part of `configFilters` that is about the frame rate; `false` is `NOT_ENOUGH_DATA`. -/
def configFrameRate (s : State) (nTimeStamp : ℤ) : State × Bool :=
  if s.mFilters &&& FilterFrameRateConversion ≠ 0 ∧
      isFrameRateValid s.mFilterParam.frameRate = false then
    if s.mNumRetry < MAX_RETRY_NUM then
      let deltaTime := nTimeStamp - s.mLastTimeStamp
      let frameRate :=
        if deltaTime ≠ 0 then cfg.frameRateOf deltaTime else s.mFilterParam.frameRate
      let s := { s with
        mNumRetry := s.mNumRetry + 1
        mLastTimeStamp := nTimeStamp
        mFilterParam := { s.mFilterParam with frameRate := frameRate } }
      if isFrameRateValid frameRate = false then (s, false)
      else if frameRate = 50 ∨ frameRate = 60 then
        ({ s with
          mFilters := s.mFilters &&& ~~~FilterFrameRateConversion
          mFilterParam := ⟨frameRate, some .x1⟩ }, true)
      else ({ s with mFilterParam := ⟨frameRate, some (cfg.getFRCRate frameRate)⟩ }, true)
    else
      ({ s with
        mNumRetry := s.mNumRetry + 1
        mFilters := s.mFilters &&& ~~~FilterFrameRateConversion
        mFilterParam := { s.mFilterParam with frcRate := some .x1 } }, true)
  else (s, true)

/-- Deinterlacing follows the flags of every frame. -/
def configDeinterlacing (s : State) (nFlags : BitVec 32) : State :=
  if nFlags &&& OMX_BUFFERFLAG_TFF ≠ 0 ∨ nFlags &&& OMX_BUFFERFLAG_BFF ≠ 0 then
    { s with mFilters := s.mFilters ||| FilterDeinterlacing }
  else { s with mFilters := s.mFilters &&& ~~~FilterDeinterlacing }

def configFilters (s : State) (buffer : BufferInfo) (setup : Setup) : State × Status :=
  match s.configFrameRate cfg buffer.nTimeStamp with
  | (s, false) => (s, .notEnoughData)
  | (s, true) =>
    let s := s.configDeinterlacing buffer.nFlags
    if s.mFilters = 0 then (s, .unknownError)
    else
      let (worker, ok) := s.worker.configFilters s.mFilters s.mFilterParam setup
      ({ s with worker := worker }, if ok then .ok else .unknownError)

def addInput (s : State) (input : Header) (setup : Setup) : State :=
  let b := s.info input
  let s := { s with arrived := s.arrived ++ [b.nTimeStamp] }
  if s.mbFlush then s.releaseBuffer .kPortIndexInput input true
  else if s.mbBypass then s.releaseBuffer .kPortIndexOutput input false
  else if b.nFlags &&& OMX_BUFFERFLAG_EOS ≠ 0 then
    (s.releaseBuffer .kPortIndexInput input true).notifyFlush
  else
    match s.configFilters cfg b setup with
    | (s, .notEnoughData) => s.releaseBuffer .kPortIndexInput input false
    | (s, .unknownError) =>
      { s with mbBypass := true }.releaseBuffer .kPortIndexOutput input false
    | (s, .ok) =>
      { s with mInputBuffers := s.mInputBuffers ++ [input], queued := s.queued ++ [b.nTimeStamp] }

def addOutput (s : State) (output : Header) : State :=
  if s.mbFlush then s.releaseBuffer .kPortIndexOutput output true
  else if s.mbBypass ∨ MIN_OUTPUT_NUM ≤ s.mOutputBuffers.length then
    s.releaseBuffer .kPortIndexInput output false
  else { s with mOutputBuffers := s.mOutputBuffers ++ [output] }

/-! ### The component -/

def vppActive (s : State) : Bool := s.mVPPEnabled && cfg.mVPPOn

def fillDecoder (s : State) (h : Header) : State := { s with decoder := h :: s.decoder }

/-- `ISV_FillThisBuffer`, with the answer of the buffer manager. -/
def fillThisBuffer (s : State) (h : Header) (mapped : Bool) : State :=
  let s := { s with client := s.client.erase h }
  if !s.vppActive cfg then s.fillDecoder h
  else if !mapped then { s with mVPPEnabled := false }.fillDecoder h
  else if 0 < s.mNumDecoderBuffers then
    { s with mNumDecoderBuffers := s.mNumDecoderBuffers - 1 }.fillDecoder h
  else s.addOutput h

/-- `ISV_FillBufferDone`, with what the decoder has written into the header. -/
def fillBufferDone (s : State) (h : Header) (b : BufferInfo) (setup : Setup) : State :=
  let s := { s.setInfo h b with decoder := s.decoder.erase h }
  if !s.vppActive cfg || s.mVPPFlushing then { s with client := h :: s.client }
  else s.addInput cfg h setup

/-- `ISV_SendCommand` -/
def sendCommand (s : State) (c : Command) : State :=
  if s.vppActive cfg && flushesOutput c then { s with mVPPFlushing := true }.notifyFlush else s

/-- `ISV_EventHandler` for a command that is complete. It waits for the end of a flush. -/
def commandComplete (s : State) (c : Command) : Option State :=
  if s.vppActive cfg && flushesOutput c then
    if s.mbFlush then none
    else some { s with mVPPFlushing := false, mNumDecoderBuffers := s.mNumDecoderBuffersBak }
  else some s

end State

/-- The calls of the client, of the decoder and of the processor's thread. -/
inductive Op
  | fillThisBuffer (h : Header) (mapped : Bool)
  | fillBufferDone (h : Header) (b : BufferInfo) (setup : Setup)
  | sendCommand (c : Command)
  | commandComplete (c : Command)
  | threadLoop (a : State.Answers)

/-- One call. The client and the decoder only pass buffers that they hold. -/
def step (cfg : Profile) (s : State) : Op → Option State
  | .fillThisBuffer h mapped =>
    if h ∈ s.client then some (s.fillThisBuffer cfg h mapped) else none
  | .fillBufferDone h b setup =>
    if h ∈ s.decoder then some (s.fillBufferDone cfg h b setup) else none
  | .sendCommand c => some (s.sendCommand cfg c)
  | .commandComplete c => s.commandComplete cfg c
  | .threadLoop a => s.threadLoop a

/-- A component whose processor has just started. -/
structure Initial (s : State) : Prop where
  inputs : s.mInputBuffers = []
  outputs : s.mOutputBuffers = []
  inputIdx : s.mInputProcIdx = 0
  outputIdx : s.mOutputProcIdx = 0
  tasks : s.mNumTaskInProcesing = 0
  flush : s.mbFlush = false
  bypass : s.mbBypass = false
  param : s.mFilterParam = ⟨0, none⟩
  filters : s.worker.mFilters = 0
  inputIndex : s.worker.mInputIndex = 0
  outputIndex : s.worker.mOutputIndex = 0
  processed : s.worker.processed = []
  filled : s.worker.filled = []
  arrived : s.arrived = []
  queued : s.queued = []
  returned : s.returned = []
  rendered : s.rendered = []
  once : (s.client ++ s.decoder).Nodup

/-- The processor is started with these filters; the decoder wants no more buffers than it has. -/
def started (client decoder : List Header) (mFilters : BitVec 32) : State where
  info := fun _ => ⟨0, 0, 0, 0⟩
  client := client
  decoder := decoder
  mInputBuffers := []
  mOutputBuffers := []
  mInputProcIdx := 0
  mOutputProcIdx := 0
  mNumTaskInProcesing := 0
  mNumRetry := 0
  mLastTimeStamp := 0
  mbFlush := false
  mbBypass := false
  mFilters := mFilters
  mFilterParam := ⟨0, none⟩
  worker := ⟨0, ⟨0, none⟩, 0, 0, 0, [], []⟩
  mVPPEnabled := true
  mVPPFlushing := false
  mNumDecoderBuffers := 0
  mNumDecoderBuffersBak := 0
  arrived := []
  queued := []
  returned := []
  rendered := []

theorem initial_started {client decoder : List Header} (mFilters : BitVec 32)
    (h : (client ++ decoder).Nodup) : Initial (started client decoder mFilters) :=
  ⟨rfl, rfl, rfl, rfl, rfl, rfl, rfl, rfl, rfl, rfl, rfl, rfl, rfl, rfl, rfl, rfl, rfl, h⟩

end HardwareIntel.Isv
