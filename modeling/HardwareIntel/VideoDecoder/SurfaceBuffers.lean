import HardwareIntel.Library.IntrusiveQueue
import HardwareIntel.Library.Runs
import Mathlib.Data.Int.Notation

/-!
# Surface buffers of the video decoder

`VideoDecoderBase` owns a pool of surface buffers. A buffer is acquired for a frame, filled by the
decoder of the codec, put into the output queue, handed out to the client by `getOutput`, and can
be acquired again once the client has rendered it and no frame needs it as a reference. The links
of the output queue are kept in the buffers.

This module is the model of that class. Nothing in the code reads the `History` of a decoder: it
numbers the frames that are shown and says where each of them has gone.
-/

namespace HardwareIntel.VideoDecoder

inductive DecodeStatus
  | success
  | fail
  | driverFail
  | noSurface
  | noReference
  | parserFail
  | multipleFrame
  | noConfig
  | formatChange
  deriving DecidableEq

inductive OutputMethod
  | byPct
  | byPoc
  deriving DecidableEq

/-- `INVALID_PTS` -/
def invalidPts : UInt64 := 0xFFFFFFFFFFFFFFFF

/-- `MAXIMUM_POC` -/
def maximumPoc : ℤ := 0x7FFFFFFF

/-- `MINIMUM_POC`, as a signed number -/
def minimumPoc : ℤ := -0x80000000

/-- A surface buffer with its render buffer. A surface is the number of the buffer it was created
for, and `none` is `VA_INVALID_SURFACE`. -/
structure VideoSurfaceBuffer where
  surface : Option ℕ
  timeStamp : UInt64
  renderDone : Bool
  /-- `IS_RESOLUTION_CHANGE` -/
  resolutionChange : Bool
  /-- `IS_EOS` -/
  eos : Bool
  pictureOrder : ℤ
  referenceFrame : Bool
  asReference : Bool
  next : Option ℕ

/-- What does not change while VA is started. -/
structure DecoderConfig where
  numSurfaces : ℕ
  surfaces_pos : 0 < numSurfaces
  useGraphicBuffer : Bool
  rawOutput : Bool
  isSoftwareDecoder : Bool
  manageReference : Bool
  lowDelay : Bool
  outputMethod : OutputMethod

/-- What has become of the frames that were shown. -/
structure History where
  /-- the number of frames that have been put into the output queue -/
  shown : ℕ
  /-- the last frame that was put there in each buffer -/
  frameOf : ℕ → ℕ
  returned : List ℕ
  discarded : List ℕ
  /-- the buffers that were handed out and are not rendered yet -/
  unrendered : ℕ → Bool

structure Decoder where
  buffers : ℕ → VideoSurfaceBuffer
  acquired : Option ℕ
  acquirePos : ℕ
  outputHead : Option ℕ
  outputTail : Option ℕ
  nextOutputPoc : ℤ
  outputWindowSize : ℤ
  lastReference : Option ℕ
  forwardReference : Option ℕ
  decodingFrame : Bool
  showFrame : Bool
  sizeChanged : Bool
  history : History

variable (c : DecoderConfig)

namespace Decoder

/-- Change one buffer. -/
def modify (s : Decoder) (i : ℕ) (f : VideoSurfaceBuffer → VideoSurfaceBuffer) : Decoder :=
  { s with buffers := Function.update s.buffers i (f (s.buffers i)) }

/-- The links of the output queue. -/
def next (s : Decoder) (i : ℕ) : Option ℕ := (s.buffers i).next

/-- The buffers from `mOutputHead` on, as every loop over the output queue meets them. -/
def outputQueue (s : Decoder) : List ℕ := nodes s.next c.numSurfaces s.outputHead

/-! ### Acquiring and releasing -/

/-- `querySurfaceRenderStatus`: `busy` is the driver's answer for the surface of each buffer. -/
def driverRenderDone (s : Decoder) (busy : ℕ → Bool) (i : ℕ) : Bool :=
  !((s.buffers i).surface.isSome && c.useGraphicBuffer && busy i)

/-- A buffer that can be acquired, whose surface no other buffer shows. -/
def canAcquire (s : Decoder) (busy : ℕ → Bool) (i : ℕ) : Bool :=
  !(s.buffers i).asReference && (s.buffers i).renderDone && s.driverRenderDone c busy i &&
    (List.range c.numSurfaces).all fun j =>
      j == i || !((s.buffers j).surface == some i && !(s.buffers j).renderDone)

/-- The search of `acquireSurfaceBuffer`, once around from `mSurfaceAcquirePos`. -/
def findAcquirable (s : Decoder) (busy : ℕ → Bool) : ℕ → ℕ → Option ℕ
  | 0, _ => none
  | fuel + 1, nextAcquire =>
    if s.canAcquire c busy nextAcquire then some nextAcquire
    else
      let nextAcquire := if nextAcquire + 1 = c.numSurfaces then 0 else nextAcquire + 1
      if nextAcquire = s.acquirePos then none else findAcquirable s busy fuel nextAcquire

def acquireSurfaceBuffer (s : Decoder) (busy : ℕ → Bool) : DecodeStatus × Decoder :=
  match s.acquired with
  | some _ => (.fail, s)
  | none =>
    match s.findAcquirable c busy c.numSurfaces s.acquirePos with
    | none => (.noSurface, s)
    | some i =>
      (.success, { s with acquired := some i, acquirePos := i }.modify i fun b =>
        { b with
          surface := some i, timeStamp := invalidPts, resolutionChange := false, eos := false,
          renderDone := false, asReference := false })

def releaseSurfaceBuffer (s : Decoder) : Decoder :=
  match s.acquired with
  | none => s
  | some a =>
    { s with acquired := none }.modify a fun b =>
      { b with asReference := false, renderDone := true }

/-! ### Output -/

/-- The reference frames after a reference frame has been decoded into buffer `a`. -/
def updateReferences (s : Decoder) (a : ℕ) : Decoder :=
  let s :=
    if c.manageReference then
      let s := match s.forwardReference with
        | some f => s.modify f fun b => { b with asReference := false }
        | none => s
      { s with forwardReference := s.lastReference }.modify a fun b =>
        { b with asReference := true }
    else s
  { s with lastReference := some a }

/-- Add a buffer to the output list. -/
def addToOutput (s : Decoder) (a : ℕ) : Decoder :=
  let s := match s.outputHead, s.outputTail with
    | none, _ => { s with outputHead := some a }
    | some _, some t => s.modify t fun b => { b with next := some a }
    | some _, none => s
  { s with
    outputTail := some a
    history := { s.history with
      shown := s.history.shown + 1
      frameOf := Function.update s.history.frameOf a s.history.shown } }.modify a fun b =>
    { b with next := none }

/-- `outputSurfaceBuffer`; `rawData` says whether the raw data can be read, if it is wanted. -/
def outputSurfaceBuffer (s : Decoder) (rawData : Bool) : DecodeStatus × Decoder :=
  match s.acquired with
  | none => (.fail, s)
  | some a =>
    if c.rawOutput && !rawData then (.driverFail, s)
    else
      let s := s.modify a fun b => { b with renderDone := !s.showFrame }
      let s := if (s.buffers a).referenceFrame then s.updateReferences c a else s
      let s := if s.showFrame then s.addToOutput a else s
      (.success, { s with acquired := none, acquirePos := (s.acquirePos + 1) % c.numSurfaces })

/-- `endDecodingFrame`; `endPicture` is the driver's answer. -/
def endDecodingFrame (s : Decoder) (dropFrame endPicture rawData : Bool) :
    DecodeStatus × Decoder :=
  if !s.decodingFrame then
    if s.acquired.isSome then (.fail, s.releaseSurfaceBuffer) else (.success, s)
  else
    match s.acquired with
    | none => (.fail, { s with decodingFrame := false })
    | some _ =>
      if !c.isSoftwareDecoder && !endPicture then
        (.driverFail, { s.releaseSurfaceBuffer with decodingFrame := false })
      else if dropFrame then
        (.success, { s.releaseSurfaceBuffer with decodingFrame := false })
      else
        let r := s.outputSurfaceBuffer c rawData
        (r.1, { r.2 with decodingFrame := false })

/-- `findOutputByPts`: the last buffer with the smallest time stamp. -/
def findOutputByPts (s : Decoder) (queue : List ℕ) : Option ℕ :=
  (queue.foldl (fun (best : UInt64 × Option ℕ) p =>
    if (s.buffers p).timeStamp ≤ best.1 then ((s.buffers p).timeStamp, some p) else best)
    (invalidPts, none)).2

/-- The loop of `findOutputByPct`, with the number of reference frames met before. -/
def scanByPct (s : Decoder) (head : ℕ) : List ℕ → ℕ → Option ℕ
  | [], _ => none
  | p :: queue, reference =>
    if (s.buffers p).referenceFrame then
      if 1 < reference + 1 then some head else scanByPct s head queue (reference + 1)
    else some p

def findOutputByPct (s : Decoder) (draining : Bool) (head : ℕ) (queue : List ℕ) : Option ℕ :=
  match s.scanByPct head queue 0 with
  | some p => some p
  | none => if draining then some head else none

/-- The variables of the loop of `findOutputByPoc`. -/
structure PocScan where
  count : ℤ
  poc : ℤ
  output : Option ℕ
  outputLeastPoc : ℕ
  nextOutputPoc : ℤ

/-- The picture order that is expected after the output. -/
def PocScan.finish (s : Decoder) (v : PocScan) : PocScan :=
  match v.output with
  | some o => { v with nextOutputPoc := (s.buffers o).pictureOrder + 1 }
  | none => v

/-- One pass over the queue: the variables when the loop ends, or `none` when it restarts. -/
def scanByPoc (s : Decoder) : List ℕ → PocScan → Option PocScan
  | [], v => some v
  | p :: queue, v =>
    let order := (s.buffers p).pictureOrder
    let v := { v with count := v.count + 1 }
    if order = 0 ∧ v.output.isSome then
      -- any picture before this one (new IDR) must be output
      some (v.finish s)
    else
      let v := if order = 0 then { v with nextOutputPoc := minimumPoc } else v
      let v :=
        if order < v.poc ∧ v.nextOutputPoc ≤ order then
          { v with poc := order, output := some p, outputLeastPoc := p }
        else v
      if v.poc = v.nextOutputPoc ∨ v.count = s.outputWindowSize then
        if v.output.isSome then some (v.finish s) else none
      else
        scanByPoc s queue (if queue = [] then { v with output := none } else v)

/-- `findOutputByPoc`. A restart resets all variables, so that a second one goes on for ever: the
result is `none` then. -/
def findOutputByPoc (s : Decoder) (draining : Bool) (head : ℕ) (queue : List ℕ) :
    Option (Option ℕ × Decoder) :=
  let ended := match s.scanByPoc queue ⟨0, maximumPoc, none, head, s.nextOutputPoc⟩ with
    | some v => some v
    | none => s.scanByPoc queue ⟨0, maximumPoc, none, head, minimumPoc⟩
  ended.map fun v =>
    (if draining && v.output.isNone then some v.outputLeastPoc else v.output,
      { s with nextOutputPoc := v.nextOutputPoc })

/-- Exchange the time stamps of two buffers. -/
def swapTimeStamps (s : Decoder) (i j : ℕ) : Decoder :=
  let ts := (s.buffers i).timeStamp
  (s.modify i fun b => { b with timeStamp := (s.buffers j).timeStamp }).modify j fun b =>
    { b with timeStamp := ts }

/-- Remove the head of the list. -/
def removeHead (s : Decoder) (head : ℕ) : Decoder :=
  { s with
    outputHead := s.next head
    outputTail := if s.next head = none then none else s.outputTail }

/-- Remove a buffer from the middle or the end of the list. -/
def removeBehind (s : Decoder) (output : ℕ) (queue : List ℕ) : Decoder :=
  match queue.find? fun p => s.next p == some output with
  | none => s
  | some p =>
    { s with outputTail := if s.outputTail = some output then some p else s.outputTail }.modify p
      fun b => { b with next := s.next output }

/-- A buffer is returned to the client. -/
def handOut (s : Decoder) (draining : Bool) (output : ℕ) : Decoder :=
  { s with history := { s.history with
      returned := s.history.frameOf output :: s.history.returned
      unrendered := Function.update s.history.unrendered output true } }.modify output fun b =>
    { b with eos := b.eos || (draining && s.outputTail.isNone) }

/-- The state in which `getOutput` looks at the queue: when draining, the last frame has been
completed. -/
def drained (s : Decoder) (draining endPicture rawData : Bool) : Decoder :=
  if draining then (s.endDecodingFrame c false endPicture rawData).2 else s

/-- The part of `getOutput` that looks at the queue: the buffer that is returned, or `none` when the
call does not return. -/
def takeOutput (s : Decoder) (draining : Bool) : Option (Option ℕ × Decoder) :=
  match s.outputHead with
  | none => some (none, s)
  | some head =>
    if c.lowDelay then some (some head, (s.removeHead head).handOut draining head)
    else
      let queue := s.outputQueue c
      let found := match c.outputMethod with
        | .byPoc => s.findOutputByPoc draining head queue
        | .byPct => some (s.findOutputByPct draining head queue, s)
      found.map fun (output, t) =>
        match output with
        | none => (none, t)
        | some o =>
          let t := match s.findOutputByPts queue with
            | some byPts => if o ≠ byPts then t.swapTimeStamps o byPts else t
            | none => t
          let t := if o ≠ head then t.removeBehind o queue else t.removeHead head
          (some o, t.handOut draining o)

def getOutput (s : Decoder) (draining endPicture rawData : Bool) : Option (Option ℕ × Decoder) :=
  (s.drained c draining endPicture rawData).takeOutput c draining

/-! ### The client and flushing -/

/-- `signalRenderDone` for a buffer. -/
def signalRenderDone (s : Decoder) (i : ℕ) : Decoder :=
  { s with history := { s.history with
      unrendered := Function.update s.history.unrendered i false } }.modify i fun b =>
    { b with renderDone := true }

/-- The frames in the output queue are not going to be returned. -/
def discardQueue (s : Decoder) : Decoder :=
  { s with
    outputHead := none
    outputTail := none
    history := { s.history with
      discarded := (s.outputQueue c).map s.history.frameOf ++ s.history.discarded } }

def flushSurfaceBuffers (s : Decoder) (endPicture : Bool) : Decoder :=
  let s := (s.endDecodingFrame c true endPicture true).2
  let t := (s.outputQueue c).foldl (fun t i => t.modify i fun b =>
    { b with renderDone := true, next := none }) s
  { t with
    outputHead := none
    outputTail := none
    history := (s.discardQueue c).history }

/-- `initSurfaceBuffer(false)`. -/
def initSurfaceBuffer (s : Decoder) : Decoder :=
  { s with buffers := fun i =>
      if i < c.numSurfaces then
        { s.buffers i with
          surface := none, timeStamp := 0, resolutionChange := false, eos := false,
          renderDone := !c.useGraphicBuffer, pictureOrder := 0, referenceFrame := false,
          asReference := false, next := none }
      else s.buffers i }

def flush (s : Decoder) (endPicture : Bool) : Decoder :=
  let s := (s.endDecodingFrame c true endPicture true).2
  let t := s.discardQueue c
  { t with
    sizeChanged := s.sizeChanged || (s.outputQueue c).any fun i => (s.buffers i).resolutionChange
    acquirePos := (s.acquirePos + 1) % c.numSurfaces
    nextOutputPoc := minimumPoc
    acquired := none
    lastReference := none
    forwardReference := none
    decodingFrame := false }.initSurfaceBuffer c

/-! ### Runs -/

/-- What the decoder of a codec writes into the acquired buffer. -/
structure FrameInfo where
  timeStamp : UInt64
  pictureOrder : ℤ
  referenceFrame : Bool
  resolutionChange : Bool
  decodingFrame : Bool
  showFrame : Bool

def prepareFrame (s : Decoder) (f : FrameInfo) : Decoder :=
  let s := { s with decodingFrame := f.decodingFrame, showFrame := f.showFrame }
  match s.acquired with
  | none => s
  | some a => s.modify a fun b =>
    { b with
      timeStamp := f.timeStamp, pictureOrder := f.pictureOrder,
      referenceFrame := f.referenceFrame, resolutionChange := f.resolutionChange }

/-- The calls that a decoder of a codec and the client make, with the driver's answers. -/
inductive Call
  | acquire (busy : ℕ → Bool)
  | prepare (f : FrameInfo)
  | mark (i : ℕ) (asReference : Bool)
  /-- the time stamp of the last reference frame -/
  | restamp (timeStamp : UInt64)
  | setOutputWindowSize (size : ℤ)
  | endDecodingFrame (dropFrame endPicture rawData : Bool)
  | output (rawData : Bool)
  | release
  | getOutput (draining endPicture rawData : Bool)
  | signalRenderDone (i : ℕ)
  | flushSurfaceBuffers (endPicture : Bool)
  | flush (endPicture : Bool)

/-- One call. The client signals buffers that it can have: none that is decoded into or waits in the
output queue. -/
def step (s : Decoder) : Call → Option Decoder
  | .acquire busy => some (s.acquireSurfaceBuffer c busy).2
  | .prepare f => some (s.prepareFrame f)
  | .mark i asReference => some (s.modify i fun b => { b with asReference := asReference })
  | .restamp timeStamp => some (match s.lastReference with
    | none => s
    | some r => s.modify r fun b => { b with timeStamp := timeStamp })
  | .setOutputWindowSize size => some { s with outputWindowSize := if size < 8 then size else 8 }
  | .endDecodingFrame dropFrame endPicture rawData =>
    some (s.endDecodingFrame c dropFrame endPicture rawData).2
  | .output rawData => some (s.outputSurfaceBuffer c rawData).2
  | .release => some s.releaseSurfaceBuffer
  | .getOutput draining endPicture rawData => (s.getOutput c draining endPicture rawData).map (·.2)
  | .signalRenderDone i =>
    if i ∈ s.outputQueue c ∨ s.acquired = some i then none else some (s.signalRenderDone i)
  | .flushSurfaceBuffers endPicture => some (s.flushSurfaceBuffers c endPicture)
  | .flush endPicture => some (s.flush c endPicture)

/-- VA has just been started: the client has the buffers it has not signalled. -/
structure Started (s : Decoder) : Prop where
  buffers : ∀ i, (s.buffers i).surface = none ∧ (s.buffers i).asReference = false ∧
    (s.buffers i).next = none
  acquired : s.acquired = none
  acquirePos : s.acquirePos = 0
  head : s.outputHead = none
  tail : s.outputTail = none
  shown : s.history.shown = 0
  returned : s.history.returned = []
  discarded : s.history.discarded = []
  unrendered : ∀ i, s.history.unrendered i = true → (s.buffers i).renderDone = false

end Decoder

end HardwareIntel.VideoDecoder
