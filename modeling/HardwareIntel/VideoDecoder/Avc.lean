import HardwareIntel.VideoDecoder.SurfaceBuffers

/-!
# The AVC decoder

`VideoDecoderAVC` decodes the pictures that the parser has found in a buffer into the surface
buffers of `VideoDecoderBase`. It manages reference frames itself: two decoded picture buffers are
used in turn. For every field or frame the one that is not in use is filled with the references of
the picture and the picture itself, and then becomes the current one.

The acquisitions of the buffers are counted, and a pointer in a decoded picture buffer carries the
number its buffer had when it was entered. Nothing in the code reads these numbers. The picture ids
that are filled in for the driver are left out.
-/

namespace HardwareIntel.VideoDecoder

/-! ### What the parser delivers -/

/-- A picture with its flags. -/
structure VAPictureH264 where
  invalid : Bool
  topField : Bool
  bottomField : Bool
  shortTermReference : Bool
  longTermReference : Bool
  topFieldOrderCnt : ℤ
  bottomFieldOrderCnt : ℤ

namespace VAPictureH264

def isReference (pic : VAPictureH264) : Bool := pic.shortTermReference || pic.longTermReference

def getPoc (pic : VAPictureH264) : ℤ :=
  if pic.bottomField then pic.bottomFieldOrderCnt else pic.topFieldOrderCnt

end VAPictureH264

structure VAPictureParameterBufferH264 where
  currPic : VAPictureH264
  /-- `ReferenceFrames`, of `MAX_REF_NUMBER` pictures -/
  referenceFrames : ℕ → VAPictureH264
  pictureWidthInMbsMinus1 : ℕ
  pictureHeightInMbsMinus1 : ℕ

/-- A slice and the driver's answers while it is decoded. -/
structure VbpSliceDataH264 where
  firstMbInSlice : ℕ
  sliceType : ℕ
  numRefIdxL0ActiveMinus1 : ℕ
  numRefIdxL1ActiveMinus1 : ℕ
  refPicList0 : ℕ → VAPictureH264
  refPicList1 : ℕ → VAPictureH264
  /-- `vaEndPicture` for the first field -/
  endPicture : Bool
  beginPicture : Bool
  /-- both buffers of the picture could be created -/
  pictureBuffers : Bool
  /-- both buffers of the slice could be created, and rendered -/
  renderPicture : Bool
  /-- `vaEndPicture` for a frame that is given up -/
  endDropped : Bool

structure VbpPictureDataH264 where
  picParms : VAPictureParameterBufferH264
  slices : List VbpSliceDataH264

structure VbpDataH264 where
  hasSps : Bool
  hasPps : Bool
  newSps : Bool
  newPps : Bool
  numRefFrames : ℤ
  numPictures : ℕ
  picData : ℕ → VbpPictureDataH264

def VbpDataH264.pictures (data : VbpDataH264) : List VbpPictureDataH264 :=
  (List.range data.numPictures).map data.picData

/-- What the driver and the system answer in a call of `decodeFrame`, apart from the slices. At most
one frame is ended there. -/
structure Answers where
  busy : ℕ → Bool
  endPicture : Bool
  rawData : Bool
  /-- `media.widi.enabled` in `handleNewSequence` and in `decodeFrame` -/
  widiInSequence : Bool
  widi : Bool

/-! ### The state -/

def maxRefNumber : ℕ := 16

/-- `DPB_SIZE` -/
def dpbSize : ℕ := maxRefNumber + 1

def refListSize : ℕ := 32

def pocDefault : ℤ := 0x7FFFFFFF

def widiConsumed : ℤ := 6

def hdmiConsumed : ℤ := 2

def nwConsumed : ℤ := 2

/-- A pointer to a surface buffer, with the number of acquisitions the buffer had at that time. -/
structure Reference where
  buffer : ℕ
  acquisition : ℕ
  deriving DecidableEq

/-- An entry of a decoded picture buffer. -/
structure DecodedPictureBuffer where
  poc : ℤ
  surfaceBuffer : Option Reference

def DecodedPictureBuffer.invalid : DecodedPictureBuffer := ⟨pocDefault, none⟩

/-- What does not change while VA is started. -/
structure AvcConfig extends DecoderConfig where
  /-- built with `USE_GEN_HW` and `USE_AVC_SHORT_FORMAT` -/
  genHw : Bool
  storeMetaData : Bool
  surfaceProtection : Bool
  surfaceNumber : ℤ
  /-- the base class does not manage references -/
  ownReferences : manageReference = false

structure VideoFormatInfo where
  width : ℕ
  height : ℕ
  surfaceWidth : ℕ
  surfaceHeight : ℕ
  actualBufferNeeded : ℤ

structure AvcDecoder where
  /-- the configuration, while VA is started -/
  va : Option AvcConfig
  base : Decoder
  /-- `mDPBs` -/
  dpbs : Bool → ℕ → DecodedPictureBuffer
  toggleDpb : Bool
  /-- the field flags in `mLastPictureFlags` -/
  lastTopField : Bool
  lastBottomField : Bool
  currentPts : UInt64
  format : VideoFormatInfo
  widiOn : Bool
  /-- how often each buffer has been acquired -/
  acquisitions : ℕ → ℕ

variable (c : AvcConfig)

namespace AvcDecoder

/-- The current decoded picture buffer. -/
def dpb (s : AvcDecoder) : ℕ → DecodedPictureBuffer := s.dpbs s.toggleDpb

/-- A pointer to a buffer. -/
def pointer (s : AvcDecoder) (b : ℕ) : Reference := ⟨b, s.acquisitions b⟩

def endDecodingFrame (s : AvcDecoder) (dropFrame endPicture rawData : Bool) :
    DecodeStatus × AvcDecoder :=
  let r := s.base.endDecodingFrame c.toDecoderConfig dropFrame endPicture rawData
  (r.1, { s with base := r.2 })

def flushSurfaceBuffers (s : AvcDecoder) (endPicture : Bool) : AvcDecoder :=
  { s with base := s.base.flushSurfaceBuffers c.toDecoderConfig endPicture }

/-! ### The decoded picture buffers -/

def matchesPoc (pic : VAPictureH264) (e : DecodedPictureBuffer) : Bool :=
  e.poc == pic.bottomFieldOrderCnt || e.poc == pic.topFieldOrderCnt

/-- The first entry for a picture. -/
def findSurfaceBuffer (s : AvcDecoder) (pic : VAPictureH264) : Option Reference :=
  ((List.range dpbSize).find? fun i => matchesPoc pic (s.dpb i)).bind fun i =>
    (s.dpb i).surfaceBuffer

/-- The last entry for a picture. -/
def findRefSurfaceBuffer (s : AvcDecoder) (pic : VAPictureH264) : Option Reference :=
  ((List.range dpbSize).reverse.find? fun i => matchesPoc pic (s.dpb i)).bind fun i =>
    (s.dpb i).surfaceBuffer

def findSurface (s : AvcDecoder) (pic : VAPictureH264) : Option ℕ :=
  (s.findSurfaceBuffer pic).bind fun r => (s.base.buffers r.buffer).surface

def invalidateDpb (s : AvcDecoder) (toggle : Bool) : AvcDecoder :=
  { s with dpbs := Function.update s.dpbs toggle fun i =>
      if i < dpbSize then .invalid else s.dpbs toggle i }

/-- Set or clear `asReferernce` of a buffer. -/
def mark (base : Decoder) (asReference : Bool) (b : ℕ) : Decoder :=
  base.modify b fun x => { x with asReference := asReference }

def clearAsReference (s : AvcDecoder) (toggle : Bool) : AvcDecoder :=
  { s with base := (List.range dpbSize).foldl (fun base i =>
      match (s.dpbs toggle i).surfaceBuffer with
      | some r => mark base false r.buffer
      | none => base) s.base }

/-- The variables of the loop in `updateDPB`: the buffers, the new decoded picture buffer and the
position in it. -/
structure DpbBuild where
  base : Decoder
  dpb : ℕ → DecodedPictureBuffer
  pos : ℕ

/-- Enter a buffer at the position. -/
def DpbBuild.enter (v : DpbBuild) (poc : ℤ) (r : Reference) : DpbBuild where
  base := mark v.base true r.buffer
  dpb := Function.update v.dpb v.pos ⟨poc, some r⟩
  pos := v.pos + 1

/-- The buffer for a reference of the current picture: the one in the decoded picture buffer, or a
replacement when it is missing. -/
def referenceFor (s : AvcDecoder) (a : ℕ) (currPic pic : VAPictureH264) : Option Reference :=
  match s.findRefSurfaceBuffer pic with
  | some r => some r
  | none =>
    if pic.getPoc = currPic.getPoc then some (s.pointer a) else s.base.lastReference.map s.pointer

/-- One reference. When it is missing and cannot be replaced, the position stays. -/
def addReference (s : AvcDecoder) (a : ℕ) (currPic : VAPictureH264) (v : DpbBuild)
    (pic : VAPictureH264) : DpbBuild :=
  if pic.invalid then v
  else
    match s.referenceFor a currPic pic with
    | some r => v.enter pic.getPoc r
    | none => { v with dpb := Function.update v.dpb v.pos ⟨pic.getPoc, none⟩ }

/-- `updateDPB` for a picture that is decoded into buffer `a`. -/
def updateDpb (s : AvcDecoder) (a : ℕ) (pic : VAPictureParameterBufferH264) : AvcDecoder :=
  let s := s.clearAsReference s.toggleDpb
  let v := ((List.range maxRefNumber).map pic.referenceFrames).foldl (s.addReference a pic.currPic)
    ⟨s.base, s.dpbs !s.toggleDpb, 0⟩
  let v := if pic.currPic.isReference then v.enter pic.currPic.getPoc (s.pointer a) else v
  let s := { s with base := v.base, dpbs := Function.update s.dpbs (!s.toggleDpb) v.dpb }
  { s.invalidateDpb s.toggleDpb with toggleDpb := !s.toggleDpb }

/-- The entry that `removeReferenceFromDPB` removes. -/
def removed (s : AvcDecoder) (pic : VAPictureH264) : Option ℕ :=
  if pic.isReference then (List.range dpbSize).find? fun i => pic.getPoc == (s.dpb i).poc else none

def removeReferenceFromDpb (s : AvcDecoder) (pic : VAPictureH264) : AvcDecoder :=
  match s.removed pic with
  | none => s
  | some k =>
    { s with
      base := match (s.dpb k).surfaceBuffer with
        | some r => mark s.base false r.buffer
        | none => s.base
      dpbs := Function.update s.dpbs s.toggleDpb (Function.update s.dpb k .invalid) }

/-! ### Decoding a frame -/

/-- The references of one list: the status when one of them is missing. -/
def setReferenceList (s : AvcDecoder) (activeMinus1 : ℕ) (refPicList : ℕ → VAPictureH264) :
    DecodeStatus :=
  if refListSize ≤ activeMinus1 then .parserFail
  else if (List.range (activeMinus1 + 1)).any fun j =>
      !(refPicList j).invalid && (s.findSurface (refPicList j)).isNone && s.base.lastReference.isNone
    then .noReference
  else .success

def setReference (s : AvcDecoder) (slice : VbpSliceDataH264) : DecodeStatus :=
  let first := s.setReferenceList slice.numRefIdxL0ActiveMinus1 slice.refPicList0
  if first = .success ∧ (slice.sliceType = 1 ∨ slice.sliceType = 6) then
    s.setReferenceList slice.numRefIdxL1ActiveMinus1 slice.refPicList1
  else first

/-- The part of `decodeSlice` for every slice. -/
def renderSlice (s : AvcDecoder) (slice : VbpSliceDataH264) : DecodeStatus :=
  let status := if c.genHw then .success else s.setReference slice
  if status ≠ .success then status
  else if slice.renderPicture then .success else .driverFail

/-- The part of `decodeSlice` for the first slice of a field or frame. -/
def startPicture (s : AvcDecoder) (a : ℕ) (pic : VAPictureParameterBufferH264)
    (slice : VbpSliceDataH264) : DecodeStatus × AvcDecoder :=
  if s.base.decodingFrame && !slice.endPicture then (.driverFail, s)
  else
    let s := if s.base.decodingFrame then
        -- for interlace content, top field may be valid only after the second field is parsed
        { s with base := s.base.modify a fun b =>
          { b with pictureOrder := min pic.currPic.getPoc b.pictureOrder } }
      else s
    let s := s.updateDpb a pic
    if !slice.beginPicture then (.driverFail, s)
    else
      let s := { s with base := { s.base with decodingFrame := true } }
      (if slice.pictureBuffers then .success else .driverFail, s)

def decodeSlice (s : AvcDecoder) (a : ℕ) (pic : VAPictureParameterBufferH264)
    (slice : VbpSliceDataH264) : DecodeStatus × AvcDecoder :=
  let r := if slice.firstMbInSlice = 0 ∨ s.base.decodingFrame = false then
      s.startPicture a pic slice
    else (.success, s)
  if r.1 ≠ .success then r else (r.2.renderSlice c slice, r.2)

/-- The frame is given up after an error in a slice. -/
def dropFrame (s : AvcDecoder) (pic : VAPictureParameterBufferH264) (endDropped : Bool) :
    AvcDecoder :=
  (s.endDecodingFrame c true endDropped true).2.removeReferenceFromDpb pic.currPic

/-- The loop over the slices of a picture. -/
def decodeSlices (s : AvcDecoder) (a : ℕ) (pic : VAPictureParameterBufferH264) :
    List VbpSliceDataH264 → DecodeStatus × AvcDecoder
  | [] => (.success, s)
  | slice :: slices =>
    let r := s.decodeSlice c a pic slice
    if r.1 ≠ .success then (r.1, r.2.dropFrame c pic slice.endDropped)
    else decodeSlices r.2 a pic slices

/-- The loop over the pictures. A frame after the first picture is a packed frame. -/
def decodePictures (s : AvcDecoder) (a : ℕ) (first : Bool) :
    List VbpPictureDataH264 → DecodeStatus × AvcDecoder
  | [] => (.success, s)
  | p :: pictures =>
    if p.slices = [] then (.parserFail, s)
    else if !first && !p.picParms.currPic.topField && !p.picParms.currPic.bottomField then
      (.multipleFrame, s)
    else
      let r := s.decodeSlices c a p.picParms p.slices
      if r.1 ≠ .success then r else decodePictures r.2 a false pictures

def continueDecodingFrame (s : AvcDecoder) (data : VbpDataH264) : DecodeStatus × AvcDecoder :=
  match s.base.acquired with
  | none => (.fail, s)
  | some a =>
    if (s.base.buffers a).surface = none then (.fail, s)
    else s.decodePictures c a true data.pictures

/-- `beginDecodingFrame` after buffer `a` has been acquired: what is known of the frame. -/
def prepare (s : AvcDecoder) (a : ℕ) (data : VbpDataH264) : AvcDecoder :=
  let pic := (data.picData 0).picParms.currPic
  { s with
    base := { s.base with sizeChanged := false }.modify a fun b =>
      { b with
        referenceFrame := pic.isReference, timeStamp := s.currentPts, pictureOrder := pic.getPoc,
        resolutionChange := s.base.sizeChanged, eos := false }
    acquisitions := Function.update s.acquisitions a (s.acquisitions a + 1) }

/-- `acquireSurfaceBuffer` at the begin of a frame. -/
def acquire (s : AvcDecoder) (data : VbpDataH264) (busy : ℕ → Bool) : DecodeStatus × AvcDecoder :=
  let r := s.base.acquireSurfaceBuffer c.toDecoderConfig busy
  match r.1, r.2.acquired with
  | .success, some a => (.success, { s with base := r.2 }.prepare a data)
  | status, _ => (status, { s with base := r.2 })

def beginDecodingFrame (s : AvcDecoder) (data : VbpDataH264) (busy : ℕ → Bool) :
    DecodeStatus × AvcDecoder :=
  let r := s.acquire c data busy
  if r.1 ≠ .success then r else r.2.continueDecodingFrame c data

/-! ### A new sequence -/

/-- `alignMB` -/
def alignMb (a : ℕ) : ℕ := (a + 15) / 16 * 16

def updateFormatInfo (s : AvcDecoder) (data : VbpDataH264) : AvcDecoder :=
  let pic := (data.picData 0).picParms
  let width := (pic.pictureWidthInMbsMinus1 + 1) * 16
  let height := (pic.pictureHeightInMbsMinus1 + 1) * 16
  let changed := s.format.width ≠ width ∨ s.format.height ≠ height
  let resized := changed ∧
    (alignMb s.format.width ≠ width ∨ alignMb s.format.height ≠ height ∨ !c.useGraphicBuffer)
  { s with
    base := { s.base with sizeChanged := s.base.sizeChanged || resized }
    format := { s.format with
      width := width
      height := height
      actualBufferNeeded :=
        if c.surfaceProtection then c.surfaceNumber
        else s.base.outputWindowSize + nwConsumed + data.numRefFrames +
          (if c.genHw then 0 else hdmiConsumed + if s.widiOn then widiConsumed else 0) + 1 } }

def isWiDiStatusChanged (s : AvcDecoder) (widi : Bool) : Bool × AvcDecoder :=
  if c.genHw || s.widiOn || c.surfaceProtection || !c.useGraphicBuffer || !widi then (false, s)
  else
    (true, { s with
      widiOn := true
      format := { s.format with
        actualBufferNeeded := s.format.actualBufferNeeded + widiConsumed } })

def resetSizeChanged (s : AvcDecoder) : AvcDecoder :=
  { s with base := { s.base with sizeChanged := false } }

/-- Whether the surfaces have to be replaced, with native graphic buffers. -/
def needFlush (s : AvcDecoder) (widi : Bool) : Bool × AvcDecoder :=
  let sizeNeedsFlush := if c.storeMetaData then s.base.sizeChanged
    else decide (s.format.surfaceWidth < s.format.width) ||
      decide (s.format.surfaceHeight < s.format.height)
  if sizeNeedsFlush then (true, s)
  else
    let r := s.isWiDiStatusChanged c widi
    (r.1 || decide (c.surfaceNumber < r.2.format.actualBufferNeeded), r.2)

def handleNewSequence (s : AvcDecoder) (data : VbpDataH264) (answers : Answers) :
    DecodeStatus × AvcDecoder :=
  let s := s.updateFormatInfo c data
  if !c.useGraphicBuffer then
    if s.base.sizeChanged then
      (.formatChange, (s.flushSurfaceBuffers c answers.endPicture).resetSizeChanged)
    else (.success, s)
  else
    let n := s.needFlush c answers.widiInSequence
    if !n.1 then (.success, n.2)
    else if c.storeMetaData then
      let e := n.2.endDecodingFrame c false answers.endPicture answers.rawData
      if e.1 ≠ .success then e else (.formatChange, e.2.resetSizeChanged)
    else (.formatChange, (n.2.flushSurfaceBuffers c answers.endPicture).resetSizeChanged)

/-! ### Decoding a buffer -/

def isNewFrame (s : AvcDecoder) (data : VbpDataH264) (equalPts : Bool) : Bool × AvcDecoder :=
  if data.numPictures = 0 then (true, s)
  else
    match (data.picData 0).slices with
    | [] => (true, s)
    | slice :: _ =>
      let currPic := (data.picData 0).picParms.currPic
      if slice.firstMbInSlice ≠ 0 then (!equalPts, s)
      else if (s.lastTopField || currPic.topField) && (s.lastBottomField || currPic.bottomField) then
        -- opposite field
        (false, { s with lastTopField := false, lastBottomField := false })
      else
        let top := data.pictures.any fun p => p.picParms.currPic.topField
        let bottom := data.pictures.any fun p => p.picParms.currPic.bottomField
        (true, { s with
          lastTopField := if top && bottom then false else top
          lastBottomField := if top && bottom then false else bottom })

/-- The last frame is finished and the new one is begun, or the other way round in low delay mode. -/
def decodeNewFrame (s : AvcDecoder) (data : VbpDataH264) (answers : Answers) :
    DecodeStatus × AvcDecoder :=
  if c.lowDelay then
    let r := s.beginDecodingFrame c data answers.busy
    let e := r.2.endDecodingFrame c false answers.endPicture answers.rawData
    (if r.1 ≠ .success ∧ e.1 = .success then r.1 else e.1, e.2)
  else
    let e := s.endDecodingFrame c false answers.endPicture answers.rawData
    if e.1 ≠ .success then e else e.2.beginDecodingFrame c data answers.busy

/-- The part of `decodeFrame` after the parameter sets. -/
def decodePictureData (s : AvcDecoder) (timeStamp : UInt64) (data : VbpDataH264)
    (answers : Answers) : DecodeStatus × AvcDecoder :=
  let w := s.isWiDiStatusChanged c answers.widi
  if w.1 then (.formatChange, w.2.resetSizeChanged.flushSurfaceBuffers c answers.endPicture)
  else if (data.picData 0).slices = [] then
    (if w.2.base.sizeChanged then .formatChange else .success, w.2.resetSizeChanged)
  else
    let n := { w.2 with currentPts := timeStamp }.isNewFrame data (w.2.currentPts == timeStamp)
    if n.1 then n.2.decodeNewFrame c data answers else n.2.continueDecodingFrame c data

def decodeFrame (s : AvcDecoder) (timeStamp : UInt64) (data : VbpDataH264) (answers : Answers) :
    DecodeStatus × AvcDecoder :=
  if !data.hasSps || !data.hasPps then (.noConfig, s)
  else
    let r := if data.newSps || data.newPps then s.handleNewSequence c data answers
      else (.success, s)
    if r.1 ≠ .success then r else r.2.decodePictureData c timeStamp data answers

/-! ### Runs -/

/-- Both decoded picture buffers are emptied. -/
def invalidate (s : AvcDecoder) : AvcDecoder :=
  { (s.invalidateDpb false).invalidateDpb true with
    toggleDpb := false, lastTopField := false, lastBottomField := false }

def flush (s : AvcDecoder) (endPicture : Bool) : AvcDecoder :=
  let s := match s.va with
    | none => s
    | some c =>
      { s with base := s.base.flush c.toDecoderConfig endPicture, currentPts := invalidPts }
  s.invalidate

/-- A surface buffer that has not been used. -/
def freshBuffer (renderDone : Bool) : VideoSurfaceBuffer where
  surface := none
  timeStamp := 0
  renderDone := renderDone
  resolutionChange := false
  eos := false
  pictureOrder := 0
  referenceFrame := false
  asReference := false
  next := none

/-- The surface buffers are deleted. The output queue is not reset. -/
def stop (s : AvcDecoder) (endPicture : Bool) : AvcDecoder :=
  let base := match s.va with
    | none => s.base
    | some c => (s.base.endDecodingFrame c.toDecoderConfig true endPicture true).2
  { s with
    va := none
    base := { base with
      buffers := fun _ => freshBuffer false
      acquired := none
      acquirePos := 0
      nextOutputPoc := minimumPoc
      lastReference := none
      forwardReference := none
      decodingFrame := false
      sizeChanged := false }
    currentPts := invalidPts }.invalidate

/-- How VA is started: the buffers that the client has signalled before, the format, the size of the
output window, and whether the video size has changed. -/
structure StartVa where
  config : AvcConfig
  signalled : ℕ → Bool
  format : VideoFormatInfo
  outputWindowSize : ℤ
  sizeChanged : Bool

def startVa (s : AvcDecoder) (x : StartVa) : AvcDecoder :=
  { s with
    va := some x.config
    base := { s.base with
      buffers := fun i => freshBuffer (!x.config.useGraphicBuffer || x.signalled i)
      outputWindowSize := x.outputWindowSize
      sizeChanged := x.sizeChanged }
    format := x.format }

inductive AvcCall
  | startVa (x : StartVa)
  | decodeFrame (timeStamp : UInt64) (data : VbpDataH264) (answers : Answers)
  | getOutput (draining endPicture rawData : Bool)
  | signalRenderDone (i : ℕ)
  | flush (endPicture : Bool)
  | stop (endPicture : Bool)

/-- One call. VA is started only when no output queue is left from a time before: its buffers have
been deleted. -/
def step (s : AvcDecoder) : AvcCall → Option AvcDecoder
  | .startVa x => if s.va.isSome || s.base.outputHead.isSome then none else some (s.startVa x)
  | .decodeFrame timeStamp data answers => s.va.map fun c =>
    (s.decodeFrame c timeStamp data answers).2
  | .getOutput draining endPicture rawData => s.va.bind fun c =>
    (s.base.getOutput c.toDecoderConfig draining endPicture rawData).map fun r =>
      { s with base := r.2 }
  | .signalRenderDone i => s.va.bind fun c =>
    (s.base.step c.toDecoderConfig (.signalRenderDone i)).map fun base => { s with base := base }
  | .flush endPicture => some (s.flush endPicture)
  | .stop endPicture => some (s.stop endPicture)

/-- A decoder that has just been constructed. -/
def constructed (format : VideoFormatInfo) : AvcDecoder where
  va := none
  base := {
    buffers := fun _ => freshBuffer false
    acquired := none
    acquirePos := 0
    outputHead := none
    outputTail := none
    nextOutputPoc := minimumPoc
    outputWindowSize := 8
    lastReference := none
    forwardReference := none
    decodingFrame := false
    showFrame := true
    sizeChanged := false
    history := ⟨0, fun _ => 0, [], [], fun _ => false⟩ }
  dpbs := fun _ _ => .invalid
  toggleDpb := false
  lastTopField := false
  lastBottomField := false
  currentPts := invalidPts
  format := format
  widiOn := false
  acquisitions := fun _ => 0

end AvcDecoder

end HardwareIntel.VideoDecoder
