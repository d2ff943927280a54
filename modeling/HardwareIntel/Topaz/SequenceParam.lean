import HardwareIntel.Topaz.ParameterSets
import HardwareIntel.Topaz.SlotOrder

/-!
# The sequence parameters of the TopazHP encoder

`tng__H264ES_process_sequence_param` takes over what the client wants of a sequence. It brings the
periods of I and IDR frames into a form in which the frames can be reordered, it bounds the bit rate, and
it chooses the level by `tng__H264ES_calculate_level`, which looks up four constraints in a table each.
-/

namespace HardwareIntel.Topaz

inductive RcMode
  | none | cbr | vbr | erc | vcm
  deriving DecidableEq

/-- What is used of `IMG_RC_PARAMS`. -/
structure RcParams where
  rcEnable : Bool
  rcMode : RcMode
  bitsPerSecond : UInt32
  transferBitsPerSecond : UInt32
  frameRate : UInt32
  intraFreq : UInt32
  bFrames : UInt16

/-- What is used of `context_ENC_s`. -/
structure EncContext where
  frameCount : ℕ
  streamFrameCount : UInt32
  width : UInt16
  frameHeight : UInt16
  pictureHeight : UInt16
  profileIdc : UInt8
  levelIdc : UInt8
  maxNumRefFrames : UInt8
  idrPeriod : UInt32
  intraCnt : UInt32
  intraCntSave : UInt32
  idrForceFlag : Bool
  rcUpdateFlag : UInt32
  slotsInUse : UInt8
  vertMvLimit : UInt32
  limitNumVectors : Bool
  rc : RcParams
  cropParams : H264CropParams
  vuiParams : H264VuiParams
  frameOrderInfo : FrameOrderInfo

/-- What is used of `VAEncSequenceParameterBufferH264`. -/
structure EncSequenceParameterBuffer where
  levelIdc : UInt8
  intraPeriod : UInt32
  intraIdrPeriod : UInt32
  ipPeriod : UInt32
  bitsPerSecond : UInt32
  maxNumRefFrames : UInt32
  frameCroppingFlag : UInt8
  frameCropLeftOffset : UInt32
  frameCropRightOffset : UInt32
  frameCropTopOffset : UInt32
  frameCropBottomOffset : UInt32
  numUnitsInTick : UInt32
  timeScale : UInt32

/-! ### The level -/

/-- Thresholds from the highest level down, and the level below all of them. -/
def ladder (steps : List (ℕ × ShLevel)) (lowest : ShLevel) (v : UInt32) : ShLevel :=
  ((steps.find? fun s => s.1 < v.toNat).map Prod.snd).getD lowest

def frameSizeSteps : List (ℕ × ShLevel) :=
  [(22080, .level51), (8704, .level50), (8192, .level42), (5120, .level40), (3600, .level32),
    (1620, .level31), (792, .level22), (396, .level21), (99, .level11)]

def dpbSteps : List (ℕ × ShLevel) :=
  [(110400, .level51), (34816, .level50), (32768, .level42), (20480, .level40), (18000, .level32),
    (8100, .level31), (4752, .level22), (2376, .level21), (900, .level12), (396, .level11)]

def mbsSteps : List (ℕ × ShLevel) :=
  [(589824, .level51), (522240, .level50), (245760, .level42), (216000, .level40), (108000, .level32),
    (40500, .level31), (20250, .level30), (19800, .level22), (11880, .level21), (6000, .level13),
    (3000, .level12), (1485, .level11)]

def bitRateSteps : List (ℕ × ShLevel) :=
  [(135000000, .level51), (50000000, .level50), (20000000, .level41), (14000000, .level32),
    (10000000, .level31), (4000000, .level30), (2000000, .level21), (768000, .level20),
    (384000, .level13), (192000, .level12), (128000, .level11), (64000, .level1B)]

/-- `tng__max` on levels: level 1b has the smallest number. -/
def ShLevel.max (a b : ShLevel) : ShLevel := if b.value < a.value then a else b

/-- `ui32MBf`: the product of two `IMG_UINT16` is an `int`. -/
def EncContext.mbf (ctx : EncContext) : UInt32 :=
  ((ctx.width.toUInt32.toInt32 * ctx.frameHeight.toUInt32.toInt32) >>> 8).toUInt32

/-- `tng__H264ES_calculate_level`. The last ladder is for bit rates, but looks at the frame rate. -/
def calculateLevel (ctx : EncContext) : ShLevel :=
  let mbf := ctx.mbf
  let mbs := mbf * ctx.rc.frameRate
  let level := ladder frameSizeSteps .level10 mbf
  let dpbMbs := mbf * (ctx.maxNumRefFrames.toUInt32 + 1)
  let level := level.max (ladder dpbSteps .level10 dpbMbs)
  let level := level.max (ladder mbsSteps .level10 mbs)
  if ctx.rc.rcEnable then level.max (ladder bitRateSteps .level10 ctx.rc.frameRate) else level

/-! ### The periods -/

/-- `INT_MAX`. -/
def intMax : UInt32 := 0x7FFFFFFF

/-- The periods of a sequence, and the distance of P frames. -/
structure GopPeriods where
  idrPeriod : UInt32
  intraCnt : UInt32
  ipCount : UInt32

namespace GopPeriods

/-- The period of IDR frames when there are P frames between the I frames. -/
def boundIdr (g : GopPeriods) : GopPeriods :=
  if g.idrPeriod = 0 then { g with idrPeriod := intMax / g.intraCnt }
  else if 1 < g.idrPeriod then
    if intMax.toUInt64 ≤ g.idrPeriod.toUInt64 * g.intraCnt.toUInt64 then
      { g with idrPeriod := intMax / g.intraCnt }
    else g
  else g

/-- Round the period of I frames up to a multiple of the distance of P frames. -/
def roundIntra (g : GopPeriods) : GopPeriods :=
  if g.intraCnt % g.ipCount ≠ 0 then
    if intMax - g.ipCount + g.intraCnt % g.ipCount < g.intraCnt then
      { g with intraCnt := intMax - g.ipCount + g.intraCnt % g.ipCount }
    else { g with intraCnt := g.intraCnt + (g.ipCount - g.intraCnt % g.ipCount) }
  else g

/-- The part of `tng__H264ES_process_sequence_param` that is about the periods. -/
def normalise (g : GopPeriods) : GopPeriods :=
  if g.intraCnt = 0 then
    { g with
      intraCnt := if g.ipCount = 1 then intMax else intMax - intMax % g.ipCount
      idrPeriod := 1 }
  else if g.intraCnt = 1 then
    { g with ipCount := 1, idrPeriod := if g.idrPeriod = 0 then intMax else g.idrPeriod }
  else g.boundIdr.roundIntra

end GopPeriods

/-! ### The whole function -/

inductive SequenceStatus
  | success | invalidParameter
  deriving DecidableEq

def topazH264MaxBitrate : UInt32 := 135000000

def rcMaskBitsPerSecond : UInt32 := 0x4

def rcMaskIntraPeriod : UInt32 := 0x1000

def h264esProfileBaseline : UInt8 := 5

def h264esProfileMain : UInt8 := 6

namespace EncContext

variable (ctx : EncContext)

/-- What is taken over before anything is checked. -/
def takeOver (p : EncSequenceParameterBuffer) : EncContext :=
  { ctx with
    frameCount := 0
    levelIdc := p.levelIdc
    maxNumRefFrames := p.maxNumRefFrames.toUInt8
    idrPeriod := p.intraIdrPeriod
    intraCnt := p.intraPeriod }

/-- Take over the periods. -/
def setPeriods (g : GopPeriods) : EncContext :=
  let ctx := { ctx with idrPeriod := g.idrPeriod, intraCnt := g.intraCnt }
  let ctx :=
    if 0 < ctx.streamFrameCount then
      { ctx with
        idrForceFlag := true
        rcUpdateFlag :=
          if ctx.intraCntSave ≠ ctx.intraCnt then ctx.rcUpdateFlag ||| rcMaskIntraPeriod
          else ctx.rcUpdateFlag }
    else ctx
  { ctx with intraCntSave := ctx.intraCnt, slotsInUse := (g.ipCount + 1).toUInt8 }

/-- Take over the bit rate, which is 12 bits for a pixel of 30 frames if the client has none. -/
def setBitRate (wanted : UInt32) : EncContext :=
  let wanted :=
    if wanted = 0 then ctx.width.toUInt32 * ctx.pictureHeight.toUInt32 * 30 * 12 else wanted
  let wanted := if topazH264MaxBitrate < wanted then topazH264MaxBitrate else wanted
  let bitsPerSecond := if ctx.rc.bitsPerSecond = 0 then wanted else ctx.rc.bitsPerSecond
  if wanted ≠ bitsPerSecond then
    { ctx with
      rc := { ctx.rc with bitsPerSecond := wanted }
      rcUpdateFlag := ctx.rcUpdateFlag ||| rcMaskBitsPerSecond }
  else { ctx with rc := { ctx.rc with bitsPerSecond := bitsPerSecond } }

/-- Take over the number of B frames, with slots for the frames that wait. -/
def setBFrames (ipCount : UInt32) : EncContext :=
  let bFrames : UInt16 := if ctx.rc.rcMode = .vcm then 0 else (ipCount - 1).toUInt16
  { ctx with
    rc := { ctx.rc with
      intraFreq := ctx.intraCnt
      transferBitsPerSecond := ctx.rc.bitsPerSecond
      frameRate := if ctx.rc.frameRate = 0 then 30 else ctx.rc.frameRate
      bFrames := bFrames }
    profileIdc :=
      if 0 < bFrames ∧ ctx.profileIdc = h264esProfileBaseline then h264esProfileMain
      else ctx.profileIdc
    frameOrderInfo := if bFrames ≠ 0 then .zero else ctx.frameOrderInfo }

def setCrop (p : EncSequenceParameterBuffer) : EncContext :=
  { ctx with
    cropParams := ⟨p.frameCroppingFlag ≠ 0, p.frameCropLeftOffset.toUInt16,
      p.frameCropRightOffset.toUInt16, p.frameCropTopOffset.toUInt16,
      p.frameCropBottomOffset.toUInt16⟩ }

/-- Choose the level, and what follows from it. -/
def setLevel : EncContext :=
  let level := calculateLevel ctx
  { ctx with
    levelIdc := UInt8.ofNat level.value
    limitNumVectors := ShLevel.level30.value ≤ level.value
    vertMvLimit :=
      if ShLevel.level31.value ≤ level.value then 2047
      else if ShLevel.level21.value ≤ level.value then 1023
      else if ShLevel.level11.value ≤ level.value then 511
      else 255 }

def setVui (p : EncSequenceParameterBuffer) : EncContext :=
  let vui : H264VuiParams := ⟨0, 0, 0, 0, 0, 0, 0, 0, 0⟩
  { ctx with
    vuiParams :=
      if p.timeScale ≠ 0 ∧ p.numUnitsInTick ≠ 0 ∧ p.numUnitsInTick < p.timeScale then
        { vui with timeScale := p.timeScale, numUnitsInTick := p.numUnitsInTick }
      else vui }

/-- What is left when the periods and the bit rate are known. -/
def finish (ipCount : UInt32) (p : EncSequenceParameterBuffer) : EncContext :=
  (((ctx.setBFrames ipCount).setCrop p).setLevel).setVui p

/-- `tng__H264ES_process_sequence_param`, for a buffer of the right size. -/
def processSequenceParam (p : EncSequenceParameterBuffer) : SequenceStatus × EncContext :=
  let ctx := ctx.takeOver p
  if 4 < p.ipPeriod ∨ p.ipPeriod = 0 then (.invalidParameter, ctx)
  else
    let g := GopPeriods.normalise ⟨p.intraIdrPeriod, p.intraPeriod, p.ipPeriod⟩
    (.success, ((ctx.setPeriods g).setBitRate p.bitsPerSecond).finish g.ipCount p)

section Fields

/-- What the periods set in the context. -/
theorem setPeriods_fields (g : GopPeriods) :
    (ctx.setPeriods g).idrPeriod = g.idrPeriod ∧ (ctx.setPeriods g).intraCnt = g.intraCnt ∧
      (ctx.setPeriods g).slotsInUse = (g.ipCount + 1).toUInt8 ∧
      (ctx.setPeriods g).rc = ctx.rc := by
  rw [setPeriods]
  split
  · exact ⟨rfl, rfl, rfl, rfl⟩
  · exact ⟨rfl, rfl, rfl, rfl⟩

/-- The bit rate leaves the periods alone. -/
theorem setBitRate_fields (wanted : UInt32) :
    (ctx.setBitRate wanted).idrPeriod = ctx.idrPeriod ∧
      (ctx.setBitRate wanted).intraCnt = ctx.intraCnt ∧
      (ctx.setBitRate wanted).slotsInUse = ctx.slotsInUse ∧
      (ctx.setBitRate wanted).rc.rcMode = ctx.rc.rcMode := by
  rw [setBitRate]
  repeat' split
  all_goals exact ⟨rfl, rfl, rfl, rfl⟩

/-- So does the rest. -/
theorem finish_fields (ipCount : UInt32) (p : EncSequenceParameterBuffer) :
    (ctx.finish ipCount p).idrPeriod = ctx.idrPeriod ∧
      (ctx.finish ipCount p).intraCnt = ctx.intraCnt ∧
      (ctx.finish ipCount p).slotsInUse = ctx.slotsInUse ∧
      (ctx.finish ipCount p).rc.bFrames =
        if ctx.rc.rcMode = .vcm then 0 else (ipCount - 1).toUInt16 := ⟨rfl, rfl, rfl, rfl⟩

end Fields

end EncContext

end HardwareIntel.Topaz
