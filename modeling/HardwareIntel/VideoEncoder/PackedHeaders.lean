import HardwareIntel.VideoEncoder.BitstreamCalls
import HardwareIntel.Topaz.H264Syntax

/-!
# Packed parameter sets

`build_packed_seq_buffer` and `build_packed_pic_buffer` write a sequence and a picture parameter set with
the writer of `Bitstream`, and a decoder reads them by the syntax of H.264.

In both, constants are written for some members of the buffers, which are read back if they have these
values. In a sequence parameter set, one less than the bit rate, and one less than eight times the bit
rate, are numbers in Exp-Golomb code, which are negative or overflow for some rates; so are one less than
the width and the height. The flag for cropping is a byte of which a bit is written. `time_scale` is
written as a value of 32 bits after another one of 32 bits, and has bits of that one in it if it has a
word of its own. `seqDecodes_iff` and `picDecodes_iff` say that there is nothing else.
-/

namespace HardwareIntel.VideoEncoder

open List Option Topaz

/-- `VAProfileH264Main` -/
def vaProfileH264Main : ℤ := 6

/-- `VAProfileH264High` -/
def vaProfileH264High : ℤ := 7

/-- The members of `VAEncSequenceParameterBufferH264` that are read, or that are elements of the syntax.
Those that only count behind a flag that is never written are left out. -/
structure VAEncSequenceParameterBufferH264 where
  seqParameterSetId : BitVec 8
  levelIdc : BitVec 8
  bitsPerSecond : BitVec 32
  maxNumRefFrames : BitVec 32
  pictureWidthInMbs : BitVec 16
  pictureHeightInMbs : BitVec 16
  chromaFormatIdc : BitVec 2
  frameMbsOnlyFlag : BitVec 1
  seqScalingMatrixPresentFlag : BitVec 1
  direct8x8InferenceFlag : BitVec 1
  log2MaxFrameNumMinus4 : BitVec 4
  picOrderCntType : BitVec 2
  log2MaxPicOrderCntLsbMinus4 : BitVec 4
  bitDepthLumaMinus8 : BitVec 8
  bitDepthChromaMinus8 : BitVec 8
  frameCroppingFlag : BitVec 8
  frameCropLeftOffset : BitVec 32
  frameCropRightOffset : BitVec 32
  frameCropTopOffset : BitVec 32
  frameCropBottomOffset : BitVec 32
  vuiParametersPresentFlag : BitVec 8
  aspectRatioInfoPresentFlag : BitVec 1
  timingInfoPresentFlag : BitVec 1
  bitstreamRestrictionFlag : BitVec 1
  numUnitsInTick : BitVec 32
  timeScale : BitVec 32

/-- The members of `VAEncPictureParameterBufferH264` that are read, or that are elements of the syntax. -/
structure VAEncPictureParameterBufferH264 where
  picParameterSetId : BitVec 8
  seqParameterSetId : BitVec 8
  picInitQp : BitVec 8
  numRefIdxL0ActiveMinus1 : BitVec 8
  numRefIdxL1ActiveMinus1 : BitVec 8
  chromaQpIndexOffset : BitVec 8
  secondChromaQpIndexOffset : BitVec 8
  entropyCodingModeFlag : BitVec 1
  weightedPredFlag : BitVec 1
  weightedBipredIdc : BitVec 2
  constrainedIntraPredFlag : BitVec 1
  transform8x8ModeFlag : BitVec 1
  deblockingFilterControlPresentFlag : BitVec 1
  redundantPicCntPresentFlag : BitVec 1
  picOrderPresentFlag : BitVec 1
  picScalingMatrixPresentFlag : BitVec 1

/-! ### The builders -/

/-- A member of a buffer, as the writer gets it. -/
def putUi {n : ℕ} (w : BitVec n) (sizeInBits : ℕ) : Put := .ui (w.setWidth 32) sizeInBits

/-- A member of a buffer in Exp-Golomb code. -/
def putUe {n : ℕ} (w : BitVec n) : Put := .ue (w.setWidth 32)

/-- An `int` in Exp-Golomb code. -/
def putUeInt (z : ℤ) : Put := .ue (BitVec.ofInt 32 z)

def rbspTrailingBits : List Put := [.ui 1 1, .byteAligning false]

def nalStartCodePrefix : List Put := [.ui 1 32]

def nalHeader (nalRefIdc nalUnitType : BitVec 32) : List Put :=
  [.ui 0 1, .ui nalRefIdc 2, .ui nalUnitType 5]

def profileIdc (profile : ℤ) : BitVec 32 :=
  if profile = vaProfileH264High then 100 else if profile = vaProfileH264Main then 77 else 66

def constraintSetFlag (profile : ℤ) : BitVec 32 :=
  if profile = vaProfileH264High then 1 <<< 3
  else if profile = vaProfileH264Main then 1 <<< 1
  else 1 <<< 0

/-- A flag out of several ones. -/
def oneFlag (flags mask : BitVec 32) : BitVec 32 := if flags &&& mask ≠ 0 then 1 else 0

section Sequence

variable (profile : ℤ) (frameBitRate : ℤ) (seqParam : VAEncSequenceParameterBufferH264)

/-- The part of `sps_rbsp` that only the high profile has. -/
def chromaPuts : List Put :=
  if profileIdc profile = 100 then [.ue 1, .ue 0, .ue 0, .ui 0 1, .ui 0 1] else []

/-- The part of `sps_rbsp` behind the flag for cropping. -/
def croppingPuts : List Put :=
  if seqParam.frameCroppingFlag ≠ 0 then
    [putUe seqParam.frameCropLeftOffset, putUe seqParam.frameCropRightOffset,
      putUe seqParam.frameCropTopOffset, putUe seqParam.frameCropBottomOffset]
  else []

/-- `sps_rbsp` up to the cropping. -/
def spsFirst (width height : ℤ) : List Put :=
  [.ui (profileIdc profile) 8, .ui (oneFlag (constraintSetFlag profile) 1) 1,
    .ui (oneFlag (constraintSetFlag profile) 2) 1, .ui (oneFlag (constraintSetFlag profile) 4) 1,
    .ui (oneFlag (constraintSetFlag profile) 8) 1, .ui 0 4] ++
  [putUi seqParam.levelIdc 8, putUe seqParam.seqParameterSetId] ++ chromaPuts profile ++
  [putUe seqParam.log2MaxFrameNumMinus4, putUe seqParam.picOrderCntType,
    putUe seqParam.log2MaxPicOrderCntLsbMinus4, putUe seqParam.maxNumRefFrames, .ui 0 1,
    putUeInt width, putUeInt height, putUi seqParam.frameMbsOnlyFlag 1,
    putUi seqParam.direct8x8InferenceFlag 1, putUi seqParam.frameCroppingFlag 1] ++
  croppingPuts seqParam

/-- The flags in front of the timing. -/
def vuiFlags : List Put := [.ui 1 1, .ui 0 1, .ui 0 1, .ui 0 1, .ui 0 1, .ui 1 1]

/-- What follows the timing. -/
def vuiLast (bitRate cpbSize : ℤ) : List Put :=
  [.ui 1 1, .ui 1 1, .ue 0, .ui 4 4, .ui 6 4, putUeInt bitRate, putUeInt cpbSize, .ui 1 1, .ui 23 5,
    .ui 23 5, .ui 23 5, .ui 23 5, .ui 0 1, .ui 0 1, .ui 0 1, .ui 0 1]

/-- The part of `sps_rbsp` for the VUI parameters, where an `int` may overflow. -/
def vui : Option (List Put) :=
  if frameBitRate < 0 then some [.ui 0 1]
  else do
    let bitRate ← intResult (frameBitRate - 1)
    let product ← intResult (frameBitRate * 8)
    let cpbSize ← intResult (product - 1)
    return vuiFlags ++ [.ui 15 32, .ui 900 32] ++ vuiLast bitRate cpbSize

/-- What the assertions of `sps_rbsp` ask for. -/
def Asserted : Prop := seqParam.picOrderCntType = 0 ∧ seqParam.frameMbsOnlyFlag ≠ 0

instance : Decidable (Asserted seqParam) := instDecidableAnd

def spsRbsp : Option (List Put) :=
  if Asserted seqParam then do
    let width ← intResult (seqParam.pictureWidthInMbs.toNat - 1)
    let height ← intResult (seqParam.pictureHeightInMbs.toNat - 1)
    let vui ← vui frameBitRate
    return spsFirst profile seqParam width height ++ vui ++ rbspTrailingBits
  else none

end Sequence

/-- `pps_rbsp` up to the trailing bits. -/
def ppsFirst (picParam : VAEncPictureParameterBufferH264) : List Put :=
  [putUe picParam.picParameterSetId, putUe picParam.seqParameterSetId,
    putUi picParam.entropyCodingModeFlag 1, .ui 0 1, .ue 0, putUe picParam.numRefIdxL0ActiveMinus1,
    putUe picParam.numRefIdxL1ActiveMinus1, putUi picParam.weightedPredFlag 1,
    putUi picParam.weightedBipredIdc 2, .se (picParam.picInitQp.toNat - 26), .se 0, .se 0,
    putUi picParam.deblockingFilterControlPresentFlag 1, .ui 0 1, .ui 0 1,
    putUi picParam.transform8x8ModeFlag 1, .ui 0 1, .se picParam.secondChromaQpIndexOffset.toInt]

def ppsRbsp (picParam : VAEncPictureParameterBufferH264) : List Put :=
  ppsFirst picParam ++ rbspTrailingBits

section Builders

variable (added : ℕ → BitVec 32) (fuel : ℕ)

/-- `build_packed_seq_buffer`. The rate is passed on as an `int`. -/
def buildPackedSeqBuffer (profile : ℤ) (seqParam : VAEncSequenceParameterBufferH264) :
    Option Bitstream := do
  let sps ← spsRbsp profile seqParam.bitsPerSecond.toInt seqParam
  let bs ← puts added fuel bitstreamStart (nalStartCodePrefix ++ nalHeader 3 7 ++ sps)
  return bitstreamEnd bs

def buildPackedPicBuffer (picParam : VAEncPictureParameterBufferH264) : Option Bitstream := do
  let bs ← puts added fuel bitstreamStart (nalStartCodePrefix ++ nalHeader 3 8 ++ ppsRbsp picParam)
  return bitstreamEnd bs

end Builders

/-! ### What a decoder is to read -/

def decodedVui (frameBitRate : ℕ) (unitsInTick timeScale : BitVec 32) : VuiParameters where
  aspectRatio := none
  overscanAppropriateFlag := none
  videoSignalType := none
  chromaLocInfo := none
  timingInfo := some ⟨unitsInTick, timeScale, true⟩
  nalHrdParameters := some {
    bitRateScale := 4
    cpbSizeScale := 6
    schedules := [⟨frameBitRate - 1, frameBitRate * 8 - 1, true⟩]
    initialCpbRemovalDelayLengthMinus1 := 23
    cpbRemovalDelayLengthMinus1 := 23
    dpbOutputDelayLengthMinus1 := 23
    timeOffsetLength := 23 }
  vclHrdParameters := none
  lowDelayHrdFlag := some false
  picStructPresentFlag := false
  bitstreamRestriction := none

/-- The flag of the profile is set, the first one for the baseline profile. -/
def decodedConstraints (profile : ℤ) : BitVec 6 :=
  if profile = vaProfileH264High then 0b000100
  else if profile = vaProfileH264Main then 0b010000
  else 0b100000

def decodedChroma (profile : ℤ) : Option ChromaParameters :=
  if profile = vaProfileH264High then some ⟨1, none, 0, 0, false, none⟩ else none

def decodedCropping (seqParam : VAEncSequenceParameterBufferH264) : Option FrameCropping :=
  if seqParam.frameCroppingFlag ≠ 0 then
    some ⟨seqParam.frameCropLeftOffset.toNat, seqParam.frameCropRightOffset.toNat,
      seqParam.frameCropTopOffset.toNat, seqParam.frameCropBottomOffset.toNat⟩
  else none

/-- The sequence parameter set for a buffer, with the numbers of the timing. What the buffer says about
the parts that are there is asked for by `SeqFlagged`. -/
def decodedSequence (profile : ℤ) (seqParam : VAEncSequenceParameterBufferH264)
    (unitsInTick timeScale : BitVec 32) : SeqParameterSet where
  profileIdc := (profileIdc profile).setWidth 8
  constraintSetFlags := decodedConstraints profile
  levelIdc := seqParam.levelIdc
  seqParameterSetId := seqParam.seqParameterSetId.toNat
  chroma := decodedChroma profile
  log2MaxFrameNumMinus4 := seqParam.log2MaxFrameNumMinus4.toNat
  picOrderCntType := 0
  log2MaxPicOrderCntLsbMinus4 := some seqParam.log2MaxPicOrderCntLsbMinus4.toNat
  picOrderCntCycle := none
  maxNumRefFrames := seqParam.maxNumRefFrames.toNat
  gapsInFrameNumValueAllowedFlag := false
  picWidthInMbsMinus1 := seqParam.pictureWidthInMbs.toNat - 1
  picHeightInMapUnitsMinus1 := seqParam.pictureHeightInMbs.toNat - 1
  frameMbsOnlyFlag := true
  mbAdaptiveFrameFieldFlag := none
  direct8x8InferenceFlag := seqParam.direct8x8InferenceFlag.toNat.testBit 0
  frameCropping := decodedCropping seqParam
  vui := some (decodedVui seqParam.bitsPerSecond.toNat unitsInTick timeScale)

def decodedPicture (picParam : VAEncPictureParameterBufferH264) : PicParameterSet where
  picParameterSetId := picParam.picParameterSetId.toNat
  seqParameterSetId := picParam.seqParameterSetId.toNat
  entropyCodingModeFlag := picParam.entropyCodingModeFlag.toNat.testBit 0
  picOrderPresentFlag := picParam.picOrderPresentFlag.toNat.testBit 0
  sliceGroups := none
  numRefIdxL0ActiveMinus1 := picParam.numRefIdxL0ActiveMinus1.toNat
  numRefIdxL1ActiveMinus1 := picParam.numRefIdxL1ActiveMinus1.toNat
  weightedPredFlag := picParam.weightedPredFlag.toNat.testBit 0
  weightedBipredIdc := picParam.weightedBipredIdc
  picInitQpMinus26 := picParam.picInitQp.toNat - 26
  picInitQsMinus26 := 0
  chromaQpIndexOffset := picParam.chromaQpIndexOffset.toInt
  deblockingFilterControlPresentFlag :=
    picParam.deblockingFilterControlPresentFlag.toNat.testBit 0
  constrainedIntraPredFlag := picParam.constrainedIntraPredFlag.toNat.testBit 0
  redundantPicCntPresentFlag := picParam.redundantPicCntPresentFlag.toNat.testBit 0

def decodedExtension (picParam : VAEncPictureParameterBufferH264) : PicParameterSetExtension where
  transform8x8ModeFlag := picParam.transform8x8ModeFlag.toNat.testBit 0
  picScalingMatrix := none
  secondChromaQpIndexOffset := picParam.secondChromaQpIndexOffset.toInt

/-- The flags of a buffer say which parts of the set are there, and the chroma parameters, if there are
any, are those of the buffer. -/
structure SeqFlagged (seqParam : VAEncSequenceParameterBufferH264) (s : SeqParameterSet) : Prop where
  cropping : s.frameCropping.isSome.toNat = seqParam.frameCroppingFlag.toNat
  vui : s.vui.isSome.toNat = seqParam.vuiParametersPresentFlag.toNat
  aspectRatio : ∀ v ∈ s.vui, v.aspectRatio.isSome.toNat = seqParam.aspectRatioInfoPresentFlag.toNat
  timingInfo : ∀ v ∈ s.vui, v.timingInfo.isSome.toNat = seqParam.timingInfoPresentFlag.toNat
  restriction : ∀ v ∈ s.vui,
    v.bitstreamRestriction.isSome.toNat = seqParam.bitstreamRestrictionFlag.toNat
  chromaFormat : ∀ c ∈ s.chroma, c.chromaFormatIdc = seqParam.chromaFormatIdc.toNat
  lumaDepth : ∀ c ∈ s.chroma, c.bitDepthLumaMinus8 = seqParam.bitDepthLumaMinus8.toNat
  chromaDepth : ∀ c ∈ s.chroma, c.bitDepthChromaMinus8 = seqParam.bitDepthChromaMinus8.toNat
  scalingMatrix : ∀ c ∈ s.chroma,
    c.seqScalingMatrix.isSome.toNat = seqParam.seqScalingMatrixPresentFlag.toNat

/-- The bytes of `build_packed_seq_buffer` are read as the sequence parameter set that was meant, with
these numbers of the timing. -/
def SeqDecodes (added : ℕ → BitVec 32) (profile : ℤ) (seqParam : VAEncSequenceParameterBufferH264)
    (unitsInTick timeScale : BitVec 32) : Prop :=
  ∃ fuel bs s, buildPackedSeqBuffer added fuel profile seqParam = some bs ∧
    decodeUnit 7 seqParameterSet (headerBits bs) = some (s, []) ∧
    s = decodedSequence profile seqParam unitsInTick timeScale ∧ SeqFlagged seqParam s

/-- The bytes of `build_packed_pic_buffer` are read as the picture parameter set that was meant. -/
def PicDecodes (added : ℕ → BitVec 32) (picParam : VAEncPictureParameterBufferH264) : Prop :=
  ∃ fuel bs pps extension, buildPackedPicBuffer added fuel picParam = some bs ∧
    (∀ chromaFormatIdc, decodeUnit 8 (picParameterSetWithExtension chromaFormatIdc) (headerBits bs) =
      some ((pps, some extension), [])) ∧
    pps = decodedPicture picParam ∧ extension = decodedExtension picParam ∧
    extension.picScalingMatrix.isSome.toNat = picParam.picScalingMatrixPresentFlag.toNat

/-- The number of bits in front of the timing. -/
def timingOffset (profile : ℤ) (seqParam : VAEncSequenceParameterBufferH264) : ℕ :=
  (codes 0 (nalStartCodePrefix ++ nalHeader 3 7 ++ spsFirst profile seqParam
    (seqParam.pictureWidthInMbs.toNat - 1) (seqParam.pictureHeightInMbs.toNat - 1) ++
    vuiFlags)).length

/-- What a sequence parameter buffer needs to be written with all its values. -/
structure SeqWritable (seqParam : VAEncSequenceParameterBufferH264) : Prop where
  rate_pos : 0 < seqParam.bitsPerSecond.toNat
  rate_lt : seqParam.bitsPerSecond.toNat < 2 ^ 28
  width : 0 < seqParam.pictureWidthInMbs.toNat
  height : 0 < seqParam.pictureHeightInMbs.toNat
  refFrames : seqParam.maxNumRefFrames.toNat < 2 ^ 31 - 1
  cropping : seqParam.frameCroppingFlag.toNat ≤ 1
  offsets : seqParam.frameCroppingFlag ≠ 0 →
    seqParam.frameCropLeftOffset.toNat < 2 ^ 31 - 1 ∧
    seqParam.frameCropRightOffset.toNat < 2 ^ 31 - 1 ∧
    seqParam.frameCropTopOffset.toNat < 2 ^ 31 - 1 ∧
    seqParam.frameCropBottomOffset.toNat < 2 ^ 31 - 1

/-- The members for which a constant is written have its value. -/
structure SeqStandard (profile : ℤ) (seqParam : VAEncSequenceParameterBufferH264) : Prop where
  vui : seqParam.vuiParametersPresentFlag = 1
  aspectRatio : seqParam.aspectRatioInfoPresentFlag = 0
  timingInfo : seqParam.timingInfoPresentFlag = 1
  restriction : seqParam.bitstreamRestrictionFlag = 0
  chroma : profile = vaProfileH264High → seqParam.chromaFormatIdc = 1 ∧
    seqParam.bitDepthLumaMinus8 = 0 ∧ seqParam.bitDepthChromaMinus8 = 0 ∧
    seqParam.seqScalingMatrixPresentFlag = 0

/-- The members for which a constant is written have its value. -/
structure PicStandard (picParam : VAEncPictureParameterBufferH264) : Prop where
  picOrder : picParam.picOrderPresentFlag = 0
  chromaQp : picParam.chromaQpIndexOffset = 0
  intraPred : picParam.constrainedIntraPredFlag = 0
  picCnt : picParam.redundantPicCntPresentFlag = 0
  scalingMatrix : picParam.picScalingMatrixPresentFlag = 0

/-- What a sequence parameter buffer needs to be read back with its timing, too: 15 and 900, or 911 where
`time_scale` has a word of its own. -/
def SeqFits (profile : ℤ) (seqParam : VAEncSequenceParameterBufferH264) : Prop :=
  SeqWritable seqParam ∧ SeqStandard profile seqParam ∧ seqParam.numUnitsInTick = 15 ∧
    seqParam.timeScale = if timingOffset profile seqParam % 32 = 0 then 911 else 900

/-! ### Values that do not depend on their place -/

/-- The bits of a call do not depend on what is before it. -/
def Put.Plain : Put → Prop
  | ui _ sizeInBits => sizeInBits < 32
  | ue _ => True
  | se _ => True
  | byteAligning _ => False

instance : ∀ p : Put, Decidable p.Plain
  | .ui _ sizeInBits => inferInstanceAs (Decidable (sizeInBits < 32))
  | .ue _ => isTrue trivial
  | .se _ => isTrue trivial
  | .byteAligning _ => isFalse id

/-- A plain code does not depend on its place. -/
theorem Put.Plain.code_eq {p : Put} (h : p.Plain) (length : ℕ) : p.code length = p.code 0 := by
  cases p with
  | byteAligning bit => exact h.elim
  | _ => rfl

/-- A plain call stores its code. -/
theorem Put.Plain.stored_eq {p : Put} (h : p.Plain) (length : ℕ) (last : BitVec 32) :
    p.stored length last = p.code 0 := by
  cases p with
  | ui val sizeInBits => exact if_neg fun hsize => absurd hsize.1 (Nat.ne_of_lt h)
  | byteAligning bit => exact h.elim
  | _ => rfl

/-- What it leaves behind does not depend on its place. -/
theorem Put.Plain.last_eq {p : Put} (h : p.Plain) (length : ℕ) (last : BitVec 32) :
    p.last length last = p.last 0 last := by
  cases p with
  | byteAligning bit => exact h.elim
  | _ => rfl

/-- The bits of plain calls. -/
def plainBits (ps : List Put) : List Bool := ps.flatMap (Put.code 0)

/-- The bits of two sequences. -/
theorem plainBits_append (ps qs : List Put) : plainBits (ps ++ qs) = plainBits ps ++ plainBits qs :=
  flatMap_append

/-- The codes from plain calls on. -/
theorem codes_plain {ps : List Put} (hps : ∀ p ∈ ps, p.Plain) (rest : List Put) :
    ∀ length : ℕ, codes length (ps ++ rest) =
      plainBits ps ++ codes (length + (plainBits ps).length) rest := by
  induction ps with
  | nil => exact fun _ => rfl
  | cons p ps ih =>
    intro length
    obtain ⟨hp, hps⟩ := forall_mem_cons.mp hps
    rw [cons_append, codes, ih hps, hp.code_eq length, plainBits, plainBits, flatMap_cons,
      length_append, append_assoc, Nat.add_assoc]

/-- The bits that are stored from plain calls on. -/
theorem storedAll_plain {ps : List Put} (hps : ∀ p ∈ ps, p.Plain) (rest : List Put) :
    ∀ (length : ℕ) (last : BitVec 32), storedAll length last (ps ++ rest) = plainBits ps ++
      storedAll (length + (plainBits ps).length) (ps.foldl (fun last p => p.last 0 last) last)
        rest := by
  induction ps with
  | nil => exact fun _ _ => rfl
  | cons p ps ih =>
    intro length last
    obtain ⟨hp, hps⟩ := forall_mem_cons.mp hps
    rw [cons_append, storedAll, ih hps, hp.stored_eq, hp.code_eq length, hp.last_eq, plainBits,
      plainBits, flatMap_cons, length_append, append_assoc, Nat.add_assoc, foldl_cons]

/-! ### Units -/

/-- The trailing bits behind `n` others. -/
def trailing (n : ℕ) : List Bool := true :: List.replicate ((8 - (n + 1) % 8) % 8) false

/-- The trailing bits are stored as they are. -/
theorem storedAll_trailing (n : ℕ) (last : BitVec 32) :
    storedAll n last rbspTrailingBits = trailing n := by
  rw [rbspTrailingBits, storedAll, storedAll, storedAll, append_nil]
  rfl

/-- They end on a byte. -/
theorem length_trailing (n : ℕ) : (n + (trailing n).length) % 8 = 0 := by
  rw [trailing, length_cons, length_replicate]
  omega

/-- They are read to the end. -/
theorem rbspTrailing_trailing (n : ℕ) : rbspTrailing (trailing n) = some ((), []) :=
  rbspTrailing_eq (Nat.mod_lt _ (by decide))

/-- The header of a unit. -/
theorem reads_unitHeader (nalRefIdc nalUnitType : BitVec 32) :
    Reads (nalUnitHeader (nalUnitType.setWidth 5))
      (bits 32 1 ++ plainBits (nalHeader nalRefIdc nalUnitType)) () :=
  reads_nalUnitHeader nalRefIdc.toNat nalUnitType.toNat

/-- A unit is read if its payload is read in front of the trailing bits. -/
theorem decodeUnit_trailing {α : Type} {nalRefIdc nalUnitType : BitVec 32} {payload : BitReader α}
    {l : List Bool} {a : α} {n : ℕ}
    (hlength : (bits 32 1 ++ plainBits (nalHeader nalRefIdc nalUnitType) ++ l).length % 8 = n % 8)
    (hread : payload (l ++ trailing n) = some (a, trailing n)) :
    decodeUnit (nalUnitType.setWidth 5) payload
      (bits 32 1 ++ plainBits (nalHeader nalRefIdc nalUnitType) ++ (l ++ trailing n)) =
      some (a, []) := by
  have htotal : (bits 32 1 ++ plainBits (nalHeader nalRefIdc nalUnitType) ++
      (l ++ trailing n)).length % 8 = 0 := by
    have htrailing := length_trailing n
    rw [← append_assoc, length_append]
    omega
  exact decodeUnit_of_reads htotal (reads_unitHeader nalRefIdc nalUnitType) hread
    (rbspTrailing_trailing n)

/-! ### The sequence parameter set -/

section Members

variable {n : ℕ} (w : BitVec n) (sizeInBits : ℕ)

/-- The bits of a value. -/
theorem code_putUi (hn : n ≤ 32) : (putUi w sizeInBits).code 0 = bits sizeInBits w.toNat := by
  rw [putUi, Put.code, BitVec.toNat_setWidth_of_le hn]

/-- The code of an unsigned value. -/
theorem code_putUe (hn : n ≤ 32) : (putUe w).code 0 = ueBits w.toNat := by
  rw [putUe, Put.code, BitVec.toNat_setWidth_of_le hn]

/-- A number that is not negative goes through a word. -/
theorem toNat_ofInt {z : ℤ} (hlow : 0 ≤ z) (hhigh : z < 2 ^ 31) : (BitVec.ofInt 32 z).toNat = z.toNat := by
  rw [BitVec.toNat_ofInt]
  exact congrArg Int.toNat (Int.emod_eq_of_lt hlow (by omega))

/-- The code of a number. -/
theorem code_putUeInt {k : ℕ} (hpos : 0 < k) (hlt : k < 2 ^ 31) :
    (putUeInt (k - 1)).code 0 = ueBits (k - 1) := by
  rw [putUeInt, Put.code, toNat_ofInt (by omega) (by omega), show ((k : ℤ) - 1).toNat = k - 1 by omega]

end Members

/-- The profile and its constraints, which are eight bits together with the ones that are reserved. -/
theorem profile_bits (profile : ℤ) :
    plainBits [.ui (profileIdc profile) 8, .ui (oneFlag (constraintSetFlag profile) 1) 1,
      .ui (oneFlag (constraintSetFlag profile) 2) 1, .ui (oneFlag (constraintSetFlag profile) 4) 1,
      .ui (oneFlag (constraintSetFlag profile) 8) 1, .ui 0 4] =
    bits 8 (profileIdc profile).toNat ++
      (bits 6 (decodedConstraints profile).toNat ++ bits 2 0) := by
  rw [profileIdc, constraintSetFlag, decodedConstraints]
  split_ifs <;> decide

/-- The chroma parameters are read back. -/
theorem reads_chroma (profile : ℤ) :
    Reads (BitReader.onlyIf (highProfiles.contains ((profileIdc profile).setWidth 8)) chromaParameters)
      (plainBits (chromaPuts profile)) (decodedChroma profile) := by
  have hread : Reads chromaParameters (ueBits 1 ++ ([] ++ (ueBits 0 ++ (ueBits 0 ++ (bits 1 0 ++
      (bits 1 0 ++ [])))))) ⟨1, none, 0, 0, false, none⟩ := by
    unfold chromaParameters
    refine (Reads.ue 1).bind ((Reads.onlyIf_false _).bind ?_)
    refine (Reads.ue 0).bind ((Reads.ue 0).bind ((Reads.flag_bits 0).bind ?_))
    exact (Reads.flag_bits 0).bind ((Reads.onlyIf_false _).bind_pure _)
  rw [decodedChroma, chromaPuts, profileIdc]
  by_cases hhigh : profile = vaProfileH264High
  · rw [if_pos hhigh, if_pos hhigh, if_pos rfl]
    exact Reads.onlyIf_true hread
  · rw [if_neg hhigh, if_neg hhigh]
    by_cases hmain : profile = vaProfileH264Main
    · rw [if_pos hmain]
      exact Reads.onlyIf_false _
    · rw [if_neg hmain]
      exact Reads.onlyIf_false _

variable {seqParam : VAEncSequenceParameterBufferH264}

/-- The cropping is read back. -/
theorem reads_cropping (hflag : seqParam.frameCroppingFlag.toNat ≤ 1) :
    Reads (BitReader.onlyIf (seqParam.frameCroppingFlag.toNat.testBit 0) frameCropping)
      (plainBits (croppingPuts seqParam)) (decodedCropping seqParam) := by
  rw [croppingPuts, decodedCropping]
  by_cases hzero : seqParam.frameCroppingFlag = 0
  · rw [if_neg (not_not.mpr hzero), if_neg (not_not.mpr hzero), hzero]
    exact Reads.onlyIf_false _
  · have hone : seqParam.frameCroppingFlag.toNat = 1 := by
      have hne : seqParam.frameCroppingFlag.toNat ≠ 0 := fun h => hzero (BitVec.eq_of_toNat_eq h)
      omega
    rw [if_pos hzero, if_pos hzero, hone]
    refine Reads.onlyIf_true ?_
    simp only [plainBits, flatMap_cons, flatMap_nil, code_putUe _ (le_refl 32), append_nil]
    exact reads_frameCropping _ _ _ _

/-- The bits of the last VUI elements. -/
theorem plainBits_vuiLast (bitRate cpbSize : ℤ) :
    plainBits (vuiLast bitRate cpbSize) = bits 1 1 ++ (bits 1 1 ++ (ueBits 0 ++ (bits 4 4 ++
      (bits 4 6 ++ ((putUeInt bitRate).code 0 ++ ((putUeInt cpbSize).code 0 ++ (bits 1 1 ++
      (bits 5 23 ++ (bits 5 23 ++ (bits 5 23 ++ (bits 5 23 ++ (bits 1 0 ++ (bits 1 0 ++
      (bits 1 0 ++ bits 1 0)))))))))))))) := rfl

/-- The VUI parameters, with a time scale. -/
theorem reads_vui {frameBitRate : ℕ} (hpos : 0 < frameBitRate) (hrate : frameBitRate < 2 ^ 28)
    (timeScale : ℕ) :
    Reads vuiParameters (plainBits vuiFlags.tail ++ (bits 32 15 ++ (bits 32 timeScale ++
      plainBits (vuiLast (frameBitRate - 1) (frameBitRate * 8 - 1)))))
      (decodedVui frameBitRate 15 (BitVec.ofNat 32 timeScale)) := by
  have hread := reads_vuiParameters (reads_timingInfo 15 timeScale)
    (reads_hrdParameters 4 6 (frameBitRate - 1) (frameBitRate * 8 - 1) 1 23 23 23 23)
  have hcpbSize : (putUeInt (frameBitRate * 8 - 1)).code 0 = ueBits (frameBitRate * 8 - 1) :=
    mod_cast @code_putUeInt (frameBitRate * 8) (by omega) (by omega)
  simp only [append_assoc] at hread
  rw [plainBits_vuiLast, code_putUeInt hpos (by omega), hcpbSize]
  exact hread

/-- The bits of the first elements. -/
theorem plainBits_spsFirst (profile : ℤ) (seqParam : VAEncSequenceParameterBufferH264)
    (width height : ℤ) :
    plainBits (spsFirst profile seqParam width height) =
      bits 8 (profileIdc profile).toNat ++ (bits 6 (decodedConstraints profile).toNat ++ (bits 2 0 ++
      (bits 8 seqParam.levelIdc.toNat ++ (ueBits seqParam.seqParameterSetId.toNat ++
      (plainBits (chromaPuts profile) ++ (ueBits seqParam.log2MaxFrameNumMinus4.toNat ++
      (ueBits seqParam.picOrderCntType.toNat ++
      (ueBits seqParam.log2MaxPicOrderCntLsbMinus4.toNat ++ (ueBits seqParam.maxNumRefFrames.toNat ++
      (bits 1 0 ++ ((putUeInt width).code 0 ++ ((putUeInt height).code 0 ++
      (bits 1 seqParam.frameMbsOnlyFlag.toNat ++ (bits 1 seqParam.direct8x8InferenceFlag.toNat ++
      (bits 1 seqParam.frameCroppingFlag.toNat ++
        plainBits (croppingPuts seqParam)))))))))))))))) := by
  rw [spsFirst, plainBits_append, plainBits_append, plainBits_append, plainBits_append, profile_bits]
  simp only [plainBits, flatMap_cons, flatMap_nil, code_putUi, code_putUe, append_assoc,
    Nat.reduceLeDiff, le_refl, nil_append]
  rfl

/-- The payload in front of the timing. -/
def seqBody (profile : ℤ) (seqParam : VAEncSequenceParameterBufferH264) : List Put :=
  spsFirst profile seqParam (seqParam.pictureWidthInMbs.toNat - 1)
    (seqParam.pictureHeightInMbs.toNat - 1) ++ vuiFlags

/-- The payload behind the timing. -/
def seqLast (seqParam : VAEncSequenceParameterBufferH264) : List Put :=
  vuiLast (seqParam.bitsPerSecond.toNat - 1) (seqParam.bitsPerSecond.toNat * 8 - 1)

/-- The sequence parameter set, with a time scale. -/
theorem reads_sequence (profile : ℤ) (hasserted : Asserted seqParam) (hw : SeqWritable seqParam)
    (timeScale : ℕ) :
    Reads seqParameterSet (plainBits (seqBody profile seqParam) ++
      (bits 32 15 ++ (bits 32 timeScale ++ plainBits (seqLast seqParam))))
      (decodedSequence profile seqParam 15 (BitVec.ofNat 32 timeScale)) := by
  have hvui := reads_vui hw.rate_pos hw.rate_lt timeScale
  have hwidth := seqParam.pictureWidthInMbs.isLt
  have hheight := seqParam.pictureHeightInMbs.isLt
  have htype : seqParam.picOrderCntType.toNat = 0 := by
    rw [hasserted.1]
    rfl
  have hframe : seqParam.frameMbsOnlyFlag.toNat = 1 := by
    have hlt := seqParam.frameMbsOnlyFlag.isLt
    have hne : seqParam.frameMbsOnlyFlag.toNat ≠ 0 := fun h => hasserted.2 (BitVec.eq_of_toNat_eq h)
    omega
  have hflags : plainBits vuiFlags = bits 1 1 ++ plainBits vuiFlags.tail := rfl
  rw [seqBody, plainBits_append, plainBits_spsFirst, code_putUeInt hw.width (by omega),
    code_putUeInt hw.height (by omega), htype, hframe, hflags]
  simp only [append_assoc]
  unfold seqParameterSet
  refine (Reads.u 8 _).bind ((Reads.u 6 _).bind ((Reads.u 2 _).bind ((Reads.u 8 _).bind ?_)))
  simp only [BitVec.ofNat_toNat, BitVec.setWidth_eq]
  refine (Reads.ue _).bind ((reads_chroma profile).bind ?_)
  refine (Reads.ue _).bind ((Reads.ue 0).bind ((Reads.onlyIf_true (Reads.ue _)).bind ?_))
  refine (Reads.onlyIf_false _).bind (l := []) ?_
  refine (Reads.ue _).bind ((Reads.flag_bits _).bind ((Reads.ue _).bind ((Reads.ue _).bind ?_)))
  refine (Reads.flag_bits 1).bind ((Reads.onlyIf_false _).bind (l := []) ?_)
  refine (Reads.flag_bits _).bind ((Reads.flag_bits _).bind ((reads_cropping hw.cropping).bind ?_))
  exact (Reads.flag_bits 1).bind ((Reads.onlyIf_true hvui).bind_pure _)

/-! ### What is written -/

/-- A call that is valid and ends. -/
def Put.Good (p : Put) : Prop := p.Valid ∧ p.Ends

instance (p : Put) : Decidable p.Good := instDecidableAnd

/-- A call with a result whose bits do not depend on its place. -/
def Put.Steady (p : Put) : Prop := p.Good ∧ p.Plain

instance (p : Put) : Decidable p.Steady := instDecidableAnd

/-- A value in more bits than it has is stored as it is. -/
theorem steady_putUi {n sizeInBits : ℕ} (w : BitVec n)
    (h : 0 < sizeInBits ∧ n ≤ sizeInBits ∧ sizeInBits < 32) : (putUi w sizeInBits).Steady := by
  obtain ⟨hpos, hn, hsize⟩ := h
  refine ⟨⟨⟨hpos, hsize.le, ?_⟩, trivial⟩, hsize⟩
  rw [BitVec.toNat_setWidth_of_le (hn.trans hsize.le)]
  exact lt_of_lt_of_le w.isLt (Nat.pow_le_pow_right (by decide) hn)

/-- A small unsigned value is coded. -/
theorem steady_putUe {n : ℕ} (hn : n ≤ 32) {w : BitVec n} (hw : w.toNat < 2 ^ 31 - 1) :
    (putUe w).Steady := by
  refine ⟨⟨?_, ?_⟩, trivial⟩
  · rw [putUe, Put.Valid, BitVec.toNat_setWidth_of_le hn]
    omega
  · rw [putUe, Put.Ends, BitVec.toNat_setWidth_of_le hn]
    omega

/-- A number of few bits. -/
theorem steady_putUe_of_le {n : ℕ} (w : BitVec n) (hn : n ≤ 30) : (putUe w).Steady := by
  refine steady_putUe (by omega) ?_
  have hlt := w.isLt
  have hpow : 2 ^ n ≤ 2 ^ 30 := Nat.pow_le_pow_right (by decide) hn
  omega

/-- A small number is coded. -/
theorem steady_putUeInt {z : ℤ} (hlow : 0 ≤ z) (hhigh : z < 2 ^ 31 - 1) : (putUeInt z).Steady := by
  refine ⟨⟨?_, ?_⟩, trivial⟩
  · rw [putUeInt, Put.Valid, toNat_ofInt hlow (by omega)]
    omega
  · rw [putUeInt, Put.Ends, toNat_ofInt hlow (by omega)]
    omega

/-- The calls of a header, with a result. -/
theorem puts_good (added : ℕ → BitVec 32) {ps : List Put} (hps : ∀ p ∈ ps, p.Good)
    (hlength : ps.length < 2 ^ 24) :
    ∃ bs, (∀ {fuel bs'}, puts added fuel bitstreamStart ps = some bs' → bs' = bs) ∧
      puts added 31 bitstreamStart ps = some bs ∧ bs.bitOffset = (codes 0 ps).length ∧
      headerBits (bitstreamEnd bs) = storedAll 0 0 ps ++ padding (codes 0 ps).length := by
  have hvalid : ∀ p ∈ ps, p.Valid := fun p hp => (hps p hp).1
  have hcodes := length_codes_le hvalid 0
  obtain ⟨-, hnot⟩ | ⟨bs, hunique, hputs, hoffset, hbits, -⟩ := puts_stored added hvalid
  · exact absurd ⟨fun p hp => (hps p hp).2, by omega⟩ hnot
  · exact ⟨bs, hunique, hputs, hoffset, hbits⟩

/-- A unit of calls that do not depend on their place is read if its payload is. -/
theorem decode_plain (added : ℕ → BitVec 32) {nalRefIdc nalUnitType : BitVec 32} {body : List Put}
    (hsteady : ∀ p ∈ nalHeader nalRefIdc nalUnitType ++ body, p.Steady) (hlength : body.length < 2 ^ 23)
    {α : Type}
    {payload : BitReader α} {a : α}
    (hread : ∀ n, payload (plainBits body ++ trailing n) = some (a, trailing n)) :
    ∃ bs, (∀ {fuel bs'}, puts added fuel bitstreamStart
        (nalStartCodePrefix ++ nalHeader nalRefIdc nalUnitType ++ (body ++ rbspTrailingBits)) =
        some bs' → bs' = bs) ∧
      puts added 31 bitstreamStart
        (nalStartCodePrefix ++ nalHeader nalRefIdc nalUnitType ++ (body ++ rbspTrailingBits)) =
        some bs ∧
      decodeUnit (nalUnitType.setWidth 5) payload (headerBits (bitstreamEnd bs)) = some (a, []) := by
  have hall : ∀ p ∈ nalStartCodePrefix ++ nalHeader nalRefIdc nalUnitType ++
      (body ++ rbspTrailingBits), p.Good := by
    simp only [forall_mem_append] at hsteady ⊢
    exact ⟨⟨by decide, fun p hp => (hsteady.1 p hp).1⟩, fun p hp => (hsteady.2 p hp).1, by decide⟩
  have hfew : (nalStartCodePrefix ++ nalHeader nalRefIdc nalUnitType ++
      (body ++ rbspTrailingBits)).length < 2 ^ 24 := by
    simp only [nalStartCodePrefix, nalHeader, rbspTrailingBits, length_append, length_cons,
      length_nil]
    omega
  obtain ⟨bs, hunique, hputs, -, hbits⟩ := puts_good added hall hfew
  refine ⟨bs, hunique, hputs, ?_⟩
  have hlist : nalStartCodePrefix ++ nalHeader nalRefIdc nalUnitType ++ (body ++ rbspTrailingBits) =
      .ui 1 32 :: ((nalHeader nalRefIdc nalUnitType ++ body) ++ rbspTrailingBits) := by
    rw [nalStartCodePrefix]
    simp
  have hcode : ((Put.ui 1 32).code 0).length = 32 := length_bits _ _
  have hstored : storedAll 0 0 (.ui 1 32 :: ((nalHeader nalRefIdc nalUnitType ++ body) ++
      rbspTrailingBits)) = bits 32 1 ++ (plainBits (nalHeader nalRefIdc nalUnitType ++ body) ++
        trailing (0 + 32 + (plainBits (nalHeader nalRefIdc nalUnitType ++ body)).length)) := by
    rw [storedAll, storedAll_plain fun p hp => (hsteady p hp).2, hcode, storedAll_trailing]
    rfl
  rw [hlist, hstored, ← length_storedAll _ 0 0, hstored] at hbits
  rw [hbits]
  generalize hn : 0 + 32 + (plainBits (nalHeader nalRefIdc nalUnitType ++ body)).length = n
  have hbytes : padding (bits 32 1 ++ (plainBits (nalHeader nalRefIdc nalUnitType ++ body) ++
      trailing n)).length = [] := by
    have htrailing := length_trailing n
    rw [padding, length_append, length_append, length_bits,
      show (8 - (32 + ((plainBits (nalHeader nalRefIdc nalUnitType ++ body)).length +
        (trailing n).length)) % 8) % 8 = 0 by omega]
    rfl
  have hunit := @decodeUnit_trailing _ nalRefIdc nalUnitType payload (plainBits body) a n (by
    rw [plainBits_append, length_append] at hn
    rw [length_append, length_append, length_bits]
    omega) (hread n)
  rw [hbytes, append_nil, plainBits_append]
  simp only [append_assoc] at hunit ⊢
  exact hunit

/-- The time scale that is written. -/
def writtenTimeScale (profile : ℤ) (seqParam : VAEncSequenceParameterBufferH264) : ℕ :=
  if timingOffset profile seqParam % 32 = 0 then 911 else 900

section Sequence

variable (profile : ℤ) (seqParam : VAEncSequenceParameterBufferH264)

/-- The calls in front of the timing, without the start code. -/
def seqFirst : List Put := nalHeader 3 7 ++ seqBody profile seqParam

/-- All calls for a sequence parameter set. -/
def seqPuts : List Put :=
  .ui 1 32 :: (seqFirst profile seqParam ++ (.ui 15 32 :: .ui 900 32 ::
    (seqLast seqParam ++ rbspTrailingBits)))

variable {seqParam}

/-- The set is written by these calls. -/
theorem spsRbsp_eq (hasserted : Asserted seqParam) (hw : SeqWritable seqParam) :
    (spsRbsp profile seqParam.bitsPerSecond.toInt seqParam).map
      (fun sps => nalStartCodePrefix ++ nalHeader 3 7 ++ sps) = some (seqPuts profile seqParam) := by
  have hrate : seqParam.bitsPerSecond.toInt = seqParam.bitsPerSecond.toNat := by
    have hlt := hw.rate_lt
    rw [BitVec.toInt_eq_toNat_cond, if_pos (by omega)]
  have hpos := hw.rate_pos
  have hlt := hw.rate_lt
  have hwidth := seqParam.pictureWidthInMbs.isLt
  have hheight := seqParam.pictureHeightInMbs.isLt
  rw [spsRbsp, if_pos hasserted, hrate, vui, if_neg (by omega),
    intResult_of_mem (by omega) (by omega), intResult_of_mem (by omega) (by omega),
    intResult_of_mem (by omega) (by omega), intResult_of_mem (by omega) (by omega)]
  simp only [Option.bind_eq_bind, Option.bind_some, intResult_of_mem (show
    -2 ^ 31 ≤ (seqParam.bitsPerSecond.toNat : ℤ) * 8 - 1 by omega) (by omega)]
  simp only [Option.pure_def, Option.bind_some, Option.map_some, seqPuts, seqFirst, seqBody, seqLast,
    nalStartCodePrefix, List.append_assoc, List.cons_append, List.nil_append]

/-- The chroma parameters are steady. -/
theorem steady_chromaPuts : ∀ p ∈ chromaPuts profile, p.Steady := by
  rw [chromaPuts]
  split_ifs <;> decide

/-- So is the cropping. -/
theorem steady_croppingPuts (hw : SeqWritable seqParam) : ∀ p ∈ croppingPuts seqParam, p.Steady := by
  rw [croppingPuts]
  split_ifs with hflag
  · obtain ⟨hleft, hright, htop, hbottom⟩ := hw.offsets hflag
    simp only [forall_mem_cons]
    exact ⟨steady_putUe (le_refl 32) hleft, steady_putUe (le_refl 32) hright,
      steady_putUe (le_refl 32) htop, steady_putUe (le_refl 32) hbottom, forall_mem_nil _⟩
  · exact forall_mem_nil _

/-- So is the profile. -/
theorem steady_profile : ∀ p ∈ ([.ui (profileIdc profile) 8,
    .ui (oneFlag (constraintSetFlag profile) 1) 1, .ui (oneFlag (constraintSetFlag profile) 2) 1,
    .ui (oneFlag (constraintSetFlag profile) 4) 1, .ui (oneFlag (constraintSetFlag profile) 8) 1,
    .ui 0 4] : List Put), p.Steady := by
  rw [profileIdc, constraintSetFlag]
  split_ifs <;> decide

/-- So are the elements before the timing. -/
theorem steady_seqFirst (hw : SeqWritable seqParam) : ∀ p ∈ seqFirst profile seqParam, p.Steady := by
  have hflag : (putUi seqParam.frameCroppingFlag 1).Steady := by
    have hlt := hw.cropping
    refine ⟨⟨⟨le_refl 1, by decide, ?_⟩, trivial⟩, (by decide : 1 < 32)⟩
    rw [BitVec.toNat_setWidth_of_le (by decide)]
    omega
  have hwidth := seqParam.pictureWidthInMbs.isLt
  have hheight := seqParam.pictureHeightInMbs.isLt
  have hwidth' := hw.width
  have hheight' := hw.height
  rw [seqFirst, seqBody, spsFirst]
  simp only [forall_mem_append]
  refine ⟨by decide, ⟨⟨⟨⟨steady_profile profile, ?_⟩, steady_chromaPuts profile⟩, ?_⟩,
    steady_croppingPuts hw⟩, by decide⟩
  · simp only [forall_mem_cons]
    exact ⟨steady_putUi _ (by decide), steady_putUe_of_le _ (by decide), forall_mem_nil _⟩
  · simp only [forall_mem_cons]
    exact ⟨steady_putUe_of_le _ (by decide), steady_putUe_of_le _ (by decide),
      steady_putUe_of_le _ (by decide), steady_putUe (le_refl 32) hw.refFrames, by decide,
      steady_putUeInt (by omega) (by omega), steady_putUeInt (by omega) (by omega),
      steady_putUi _ (by decide), steady_putUi _ (by decide), hflag, forall_mem_nil _⟩

/-- So are those behind it. -/
theorem steady_seqLast (hw : SeqWritable seqParam) : ∀ p ∈ seqLast seqParam, p.Steady := by
  have hpos := hw.rate_pos
  have hlt := hw.rate_lt
  rw [seqLast, vuiLast]
  simp only [forall_mem_cons]
  exact ⟨by decide, by decide, by decide, by decide, by decide, steady_putUeInt (by omega) (by omega),
    steady_putUeInt (by omega) (by omega), by decide, by decide, by decide, by decide, by decide,
    by decide, by decide, by decide, by decide, forall_mem_nil _⟩

/-- All calls are good ones. -/
theorem good_seqPuts (hw : SeqWritable seqParam) : ∀ p ∈ seqPuts profile seqParam, p.Good := by
  rw [seqPuts]
  simp only [forall_mem_cons, forall_mem_append]
  exact ⟨by decide, fun p hp => (steady_seqFirst profile hw p hp).1, by decide, by decide,
    fun p hp => (steady_seqLast hw p hp).1, by decide⟩

/-- They are not many. -/
theorem length_seqPuts (seqParam : VAEncSequenceParameterBufferH264) :
    (seqPuts profile seqParam).length < 2 ^ 24 := by
  have hchroma : (chromaPuts profile).length ≤ 5 := by
    rw [chromaPuts]
    split_ifs <;> decide
  have hcropping : (croppingPuts seqParam).length ≤ 4 := by
    rw [croppingPuts]
    split_ifs
    · exact le_refl 4
    · exact Nat.zero_le 4
  simp only [seqPuts, seqFirst, seqBody, spsFirst, nalHeader, vuiFlags, seqLast, vuiLast,
    rbspTrailingBits, length_cons, length_append, length_nil]
  omega

/-- Where the timing begins. -/
theorem timingOffset_eq (hw : SeqWritable seqParam) :
    timingOffset profile seqParam = 32 + (plainBits (seqFirst profile seqParam)).length := by
  have hputs : nalStartCodePrefix ++ nalHeader 3 7 ++ spsFirst profile seqParam
      (seqParam.pictureWidthInMbs.toNat - 1) (seqParam.pictureHeightInMbs.toNat - 1) ++ vuiFlags =
      .ui 1 32 :: (seqFirst profile seqParam ++ []) := by
    rw [seqFirst, seqBody, nalStartCodePrefix, append_nil]
    simp
  rw [timingOffset, hputs, codes, codes_plain fun p hp => (steady_seqFirst profile hw p hp).2, codes,
    append_nil, length_append]
  rfl

/-- The bits of a sequence parameter set. -/
theorem storedAll_seqPuts (hw : SeqWritable seqParam) {l : List Bool}
    (hl : plainBits (seqLast seqParam) = l) :
    storedAll 0 0 (seqPuts profile seqParam) = bits 32 1 ++ (plainBits (seqFirst profile seqParam) ++
      (bits 32 15 ++ (bits 32 (writtenTimeScale profile seqParam) ++ (l ++
        trailing (timingOffset profile seqParam + 32 + 32 + l.length))))) := by
  have hlast : (seqFirst profile seqParam).foldl (fun last p => p.last 0 last) 1 = 1 := by
    rw [seqFirst, seqBody, foldl_append, foldl_append]
    rfl
  have hstart : (Put.ui 1 32).stored 0 0 = bits 32 1 := rfl
  have hunits : ∀ length : ℕ, (Put.ui 15 32).stored length 1 = bits 32 15 := by
    intro length
    rw [Put.stored]
    split_ifs <;> rfl
  have hscale : (Put.ui 900 32).stored (timingOffset profile seqParam + 32) 15 =
      bits 32 (writtenTimeScale profile seqParam) := by
    have hmod : (timingOffset profile seqParam + 32) % 32 = timingOffset profile seqParam % 32 :=
      Nat.add_mod_right _ _
    rw [Put.stored, writtenTimeScale, hmod]
    by_cases hzero : timingOffset profile seqParam % 32 = 0
    · rw [if_pos hzero, if_pos ⟨rfl, hzero⟩]
      rfl
    · rw [if_neg hzero, if_neg fun h => hzero h.2]
      rfl
  have hoffset : 0 + ((Put.ui 1 32).code 0).length + (plainBits (seqFirst profile seqParam)).length =
      timingOffset profile seqParam := by
    rw [timingOffset_eq profile hw, Put.code, length_bits, Nat.zero_add]
  have hlength : ∀ (val : BitVec 32) (length : ℕ), ((Put.ui val 32).code length).length = 32 :=
    fun _ _ => length_bits _ _
  rw [seqPuts, storedAll, storedAll_plain fun p hp => (steady_seqFirst profile hw p hp).2, hoffset,
    hstart]
  have hfirst : (Put.ui 1 32).last 0 0 = 1 := rfl
  rw [hfirst, hlast, storedAll, storedAll, hunits, hlength, hlength]
  have hsecond : (Put.ui 15 32).last (timingOffset profile seqParam) 1 = 15 := rfl
  rw [hsecond, hscale, storedAll_plain fun p hp => (steady_seqLast hw p hp).2, hl,
    storedAll_trailing]

/-- What a decoder reads from a sequence parameter buffer that can be written. -/
theorem decode_seq (added : ℕ → BitVec 32) (hasserted : Asserted seqParam) (hw : SeqWritable seqParam) :
    ∃ bs, (∀ {fuel bs'}, buildPackedSeqBuffer added fuel profile seqParam = some bs' → bs' = bs) ∧
      buildPackedSeqBuffer added 31 profile seqParam = some bs ∧
      decodeUnit 7 seqParameterSet (headerBits bs) =
        some (decodedSequence profile seqParam 15 (BitVec.ofNat 32 (writtenTimeScale profile seqParam)),
          []) := by
  obtain ⟨sps, hsps, hputs⟩ := map_eq_some_iff.mp (spsRbsp_eq profile hasserted hw)
  obtain ⟨bs, hunique, hbs, -, hbits⟩ :=
    puts_good added (good_seqPuts profile hw) (length_seqPuts profile seqParam)
  have hbuild : ∀ fuel, buildPackedSeqBuffer added fuel profile seqParam =
      (puts added fuel bitstreamStart (seqPuts profile seqParam)).map bitstreamEnd := by
    intro fuel
    rw [buildPackedSeqBuffer, hsps, ← hputs, map_eq_bind]
    rfl
  refine ⟨bitstreamEnd bs, ?_, by rw [hbuild, hbs, map_some], ?_⟩
  · intro fuel bs' h
    rw [hbuild] at h
    obtain ⟨bs₁, hbs₁, rfl⟩ := map_eq_some_iff.mp h
    rw [hunique hbs₁]
  generalize hl : plainBits (seqLast seqParam) = l
  have hread := reads_sequence profile hasserted hw (writtenTimeScale profile seqParam)
  have hstored := storedAll_seqPuts profile hw hl
  rw [hl] at hread
  have hfirst : plainBits (seqFirst profile seqParam) = plainBits (nalHeader 3 7) ++
      plainBits (seqBody profile seqParam) := plainBits_append _ _
  have htiming := timingOffset_eq profile hw
  rw [hfirst, length_append] at htiming
  rw [hfirst] at hstored
  generalize plainBits (seqBody profile seqParam) = first at hread hstored htiming
  have hbytes : padding (codes 0 (seqPuts profile seqParam)).length = [] := by
    have htrailing := length_trailing (timingOffset profile seqParam + 32 + 32 + l.length)
    rw [← length_storedAll _ 0 0, hstored, padding]
    simp only [length_append, length_bits] at htiming ⊢
    rw [show (8 - (32 + ((plainBits (nalHeader 3 7)).length + first.length + (32 + (32 + (l.length +
      (trailing (timingOffset profile seqParam + 32 + 32 + l.length)).length))))) % 8) % 8 = 0 by omega]
    rfl
  have hunit := @decodeUnit_trailing _ 3 7 seqParameterSet
    (first ++ (bits 32 15 ++ (bits 32 (writtenTimeScale profile seqParam) ++ l))) _
    (timingOffset profile seqParam + 32 + 32 + l.length)
    (by simp only [length_append, length_bits]; omega) (hread _)
  rw [hbits, hbytes, hstored, append_nil]
  simp only [append_assoc] at hunit ⊢
  exact hunit

/-- A result is the number itself, below the limit. -/
theorem intResult_eq_some {z y : ℤ} (h : intResult z = some y) : z = y ∧ z < 2 ^ 31 := by
  obtain ⟨⟨-, hlt⟩, hy⟩ := ite_none_right_eq_some.mp h
  exact ⟨some.inj hy, hlt⟩

variable {added : ℕ → BitVec 32}

/-- What is written for a member of a buffer is not too large. -/
theorem toNat_lt_of_putUe {n : ℕ} (hn : n ≤ 32) {w : BitVec n} {fuel : ℕ} {ps : List Put}
    {bs bs' : Bitstream} (hw : putUe w ∈ ps) (h : puts added fuel bs ps = some bs') :
    w.toNat < 2 ^ 31 - 1 := by
  have hlt := lt_of_puts_ue hw h
  rw [BitVec.toNat_setWidth_of_le hn] at hlt
  omega

/-- What is written for an `int` is not negative. -/
theorem nonneg_of_putUeInt {z : ℤ} (hlow : -2 ^ 31 ≤ z) (hhigh : z < 2 ^ 31) {fuel : ℕ}
    {ps : List Put} {bs bs' : Bitstream} (hz : putUeInt z ∈ ps)
    (h : puts added fuel bs ps = some bs') : 0 ≤ z := by
  have hlt := lt_of_puts_ue hz h
  rw [BitVec.toNat_ofInt] at hlt
  omega

/-- A sequence parameter buffer with a result can be written. -/
theorem seqWritable_of_build {fuel : ℕ} {bs : Bitstream}
    (hrate : seqParam.bitsPerSecond.toNat < 2 ^ 31)
    (hcropping : seqParam.frameCroppingFlag.toNat ≤ 1)
    (h : buildPackedSeqBuffer added fuel profile seqParam = some bs) : SeqWritable seqParam := by
  have hint : seqParam.bitsPerSecond.toInt = seqParam.bitsPerSecond.toNat := by
    rw [BitVec.toInt_eq_toNat_cond, if_pos (by omega)]
  have hwidth16 := seqParam.pictureWidthInMbs.isLt
  have hheight16 := seqParam.pictureHeightInMbs.isLt
  obtain ⟨sps, hsps, h⟩ := bind_eq_some_iff.mp h
  obtain ⟨bs', hputs, -⟩ := bind_eq_some_iff.mp h
  obtain ⟨-, hsps⟩ := ite_none_right_eq_some.mp hsps
  obtain ⟨width, hwidth, hsps⟩ := bind_eq_some_iff.mp hsps
  obtain ⟨height, hheight, hsps⟩ := bind_eq_some_iff.mp hsps
  obtain ⟨l, hvui, hsps⟩ := bind_eq_some_iff.mp hsps
  obtain rfl := some.inj hsps
  rw [hint, vui, if_neg (by omega)] at hvui
  obtain ⟨bitRate, hbitRate, hvui⟩ := bind_eq_some_iff.mp hvui
  obtain ⟨product, hproduct, hvui⟩ := bind_eq_some_iff.mp hvui
  obtain ⟨cpbSize, hcpbSize, hvui⟩ := bind_eq_some_iff.mp hvui
  obtain rfl := some.inj hvui
  obtain ⟨rfl, -⟩ := intResult_eq_some hwidth
  obtain ⟨rfl, -⟩ := intResult_eq_some hheight
  obtain ⟨rfl, -⟩ := intResult_eq_some hbitRate
  obtain ⟨-, hproduct⟩ := intResult_eq_some hproduct
  generalize hall : nalStartCodePrefix ++ nalHeader 3 7 ++ (spsFirst profile seqParam
    (seqParam.pictureWidthInMbs.toNat - 1) (seqParam.pictureHeightInMbs.toNat - 1) ++
    (vuiFlags ++ [.ui 15 32, .ui 900 32] ++ vuiLast (seqParam.bitsPerSecond.toNat - 1) cpbSize) ++
    rbspTrailingBits) = all at hputs
  have hfirst : ∀ {p}, p ∈ spsFirst profile seqParam (seqParam.pictureWidthInMbs.toNat - 1)
      (seqParam.pictureHeightInMbs.toNat - 1) → p ∈ all := by
    intro p hp
    rw [← hall]
    simp only [mem_append]
    exact Or.inr (Or.inl (Or.inl hp))
  have hcrop : ∀ {p}, p ∈ croppingPuts seqParam → p ∈ all :=
    fun hp => hfirst (mem_append_right _ hp)
  have hlast : putUeInt (seqParam.bitsPerSecond.toNat - 1) ∈ all := by
    rw [← hall]
    simp [vuiLast]
  have hrefFrames : putUe seqParam.maxNumRefFrames ∈ all := hfirst (by simp [spsFirst])
  have hwidth' := nonneg_of_putUeInt (by omega) (by omega)
    (hfirst (by simp [spsFirst] : putUeInt (seqParam.pictureWidthInMbs.toNat - 1) ∈ _)) hputs
  have hheight' := nonneg_of_putUeInt (by omega) (by omega)
    (hfirst (by simp [spsFirst] : putUeInt (seqParam.pictureHeightInMbs.toNat - 1) ∈ _)) hputs
  have hrate' := nonneg_of_putUeInt (by omega) (by omega) hlast hputs
  refine ⟨by omega, by omega, by omega, by omega, toNat_lt_of_putUe (le_refl 32) hrefFrames hputs,
    hcropping, fun hflag => ?_⟩
  have hputs' : croppingPuts seqParam = [putUe seqParam.frameCropLeftOffset,
      putUe seqParam.frameCropRightOffset, putUe seqParam.frameCropTopOffset,
      putUe seqParam.frameCropBottomOffset] := if_pos hflag
  rw [hputs'] at hcrop
  exact ⟨toNat_lt_of_putUe (le_refl 32) (hcrop (by simp)) hputs,
    toNat_lt_of_putUe (le_refl 32) (hcrop (by simp)) hputs,
    toNat_lt_of_putUe (le_refl 32) (hcrop (by simp)) hputs,
    toNat_lt_of_putUe (le_refl 32) (hcrop (by simp)) hputs⟩

/-- The cropping flag that is read is the one passed in exactly if that is a bit. -/
theorem cropping_iff : (decodedCropping seqParam).isSome.toNat = seqParam.frameCroppingFlag.toNat ↔
    seqParam.frameCroppingFlag.toNat ≤ 1 := by
  constructor
  · intro h
    exact h ▸ Bool.toNat_le _
  · intro hle
    rw [decodedCropping]
    split_ifs with hflag
    · have hne : seqParam.frameCroppingFlag.toNat ≠ 0 := fun h => hflag (BitVec.eq_of_toNat_eq h)
      rw [isSome_some, Bool.toNat_true]
      omega
    · rw [not_not.mp hflag]
      rfl

/-- The flags of what is written are those of the buffer exactly if the members that stand for them are
the constants. -/
theorem seqFlagged_iff {unitsInTick timeScale : BitVec 32} :
    SeqFlagged seqParam (decodedSequence profile seqParam unitsInTick timeScale) ↔
      seqParam.frameCroppingFlag.toNat ≤ 1 ∧ SeqStandard profile seqParam := by
  have hvui : ∀ {P : VuiParameters → Prop},
      (∀ v ∈ (decodedSequence profile seqParam unitsInTick timeScale).vui, P v) ↔
        P (decodedVui seqParam.bitsPerSecond.toNat unitsInTick timeScale) :=
    ⟨fun h => h _ rfl, fun h v hv => some.inj hv ▸ h⟩
  constructor
  · intro h
    refine ⟨cropping_iff.mp h.cropping, ?_⟩
    exact {
      vui := BitVec.eq_of_toNat_eq h.vui.symm
      aspectRatio := BitVec.eq_of_toNat_eq (hvui.mp h.aspectRatio).symm
      timingInfo := BitVec.eq_of_toNat_eq (hvui.mp h.timingInfo).symm
      restriction := BitVec.eq_of_toNat_eq (hvui.mp h.restriction).symm
      chroma := fun hhigh => by
        have hchroma : (decodedSequence profile seqParam unitsInTick timeScale).chroma =
            some ⟨1, none, 0, 0, false, none⟩ := if_pos hhigh
        exact ⟨BitVec.eq_of_toNat_eq (h.chromaFormat _ hchroma).symm,
          BitVec.eq_of_toNat_eq (h.lumaDepth _ hchroma).symm,
          BitVec.eq_of_toNat_eq (h.chromaDepth _ hchroma).symm,
          BitVec.eq_of_toNat_eq (h.scalingMatrix _ hchroma).symm⟩ }
  · rintro ⟨hcropping, hstandard⟩
    have hchroma : ∀ c ∈ (decodedSequence profile seqParam unitsInTick timeScale).chroma,
        profile = vaProfileH264High ∧ c = ⟨1, none, 0, 0, false, none⟩ := by
      intro c hc
      obtain ⟨hhigh, hc⟩ := ite_none_right_eq_some.mp hc
      exact ⟨hhigh, (some.inj hc).symm⟩
    exact {
      cropping := cropping_iff.mpr hcropping
      vui := by
        rw [hstandard.vui]
        rfl
      aspectRatio := hvui.mpr (by
        rw [hstandard.aspectRatio]
        rfl)
      timingInfo := hvui.mpr (by
        rw [hstandard.timingInfo]
        rfl)
      restriction := hvui.mpr (by
        rw [hstandard.restriction]
        rfl)
      chromaFormat := fun c hc => by
        obtain ⟨hhigh, rfl⟩ := hchroma c hc
        rw [(hstandard.chroma hhigh).1]
        rfl
      lumaDepth := fun c hc => by
        obtain ⟨hhigh, rfl⟩ := hchroma c hc
        rw [(hstandard.chroma hhigh).2.1]
        rfl
      chromaDepth := fun c hc => by
        obtain ⟨hhigh, rfl⟩ := hchroma c hc
        rw [(hstandard.chroma hhigh).2.2.1]
        rfl
      scalingMatrix := fun c hc => by
        obtain ⟨hhigh, rfl⟩ := hchroma c hc
        rw [(hstandard.chroma hhigh).2.2.2]
        rfl }

/-- With which timing a sequence parameter set is read back. -/
theorem seqDecodes_iff_timing (added : ℕ → BitVec 32) (hasserted : Asserted seqParam)
    (hrate : seqParam.bitsPerSecond.toNat < 2 ^ 31) {unitsInTick timeScale : BitVec 32} :
    SeqDecodes added profile seqParam unitsInTick timeScale ↔
      SeqWritable seqParam ∧ SeqStandard profile seqParam ∧ unitsInTick = 15 ∧
        timeScale = BitVec.ofNat 32 (writtenTimeScale profile seqParam) := by
  constructor
  · rintro ⟨fuel, bs, s, hbuild, hdecode, rfl, hflagged⟩
    obtain ⟨hcropping, hstandard⟩ := (seqFlagged_iff profile).mp hflagged
    have hw := seqWritable_of_build profile hrate hcropping hbuild
    obtain ⟨bs', hunique, -, hdecode'⟩ := decode_seq profile added hasserted hw
    rw [hunique hbuild, hdecode'] at hdecode
    have hvui := congrArg SeqParameterSet.vui (Prod.mk.inj (some.inj hdecode)).1
    have htiming := some.inj (congrArg VuiParameters.timingInfo (some.inj hvui))
    exact ⟨hw, hstandard, (congrArg TimingInfo.numUnitsInTick htiming).symm,
      (congrArg TimingInfo.timeScale htiming).symm⟩
  · rintro ⟨hw, hstandard, rfl, rfl⟩
    obtain ⟨bs, -, hbuild, hdecode⟩ := decode_seq profile added hasserted hw
    exact ⟨31, bs, _, hbuild, hdecode, rfl, (seqFlagged_iff profile).mpr ⟨hw.cropping, hstandard⟩⟩

/-- When the values of a buffer are read back, and when those of the timing are, too. -/
theorem seqDecodes_iff (added : ℕ → BitVec 32) (hasserted : Asserted seqParam)
    (hrate : seqParam.bitsPerSecond.toNat < 2 ^ 31) :
    ((∃ unitsInTick timeScale, SeqDecodes added profile seqParam unitsInTick timeScale) ↔
      SeqWritable seqParam ∧ SeqStandard profile seqParam) ∧
    (SeqDecodes added profile seqParam seqParam.numUnitsInTick seqParam.timeScale ↔
      SeqFits profile seqParam) := by
  constructor
  · constructor
    · rintro ⟨unitsInTick, timeScale, h⟩
      obtain ⟨hw, hstandard, -⟩ := (seqDecodes_iff_timing profile added hasserted hrate).mp h
      exact ⟨hw, hstandard⟩
    · rintro ⟨hw, hstandard⟩
      exact ⟨_, _, (seqDecodes_iff_timing profile added hasserted hrate).mpr
        ⟨hw, hstandard, rfl, rfl⟩⟩
  · have hscale : BitVec.ofNat 32 (writtenTimeScale profile seqParam) =
        if timingOffset profile seqParam % 32 = 0 then 911 else 900 := by
      rw [writtenTimeScale]
      split_ifs <;> rfl
    rw [seqDecodes_iff_timing profile added hasserted hrate, hscale]
    rfl

end Sequence

/-! ### The picture parameter set -/

section Picture

variable (picParam : VAEncPictureParameterBufferH264)

/-- The picture parameter set with the constants that are written. -/
def writtenPicture : PicParameterSet :=
  { decodedPicture picParam with
    picOrderPresentFlag := false
    chromaQpIndexOffset := 0
    constrainedIntraPredFlag := false
    redundantPicCntPresentFlag := false }

/-- The bits of the first elements. -/
theorem plainBits_ppsFirst : plainBits (ppsFirst picParam) =
    ueBits picParam.picParameterSetId.toNat ++ (ueBits picParam.seqParameterSetId.toNat ++
      (bits 1 picParam.entropyCodingModeFlag.toNat ++ (bits 1 0 ++ (ueBits 0 ++
      (ueBits picParam.numRefIdxL0ActiveMinus1.toNat ++
      (ueBits picParam.numRefIdxL1ActiveMinus1.toNat ++ (bits 1 picParam.weightedPredFlag.toNat ++
      (bits 2 picParam.weightedBipredIdc.toNat ++ (seBits (picParam.picInitQp.toNat - 26) ++
      (seBits 0 ++ (seBits 0 ++ (bits 1 picParam.deblockingFilterControlPresentFlag.toNat ++
      (bits 1 0 ++ (bits 1 0 ++ (bits 1 picParam.transform8x8ModeFlag.toNat ++ (bits 1 0 ++
        seBits picParam.secondChromaQpIndexOffset.toInt)))))))))))))))) := by
  simp only [ppsFirst, plainBits, flatMap_cons, flatMap_nil, code_putUi, code_putUe,
    Nat.reduceLeDiff, append_nil]
  rfl

/-- They are steady. -/
theorem steady_ppsFirst : ∀ p ∈ ppsFirst picParam, p.Steady := by
  have hse : ∀ {z : ℤ}, -2 ^ 8 ≤ z → z < 2 ^ 8 → (Put.se z).Steady :=
    fun hlow hhigh => ⟨⟨⟨by omega, by omega⟩, by omega, by omega⟩, trivial⟩
  have hqp := picParam.picInitQp.isLt
  have hlow := BitVec.le_toInt picParam.secondChromaQpIndexOffset
  have hhigh := @BitVec.toInt_lt 8 picParam.secondChromaQpIndexOffset
  rw [ppsFirst]
  simp only [forall_mem_cons]
  exact ⟨steady_putUe_of_le _ (by decide), steady_putUe_of_le _ (by decide),
    steady_putUi _ (by decide), by decide, by decide, steady_putUe_of_le _ (by decide),
    steady_putUe_of_le _ (by decide), steady_putUi _ (by decide), steady_putUi _ (by decide),
    hse (by omega) (by omega), hse (by decide) (by decide), hse (by decide) (by decide),
    steady_putUi _ (by decide), by decide, by decide, steady_putUi _ (by decide), by decide,
    hse (by omega) (by omega), forall_mem_nil _⟩

/-- The part of a picture parameter set that is always there. -/
theorem reads_picture :
    Reads picParameterSet (ueBits picParam.picParameterSetId.toNat ++
      (ueBits picParam.seqParameterSetId.toNat ++ (bits 1 picParam.entropyCodingModeFlag.toNat ++
      (bits 1 0 ++ (ueBits 0 ++ ([] ++ (ueBits picParam.numRefIdxL0ActiveMinus1.toNat ++
      (ueBits picParam.numRefIdxL1ActiveMinus1.toNat ++ (bits 1 picParam.weightedPredFlag.toNat ++
      (bits 2 picParam.weightedBipredIdc.toNat ++ (seBits (picParam.picInitQp.toNat - 26) ++
      (seBits 0 ++ (seBits 0 ++ (bits 1 picParam.deblockingFilterControlPresentFlag.toNat ++
      (bits 1 0 ++ bits 1 0))))))))))))))) (writtenPicture picParam) := by
  unfold picParameterSet
  refine (Reads.ue _).bind ((Reads.ue _).bind ((Reads.flag_bits _).bind ((Reads.flag_bits 0).bind ?_)))
  refine (Reads.ue 0).bind ((Reads.onlyIf_false _).bind ((Reads.ue _).bind ((Reads.ue _).bind ?_)))
  refine (Reads.flag_bits _).bind ((Reads.u 2 _).bind ?_)
  simp only [BitVec.ofNat_toNat, BitVec.setWidth_eq]
  refine (Reads.se _).bind ((Reads.se 0).bind ((Reads.se 0).bind ((Reads.flag_bits _).bind ?_)))
  exact (Reads.flag_bits 0).bind ((Reads.flag_bits 0).bind_pure _)

/-- The trailing bits show that there is more. -/
theorem moreRbspData_append {l : List Bool} (hl : l ≠ []) (n : ℕ) :
    moreRbspData (l ++ trailing n) = some (true, l ++ trailing n) := by
  obtain ⟨b, l, rfl⟩ := exists_cons_of_ne_nil hl
  have hmore : ((b :: l) ++ trailing n).tail.contains true = true := by
    rw [cons_append, tail_cons, contains_iff_mem]
    exact mem_append_right _ (mem_cons_self ..)
  change some (((b :: l) ++ trailing n).tail.contains true, _) = _
  rw [hmore]

/-- The picture parameter set reads back. -/
theorem read_picture (chromaFormatIdc n : ℕ) :
    picParameterSetWithExtension chromaFormatIdc (plainBits (ppsFirst picParam) ++ trailing n) =
      some ((writtenPicture picParam, some (decodedExtension picParam)), trailing n) := by
  have hmain := reads_picture picParam
  have hextension : Reads _ _ (decodedExtension picParam) := reads_picParameterSetExtension
    chromaFormatIdc picParam.transform8x8ModeFlag.toNat picParam.secondChromaQpIndexOffset.toInt
  have hsplit := plainBits_ppsFirst picParam
  simp only [nil_append] at hmain
  generalize hext : bits 1 picParam.transform8x8ModeFlag.toNat ++ (bits 1 0 ++
    seBits picParam.secondChromaQpIndexOffset.toInt) = extension at hextension hsplit
  have hne : extension ≠ [] := by
    rw [← hext]
    exact cons_ne_nil _ _
  rw [hsplit]
  simp only [← append_assoc] at hmain ⊢
  rw [append_assoc, picParameterSetWithExtension, BitReader.bind_eq (hmain _),
    BitReader.bind_eq (moreRbspData_append hne n),
    BitReader.bind_eq ((Reads.onlyIf_true hextension) (trailing n))]
  rfl

/-- What a decoder reads from a picture parameter buffer. -/
theorem decode_pic (added : ℕ → BitVec 32) :
    ∃ bs, (∀ {fuel bs'}, buildPackedPicBuffer added fuel picParam = some bs' → bs' = bs) ∧
      buildPackedPicBuffer added 31 picParam = some bs ∧
      ∀ chromaFormatIdc,
        decodeUnit 8 (picParameterSetWithExtension chromaFormatIdc) (headerBits bs) =
          some ((writtenPicture picParam, some (decodedExtension picParam)), []) := by
  have hdecode := fun chromaFormatIdc => @decode_plain added 3 8 (ppsFirst picParam)
    (forall_mem_append.mpr ⟨by decide, steady_ppsFirst picParam⟩) (by simp [ppsFirst]) _ _ _
    (read_picture picParam chromaFormatIdc)
  obtain ⟨bs, hunique, hputs, -⟩ := hdecode 1
  refine ⟨bitstreamEnd bs, ?_, ?_, fun chromaFormatIdc => ?_⟩
  · intro fuel bs' hbuild
    obtain ⟨bs₁, hbs₁, hend⟩ := bind_eq_some_iff.mp hbuild
    rw [← some.inj hend, hunique hbs₁]
  · rw [buildPackedPicBuffer, ppsRbsp, hputs]
    rfl
  · obtain ⟨bs', -, hputs', hbits⟩ := hdecode chromaFormatIdc
    rw [hunique hputs'] at hbits
    exact hbits

/-- A bit that is read as `false` is zero. -/
theorem eq_zero_of_testBit {w : BitVec 1} (h : false = w.toNat.testBit 0) : w = 0 := by
  revert h
  revert w
  decide

/-- When the values of a buffer are read back. -/
theorem picDecodes_iff (added : ℕ → BitVec 32) :
    PicDecodes added picParam ↔ PicStandard picParam := by
  obtain ⟨bs, hunique, hbuild, hdecode⟩ := decode_pic picParam added
  constructor
  · rintro ⟨fuel, bs', pps, extension, hbuild', hdecode', rfl, rfl, hmatrix⟩
    rw [hunique hbuild'] at hdecode'
    have hpps : writtenPicture picParam = decodedPicture picParam :=
      (Prod.mk.inj (Prod.mk.inj (some.inj ((hdecode 1).symm.trans (hdecode' 1)))).1).1
    exact {
      picOrder := eq_zero_of_testBit (congrArg PicParameterSet.picOrderPresentFlag hpps)
      chromaQp := BitVec.eq_of_toInt_eq (congrArg PicParameterSet.chromaQpIndexOffset hpps).symm
      intraPred := eq_zero_of_testBit (congrArg PicParameterSet.constrainedIntraPredFlag hpps)
      picCnt := eq_zero_of_testBit (congrArg PicParameterSet.redundantPicCntPresentFlag hpps)
      scalingMatrix := BitVec.eq_of_toNat_eq hmatrix.symm }
  · intro h
    have hpps : writtenPicture picParam = decodedPicture picParam := by
      rw [writtenPicture, decodedPicture, h.picOrder, h.chromaQp, h.intraPred, h.picCnt]
      rfl
    refine ⟨31, bs, _, _, hbuild, hdecode, hpps, rfl, ?_⟩
    rw [h.scalingMatrix]
    rfl

end Picture

end HardwareIntel.VideoEncoder
