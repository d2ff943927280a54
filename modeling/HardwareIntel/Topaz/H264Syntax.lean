import HardwareIntel.Library.Bits
import Mathlib.Data.Nat.Log

/-!
# Parameter sets of H.264

The syntax of a sequence and of a picture parameter set, as a decoder reads it. It says nothing of
an encoder: every syntax element is read under the condition the syntax gives, and what a flag
leaves out is `none`.
-/

namespace HardwareIntel.Topaz

open BitReader

/-- A scaling list, and whether its first value says to use the default one. -/
structure ScalingList where
  scales : List ℤ
  useDefault : Bool

/-- The loop of `scaling_list()`, with `lastScale` and `nextScale`. -/
def scalingListFrom : ℕ → ℤ → ℤ → BitReader ScalingList
  | 0, _, _ => pure ⟨[], false⟩
  | n + 1, last, next => do
    let next ← if next = 0 then pure next else (fun delta => (last + delta + 256) % 256) <$> se
    let scale := if next = 0 then last else next
    let rest ← scalingListFrom n scale next
    pure ⟨scale :: rest.scales, next == 0⟩

/-- The lists of a scaling matrix from number `i` on: the first six have 16 values. -/
def scalingLists : ℕ → ℕ → BitReader (List (Option ScalingList))
  | _, 0 => pure []
  | i, n + 1 => do
    let present ← flag
    let list ← onlyIf present (scalingListFrom (if i < 6 then 16 else 64) 8 8)
    let rest ← scalingLists (i + 1) n
    pure (list :: rest)

/-- One schedule of the hypothetical decoder. -/
structure HrdSchedule where
  bitRateValueMinus1 : ℕ
  cpbSizeValueMinus1 : ℕ
  cbrFlag : Bool

structure HrdParameters where
  bitRateScale : BitVec 4
  cpbSizeScale : BitVec 4
  schedules : List HrdSchedule
  initialCpbRemovalDelayLengthMinus1 : BitVec 5
  cpbRemovalDelayLengthMinus1 : BitVec 5
  dpbOutputDelayLengthMinus1 : BitVec 5
  timeOffsetLength : BitVec 5

def hrdSchedule : BitReader HrdSchedule := do
  let bitRateValueMinus1 ← ue
  let cpbSizeValueMinus1 ← ue
  let cbrFlag ← flag
  pure { bitRateValueMinus1, cpbSizeValueMinus1, cbrFlag }

/-- `hrd_parameters()`. -/
def hrdParameters : BitReader HrdParameters := do
  let cpbCntMinus1 ← ue
  let bitRateScale ← u 4
  let cpbSizeScale ← u 4
  let schedules ← times (cpbCntMinus1 + 1) hrdSchedule
  let initialCpbRemovalDelayLengthMinus1 ← u 5
  let cpbRemovalDelayLengthMinus1 ← u 5
  let dpbOutputDelayLengthMinus1 ← u 5
  let timeOffsetLength ← u 5
  pure { bitRateScale, cpbSizeScale, schedules, initialCpbRemovalDelayLengthMinus1,
         cpbRemovalDelayLengthMinus1, dpbOutputDelayLengthMinus1, timeOffsetLength }

/-- `aspect_ratio_idc`, and the width and the height of the sample where the ratio is given. -/
def aspectRatio : BitReader (BitVec 8 × Option (BitVec 16 × BitVec 16)) := do
  let idc ← u 8
  let sar ← onlyIf (idc == 255) (do
    let width ← u 16
    let height ← u 16
    pure (width, height))
  pure (idc, sar)

/-- `video_format`, `video_full_range_flag`, and the description of the colours. -/
def videoSignalType :
    BitReader (BitVec 3 × Bool × Option (BitVec 8 × BitVec 8 × BitVec 8)) := do
  let format ← u 3
  let fullRange ← flag
  let descriptionPresent ← flag
  let description ← onlyIf descriptionPresent (do
    let primaries ← u 8
    let transfer ← u 8
    let matrix ← u 8
    pure (primaries, transfer, matrix))
  pure (format, fullRange, description)

def chromaLocInfo : BitReader (ℕ × ℕ) := do
  let top ← ue
  let bottom ← ue
  pure (top, bottom)

structure TimingInfo where
  numUnitsInTick : BitVec 32
  timeScale : BitVec 32
  fixedFrameRateFlag : Bool

def timingInfo : BitReader TimingInfo := do
  let numUnitsInTick ← u 32
  let timeScale ← u 32
  let fixedFrameRateFlag ← flag
  pure { numUnitsInTick, timeScale, fixedFrameRateFlag }

/-- The restrictions of the bitstream: one flag and six numbers. -/
def bitstreamRestriction : BitReader (Bool × List ℕ) := do
  let motionVectorsOverPicBoundaries ← flag
  let numbers ← times 6 ue
  pure (motionVectorsOverPicBoundaries, numbers)

structure VuiParameters where
  aspectRatio : Option (BitVec 8 × Option (BitVec 16 × BitVec 16))
  overscanAppropriateFlag : Option Bool
  videoSignalType : Option (BitVec 3 × Bool × Option (BitVec 8 × BitVec 8 × BitVec 8))
  chromaLocInfo : Option (ℕ × ℕ)
  timingInfo : Option TimingInfo
  nalHrdParameters : Option HrdParameters
  vclHrdParameters : Option HrdParameters
  lowDelayHrdFlag : Option Bool
  picStructPresentFlag : Bool
  bitstreamRestriction : Option (Bool × List ℕ)

/-- `vui_parameters()`. -/
def vuiParameters : BitReader VuiParameters := do
  let aspectRatioInfoPresentFlag ← flag
  let aspectRatio ← onlyIf aspectRatioInfoPresentFlag aspectRatio
  let overscanInfoPresentFlag ← flag
  let overscanAppropriateFlag ← onlyIf overscanInfoPresentFlag flag
  let videoSignalTypePresentFlag ← flag
  let videoSignalType ← onlyIf videoSignalTypePresentFlag videoSignalType
  let chromaLocInfoPresentFlag ← flag
  let chromaLocInfo ← onlyIf chromaLocInfoPresentFlag chromaLocInfo
  let timingInfoPresentFlag ← flag
  let timingInfo ← onlyIf timingInfoPresentFlag timingInfo
  let nalHrdParametersPresentFlag ← flag
  let nalHrdParameters ← onlyIf nalHrdParametersPresentFlag hrdParameters
  let vclHrdParametersPresentFlag ← flag
  let vclHrdParameters ← onlyIf vclHrdParametersPresentFlag hrdParameters
  let lowDelayHrdFlag ← onlyIf (nalHrdParametersPresentFlag || vclHrdParametersPresentFlag) flag
  let picStructPresentFlag ← flag
  let bitstreamRestrictionFlag ← flag
  let bitstreamRestriction ← onlyIf bitstreamRestrictionFlag bitstreamRestriction
  pure { aspectRatio, overscanAppropriateFlag, videoSignalType, chromaLocInfo, timingInfo,
         nalHrdParameters, vclHrdParameters, lowDelayHrdFlag, picStructPresentFlag,
         bitstreamRestriction }

/-- What only the high profiles have. -/
structure ChromaParameters where
  chromaFormatIdc : ℕ
  separateColourPlaneFlag : Option Bool
  bitDepthLumaMinus8 : ℕ
  bitDepthChromaMinus8 : ℕ
  qpprimeYZeroTransformBypassFlag : Bool
  seqScalingMatrix : Option (List (Option ScalingList))

def chromaParameters : BitReader ChromaParameters := do
  let chromaFormatIdc ← ue
  let separateColourPlaneFlag ← onlyIf (chromaFormatIdc == 3) flag
  let bitDepthLumaMinus8 ← ue
  let bitDepthChromaMinus8 ← ue
  let qpprimeYZeroTransformBypassFlag ← flag
  let seqScalingMatrixPresentFlag ← flag
  let seqScalingMatrix ← onlyIf seqScalingMatrixPresentFlag
    (scalingLists 0 (if chromaFormatIdc ≠ 3 then 8 else 12))
  pure { chromaFormatIdc, separateColourPlaneFlag, bitDepthLumaMinus8, bitDepthChromaMinus8,
         qpprimeYZeroTransformBypassFlag, seqScalingMatrix }

/-- What `pic_order_cnt_type` 1 has. -/
structure PicOrderCntCycle where
  deltaPicOrderAlwaysZeroFlag : Bool
  offsetForNonRefPic : ℤ
  offsetForTopToBottomField : ℤ
  offsetForRefFrame : List ℤ

def picOrderCntCycle : BitReader PicOrderCntCycle := do
  let deltaPicOrderAlwaysZeroFlag ← flag
  let offsetForNonRefPic ← se
  let offsetForTopToBottomField ← se
  let numRefFramesInPicOrderCntCycle ← ue
  let offsetForRefFrame ← times numRefFramesInPicOrderCntCycle se
  pure { deltaPicOrderAlwaysZeroFlag, offsetForNonRefPic, offsetForTopToBottomField,
         offsetForRefFrame }

/-- The offsets of the frame cropping rectangle. -/
structure FrameCropping where
  left : ℕ
  right : ℕ
  top : ℕ
  bottom : ℕ

def frameCropping : BitReader FrameCropping := do
  let left ← ue
  let right ← ue
  let top ← ue
  let bottom ← ue
  pure { left, right, top, bottom }

structure SeqParameterSet where
  profileIdc : BitVec 8
  constraintSetFlags : BitVec 6
  levelIdc : BitVec 8
  seqParameterSetId : ℕ
  chroma : Option ChromaParameters
  log2MaxFrameNumMinus4 : ℕ
  picOrderCntType : ℕ
  log2MaxPicOrderCntLsbMinus4 : Option ℕ
  picOrderCntCycle : Option PicOrderCntCycle
  maxNumRefFrames : ℕ
  gapsInFrameNumValueAllowedFlag : Bool
  picWidthInMbsMinus1 : ℕ
  picHeightInMapUnitsMinus1 : ℕ
  frameMbsOnlyFlag : Bool
  mbAdaptiveFrameFieldFlag : Option Bool
  direct8x8InferenceFlag : Bool
  frameCropping : Option FrameCropping
  vui : Option VuiParameters

/-- The profiles whose parameter sets have `ChromaParameters`. -/
def highProfiles : List (BitVec 8) :=
  [100, 110, 122, 244, 44, 83, 86, 118, 128, 138, 139, 134, 135]

/-- `seq_parameter_set_data()`. -/
def seqParameterSet : BitReader SeqParameterSet := do
  let profileIdc ← u 8
  let constraintSetFlags ← u 6
  let _reservedZero2Bits ← u 2
  let levelIdc ← u 8
  let seqParameterSetId ← ue
  let chroma ← onlyIf (highProfiles.contains profileIdc) chromaParameters
  let log2MaxFrameNumMinus4 ← ue
  let picOrderCntType ← ue
  let log2MaxPicOrderCntLsbMinus4 ← onlyIf (picOrderCntType == 0) ue
  let picOrderCntCycle ← onlyIf (picOrderCntType == 1) picOrderCntCycle
  let maxNumRefFrames ← ue
  let gapsInFrameNumValueAllowedFlag ← flag
  let picWidthInMbsMinus1 ← ue
  let picHeightInMapUnitsMinus1 ← ue
  let frameMbsOnlyFlag ← flag
  let mbAdaptiveFrameFieldFlag ← onlyIf (!frameMbsOnlyFlag) flag
  let direct8x8InferenceFlag ← flag
  let frameCroppingFlag ← flag
  let frameCropping ← onlyIf frameCroppingFlag frameCropping
  let vuiParametersPresentFlag ← flag
  let vui ← onlyIf vuiParametersPresentFlag vuiParameters
  pure { profileIdc, constraintSetFlags, levelIdc, seqParameterSetId, chroma,
         log2MaxFrameNumMinus4, picOrderCntType, log2MaxPicOrderCntLsbMinus4, picOrderCntCycle,
         maxNumRefFrames, gapsInFrameNumValueAllowedFlag, picWidthInMbsMinus1,
         picHeightInMapUnitsMinus1, frameMbsOnlyFlag, mbAdaptiveFrameFieldFlag,
         direct8x8InferenceFlag, frameCropping, vui }

/-- The level a sequence conforms to, ten times its number, with 9 for level 1b. The baseline, main
and extended profiles have `constraint_set3_flag` for level 1b, the others a `level_idc`. -/
def SeqParameterSet.level (s : SeqParameterSet) : ℕ :=
  if s.profileIdc ∈ [66, 77, 88] ∧ s.levelIdc = 11 ∧ s.constraintSetFlags.getMsbD 3 then 9
  else s.levelIdc.toNat

/-- The map of slice groups: the numbers that its type reads, in their order. -/
def sliceGroups (numSliceGroupsMinus1 : ℕ) : BitReader (ℕ × List ℕ) := do
  let mapType ← ue
  let numbers ← match mapType with
    | 0 => times (numSliceGroupsMinus1 + 1) ue
    | 2 => times (2 * numSliceGroupsMinus1) ue
    | 3 | 4 | 5 => do
      let direction ← flag
      let changeRateMinus1 ← ue
      pure [direction.toNat, changeRateMinus1]
    | 6 => do
      let picSizeInMapUnitsMinus1 ← ue
      let ids ← times (picSizeInMapUnitsMinus1 + 1) (u (Nat.clog 2 (numSliceGroupsMinus1 + 1)))
      pure (ids.map BitVec.toNat)
    | _ => pure []
  pure (mapType, numbers)

/-- The part of a picture parameter set that is there when there is more data. -/
structure PicParameterSetExtension where
  transform8x8ModeFlag : Bool
  picScalingMatrix : Option (List (Option ScalingList))
  secondChromaQpIndexOffset : ℤ

def picParameterSetExtension (chromaFormatIdc : ℕ) : BitReader PicParameterSetExtension := do
  let transform8x8ModeFlag ← flag
  let picScalingMatrixPresentFlag ← flag
  let picScalingMatrix ← onlyIf picScalingMatrixPresentFlag (scalingLists 0
    (6 + (if chromaFormatIdc ≠ 3 then 2 else 6) * transform8x8ModeFlag.toNat))
  let secondChromaQpIndexOffset ← se
  pure { transform8x8ModeFlag, picScalingMatrix, secondChromaQpIndexOffset }

/-- The part of a picture parameter set that is always there. -/
structure PicParameterSet where
  picParameterSetId : ℕ
  seqParameterSetId : ℕ
  entropyCodingModeFlag : Bool
  picOrderPresentFlag : Bool
  sliceGroups : Option (ℕ × List ℕ)
  numRefIdxL0ActiveMinus1 : ℕ
  numRefIdxL1ActiveMinus1 : ℕ
  weightedPredFlag : Bool
  weightedBipredIdc : BitVec 2
  picInitQpMinus26 : ℤ
  picInitQsMinus26 : ℤ
  chromaQpIndexOffset : ℤ
  deblockingFilterControlPresentFlag : Bool
  constrainedIntraPredFlag : Bool
  redundantPicCntPresentFlag : Bool

/-- `pic_parameter_set_rbsp()` up to the question whether there is more data. -/
def picParameterSet : BitReader PicParameterSet := do
  let picParameterSetId ← ue
  let seqParameterSetId ← ue
  let entropyCodingModeFlag ← flag
  let picOrderPresentFlag ← flag
  let numSliceGroupsMinus1 ← ue
  let sliceGroups ← onlyIf (0 < numSliceGroupsMinus1) (sliceGroups numSliceGroupsMinus1)
  let numRefIdxL0ActiveMinus1 ← ue
  let numRefIdxL1ActiveMinus1 ← ue
  let weightedPredFlag ← flag
  let weightedBipredIdc ← u 2
  let picInitQpMinus26 ← se
  let picInitQsMinus26 ← se
  let chromaQpIndexOffset ← se
  let deblockingFilterControlPresentFlag ← flag
  let constrainedIntraPredFlag ← flag
  let redundantPicCntPresentFlag ← flag
  pure { picParameterSetId, seqParameterSetId, entropyCodingModeFlag, picOrderPresentFlag,
         sliceGroups, numRefIdxL0ActiveMinus1, numRefIdxL1ActiveMinus1, weightedPredFlag,
         weightedBipredIdc, picInitQpMinus26, picInitQsMinus26, chromaQpIndexOffset,
         deblockingFilterControlPresentFlag, constrainedIntraPredFlag,
         redundantPicCntPresentFlag }

/-- `more_rbsp_data()`: there is a one behind the next bit, so the next bit is not the stop bit. -/
def moreRbspData : BitReader Bool := (fun l => l.tail.contains true) <$> peek

/-- `pic_parameter_set_rbsp()`. -/
def picParameterSetWithExtension (chromaFormatIdc : ℕ) :
    BitReader (PicParameterSet × Option PicParameterSetExtension) := do
  let main ← picParameterSet
  let more ← moreRbspData
  let extension ← onlyIf more (picParameterSetExtension chromaFormatIdc)
  pure (main, extension)

/-- The start code of four bytes and the header of a unit. -/
def nalUnitHeader (nalUnitType : BitVec 5) : BitReader Unit := do
  let startCode ← u 32
  ensure (startCode == 1)
  let forbiddenZeroBit ← flag
  ensure (!forbiddenZeroBit)
  let _nalRefIdc ← u 2
  let type ← u 5
  ensure (type == nalUnitType)

/-- `rbsp_trailing_bits()`: the stop bit, and zeros up to the end, which is in the same byte. -/
def rbspTrailing : BitReader Unit
  | true :: zeros => if zeros.all (! ·) && zeros.length < 8 then some ((), []) else none
  | _ => none

/-- Read a whole unit, which takes a number of bytes: what its payload says, and the bits that are
left behind it. -/
def decodeUnit (nalUnitType : BitVec 5) (payload : BitReader α) (l : List Bool) :
    Option (α × List Bool) :=
  if l.length % 8 = 0 then
    (do
      nalUnitHeader nalUnitType
      let a ← payload
      rbspTrailing
      pure a : BitReader α) l
  else none

/-! ### What is read -/

/-- The timing is read back. -/
theorem reads_timingInfo (units scale : ℕ) :
    Reads timingInfo (bits 32 units ++ (bits 32 scale ++ bits 1 1))
      ⟨BitVec.ofNat 32 units, BitVec.ofNat 32 scale, true⟩ :=
  (Reads.u 32 units).bind ((Reads.u 32 scale).bind ((Reads.flag_bits 1).bind_pure _))

/-- The parameters of a hypothetical decoder with one schedule. -/
theorem reads_hrdParameters (bitRateScale cpbSizeScale bitRate cpbSize cbr initial removal output
    offset : ℕ) :
    Reads hrdParameters (ueBits 0 ++ (bits 4 bitRateScale ++ (bits 4 cpbSizeScale ++
      ((ueBits bitRate ++ (ueBits cpbSize ++ bits 1 cbr)) ++ (bits 5 initial ++ (bits 5 removal ++
      (bits 5 output ++ bits 5 offset)))))))
      ⟨BitVec.ofNat 4 bitRateScale, BitVec.ofNat 4 cpbSizeScale,
        [⟨bitRate, cpbSize, cbr.testBit 0⟩], BitVec.ofNat 5 initial, BitVec.ofNat 5 removal,
        BitVec.ofNat 5 output, BitVec.ofNat 5 offset⟩ := by
  have hschedule : Reads hrdSchedule (ueBits bitRate ++ (ueBits cpbSize ++ bits 1 cbr))
      ⟨bitRate, cpbSize, cbr.testBit 0⟩ :=
    (Reads.ue _).bind ((Reads.ue _).bind ((Reads.flag_bits _).bind_pure _))
  have hschedules := Reads.times_succ hschedule (Reads.times_zero hrdSchedule)
  rw [List.append_nil] at hschedules
  unfold hrdParameters
  refine (Reads.ue 0).bind ((Reads.u 4 _).bind ((Reads.u 4 _).bind (hschedules.bind ?_)))
  exact (Reads.u 5 _).bind ((Reads.u 5 _).bind ((Reads.u 5 _).bind ((Reads.u 5 _).bind_pure _)))

/-- VUI parameters with timing and the parameters of one hypothetical decoder. -/
theorem reads_vuiParameters {l l' : List Bool} {t : TimingInfo} {r : HrdParameters}
    (htiming : Reads timingInfo l t) (hhrd : Reads hrdParameters l' r) :
    Reads vuiParameters (bits 5 1 ++ (l ++ (bits 1 1 ++ (l' ++ (bits 1 0 ++ (bits 1 0 ++
      (bits 1 0 ++ bits 1 0)))))))
      ⟨none, none, none, none, some t, some r, none, some false, false, none⟩ := by
  have hread : Reads vuiParameters ([false] ++ ([] ++ ([false] ++ ([] ++ ([false] ++ ([] ++
      ([false] ++ ([] ++ ([true] ++ (l ++ (bits 1 1 ++ (l' ++ (bits 1 0 ++ ([] ++ (bits 1 0 ++
      (bits 1 0 ++ (bits 1 0 ++ [])))))))))))))))))
      ⟨none, none, none, none, some t, some r, none, some false, false, none⟩ := by
    unfold vuiParameters
    refine (Reads.flag false).bind ((Reads.onlyIf_false _).bind ?_)
    refine (Reads.flag false).bind ((Reads.onlyIf_false _).bind ?_)
    refine (Reads.flag false).bind ((Reads.onlyIf_false _).bind ?_)
    refine (Reads.flag false).bind ((Reads.onlyIf_false _).bind ?_)
    refine (Reads.flag true).bind ((Reads.onlyIf_true htiming).bind ?_)
    refine (Reads.flag_bits 1).bind ((Reads.onlyIf_true hhrd).bind ?_)
    refine (Reads.flag_bits 0).bind ((Reads.onlyIf_false _).bind ?_)
    refine (Reads.onlyIf_true (Reads.flag_bits 0)).bind ((Reads.flag_bits 0).bind ?_)
    exact (Reads.flag_bits 0).bind ((Reads.onlyIf_false _).bind_pure _)
  rw [show bits 5 1 = [false, false, false, false, true] by decide]
  simpa using hread

/-- The cropping is read back. -/
theorem reads_frameCropping (left right top bottom : ℕ) :
    Reads frameCropping (ueBits left ++ (ueBits right ++ (ueBits top ++ ueBits bottom)))
      ⟨left, right, top, bottom⟩ :=
  (Reads.ue _).bind ((Reads.ue _).bind ((Reads.ue _).bind ((Reads.ue _).bind_pure _)))

/-- The header of a unit is read back. -/
theorem reads_nalUnitHeader (nalRefIdc nalUnitType : ℕ) :
    Reads (nalUnitHeader (BitVec.ofNat 5 nalUnitType))
      (bits 32 1 ++ (bits 1 0 ++ (bits 2 nalRefIdc ++ bits 5 nalUnitType))) () := by
  have hread : Reads (nalUnitHeader (BitVec.ofNat 5 nalUnitType)) (bits 32 1 ++ ([] ++ (bits 1 0 ++
      ([] ++ (bits 2 nalRefIdc ++ (bits 5 nalUnitType ++ [])))))) () := by
    refine (Reads.u 32 1).bind (Reads.ensure_true.bind ?_)
    refine (Reads.flag_bits 0).bind (Reads.ensure_true.bind ?_)
    refine (Reads.u 2 _).bind ((Reads.u 5 nalUnitType).bind ?_)
    rw [beq_self_eq_true]
    exact Reads.ensure_true
  rwa [List.append_nil] at hread

/-- An extension without a scaling matrix. -/
theorem reads_picParameterSetExtension (chromaFormatIdc transform8x8ModeFlag : ℕ) (offset : ℤ) :
    Reads (picParameterSetExtension chromaFormatIdc)
      (bits 1 transform8x8ModeFlag ++ (bits 1 0 ++ seBits offset))
      ⟨transform8x8ModeFlag.testBit 0, none, offset⟩ :=
  (Reads.flag_bits _).bind ((Reads.flag_bits 0).bind ((Reads.onlyIf_false _).bind (l := [])
    ((Reads.se _).bind_pure _)))

/-- Trailing bits are read to the end. -/
theorem rbspTrailing_eq {n : ℕ} (h : n < 8) :
    rbspTrailing (true :: List.replicate n false) = some ((), []) := by
  simp [rbspTrailing, h]

/-- A unit of whole bytes is read if its payload is read in front of the trailing bits. -/
theorem decodeUnit_of_reads {nalUnitType : BitVec 5} {payload : BitReader α}
    {header l trailing : List Bool} {a : α}
    (hlength : (header ++ (l ++ trailing)).length % 8 = 0)
    (hheader : Reads (nalUnitHeader nalUnitType) header ())
    (hread : payload (l ++ trailing) = some (a, trailing))
    (htrailing : rbspTrailing trailing = some ((), [])) :
    decodeUnit nalUnitType payload (header ++ (l ++ trailing)) = some (a, []) := by
  rw [decodeUnit, if_pos hlength, BitReader.bind_eq (hheader _), BitReader.bind_eq hread,
    BitReader.bind_eq htrailing]
  rfl

end HardwareIntel.Topaz
