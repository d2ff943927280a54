import HardwareIntel.Topaz.HeaderCapacity
import HardwareIntel.Topaz.ParameterSets
import Mathlib.Data.UInt

/-!
# The templates of the TopazHP driver

What the driver prepares for the firmware: the headers of slices, sequences and dependent views, and
two SEI messages. None of their functions reads what it has written, so each is the list of its calls.
-/

namespace HardwareIntel.Topaz

abbrev TngCall := HeaderCall HeaderElementType

namespace TngCall

def insertElementToken (type : HeaderElementType) : TngCall := .token type

def writeUpto8bitsElements (writeBits bitCnt : ℕ) : TngCall := .write (.upto8bits writeBits bitCnt)

def writeUpto32bitsElements (writeBits bitCnt : ℕ) : TngCall := .write (.upto32bits writeBits bitCnt)

def generateUe (uiVal : ℕ) : TngCall := .write (.ue uiVal)

def generateSe (iVal : ℤ) : TngCall := .write (.se iVal)

/-- `tng__H264_writebits_startcode_prefix_element`. -/
def startcodePrefixElement (byteSize : ℕ) : List TngCall :=
  List.replicate (byteSize - 1) (writeUpto8bitsElements 0 8) ++ [writeUpto8bitsElements 1 8]

end TngCall

open TngCall

/-! ### Slices -/

inductive SlhpSliceframeType
  | p | b | i | sp | si | idr
  deriving DecidableEq

inductive FrameTemplateType
  | idr | intra | interP | interB | interPIdr | undefined
  deriving DecidableEq

instance decidableForallFrameTemplateType (P : FrameTemplateType → Prop) [DecidablePred P] :
    Decidable (∀ t, P t) :=
  decidable_of_iff (P .idr ∧ P .intra ∧ P .interP ∧ P .interB ∧ P .interPIdr ∧ P .undefined)
    ⟨fun ⟨h₁, h₂, h₃, h₄, h₅, h₆⟩ t => FrameTemplateType.rec h₁ h₂ h₃ h₄ h₅ h₆ t,
      fun h => ⟨h _, h _, h _, h _, h _, h _⟩⟩

/-- The template type that a number stands for. -/
def frameTemplateType (sliceType : UInt32) : FrameTemplateType :=
  if sliceType = 0 then .idr else if sliceType = 1 then .intra else if sliceType = 2 then .interP
  else if sliceType = 3 then .interB else if sliceType = 4 then .interPIdr else .undefined

structure H264SliceHeaderParams where
  mvcViewIdx : UInt16
  startCodePrefixSizeBytes : ℕ
  disableDeblockingFilterIdc : UInt8
  debAlphaOffsetDiv2 : ℤ
  debBetaOffsetDiv2 : ℤ
  sliceFrameType : SlhpSliceframeType
  picInterlace : Bool
  referencePicture : Bool
  isLongTermRef : Bool

def nonMvcView : UInt16 := 0xFFFF

def mvcBaseViewIdx : UInt16 := 0

/-- The `slice_type` of a slice. -/
def SlhpSliceframeType.sliceType (t : SlhpSliceframeType) : ℕ :=
  if t = .idr then SlhpSliceframeType.i.ctorIdx else t.ctorIdx

/-- `tng__insert_prefix_nal_header`. -/
def insertPrefixNalHeader (t : SlhpSliceframeType) (prefixSize : ℕ) : List TngCall :=
  [insertElementToken .startcodeRawdata] ++ startcodePrefixElement prefixSize ++
  [insertElementToken .rawdata, writeUpto8bitsElements 0 1, -- forbidden_zero_bit
    insertElementToken .reference,
    insertElementToken .rawdata, writeUpto8bitsElements 14 5, -- nal_unit_type
    writeUpto8bitsElements 0 1, -- svc_extension_flag
    writeUpto8bitsElements (if t = .idr then 0 else 1) 1, -- non_idr_flag
    writeUpto8bitsElements 0 6, -- priority_id
    writeUpto32bitsElements 0 10, -- view_id
    insertElementToken .temporalId,
    insertElementToken .anchorPicFlag,
    insertElementToken .rawdata,
    writeUpto8bitsElements (if t = .b then 0 else 1) 1, -- inter_view_flag
    writeUpto8bitsElements 1 1] -- reserved_one_bit

/-- The deblocking parameters at the end of a slice header. -/
def deblockingCalls (p : H264SliceHeaderParams) : List TngCall :=
  generateUe p.disableDeblockingFilterIdc.toNat ::
    if p.disableDeblockingFilterIdc ≠ 1 then
      [generateSe p.debAlphaOffsetDiv2, generateSe p.debBetaOffsetDiv2]
    else []

/-- Calls, and whether an element of raw data is to begin before the next bits. -/
structure PendingCalls where
  calls : List TngCall
  startNextRawDataElement : Bool

namespace PendingCalls

def add (w : PendingCalls) (calls : List TngCall) : PendingCalls := { w with calls := w.calls ++ calls }

def startNext (w : PendingCalls) : PendingCalls := { w with startNextRawDataElement := true }

/-- `CheckStartRawDataElement`. -/
def checkStartRawDataElement (w : PendingCalls) : PendingCalls :=
  if w.startNextRawDataElement then ⟨w.calls ++ [insertElementToken .rawdata], false⟩ else w

end PendingCalls

/-- `tng__H264ES_notforsims_writebits_extension_sliceheader`, up to the deblocking parameters. -/
def extensionSliceheaderFront (t : SlhpSliceframeType) (prefixSize : ℕ)
    (picInterlace cabacEnabled isIdr : Bool) : List TngCall :=
  let w : PendingCalls := ⟨[insertElementToken .startcodeRawdata] ++ startcodePrefixElement prefixSize ++
    [writeUpto8bitsElements 0 1, -- forbidden_zero_bit
      insertElementToken .reference,
      insertElementToken .rawdata, writeUpto8bitsElements 20 5, -- nal_unit_type
      writeUpto8bitsElements 0 1, -- svc_extension_flag
      writeUpto8bitsElements (if t = .idr ∨ t = .p ∧ isIdr then 0 else 1) 1, -- non_idr_flag
      writeUpto8bitsElements 0 6, -- priority_id
      writeUpto32bitsElements 1 10, -- view_id
      insertElementToken .temporalId,
      insertElementToken .anchorPicFlag,
      insertElementToken .rawdata,
      writeUpto8bitsElements 0 1, -- inter_view_flag
      writeUpto8bitsElements 1 1, -- reserved_one_bit
      insertElementToken .currmbnr,
      insertElementToken .rawdata,
      generateUe t.sliceType,
      generateUe 1, -- pic_parameter_set_id
      insertElementToken .frameNum], true⟩
  let w := if picInterlace then
    (w.checkStartRawDataElement.add
      [writeUpto8bitsElements 1 1, insertElementToken .bottomField]).startNext else w
  let w := if t = .idr ∨ isIdr then
    w.checkStartRawDataElement.add [writeUpto8bitsElements 1 1] else w -- idr_pic_id
  let w := (w.add [insertElementToken .picOrderCnt]).startNext
  let w := if t = .b then w.add [insertElementToken .directSpatialMvFlag] else w
  let w := if t = .p then (w.add [insertElementToken .numRefIdxActive]).startNext
    else if t = .b then w.checkStartRawDataElement.add [writeUpto8bitsElements 0 1] else w
  let w := if t ≠ .i ∧ t ≠ .idr then (w.add [insertElementToken .reorderL0]).startNext else w
  let w := if t = .b then w.checkStartRawDataElement.add [writeUpto8bitsElements 0 1] else w
  let w := if t = .idr ∨ isIdr then
      -- no_output_of_prior_pics_flag, long_term_reference_flag
      w.checkStartRawDataElement.add [writeUpto8bitsElements 0 1, writeUpto8bitsElements 0 1]
    else (w.add [insertElementToken .adaptive]).startNext
  let w := if cabacEnabled ∧ (t = .p ∨ t = .b) then
    w.checkStartRawDataElement.add [generateUe 0] else w -- cabac_init_idc
  w.calls ++ [insertElementToken .sqp, insertElementToken .rawdata]

/-- How `tng__H264ES_notforsims_writebits_slice_header` begins in the base view and without views. -/
def sliceHeaderStart (t : SlhpSliceframeType) (prefixSize : ℕ) (mvc : Bool) : List TngCall :=
  if mvc then insertPrefixNalHeader t prefixSize ++ [insertElementToken .startcodeMidhdr]
  else [insertElementToken .startcodeRawdata]

/-- The slice header in the base view and without views, up to the deblocking parameters. Its
`pic_parameter_set_id` is 0 in both cases. -/
def sliceHeaderFront (t : SlhpSliceframeType) (prefixSize : ℕ)
    (mvc picInterlace cabacEnabled referencePicture isLongTermRef : Bool) : List TngCall :=
  sliceHeaderStart t prefixSize mvc ++ startcodePrefixElement prefixSize ++
  [writeUpto8bitsElements 0 1, -- forbidden_zero_bit
    insertElementToken .reference, insertElementToken .rawdata,
    writeUpto8bitsElements (if t = .idr then 5 else 1) 5, -- nal_unit_type
    insertElementToken .currmbnr,
    insertElementToken .rawdata,
    generateUe t.sliceType,
    generateUe 0,
    insertElementToken .frameNum] ++
  (if picInterlace ∨ t = .idr then
    [insertElementToken .rawdata] ++
    (if picInterlace then
      [writeUpto8bitsElements 1 1, -- field_pic_flag
        insertElementToken .bottomField, insertElementToken .rawdata]
    else []) ++
    (if t = .idr then [insertElementToken .idrPicId] else [])
  else []) ++
  [insertElementToken .picOrderCnt] ++
  (if t = .b then [insertElementToken .directSpatialMvFlag] else []) ++
  (if t = .p then [insertElementToken .numRefIdxActive]
    else if t = .b then [insertElementToken .rawdata, writeUpto8bitsElements 0 1] else []) ++
  (if t ≠ .i ∧ t ≠ .idr then
    [insertElementToken .reorderL0] ++ (if t = .b then [insertElementToken .reorderL1] else [])
  else []) ++
  [insertElementToken .sliceweightedpredictionstruct, insertElementToken .rawdata] ++
  (if referencePicture ∧ isLongTermRef then
    -- the memory management operations for a single long-term reference
    [writeUpto8bitsElements 1 1, generateUe 5, generateUe 4, generateUe 1, generateUe 6, generateUe 0,
      generateUe 0]
  else [insertElementToken .adaptive, insertElementToken .rawdata]) ++
  (if cabacEnabled ∧ (t = .p ∨ t = .b) then [generateUe 0] else []) ++ -- cabac_init_idc
  [insertElementToken .sqp, insertElementToken .rawdata]

/-- `tng__H264ES_notforsims_writebits_slice_header`. -/
def notforsimsWritebitsSliceHeader (p : H264SliceHeaderParams) (cabacEnabled isIdr : Bool) :
    List TngCall :=
  (if p.mvcViewIdx = nonMvcView ∨ p.mvcViewIdx = mvcBaseViewIdx then
    sliceHeaderFront p.sliceFrameType p.startCodePrefixSizeBytes (p.mvcViewIdx ≠ nonMvcView)
      p.picInterlace cabacEnabled p.referencePicture p.isLongTermRef
  else
    extensionSliceheaderFront p.sliceFrameType p.startCodePrefixSizeBytes p.picInterlace cabacEnabled
      isIdr) ++ deblockingCalls p

/-- The arguments of `tng__H264ES_notforsims_prepare_sliceheader` that a header depends on. -/
structure SliceTemplate where
  sliceType : UInt32
  disableDeblockingFilterIdc : UInt8
  cabacEnabled : Bool
  isInterlaced : Bool
  mvcViewIdx : UInt16
  isLongTermRef : Bool

namespace SliceTemplate

variable (a : SliceTemplate)

def templateType : FrameTemplateType := frameTemplateType a.sliceType

/-- The type of the slices of a template. -/
def sliceframeType : FrameTemplateType → SlhpSliceframeType
  | .idr => .idr
  | .intra => .i
  | .interB => .b
  | .interP | .interPIdr | .undefined => .p

def isIdr (t : FrameTemplateType) : Bool := t = .idr ∨ t = .interPIdr

def params : H264SliceHeaderParams where
  mvcViewIdx := a.mvcViewIdx
  startCodePrefixSizeBytes := 4
  disableDeblockingFilterIdc := a.disableDeblockingFilterIdc
  debAlphaOffsetDiv2 := 0
  debBetaOffsetDiv2 := 0
  sliceFrameType := sliceframeType a.templateType
  picInterlace := a.isInterlaced
  referencePicture := a.templateType ≠ .interB
  isLongTermRef := a.isLongTermRef

/-- `tng__H264ES_notforsims_prepare_sliceheader`. -/
def calls : List TngCall :=
  notforsimsWritebitsSliceHeader a.params a.cabacEnabled (isIdr a.templateType)

end SliceTemplate

/-! ### Sequences -/

/-- The arguments of `tng__H264ES_prepare_sequence_header` and of
`tng__H264ES_prepare_mvc_sequence_header`, which has no VUI parameters. -/
structure SequenceTemplate where
  vuiFlag : UInt32
  vuiParams : H264VuiParams
  cropParams : H264CropParams
  pictureWidth : UInt16
  pictureHeight : UInt16
  customQuantMask : UInt32
  profileIdc : UInt8
  levelIdc : UInt8
  fieldCount : UInt8
  maxNumRefFrames : UInt8
  ppsScaling : Bool
  useDefaultScalingList : Bool
  enableLossless : Bool

namespace SequenceTemplate

variable (a : SequenceTemplate)

/-- A profile is `SH_PROFILE_BP` and so on for 0 to 3; nothing checks that it is one of these. -/
def profile : ℤ := a.profileIdc.toNat - 5

/-- The `level_idc`: 111 and 9 both stand for level 1b. -/
def levelByte : UInt8 := if a.levelIdc = 111 ∨ a.levelIdc = 9 then 11 else a.levelIdc

def isLevel1B : Bool := a.levelIdc = 111 ∨ a.levelIdc = 9

def widthInMbsMinus1 : UInt8 := (a.pictureWidth >>> 4 - 1).toUInt8

def heightInMapsUnitsMinus1 : UInt8 := (a.pictureHeight >>> 4 - 1).toUInt8

def frameMbsOnlyFlag : Bool := ¬1 < a.fieldCount

def defaultScalingList : Bool := a.useDefaultScalingList ∧ ¬a.ppsScaling

/-- The bytes of the profile, which are missing for an unknown one. -/
def profileCalls : List TngCall :=
  if a.profile = 0 then
    [writeUpto8bitsElements 66 8,
      writeUpto8bitsElements (1 <<< 7 ||| (if a.isLevel1B then 1 else 0) <<< 4) 8]
  else if a.profile = 1 then
    [writeUpto8bitsElements 77 8,
      writeUpto8bitsElements (1 <<< 6 ||| (if a.isLevel1B then 1 else 0) <<< 4) 8]
  else if a.profile = 2 then [writeUpto8bitsElements 100 8, writeUpto8bitsElements 0 8]
  else if a.profile = 3 then [writeUpto8bitsElements 244 8, writeUpto8bitsElements 0 8]
  else []

/-- The scaling lists: there are none to write, so the firmware is to insert custom ones. -/
def scalingCalls (scalingMatrixPresent : Bool) (lists : List TngCall) : List TngCall :=
  if a.defaultScalingList ∨ scalingMatrixPresent then
    writeUpto8bitsElements 1 1 ::
      if a.defaultScalingList then [writeUpto8bitsElements 0 8]
      else lists ++ [insertElementToken .rawdata]
  else [writeUpto8bitsElements 0 1]

/-- `chroma_format_idc`, the bit depths, and what only the high profiles have. -/
def highProfileCalls (scalingMatrixPresent : Bool) (lists : List TngCall) : List TngCall :=
  [generateUe 1, generateUe 0, generateUe 0,
    writeUpto8bitsElements (if a.enableLossless then 1 else 0) 1] ++
  a.scalingCalls scalingMatrixPresent lists

/-- From `log2_max_frame_num_minus4` to `direct_8x8_inference_flag`. -/
def pictureCalls : List TngCall :=
  [generateUe 1, generateUe 0, generateUe 2, generateUe a.maxNumRefFrames.toNat,
    writeUpto8bitsElements 0 1, -- gaps_in_frame_num_value_allowed_flag
    generateUe a.widthInMbsMinus1.toNat, generateUe a.heightInMapsUnitsMinus1.toNat,
    writeUpto8bitsElements (if a.frameMbsOnlyFlag then 1 else 0) 1] ++
  (if a.frameMbsOnlyFlag then [] else [writeUpto8bitsElements 0 1]) ++
  [writeUpto8bitsElements 1 1]

def cropCalls : List TngCall :=
  if a.cropParams.clip then
    [writeUpto8bitsElements 1 1,
      generateUe a.cropParams.leftCropOffset.toNat, generateUe a.cropParams.rightCropOffset.toNat,
      generateUe a.cropParams.topCropOffset.toNat, generateUe a.cropParams.bottomCropOffset.toNat]
  else [writeUpto8bitsElements 0 1]

/-- `tng__H264_writebits_VUI_params`. -/
def vuiCalls (vui : H264VuiParams) : List TngCall :=
  [writeUpto8bitsElements 1 5, writeUpto32bitsElements vui.numUnitsInTick.toNat 32,
    writeUpto32bitsElements vui.timeScale.toNat 32,
    -- fixed_frame_rate_flag, nal_hrd_parameters_present_flag, cpb_cnt_minus1
    writeUpto8bitsElements 1 1, writeUpto8bitsElements 1 1, writeUpto8bitsElements 1 1,
    -- bit_rate_scale, cpb_size_scale
    writeUpto8bitsElements 0 4, writeUpto8bitsElements 2 4, generateUe vui.bitRateValueMinus1.toNat,
    generateUe vui.cbpSizeValueMinus1.toNat, writeUpto8bitsElements vui.cbr.toNat 1,
    writeUpto8bitsElements vui.initialCpbRemovalDelayLengthMinus1.toNat 5,
    writeUpto8bitsElements vui.cpbRemovalDelayLengthMinus1.toNat 5,
    writeUpto8bitsElements vui.dpbOutputDelayLengthMinus1.toNat 5,
    writeUpto8bitsElements vui.timeOffsetLength.toNat 5,
    -- vcl_hrd_parameters_present_flag, low_delay_hrd_flag
    writeUpto8bitsElements 0 1, writeUpto8bitsElements 0 1,
    -- pic_struct_present_flag, bitstream_restriction_flag
    writeUpto8bitsElements 0 1, writeUpto8bitsElements 0 1]

/-- `tng__H264ES_prepare_sequence_header`. -/
def calls : List TngCall :=
  let vuiParamsPresent := a.vuiFlag.toUInt8
  [insertElementToken .startcodeRawdata] ++ startcodePrefixElement 4 ++
  [writeUpto8bitsElements (3 <<< 5 ||| 7) 8] ++ a.profileCalls ++
  [writeUpto8bitsElements a.levelByte.toNat 8, generateUe 0] ++
  (if a.profile = 2 ∨ a.profile = 3 then
    a.highProfileCalls (a.customQuantMask ≠ 0 ∧ ¬a.ppsScaling) [insertElementToken .customQuant]
  else []) ++
  a.pictureCalls ++ a.cropCalls ++ [writeUpto8bitsElements vuiParamsPresent.toNat 1] ++
  (if 0 < vuiParamsPresent then vuiCalls a.vuiParams else []) ++
  [insertElementToken .insertbytealignH264]

/-- The views of a subset sequence: there are two, and the second one refers to the first. -/
def mvcExtensionCalls : List TngCall :=
  [writeUpto8bitsElements 1 1, -- bit_equal_to_one
    -- num_views_minus1, view_id
    generateUe 1, generateUe 0, generateUe 1,
    -- anchor references
    generateUe 1, generateUe 0, generateUe 0,
    -- non-anchor references
    generateUe 1, generateUe 0, generateUe 0, generateUe 0, -- num_level_values_signaled_minus1
    writeUpto8bitsElements a.levelByte.toNat 8, generateUe 0, -- num_applicable_ops_minus1
    writeUpto8bitsElements 0 3, -- applicable_ops_temporal_id
    generateUe 0, generateUe 0, generateUe 0,
    writeUpto8bitsElements 0 1, -- mvc_vui_parameters_present_flag
    writeUpto8bitsElements 0 1] -- additional_extension2_flag

/-- `tng__H264ES_prepare_mvc_sequence_header`. -/
def mvcCalls : List TngCall :=
  [insertElementToken .startcodeRawdata] ++ startcodePrefixElement 4 ++
  [writeUpto8bitsElements (3 <<< 5 ||| 15) 8,
    writeUpto8bitsElements 118 8, writeUpto8bitsElements 0 8,
    writeUpto8bitsElements a.levelByte.toNat 8, generateUe 1] ++ -- seq_parameter_set_id
  a.highProfileCalls (¬a.ppsScaling ∧ a.customQuantMask.toUInt8 ≠ 0) [] ++
  a.pictureCalls ++ a.cropCalls ++
  [writeUpto8bitsElements 0 1] ++ -- vui_parameters_present_flag
  a.mvcExtensionCalls ++ [insertElementToken .insertbytealignH264]

end SequenceTemplate

/-! ### SEI messages -/

/-- The header of an SEI message of a type, with the size of its payload. -/
def seiHeaderCalls (payloadType : ℕ) (payloadSizeBits : UInt8) : List TngCall :=
  [insertElementToken .startcodeRawdata] ++ startcodePrefixElement 3 ++
  [writeUpto8bitsElements 6 8, writeUpto8bitsElements payloadType 8,
    writeUpto8bitsElements ((payloadSizeBits.toNat + 7) / 8) 8]

/-- The end of an SEI message. -/
def seiEndCalls : List TngCall :=
  [insertElementToken .insertbytealignH264,
    insertElementToken .startcodeRawdata, writeUpto8bitsElements 0x80 8]

/-- The arguments of `tng__H264ES_writebits_SEI_buffering_period_header`. -/
structure BufferingPeriod where
  nalHrdBpPresentFlag : UInt8
  nalCpbCntMinus1 : UInt8
  nalInitialCpbRemovalDelayLength : UInt8
  vclHrdBpPresentFlag : UInt8
  vclCpbCntMinus1 : UInt8
  vclInitialCpbRemovalDelay : UInt32
  vclInitialCpbRemovalDelayOffset : UInt32

namespace BufferingPeriod

variable (a : BufferingPeriod)

/-- The number of bits of the payload, which is counted in a byte. -/
def payloadSizeBits : UInt8 :=
  1 + (if a.nalHrdBpPresentFlag ≠ 0 then
      UInt8.ofNat ((a.nalCpbCntMinus1.toNat + 1) * a.nalInitialCpbRemovalDelayLength.toNat * 2)
    else 0) +
    if a.vclHrdBpPresentFlag ≠ 0 then
      UInt8.ofNat ((a.vclCpbCntMinus1.toNat + 1) * a.nalInitialCpbRemovalDelayLength.toNat * 2)
    else 0

/-- The loop over `ui8SchedSelIdx`, with a bound on the rounds that are looked at. The index is a byte
that is compared with the last one, so it goes on for ever if that is 255. -/
def schedSelLoop (cpbCntMinus1 : UInt8) (body rest : List TngCall) : ℕ → UInt8 → List TngCall
  | 0, _ => []
  | rounds + 1, schedSelIdx =>
    if schedSelIdx ≤ cpbCntMinus1 then
      body ++ schedSelLoop cpbCntMinus1 body rest rounds (schedSelIdx + 1)
    else rest

/-- The delays that the firmware inserts. -/
def nalCalls : List TngCall :=
  [insertElementToken .bphSeiNalInitialCpbRemovalDelay,
    insertElementToken .bphSeiNalInitialCpbRemovalDelayOffset]

def vclCalls : List TngCall :=
  [insertElementToken .startcodeRawdata,
    writeUpto32bitsElements a.vclInitialCpbRemovalDelay.toNat a.nalInitialCpbRemovalDelayLength.toNat,
    writeUpto32bitsElements a.vclInitialCpbRemovalDelayOffset.toNat
      a.nalInitialCpbRemovalDelayLength.toNat]

/-- The calls from the second loop on. -/
def vclLoop (rounds : ℕ) : List TngCall :=
  if a.vclHrdBpPresentFlag ≠ 0 then
    schedSelLoop a.vclCpbCntMinus1 a.vclCalls seiEndCalls rounds 0
  else seiEndCalls

/-- `tng__H264ES_writebits_SEI_buffering_period_header`. -/
def calls (rounds : ℕ) : List TngCall :=
  seiHeaderCalls 0 a.payloadSizeBits ++ [generateUe 0] ++
  if a.nalHrdBpPresentFlag ≠ 0 then
    schedSelLoop a.nalCpbCntMinus1 nalCalls (a.vclLoop rounds) rounds 0
  else a.vclLoop rounds

end BufferingPeriod

/-- The arguments of `tng__H264ES_writebits_SEI_picture_timing_header` that a message depends on. -/
structure PictureTiming where
  cpbDpbDelaysPresentFlag : UInt8
  cpbRemovalDelayLengthMinus1 : UInt32
  dpbOutputDelayLengthMinus1 : UInt32
  picStructPresentFlag : UInt8
  picStruct : UInt8
  numClockTs : UInt8
  clockTimestampFlag : ℕ → UInt8
  fullTimestampFlag : UInt8
  secondsFlag : UInt8
  minutesFlag : UInt8
  hoursFlag : UInt8
  secondsValue : UInt8
  minutesValue : UInt8
  hoursValue : UInt8
  ctType : UInt8
  nuitFieldBasedFlag : UInt8
  countingType : UInt8
  discontinuityFlag : UInt8
  cntDroppedFlag : UInt8
  nFrames : UInt8
  timeOffsetLength : UInt8
  timeOffset : Int32

namespace PictureTiming

variable (a : PictureTiming)

/-- The bits that are counted for the time of a timestamp. -/
def timeSizeBits : UInt8 :=
  if a.fullTimestampFlag ≠ 0 then 6 + 6 + 5
  else 1 + if a.secondsFlag ≠ 0 then
      6 + 1 + if a.minutesFlag ≠ 0 then 6 + 1 + if a.hoursFlag ≠ 0 then 5 else 0 else 0
    else 0

/-- The bits that are counted for a timestamp. -/
def timestampSizeBits (i : ℕ) : UInt8 :=
  1 + if a.clockTimestampFlag i ≠ 0 then
      (2 + 1 + 5 + 1 + 1 + 1 + 8) + a.timeSizeBits +
        if 0 < a.timeOffsetLength then a.timeOffsetLength else 0
    else 0

/-- The number of bits of the payload, which is counted in a byte. -/
def payloadSizeBits : UInt8 :=
  (if a.cpbDpbDelaysPresentFlag ≠ 0 then
      (a.cpbRemovalDelayLengthMinus1 + 1 + a.dpbOutputDelayLengthMinus1 + 1).toUInt8
    else 0) +
    if a.picStructPresentFlag ≠ 0 then
      4 + ((List.range a.numClockTs.toNat).map a.timestampSizeBits).sum
    else 0

/-- The time of a timestamp, down to what is flagged. -/
def timeCalls : List TngCall :=
  if a.fullTimestampFlag ≠ 0 then
    [writeUpto8bitsElements a.secondsValue.toNat 6,
      writeUpto8bitsElements a.minutesValue.toNat 6, writeUpto8bitsElements a.hoursValue.toNat 5]
  else
    writeUpto8bitsElements a.secondsFlag.toNat 1 ::
      if a.secondsFlag ≠ 0 then
        writeUpto8bitsElements a.secondsValue.toNat 6 ::
        writeUpto8bitsElements a.minutesFlag.toNat 1 ::
          if a.minutesFlag ≠ 0 then
            writeUpto8bitsElements a.minutesValue.toNat 6 ::
            writeUpto8bitsElements a.hoursFlag.toNat 1 ::
              if a.hoursFlag ≠ 0 then [writeUpto8bitsElements a.hoursValue.toNat 5] else []
          else []
      else []

/-- The offset in two's complement. The power of two is written with `^`, which is something else. -/
def timeOffsetBits : UInt32 :=
  if a.timeOffset < 0 then
    (Int32.ofNat (2 ^^^ a.timeOffsetLength.toNat) + a.timeOffset).toUInt32
  else a.timeOffset.toUInt32

/-- A timestamp. -/
def timestampCalls (i : ℕ) : List TngCall :=
  writeUpto8bitsElements (a.clockTimestampFlag i).toNat 1 ::
    if a.clockTimestampFlag i ≠ 0 then
      [writeUpto8bitsElements a.ctType.toNat 2, writeUpto8bitsElements a.nuitFieldBasedFlag.toNat 1,
        writeUpto8bitsElements a.countingType.toNat 5,
        writeUpto8bitsElements a.fullTimestampFlag.toNat 1,
        writeUpto8bitsElements a.discontinuityFlag.toNat 1,
        writeUpto8bitsElements a.cntDroppedFlag.toNat 1,
        writeUpto8bitsElements a.nFrames.toNat 8] ++
      a.timeCalls ++
      if 0 < a.timeOffsetLength then
        [writeUpto32bitsElements a.timeOffsetBits.toNat a.timeOffsetLength.toNat]
      else []
    else []

/-- The delays that the firmware inserts. -/
def delayCalls : List TngCall :=
  if a.cpbDpbDelaysPresentFlag ≠ 0 then
    [insertElementToken .pthSeiNalCpbRemovalDelay, insertElementToken .pthSeiNalDpbOutputDelay]
  else []

def picStructCalls : List TngCall :=
  if a.picStructPresentFlag ≠ 0 then
    [insertElementToken .startcodeRawdata, writeUpto8bitsElements a.picStruct.toNat 4] ++
      (List.range a.numClockTs.toNat).flatMap a.timestampCalls
  else []

/-- `tng__H264ES_writebits_SEI_picture_timing_header`. -/
def calls : List TngCall :=
  seiHeaderCalls 1 a.payloadSizeBits ++ a.delayCalls ++ a.picStructCalls ++ seiEndCalls

end PictureTiming

end HardwareIntel.Topaz
