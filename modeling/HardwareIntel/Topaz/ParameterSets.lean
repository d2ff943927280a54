import HardwareIntel.Topaz.HeaderElements
import HardwareIntel.Topaz.H264Syntax

/-!
# The parameter sets that the host writes

`tng__H264ES_writebits_sequence_header` and `tng__H264ES_writebits_picture_header` write the
parameter sets of an H.264 stream element by element. A decoder has to read back the values they
were given.

Most of the syntax is written as it is read. The fields are wider than their syntax elements,
though, and a flag that is neither 0 nor 1 is cut off, or moves the elements after it. Level 1b is
written for the high profiles as level 1.1, and a picture parameter set always says that it has no
scaling matrix. `parameter_sets_decode` says that these are the only cases that do not decode back.
-/

namespace HardwareIntel.Topaz

open List MtxHeader

inductive ShProfile
  | bp
  | mp
  | hp
  | h444p
  deriving DecidableEq

inductive ShLevel
  | level10 | level1B | level11 | level12 | level13 | level20 | level21 | level22 | level30
  | level31 | level32 | level40 | level41 | level42 | level50 | level51
  deriving DecidableEq

/-- The values of `SH_LEVEL_TYPE`. -/
def ShLevel.value : ShLevel → ℕ
  | .level10 => 10 | .level1B => 9 | .level11 => 11 | .level12 => 12 | .level13 => 13
  | .level20 => 20 | .level21 => 21 | .level22 => 22 | .level30 => 30 | .level31 => 31
  | .level32 => 32 | .level40 => 40 | .level41 => 41 | .level42 => 42 | .level50 => 50
  | .level51 => 51

structure H264VuiParams where
  timeScale : UInt32
  numUnitsInTick : UInt32
  bitRateValueMinus1 : UInt32
  cbpSizeValueMinus1 : UInt32
  cbr : UInt8
  initialCpbRemovalDelayLengthMinus1 : UInt8
  cpbRemovalDelayLengthMinus1 : UInt8
  dpbOutputDelayLengthMinus1 : UInt8
  timeOffsetLength : UInt8

structure H264CropParams where
  clip : Bool
  leftCropOffset : UInt16
  rightCropOffset : UInt16
  topCropOffset : UInt16
  bottomCropOffset : UInt16

/-- Custom scaling lists. Bit `i` of the mask says that list `i` is there; the first six lists are
those of 4x4 blocks. -/
structure H264ScalingMatrixParams where
  scalingLists4x4 : ℕ → ℕ → UInt8
  scalingLists8x8 : ℕ → ℕ → UInt8
  listMask : UInt32

structure H264SequenceHeaderParams where
  profile : ShProfile
  level : ShLevel
  widthInMbsMinus1 : UInt8
  heightInMapsUnitsMinus1 : UInt8
  log2MaxPicOrderCnt : UInt8
  maxNumRefFrames : UInt8
  gapsInFrameNumValue : UInt8
  frameMbsOnlyFlag : UInt8
  vuiParamsPresent : UInt8
  seqScalingMatrixPresentFlag : UInt8
  useDefaultScalingList : Bool
  isLossless : Bool
  vuiParams : H264VuiParams

structure H264PictureHeaderParams where
  picParameterSetId : UInt8
  seqParameterSetId : UInt8
  entropyCodingModeFlag : UInt8
  weightedPredFlag : UInt8
  weightedBipredIdc : UInt8
  chromaQpIndexOffset : Int8
  constrainedIntraPredFlag : UInt8
  transform8x8ModeFlag : UInt8
  picScalingMatrixPresentFlag : Bool
  secondChromaQpIndexOffset : Int8

namespace MtxHeader

/-- `tng__H264_writebits_VUI_params`. -/
def writebitsVuiParams (h : MtxHeader) (vui : H264VuiParams) : MtxHeader :=
  -- aspect ratio, overscan, video signal type and chroma location are absent, timing is present
  let h := h.writeUpto8bitsElements 1 5
  let h := h.writeUpto32bitsElements vui.numUnitsInTick.toNat 32
  let h := h.writeUpto32bitsElements vui.timeScale.toNat 32
  -- fixed_frame_rate_flag, nal_hrd_parameters_present_flag, cpb_cnt_minus1
  let h := h.writeUpto8bitsElements 1 1
  let h := h.writeUpto8bitsElements 1 1
  let h := h.writeUpto8bitsElements 1 1
  -- bit_rate_scale, cpb_size_scale
  let h := h.writeUpto8bitsElements 0 4
  let h := h.writeUpto8bitsElements 2 4
  let h := h.generateUe vui.bitRateValueMinus1.toNat
  let h := h.generateUe vui.cbpSizeValueMinus1.toNat
  let h := h.writeUpto8bitsElements vui.cbr.toNat 1
  let h := h.writeUpto8bitsElements vui.initialCpbRemovalDelayLengthMinus1.toNat 5
  let h := h.writeUpto8bitsElements vui.cpbRemovalDelayLengthMinus1.toNat 5
  let h := h.writeUpto8bitsElements vui.dpbOutputDelayLengthMinus1.toNat 5
  let h := h.writeUpto8bitsElements vui.timeOffsetLength.toNat 5
  -- vcl_hrd_parameters_present_flag, low_delay_hrd_flag
  let h := h.writeUpto8bitsElements 0 1
  let h := h.writeUpto8bitsElements 0 1
  -- pic_struct_present_flag, bitstream_restriction_flag
  let h := h.writeUpto8bitsElements 0 1
  h.writeUpto8bitsElements 0 1

/-- The values of a scaling list, each as the difference from the one before. -/
def writebitsScales : List UInt8 → MtxHeader → ℤ → MtxHeader
  | [], h, _ => h
  | scale :: scales, h, curScale =>
    writebitsScales scales (h.generateSe (scale.toNat - curScale)) scale.toNat

/-- One scaling list, or the flag that it is absent. -/
def writebitsScalingList (present : Bool) (scales : List UInt8) (h : MtxHeader) : MtxHeader :=
  if present then writebitsScales scales (h.writeUpto8bitsElements 1 1) 8
  else h.writeUpto8bitsElements 0 1

/-- `tng__H264ES_writebits_scalinglists`. -/
def writebitsScalinglists (h : MtxHeader) (scaling : Option H264ScalingMatrixParams)
    (write8x8 : Bool) : MtxHeader :=
  match scaling with
  | none => h.insertElementToken .customQuant
  | some m =>
    let h := (List.range 6).foldl (fun h i => writebitsScalingList (m.listMask.toNat.testBit i)
      ((List.range 16).map (m.scalingLists4x4 i)) h) h
    if write8x8 then
      (List.range 2).foldl (fun h i => writebitsScalingList (m.listMask.toNat.testBit (i + 6))
        ((List.range 64).map (m.scalingLists8x8 i)) h) h
    else h

/-- The `profile_idc` and the byte of constraint flags of each profile. -/
def profileBytes (profile : ShProfile) (level : ShLevel) : ℕ × ℕ :=
  match profile with
  | .bp => (66, 1 <<< 7 ||| (if level = .level1B then 1 else 0) <<< 4)
  | .mp => (77, 1 <<< 6 ||| (if level = .level1B then 1 else 0) <<< 4)
  | .hp => (100, 0)
  | .h444p => (244, 0)

/-- What the sequence header has for the high profiles only. -/
def writebitsHighProfile (h : MtxHeader) (p : H264SequenceHeaderParams)
    (scaling : Option H264ScalingMatrixParams) : MtxHeader :=
  -- chroma_format_idc, bit_depth_luma_minus8, bit_depth_chroma_minus8
  let h := h.generateUe 1
  let h := h.generateUe 0
  let h := h.generateUe 0
  let h := h.writeUpto8bitsElements (if p.isLossless then 1 else 0) 1
  if p.useDefaultScalingList ∨ p.seqScalingMatrixPresentFlag ≠ 0 then
    let h := h.writeUpto8bitsElements 1 1
    if p.useDefaultScalingList then h.writeUpto8bitsElements 0 8
    else (h.writebitsScalinglists scaling true).insertElementToken .rawdata
  else h.writeUpto8bitsElements 0 1

/-- The cropping of the sequence header. -/
def writebitsCrop (h : MtxHeader) (crop : H264CropParams) : MtxHeader :=
  if crop.clip then
    let h := h.writeUpto8bitsElements 1 1
    let h := h.generateUe crop.leftCropOffset.toNat
    let h := h.generateUe crop.rightCropOffset.toNat
    let h := h.generateUe crop.topCropOffset.toNat
    h.generateUe crop.bottomCropOffset.toNat
  else h.writeUpto8bitsElements 0 1

/-- `tng__H264ES_writebits_sequence_header`. -/
def writebitsSequenceHeader (h : MtxHeader) (p : H264SequenceHeaderParams) (crop : H264CropParams)
    (scaling : Option H264ScalingMatrixParams) : MtxHeader :=
  let h := h.insertElementToken .startcodeRawdata
  let h := h.startcodePrefixElement 4
  -- forbidden_zero_bit, nal_ref_idc, nal_unit_type
  let h := h.writeUpto8bitsElements (3 <<< 5 ||| 7) 8
  let h := h.writeUpto8bitsElements (profileBytes p.profile p.level).1 8
  let h := h.writeUpto8bitsElements (profileBytes p.profile p.level).2 8
  let h := h.writeUpto8bitsElements (if p.level = .level1B then 11 else p.level.value) 8
  let h := h.generateUe 0
  let h := if p.profile = .hp ∨ p.profile = .h444p then h.writebitsHighProfile p scaling else h
  -- log2_max_frame_num_minus4, pic_order_cnt_type
  let h := h.generateUe 1
  let h := h.generateUe 0
  let h := h.generateUe (p.log2MaxPicOrderCnt.toNat - 4)
  let h := h.generateUe p.maxNumRefFrames.toNat
  let h := h.writeUpto8bitsElements p.gapsInFrameNumValue.toNat 1
  let h := h.generateUe p.widthInMbsMinus1.toNat
  let h := h.generateUe p.heightInMapsUnitsMinus1.toNat
  let h := h.writeUpto8bitsElements p.frameMbsOnlyFlag.toNat 1
  let h := if p.frameMbsOnlyFlag = 0 then h.writeUpto8bitsElements 0 1 else h
  let h := h.writeUpto8bitsElements 1 1
  let h := h.writebitsCrop crop
  let h := h.writeUpto8bitsElements p.vuiParamsPresent.toNat 1
  let h := if 0 < p.vuiParamsPresent then h.writebitsVuiParams p.vuiParams else h
  h.insertElementToken .insertByteAlignH264

/-- The end of the picture header, which is written only when it says something. -/
def writebitsPictureExtension (h : MtxHeader) (p : H264PictureHeaderParams) : MtxHeader :=
  if p.transform8x8ModeFlag ≠ 0 ∨ p.secondChromaQpIndexOffset ≠ p.chromaQpIndexOffset ∨
      p.picScalingMatrixPresentFlag then
    let h := h.writeUpto8bitsElements p.transform8x8ModeFlag.toNat 1
    let h := h.writeUpto8bitsElements 0 1
    h.generateSe p.secondChromaQpIndexOffset.toInt
  else h

/-- `tng__H264ES_writebits_picture_header`. -/
def writebitsPictureHeader (h : MtxHeader) (p : H264PictureHeaderParams) : MtxHeader :=
  let h := h.insertElementToken .startcodeRawdata
  let h := h.startcodePrefixElement 4
  let h := h.writeUpto8bitsElements (3 <<< 5 ||| 8) 8
  let h := h.generateUe p.picParameterSetId.toNat
  let h := h.generateUe p.seqParameterSetId.toNat
  let h := h.writeUpto8bitsElements
    (p.entropyCodingModeFlag.toNat <<< 4 ||| 1 <<< 2 ||| 1 <<< 1 ||| 1) 5
  let h := h.writeUpto8bitsElements (p.weightedPredFlag.toNat <<< 2 ||| p.weightedBipredIdc.toNat) 3
  let h := h.insertElementToken .qp
  let h := h.insertElementToken .rawdata
  -- pic_init_qs_minus26
  let h := h.generateSe 0
  let h := h.generateSe p.chromaQpIndexOffset.toInt
  let h := h.writeUpto8bitsElements (1 <<< 2 ||| p.constrainedIntraPredFlag.toNat <<< 1) 3
  let h := h.writebitsPictureExtension p
  h.insertElementToken .insertByteAlignH264

end MtxHeader

/-! ### The bits that are written -/

/-- The bits of the hypothetical decoder's parameters. -/
def hrdBits (vui : H264VuiParams) : List Bool :=
  bits 1 1 ++ (bits 4 0 ++ (bits 4 2 ++ ((ueBits vui.bitRateValueMinus1.toNat ++
  (ueBits vui.cbpSizeValueMinus1.toNat ++ bits 1 vui.cbr.toNat)) ++
  (bits 5 vui.initialCpbRemovalDelayLengthMinus1.toNat ++
  (bits 5 vui.cpbRemovalDelayLengthMinus1.toNat ++
  (bits 5 vui.dpbOutputDelayLengthMinus1.toNat ++ bits 5 vui.timeOffsetLength.toNat))))))

/-- The bits of the VUI parameters. -/
def vuiBits (vui : H264VuiParams) : List Bool :=
  bits 5 1 ++ ((bits 32 vui.numUnitsInTick.toNat ++ (bits 32 vui.timeScale.toNat ++ bits 1 1)) ++
  (bits 1 1 ++ (hrdBits vui ++ (bits 1 0 ++ (bits 1 0 ++ (bits 1 0 ++ bits 1 0))))))

/-- The bits that only the high profiles have, without custom lists. -/
def highProfileBits (p : H264SequenceHeaderParams) : List Bool :=
  ueBits 1 ++ (ueBits 0 ++ (ueBits 0 ++ (bits 1 (if p.isLossless then 1 else 0) ++
    if p.useDefaultScalingList then bits 1 1 ++ bits 8 0 else bits 1 0)))

def cropBits (crop : H264CropParams) : List Bool :=
  if crop.clip then
    bits 1 1 ++ (ueBits crop.leftCropOffset.toNat ++ (ueBits crop.rightCropOffset.toNat ++
      (ueBits crop.topCropOffset.toNat ++ ueBits crop.bottomCropOffset.toNat)))
  else bits 1 0

/-- The bits of the sequence header behind the header of the unit. -/
def sequenceBits (p : H264SequenceHeaderParams) (crop : H264CropParams) : List Bool :=
  bits 8 (profileBytes p.profile p.level).1 ++ (bits 8 (profileBytes p.profile p.level).2 ++
  (bits 8 (if p.level = .level1B then 11 else p.level.value) ++ (ueBits 0 ++
  ((if p.profile = .hp ∨ p.profile = .h444p then highProfileBits p else []) ++
  (ueBits 1 ++ (ueBits 0 ++ (ueBits (p.log2MaxPicOrderCnt.toNat - 4) ++
  (ueBits p.maxNumRefFrames.toNat ++ (bits 1 p.gapsInFrameNumValue.toNat ++
  (ueBits p.widthInMbsMinus1.toNat ++ (ueBits p.heightInMapsUnitsMinus1.toNat ++
  (bits 1 p.frameMbsOnlyFlag.toNat ++ ((if p.frameMbsOnlyFlag = 0 then bits 1 0 else []) ++
  (bits 1 1 ++ (cropBits crop ++ (bits 1 p.vuiParamsPresent.toNat ++
  if 0 < p.vuiParamsPresent then vuiBits p.vuiParams else []))))))))))))))))

def pictureExtensionBits (p : H264PictureHeaderParams) : List Bool :=
  if p.transform8x8ModeFlag ≠ 0 ∨ p.secondChromaQpIndexOffset ≠ p.chromaQpIndexOffset ∨
      p.picScalingMatrixPresentFlag then
    bits 1 p.transform8x8ModeFlag.toNat ++ (bits 1 0 ++ seBits p.secondChromaQpIndexOffset.toInt)
  else []

/-- The bits of the picture header up to the token. -/
def pictureFirstBits (p : H264PictureHeaderParams) : List Bool :=
  ueBits p.picParameterSetId.toNat ++ (ueBits p.seqParameterSetId.toNat ++
  (bits 5 (p.entropyCodingModeFlag.toNat <<< 4 ||| 1 <<< 2 ||| 1 <<< 1 ||| 1) ++
  bits 3 (p.weightedPredFlag.toNat <<< 2 ||| p.weightedBipredIdc.toNat)))

/-- The bits of the picture header behind the token, without the extension. -/
def pictureSecondBits (p : H264PictureHeaderParams) : List Bool :=
  seBits 0 ++ (seBits p.chromaQpIndexOffset.toInt ++
    bits 3 (1 <<< 2 ||| p.constrainedIntraPredFlag.toNat <<< 1))

namespace MtxHeader.Holds

variable {qp : ℤ} {l : List Bool} {n : ℤ} {h : MtxHeader}

/-- The same bits, written another way. -/
theorem cast {l' : List Bool} (hh : h.Holds qp l n) (hl : l = l') : h.Holds qp l' n := hl ▸ hh

/-- Both branches of a condition. -/
theorem ite {c : Prop} [Decidable c] {h' : MtxHeader} {a b : List Bool}
    (hthen : c → h.Holds qp (l ++ a) n) (helse : ¬ c → h'.Holds qp (l ++ b) n) :
    (if c then h else h').Holds qp (l ++ if c then a else b) n := by
  by_cases hc : c
  · rw [if_pos hc, if_pos hc]
    exact hthen hc
  · rw [if_neg hc, if_neg hc]
    exact helse hc

section

variable (hh : h.Holds qp l n)
include hh

/-- A flag. -/
theorem writeBit (v : ℕ) : (h.writeUpto8bitsElements v 1).Holds qp (l ++ bits 1 v) n :=
  hh.writeUpto8bits v (by decide)

/-- An unsigned code of a byte. -/
theorem generateUe8 (v : UInt8) :
    (h.generateUe v.toNat).Holds qp (l ++ ueBits v.toNat) n :=
  hh.generateUe (Nat.lt_trans v.toNat_lt (by decide))

/-- An unsigned code of two bytes. -/
theorem generateUe16 (v : UInt16) :
    (h.generateUe v.toNat).Holds qp (l ++ ueBits v.toNat) n :=
  hh.generateUe (Nat.lt_trans v.toNat_lt (by decide))

/-- A signed code of a byte. -/
theorem generateSe8 (v : Int8) :
    (h.generateSe v.toInt).Holds qp (l ++ seBits v.toInt) n := by
  have hlow := v.le_toInt
  have hhigh := v.toInt_lt
  exact hh.generateSe (by omega) (by omega)

theorem write4 (v : ℕ) : (h.writeUpto8bitsElements v 4).Holds qp (l ++ bits 4 v) n :=
  hh.writeUpto8bits v (by decide)

theorem write5 (v : ℕ) : (h.writeUpto8bitsElements v 5).Holds qp (l ++ bits 5 v) n :=
  hh.writeUpto8bits v (by decide)

/-- The VUI parameters. -/
theorem vuiParams (vui : H264VuiParams) :
    (h.writebitsVuiParams vui).Holds qp (l ++ vuiBits vui) n := by
  have htiming := ((hh.write5 1).writeUpto32bits vui.numUnitsInTick.toNat).writeUpto32bits
    vui.timeScale.toNat
  have hfirst := ((htiming.writeBit 1).writeBit 1).writeBit 1
  have hscales := (hfirst.write4 0).write4 2
  have hschedule := ((hscales.generateUe vui.bitRateValueMinus1.toNat_lt).generateUe
    vui.cbpSizeValueMinus1.toNat_lt).writeBit vui.cbr.toNat
  have hlengths := (((hschedule.write5 vui.initialCpbRemovalDelayLengthMinus1.toNat).write5
    vui.cpbRemovalDelayLengthMinus1.toNat).write5 vui.dpbOutputDelayLengthMinus1.toNat).write5
    vui.timeOffsetLength.toNat
  have hall := (((hlengths.writeBit 0).writeBit 0).writeBit 0).writeBit 0
  refine hall.cast ?_
  simp [vuiBits, hrdBits]

/-- Without custom lists, a list of the high profiles is a default list or none. -/
theorem highProfile {p : H264SequenceHeaderParams} (scaling : Option H264ScalingMatrixParams)
    (hlists : p.useDefaultScalingList = true ∨ p.seqScalingMatrixPresentFlag = 0) :
    (h.writebitsHighProfile p scaling).Holds qp (l ++ highProfileBits p) n := by
  have hfirst := (((hh.generateUe (show 1 < 2 ^ 32 by decide)).generateUe
    (show 0 < 2 ^ 32 by decide)).generateUe (show 0 < 2 ^ 32 by decide)).writeBit
    (if p.isLossless then 1 else 0)
  unfold writebitsHighProfile highProfileBits
  by_cases hdefault : p.useDefaultScalingList = true
  · have hall := (hfirst.writeBit 1).writeUpto8bits 0 (Nat.le_refl 8)
    simp only [append_assoc] at hall
    simpa [hdefault] using hall
  · have hflag : p.seqScalingMatrixPresentFlag = 0 := hlists.resolve_left hdefault
    have hall := hfirst.writeBit 0
    simp only [append_assoc] at hall
    simpa [hdefault, hflag] using hall

/-- The cropping. -/
theorem crop (crop : H264CropParams) :
    (h.writebitsCrop crop).Holds qp (l ++ cropBits crop) n := by
  refine ite (fun _ => ?_) fun _ => hh.writeBit 0
  have hall := ((((hh.writeBit 1).generateUe16 crop.leftCropOffset).generateUe16
    crop.rightCropOffset).generateUe16 crop.topCropOffset).generateUe16 crop.bottomCropOffset
  simp only [append_assoc] at hall
  exact hall

/-- The extension of a picture parameter set. -/
theorem pictureExtension (p : H264PictureHeaderParams) :
    (h.writebitsPictureExtension p).Holds qp (l ++ pictureExtensionBits p) n := by
  refine ite (fun _ => ?_) fun _ => by simpa using hh
  have hall := ((hh.writeBit p.transform8x8ModeFlag.toNat).writeBit 0).generateSe8
    p.secondChromaQpIndexOffset
  simp only [append_assoc] at hall
  exact hall

end

end MtxHeader.Holds

/-- The start code and the header of a unit of a parameter set. -/
def unitHeaderBits (nalUnitType : ℕ) : List Bool := bits 32 1 ++ bits 8 (3 <<< 5 ||| nalUnitType)

/-- The header of a unit has five bytes. -/
theorem length_unitHeaderBits (nalUnitType : ℕ) : (unitHeaderBits nalUnitType).length = 40 := by
  simp [unitHeaderBits]

/-- Two bounds add up. -/
theorem length_append_le {a b : List Bool} {m n : ℕ} (ha : a.length ≤ m) (hb : b.length ≤ n) :
    (a ++ b).length ≤ m + n := by
  rw [length_append]
  exact Nat.add_le_add ha hb

/-- The VUI parameters are short. -/
theorem length_vuiBits_le (vui : H264VuiParams) : (vuiBits vui).length ≤ 300 := by
  have hrate := length_ueBits_le vui.bitRateValueMinus1.toNat_lt
  have hsize := length_ueBits_le vui.cbpSizeValueMinus1.toNat_lt
  simp only [vuiBits, hrdBits, length_append, length_bits]
  omega

/-- So is an unsigned code. -/
theorem length_ueBits8_le (v : UInt8) : (ueBits v.toNat).length ≤ 65 :=
  length_ueBits_le (Nat.lt_trans v.toNat_lt (by decide))

/-- So is one of two bytes. -/
theorem length_ueBits16_le (v : UInt16) : (ueBits v.toNat).length ≤ 65 :=
  length_ueBits_le (Nat.lt_trans v.toNat_lt (by decide))

/-- So is a signed code. -/
theorem length_seBits8_le (v : Int8) : (seBits v.toInt).length ≤ 65 := by
  have hlow := v.le_toInt
  have hhigh := v.toInt_lt
  refine length_ueBits_le ?_
  rw [seCodeNum]
  split <;> omega

/-- So are the chroma parameters. -/
theorem length_highProfileBits_le (p : H264SequenceHeaderParams) :
    (highProfileBits p).length ≤ 15 := by
  have hone : (ueBits 1).length = 3 := by decide
  have hzero : (ueBits 0).length = 1 := by decide
  simp only [highProfileBits, length_append, length_bits, hone, hzero]
  split <;> simp

/-- So is the cropping. -/
theorem length_cropBits_le (crop : H264CropParams) : (cropBits crop).length ≤ 261 := by
  have hleft := length_ueBits16_le crop.leftCropOffset
  have hright := length_ueBits16_le crop.rightCropOffset
  have htop := length_ueBits16_le crop.topCropOffset
  have hbottom := length_ueBits16_le crop.bottomCropOffset
  unfold cropBits
  split <;> simp only [length_append, length_bits] <;> omega

/-- A sequence parameter set fits. -/
theorem length_sequenceBits_le (p : H264SequenceHeaderParams) (crop : H264CropParams) :
    (sequenceBits p crop).length ≤ 1200 := by
  have hpoc : p.log2MaxPicOrderCnt.toNat - 4 < 2 ^ 32 := by
    have hlt := p.log2MaxPicOrderCnt.toNat_lt
    omega
  have hhigh : (if p.profile = .hp ∨ p.profile = .h444p then highProfileBits p else []).length ≤
      15 := by
    split
    · exact length_highProfileBits_le p
    · exact Nat.zero_le _
  have hfield : (if p.frameMbsOnlyFlag = 0 then bits 1 0 else []).length ≤ 1 := by
    split
    · exact Nat.le_refl 1
    · exact Nat.zero_le _
  have hvui : (if 0 < p.vuiParamsPresent then vuiBits p.vuiParams else []).length ≤ 300 := by
    split
    · exact length_vuiBits_le p.vuiParams
    · exact Nat.zero_le _
  have hone := length_ueBits_le (show 1 < 2 ^ 32 by decide)
  have hzero := length_ueBits_le (show 0 < 2 ^ 32 by decide)
  have hbit : ∀ v, (bits 1 v).length ≤ 1 := fun v => Nat.le_of_eq (length_bits 1 v)
  have hbyte : ∀ v, (bits 8 v).length ≤ 8 := fun v => Nat.le_of_eq (length_bits 8 v)
  have hend := length_append_le (hbit 1) (length_append_le (length_cropBits_le crop)
    (length_append_le (hbit p.vuiParamsPresent.toNat) hvui))
  have hframe := length_append_le (hbit p.frameMbsOnlyFlag.toNat) (length_append_le hfield hend)
  have hsize := length_append_le (hbit p.gapsInFrameNumValue.toNat) (length_append_le
    (length_ueBits8_le p.widthInMbsMinus1) (length_append_le
      (length_ueBits8_le p.heightInMapsUnitsMinus1) hframe))
  have hcounts := length_append_le hone (length_append_le hzero (length_append_le
    (length_ueBits_le hpoc) (length_append_le (length_ueBits8_le p.maxNumRefFrames) hsize)))
  have hall := length_append_le (hbyte (profileBytes p.profile p.level).1) (length_append_le
    (hbyte (profileBytes p.profile p.level).2) (length_append_le
      (hbyte (if p.level = .level1B then 11 else p.level.value)) (length_append_le hzero
        (length_append_le hhigh hcounts))))
  exact Nat.le_trans hall (by decide)

variable {p : H264SequenceHeaderParams} {v : UInt8} {h : MtxHeader}

/-- The bits of a sequence header. -/
theorem stream_sequenceHeader (hempty : h.elements = []) (p : H264SequenceHeaderParams)
    (crop : H264CropParams) (scaling : Option H264ScalingMatrixParams) (qp : ℤ)
    (hlists : p.useDefaultScalingList = true ∨ p.seqScalingMatrixPresentFlag = 0) :
    (h.writebitsSequenceHeader p crop scaling).stream qp =
      unitHeaderBits 7 ++ sequenceBits p crop ++
        rbspTrailingBits (unitHeaderBits 7 ++ sequenceBits p crop).length := by
  have hfirst : Holds qp [] 0 _ := Holds.startcode hempty
  have hunit := hfirst.startcodePrefix.writeUpto8bits (3 <<< 5 ||| 7) (Nat.le_refl 8)
  have hprofile := ((hunit.writeUpto8bits (profileBytes p.profile p.level).1
    (Nat.le_refl 8)).writeUpto8bits (profileBytes p.profile p.level).2 (Nat.le_refl 8)).writeUpto8bits
    (if p.level = .level1B then 11 else p.level.value) (Nat.le_refl 8)
  have hid := hprofile.generateUe (show 0 < 2 ^ 32 by decide)
  have hhigh := Holds.ite (c := p.profile = .hp ∨ p.profile = .h444p) (b := [])
    (fun _ => hid.highProfile scaling hlists) fun _ => by simpa using hid
  have hpoc : p.log2MaxPicOrderCnt.toNat - 4 < 2 ^ 32 := by
    have hlt := p.log2MaxPicOrderCnt.toNat_lt
    omega
  have hcounts := (((hhigh.generateUe (show 1 < 2 ^ 32 by decide)).generateUe
    (show 0 < 2 ^ 32 by decide)).generateUe hpoc).generateUe8 p.maxNumRefFrames
  have hsize := ((hcounts.writeBit p.gapsInFrameNumValue.toNat).generateUe8
    p.widthInMbsMinus1).generateUe8 p.heightInMapsUnitsMinus1
  have hframe := hsize.writeBit p.frameMbsOnlyFlag.toNat
  have hfield := Holds.ite (c := p.frameMbsOnlyFlag = 0) (b := [])
    (fun _ => hframe.writeBit 0) fun _ => by simpa using hframe
  have hcrop := (hfield.writeBit 1).crop crop
  have hpresent := hcrop.writeBit p.vuiParamsPresent.toNat
  have hvui := Holds.ite (c := 0 < p.vuiParamsPresent) (b := [])
    (fun _ => hpresent.vuiParams p.vuiParams) fun _ => by simpa using hpresent
  have hall : Holds qp (unitHeaderBits 7 ++ sequenceBits p crop) 0 _ := hvui.cast (by
    simp only [unitHeaderBits, sequenceBits, append_assoc, nil_append])
  have hlength := length_append_le (Nat.le_of_eq (length_unitHeaderBits 7))
    (length_sequenceBits_le p crop)
  exact hall.byteAlign (by omega)

/-- The bits before the quantizer fit. -/
theorem length_pictureFirstBits_le (p : H264PictureHeaderParams) :
    (pictureFirstBits p).length ≤ 138 :=
  length_append_le (length_ueBits8_le _) (length_append_le (length_ueBits8_le _)
    (length_append_le (Nat.le_of_eq (length_bits 5 _)) (Nat.le_of_eq (length_bits 3 _))))

/-- So do those behind it. -/
theorem length_pictureSecondBits_le (p : H264PictureHeaderParams) :
    (pictureSecondBits p).length ≤ 133 :=
  length_append_le (length_ueBits_le (by decide)) (length_append_le (length_seBits8_le _)
    (Nat.le_of_eq (length_bits 3 _)))

/-- So does the extension. -/
theorem length_pictureExtensionBits_le (p : H264PictureHeaderParams) :
    (pictureExtensionBits p).length ≤ 67 := by
  unfold pictureExtensionBits
  split
  · exact length_append_le (Nat.le_of_eq (length_bits 1 _)) (length_append_le
      (Nat.le_of_eq (length_bits 1 _)) (length_seBits8_le _))
  · exact Nat.zero_le _

/-- The bits of a picture header, in which the firmware has put a quantiser. -/
theorem stream_pictureHeader (hempty : h.elements = []) (p : H264PictureHeaderParams) (qp : ℤ) :
    (h.writebitsPictureHeader p).stream qp =
      unitHeaderBits 8 ++ (pictureFirstBits p ++ (seBits qp ++ (pictureSecondBits p ++
        pictureExtensionBits p))) ++
        rbspTrailingBits (unitHeaderBits 8 ++ (pictureFirstBits p ++ (seBits qp ++
          (pictureSecondBits p ++ pictureExtensionBits p)))).length := by
  have hstart : Holds qp [] 0 _ := Holds.startcode hempty
  have hunit := hstart.startcodePrefix.writeUpto8bits (3 <<< 5 ||| 8) (Nat.le_refl 8)
  have hids := (hunit.generateUe8 p.picParameterSetId).generateUe8 p.seqParameterSetId
  have hfirst : Holds qp (unitHeaderBits 8 ++ pictureFirstBits p) 0 _ :=
    ((hids.write5 (p.entropyCodingModeFlag.toNat <<< 4 ||| 1 <<< 2 ||| 1 <<< 1 ||| 1)).writeUpto8bits
      (p.weightedPredFlag.toNat <<< 2 ||| p.weightedBipredIdc.toNat)
      (show 3 ≤ 8 by decide)).cast (by
        simp only [unitHeaderBits, pictureFirstBits, append_assoc, nil_append])
  have hlength := length_append_le (Nat.le_of_eq (length_unitHeaderBits 8))
    (length_pictureFirstBits_le p)
  have hqp := hfirst.insertQp (by omega)
  have hsecond := ((hqp.generateSe (show -2 ^ 31 < (0 : ℤ) by decide) (by decide)).generateSe8
    p.chromaQpIndexOffset).writeUpto8bits (1 <<< 2 ||| p.constrainedIntraPredFlag.toNat <<< 1)
    (show 3 ≤ 8 by decide)
  have hall := (hsecond.pictureExtension p).cast (show _ = unitHeaderBits 8 ++ (pictureFirstBits p ++
      (seBits qp ++ (pictureSecondBits p ++ pictureExtensionBits p))) by
    simp [pictureSecondBits])
  refine hall.byteAlign ?_
  have hsecondLength := length_append_le (length_pictureSecondBits_le p)
    (length_pictureExtensionBits_le p)
  simp only [length_append] at hlength hsecondLength ⊢
  omega

/-! ### What a decoder reads -/

/-- The hypothetical decoder's parameters that are read from the VUI bits. -/
def decodedHrd (vui : H264VuiParams) : HrdParameters where
  bitRateScale := 0
  cpbSizeScale := 2
  schedules := [⟨vui.bitRateValueMinus1.toNat, vui.cbpSizeValueMinus1.toNat,
    vui.cbr.toNat.testBit 0⟩]
  initialCpbRemovalDelayLengthMinus1 :=
    BitVec.ofNat 5 vui.initialCpbRemovalDelayLengthMinus1.toNat
  cpbRemovalDelayLengthMinus1 := BitVec.ofNat 5 vui.cpbRemovalDelayLengthMinus1.toNat
  dpbOutputDelayLengthMinus1 := BitVec.ofNat 5 vui.dpbOutputDelayLengthMinus1.toNat
  timeOffsetLength := BitVec.ofNat 5 vui.timeOffsetLength.toNat

def decodedVui (vui : H264VuiParams) : VuiParameters where
  aspectRatio := none
  overscanAppropriateFlag := none
  videoSignalType := none
  chromaLocInfo := none
  timingInfo := some ⟨BitVec.ofNat 32 vui.numUnitsInTick.toNat,
    BitVec.ofNat 32 vui.timeScale.toNat, true⟩
  nalHrdParameters := some (decodedHrd vui)
  vclHrdParameters := none
  lowDelayHrdFlag := some false
  picStructPresentFlag := false
  bitstreamRestriction := none

/-- The VUI parameters read back. -/
theorem reads_vuiBits (vui : H264VuiParams) :
    Reads vuiParameters (vuiBits vui) (decodedVui vui) :=
  reads_vuiParameters (reads_timingInfo _ _) (reads_hrdParameters 0 2 _ _ _ _ _ _ _)

def decodedChroma (p : H264SequenceHeaderParams) : ChromaParameters where
  chromaFormatIdc := 1
  separateColourPlaneFlag := none
  bitDepthLumaMinus8 := 0
  bitDepthChromaMinus8 := 0
  qpprimeYZeroTransformBypassFlag := p.isLossless
  seqScalingMatrix := if p.useDefaultScalingList then some (List.replicate 8 none) else none

/-- A zero for each list, when none is there. -/
theorem reads_scalingLists_zeros (i n : ℕ) :
    Reads (scalingLists i n) (bits n 0) (List.replicate n none) := by
  induction n generalizing i with
  | zero => exact Reads.pure []
  | succ n ih =>
    have hread : Reads (scalingLists i (n + 1)) ([false] ++ ([] ++ bits n 0))
        (none :: List.replicate n none) :=
      (Reads.flag false).bind ((Reads.onlyIf_false _).bind ((ih (i + 1)).bind_pure _))
    rw [bits, Nat.zero_testBit]
    exact hread

/-- The chroma parameters read back. -/
theorem reads_chromaParameters (p : H264SequenceHeaderParams) :
    Reads chromaParameters (highProfileBits p) (decodedChroma p) := by
  have hlossless : Reads BitReader.flag (bits 1 (if p.isLossless then 1 else 0)) p.isLossless := by
    cases hcase : p.isLossless with
    | false => exact Reads.flag_bits 0
    | true => exact Reads.flag_bits 1
  have hmatrix : Reads (do
      let present ← BitReader.flag
      let lists ← BitReader.onlyIf present (scalingLists 0 8)
      pure (⟨1, none, 0, 0, p.isLossless, lists⟩ : ChromaParameters))
      (if p.useDefaultScalingList then bits 1 1 ++ bits 8 0 else bits 1 0) (decodedChroma p) := by
    unfold decodedChroma
    cases hdefault : p.useDefaultScalingList with
    | false => exact (Reads.flag_bits 0).bind ((Reads.onlyIf_false _).bind_pure _)
    | true =>
      exact (Reads.flag_bits 1).bind
        ((Reads.onlyIf_true (reads_scalingLists_zeros 0 8)).bind_pure _)
  unfold chromaParameters highProfileBits
  refine (Reads.ue 1).bind ((Reads.onlyIf_false _).bind (l := []) ?_)
  exact (Reads.ue 0).bind ((Reads.ue 0).bind (hlossless.bind hmatrix))

/-- The cropping that is read after its flag. -/
theorem reads_cropping (crop : H264CropParams) {rest : List Bool} {f : Option FrameCropping → BitReader α}
    {a : α} (h : Reads (f (if crop.clip then some ⟨crop.leftCropOffset.toNat,
      crop.rightCropOffset.toNat, crop.topCropOffset.toNat, crop.bottomCropOffset.toNat⟩ else none))
      rest a) :
    Reads (do
      let present ← BitReader.flag
      let cropping ← BitReader.onlyIf present frameCropping
      f cropping) (cropBits crop ++ rest) a := by
  unfold cropBits
  cases hclip : crop.clip with
  | false =>
    rw [hclip] at h
    exact (Reads.flag_bits 0).bind ((Reads.onlyIf_false _).bind (l := []) h)
  | true =>
    rw [hclip] at h
    rw [if_pos rfl, append_assoc]
    exact (Reads.flag_bits 1).bind ((Reads.onlyIf_true (reads_frameCropping _ _ _ _)).bind h)

def decodedSequence (p : H264SequenceHeaderParams) (crop : H264CropParams) : SeqParameterSet where
  profileIdc := BitVec.ofNat 8 (profileBytes p.profile p.level).1
  constraintSetFlags := BitVec.ofNat 6 ((profileBytes p.profile p.level).2 / 2 ^ 2)
  levelIdc := BitVec.ofNat 8 (if p.level = .level1B then 11 else p.level.value)
  seqParameterSetId := 0
  chroma := if p.profile = .hp ∨ p.profile = .h444p then some (decodedChroma p) else none
  log2MaxFrameNumMinus4 := 1
  picOrderCntType := 0
  log2MaxPicOrderCntLsbMinus4 := some (p.log2MaxPicOrderCnt.toNat - 4)
  picOrderCntCycle := none
  maxNumRefFrames := p.maxNumRefFrames.toNat
  gapsInFrameNumValueAllowedFlag := p.gapsInFrameNumValue.toNat.testBit 0
  picWidthInMbsMinus1 := p.widthInMbsMinus1.toNat
  picHeightInMapUnitsMinus1 := p.heightInMapsUnitsMinus1.toNat
  frameMbsOnlyFlag := p.frameMbsOnlyFlag.toNat.testBit 0
  mbAdaptiveFrameFieldFlag := if p.frameMbsOnlyFlag = 0 then some false else none
  direct8x8InferenceFlag := true
  frameCropping := if crop.clip then some ⟨crop.leftCropOffset.toNat, crop.rightCropOffset.toNat,
    crop.topCropOffset.toNat, crop.bottomCropOffset.toNat⟩ else none
  vui := if 0 < p.vuiParamsPresent then some (decodedVui p.vuiParams) else none

/-- They are read for the profiles that have them. -/
theorem reads_profile (p : H264SequenceHeaderParams) :
    Reads (BitReader.onlyIf
        (highProfiles.contains (BitVec.ofNat 8 (profileBytes p.profile p.level).1)) chromaParameters)
      (if p.profile = .hp ∨ p.profile = .h444p then highProfileBits p else [])
      (if p.profile = .hp ∨ p.profile = .h444p then some (decodedChroma p) else none) := by
  cases hprofile : p.profile with
  | bp => exact Reads.onlyIf_false _
  | mp => exact Reads.onlyIf_false _
  | hp => exact Reads.onlyIf_true (reads_chromaParameters p)
  | h444p => exact Reads.onlyIf_true (reads_chromaParameters p)

/-- A flag is zero or one. -/
theorem eq_zero_or_one (h : v ≤ 1) : v = 0 ∨ v = 1 := by
  have hle : v.toNat ≤ 1 := h
  have hcases : v.toNat = 0 ∨ v.toNat = 1 := by omega
  exact hcases.imp (fun h0 => UInt8.toNat_inj.mp h0) fun h1 => UInt8.toNat_inj.mp h1

/-- The flag of fields is read when it is there. -/
theorem reads_frameMbsOnly (h : p.frameMbsOnlyFlag ≤ 1) :
    Reads (BitReader.onlyIf (!p.frameMbsOnlyFlag.toNat.testBit 0) BitReader.flag)
      (if p.frameMbsOnlyFlag = 0 then bits 1 0 else [])
      (if p.frameMbsOnlyFlag = 0 then some false else none) := by
  rcases eq_zero_or_one h with hflag | hflag
  · rw [hflag]
    exact Reads.onlyIf_true (Reads.flag_bits 0)
  · rw [hflag]
    exact Reads.onlyIf_false _

/-- So are the VUI parameters. -/
theorem reads_vuiPresent (h : p.vuiParamsPresent ≤ 1) :
    Reads (BitReader.onlyIf (p.vuiParamsPresent.toNat.testBit 0) vuiParameters)
      (if 0 < p.vuiParamsPresent then vuiBits p.vuiParams else [])
      (if 0 < p.vuiParamsPresent then some (decodedVui p.vuiParams) else none) := by
  rcases eq_zero_or_one h with hflag | hflag
  · rw [hflag]
    exact Reads.onlyIf_false _
  · rw [hflag]
    exact Reads.onlyIf_true (reads_vuiBits p.vuiParams)

/-- The bits behind the header of the unit are read back. -/
theorem reads_sequence (crop : H264CropParams) (hframe : p.frameMbsOnlyFlag ≤ 1)
    (hvui : p.vuiParamsPresent ≤ 1) :
    Reads seqParameterSet (sequenceBits p crop) (decodedSequence p crop) := by
  have hconstraints : bits 8 (profileBytes p.profile p.level).2 =
      bits 6 ((profileBytes p.profile p.level).2 / 2 ^ 2) ++
        bits 2 (profileBytes p.profile p.level).2 := bits_add 6 2 _
  unfold seqParameterSet sequenceBits
  rw [hconstraints, append_assoc]
  refine (Reads.u 8 _).bind ((Reads.u 6 _).bind ((Reads.u 2 _).bind ((Reads.u 8 _).bind ?_)))
  refine (Reads.ue 0).bind ((reads_profile p).bind ?_)
  refine (Reads.ue 1).bind ((Reads.ue 0).bind ((Reads.onlyIf_true (Reads.ue _)).bind ?_))
  refine (Reads.onlyIf_false _).bind (l := []) ?_
  refine (Reads.ue _).bind ((Reads.flag_bits _).bind ((Reads.ue _).bind ((Reads.ue _).bind ?_)))
  refine (Reads.flag_bits _).bind ((reads_frameMbsOnly hframe).bind ?_)
  refine (Reads.flag_bits 1).bind (reads_cropping crop ?_)
  exact (Reads.flag_bits _).bind ((reads_vuiPresent hvui).bind_pure _)

/-- The header of a unit reads back. -/
theorem reads_unitHeader {nalUnitType : ℕ} (h : nalUnitType < 32) :
    Reads (nalUnitHeader (BitVec.ofNat 5 nalUnitType)) (unitHeaderBits nalUnitType) () := by
  have hbyte : bits 8 (3 <<< 5 ||| nalUnitType) = bits 1 0 ++ (bits 2 3 ++ bits 5 nalUnitType) := by
    revert nalUnitType
    decide
  rw [unitHeaderBits, hbyte]
  exact reads_nalUnitHeader 3 nalUnitType

/-- A unit whose payload is read in front of its trailing bits. -/
theorem decodeUnit_eq {nalUnitType : ℕ} {payload : BitReader α} {l : List Bool} {a : α}
    (htype : nalUnitType < 32)
    (hread : payload (l ++ rbspTrailingBits (unitHeaderBits nalUnitType ++ l).length) =
      some (a, rbspTrailingBits (unitHeaderBits nalUnitType ++ l).length)) :
    decodeUnit (BitVec.ofNat 5 nalUnitType) payload (unitHeaderBits nalUnitType ++ l ++
      rbspTrailingBits (unitHeaderBits nalUnitType ++ l).length) = some (a, []) := by
  have hlength : (unitHeaderBits nalUnitType ++ l ++
      rbspTrailingBits (unitHeaderBits nalUnitType ++ l).length).length % 8 = 0 := by
    rw [length_append]
    generalize (unitHeaderBits nalUnitType ++ l).length = n
    simp only [rbspTrailingBits, length_cons, length_replicate]
    omega
  rw [append_assoc] at hlength ⊢
  exact decodeUnit_of_reads hlength (reads_unitHeader htype) hread
    (rbspTrailing_eq (Nat.mod_lt _ (by decide)))

def decodedPicture (p : H264PictureHeaderParams) (qp : ℤ) : PicParameterSet where
  picParameterSetId := p.picParameterSetId.toNat
  seqParameterSetId := p.seqParameterSetId.toNat
  entropyCodingModeFlag := p.entropyCodingModeFlag.toNat.testBit 0
  picOrderPresentFlag := false
  sliceGroups := none
  numRefIdxL0ActiveMinus1 := 0
  numRefIdxL1ActiveMinus1 := 0
  weightedPredFlag := (p.weightedPredFlag.toNat <<< 2 ||| p.weightedBipredIdc.toNat).testBit 2
  weightedBipredIdc := BitVec.ofNat 2 (p.weightedPredFlag.toNat <<< 2 ||| p.weightedBipredIdc.toNat)
  picInitQpMinus26 := qp
  picInitQsMinus26 := 0
  chromaQpIndexOffset := p.chromaQpIndexOffset.toInt
  deblockingFilterControlPresentFlag := true
  constrainedIntraPredFlag := p.constrainedIntraPredFlag.toNat.testBit 0
  redundantPicCntPresentFlag := false

/-- A picture parameter set reads back. -/
theorem reads_picture (p : H264PictureHeaderParams) (qp : ℤ) :
    Reads picParameterSet (pictureFirstBits p ++ (seBits qp ++ pictureSecondBits p))
      (decodedPicture p qp) := by
  have hentropy : bits 5 (p.entropyCodingModeFlag.toNat <<< 4 ||| 1 <<< 2 ||| 1 <<< 1 ||| 1) =
      [p.entropyCodingModeFlag.toNat.testBit 0] ++ ([false] ++ (ueBits 0 ++ ([] ++ (ueBits 0 ++
        ueBits 0)))) := by
    have hhigh : (1 <<< 2).testBit 4 = false ∧ (1 <<< 1).testBit 4 = false ∧
        Nat.testBit 1 4 = false := by decide
    simp +decide only [bits, Nat.testBit_or, hhigh, Nat.testBit_shiftLeft, Bool.or_false]
    rfl
  have hweighted : bits 3 (p.weightedPredFlag.toNat <<< 2 ||| p.weightedBipredIdc.toNat) =
      [(p.weightedPredFlag.toNat <<< 2 ||| p.weightedBipredIdc.toNat).testBit 2] ++
        bits 2 (p.weightedPredFlag.toNat <<< 2 ||| p.weightedBipredIdc.toNat) := rfl
  have hintra : bits 3 (1 <<< 2 ||| p.constrainedIntraPredFlag.toNat <<< 1) =
      [true] ++ ([p.constrainedIntraPredFlag.toNat.testBit 0] ++ [false]) := by
    simp +decide [bits, Nat.testBit_or, Nat.testBit_shiftLeft]
  unfold picParameterSet pictureFirstBits pictureSecondBits
  rw [hentropy, hweighted, hintra]
  simp only [append_assoc]
  refine (Reads.ue _).bind ((Reads.ue _).bind ((Reads.flag _).bind ((Reads.flag _).bind ?_)))
  refine (Reads.ue 0).bind ((Reads.onlyIf_false _).bind ((Reads.ue 0).bind ((Reads.ue 0).bind ?_)))
  refine (Reads.flag _).bind ((Reads.u 2 _).bind ((Reads.se qp).bind ((Reads.se 0).bind ?_)))
  exact (Reads.se _).bind ((Reads.flag _).bind ((Reads.flag _).bind ((Reads.flag _).bind_pure _)))

def decodedExtension (p : H264PictureHeaderParams) : Option PicParameterSetExtension :=
  if p.transform8x8ModeFlag ≠ 0 ∨ p.secondChromaQpIndexOffset ≠ p.chromaQpIndexOffset ∨
      p.picScalingMatrixPresentFlag then
    some ⟨p.transform8x8ModeFlag.toNat.testBit 0, none, p.secondChromaQpIndexOffset.toInt⟩
  else none

/-- In front of the trailing bits there is more data exactly if the extension has been written. -/
theorem read_extension (p : H264PictureHeaderParams) (chromaFormatIdc n : ℕ) {f : Option
      PicParameterSetExtension → α} :
    (do
      let more ← moreRbspData
      let extension ← BitReader.onlyIf more (picParameterSetExtension chromaFormatIdc)
      pure (f extension) : BitReader α) (pictureExtensionBits p ++ rbspTrailingBits n) =
        some (f (decodedExtension p), rbspTrailingBits n) := by
  unfold pictureExtensionBits decodedExtension
  split
  · have hmore : moreRbspData ((bits 1 p.transform8x8ModeFlag.toNat ++ (bits 1 0 ++
        seBits p.secondChromaQpIndexOffset.toInt)) ++ rbspTrailingBits n) =
        some (true, (bits 1 p.transform8x8ModeFlag.toNat ++ (bits 1 0 ++
          seBits p.secondChromaQpIndexOffset.toInt)) ++ rbspTrailingBits n) := by
      refine congrArg some (Prod.ext ?_ rfl)
      simp [bits, rbspTrailingBits]
    rw [BitReader.bind_eq hmore]
    exact (Reads.onlyIf_true (reads_picParameterSetExtension chromaFormatIdc _ _)).bind_pure f _
  · have hmore : moreRbspData (rbspTrailingBits n) = some (false, rbspTrailingBits n) := by
      refine congrArg some (Prod.ext ?_ rfl)
      simp [rbspTrailingBits]
    rw [nil_append, BitReader.bind_eq hmore]
    rfl

/-! ### Decoding back -/

/-- The flags and numbers of the VUI parameters are the ones that were given. -/
structure VuiParameters.Matches (v : VuiParameters) (vui : H264VuiParams) : Prop where
  timing : ∃ t, v.timingInfo = some t ∧ t.numUnitsInTick.toNat = vui.numUnitsInTick.toNat ∧
    t.timeScale.toNat = vui.timeScale.toNat
  hrd : ∃ r c, v.nalHrdParameters = some r ∧ r.schedules = [c] ∧
    c.bitRateValueMinus1 = vui.bitRateValueMinus1.toNat ∧
    c.cpbSizeValueMinus1 = vui.cbpSizeValueMinus1.toNat ∧ c.cbrFlag.toNat = vui.cbr.toNat ∧
    r.initialCpbRemovalDelayLengthMinus1.toNat = vui.initialCpbRemovalDelayLengthMinus1.toNat ∧
    r.cpbRemovalDelayLengthMinus1.toNat = vui.cpbRemovalDelayLengthMinus1.toNat ∧
    r.dpbOutputDelayLengthMinus1.toNat = vui.dpbOutputDelayLengthMinus1.toNat ∧
    r.timeOffsetLength.toNat = vui.timeOffsetLength.toNat

/-- A sequence parameter set has the values of the parameter structures. What the syntax of the
profile does not have is not compared. -/
structure SeqParameterSet.Matches (s : SeqParameterSet) (p : H264SequenceHeaderParams)
    (crop : H264CropParams) : Prop where
  profile : s.profileIdc.toNat = match p.profile with
    | .bp => 66 | .mp => 77 | .hp => 100 | .h444p => 244
  level : s.level = p.level.value
  chroma : p.profile = .hp ∨ p.profile = .h444p → ∃ c, s.chroma = some c ∧
    c.qpprimeYZeroTransformBypassFlag = p.isLossless ∧
    c.seqScalingMatrix = if p.useDefaultScalingList then some (List.replicate 8 none) else none
  picOrderCnt : ∃ k, s.log2MaxPicOrderCntLsbMinus4 = some k ∧ k + 4 = p.log2MaxPicOrderCnt.toNat
  refFrames : s.maxNumRefFrames = p.maxNumRefFrames.toNat
  gaps : s.gapsInFrameNumValueAllowedFlag.toNat = p.gapsInFrameNumValue.toNat
  width : s.picWidthInMbsMinus1 = p.widthInMbsMinus1.toNat
  height : s.picHeightInMapUnitsMinus1 = p.heightInMapsUnitsMinus1.toNat
  frameMbsOnly : s.frameMbsOnlyFlag.toNat = p.frameMbsOnlyFlag.toNat
  cropping : s.frameCropping = if crop.clip then some ⟨crop.leftCropOffset.toNat,
    crop.rightCropOffset.toNat, crop.topCropOffset.toNat, crop.bottomCropOffset.toNat⟩ else none
  vuiPresent : s.vui.isSome.toNat = p.vuiParamsPresent.toNat
  vui : ∀ v, s.vui = some v → v.Matches p.vuiParams

/-- What a decoder takes for the extension when it is absent. -/
def PicParameterSet.transform8x8Mode (e : Option PicParameterSetExtension) : Bool :=
  (e.map (·.transform8x8ModeFlag)).getD false

def PicParameterSet.picScalingMatrixPresent (e : Option PicParameterSetExtension) : Bool :=
  (e.bind (·.picScalingMatrix)).isSome

def PicParameterSet.secondChromaOffset (s : PicParameterSet)
    (e : Option PicParameterSetExtension) : ℤ :=
  (e.map (·.secondChromaQpIndexOffset)).getD s.chromaQpIndexOffset

/-- A picture parameter set has the values of the parameter structure and the quantiser. -/
structure PicParameterSet.Matches (s : PicParameterSet) (e : Option PicParameterSetExtension)
    (p : H264PictureHeaderParams) (qp : ℤ) : Prop where
  picId : s.picParameterSetId = p.picParameterSetId.toNat
  seqId : s.seqParameterSetId = p.seqParameterSetId.toNat
  entropy : s.entropyCodingModeFlag.toNat = p.entropyCodingModeFlag.toNat
  weightedPred : s.weightedPredFlag.toNat = p.weightedPredFlag.toNat
  weightedBipred : s.weightedBipredIdc.toNat = p.weightedBipredIdc.toNat
  qp : s.picInitQpMinus26 = qp
  chromaOffset : s.chromaQpIndexOffset = p.chromaQpIndexOffset.toInt
  constrainedIntra : s.constrainedIntraPredFlag.toNat = p.constrainedIntraPredFlag.toNat
  transform : (transform8x8Mode e).toNat = p.transform8x8ModeFlag.toNat
  scalingMatrix : picScalingMatrixPresent e = p.picScalingMatrixPresentFlag
  secondChromaOffset : s.secondChromaOffset e = p.secondChromaQpIndexOffset.toInt

/-- A decoder reads the sequence header to its end and finds the values that were given. -/
def SequenceDecodes (h : MtxHeader) (p : H264SequenceHeaderParams) (crop : H264CropParams)
    (scaling : Option H264ScalingMatrixParams) (qp : ℤ) : Prop :=
  ∃ s, decodeUnit 7 seqParameterSet ((h.writebitsSequenceHeader p crop scaling).stream qp) =
    some (s, []) ∧ s.Matches p crop

/-- A decoder reads the picture header to its end and finds the values that were given. -/
def PictureDecodes (h : MtxHeader) (p : H264PictureHeaderParams) (chromaFormatIdc : ℕ) (qp : ℤ) :
    Prop :=
  ∃ s e, decodeUnit 8 (picParameterSetWithExtension chromaFormatIdc)
    ((h.writebitsPictureHeader p).stream qp) = some ((s, e), []) ∧ s.Matches e p qp

/-- The flags and the lengths of the VUI parameters fit into their syntax elements. -/
structure H264VuiParams.Fits (vui : H264VuiParams) : Prop where
  cbr : vui.cbr ≤ 1
  initialCpbRemovalDelay : vui.initialCpbRemovalDelayLengthMinus1 < 32
  cpbRemovalDelay : vui.cpbRemovalDelayLengthMinus1 < 32
  dpbOutputDelay : vui.dpbOutputDelayLengthMinus1 < 32
  timeOffset : vui.timeOffsetLength < 32

/-- The sequence parameters fit into their syntax elements, and level 1b is asked for with the
baseline and the main profile only. -/
structure H264SequenceHeaderParams.Fits (p : H264SequenceHeaderParams) : Prop where
  gaps : p.gapsInFrameNumValue ≤ 1
  frameMbsOnly : p.frameMbsOnlyFlag ≤ 1
  vuiPresent : p.vuiParamsPresent ≤ 1
  vui : p.vuiParamsPresent = 1 → p.vuiParams.Fits
  level : p.level = .level1B → p.profile = .bp ∨ p.profile = .mp

/-- The picture parameters fit into their syntax elements, and there is no scaling matrix. -/
structure H264PictureHeaderParams.Fits (p : H264PictureHeaderParams) : Prop where
  entropy : p.entropyCodingModeFlag ≤ 1
  weightedPred : p.weightedPredFlag ≤ 1
  weightedBipred : p.weightedBipredIdc < 4
  constrainedIntra : p.constrainedIntraPredFlag ≤ 1
  transform : p.transform8x8ModeFlag ≤ 1
  scalingMatrix : p.picScalingMatrixPresentFlag = false

/-- A flag is its bit. -/
theorem testBit_zero_toNat (h : v ≤ 1) : (v.toNat.testBit 0).toNat = v.toNat := by
  rcases eq_zero_or_one h with rfl | rfl <;> rfl

/-- A flag that is read is zero or one. -/
theorem le_one_of_toNat {b : Bool} (h : b.toNat = v.toNat) : v ≤ 1 := by
  have hle : b.toNat ≤ 1 := b.toNat_le
  rw [h] at hle
  exact hle

/-- Five bits hold small values. -/
theorem ofNat_toNat_of_lt (h : v < 32) : (BitVec.ofNat 5 v.toNat).toNat = v.toNat := by
  have hlt : v.toNat < 32 := h
  rw [BitVec.toNat_ofNat]
  exact Nat.mod_eq_of_lt hlt

/-- A value that is read fits. -/
theorem lt_of_toNat {w : ℕ} {x : BitVec w} (h : x.toNat = v.toNat) :
    v.toNat < 2 ^ w := h ▸ x.isLt

/-- Small VUI parameters come back. -/
theorem decodedVui_matches {vui : H264VuiParams} (h : vui.Fits) : (decodedVui vui).Matches vui := by
  have hword : ∀ v : UInt32, (BitVec.ofNat 32 v.toNat).toNat = v.toNat := by
    intro v
    rw [BitVec.toNat_ofNat]
    exact Nat.mod_eq_of_lt v.toNat_lt
  exact ⟨⟨_, rfl, hword _, hword _⟩, _, _, rfl, rfl, rfl, rfl, testBit_zero_toNat h.cbr,
    ofNat_toNat_of_lt h.initialCpbRemovalDelay, ofNat_toNat_of_lt h.cpbRemovalDelay,
    ofNat_toNat_of_lt h.dpbOutputDelay, ofNat_toNat_of_lt h.timeOffset⟩

/-- What comes back was small. -/
theorem VuiParameters.Matches.fits {v : VuiParameters} {vui : H264VuiParams} (h : v.Matches vui) :
    vui.Fits := by
  obtain ⟨r, c, -, -, -, -, hcbr, hinitial, hcpb, hdpb, hoffset⟩ := h.hrd
  exact ⟨le_one_of_toNat hcbr, lt_of_toNat hinitial, lt_of_toNat hcpb, lt_of_toNat hdpb,
    lt_of_toNat hoffset⟩

/-- The level that is read: 1.1 instead of 1b for the high profiles. -/
theorem level_decodedSequence (p : H264SequenceHeaderParams) (crop : H264CropParams) :
    (decodedSequence p crop).level =
      if p.level = .level1B ∧ (p.profile = .hp ∨ p.profile = .h444p) then 11
      else p.level.value := by
  have hall : ∀ (profile : ShProfile) (level : ShLevel),
      (if BitVec.ofNat 8 (profileBytes profile level).1 ∈ [66, 77, 88] ∧
          BitVec.ofNat 8 (if level = .level1B then 11 else level.value) = 11 ∧
          (BitVec.ofNat 6 ((profileBytes profile level).2 / 2 ^ 2)).getMsbD 3 then 9
        else (BitVec.ofNat 8 (if level = .level1B then 11 else level.value)).toNat) =
      if level = .level1B ∧ (profile = .hp ∨ profile = .h444p) then 11 else level.value := by
    intro profile level
    cases profile <;> cases level <;> decide
  exact hall p.profile p.level

/-- A sequence parameter set that fits comes back. -/
theorem decodedSequence_matches (crop : H264CropParams) (hpoc : 4 ≤ p.log2MaxPicOrderCnt)
    (h : p.Fits) : (decodedSequence p crop).Matches p crop where
  profile := by
    obtain ⟨profile⟩ := p
    cases profile <;> rfl
  level := by
    rw [level_decodedSequence, if_neg]
    rintro ⟨hlevel, hprofile⟩
    rcases h.level hlevel with hp | hp <;> rw [hp] at hprofile <;> simp at hprofile
  chroma := by
    intro hprofile
    exact ⟨decodedChroma p, if_pos hprofile, rfl, rfl⟩
  picOrderCnt := by
    have hle : 4 ≤ p.log2MaxPicOrderCnt.toNat := hpoc
    exact ⟨_, rfl, Nat.sub_add_cancel hle⟩
  refFrames := rfl
  gaps := testBit_zero_toNat h.gaps
  width := rfl
  height := rfl
  frameMbsOnly := testBit_zero_toNat h.frameMbsOnly
  cropping := rfl
  vuiPresent := by
    unfold decodedSequence
    rcases eq_zero_or_one h.vuiPresent with hflag | hflag <;> rw [hflag] <;> rfl
  vui := by
    intro v hv
    unfold decodedSequence at hv
    rcases eq_zero_or_one h.vuiPresent with hflag | hflag
    · simp [hflag] at hv
    · have hv' : decodedVui p.vuiParams = v := by simpa [hflag] using hv
      rw [← hv']
      exact decodedVui_matches (h.vui hflag)

/-- A sequence header decodes back exactly if its parameters fit. -/
theorem sequenceDecodes_iff (hempty : h.elements = []) (crop : H264CropParams)
    (scaling : Option H264ScalingMatrixParams) (qp : ℤ) (hpoc : 4 ≤ p.log2MaxPicOrderCnt)
    (hlists : p.useDefaultScalingList = true ∨ p.seqScalingMatrixPresentFlag = 0) :
    SequenceDecodes h p crop scaling qp ↔ p.Fits := by
  have hdecode (hframe : p.frameMbsOnlyFlag ≤ 1) (hvui : p.vuiParamsPresent ≤ 1) :
      decodeUnit 7 seqParameterSet ((h.writebitsSequenceHeader p crop scaling).stream qp) =
        some (decodedSequence p crop, []) := by
    rw [stream_sequenceHeader hempty p crop scaling qp hlists]
    exact decodeUnit_eq (by decide) (reads_sequence crop hframe hvui _)
  constructor
  · rintro ⟨s, hs, hmatches⟩
    -- the record has flags of one bit, so the flags that were given have one bit too
    have hframe := le_one_of_toNat hmatches.frameMbsOnly
    have hvui := le_one_of_toNat hmatches.vuiPresent
    have heq : decodedSequence p crop = s := by
      have hsame := (hdecode hframe hvui).symm.trans hs
      simpa using hsame
    subst heq
    refine ⟨le_one_of_toNat hmatches.gaps, hframe, hvui, fun hpresent => ?_, fun hlevel => ?_⟩
    · refine (hmatches.vui (decodedVui p.vuiParams) ?_).fits
      unfold decodedSequence
      rw [hpresent]
      rfl
    · have hread := hmatches.level
      rw [level_decodedSequence] at hread
      cases hprofile : p.profile with
      | bp => exact Or.inl rfl
      | mp => exact Or.inr rfl
      | hp => simp [hlevel, hprofile, ShLevel.value] at hread
      | h444p => simp [hlevel, hprofile, ShLevel.value] at hread
  · intro hfits
    exact ⟨_, hdecode hfits.frameMbsOnly hfits.vuiPresent, decodedSequence_matches crop hpoc hfits⟩

/-- The weights come back. -/
theorem weighted_fits {w b : UInt8} (hw : w ≤ 1) (hb : b < 4) :
    ((w.toNat <<< 2 ||| b.toNat).testBit 2).toNat = w.toNat ∧
      (BitVec.ofNat 2 (w.toNat <<< 2 ||| b.toNat)).toNat = b.toNat := by
  have hall : ∀ x < 2, ∀ y < 4, ((x <<< 2 ||| y).testBit 2).toNat = x ∧
      (BitVec.ofNat 2 (x <<< 2 ||| y)).toNat = y := by decide
  have hw' : w.toNat ≤ 1 := hw
  exact hall w.toNat (by omega) b.toNat hb

/-- A picture parameter set that fits comes back. -/
theorem decodedPicture_matches {p : H264PictureHeaderParams} (qp : ℤ) (h : p.Fits) :
    (decodedPicture p qp).Matches (decodedExtension p) p qp where
  picId := rfl
  seqId := rfl
  entropy := testBit_zero_toNat h.entropy
  weightedPred := (weighted_fits h.weightedPred h.weightedBipred).1
  weightedBipred := (weighted_fits h.weightedPred h.weightedBipred).2
  qp := rfl
  chromaOffset := rfl
  constrainedIntra := testBit_zero_toNat h.constrainedIntra
  transform := by
    unfold decodedExtension
    split
    · exact testBit_zero_toNat h.transform
    · rename_i hnone
      simp only [not_or, ne_eq, not_not] at hnone
      rw [hnone.1]
      rfl
  scalingMatrix := by
    rw [h.scalingMatrix]
    unfold decodedExtension
    split <;> rfl
  secondChromaOffset := by
    unfold decodedExtension
    split
    · rfl
    · rename_i hnone
      simp only [not_or, ne_eq, not_not] at hnone
      rw [hnone.2.1]
      rfl

/-- A picture header decodes back exactly if its parameters fit and it has no scaling matrix. -/
theorem pictureDecodes_iff (hempty : h.elements = []) (p : H264PictureHeaderParams)
    (chromaFormatIdc : ℕ) (qp : ℤ) : PictureDecodes h p chromaFormatIdc qp ↔ p.Fits := by
  have hdecode : decodeUnit 8 (picParameterSetWithExtension chromaFormatIdc)
      ((h.writebitsPictureHeader p).stream qp) =
        some ((decodedPicture p qp, decodedExtension p), []) := by
    rw [stream_pictureHeader hempty p qp]
    refine decodeUnit_eq (by decide) ?_
    generalize (unitHeaderBits 8 ++ (pictureFirstBits p ++ (seBits qp ++ (pictureSecondBits p ++
      pictureExtensionBits p)))).length = n
    have hmain := reads_picture p qp (pictureExtensionBits p ++ rbspTrailingBits n)
    simp only [append_assoc] at hmain ⊢
    rw [picParameterSetWithExtension, BitReader.bind_eq hmain]
    exact read_extension p chromaFormatIdc n
  constructor
  · rintro ⟨s, e, hs, hmatches⟩
    obtain ⟨rfl, rfl⟩ : decodedPicture p qp = s ∧ decodedExtension p = e := by
      have hsame := hdecode.symm.trans hs
      simpa using hsame
    refine ⟨le_one_of_toNat hmatches.entropy, le_one_of_toNat hmatches.weightedPred,
      lt_of_toNat hmatches.weightedBipred, le_one_of_toNat hmatches.constrainedIntra,
      le_one_of_toNat hmatches.transform, ?_⟩
    -- no matrix is ever read
    rw [← hmatches.scalingMatrix]
    unfold decodedExtension
    split <;> rfl
  · intro hfits
    exact ⟨_, _, hdecode, decodedPicture_matches qp hfits⟩

/-- The parameter sets decode back exactly if the parameters fit. -/
theorem parameter_sets_decode {h : MtxHeader} (hempty : h.elements = [])
    {p : H264SequenceHeaderParams} (crop : H264CropParams)
    (scaling : Option H264ScalingMatrixParams) (hpoc : 4 ≤ p.log2MaxPicOrderCnt)
    (hlists : p.useDefaultScalingList = true ∨ p.seqScalingMatrixPresentFlag = 0)
    (q : H264PictureHeaderParams) (chromaFormatIdc : ℕ) (qp : ℤ) :
    (SequenceDecodes h p crop scaling qp ↔ p.Fits) ∧
      (PictureDecodes h q chromaFormatIdc qp ↔ q.Fits) :=
  ⟨sequenceDecodes_iff hempty crop scaling qp hpoc hlists,
    pictureDecodes_iff hempty q chromaFormatIdc qp⟩

/-- A sequence in high profile with VUI parameters, as the driver asks for it. -/
def highSequence (level : ShLevel) : H264SequenceHeaderParams where
  profile := .hp
  level := level
  widthInMbsMinus1 := 79
  heightInMapsUnitsMinus1 := 44
  log2MaxPicOrderCnt := 6
  maxNumRefFrames := 1
  gapsInFrameNumValue := 0
  frameMbsOnlyFlag := 1
  vuiParamsPresent := 1
  seqScalingMatrixPresentFlag := 0
  useDefaultScalingList := true
  isLossless := false
  vuiParams := ⟨30, 1, 15624, 93749, 1, 23, 23, 7, 24⟩

/-- A picture with CABAC and the 8x8 transform. -/
def cabacPicture (scalingMatrix : Bool) : H264PictureHeaderParams where
  picParameterSetId := 0
  seqParameterSetId := 0
  entropyCodingModeFlag := 1
  weightedPredFlag := 0
  weightedBipredIdc := 2
  chromaQpIndexOffset := 0
  constrainedIntraPredFlag := 0
  transform8x8ModeFlag := 1
  picScalingMatrixPresentFlag := scalingMatrix
  secondChromaQpIndexOffset := -2

theorem parameter_sets_decode_level31 :
    SequenceDecodes ⟨[], fun _ _ => 0xA5⟩ (highSequence .level31) ⟨true, 0, 0, 0, 4⟩ none (-3) ∧
      PictureDecodes ⟨[], fun _ _ => 0xA5⟩ (cabacPicture false) 1 (-3) := by
  have hboth := @parameter_sets_decode ⟨[], fun _ _ => 0xA5⟩ rfl (highSequence .level31)
    ⟨true, 0, 0, 0, 4⟩ none (by decide) (Or.inl rfl) (cabacPicture false) 1 (-3)
  refine ⟨hboth.1.mpr ⟨by decide, by decide, by decide, fun _ => ?_, by decide⟩, hboth.2.mpr ?_⟩
  · exact ⟨by decide, by decide, by decide, by decide, by decide⟩
  · exact ⟨by decide, by decide, by decide, by decide, by decide, rfl⟩

/-- A picture that has a scaling matrix is said to have none, and level 1b in high profile becomes
level 1.1. -/
theorem scaling_matrix_flag_lost :
    ¬ PictureDecodes ⟨[], fun _ _ => 0⟩ (cabacPicture true) 1 0 ∧
      ¬ SequenceDecodes ⟨[], fun _ _ => 0⟩ (highSequence .level1B) ⟨false, 0, 0, 0, 0⟩ none 0 := by
  constructor
  · intro hdecodes
    have hfits := (pictureDecodes_iff rfl (cabacPicture true) 1 0).mp hdecodes
    exact absurd hfits.scalingMatrix (by decide)
  · intro hdecodes
    have hfits := (sequenceDecodes_iff rfl ⟨false, 0, 0, 0, 0⟩ none 0
      (show 4 ≤ (highSequence .level1B).log2MaxPicOrderCnt by decide) (Or.inl rfl)).mp hdecodes
    exact absurd (hfits.level rfl) (by decide)

end HardwareIntel.Topaz
