import HardwareIntel.Topaz.HeaderTemplates

/-!
# Which templates fit

The templates of sequences always fit. One of a slice does not when its type, its view and interlacing
ask for more than 16 elements: no template of the base view does fit, and none of B slices. The SEI
messages fit as long as there are few coded picture buffers and few timestamps.
-/

namespace HardwareIntel.Topaz

open List TngCall

/-- What the driver prepares. There is one number of coded picture buffers for both parts of a
buffering period. -/
inductive Template
  | slice (a : SliceTemplate)
  | sequence (a : SequenceTemplate)
  | mvcSequence (a : SequenceTemplate)
  | bufferingPeriod (a : BufferingPeriod)
  | pictureTiming (a : PictureTiming)

/-- The calls that are made in a number of rounds of each loop. -/
def Template.calls (rounds : ℕ) : Template → List TngCall
  | slice a => a.calls
  | sequence a => a.calls
  | mvcSequence a => a.mvcCalls
  | bufferingPeriod a => { a with vclCpbCntMinus1 := a.nalCpbCntMinus1 }.calls rounds
  | pictureTiming a => a.calls

def Template.Fits (t : Template) : Prop := ∀ rounds, tng.Fits (t.calls rounds)

/-- The TopazHP driver does not check. -/
theorem unchecked_tng : tng.Unchecked := ⟨coded_tng, rfl, rfl⟩

section Calls

variable {v n : ℕ}

@[simp] theorem size_writeUpto8bitsElements : (writeUpto8bitsElements v n).size = n :=
  HeaderWrite.size_upto8bits v n

@[simp] theorem size_generateUe : (generateUe v).size = (HeaderWrite.ue v).size := rfl

@[simp] theorem size_writeUpto32bitsElements :
    (writeUpto32bitsElements v n).size = if n = 0 then 8 else n := by
  split
  · rename_i hn
    subst hn
    exact HeaderWrite.size_upto32bits_zero v
  · exact HeaderWrite.size_upto32bits v (by omega)

@[simp] theorem shortWrite_writeUpto8bitsElements :
    HeaderCall.ShortWrite (writeUpto8bitsElements v n) ↔ n ≤ 8 := Iff.rfl

@[simp] theorem shortWrite_writeUpto32bitsElements :
    HeaderCall.ShortWrite (writeUpto32bitsElements v n) := trivial

@[simp] theorem shortWrite_generateUe : HeaderCall.ShortWrite (generateUe v) := trivial

@[simp] theorem shortWrite_generateSe (v : ℤ) : HeaderCall.ShortWrite (generateSe v) := trivial

/-- The code of a byte has at most 17 bits. -/
theorem size_ue8 (v : UInt8) : (HeaderWrite.ue v.toNat).size ≤ 17 :=
  HeaderWrite.size_ue_le (k := 8) v.toNat_lt (by decide)

/-- The code of two bytes has at most 33. -/
theorem size_ue16 (v : UInt16) : (HeaderWrite.ue v.toNat).size ≤ 33 :=
  HeaderWrite.size_ue_le (k := 16) v.toNat_lt (by decide)

/-- The code of a word has at most 65. -/
theorem size_ue32 (v : UInt32) : (HeaderWrite.ue v.toNat).size ≤ 65 :=
  HeaderWrite.size_ue_le (k := 32) v.toNat_lt le_rfl

end Calls

/-! ### Slices -/

namespace SliceTemplate

/-- The slices whose headers fit. -/
def Small (a : SliceTemplate) : Prop :=
  a.mvcViewIdx ≠ mvcBaseViewIdx ∧ a.templateType ≠ .interB ∧ (a.isInterlaced = true →
    if a.mvcViewIdx = nonMvcView then a.templateType = .intra ∨ a.isLongTermRef = true
    else a.templateType = .intra ∨ a.templateType = .idr)

/-- The calls before the deblocking parameters end in an element of raw data without bits; `few` says
whether there are no more than 16 elements. -/
abbrev FrontShape (front : List TngCall) (few : Prop) : Prop :=
  front.head? = some (.token .startcodeRawdata) ∧ tng.Proper true front.tail ∧
    ((Shape.first true).run tng front.tail).raw = true ∧
    ((Shape.first true).run tng front.tail).size = 0 ∧
    ((Shape.first true).run tng front.tail).address ≤ 240 ∧
    (((Shape.first true).run tng front.tail).before < maxNumberElements ↔ few)

/-- The deblocking offsets of zero are short. -/
theorem deblocking_size (p : H264SliceHeaderParams) (halpha : p.debAlphaOffsetDiv2 = 0)
    (hbeta : p.debBetaOffsetDiv2 = 0) :
    0 < callsSize (deblockingCalls p) ∧ callsSize (deblockingCalls p) ≤ 19 := by
  have hle := size_ue8 p.disableDeblockingFilterIdc
  have hpos : 0 < (HeaderWrite.ue p.disableDeblockingFilterIdc.toNat).size := by
    rw [HeaderWrite.size_ue (p.disableDeblockingFilterIdc.toNat_lt.trans (by decide))]
    omega
  have hse : (generateSe 0).size = 1 := rfl
  rw [deblockingCalls, callsSize_cons, size_generateUe, halpha, hbeta]
  split
  · rw [callsSize_cons, callsSize_cons, callsSize_nil, hse]
    omega
  · rw [callsSize_nil]
    omega

/-- They are short writes. -/
theorem deblocking_writes (p : H264SliceHeaderParams) : ∀ c ∈ deblockingCalls p, c.ShortWrite := by
  rw [deblockingCalls]
  split <;> simp

/-- When a slice header of this front fits. -/
theorem fits_front {front : List TngCall} {few : Prop} (hfront : FrontShape front few)
    (p : H264SliceHeaderParams) (halpha : p.debAlphaOffsetDiv2 = 0) (hbeta : p.debBetaOffsetDiv2 = 0) :
    tng.Fits (front ++ deblockingCalls p) ↔ few := by
  obtain ⟨hhead, hproper, hraw, hzero, haddress, hfew⟩ := hfront
  obtain ⟨hpos, hle⟩ := deblocking_size p halpha hbeta
  have hwrites := deblocking_writes p
  have hcons : front ++ deblockingCalls p =
      .token .startcodeRawdata :: (front.tail ++ deblockingCalls p) := by
    cases front with
    | nil => nomatch hhead
    | cons c front => rw [Option.some.inj hhead, tail_cons, cons_append]
  have hvalid : ((Shape.first true).run tng front.tail).Valid :=
    ⟨hzero ▸ Nat.zero_le _, fun _ => hzero⟩
  have hrun : (Shape.first true).run tng (front.tail ++ deblockingCalls p) =
      { (Shape.first true).run tng front.tail with size := callsSize (deblockingCalls p) } := by
    rw [Shape.run_append, hvalid.run_writes hraw hwrites, Shape.write_of_le (by omega), hzero,
      Nat.zero_add]
  have hfits := @fits_iff_shape _ tng .startcodeRawdata
    (front.tail ++ deblockingCalls p) unchecked_tng
    (Shape.proper_append (s := Shape.first true) hproper (hraw.symm ▸ proper_of_shortWrites hwrites))
  change ((Shape.first true).run tng _).raw = true → 0 < ((Shape.first true).run tng _).size →
    (_ ↔ ((Shape.first true).run tng _).before < _ ∧ ((Shape.first true).run tng _).reach ≤ _)
    at hfits
  rw [hrun] at hfits
  rw [hcons, hfits hraw hpos, ← hfew, Shape.reach, elementStreamSize]
  dsimp only
  omega

/-- The fronts of slice headers. -/
theorem sliceHeaderFront_shape : ∀ (t : FrameTemplateType)
    (isInterlaced cabacEnabled isLongTermRef : Bool),
    FrontShape (sliceHeaderFront (sliceframeType t) 4 false isInterlaced cabacEnabled (t ≠ .interB)
      isLongTermRef)
      (t ≠ .interB ∧ (isInterlaced = true → t = .intra ∨ isLongTermRef = true)) := by
  decide

/-- The prefix of the base view leaves too little room. -/
theorem sliceHeaderFront_mvc_shape : ∀ (t : FrameTemplateType)
    (isInterlaced cabacEnabled isLongTermRef : Bool),
    FrontShape (sliceHeaderFront (sliceframeType t) 4 true isInterlaced cabacEnabled (t ≠ .interB)
      isLongTermRef) False := by
  decide

/-- The fronts of extension slice headers. -/
theorem extensionSliceheaderFront_shape : ∀ (t : FrameTemplateType) (isInterlaced cabacEnabled : Bool),
    FrontShape (extensionSliceheaderFront (sliceframeType t) 4 isInterlaced cabacEnabled (isIdr t))
      (t ≠ .interB ∧ (isInterlaced = true → t = .intra ∨ t = .idr)) := by
  decide

/-- A slice header fits exactly if it is small. -/
theorem fits_iff (a : SliceTemplate) : tng.Fits a.calls ↔ a.Small := by
  have hview : a.params.mvcViewIdx = a.mvcViewIdx := rfl
  rw [calls, notforsimsWritebitsSliceHeader, Small, hview]
  by_cases hbase : a.mvcViewIdx = mvcBaseViewIdx
  · have hmvc : decide (mvcBaseViewIdx ≠ nonMvcView) = true := rfl
    have hfront := sliceHeaderFront_mvc_shape a.templateType a.isInterlaced a.cabacEnabled
      a.isLongTermRef
    rw [if_pos (.inr hbase), hbase, hmvc]
    exact (fits_front hfront a.params rfl rfl).trans (iff_of_false id fun hsmall => hsmall.1 rfl)
  · by_cases hnon : a.mvcViewIdx = nonMvcView
    · have hmvc : decide (nonMvcView ≠ nonMvcView) = false := rfl
      have hfront := sliceHeaderFront_shape a.templateType a.isInterlaced a.cabacEnabled
        a.isLongTermRef
      rw [if_pos (.inl hnon), if_pos hnon, and_iff_right hbase, hnon, hmvc]
      exact fits_front hfront a.params rfl rfl
    · have hfront := extensionSliceheaderFront_shape a.templateType a.isInterlaced a.cabacEnabled
      rw [if_neg (by rintro (h | h); exacts [hnon h, hbase h]), if_neg hnon, and_iff_right hbase]
      exact fits_front hfront a.params rfl rfl

end SliceTemplate

/-! ### Sequences -/

namespace SequenceTemplate

variable (a : SequenceTemplate)

/-- Calls that begin and end in raw data, with bounds on their tokens and bits. -/
structure Room (calls : List TngCall) (tokens size : ℕ) : Prop where
  keeps : tng.Keeps calls
  tokens_le : tokenCount calls ≤ tokens
  size_le : callsSize calls ≤ size

namespace Room

variable {x y : List TngCall} {t t' n n' : ℕ}

/-- Room for both parts. -/
theorem append (hx : Room x t n) (hy : Room y t' n') : Room (x ++ y) (t + t') (n + n') := by
  refine ⟨hx.keeps.append hy.keeps, ?_, ?_⟩
  · rw [tokenCount_append]
    exact Nat.add_le_add hx.tokens_le hy.tokens_le
  · rw [callsSize_append]
    exact Nat.add_le_add hx.size_le hy.size_le

/-- Room for either branch. -/
theorem ite {c : Prop} [Decidable c] (hx : Room x t n) (hy : Room y t n) :
    Room (if c then x else y) t n := by
  split
  · exact hx
  · exact hy

/-- More room. -/
theorem mono (hx : Room x t n) (ht : t ≤ t') (hn : n ≤ n') : Room x t' n' :=
  ⟨hx.keeps, hx.tokens_le.trans ht, hx.size_le.trans hn⟩

/-- No calls need no room. -/
theorem nil : Room [] t n := ⟨.nil, Nat.zero_le _, Nat.zero_le _⟩

/-- Calls that write bits only. -/
theorem of_writes (hcalls : ∀ c ∈ x, c.ShortWrite) (hsize : callsSize x ≤ n) : Room x 0 n := by
  refine ⟨.of_shortWrites hcalls, ?_, hsize⟩
  rw [tokenCount, countP_eq_zero.mpr]
  intro c hc
  cases c with
  | token type => exact (hcalls _ hc).elim
  | write w => exact Bool.false_ne_true

end Room

/-- A flag needs its bits. -/
theorem flag_room (v n : ℕ) (hn : n ≤ 8) : Room [writeUpto8bitsElements v n] 0 n :=
  .of_writes (by simp [hn]) (by simp)

/-- The start code needs 32 bits. -/
theorem startcodePrefixElement_room : Room (startcodePrefixElement 4) 0 32 :=
  .of_writes (by simp [startcodePrefixElement]) (by decide)

/-- The profile needs 16 bits. -/
theorem profileCalls_room : Room a.profileCalls 0 16 := by
  refine .ite ?_ (.ite ?_ (.ite ?_ (.ite ?_ .nil)))
  all_goals
    exact .of_writes (by simp) (by simp)

/-- The scaling lists need their tokens. -/
theorem scalingCalls_room (present : Bool) {lists : List TngCall} {t : ℕ}
    (hlists : Room (lists ++ [insertElementToken .rawdata]) t 0) :
    Room (a.scalingCalls present lists) t 9 := by
  have hflag : ∀ v, Room [writeUpto8bitsElements v 1] 0 1 := fun v => flag_room v 1 (by decide)
  have hdefault : Room [writeUpto8bitsElements 0 8] 0 8 := flag_room 0 8 le_rfl
  refine .ite ?_ ((hflag 0).mono (Nat.zero_le t) (by decide))
  have hrest : Room (if a.defaultScalingList then [writeUpto8bitsElements 0 8]
      else lists ++ [insertElementToken .rawdata]) t 8 :=
    .ite (hdefault.mono (Nat.zero_le t) le_rfl) (hlists.mono le_rfl (Nat.zero_le 8))
  have happend := (hflag 1).append hrest
  rwa [Nat.zero_add] at happend

/-- So do the parameters of high profiles. -/
theorem highProfileCalls_room (present : Bool) {lists : List TngCall} {t : ℕ}
    (hlists : Room (lists ++ [insertElementToken .rawdata]) t 0) :
    Room (a.highProfileCalls present lists) t 15 := by
  have hfirst : Room [generateUe 1, generateUe 0, generateUe 0,
      writeUpto8bitsElements (if a.enableLossless then 1 else 0) 1] 0 6 := by
    refine .of_writes (by simp) ?_
    have hone : (HeaderWrite.ue 1).size = 3 := rfl
    have hzero : (HeaderWrite.ue 0).size = 1 := rfl
    simp [hone, hzero]
  have happend := hfirst.append (a.scalingCalls_room present hlists)
  rwa [Nat.zero_add] at happend

/-- The room for a picture. -/
theorem pictureCalls_room : Room a.pictureCalls 0 62 := by
  have hframes := size_ue8 a.maxNumRefFrames
  have hwidth := size_ue8 a.widthInMbsMinus1
  have hheight := size_ue8 a.heightInMapsUnitsMinus1
  have hzero : (HeaderWrite.ue 0).size = 1 := rfl
  have hone : (HeaderWrite.ue 1).size = 3 := rfl
  have htwo : (HeaderWrite.ue 2).size = 3 := rfl
  have hfirst : Room [generateUe 1, generateUe 0, generateUe 2, generateUe a.maxNumRefFrames.toNat,
      writeUpto8bitsElements 0 1, generateUe a.widthInMbsMinus1.toNat,
      generateUe a.heightInMapsUnitsMinus1.toNat,
      writeUpto8bitsElements (if a.frameMbsOnlyFlag then 1 else 0) 1] 0 60 := by
    refine .of_writes (by simp) ?_
    simp only [callsSize_cons, callsSize_nil, size_generateUe, size_writeUpto8bitsElements, hzero,
      hone, htwo]
    omega
  have hfield : Room (if a.frameMbsOnlyFlag then [] else [writeUpto8bitsElements 0 1]) 0 1 :=
    .ite .nil (flag_room 0 1 (by decide))
  have hlast : Room [writeUpto8bitsElements 1 1] 0 1 := flag_room 1 1 (by decide)
  exact (hfirst.append hfield).append hlast

/-- The room for the cropping. -/
theorem cropCalls_room : Room a.cropCalls 0 133 := by
  have hleft := size_ue16 a.cropParams.leftCropOffset
  have hright := size_ue16 a.cropParams.rightCropOffset
  have htop := size_ue16 a.cropParams.topCropOffset
  have hbottom := size_ue16 a.cropParams.bottomCropOffset
  refine .ite (.of_writes (by simp) ?_)
    (.of_writes (by simp) (by decide))
  simp only [callsSize_cons, callsSize_nil, size_generateUe, size_writeUpto8bitsElements]
  omega

/-- The room for the VUI parameters. -/
theorem vuiCalls_room (vui : H264VuiParams) : Room (vuiCalls vui) 0 235 := by
  have hrate := size_ue32 vui.bitRateValueMinus1
  have hsize := size_ue32 vui.cbpSizeValueMinus1
  refine .of_writes
    (by simp [vuiCalls]) ?_
  simp only [vuiCalls, callsSize_cons, callsSize_nil, size_generateUe, size_writeUpto8bitsElements,
    size_writeUpto32bitsElements, OfNat.ofNat_ne_zero, if_false]
  omega

/-- The room for the extension. -/
theorem mvcExtensionCalls_room : Room a.mvcExtensionCalls 0 40 := by
  refine .of_writes (by simp [mvcExtensionCalls]) ?_
  have hzero : (HeaderWrite.ue 0).size = 1 := rfl
  have hone : (HeaderWrite.ue 1).size = 3 := rfl
  simp [mvcExtensionCalls, hzero, hone]

/-- The room for the level. -/
theorem levelCalls_room (first : ℕ) (hfirst : (HeaderWrite.ue first).size ≤ 3) :
    Room [writeUpto8bitsElements a.levelByte.toNat 8, generateUe first] 0 11 := by
  refine .of_writes (by simp) ?_
  simp only [callsSize_cons, callsSize_nil, size_generateUe, size_writeUpto8bitsElements]
  omega

/-- A header that is aligned at its end. -/
theorem fits_of_room {x : List TngCall} {t n : ℕ} (hx : Room x t n) (hfew : 120 * (t + 1) + n < 1440)
    (hbits : n < 800) :
    tng.Fits (.token .startcodeRawdata :: (x ++ [insertElementToken .insertbytealignH264])) := by
  have htokens := hx.tokens_le
  have hsize := hx.size_le
  have hend : tokenCount [insertElementToken .insertbytealignH264] = 1 := rfl
  have hzero : callsSize [insertElementToken .insertbytealignH264] = 0 := rfl
  refine fits_of_few unchecked_tng (hx.keeps.proper _ trivial) ?_ ?_
  · rw [tokenCount_append, callsSize_append, hend, hzero]
    omega
  · rw [callsSize_append, hzero]
    omega

/-- The header of a sequence always fits. -/
theorem fits_calls : tng.Fits a.calls := by
  have hlists : Room ([insertElementToken .customQuant] ++ [insertElementToken .rawdata]) 2 0 :=
    ⟨⟨fun rest hrest => hrest⟩, le_rfl, le_rfl⟩
  have hhigh : Room (if a.profile = 2 ∨ a.profile = 3 then
      a.highProfileCalls (a.customQuantMask ≠ 0 ∧ ¬a.ppsScaling) [insertElementToken .customQuant]
      else []) 2 15 := .ite (a.highProfileCalls_room _ hlists) .nil
  have hvui : Room (if 0 < a.vuiFlag.toUInt8 then vuiCalls a.vuiParams else []) 0 235 :=
    .ite (vuiCalls_room _) .nil
  have hall := (((((((startcodePrefixElement_room.append (flag_room (3 <<< 5 ||| 7) 8 le_rfl)).append
    a.profileCalls_room).append (a.levelCalls_room 0 (by decide))).append hhigh).append
    a.pictureCalls_room).append a.cropCalls_room).append
    (flag_room a.vuiFlag.toUInt8.toNat 1 (by decide))).append hvui
  exact fits_of_room hall (by decide) (by decide)

/-- The header of the sequence of a dependent view always fits. -/
theorem fits_mvcCalls : tng.Fits a.mvcCalls := by
  have hlists : Room ([] ++ [insertElementToken .rawdata]) 1 0 :=
    ⟨⟨fun rest hrest => hrest⟩, le_rfl, le_rfl⟩
  have hfirst := (((startcodePrefixElement_room.append
    (flag_room (3 <<< 5 ||| 15) 8 le_rfl)).append (flag_room 118 8 le_rfl)).append
    (flag_room 0 8 le_rfl)).append (a.levelCalls_room 1 (by decide))
  have hall := (((((hfirst.append (a.highProfileCalls_room
    (¬a.ppsScaling ∧ a.customQuantMask.toUInt8 ≠ 0) hlists)).append a.pictureCalls_room).append
    a.cropCalls_room).append (flag_room 0 1 (by decide)))).append a.mvcExtensionCalls_room
  exact fits_of_room hall (by decide) (by decide)

end SequenceTemplate

/-! ### SEI messages -/

section Sei

variable {s : Shape}

/-- The bytes of an element with `n` bits behind those of the full ones before it. -/
def groupBytes (n : ℕ) : ℕ := 20 * ((n - 1) / 120) + ((n - 120 * ((n - 1) / 120) + 39) / 32 + 1) * 4

/-- A token of raw data and the bits behind it. -/
theorem token_write (s : Shape) (n : ℕ) :
    ((s.token true).write n).before = s.before + 1 + (n - 1) / 120 ∧
      ((s.token true).write n).stop = s.stop + groupBytes n := by
  have hstop : ((s.token true).write n).stop = ((s.token true).write n).address +
      ((((s.token true).write n).size + 39) / 32 + 1) * 4 := rfl
  rw [hstop, groupBytes, Shape.write, Shape.token]
  rw [Nat.zero_add]
  exact ⟨rfl, Nat.add_assoc _ _ _⟩

/-- The header of an SEI message and more bits behind it. -/
theorem seiHeader_run (payloadType n : ℕ) (payloadSizeBits : UInt8) (calls : List TngCall)
    (hcalls : ∀ c ∈ calls, c.ShortWrite) (hn : callsSize calls = n) (hle : n ≤ 72) :
    ∃ tail, seiHeaderCalls payloadType payloadSizeBits ++ calls = .token .startcodeRawdata :: tail ∧
      tng.Keeps tail ∧ (Shape.first true).run tng tail = ⟨0, 0, true, 48 + n⟩ := by
  have hheader : ∀ c ∈ (seiHeaderCalls payloadType payloadSizeBits).tail, c.ShortWrite := by
    simp [seiHeaderCalls, startcodePrefixElement]
  have hall := forall_mem_append.mpr ⟨hheader, hcalls⟩
  have hsize : callsSize ((seiHeaderCalls payloadType payloadSizeBits).tail ++ calls) = 48 + n := by
    rw [callsSize_append, hn]
    simp [seiHeaderCalls, startcodePrefixElement]
  refine ⟨_, rfl, .of_shortWrites hall, ?_⟩
  have hzero : (Shape.first true).size + (48 + n) ≤ 120 := by
    change 0 + (48 + n) ≤ 120
    omega
  refine ((Shape.valid_first true).run_writes rfl hall).trans ?_
  rw [hsize, Shape.write_of_le hzero, Shape.first, Nat.zero_add]

/-- The end of a message needs two elements. -/
theorem seiEnd_run (s : Shape) : s.run tng seiEndCalls = ⟨s.before + 2, s.stop + 4, true, 8⟩ := by
  change ((s.token false).token true).write (writeUpto8bitsElements 0x80 8).size = _
  rw [size_writeUpto8bitsElements, Shape.write_of_le (show 0 + 8 ≤ 120 by decide)]
  rfl

/-- It is proper behind anything. -/
theorem seiEnd_proper (raw : Bool) : tng.Proper raw seiEndCalls := ⟨rfl, by decide, trivial⟩

/-- A message fits if there is room for its end. -/
theorem sei_fits_iff {tail : List TngCall} (hproper : tng.Proper true tail) :
    tng.Fits (.token .startcodeRawdata :: (tail ++ seiEndCalls)) ↔
      ((Shape.first true).run tng tail).before ≤ 13 ∧
        ((Shape.first true).run tng tail).stop ≤ 238 := by
  have hrun : (Shape.first true).run tng (tail ++ seiEndCalls) =
      ⟨((Shape.first true).run tng tail).before + 2, ((Shape.first true).run tng tail).stop + 4,
        true, 8⟩ := by
    rw [Shape.run_append, seiEnd_run]
  have hfits := @fits_iff_shape _ tng .startcodeRawdata
    (tail ++ seiEndCalls) unchecked_tng
    (Shape.proper_append (s := Shape.first true) hproper (seiEnd_proper _))
  change ((Shape.first true).run tng _).raw = true → 0 < ((Shape.first true).run tng _).size →
    (_ ↔ ((Shape.first true).run tng _).before < _ ∧ ((Shape.first true).run tng _).reach ≤ _)
    at hfits
  rw [hrun] at hfits
  rw [hfits rfl (show 0 < 8 by decide), Shape.reach, maxNumberElements, elementStreamSize]
  dsimp only
  omega

end Sei

namespace PictureTiming

variable (a : PictureTiming)

/-- The bits of the time of a timestamp. -/
def timeSize : ℕ :=
  if a.fullTimestampFlag ≠ 0 then 17
  else if a.secondsFlag = 0 then 1
  else if a.minutesFlag = 0 then 8
  else if a.hoursFlag = 0 then 15
  else 20

/-- The bits of a timestamp. -/
def timestampSize (i : ℕ) : ℕ :=
  if a.clockTimestampFlag i ≠ 0 then 20 + a.timeSize + a.timeOffsetLength.toNat else 1

/-- The bits from `pic_struct` on. -/
def picStructSize : ℕ := 4 + ((List.range a.numClockTs.toNat).map a.timestampSize).sum

/-- The messages that fit. -/
def Small : Prop :=
  a.picStructPresentFlag ≠ 0 →
    a.picStructSize ≤ if a.cpbDpbDelaysPresentFlag ≠ 0 then 1288 else 1320

/-- The time is written in short writes. -/
theorem timeCalls_short : ∀ c ∈ a.timeCalls, c.ShortWrite := by
  rw [timeCalls]
  repeat' split
  all_goals simp

/-- They have its size. -/
theorem timeCalls_size : callsSize a.timeCalls = a.timeSize := by
  rw [timeCalls, timeSize]
  repeat' split
  all_goals simp_all

/-- So is a time stamp. -/
theorem timestampCalls_short (i : ℕ) : ∀ c ∈ a.timestampCalls i, c.ShortWrite := by
  have htime := a.timeCalls_short
  rw [timestampCalls]
  split
  · refine forall_mem_cons.mpr ⟨show (1 : ℕ) ≤ 8 by decide, ?_⟩
    refine forall_mem_append.mpr ⟨?_, ?_⟩
    · refine forall_mem_append.mpr ⟨?_, htime⟩
      simp
    · split <;> simp
  · simp

/-- It has its size. -/
theorem timestampCalls_size (i : ℕ) : callsSize (a.timestampCalls i) = a.timestampSize i := by
  rw [timestampCalls, timestampSize, callsSize_cons, size_writeUpto8bitsElements]
  split
  · have hoffset : callsSize (if 0 < a.timeOffsetLength then
        [writeUpto32bitsElements a.timeOffsetBits.toNat a.timeOffsetLength.toNat] else []) =
        a.timeOffsetLength.toNat := by
      split
      · rename_i hpos
        have hne : a.timeOffsetLength.toNat ≠ 0 := Nat.ne_of_gt (UInt8.lt_iff_toNat_lt.mp hpos)
        rw [callsSize_cons, size_writeUpto32bitsElements, if_neg hne, callsSize_nil]
        rfl
      · rename_i hpos
        have hzero : a.timeOffsetLength.toNat = 0 :=
          Nat.eq_zero_of_not_pos fun h => hpos (UInt8.lt_iff_toNat_lt.mpr h)
        rw [hzero, callsSize_nil]
    rw [callsSize_append, callsSize_append, hoffset, timeCalls_size]
    simp
    omega
  · simp

/-- The calls behind the token that `pic_struct` begins with. -/
def picStructTail : List TngCall :=
  writeUpto8bitsElements a.picStruct.toNat 4 ::
    (List.range a.numClockTs.toNat).flatMap a.timestampCalls

/-- So is what follows the picture structure. -/
theorem picStructTail_short : ∀ c ∈ a.picStructTail, c.ShortWrite := by
  refine forall_mem_cons.mpr ⟨show (4 : ℕ) ≤ 8 by decide, fun c hc => ?_⟩
  obtain ⟨i, -, hi⟩ := mem_flatMap.mp hc
  exact a.timestampCalls_short i c hi

/-- It has its size. -/
theorem picStructTail_size : callsSize a.picStructTail = a.picStructSize := by
  have hflat : ∀ l : List ℕ, callsSize (l.flatMap a.timestampCalls) = (l.map a.timestampSize).sum := by
    intro l
    induction l with
    | nil => rfl
    | cons i l ih =>
      rw [flatMap_cons, callsSize_append, a.timestampCalls_size, ih, map_cons, sum_cons]
  rw [picStructTail, callsSize_cons, size_writeUpto8bitsElements, hflat, picStructSize]

/-- The delays need two elements. -/
theorem delayCalls_run (s : Shape) :
    (s.run tng a.delayCalls).before = s.before + (if a.cpbDpbDelaysPresentFlag ≠ 0 then 2 else 0) ∧
      (s.run tng a.delayCalls).stop = s.stop + if a.cpbDpbDelaysPresentFlag ≠ 0 then 8 else 0 := by
  rw [delayCalls]
  split
  · exact ⟨rfl, rfl⟩
  · exact ⟨rfl, rfl⟩

/-- They are proper. -/
theorem delayCalls_proper (rest : List TngCall) (hrest : ∀ raw, tng.Proper raw rest) :
    tng.Proper true (a.delayCalls ++ rest) := by
  rw [delayCalls]
  split
  · exact hrest false
  · exact hrest true

/-- So is the picture structure. -/
theorem picStructCalls_proper (raw : Bool) : tng.Proper raw a.picStructCalls := by
  rw [picStructCalls]
  split
  · exact proper_of_shortWrites a.picStructTail_short
  · trivial

/-- A picture timing message fits exactly if it is small. -/
theorem fits_iff : tng.Fits a.calls ↔ a.Small := by
  obtain ⟨tail, htail, hkeeps, hrun⟩ :=
    seiHeader_run 1 0 a.payloadSizeBits [] (by simp) rfl (by decide)
  have hcalls : a.calls =
      .token .startcodeRawdata :: (tail ++ (a.delayCalls ++ a.picStructCalls) ++ seiEndCalls) := by
    rw [append_nil] at htail
    rw [calls, htail, cons_append, cons_append, cons_append, append_assoc tail]
  have hproper : tng.Proper true (tail ++ (a.delayCalls ++ a.picStructCalls)) :=
    hkeeps.proper _ (a.delayCalls_proper _ a.picStructCalls_proper)
  obtain ⟨hbefore, hstop⟩ := a.delayCalls_run ⟨0, 0, true, 48⟩
  have hstop' : (⟨0, 0, true, 48⟩ : Shape).stop = 12 := rfl
  rw [hcalls, sei_fits_iff hproper, Shape.run_append, hrun, Shape.run_append, picStructCalls, Small]
  split
  · rename_i hpresent
    rw [forall_prop_of_true hpresent]
    have htoken : Shape.run tng (Shape.run tng ⟨0, 0, true, 48⟩ a.delayCalls)
        (.token .startcodeRawdata :: a.picStructTail) =
        ((Shape.run tng ⟨0, 0, true, 48⟩ a.delayCalls).token true).write a.picStructSize := by
      rw [← a.picStructTail_size]
      exact Shape.Valid.run_writes (.token true) rfl a.picStructTail_short
    obtain ⟨hbefore', hstop''⟩ := token_write (Shape.run tng ⟨0, 0, true, 48⟩ a.delayCalls)
      a.picStructSize
    rw [← htoken, hbefore] at hbefore'
    rw [← htoken, hstop, hstop', groupBytes] at hstop''
    change (Shape.run tng (Shape.run tng ⟨0, 0, true, 48⟩ a.delayCalls)
      (.token .startcodeRawdata :: a.picStructTail)).before ≤ 13 ∧
      (Shape.run tng (Shape.run tng ⟨0, 0, true, 48⟩ a.delayCalls)
        (.token .startcodeRawdata :: a.picStructTail)).stop ≤ 238 ↔ _
    rw [hbefore', hstop'']
    dsimp only
    split <;> omega
  · rename_i hpresent
    refine iff_of_true ⟨?_, ?_⟩ fun h => absurd h hpresent
    · rw [Shape.run, foldl_nil, hbefore]
      dsimp only
      split <;> omega
    · rw [Shape.run, foldl_nil, hstop, hstop']
      split <;> omega

end PictureTiming

namespace BufferingPeriod

variable (a : BufferingPeriod)

/-- The bits of a pair of delays. A length of zero is taken for that of a byte. -/
def vclSize : ℕ :=
  if a.nalInitialCpbRemovalDelayLength.toNat = 0 then 16
  else 2 * a.nalInitialCpbRemovalDelayLength.toNat

/-- The messages that fit: few coded picture buffers, and few bits for each. -/
def Small : Prop :=
  (if a.nalHrdBpPresentFlag ≠ 0 then (a.nalCpbCntMinus1.toNat + 1) * 2 else 0) +
      (if a.vclHrdBpPresentFlag ≠ 0 then
        (a.vclCpbCntMinus1.toNat + 1) * (1 + (a.vclSize - 1) / 120) else 0) ≤ 13 ∧
    12 + (if a.nalHrdBpPresentFlag ≠ 0 then (a.nalCpbCntMinus1.toNat + 1) * 8 else 0) +
      (if a.vclHrdBpPresentFlag ≠ 0 then (a.vclCpbCntMinus1.toNat + 1) * groupBytes a.vclSize else 0) ≤
      238

/-- The loops end. -/
def Ends : Prop :=
  (a.nalHrdBpPresentFlag ≠ 0 → a.nalCpbCntMinus1.toNat < 255) ∧
    (a.vclHrdBpPresentFlag ≠ 0 → a.vclCpbCntMinus1.toNat < 255)

/-- Small counts end the loops. -/
theorem Small.ends {a : BufferingPeriod} (h : a.Small) : a.Ends := by
  obtain ⟨hcount, -⟩ := h
  refine ⟨fun hpresent => ?_, fun hpresent => ?_⟩
  · rw [if_pos hpresent] at hcount
    omega
  · have hle := Nat.le_mul_of_pos_right (a.vclCpbCntMinus1.toNat + 1)
      (show 0 < 1 + (a.vclSize - 1) / 120 by omega)
    rw [if_pos hpresent] at hcount
    omega

section Loops

variable {cpbCntMinus1 : UInt8} {body rest : List TngCall}

/-- The loop is so many rounds. -/
theorem schedSelLoop_eq (hcnt : cpbCntMinus1.toNat < 255) {rounds : ℕ} {schedSelIdx : UInt8}
    (hidx : schedSelIdx.toNat ≤ cpbCntMinus1.toNat + 1)
    (hrounds : cpbCntMinus1.toNat + 1 - schedSelIdx.toNat < rounds) :
    schedSelLoop cpbCntMinus1 body rest rounds schedSelIdx =
      (List.replicate (cpbCntMinus1.toNat + 1 - schedSelIdx.toNat) body).flatten ++ rest := by
  induction rounds generalizing schedSelIdx with
  | zero => exact absurd hrounds (Nat.not_lt_zero _)
  | succ rounds ih =>
    rw [schedSelLoop]
    split
    · rename_i hle
      have hle' : schedSelIdx.toNat ≤ cpbCntMinus1.toNat := UInt8.le_iff_toNat_le.mp hle
      have hnext : (schedSelIdx + 1).toNat = schedSelIdx.toNat + 1 := by
        exact Nat.mod_eq_of_lt (by change schedSelIdx.toNat + 1 < 256; omega)
      rw [ih (by omega) (by omega), hnext,
        show cpbCntMinus1.toNat + 1 - schedSelIdx.toNat =
          (cpbCntMinus1.toNat + 1 - (schedSelIdx.toNat + 1)) + 1 by omega,
        replicate_succ, flatten_cons, append_assoc]
    · rename_i hgt
      have hgt' : ¬schedSelIdx.toNat ≤ cpbCntMinus1.toNat := fun h => hgt (UInt8.le_iff_toNat_le.mpr h)
      rw [show cpbCntMinus1.toNat + 1 - schedSelIdx.toNat = 0 by omega]
      rfl

/-- Fewer rounds are the beginning of more. -/
theorem schedSelLoop_prefix {rest' : List TngCall} (hrest : rest <+: rest') {rounds rounds' : ℕ}
    (hle : rounds ≤ rounds') (schedSelIdx : UInt8) :
    schedSelLoop cpbCntMinus1 body rest rounds schedSelIdx <+:
      schedSelLoop cpbCntMinus1 body rest' rounds' schedSelIdx := by
  induction rounds generalizing rounds' schedSelIdx with
  | zero => exact nil_prefix
  | succ rounds ih =>
    obtain ⟨rounds', rfl⟩ := Nat.exists_eq_succ_of_ne_zero (show rounds' ≠ 0 by omega)
    rw [schedSelLoop, schedSelLoop]
    split
    · exact (prefix_append_right_inj body).mpr (ih (Nat.le_of_succ_le_succ hle) _)
    · exact hrest

/-- A loop up to the last byte does not end. -/
theorem schedSelLoop_forever (hcnt : ¬cpbCntMinus1.toNat < 255) (rounds : ℕ) (schedSelIdx : UInt8) :
    schedSelLoop cpbCntMinus1 body rest rounds schedSelIdx = (List.replicate rounds body).flatten := by
  induction rounds generalizing schedSelIdx with
  | zero => rfl
  | succ rounds ih =>
    have hle : schedSelIdx ≤ cpbCntMinus1 := by
      have hlt := schedSelIdx.toNat_lt
      exact UInt8.le_iff_toNat_le.mpr (by omega)
    rw [schedSelLoop, if_pos hle, ih, replicate_succ, flatten_cons]

/-- More rounds only add calls. -/
theorem calls_prefix {rounds rounds' : ℕ} (hle : rounds ≤ rounds') :
    a.calls rounds <+: a.calls rounds' := by
  have hvcl : a.vclLoop rounds <+: a.vclLoop rounds' := by
    rw [vclLoop, vclLoop]
    split
    · exact schedSelLoop_prefix (prefix_rfl) hle _
    · exact prefix_rfl
  refine (prefix_append_right_inj _).mpr ?_
  split
  · exact schedSelLoop_prefix hvcl hle _
  · exact hvcl

end Loops

/-- The calls of the rounds of a loop. -/
def roundCalls (flag : UInt8) (n : ℕ) (body : List TngCall) : List TngCall :=
  if flag ≠ 0 then (List.replicate n body).flatten else []

/-- A loop that ends, as one list of calls. -/
theorem loop_of_ends {flag cpbCntMinus1 : UInt8} (hends : flag ≠ 0 → cpbCntMinus1.toNat < 255)
    {rounds : ℕ} (hrounds : 256 ≤ rounds) (body rest : List TngCall) :
    (if flag ≠ 0 then schedSelLoop cpbCntMinus1 body rest rounds 0 else rest) =
      roundCalls flag (cpbCntMinus1.toNat + 1) body ++ rest := by
  rw [roundCalls]
  split
  · rename_i hpresent
    have hcnt := hends hpresent
    rw [schedSelLoop_eq hcnt (Nat.zero_le _) (show cpbCntMinus1.toNat + 1 - 0 < rounds by omega)]
    rfl
  · rfl

/-- The calls of a message whose loops end. -/
theorem calls_of_ends (hends : a.Ends) {rounds : ℕ} (hrounds : 256 ≤ rounds) :
    a.calls rounds = seiHeaderCalls 0 a.payloadSizeBits ++ [generateUe 0] ++
      (roundCalls a.nalHrdBpPresentFlag (a.nalCpbCntMinus1.toNat + 1) nalCalls ++
        (roundCalls a.vclHrdBpPresentFlag (a.vclCpbCntMinus1.toNat + 1) a.vclCalls ++
          seiEndCalls)) := by
  rw [calls, vclLoop, loop_of_ends hends.2 hrounds, loop_of_ends hends.1 hrounds]

variable {body : List TngCall}

/-- Rounds that each need the same room. -/
theorem replicate_run {d e : ℕ}
    (hbody : ∀ s, (Shape.run tng s body).before = s.before + d ∧ (Shape.run tng s body).stop = s.stop + e)
    (n : ℕ) (s : Shape) :
    (Shape.run tng s (List.replicate n body).flatten).before = s.before + n * d ∧
      (Shape.run tng s (List.replicate n body).flatten).stop = s.stop + n * e := by
  induction n generalizing s with
  | zero =>
    rw [Nat.zero_mul, Nat.zero_mul]
    exact ⟨rfl, rfl⟩
  | succ n ih =>
    obtain ⟨hbefore, hstop⟩ := hbody s
    obtain ⟨hbefore', hstop'⟩ := ih (Shape.run tng s body)
    rw [replicate_succ, flatten_cons, Shape.run_append, hbefore', hstop', hbefore, hstop,
      Nat.succ_mul, Nat.succ_mul]
    omega

/-- The room for several rounds. -/
theorem roundCalls_run {d e : ℕ}
    (hbody : ∀ s, (Shape.run tng s body).before = s.before + d ∧ (Shape.run tng s body).stop = s.stop + e)
    (flag : UInt8) (n : ℕ) (s : Shape) :
    (Shape.run tng s (roundCalls flag n body)).before = s.before + (if flag ≠ 0 then n * d else 0) ∧
      (Shape.run tng s (roundCalls flag n body)).stop = s.stop + if flag ≠ 0 then n * e else 0 := by
  rw [roundCalls]
  split
  · exact replicate_run hbody n s
  · exact ⟨rfl, rfl⟩

/-- The room for a round of the first kind. -/
theorem nalCalls_run (s : Shape) :
    (s.run tng nalCalls).before = s.before + 2 ∧ (s.run tng nalCalls).stop = s.stop + 8 := ⟨rfl, rfl⟩

/-- The room for a round of the second kind. -/
theorem vclCalls_run (s : Shape) :
    (s.run tng a.vclCalls).before = s.before + (1 + (a.vclSize - 1) / 120) ∧
      (s.run tng a.vclCalls).stop = s.stop + groupBytes a.vclSize := by
  have hshort : ∀ c ∈ a.vclCalls.tail, c.ShortWrite := by
    simp [vclCalls]
  have hsize : callsSize a.vclCalls.tail = a.vclSize := by
    rw [vclCalls, vclSize, tail_cons, callsSize_cons, callsSize_cons, callsSize_nil,
      size_writeUpto32bitsElements, size_writeUpto32bitsElements]
    split <;> omega
  obtain ⟨hbefore, hstop⟩ := token_write s a.vclSize
  rw [← hsize, ← @Shape.Valid.run_writes _ tng _ _ (.token true) rfl hshort, hsize] at hbefore hstop
  exact ⟨hbefore.trans (Nat.add_assoc _ _ _), hstop⟩

/-- Calls that can follow any others. -/
theorem roundCalls_proper (hbody : ∀ raw, tng.Proper raw body) (flag : UInt8) (n : ℕ) (raw : Bool) :
    tng.Proper raw (roundCalls flag n body) := by
  rw [roundCalls]
  split
  · induction n generalizing raw with
    | zero => trivial
    | succ n ih =>
      exact Shape.proper_append (s := Shape.first raw) (hbody raw) (ih _)
  · trivial

/-- The second kind is proper. -/
theorem vclCalls_proper (raw : Bool) : tng.Proper raw a.vclCalls :=
  ⟨rfl, trivial, rfl, trivial, trivial⟩

/-- So is the first. -/
theorem nalCalls_proper (raw : Bool) : tng.Proper raw nalCalls := trivial

/-- A loop that does not end leaves the array of pointers. -/
theorem not_fits_of_loop {tail after : List TngCall} {d e : ℕ} (hd : 0 < d)
    (hproper : tng.Proper true (tail ++ ((List.replicate 256 body).flatten ++ after)))
    (hbody : ∀ s, (Shape.run tng s body).before = s.before + d ∧ (Shape.run tng s body).stop = s.stop + e)
    :
    ¬tng.Fits (.token .startcodeRawdata :: (tail ++ ((List.replicate 256 body).flatten ++ after))) := by
  intro hfits
  have hshape := (hfits.shape unchecked_tng hproper).1
  change ((Shape.first true).run tng (tail ++ _)).before < maxNumberElements at hshape
  rw [Shape.run_append, Shape.run_append] at hshape
  have hrun := (replicate_run hbody 256 ((Shape.first true).run tng tail)).1
  have hle := Shape.before_le_run tng after
    (s := ((Shape.first true).run tng tail).run tng (List.replicate 256 body).flatten)
  rw [maxNumberElements] at hshape
  omega

/-- A buffering period message fits, however long one waits for its loops, exactly if it is small. -/
theorem fits_iff : (∀ rounds, tng.Fits (a.calls rounds)) ↔ a.Small := by
  obtain ⟨tail, htail, hkeeps, hrun⟩ := seiHeader_run 0 1 a.payloadSizeBits [generateUe 0]
    (by simp) rfl (by decide)
  have hstop : (⟨0, 0, true, 49⟩ : Shape).stop = 12 := rfl
  by_cases hends : a.Ends
  · have hproper : tng.Proper true (tail ++
        (roundCalls a.nalHrdBpPresentFlag (a.nalCpbCntMinus1.toNat + 1) nalCalls ++
          roundCalls a.vclHrdBpPresentFlag (a.vclCpbCntMinus1.toNat + 1) a.vclCalls)) :=
      hkeeps.proper _ (Shape.proper_append (s := Shape.first true)
        (roundCalls_proper nalCalls_proper _ _ _) (roundCalls_proper a.vclCalls_proper _ _ _))
    have hall : (∀ rounds, tng.Fits (a.calls rounds)) ↔ tng.Fits (a.calls 256) := by
      refine ⟨fun h => h 256, fun h rounds => ?_⟩
      rcases Nat.le_total rounds 256 with hle | hle
      · obtain ⟨after, hafter⟩ := a.calls_prefix hle
        exact Host.Fits.of_append (hafter ▸ h)
      · rw [a.calls_of_ends hends hle, ← a.calls_of_ends hends le_rfl]
        exact h
    obtain ⟨hbefore₁, hstop₁⟩ := roundCalls_run nalCalls_run a.nalHrdBpPresentFlag
      (a.nalCpbCntMinus1.toNat + 1) ⟨0, 0, true, 49⟩
    obtain ⟨hbefore₂, hstop₂⟩ := roundCalls_run a.vclCalls_run a.vclHrdBpPresentFlag
      (a.vclCpbCntMinus1.toNat + 1) (Shape.run tng ⟨0, 0, true, 49⟩
        (roundCalls a.nalHrdBpPresentFlag (a.nalCpbCntMinus1.toNat + 1) nalCalls))
    have hcalls : a.calls 256 = .token .startcodeRawdata :: (tail ++
        (roundCalls a.nalHrdBpPresentFlag (a.nalCpbCntMinus1.toNat + 1) nalCalls ++
          roundCalls a.vclHrdBpPresentFlag (a.vclCpbCntMinus1.toNat + 1) a.vclCalls) ++
        seiEndCalls) := by
      rw [a.calls_of_ends hends le_rfl, htail, cons_append, append_assoc, append_assoc]
    rw [hall, hcalls, sei_fits_iff hproper, Shape.run_append, hrun, Shape.run_append, hbefore₂, hstop₂,
      hbefore₁, hstop₁, hstop, Small, Nat.zero_add]
  · -- one of the loops does not end
    refine iff_of_false (fun hfits => ?_) fun hsmall => ?_
    · by_cases hnal : a.nalHrdBpPresentFlag ≠ 0 → a.nalCpbCntMinus1.toNat < 255
      · obtain ⟨hpresent, hforever⟩ := Classical.not_imp.mp fun hvcl => hends ⟨hnal, hvcl⟩
        have hcalls : a.calls 256 = .token .startcodeRawdata :: (tail ++
            roundCalls a.nalHrdBpPresentFlag (a.nalCpbCntMinus1.toNat + 1) nalCalls ++
            ((List.replicate 256 a.vclCalls).flatten ++ [])) := by
          rw [calls, vclLoop, loop_of_ends hnal le_rfl, if_pos hpresent,
            schedSelLoop_forever hforever, htail, append_nil, cons_append, append_assoc]
        have hproper := hkeeps.proper _ (Shape.proper_append (s := Shape.first true)
          (roundCalls_proper nalCalls_proper a.nalHrdBpPresentFlag (a.nalCpbCntMinus1.toNat + 1) _)
          (roundCalls_proper a.vclCalls_proper a.vclHrdBpPresentFlag 256 _))
        have hloop : roundCalls a.vclHrdBpPresentFlag 256 a.vclCalls =
            (List.replicate 256 a.vclCalls).flatten := if_pos hpresent
        rw [hloop, ← append_assoc] at hproper
        refine not_fits_of_loop (d := 1 + (a.vclSize - 1) / 120) (by omega) ?_ a.vclCalls_run
          (hcalls ▸ hfits 256)
        rwa [append_nil]
      · obtain ⟨hpresent, hforever⟩ := Classical.not_imp.mp hnal
        have hcalls : a.calls 256 =
            .token .startcodeRawdata :: (tail ++ ((List.replicate 256 nalCalls).flatten ++ [])) := by
          rw [calls, if_pos hpresent, schedSelLoop_forever hforever, htail, append_nil, cons_append]
        have hproper := hkeeps.proper _
          (roundCalls_proper nalCalls_proper a.nalHrdBpPresentFlag 256 true)
        rw [roundCalls, if_pos hpresent] at hproper
        refine not_fits_of_loop (d := 2) (by decide) ?_ nalCalls_run (hcalls ▸ hfits 256)
        rwa [append_nil]
    · exact hends hsmall.ends

end BufferingPeriod

/-! ### All templates -/

/-- The templates that fit. -/
def Template.Small : Template → Prop
  | slice a => a.Small
  | sequence _ | mvcSequence _ => True
  | bufferingPeriod a => { a with vclCpbCntMinus1 := a.nalCpbCntMinus1 }.Small
  | pictureTiming a => a.Small

/-- The templates that fit are the small ones. -/
theorem template_fits_iff (t : Template) : t.Fits ↔ t.Small := by
  cases t with
  | slice a => exact forall_const ℕ |>.trans a.fits_iff
  | sequence a => exact iff_of_true (fun _ => a.fits_calls) trivial
  | mvcSequence a => exact iff_of_true (fun _ => a.fits_mvcCalls) trivial
  | bufferingPeriod a => exact BufferingPeriod.fits_iff _
  | pictureTiming a => exact forall_const ℕ |>.trans a.fits_iff

/-- The header of a B slice needs one element more than there are pointers. -/
theorem b_slice_does_not_fit : ¬∀ t : Template, t.Fits := by
  intro h
  have hsmall := (SliceTemplate.fits_iff ⟨3, 0, false, false, nonMvcView, false⟩).mp
    (h (.slice ⟨3, 0, false, false, nonMvcView, false⟩) 0)
  exact hsmall.2.1 rfl

end HardwareIntel.Topaz
