import HardwareIntel.Conversion.ConvertedBuffer
import Mathlib.Algebra.Order.Ring.Int
import Mathlib.Data.List.GetD
import Mathlib.Tactic.NormNum

/-!
# Remapping of signed samples

The functions of `AudioRemapper.cpp` on signed samples, frame by frame. Samples of 16 bits are added
with their sign. Samples of 24 bits are what the reformatter makes of them: two's complement in the
low bits of an unsigned word. They are added as unsigned numbers, and so their average is off by half
of the range iff their signs differ (`decode_average24`).

`remapping_right_iff` says when each channel of the destination gets what its policy says, and when
it makes no difference whether a buffer is remapped before or after it is reformatted.
-/

namespace HardwareIntel.Conversion

open List

/-! ## Signed samples -/

/-- The bits of a sample that carry its value. -/
def Format.bits : Format → ℕ
  | .pcm16Bit => 16
  | .pcm8_24Bit => 24

/-- The value is one of the signed samples of the format. -/
def Format.InRange (format : Format) (v : ℤ) : Prop :=
  -(2 ^ (format.bits - 1)) ≤ v ∧ v < 2 ^ (format.bits - 1)

/-- A signed sample in the low bits of a word. -/
def Format.encode (format : Format) (v : ℤ) : ℕ := (v % 2 ^ format.bits).toNat

/-- The signed sample in the low bits of a word. -/
def Format.decode (format : Format) (x : ℕ) : ℤ := (x : ℤ).bmod (2 ^ format.bits)

variable {format : Format} {samples : List ℤ} {v : ℤ}

theorem Format.inRange_pcm16Bit : Format.pcm16Bit.InRange v ↔ -32768 ≤ v ∧ v < 32768 := by
  norm_num [Format.InRange, Format.bits]

theorem Format.inRange_pcm8_24Bit : Format.pcm8_24Bit.InRange v ↔ -8388608 ≤ v ∧ v < 8388608 := by
  norm_num [Format.InRange, Format.bits]

theorem Format.encode_pcm16Bit (v : ℤ) : Format.pcm16Bit.encode v = (v % 65536).toNat := by
  norm_num [Format.encode, Format.bits]

theorem Format.encode_pcm8_24Bit (v : ℤ) : Format.pcm8_24Bit.encode v = (v % 16777216).toNat := by
  norm_num [Format.encode, Format.bits]

/-- What has been encoded is decoded. -/
theorem Format.decode_encode (h : format.InRange v) : format.decode (format.encode v) = v := by
  cases format with
  | pcm16Bit =>
    rw [Format.inRange_pcm16Bit] at h
    simp only [Format.decode, Format.encode_pcm16Bit, Format.bits, Int.bmod_def]
    omega
  | pcm8_24Bit =>
    rw [Format.inRange_pcm8_24Bit] at h
    simp only [Format.decode, Format.encode_pcm8_24Bit, Format.bits, Int.bmod_def]
    omega

@[simp] theorem Format.decode_zero (format : Format) : format.decode 0 = 0 := by
  cases format <;> decide

/-- The reformatter keeps the sign, and shifts by 8 bits. -/
theorem convertS16toS24over32_encode (h : Format.pcm16Bit.InRange v) :
    convertS16toS24over32 (Format.pcm16Bit.encode v) = Format.pcm8_24Bit.encode (256 * v) := by
  rw [Format.inRange_pcm16Bit] at h
  rw [convertS16toS24over32, Format.encode_pcm16Bit, Format.encode_pcm8_24Bit]
  omega

theorem Format.inRange_reformatted (h : Format.pcm16Bit.InRange v) :
    Format.pcm8_24Bit.InRange (256 * v) := by
  rw [Format.inRange_pcm16Bit] at h
  rw [Format.inRange_pcm8_24Bit]
  omega

/-! ## What the policies say -/

/-- The samples of the channels that are not to be ignored. -/
def validSamples (policies : List ChannelsPolicy) (frame : List ℤ) : List ℤ :=
  ((frame.zip policies).filter fun p => p.2 ≠ .ignore).map Prod.fst

/-- The value is the average of the samples, rounded in whatever direction; of none it is zero. -/
def IsAverage (samples : List ℤ) (v : ℤ) : Prop :=
  if samples = [] then v = 0 else |v * samples.length - samples.sum| < samples.length

/-- The value of a channel of the destination follows from its policy. A channel of a stereo source
is only copied to a stereo destination, and if it is not to be ignored. -/
def MeetsPolicy (fct : SampleConverter) (ssSrc ssDst : SampleSpec) (frame : List ℤ) (channel : ℕ)
    (v : ℤ) : Prop :=
  match ssDst.channelsPolicy.getD channel .copy, fct with
  | .ignore, _ => v = 0
  | _, .monoToStereo => v = frame.getD 0 0
  | .copy, .channelsPolicyInStereo =>
    if ssSrc.channelsPolicy.getD channel .copy ≠ .ignore then v = frame.getD channel 0
    else IsAverage (validSamples ssSrc.channelsPolicy frame) v
  | _, _ => IsAverage (validSamples ssSrc.channelsPolicy frame) v

instance (samples : List ℤ) (v : ℤ) : Decidable (IsAverage samples v) := by
  unfold IsAverage
  infer_instance

instance (fct : SampleConverter) (ssSrc ssDst : SampleSpec) (frame : List ℤ) (channel : ℕ) (v : ℤ) :
    Decidable (MeetsPolicy fct ssSrc ssDst frame channel v) := by
  unfold MeetsPolicy
  split <;> infer_instance

/-- The function converts between these channels. -/
def Remaps (fct : SampleConverter) (ssSrc ssDst : SampleSpec) : Prop :=
  match fct with
  | .stereoToMono => ssSrc.channelsPolicy.length = 2 ∧ ssDst.channelsPolicy.length = 1
  | .monoToStereo => ssSrc.channelsPolicy.length = 1 ∧ ssDst.channelsPolicy.length = 2
  | .channelsPolicyInStereo => ssSrc.channelsPolicy.length = 2 ∧ ssDst.channelsPolicy.length = 2
  | _ => False

instance (fct : SampleConverter) (ssSrc ssDst : SampleSpec) : Decidable (Remaps fct ssSrc ssDst) := by
  unfold Remaps
  cases fct <;> infer_instance

/-- A buffer. -/
def SampleConverter.convertFrames (fct : SampleConverter) (ssSrc ssDst : SampleSpec)
    (old : ℕ → Frame) (frames : List Frame) : List Frame :=
  frames.mapIdx fun i => fct.convertFrame ssSrc ssDst (old i)

/-- A sample of a buffer. -/
def sampleAt (frames : List Frame) (i channel : ℕ) : ℕ := (frames.getD i []).getD channel 0

/-- A buffer of signed samples, in the words of the format. -/
def encodeFrames (format : Format) (frames : List (List ℤ)) : List Frame :=
  frames.map fun frame => frame.map format.encode

/-- Every channel of the destination gets what its policy says. -/
def Remapped (fct : SampleConverter) (ssSrc ssDst : SampleSpec) (old : ℕ → Frame)
    (frames : List (List ℤ)) : Prop :=
  ∀ i < frames.length, ∀ channel < ssDst.channelsPolicy.length,
    MeetsPolicy fct ssSrc ssDst (frames.getD i []) channel (ssDst.format.decode
      (sampleAt (fct.convertFrames ssSrc ssDst old (encodeFrames ssSrc.format frames)) i channel))

/-- The specification with 24-bit samples. -/
def SampleSpec.pcm8_24Bit (ss : SampleSpec) : SampleSpec := { ss with format := .pcm8_24Bit }

/-- 16-bit samples are reformatted to 24 bits. -/
def reformat (ss : SampleSpec) (frames : List Frame) : List Frame :=
  SampleConverter.s16toS24over32.convertFrames ss ss.pcm8_24Bit (fun _ => []) frames

/-- It makes no difference whether 16-bit samples are remapped or reformatted first, apart from half
of a 16-bit step. -/
def Commutes (fct : SampleConverter) (ssSrc ssDst : SampleSpec) (old : ℕ → Frame)
    (frames : List (List ℤ)) : Prop :=
  let frames16 := encodeFrames .pcm16Bit frames
  let remappedFirst := reformat ssDst (fct.convertFrames ssSrc ssDst old frames16)
  let reformattedFirst :=
    fct.convertFrames ssSrc.pcm8_24Bit ssDst.pcm8_24Bit old (reformat ssSrc frames16)
  ∀ i < frames.length, ∀ channel < ssDst.channelsPolicy.length,
    |Format.pcm8_24Bit.decode (sampleAt remappedFirst i channel) -
      Format.pcm8_24Bit.decode (sampleAt reformattedFirst i channel)| ≤ 128

/-! ## The average -/

/-- Some of the samples are negative, and some are not. -/
def MixedSigns (samples : List ℤ) : Prop := (∃ v ∈ samples, v < 0) ∧ ∃ v ∈ samples, 0 ≤ v

instance (samples : List ℤ) : Decidable (MixedSigns samples) :=
  inferInstanceAs (Decidable (_ ∧ _))

/-- The word that comes out as the average of the samples. -/
def averageWord (format : Format) (samples : List ℤ) : ℕ :=
  let dst := (samples.map fun v => format.widen (format.encode v)).sum % 2 ^ 64
  format.narrow (if samples.length = 0 then dst else dst / samples.length)

theorem getAveragedSrcFrame_encode (ssSrc : SampleSpec) (frame : List ℤ) :
    getAveragedSrcFrame ssSrc (frame.map ssSrc.format.encode) =
      averageWord ssSrc.format (validSamples ssSrc.channelsPolicy frame) := by
  have hvalid : ((frame.map ssSrc.format.encode).zip ssSrc.channelsPolicy).filter
        (fun p => p.2 ≠ .ignore) =
      ((frame.zip ssSrc.channelsPolicy).filter fun p => p.2 ≠ .ignore).map
        (Prod.map ssSrc.format.encode id) := by
    rw [zip_map_left, filter_map]
    rfl
  simp only [getAveragedSrcFrame, hvalid, averageWord, validSamples, map_map, length_map]
  rfl

/-- 16-bit samples are added with their sign. -/
theorem widen_encode_pcm16Bit (h : Format.pcm16Bit.InRange v) :
    (Format.pcm16Bit.widen (Format.pcm16Bit.encode v) : ℤ) = v % 2 ^ 64 := by
  rw [Format.inRange_pcm16Bit] at h
  rw [Format.encode_pcm16Bit]
  simp only [Format.widen]
  split <;> omega

/-- The quotient of 16-bit samples is rounded down. -/
theorem decode_average16 {a b : ℤ} (ha : Format.pcm16Bit.InRange a)
    (hb : Format.pcm16Bit.InRange b) :
    Format.pcm16Bit.decode (averageWord .pcm16Bit [a, b]) = (a + b) / 2 := by
  have hword : ((averageWord .pcm16Bit [a, b] : ℕ) : ℤ) = (a + b) / 2 % 65536 := by
    have hwa := widen_encode_pcm16Bit ha
    have hwb := widen_encode_pcm16Bit hb
    simp only [averageWord, map_cons, map_nil, sum_cons, sum_nil, Nat.add_zero,
      length_cons, length_nil, Format.narrow]
    generalize Format.pcm16Bit.widen (Format.pcm16Bit.encode a) = x at hwa ⊢
    generalize Format.pcm16Bit.widen (Format.pcm16Bit.encode b) = y at hwb ⊢
    rw [if_neg (by decide)]
    omega
  rw [Format.inRange_pcm16Bit] at ha hb
  rw [Format.decode, hword, Format.bits, Int.bmod_def]
  omega

/-- 24-bit samples are added as unsigned numbers: if their signs differ, the average is off by half
of the range. -/
theorem decode_average24 {a b : ℤ} (ha : Format.pcm8_24Bit.InRange a)
    (hb : Format.pcm8_24Bit.InRange b) :
    Format.pcm8_24Bit.decode (averageWord .pcm8_24Bit [a, b]) =
      if a < 0 ↔ b < 0 then (a + b) / 2
      else if 0 ≤ a + b then (a + b) / 2 - 8388608 else (a + b) / 2 + 8388608 := by
  have hword : ((averageWord .pcm8_24Bit [a, b] : ℕ) : ℤ) =
      (a % 16777216 + b % 16777216) / 2 := by
    simp only [averageWord, map_cons, map_nil, sum_cons, sum_nil, Nat.add_zero,
      length_cons, length_nil, Format.narrow, Format.widen, Format.encode_pcm8_24Bit]
    rw [if_neg (by decide)]
    omega
  rw [Format.inRange_pcm8_24Bit] at ha hb
  rw [Format.decode, hword, Format.bits, Int.bmod_def]
  split_ifs <;> omega

/-- A single sample is kept. -/
theorem decode_averageWord_singleton {a : ℤ} (ha : format.InRange a) :
    format.decode (averageWord format [a]) = a := by
  have hword : ((averageWord format [a] : ℕ) : ℤ) = a % 2 ^ format.bits := by
    cases format with
    | pcm16Bit =>
      have hwa := widen_encode_pcm16Bit ha
      simp only [averageWord, map_cons, map_nil, sum_cons, sum_nil,
        Nat.add_zero, length_cons, length_nil, Format.narrow, Format.bits]
      rw [if_neg (by decide)]
      omega
    | pcm8_24Bit =>
      simp only [averageWord, map_cons, map_nil, sum_cons, sum_nil,
        Nat.add_zero, length_cons, length_nil, Format.narrow, Format.widen,
        Format.encode_pcm8_24Bit, Format.bits]
      rw [if_neg (by decide)]
      omega
  have hencode : ((format.encode a : ℕ) : ℤ) = a % 2 ^ format.bits :=
    Int.toNat_of_nonneg (Int.emod_nonneg _ (by positivity))
  rw [Format.decode, hword, ← hencode]
  exact Format.decode_encode ha

/-- The average comes out right, rounded down, unless 24-bit samples differ in their signs. -/
theorem decode_averageWord (hlength : samples.length ≤ 2) (hrange : ∀ v ∈ samples, format.InRange v)
    (hsigns : format = .pcm8_24Bit → ¬ MixedSigns samples) :
    format.decode (averageWord format samples) = samples.sum / samples.length := by
  match samples with
  | [] => cases format <;> decide
  | [a] =>
    rw [decode_averageWord_singleton (hrange a (by simp))]
    simp
  | [a, b] =>
    have ha := hrange a (by simp)
    have hb := hrange b (by simp)
    have hsum : ([a, b].sum : ℤ) / (([a, b] : List ℤ).length : ℤ) = (a + b) / 2 := by simp
    rw [hsum]
    cases format with
    | pcm16Bit => exact decode_average16 ha hb
    | pcm8_24Bit =>
      have hsame : a < 0 ↔ b < 0 := by
        have hmixed := hsigns rfl
        simp only [MixedSigns, mem_cons, not_mem_nil, or_false, exists_eq_or_imp,
          exists_eq_left] at hmixed
        omega
      rw [decode_average24 ha hb, if_pos hsame]
  | _ :: _ :: _ :: _ => simp at hlength

/-- The average of 24-bit samples whose signs differ. -/
theorem decode_averageWord_mixed (hlength : samples.length ≤ 2)
    (hrange : ∀ v ∈ samples, Format.pcm8_24Bit.InRange v) (hsigns : MixedSigns samples) :
    ∃ a b, samples = [a, b] ∧ (a < 0 ∧ 0 ≤ b ∨ 0 ≤ a ∧ b < 0) ∧
      Format.pcm8_24Bit.decode (averageWord .pcm8_24Bit samples) =
        if 0 ≤ a + b then (a + b) / 2 - 8388608 else (a + b) / 2 + 8388608 := by
  match samples with
  | [] => simp [MixedSigns] at hsigns
  | [a] =>
    simp only [MixedSigns, mem_singleton, exists_eq_left] at hsigns
    omega
  | [a, b] =>
    have hdiffer : a < 0 ∧ 0 ≤ b ∨ 0 ≤ a ∧ b < 0 := by
      simp only [MixedSigns, mem_cons, not_mem_nil, or_false, exists_eq_or_imp,
        exists_eq_left] at hsigns
      omega
    refine ⟨a, b, rfl, hdiffer, ?_⟩
    rw [decode_average24 (hrange a (by simp)) (hrange b (by simp)), if_neg (by omega)]
  | _ :: _ :: _ :: _ => simp at hlength

theorem isAverage_floor (samples : List ℤ) : IsAverage samples (samples.sum / samples.length) := by
  unfold IsAverage
  split
  · rename_i hnil
    simp [hnil]
  · rename_i hne
    have hpos : (0 : ℤ) < samples.length := by
      rw [Int.natCast_pos]
      exact length_pos_of_ne_nil hne
    have hdiv := Int.mul_ediv_add_emod samples.sum samples.length
    have hlower := Int.emod_nonneg samples.sum hpos.ne'
    have hupper := Int.emod_lt_of_pos samples.sum hpos
    rw [abs_lt, Int.mul_comm]
    constructor <;> omega

/-- The average is one, and rounded down, unless 24-bit samples differ in their signs. -/
theorem isAverage_averageWord_iff (hlength : samples.length ≤ 2)
    (hrange : ∀ v ∈ samples, format.InRange v) :
    IsAverage samples (format.decode (averageWord format samples)) ↔
      (format = .pcm8_24Bit → ¬ MixedSigns samples) := by
  constructor
  · rintro haverage rfl hsigns
    obtain ⟨a, b, rfl, hdiffer, hword⟩ := decode_averageWord_mixed hlength hrange hsigns
    rw [hword, IsAverage, if_neg (by simp), abs_lt] at haverage
    simp only [length_cons, length_nil, sum_cons, sum_nil] at haverage
    split at haverage <;> push_cast at haverage <;> omega
  · intro hsigns
    rw [decode_averageWord hlength hrange hsigns]
    exact isAverage_floor samples

theorem averageWord_eq_zero_iff (hlength : samples.length ≤ 2)
    (hrange : ∀ v ∈ samples, format.InRange v) :
    format.decode (averageWord format samples) = 0 ↔
      (format = .pcm8_24Bit → ¬ MixedSigns samples) ∧ samples.sum / samples.length = 0 := by
  constructor
  · intro hzero
    have hsigns : format = .pcm8_24Bit → ¬ MixedSigns samples := by
      rintro rfl hsigns
      obtain ⟨a, b, rfl, hdiffer, hword⟩ := decode_averageWord_mixed hlength hrange hsigns
      have ha := Format.inRange_pcm8_24Bit.mp (hrange a (by simp))
      have hb := Format.inRange_pcm8_24Bit.mp (hrange b (by simp))
      rw [hzero] at hword
      split at hword <;> omega
    exact ⟨hsigns, by rw [← hzero, decode_averageWord hlength hrange hsigns]⟩
  · rintro ⟨hsigns, hzero⟩
    rw [decode_averageWord hlength hrange hsigns, hzero]

/-! ## One sample of the destination -/

/-- The channel gets the average of the frame. -/
def averages (fct : SampleConverter) (ssSrc ssDst : SampleSpec) (channel : ℕ) : Bool :=
  match fct with
  | .stereoToMono => true
  | .channelsPolicyInStereo =>
    match ssDst.channelsPolicy.getD channel .copy with
    | .average => true
    | .copy => ssSrc.channelsPolicy.getD channel .copy = .ignore
    | .ignore => false
  | _ => false

/-- What a channel gets that does not get the average. -/
def keptValue (fct : SampleConverter) (ssDst : SampleSpec) (old : Frame) (frame : List ℤ)
    (channel : ℕ) : ℤ :=
  if ssDst.channelsPolicy.getD channel .copy = .ignore then
    if fct = .monoToStereo then ssDst.format.decode (old.getD channel 0) else 0
  else frame.getD (if fct = .monoToStereo then 0 else channel) 0

/-- A frame of signed samples, one for each channel of the source. -/
def Fits (ssSrc : SampleSpec) (frame : List ℤ) : Prop :=
  frame.length = ssSrc.channelsPolicy.length ∧ ∀ v ∈ frame, ssSrc.format.InRange v

section Sample

variable {fct : SampleConverter} {ssSrc ssDst : SampleSpec} {old : Frame} {frame : List ℤ}
  {channel : ℕ}

theorem Fits.validSamples (h : Fits ssSrc frame) (hchannels : ssSrc.channelsPolicy.length ≤ 2) :
    (validSamples ssSrc.channelsPolicy frame).length ≤ 2 ∧
      ∀ v ∈ Conversion.validSamples ssSrc.channelsPolicy frame, ssSrc.format.InRange v := by
  constructor
  · rw [Conversion.validSamples, length_map]
    refine Nat.le_trans (length_filter_le ..) ?_
    rw [length_zip, h.1, Nat.min_self]
    exact hchannels
  · intro v hv
    obtain ⟨p, hp, rfl⟩ := mem_map.mp hv
    exact h.2 p.1 (of_mem_zip (mem_filter.mp hp).1).1

theorem Fits.decode_getD (h : Fits ssSrc frame) (hchannel : channel < frame.length) :
    ssSrc.format.decode ((frame.map ssSrc.format.encode).getD channel 0) =
      frame.getD channel 0 := by
  rw [getD_eq_getElem _ _ (by simpa using hchannel), getElem_map,
    getD_eq_getElem _ _ hchannel]
  exact Format.decode_encode (h.2 _ (getElem_mem _))

theorem Remaps.channels_le (h : Remaps fct ssSrc ssDst) : ssSrc.channelsPolicy.length ≤ 2 := by
  unfold Remaps at h
  cases fct <;> simp only [] at h <;> omega

/-- A sample of the stereo destination of a stereo source. -/
theorem decode_convertSample (hformat : ssSrc.format = ssDst.format) (hframe : Fits ssSrc frame)
    (hchannel : channel < frame.length) :
    ssDst.format.decode (convertSample ssSrc ssDst (frame.map ssSrc.format.encode) channel) =
      if averages .channelsPolicyInStereo ssSrc ssDst channel then
        ssSrc.format.decode (averageWord ssSrc.format (validSamples ssSrc.channelsPolicy frame))
      else keptValue .channelsPolicyInStereo ssDst old frame channel := by
  rw [← hformat]
  unfold convertSample averages keptValue
  cases hpolicy : ssDst.channelsPolicy.getD channel .copy with
  | ignore => simp
  | average => simp [getAveragedSrcFrame_encode]
  | copy =>
    by_cases hsource : ssSrc.channelsPolicy.getD channel .copy = .ignore
    · simp only [hsource, ne_eq, not_true_eq_false, if_false, decide_true, if_true,
        getAveragedSrcFrame_encode]
    · simp only [hsource, ne_eq, not_false_eq_true, if_true, decide_false, Bool.false_eq_true,
        if_false, reduceCtorEq, hframe.decode_getD hchannel]

/-- A sample of the destination. -/
theorem decode_convertFrame (hfct : Remaps fct ssSrc ssDst) (hformat : ssSrc.format = ssDst.format)
    (hframe : Fits ssSrc frame) (hchannel : channel < ssDst.channelsPolicy.length) :
    ssDst.format.decode
        ((fct.convertFrame ssSrc ssDst old (frame.map ssSrc.format.encode)).getD channel 0) =
      if averages fct ssSrc ssDst channel then
        ssSrc.format.decode (averageWord ssSrc.format (validSamples ssSrc.channelsPolicy frame))
      else keptValue fct ssDst old frame channel := by
  cases fct with
  | s16toS24over32 => exact absurd hfct id
  | s24over32toS16 => exact absurd hfct id
  | stereoToMono =>
    obtain rfl : channel = 0 := by
      have hmono := hfct.2
      omega
    simp only [SampleConverter.convertFrame, averages, if_true, getD_cons_zero,
      getAveragedSrcFrame_encode, ← hformat]
  | monoToStereo =>
    have hmono : 0 < frame.length := by
      rw [hframe.1, hfct.1]
      decide
    have hvalue := hframe.decode_getD hmono
    have hnot : averages .monoToStereo ssSrc ssDst channel = false := rfl
    rw [SampleConverter.convertFrame, getD_eq_getElem _ _ (by simpa using hchannel),
      getElem_mapIdx, hnot, keptValue, getD_eq_getElem _ _ hchannel]
    by_cases hignore : ssDst.channelsPolicy[channel] = .ignore
    · simp [hignore]
    · rw [if_pos hignore, ← hformat, hvalue]
      simp [hignore]
  | channelsPolicyInStereo =>
    have hstereo := hfct.2
    have hlength : channel < frame.length := by
      rw [hframe.1, hfct.1]
      omega
    have hsample : (SampleConverter.channelsPolicyInStereo.convertFrame ssSrc ssDst old
        (frame.map ssSrc.format.encode)).getD channel 0 =
          convertSample ssSrc ssDst (frame.map ssSrc.format.encode) channel := by
      obtain rfl | rfl : channel = 0 ∨ channel = 1 := by omega
      · rfl
      · rfl
    rw [hsample, decode_convertSample hformat hframe hlength]

/-- What the channel gets if it is to be ignored. -/
def ignoredValue (fct : SampleConverter) (ssSrc ssDst : SampleSpec) (old : Frame) (frame : List ℤ)
    (channel : ℕ) : ℤ :=
  match fct with
  | .monoToStereo => ssDst.format.decode (old.getD channel 0)
  | .stereoToMono => (Conversion.validSamples ssSrc.channelsPolicy frame).sum /
      (Conversion.validSamples ssSrc.channelsPolicy frame).length
  | _ => 0

/-- 24-bit samples that are averaged do not differ in their signs, and what is left in the place of
a channel to ignore is zero. -/
def Remappable (fct : SampleConverter) (ssSrc ssDst : SampleSpec) (old : Frame) (frame : List ℤ)
    (channel : ℕ) : Prop :=
  (averages fct ssSrc ssDst channel = true → ssSrc.format = .pcm8_24Bit →
    ¬ MixedSigns (Conversion.validSamples ssSrc.channelsPolicy frame)) ∧
  (ssDst.channelsPolicy.getD channel .copy = .ignore →
    ignoredValue fct ssSrc ssDst old frame channel = 0)

instance : Decidable (Remappable fct ssSrc ssDst old frame channel) :=
  inferInstanceAs (Decidable (_ ∧ _))

/-- One channel of one frame. -/
theorem meetsPolicy_iff (hfct : Remaps fct ssSrc ssDst) (hformat : ssSrc.format = ssDst.format)
    (hframe : Fits ssSrc frame) (hchannel : channel < ssDst.channelsPolicy.length) :
    MeetsPolicy fct ssSrc ssDst frame channel (ssDst.format.decode
        ((fct.convertFrame ssSrc ssDst old (frame.map ssSrc.format.encode)).getD channel 0)) ↔
      Remappable fct ssSrc ssDst old frame channel := by
  rw [decode_convertFrame hfct hformat hframe hchannel]
  obtain ⟨hlength, hrange⟩ := hframe.validSamples hfct.channels_le
  have haverage := isAverage_averageWord_iff hlength hrange
  unfold MeetsPolicy Remappable ignoredValue
  cases fct with
  | s16toS24over32 => exact absurd hfct id
  | s24over32toS16 => exact absurd hfct id
  | stereoToMono =>
    simp only [averages, if_true, true_implies]
    cases hpolicy : ssDst.channelsPolicy.getD channel .copy with
    | ignore =>
      simp only [true_implies]
      exact averageWord_eq_zero_iff hlength hrange
    | average => simpa using haverage
    | copy => simpa using haverage
  | monoToStereo =>
    simp only [averages, Bool.false_eq_true, if_false, false_implies, true_and, keptValue]
    cases hpolicy : ssDst.channelsPolicy.getD channel .copy <;> simp
  | channelsPolicyInStereo =>
    cases hpolicy : ssDst.channelsPolicy.getD channel .copy with
    | ignore =>
      simp only [averages, hpolicy, keptValue, Bool.false_eq_true, if_false, if_true, reduceCtorEq,
        false_implies, implies_true, and_self]
    | average =>
      simp only [averages, hpolicy, if_true, true_implies, reduceCtorEq, false_implies, and_true]
      exact haverage
    | copy =>
      by_cases hsource : ssSrc.channelsPolicy.getD channel .copy = .ignore
      · simp only [averages, hpolicy, hsource, decide_true, if_true, ne_eq, not_true_eq_false,
          if_false, true_implies, reduceCtorEq, false_implies, and_true]
        exact haverage
      · simp only [averages, hpolicy, hsource, keptValue, decide_false, Bool.false_eq_true, ne_eq,
          not_false_eq_true, if_true, if_false, reduceCtorEq, false_implies, and_self]

end Sample

/-! ## Reformatted samples -/

theorem decode_convertS16toS24over32 (x : ℕ) :
    Format.pcm8_24Bit.decode (convertS16toS24over32 x) = 256 * Format.pcm16Bit.decode x := by
  simp only [Format.decode, Format.bits, Int.bmod_def, convertS16toS24over32]
  split_ifs <;> omega

theorem validSamples_map (policies : List ChannelsPolicy) (frame : List ℤ) (f : ℤ → ℤ) :
    validSamples policies (frame.map f) = (validSamples policies frame).map f := by
  simp only [validSamples, zip_map_left, filter_map, map_map]
  rfl

theorem mixedSigns_map {samples : List ℤ} :
    MixedSigns (samples.map fun v => 256 * v) ↔ MixedSigns samples := by
  have hnegative : ∀ v : ℤ, 256 * v < 0 ↔ v < 0 := fun v => by omega
  have hnot : ∀ v : ℤ, 0 ≤ 256 * v ↔ 0 ≤ v := fun v => by omega
  simp [MixedSigns, hnegative]

/-- The average of the 24-bit samples is 256 times that of the 16-bit samples, apart from half of a
step, iff the signs do not differ. -/
theorem averageWord_reformatted {samples : List ℤ} (hlength : samples.length ≤ 2)
    (hrange : ∀ v ∈ samples, Format.pcm16Bit.InRange v) :
    |256 * Format.pcm16Bit.decode (averageWord .pcm16Bit samples) - Format.pcm8_24Bit.decode
        (averageWord .pcm8_24Bit (samples.map fun v => 256 * v))| ≤ 128 ↔
      ¬ MixedSigns samples := by
  have hrange' : ∀ v ∈ samples.map (fun v => 256 * v), Format.pcm8_24Bit.InRange v := by
    intro v hv
    obtain ⟨u, hu, rfl⟩ := mem_map.mp hv
    exact Format.inRange_reformatted (hrange u hu)
  have hlength' : (samples.map fun v => 256 * v).length ≤ 2 := by
    rw [length_map]
    exact hlength
  rw [decode_averageWord hlength hrange (by simp)]
  constructor
  · intro hclose hsigns
    obtain ⟨a, b, hsamples, hdiffer, hword⟩ :=
      decode_averageWord_mixed hlength' hrange' (mixedSigns_map.mpr hsigns)
    have htwo : samples.length = 2 := by simpa using congrArg List.length hsamples
    obtain ⟨u, v, rfl⟩ := length_eq_two.mp htwo
    have hu := Format.inRange_pcm16Bit.mp (hrange u (by simp))
    have hv := Format.inRange_pcm16Bit.mp (hrange v (by simp))
    simp only [map_cons, map_nil, List.cons.injEq, and_true] at hsamples
    obtain ⟨rfl, rfl⟩ := hsamples
    have hsum : ([u, v].sum : ℤ) / (([u, v] : List ℤ).length : ℤ) = (u + v) / 2 := by simp
    rw [hword, hsum, abs_le] at hclose
    split at hclose <;> omega
  · intro hsigns
    rw [decode_averageWord hlength' hrange' fun _ => mt mixedSigns_map.mp hsigns, abs_le]
    match samples with
    | [] => simp
    | [a] => simp
    | [a, b] =>
      simp only [map_cons, map_nil, sum_cons, sum_nil, length_cons, length_nil]
      push_cast
      omega

section Commuting

variable {fct : SampleConverter} {ssSrc ssDst : SampleSpec} {old : Frame} {frame : List ℤ}
  {channel : ℕ}

theorem Fits.reformatted (h : Fits ssSrc frame) (hformat : ssSrc.format = .pcm16Bit) :
    Fits ssSrc.pcm8_24Bit (frame.map fun v => 256 * v) := by
  refine ⟨by rw [length_map]; exact h.1, fun v hv => ?_⟩
  obtain ⟨u, hu, rfl⟩ := mem_map.mp hv
  have hrange := h.2 u hu
  rw [hformat] at hrange
  exact Format.inRange_reformatted hrange

theorem map_convertS16toS24over32 (h : Fits ssSrc frame) (hformat : ssSrc.format = .pcm16Bit) :
    (frame.map Format.pcm16Bit.encode).map convertS16toS24over32 =
      (frame.map fun v => 256 * v).map Format.pcm8_24Bit.encode := by
  rw [map_map, map_map]
  refine map_congr_left fun v hv => ?_
  have hrange := h.2 v hv
  rw [hformat] at hrange
  rw [Function.comp_apply, Function.comp_apply]
  exact convertS16toS24over32_encode hrange

/-- One sample, remapped first or reformatted first. -/
theorem sample_commutes_iff (hfct : Remaps fct ssSrc ssDst) (hstereo : fct ≠ .monoToStereo)
    (hsrc : ssSrc.format = .pcm16Bit) (hdst : ssDst.format = .pcm16Bit) (hframe : Fits ssSrc frame)
    (hchannel : channel < ssDst.channelsPolicy.length) :
    |Format.pcm8_24Bit.decode (((fct.convertFrame ssSrc ssDst old
        (frame.map Format.pcm16Bit.encode)).map convertS16toS24over32).getD channel 0) -
      Format.pcm8_24Bit.decode ((fct.convertFrame ssSrc.pcm8_24Bit ssDst.pcm8_24Bit old
        ((frame.map Format.pcm16Bit.encode).map convertS16toS24over32)).getD channel 0)| ≤ 128 ↔
      (averages fct ssSrc ssDst channel = true →
        ¬ MixedSigns (validSamples ssSrc.channelsPolicy frame)) := by
  have hfirst := @decode_convertFrame fct ssSrc ssDst old frame channel hfct
    (hsrc.trans hdst.symm) hframe hchannel
  have hsecond := @decode_convertFrame fct ssSrc.pcm8_24Bit ssDst.pcm8_24Bit old _ channel hfct
    rfl (hframe.reformatted hsrc) hchannel
  obtain ⟨hlength, hrange⟩ := hframe.validSamples hfct.channels_le
  rw [hsrc] at hrange hfirst
  rw [hdst] at hfirst
  change Format.pcm8_24Bit.decode ((fct.convertFrame ssSrc.pcm8_24Bit ssDst.pcm8_24Bit old
    ((frame.map fun v => 256 * v).map Format.pcm8_24Bit.encode)).getD channel 0) =
      if averages fct ssSrc ssDst channel = true then Format.pcm8_24Bit.decode
        (averageWord .pcm8_24Bit (validSamples ssSrc.channelsPolicy (frame.map fun v => 256 * v)))
      else keptValue fct ssDst.pcm8_24Bit old (frame.map fun v => 256 * v) channel at hsecond
  have hreformat : ∀ out : Frame, (out.map convertS16toS24over32).getD channel 0 =
      convertS16toS24over32 (out.getD channel 0) := fun out => getD_map out 0 convertS16toS24over32
  rw [hreformat, decode_convertS16toS24over32, hfirst, map_convertS16toS24over32 hframe hsrc,
    hsecond]
  by_cases haverage : averages fct ssSrc ssDst channel = true
  · rw [if_pos haverage, if_pos haverage, validSamples_map, averageWord_reformatted hlength hrange]
    simp [haverage]
  · rw [if_neg haverage, if_neg haverage]
    have hkept : 256 * keptValue fct ssDst old frame channel =
        keptValue fct ssDst.pcm8_24Bit old (frame.map fun v => 256 * v) channel := by
      have hvalue : (frame.map fun v : ℤ => 256 * v).getD channel 0 = 256 * frame.getD channel 0 :=
        getD_map frame 0 fun v : ℤ => 256 * v
      simp only [keptValue, if_neg hstereo, SampleSpec.pcm8_24Bit, hvalue]
      split <;> rfl
    rw [hkept, Int.sub_self, abs_zero]
    simp [haverage]

end Commuting

/-! ## Buffers -/

section Buffers

variable {fct : SampleConverter} {ssSrc ssDst : SampleSpec} {frames : List (List ℤ)} {i : ℕ}

theorem getD_convertFrames (old : ℕ → Frame) {frames : List Frame} (hi : i < frames.length) :
    (fct.convertFrames ssSrc ssDst old frames).getD i [] =
      fct.convertFrame ssSrc ssDst (old i) (frames.getD i []) := by
  rw [SampleConverter.convertFrames, getD_eq_getElem _ _ (by simpa using hi),
    getElem_mapIdx, getD_eq_getElem _ _ hi]

theorem getD_encodeFrames (format : Format) (i : ℕ) :
    (encodeFrames format frames).getD i [] = (frames.getD i []).map format.encode :=
  getD_map frames [] fun frame : List ℤ => frame.map format.encode

theorem reformat_eq (ss : SampleSpec) (frames : List Frame) :
    reformat ss frames = frames.map fun frame => frame.map convertS16toS24over32 := by
  rw [reformat, SampleConverter.convertFrames, mapIdx_eq_iff]
  intro i
  rw [List.getElem?_map]
  rfl

theorem getD_reformat (ss : SampleSpec) (frames : List Frame) (i : ℕ) :
    (reformat ss frames).getD i [] = (frames.getD i []).map convertS16toS24over32 := by
  rw [reformat_eq]
  exact getD_map frames [] fun frame : Frame => frame.map convertS16toS24over32

/-- For every buffer of signed samples, of both formats: each channel of the destination gets what
its policy says iff 24-bit samples that are averaged do not differ in their signs, and the places of
channels to ignore are zero. And 16-bit samples of a stereo source may be remapped or reformatted
first iff the signs of those that are averaged do not differ. -/
theorem remapping_right_iff (hfct : Remaps fct ssSrc ssDst) (hformat : ssSrc.format = ssDst.format)
    (old : ℕ → Frame) (hframes : ∀ frame ∈ frames, Fits ssSrc frame) :
    (Remapped fct ssSrc ssDst old frames ↔
      ∀ i < frames.length, ∀ channel < ssDst.channelsPolicy.length,
        Remappable fct ssSrc ssDst (old i) (frames.getD i []) channel) ∧
    (ssSrc.format = .pcm16Bit → fct ≠ .monoToStereo → (Commutes fct ssSrc ssDst old frames ↔
        ∀ i < frames.length, ∀ channel < ssDst.channelsPolicy.length,
          averages fct ssSrc ssDst channel = true →
            ¬ MixedSigns (validSamples ssSrc.channelsPolicy (frames.getD i [])))) := by
  have hfits : ∀ i < frames.length, Fits ssSrc (frames.getD i []) := by
    intro i hi
    rw [getD_eq_getElem _ _ hi]
    exact hframes _ (getElem_mem hi)
  have hlength : ∀ format : Format, (encodeFrames format frames).length = frames.length :=
    fun format => length_map ..
  constructor
  · refine forall_congr' fun i => forall_congr' fun hi => forall_congr' fun channel =>
      forall_congr' fun hchannel => ?_
    rw [sampleAt, getD_convertFrames old (by rw [hlength]; exact hi), getD_encodeFrames]
    exact meetsPolicy_iff hfct hformat (hfits i hi) hchannel
  · intro h16 hstereo
    refine forall_congr' fun i => forall_congr' fun hi => forall_congr' fun channel =>
      forall_congr' fun hchannel => ?_
    rw [sampleAt, sampleAt, getD_reformat, getD_convertFrames old (by rw [hlength]; exact hi),
      getD_convertFrames old (by rw [reformat_eq, length_map, hlength]; exact hi),
      getD_reformat, getD_encodeFrames]
    exact sample_commutes_iff hfct hstereo h16 (hformat ▸ h16) (hfits i hi) hchannel

end Buffers

/-- Stereo samples in 24 bits. -/
def stereo24 : SampleSpec := ⟨.pcm8_24Bit, 48000, [.copy, .copy]⟩

/-- Stereo samples in 16 bits. -/
def stereo16 : SampleSpec := ⟨.pcm16Bit, 48000, [.copy, .copy]⟩

/-- The left channel gets the average, the right one nothing; two frames of 24-bit samples. -/
theorem remapping_right_average_left :
    Remapped .channelsPolicyInStereo stereo24 ⟨.pcm8_24Bit, 48000, [.average, .ignore]⟩
      (fun _ => []) [[-3, -5], [4, 7]] := by
  have hframes : ∀ frame ∈ [[-3, -5], [4, 7]], Fits stereo24 frame := by
    simp [Fits, stereo24, Format.inRange_pcm8_24Bit]
  have hfct : Remaps .channelsPolicyInStereo stereo24
      ⟨.pcm8_24Bit, 48000, [.average, .ignore]⟩ := by decide
  exact (remapping_right_iff hfct rfl (fun _ => []) hframes).1.mpr (by decide)

/-- The average of 0 and -2 is far from -1 with 24 bits, but not with 16 bits; and a channel that is
to be ignored keeps what was there. -/
theorem remapping_not_right :
    ¬ Remapped .stereoToMono stereo24 ⟨.pcm8_24Bit, 48000, [.copy]⟩ (fun _ => []) [[0, -2]] ∧
    ¬ Commutes .stereoToMono stereo16 ⟨.pcm16Bit, 48000, [.copy]⟩ (fun _ => []) [[0, -2]] ∧
    ¬ Remapped .monoToStereo ⟨.pcm16Bit, 48000, [.copy]⟩ ⟨.pcm16Bit, 48000, [.copy, .ignore]⟩
      (fun _ => [5, 6]) [[1]] :=
  ⟨fun h => absurd (h 0 (by decide) 0 (by decide)) (by decide),
    fun h => absurd (h 0 (by decide) 0 (by decide)) (by decide),
    fun h => absurd (h 0 (by decide) 1 (by decide)) (by decide)⟩

end HardwareIntel.Conversion
