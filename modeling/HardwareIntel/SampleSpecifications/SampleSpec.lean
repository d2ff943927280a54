import HardwareIntel.Conversion.ConvertedBuffer
import Mathlib.Order.Bounds.Basic

/-!
# Sample specifications

`SampleSpec.cpp` of the audio HAL and the conversions of `AudioUtils.cpp`, with a `size_t` of 32
bits. A function is `none` where one of its assertions fails, or where it divides by zero. The
number of bytes of a sample comes from the system and is a parameter.

The guards of the conversions are divisions too. A value a little above the limit passes the guard
of `convertFramesToUsec`, the guard of `alignOn16` never fails, and that of
`convertSrcToDstInFrames` compares signed numbers: `arithmetic_exact`.
-/

namespace HardwareIntel.SampleSpecifications

open Option

open Conversion (ChannelsPolicy)

/-- The items on which the converters work, in their order. -/
inductive SampleSpecItem
  | channelCount
  | format
  | rate
  deriving DecidableEq

/-- `SampleSpec`. The assertions of its setters are invariants; the list of policies may be shorter
than the number of channels. The channel mask is not used. -/
structure SampleSpec where
  channelCount : UInt32
  format : UInt32
  rate : UInt32
  channelsPolicy : List ChannelsPolicy
  channelCount_lt : channelCount < 32
  length_channelsPolicy_le : channelsPolicy.length ≤ channelCount.toNat
  deriving DecidableEq

/-- `audio_format_t`. -/
def audioFormatPcm16Bit : UInt32 := 1

def audioFormatPcm8_24Bit : UInt32 := 4

namespace SampleSpec

/-- `getSampleSpecItem`. -/
def getSampleSpecItem (ss : SampleSpec) : SampleSpecItem → UInt32
  | .channelCount => ss.channelCount
  | .format => ss.format
  | .rate => ss.rate

/-- `isSampleSpecItemEqual`. -/
def isSampleSpecItemEqual (item : SampleSpecItem) (ssSrc ssDst : SampleSpec) : Bool :=
  if ssSrc.getSampleSpecItem item ≠ ssDst.getSampleSpecItem item then false
  else decide (item ≠ .channelCount) || decide (ssSrc.channelsPolicy = ssDst.channelsPolicy)

/-- `isMono`. -/
def isMono (ss : SampleSpec) : Bool := ss.channelCount = 1

/-- `isStereo`. -/
def isStereo (ss : SampleSpec) : Bool := ss.channelCount = 2

/-- `setSampleRate`. -/
def setSampleRate (ss : SampleSpec) (rate : UInt32) : SampleSpec := { ss with rate := rate }

/-! ## Conversions -/

/-- `numeric_limits<size_t>::max()`. -/
def sizeMax : UInt32 := 0xFFFFFFFF

/-- `mUsecPerSec`. -/
def usecPerSec : UInt32 := 1000000

section Conversions

variable (audioBytesPerSample : UInt32 → UInt32) (ss : SampleSpec)

/-- `getFrameSize`. -/
def getFrameSize : UInt32 := audioBytesPerSample ss.format * ss.channelCount

/-- `convertBytesToFrames`. -/
def convertBytesToFrames (bytes : UInt32) : Option UInt32 :=
  if ss.getFrameSize audioBytesPerSample = 0 then none
  else some (bytes / ss.getFrameSize audioBytesPerSample)

/-- `convertFramesToBytes`. -/
def convertFramesToBytes (frames : UInt32) : Option UInt32 :=
  if ss.getFrameSize audioBytesPerSample = 0 then none
  else if frames ≤ sizeMax / ss.getFrameSize audioBytesPerSample then
    some (frames * ss.getFrameSize audioBytesPerSample)
  else none

/-- `convertFramesToUsec`. -/
def convertFramesToUsec (frames : UInt32) : Option UInt32 :=
  if ss.getFrameSize audioBytesPerSample = 0 ∨ ss.rate = 0 then none
  else if frames / ss.rate ≤ sizeMax / usecPerSec then
    some (usecPerSec.toUInt64 * frames.toUInt64 / ss.rate.toUInt64).toUInt32
  else none

/-- `convertUsecToframes`. -/
def convertUsecToframes (intervalUsec : UInt32) : UInt32 :=
  (intervalUsec.toUInt64 * ss.rate.toUInt64 / usecPerSec.toUInt64).toUInt32

end Conversions

end SampleSpec

/-- `mFrameAlignementOn16`. -/
def frameAlignementOn16 : UInt32 := 16

/-- `AudioUtils::alignOn16`. -/
def alignOn16 (u : UInt32) : Option UInt32 :=
  if u / frameAlignementOn16 ≤ SampleSpec.sizeMax / frameAlignementOn16 then
    some ((u + (frameAlignementOn16 - 1)) &&& ~~~(frameAlignementOn16 - 1))
  else none

/-- `AudioUtils::convertSrcToDstInFrames`. The quotient becomes a signed number of 64 bits. -/
def convertSrcToDstInFrames (frames : UInt32) (ssSrc ssDst : SampleSpec) : Option UInt32 :=
  if ssSrc.rate = 0 then none
  else
    let dstFrames := (frames.toUInt64 * ssDst.rate.toUInt64 + ssSrc.rate.toUInt64 - 1) /
      ssSrc.rate.toUInt64
    if dstFrames.toInt64 ≤ 0x7FFFFFFF then some dstFrames.toUInt32 else none

/-! ## Exactness -/

section Exact

/-- A product of two words of 32 bits fits in one of 64. -/
theorem toNat_mul_toUInt64 (a b : UInt32) :
    (a.toUInt64 * b.toUInt64).toNat = a.toNat * b.toNat := by
  refine Nat.mod_eq_of_lt ?_
  calc a.toNat * b.toNat ≤ (2 ^ 32 - 1) * (2 ^ 32 - 1) :=
        Nat.mul_le_mul (Nat.le_sub_one_of_lt a.toNat_lt) (Nat.le_sub_one_of_lt b.toNat_lt)
    _ < 2 ^ 64 := by decide

variable {audioBytesPerSample : UInt32 → UInt32} {ss ssSrc ssDst : SampleSpec}
  {frames bytes usec dstFrames u v : UInt32}

/-- The number of microseconds is what fits in 32 bits of the exact one. -/
theorem toNat_convertFramesToUsec (h : ss.convertFramesToUsec audioBytesPerSample frames = some usec) :
    usec.toNat = frames.toNat * 1000000 / ss.rate.toNat % 2 ^ 32 ∧ 0 < ss.rate.toNat := by
  unfold SampleSpec.convertFramesToUsec at h
  split at h
  case isTrue => exact absurd h (by simp)
  case isFalse hzero =>
    split at h
    case isFalse => exact absurd h (by simp)
    case isTrue =>
      rw [not_or] at hzero
      obtain rfl := some.inj h
      rw [UInt64.toNat_toUInt32, UInt64.toNat_div, toNat_mul_toUInt64, UInt32.toNat_toUInt64,
        Nat.mul_comm]
      exact ⟨rfl, Nat.pos_of_ne_zero fun hrate => hzero.2 (UInt32.toNat_inj.mp hrate)⟩

theorem toNat_convertUsecToframes :
    (ss.convertUsecToframes usec).toNat = usec.toNat * ss.rate.toNat / 1000000 % 2 ^ 32 := by
  rw [SampleSpec.convertUsecToframes, UInt64.toNat_toUInt32, UInt64.toNat_div, toNat_mul_toUInt64,
    UInt32.toNat_toUInt64]
  rfl

/-- The number of frames of a number of microseconds that stands for frames. -/
theorem convertUsecToframes_le
    (h : ss.convertFramesToUsec audioBytesPerSample frames = some usec) :
    usec.toNat * ss.rate.toNat / 1000000 ≤ frames.toNat := by
  obtain ⟨husec, hrate⟩ := toNat_convertFramesToUsec h
  have hle : usec.toNat ≤ frames.toNat * 1000000 / ss.rate.toNat := husec ▸ Nat.mod_le _ _
  refine Nat.div_le_of_le_mul ?_
  calc usec.toNat * ss.rate.toNat
      ≤ frames.toNat * 1000000 / ss.rate.toNat * ss.rate.toNat := Nat.mul_le_mul_right _ hle
    _ ≤ frames.toNat * 1000000 := Nat.div_mul_le_self _ _
    _ = 1000000 * frames.toNat := Nat.mul_comm _ _

/-- The bytes of frames are these frames. -/
theorem convertBytesToFrames_convertFramesToBytes
    (h : ss.convertFramesToBytes audioBytesPerSample frames = some bytes) :
    bytes.toNat = frames.toNat * (ss.getFrameSize audioBytesPerSample).toNat ∧
      ss.convertBytesToFrames audioBytesPerSample bytes = some frames := by
  unfold SampleSpec.convertFramesToBytes at h
  rw [SampleSpec.convertBytesToFrames]
  generalize ss.getFrameSize audioBytesPerSample = size at h ⊢
  split at h
  case isTrue => exact absurd h (by simp)
  case isFalse hsize =>
    split at h
    case isFalse => exact absurd h (by simp)
    case isTrue hlimit =>
      have hpos : 0 < size.toNat :=
        Nat.pos_of_ne_zero fun hzero => hsize (UInt32.toNat_inj.mp hzero)
      have hfits : frames.toNat * size.toNat < 2 ^ 32 := by
        have hle : frames.toNat ≤ (2 ^ 32 - 1) / size.toNat := by
          exact hlimit
        have := (Nat.le_div_iff_mul_le hpos).mp hle
        omega
      obtain rfl := some.inj h
      have hbytes : (frames * size).toNat = frames.toNat * size.toNat := by
        rw [UInt32.toNat_mul, Nat.mod_eq_of_lt hfits]
      refine ⟨hbytes, ?_⟩
      rw [if_neg hsize, some.injEq, ← UInt32.toNat_inj, UInt32.toNat_div, hbytes,
        Nat.mul_div_cancel _ hpos]

/-- Setting the last four bits to zero. -/
theorem toNat_and_not_fifteen (w : UInt32) :
    (w &&& ~~~(15 : UInt32)).toNat = w.toNat / 16 * 16 := by
  have hmask : (15 : UInt32).toBitVec = BitVec.ofNat 32 (2 ^ 4 - 1) := rfl
  rw [← UInt32.toNat_toBitVec, UInt32.toBitVec_and, UInt32.toBitVec_not, hmask]
  have hshift : w.toBitVec &&& ~~~(BitVec.ofNat 32 (2 ^ 4 - 1)) = w.toBitVec >>> 4 <<< 4 := by
    ext i hi
    rw [BitVec.getElem_and, BitVec.getElem_not, BitVec.getElem_shiftLeft,
      BitVec.getElem_ushiftRight, BitVec.getElem_eq_testBit_toNat (BitVec.ofNat 32 (2 ^ 4 - 1)),
      BitVec.toNat_ofNat, Nat.mod_eq_of_lt (by decide), Nat.testBit_two_pow_sub_one]
    by_cases hlow : i < 4
    · simp [hlow]
    · rw [Nat.add_sub_of_le (Nat.not_lt.mp hlow)]
      simp [hlow, BitVec.getLsbD_eq_getElem hi]
  rw [hshift, BitVec.toNat_shiftLeft, BitVec.toNat_ushiftRight, Nat.shiftRight_eq_div_pow,
    Nat.shiftLeft_eq]
  have hlt := w.toNat_lt
  rw [UInt32.toNat_toBitVec]
  omega

/-- The aligned value; the sum wraps. -/
theorem toNat_alignOn16 (h : alignOn16 u = some v) :
    v.toNat = (u.toNat + 15) % 2 ^ 32 / 16 * 16 := by
  unfold alignOn16 at h
  split at h
  case isFalse => exact absurd h (by simp)
  case isTrue =>
    obtain rfl := some.inj h
    have hmask : frameAlignementOn16 - 1 = 15 := rfl
    rw [hmask, toNat_and_not_fifteen, UInt32.toNat_add]
    rfl

/-- The aligned value is the next multiple of 16, unless this is 2 ^ 32. -/
theorem alignOn16_isLeast_iff (h : alignOn16 u = some v) :
    IsLeast {m | 16 ∣ m ∧ u.toNat ≤ m} v.toNat ↔ u.toNat ≤ 2 ^ 32 - 16 := by
  rw [toNat_alignOn16 h]
  constructor
  · rintro ⟨⟨-, hle⟩, -⟩
    omega
  · intro hu
    refine ⟨⟨Nat.dvd_mul_left _ _, by omega⟩, ?_⟩
    rintro m ⟨⟨k, rfl⟩, hm⟩
    omega

/-- The quotient of `convertSrcToDstInFrames` is that of the numbers. -/
theorem toNat_srcToDst (frames : UInt32) (h : ssSrc.rate ≠ 0) :
    ((frames.toUInt64 * ssDst.rate.toUInt64 + ssSrc.rate.toUInt64 - 1) /
      ssSrc.rate.toUInt64).toNat =
        (frames.toNat * ssDst.rate.toNat + ssSrc.rate.toNat - 1) / ssSrc.rate.toNat := by
  have hprod : frames.toNat * ssDst.rate.toNat ≤ (2 ^ 32 - 1) * (2 ^ 32 - 1) :=
    Nat.mul_le_mul (Nat.le_sub_one_of_lt frames.toNat_lt) (Nat.le_sub_one_of_lt ssDst.rate.toNat_lt)
  have hrate := ssSrc.rate.toNat_lt
  have hpos : 0 < ssSrc.rate.toNat := Nat.pos_of_ne_zero fun hzero => h (UInt32.toNat_inj.mp hzero)
  have hsum : (frames.toUInt64 * ssDst.rate.toUInt64 + ssSrc.rate.toUInt64).toNat =
      frames.toNat * ssDst.rate.toNat + ssSrc.rate.toNat := by
    rw [UInt64.toNat_add, toNat_mul_toUInt64, UInt32.toNat_toUInt64, Nat.mod_eq_of_lt (by omega)]
  have hone : (1 : UInt64) ≤ frames.toUInt64 * ssDst.rate.toUInt64 + ssSrc.rate.toUInt64 := by
    rw [UInt64.le_iff_toNat_le, hsum, UInt64.toNat_one]
    omega
  rw [UInt64.toNat_div, UInt64.toNat_sub_of_le _ _ hone, hsum, UInt32.toNat_toUInt64,
    UInt64.toNat_one]

/-- The guard of `convertSrcToDstInFrames` lets large quotients pass as negative numbers. -/
theorem toInt64_le_iff (q : UInt64) :
    q.toInt64 ≤ 0x7FFFFFFF ↔ q.toNat < 2 ^ 31 ∨ 2 ^ 63 ≤ q.toNat := by
  have hlt := q.toNat_lt
  have hint : q.toInt64.toInt = if 2 * q.toNat < 2 ^ 64 then (q.toNat : ℤ) else q.toNat - 2 ^ 64 :=
    BitVec.toInt_eq_toNat_cond q.toBitVec
  rw [Int64.le_iff_toInt_le, hint, show (0x7FFFFFFF : Int64).toInt = 2147483647 from rfl]
  split <;> omega

/-- The frames that are returned are the exact ones, unless these are too many for a signed
number. -/
theorem convertSrcToDstInFrames_iff
    (h : convertSrcToDstInFrames frames ssSrc ssDst = some dstFrames) :
    dstFrames.toNat = (frames.toNat * ssDst.rate.toNat + ssSrc.rate.toNat - 1) / ssSrc.rate.toNat ↔
      (frames.toNat * ssDst.rate.toNat + ssSrc.rate.toNat - 1) / ssSrc.rate.toNat < 2 ^ 31 := by
  unfold convertSrcToDstInFrames at h
  split at h
  case isTrue => exact absurd h (by simp)
  case isFalse hrate =>
    have hquotient := @toNat_srcToDst ssSrc ssDst frames hrate
    generalize (frames.toUInt64 * ssDst.rate.toUInt64 + ssSrc.rate.toUInt64 - 1) /
      ssSrc.rate.toUInt64 = q at h hquotient
    dsimp only at h
    split at h
    case isFalse => exact absurd h (by simp)
    case isTrue hguard =>
      obtain rfl := some.inj h
      rw [toInt64_le_iff] at hguard
      rw [← hquotient, UInt64.toNat_toUInt32]
      omega

/-- When the arithmetic is exact, for the values that pass the guards: the microseconds of frames if
they fit in 32 bits, their frames in turn and the bytes of frames always, the alignment if the next
multiple of 16 fits in 32 bits, and the frames at another rate if they fit in 31 bits. -/
theorem arithmetic_exact (audioBytesPerSample : UInt32 → UInt32) (ss ssDst : SampleSpec)
    (frames u : UInt32) :
    (∀ usec, ss.convertFramesToUsec audioBytesPerSample frames = some usec →
      (usec.toNat = frames.toNat * 1000000 / ss.rate.toNat ↔
        frames.toNat * 1000000 / ss.rate.toNat < 2 ^ 32) ∧
      (ss.convertUsecToframes usec).toNat = usec.toNat * ss.rate.toNat / 1000000 ∧
      ss.convertUsecToframes usec ≤ frames) ∧
    (∀ bytes, ss.convertFramesToBytes audioBytesPerSample frames = some bytes →
      bytes.toNat = frames.toNat * (ss.getFrameSize audioBytesPerSample).toNat ∧
      ss.convertBytesToFrames audioBytesPerSample bytes = some frames) ∧
    (∀ v, alignOn16 u = some v →
      (IsLeast {m | 16 ∣ m ∧ u.toNat ≤ m} v.toNat ↔ u.toNat ≤ 2 ^ 32 - 16)) ∧
    ∀ dstFrames, convertSrcToDstInFrames frames ss ssDst = some dstFrames →
      (dstFrames.toNat = (frames.toNat * ssDst.rate.toNat + ss.rate.toNat - 1) / ss.rate.toNat ↔
        (frames.toNat * ssDst.rate.toNat + ss.rate.toNat - 1) / ss.rate.toNat < 2 ^ 31) := by
  refine ⟨fun usec h => ⟨?_, ?_, ?_⟩, fun bytes => convertBytesToFrames_convertFramesToBytes,
    fun v => alignOn16_isLeast_iff, fun dstFrames => convertSrcToDstInFrames_iff⟩
  · rw [(toNat_convertFramesToUsec h).1]
    exact ⟨fun heq => heq ▸ Nat.mod_lt _ (by decide), Nat.mod_eq_of_lt⟩
  · have hle := convertUsecToframes_le h
    rw [toNat_convertUsecToframes]
    exact Nat.mod_eq_of_lt (Nat.lt_of_le_of_lt hle frames.toNat_lt)
  · rw [UInt32.le_iff_toNat_le, toNat_convertUsecToframes]
    exact Nat.le_trans (Nat.mod_le _ _) (convertUsecToframes_le h)

end Exact

theorem stereo_channelCount_lt : (2 : UInt32) < 32 := by decide

theorem stereo_length_channelsPolicy_le :
    [ChannelsPolicy.copy, .copy].length ≤ (2 : UInt32).toNat := by decide

/-- Stereo with 16 bits at 8 kHz. -/
def stereo8k : SampleSpec :=
  ⟨2, audioFormatPcm16Bit, 8000, [.copy, .copy], stereo_channelCount_lt,
    stereo_length_channelsPolicy_le⟩

/-- Sizes of samples of 16 and of 24 bits. -/
def audioBytesPerSample (format : UInt32) : UInt32 :=
  if format = audioFormatPcm16Bit then 2 else if format = audioFormatPcm8_24Bit then 4 else 0

/-- The microseconds of 34359999 frames at 8 kHz do not fit in 32 bits but pass the guard, and the next
multiple of 16 does not fit in 32 bits. -/
theorem arithmetic_not_exact :
    (∃ usec, stereo8k.convertFramesToUsec audioBytesPerSample 34359999 = some usec ∧
      usec.toNat ≠ 34359999 * 1000000 / 8000) ∧
    ∃ v, alignOn16 0xFFFFFFF1 = some v ∧
      ¬ IsLeast {m | 16 ∣ m ∧ (0xFFFFFFF1 : UInt32).toNat ≤ m} v.toNat :=
  ⟨⟨32579, by decide, by decide⟩, 0, by decide, fun h => absurd h.1.2 (by decide)⟩

end HardwareIntel.SampleSpecifications
