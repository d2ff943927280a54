import HardwareIntel.Topaz.LevelChoice
import HardwareIntel.Topaz.SlotOrderInt

/-!
# The periods that the encoder accepts

The driver brings the periods of I and IDR frames into a form in which the frames can be reordered: the
I frames are a whole number of groups apart, and the numbers of frames stay below `INT_MAX`. It bounds the
period of IDR frames first and rounds that of I frames up afterwards, though, and where there is no room to
round up it rounds to something that need not be a multiple. `valid_periods_iff` says which periods come
out right.
-/

namespace HardwareIntel.Topaz

/-- An `IMG_UINT32` that is passed as an `int`. -/
def asInt (x : UInt32) : ℤ := x.toInt32.toInt

/-- The state that the reordering of frames relies on. -/
def EncContext.ValidPeriods (ctx : EncContext) : Prop :=
  ctx.rc.bFrames = 0 ∨
    (0 < ctx.intraCnt.toNat ∧ ctx.rc.bFrames.toNat + 1 ∣ ctx.intraCnt.toNat ∧
      ctx.intraCnt.toNat * ctx.idrPeriod.toNat + 1 ≤ 2 ^ 31 - 1 ∧
      ctx.rc.bFrames.toNat + 2 ≤ ctx.slotsInUse.toNat) ∧
    ∀ n info, ∃ order info', Machine.getFrameDpyOrder n ctx.rc.bFrames.toNat (asInt ctx.intraCnt)
      (asInt ctx.idrPeriod) info = some (.frame order info')

/-! ### What the periods become -/

section Normalised

/-- The period of IDR frames, bounded. -/
def boundedIdr (c d : ℕ) : ℕ := if d = 0 ∨ 2 ^ 31 - 1 ≤ d * c then (2 ^ 31 - 1) / c else d

/-- The period of I frames, rounded up as far as there is room. -/
def roundedIntra (c p : ℕ) : ℕ :=
  if c % p = 0 then c
  else if 2 ^ 31 - 1 < c + (p - c % p) then 2 ^ 31 - 1 - p + c % p
  else c + (p - c % p)

variable (g : GopPeriods)

/-- The largest `int`. -/
theorem intMax_toNat : intMax.toNat = 2 ^ 31 - 1 := rfl

/-- The IDR period that is kept. -/
theorem boundIdr_idrPeriod :
    g.boundIdr.idrPeriod.toNat =
      if g.idrPeriod.toNat = 1 then 1 else boundedIdr g.intraCnt.toNat g.idrPeriod.toNat := by
  have hproduct : (g.idrPeriod.toUInt64 * g.intraCnt.toUInt64).toNat =
      g.idrPeriod.toNat * g.intraCnt.toNat := by
    refine Nat.mod_eq_of_lt ?_
    calc g.idrPeriod.toNat * g.intraCnt.toNat < 2 ^ 32 * 2 ^ 32 :=
          Nat.mul_lt_mul'' g.idrPeriod.toNat_lt g.intraCnt.toNat_lt
      _ = 2 ^ 64 := rfl
  have hlarge : intMax.toUInt64 ≤ g.idrPeriod.toUInt64 * g.intraCnt.toUInt64 ↔
      2 ^ 31 - 1 ≤ g.idrPeriod.toNat * g.intraCnt.toNat := by
    rw [UInt64.le_iff_toNat_le, hproduct]
    rfl
  have hone : 1 < g.idrPeriod ↔ 1 < g.idrPeriod.toNat := UInt32.lt_iff_toNat_lt
  have hzero : g.idrPeriod = 0 ↔ g.idrPeriod.toNat = 0 := by
    rw [← UInt32.toNat_inj]
    rfl
  have hdiv : (intMax / g.intraCnt).toNat = (2 ^ 31 - 1) / g.intraCnt.toNat := UInt32.toNat_div ..
  rw [GopPeriods.boundIdr, boundedIdr]
  by_cases hidr : g.idrPeriod = 0
  · have hidr' := hzero.mp hidr
    rw [if_pos hidr, if_neg (by omega), if_pos (.inl hidr')]
    exact hdiv
  · have hidr' := mt hzero.mpr hidr
    rw [if_neg hidr]
    by_cases hmany : 1 < g.idrPeriod
    · have hmany' := hone.mp hmany
      rw [if_pos hmany, if_neg (show g.idrPeriod.toNat ≠ 1 by omega)]
      by_cases hle : intMax.toUInt64 ≤ g.idrPeriod.toUInt64 * g.intraCnt.toUInt64
      · rw [if_pos hle, if_pos (.inr (hlarge.mp hle))]
        exact hdiv
      · rw [if_neg hle, if_neg fun h => h.elim hidr' fun h => hle (hlarge.mpr h)]
    · have hmany' := mt hone.mpr hmany
      have heq : g.idrPeriod.toNat = 1 := by omega
      rw [if_neg hmany, if_pos heq, heq]

/-- The intra period that is kept. -/
theorem roundIntra_intraCnt (hpos : 0 < g.ipCount.toNat) (hle : g.ipCount.toNat ≤ 4) :
    g.roundIntra.intraCnt.toNat = roundedIntra g.intraCnt.toNat g.ipCount.toNat := by
  have hmod : (g.intraCnt % g.ipCount).toNat = g.intraCnt.toNat % g.ipCount.toNat :=
    UInt32.toNat_mod ..
  have hlt := Nat.mod_lt g.intraCnt.toNat hpos
  have hsub : (intMax - g.ipCount).toNat = 2 ^ 31 - 1 - g.ipCount.toNat := by
    rw [UInt32.toNat_sub_of_le _ _ (UInt32.le_iff_toNat_le.mpr (by rw [intMax_toNat]; omega))]
    rfl
  have hbound : (intMax - g.ipCount + g.intraCnt % g.ipCount).toNat =
      2 ^ 31 - 1 - g.ipCount.toNat + g.intraCnt.toNat % g.ipCount.toNat := by
    rw [UInt32.toNat_add, hsub, hmod]
    exact Nat.mod_eq_of_lt (by omega)
  have hzero : g.intraCnt % g.ipCount ≠ 0 ↔ g.intraCnt.toNat % g.ipCount.toNat ≠ 0 := by
    rw [Ne, ← UInt32.toNat_inj, hmod]
    rfl
  rw [GopPeriods.roundIntra, roundedIntra]
  by_cases hne : g.intraCnt.toNat % g.ipCount.toNat = 0
  · rw [if_neg (mt hzero.mp (not_not.mpr hne)), if_pos hne]
  · rw [if_pos (hzero.mpr hne), if_neg hne]
    have hroom : intMax - g.ipCount + g.intraCnt % g.ipCount < g.intraCnt ↔
        2 ^ 31 - 1 < g.intraCnt.toNat + (g.ipCount.toNat - g.intraCnt.toNat % g.ipCount.toNat) := by
      rw [UInt32.lt_iff_toNat_lt, hbound]
      omega
    have hstep : (g.ipCount - g.intraCnt % g.ipCount).toNat =
        g.ipCount.toNat - g.intraCnt.toNat % g.ipCount.toNat := by
      rw [UInt32.toNat_sub_of_le _ _ (UInt32.le_iff_toNat_le.mpr (by rw [hmod]; omega)), hmod]
    by_cases hlarge : intMax - g.ipCount + g.intraCnt % g.ipCount < g.intraCnt
    · rw [if_pos hlarge, if_pos (hroom.mp hlarge)]
      exact hbound
    · have hlarge' := mt hroom.mpr hlarge
      rw [if_neg hlarge, if_neg hlarge']
      refine (UInt32.toNat_add _ _).trans ?_
      rw [hstep]
      exact Nat.mod_eq_of_lt (by omega)

end Normalised

/-! ### Which periods come out right -/

/-- The period of I frames is a multiple of the distance `p` of P frames, or is rounded to one, and the
bounded period of IDR frames still fits. A multiple from `2 ^ 31` on is a negative `int`. -/
def RightPeriods (p c d : ℕ) : Prop :=
  if c % p = 0 then c < 2 ^ 31 ∨ d ≠ 1 ∧ p ≠ 3
  else if 2 ^ 31 - 1 < c + (p - c % p) then p ∣ 2 ^ 31 - 1 - p + c % p
  else (c + (p - c % p)) * boundedIdr c d < 2 ^ 31 - 1

section Right

variable {p c d : ℕ} (hp : p = 2 ∨ p = 3 ∨ p = 4) (hc : 2 ≤ c)
include hp hc

/-- The bounded period fits if that of the I frames is a multiple. -/
theorem mul_boundedIdr_lt (hdvd : c % p = 0) (hlt : c < 2 ^ 31) :
    c * (if d = 1 then 1 else boundedIdr c d) < 2 ^ 31 - 1 := by
  have hne : ∀ k, c * k ≠ 2 ^ 31 - 1 := by
    intro k heq
    have hmod : c * k % p = 0 := by rw [Nat.mul_mod, hdvd, Nat.zero_mul, Nat.zero_mod]
    rw [heq] at hmod
    obtain rfl | rfl | rfl := hp <;> revert hmod <;> decide
  split
  · have := hne 1
    omega
  · rw [boundedIdr]
    split
    · exact lt_of_le_of_ne (Nat.mul_div_le _ _) (hne _)
    · rename_i hd
      rw [Nat.mul_comm]
      omega

/-- When rounding leads to the right periods. -/
theorem rounded_iff :
    (p ∣ roundedIntra c p ∧ roundedIntra c p * (if d = 1 then 1 else boundedIdr c d) < 2 ^ 31 - 1 ∧
      (2 ^ 31 ≤ roundedIntra c p → p ≠ 3)) ↔ RightPeriods p c d := by
  rw [RightPeriods, roundedIntra]
  by_cases hmod : c % p = 0
  · rw [if_pos hmod, if_pos hmod, and_iff_right (Nat.dvd_of_mod_eq_zero hmod)]
    by_cases hlt : c < 2 ^ 31
    · exact iff_of_true ⟨mul_boundedIdr_lt hp hc hmod hlt, fun hge => absurd hlt (not_lt.mpr hge)⟩
        (.inl hlt)
    · by_cases hone : d = 1
      · rw [if_pos hone]
        exact iff_of_false (fun h => by omega) (fun h => by omega)
      · have hzero : boundedIdr c d = 0 := by
          rw [boundedIdr]
          split
          · exact Nat.div_eq_of_lt (by omega)
          · rename_i hd
            have htwo : 2 ≤ d := by omega
            have hmul := Nat.mul_le_mul htwo (not_lt.mp hlt)
            omega
        rw [if_neg hone, hzero]
        omega
  · rw [if_neg hmod, if_neg hmod]
    have hlt := Nat.mod_lt c (show 0 < p by omega)
    by_cases hroom : 2 ^ 31 - 1 < c + (p - c % p)
    · rw [if_pos hroom, if_pos hroom]
      have hone : (if d = 1 then 1 else boundedIdr c d) ≤ 1 := by
        split
        · exact le_rfl
        · rw [boundedIdr]
          split
          · exact Nat.le_of_lt_succ (Nat.div_lt_of_lt_mul (by omega))
          · rename_i hd
            have htwo : 2 ≤ d := by omega
            have hmul := Nat.mul_le_mul htwo (show 2 ^ 31 - 5 ≤ c by omega)
            omega
      have hle := Nat.mul_le_mul_left (2 ^ 31 - 1 - p + c % p) hone
      exact and_iff_left ⟨by omega, fun hge => by omega⟩
    · rw [if_neg hroom, if_neg hroom]
      have hdvd : p ∣ c + (p - c % p) := by
        obtain rfl | rfl | rfl := hp <;> omega
      have heq : (if d = 1 then 1 else boundedIdr c d) = boundedIdr c d := by
        split
        · rename_i hone
          subst hone
          rw [boundedIdr, if_neg (by omega)]
        · rfl
      rw [and_iff_right hdvd, heq]
      exact and_iff_left fun hge => by omega

end Right

/-! ### The state that is reached -/

/-- The periods of the client as the function takes them over. -/
def periodsOf (p : EncSequenceParameterBuffer) : GopPeriods :=
  GopPeriods.normalise ⟨p.intraIdrPeriod, p.intraPeriod, p.ipPeriod⟩

namespace EncContext

variable (ctx : EncContext) (p : EncSequenceParameterBuffer)

/-- What the context holds after parameters that are accepted. -/
theorem processSequenceParam_success (h : (ctx.processSequenceParam p).1 = .success) :
    (1 ≤ p.ipPeriod.toNat ∧ p.ipPeriod.toNat ≤ 4) ∧
      (ctx.processSequenceParam p).2.idrPeriod = (periodsOf p).idrPeriod ∧
      (ctx.processSequenceParam p).2.intraCnt = (periodsOf p).intraCnt ∧
      (ctx.processSequenceParam p).2.slotsInUse = ((periodsOf p).ipCount + 1).toUInt8 ∧
      (ctx.processSequenceParam p).2.rc.bFrames =
        if ctx.rc.rcMode = .vcm then 0 else ((periodsOf p).ipCount - 1).toUInt16 := by
  by_cases hip : 4 < p.ipPeriod ∨ p.ipPeriod = 0
  · rw [processSequenceParam, if_pos hip] at h
    nomatch h
  · rw [processSequenceParam, if_neg hip]
    have hle : ¬4 < p.ipPeriod.toNat := fun hlt => hip (.inl (UInt32.lt_iff_toNat_lt.mpr hlt))
    have hne : p.ipPeriod.toNat ≠ 0 := fun hzero => hip (.inr (UInt32.toNat_inj.mp hzero))
    obtain ⟨hidr, hintra, hslots, hrc⟩ := (ctx.takeOver p).setPeriods_fields (periodsOf p)
    obtain ⟨hidr', hintra', hslots', hmode⟩ :=
      ((ctx.takeOver p).setPeriods (periodsOf p)).setBitRate_fields p.bitsPerSecond
    obtain ⟨hidr'', hintra'', hslots'', hbframes⟩ := (((ctx.takeOver p).setPeriods
      (periodsOf p)).setBitRate p.bitsPerSecond).finish_fields (periodsOf p).ipCount p
    rw [hmode, hrc] at hbframes
    exact ⟨⟨by omega, by omega⟩, hidr''.trans (hidr'.trans hidr), hintra''.trans (hintra'.trans hintra),
      hslots''.trans (hslots'.trans hslots), hbframes⟩

end EncContext

/-- A word read as an `int`. -/
theorem asInt_eq (x : UInt32) :
    asInt x = if 2 * x.toNat < 2 ^ 32 then (x.toNat : ℤ) else x.toNat - 2 ^ 32 :=
  x.toBitVec.toInt_eq_toNat_cond

section PeriodsOf

variable {p : EncSequenceParameterBuffer}

/-- Bounding the IDR period changes nothing else. -/
theorem boundIdr_fields (g : GopPeriods) :
    g.boundIdr.intraCnt = g.intraCnt ∧ g.boundIdr.ipCount = g.ipCount := by
  rw [GopPeriods.boundIdr]
  repeat' split
  all_goals exact ⟨rfl, rfl⟩

/-- Rounding the intra period changes nothing else. -/
theorem roundIntra_fields (g : GopPeriods) :
    g.roundIntra.idrPeriod = g.idrPeriod ∧ g.roundIntra.ipCount = g.ipCount := by
  rw [GopPeriods.roundIntra]
  repeat' split
  all_goals exact ⟨rfl, rfl⟩

/-- The distance of the P frames. -/
theorem periodsOf_ipCount :
    (periodsOf p).ipCount = if p.intraPeriod.toNat = 1 then 1 else p.ipPeriod := by
  have hone : p.intraPeriod = 1 ↔ p.intraPeriod.toNat = 1 := by
    rw [← UInt32.toNat_inj]
    rfl
  rw [periodsOf, GopPeriods.normalise]
  by_cases hzero : p.intraPeriod = 0
  · have hne : p.intraPeriod.toNat ≠ 1 := by rw [Ne, ← hone, hzero]; decide
    rw [if_pos hzero, if_neg hne]
  · rw [if_neg hzero]
    by_cases h : p.intraPeriod = 1
    · rw [if_pos h, if_pos (hone.mp h)]
    · rw [if_neg h, if_neg (mt hone.mpr h), (roundIntra_fields _).2, (boundIdr_fields _).2]

/-- A distance of one stays one. -/
theorem periodsOf_ipCount_of_one (hp : p.ipPeriod.toNat = 1) : (periodsOf p).ipCount = 1 := by
  rw [periodsOf_ipCount]
  split
  · rfl
  · exact UInt32.toNat_inj.mp hp

/-- Without a period of I frames there is as long a one as possible. -/
theorem periodsOf_of_zero (hq : p.ipPeriod.toNat = 2 ∨ p.ipPeriod.toNat = 3 ∨ p.ipPeriod.toNat = 4)
    (hzero : p.intraPeriod.toNat = 0) :
    (periodsOf p).idrPeriod.toNat = 1 ∧ 0 < (periodsOf p).intraCnt.toNat ∧
      p.ipPeriod.toNat ∣ (periodsOf p).intraCnt.toNat ∧
      (periodsOf p).intraCnt.toNat < 2 ^ 31 - 1 := by
  have hzero' : p.intraPeriod = 0 := UInt32.toNat_inj.mp hzero
  have hcases : p.ipPeriod = 2 ∨ p.ipPeriod = 3 ∨ p.ipPeriod = 4 := by
    rw [← UInt32.toNat_inj, ← UInt32.toNat_inj, ← UInt32.toNat_inj]
    exact hq
  rw [periodsOf, GopPeriods.normalise, if_pos hzero']
  dsimp only
  rw [if_neg (show p.ipPeriod ≠ 1 by rintro h; rw [h] at hq; revert hq; decide)]
  obtain h | h | h := hcases <;> rw [h] <;> decide

/-- The periods of parameters with more than intra frames. -/
theorem periodsOf_of_two_le (hc : 2 ≤ p.intraPeriod.toNat) (hpos : 0 < p.ipPeriod.toNat)
    (hle : p.ipPeriod.toNat ≤ 4) :
    (periodsOf p).idrPeriod.toNat =
        (if p.intraIdrPeriod.toNat = 1 then 1
        else boundedIdr p.intraPeriod.toNat p.intraIdrPeriod.toNat) ∧
      (periodsOf p).intraCnt.toNat = roundedIntra p.intraPeriod.toNat p.ipPeriod.toNat := by
  have hzero : p.intraPeriod ≠ 0 := fun h => by
    rw [h] at hc
    exact absurd hc (by decide)
  have hone : p.intraPeriod ≠ 1 := fun h => by
    rw [h] at hc
    exact absurd hc (by decide)
  rw [periodsOf, GopPeriods.normalise, if_neg hzero, if_neg hone, (roundIntra_fields _).1]
  obtain ⟨hintra, hcount⟩ := boundIdr_fields ⟨p.intraIdrPeriod, p.intraPeriod, p.ipPeriod⟩
  refine ⟨boundIdr_idrPeriod _, ?_⟩
  rw [roundIntra_intraCnt _ (by rw [hcount]; exact hpos) (by rw [hcount]; exact hle), hintra, hcount]

end PeriodsOf

section Valid

variable {ctx : EncContext} {q : ℕ}

/-- The machine reorders frames for these periods. -/
theorem sound_asInt (hq : q = 2 ∨ q = 3 ∨ q = 4) (hpos : 0 < ctx.intraCnt.toNat)
    (hdvd : (q : ℤ) ∣ asInt ctx.intraCnt)
    (hlt : ctx.intraCnt.toNat * ctx.idrPeriod.toNat < 2 ^ 31 - 1) :
    Machine.Sound ((q - 1 : ℕ) : ℤ) (asInt ctx.intraCnt) (asInt ctx.idrPeriod) := by
  have hintra := ctx.intraCnt.toNat_lt
  have hgroup : ((q - 1 : ℕ) : ℤ) + 1 = q := by omega
  refine ⟨by omega, by omega, ?_, ?_, ?_, hgroup.symm ▸ hdvd, fun hne => ?_⟩
  · rw [asInt_eq]
    split <;> omega
  · rw [asInt_eq]
    split <;> omega
  · rw [asInt_eq]
    split <;> omega
  · have hidrpos : 0 < ctx.idrPeriod.toNat := by
      rw [asInt_eq] at hne
      refine Nat.pos_of_ne_zero fun hzero => hne ?_
      rw [hzero]
      rfl
    have hle₁ := Nat.le_mul_of_pos_right ctx.intraCnt.toNat hidrpos
    have hle₂ := Nat.le_mul_of_pos_left ctx.idrPeriod.toNat hpos
    rw [asInt_eq, asInt_eq, if_pos (by omega), if_pos (by omega)]
    have hcast : ((ctx.intraCnt.toNat * ctx.idrPeriod.toNat : ℕ) : ℤ) =
        (ctx.intraCnt.toNat : ℤ) * ctx.idrPeriod.toNat := Nat.cast_mul _ _
    omega

/-- Whether the driver's test of the period agrees with divisibility. -/
theorem dvd_asInt_iff (hq : q = 2 ∨ q = 3 ∨ q = 4) (hdvd : q ∣ ctx.intraCnt.toNat) :
    (q : ℤ) ∣ asInt ctx.intraCnt ↔ (2 ^ 31 ≤ ctx.intraCnt.toNat → q ≠ 3) := by
  rw [asInt_eq]
  obtain rfl | rfl | rfl := hq
  · split <;> omega
  · split <;> omega
  · split <;> omega

/-- The valid periods, for the distances that are accepted. -/
theorem validPeriods_iff (hq : q = 2 ∨ q = 3 ∨ q = 4) (hb : ctx.rc.bFrames.toNat = q - 1)
    (hslots : ctx.slotsInUse.toNat = q + 1) (hpos : 0 < ctx.intraCnt.toNat) :
    ctx.ValidPeriods ↔ q ∣ ctx.intraCnt.toNat ∧
      ctx.intraCnt.toNat * ctx.idrPeriod.toNat < 2 ^ 31 - 1 ∧
      (2 ^ 31 ≤ ctx.intraCnt.toNat → q ≠ 3) := by
  have hne : ctx.rc.bFrames ≠ 0 := fun hzero => by
    rw [hzero] at hb
    change 0 = q - 1 at hb
    omega
  have hgroup : q - 1 + 1 = q := by omega
  rw [EncContext.ValidPeriods, or_iff_right hne, hb, hslots, hgroup]
  refine ⟨fun ⟨⟨_, hdvd, hlt, _⟩, hframes⟩ => ⟨hdvd, by omega, ?_⟩,
    fun ⟨hdvd, hlt, hthree⟩ => ⟨⟨hpos, hdvd, by omega, by omega⟩, fun n info => ?_⟩⟩
  · rw [← dvd_asInt_iff hq hdvd]
    obtain ⟨order, info', hframe⟩ := hframes 0 ⟨0, fun _ => 0, fun _ => 0, .intraIdr, 0⟩
    have hdvd' := Machine.dvd_of_getFrameDpyOrder (by omega) (by omega) hframe
    have hgroup' : ((q - 1 : ℕ) : ℤ) + 1 = q := by omega
    rwa [hgroup'] at hdvd'
  · exact (sound_asInt hq hpos ((dvd_asInt_iff hq hdvd).mpr hthree) hlt).getFrameDpyOrder n info

end Valid

/-- The periods of a client that come out right. Without B frames there is nothing to reorder. -/
def EncSequenceParameterBuffer.SoundPeriods (p : EncSequenceParameterBuffer) (mode : RcMode) : Prop :=
  mode = .vcm ∨ p.ipPeriod.toNat = 1 ∨ p.intraPeriod.toNat ≤ 1 ∨
    RightPeriods p.ipPeriod.toNat p.intraPeriod.toNat p.intraIdrPeriod.toNat

/-- The periods that are accepted suit the reordering of frames exactly if they come out right. -/
theorem valid_periods_iff (ctx : EncContext) (p : EncSequenceParameterBuffer)
    (haccepts : (ctx.processSequenceParam p).1 = .success) :
    (ctx.processSequenceParam p).2.ValidPeriods ↔ p.SoundPeriods ctx.rc.rcMode := by
  obtain ⟨⟨hone, hfour⟩, hidr, hintra, hslots, hbframes⟩ := ctx.processSequenceParam_success p haccepts
  rw [EncSequenceParameterBuffer.SoundPeriods]
  by_cases hvcm : ctx.rc.rcMode = .vcm
  · rw [if_pos hvcm] at hbframes
    exact iff_of_true (.inl hbframes) (.inl hvcm)
  rw [if_neg hvcm] at hbframes
  rw [or_iff_right hvcm]
  have hnone : (periodsOf p).ipCount = 1 → (ctx.processSequenceParam p).2.ValidPeriods := by
    intro hcount
    rw [hcount] at hbframes
    exact .inl hbframes
  by_cases hp : p.ipPeriod.toNat = 1
  · exact iff_of_true (hnone (periodsOf_ipCount_of_one hp)) (.inl hp)
  by_cases hc : p.intraPeriod.toNat = 1
  · have hcount : (periodsOf p).ipCount = 1 := by rw [periodsOf_ipCount, if_pos hc]
    exact iff_of_true (hnone hcount) (.inr (.inl hc.le))
  have hcount : (periodsOf p).ipCount = p.ipPeriod := by rw [periodsOf_ipCount, if_neg hc]
  have hq : p.ipPeriod.toNat = 2 ∨ p.ipPeriod.toNat = 3 ∨ p.ipPeriod.toNat = 4 := by omega
  have hb : (ctx.processSequenceParam p).2.rc.bFrames.toNat = p.ipPeriod.toNat - 1 := by
    have hsub : (p.ipPeriod - 1).toNat = p.ipPeriod.toNat - 1 :=
      UInt32.toNat_sub_of_le _ _ (UInt32.le_iff_toNat_le.mpr hone)
    rw [hbframes, hcount, UInt32.toNat_toUInt16, hsub]
    exact Nat.mod_eq_of_lt (by omega)
  have hslots' : (ctx.processSequenceParam p).2.slotsInUse.toNat = p.ipPeriod.toNat + 1 := by
    rw [hslots, hcount, UInt32.toNat_toUInt8, UInt32.toNat_add]
    change (p.ipPeriod.toNat + 1) % 2 ^ 32 % 2 ^ 8 = p.ipPeriod.toNat + 1
    omega
  by_cases hzero : p.intraPeriod.toNat = 0
  · obtain ⟨hidr', hpos, hdvd, hlt⟩ := periodsOf_of_zero hq hzero
    rw [← hintra] at hpos hdvd hlt
    rw [← hidr] at hidr'
    refine iff_of_true ((validPeriods_iff hq hb hslots' hpos).mpr ⟨hdvd, ?_, fun hge => ?_⟩)
      (.inr (.inl (by omega)))
    · rw [hidr', Nat.mul_one]
      exact hlt
    · omega
  · obtain ⟨hidr', hintra'⟩ := periodsOf_of_two_le (p := p) (by omega) (by omega) (by omega)
    rw [← hintra] at hintra'
    rw [← hidr] at hidr'
    have hpos : 0 < (ctx.processSequenceParam p).2.intraCnt.toNat := by
      rw [hintra', roundedIntra]
      split
      · omega
      · split <;> omega
    rw [validPeriods_iff hq hb hslots' hpos, hintra', hidr', rounded_iff hq (by omega),
      or_iff_right hp, or_iff_right (by omega)]

/-- A sequence with the given periods. -/
def sequenceWith (intraPeriod intraIdrPeriod ipPeriod : UInt32) : EncSequenceParameterBuffer :=
  ⟨10, intraPeriod, intraIdrPeriod, ipPeriod, 64000, 1, 0, 0, 0, 0, 0, 0, 0⟩

/-- I frames every 30 frames, with two B frames between P frames and a single IDR frame. -/
theorem thirty_frames_valid :
    ((qcifContext 64000).processSequenceParam (sequenceWith 30 0 3)).2.ValidPeriods := by
  refine (valid_periods_iff (qcifContext 64000) (sequenceWith 30 0 3) (by decide)).mpr ?_
  exact .inr (.inr (.inr (.inl (by decide))))

/-- The IDR period that is bounded for a period of 3 frames does not fit one of 4. -/
theorem short_periods_overflow :
    ((qcifContext 64000).processSequenceParam (sequenceWith 3 0 2)).1 = .success ∧
      ¬((qcifContext 64000).processSequenceParam (sequenceWith 3 0 2)).2.ValidPeriods := by
  refine ⟨by decide, ?_⟩
  rintro (hnone | ⟨⟨-, -, hlt, -⟩, -⟩)
  · exact absurd hnone (by decide)
  · exact absurd hlt (by decide)

end HardwareIntel.Topaz
