import HardwareIntel.Topaz.SequenceParam

/-!
# The level that the encoder chooses

A level of H.264 bounds the size of the frames, the decoded picture buffer, the macroblocks for each
second, and the bit rate. `tng__H264ES_calculate_level` looks for the lowest level for each of the first
three and takes the highest of these, so `level_le_iff` holds: the level is at most a given one exactly if
that one suffices. The bit rate is never looked at, since its ladder is given the frame rate.
`level_sufficient_iff` says which bit rates the level happens to allow.
-/

namespace HardwareIntel.Topaz

/-- What a level allows: a row of the table of level limits. -/
structure LevelLimits where
  maxMbps : ℕ
  maxFs : ℕ
  maxDpbMbs : ℕ
  maxBr : ℕ

def ShLevel.limits : ShLevel → LevelLimits
  | .level10 => ⟨1485, 99, 396, 64000⟩
  | .level1B => ⟨1485, 99, 396, 128000⟩
  | .level11 => ⟨3000, 396, 900, 192000⟩
  | .level12 => ⟨6000, 396, 2376, 384000⟩
  | .level13 => ⟨11880, 396, 2376, 768000⟩
  | .level20 => ⟨11880, 396, 2376, 2000000⟩
  | .level21 => ⟨19800, 792, 4752, 4000000⟩
  | .level22 => ⟨20250, 1620, 8100, 4000000⟩
  | .level30 => ⟨40500, 1620, 8100, 10000000⟩
  | .level31 => ⟨108000, 3600, 18000, 14000000⟩
  | .level32 => ⟨216000, 5120, 20480, 20000000⟩
  | .level40 => ⟨245760, 8192, 32768, 20000000⟩
  | .level41 => ⟨245760, 8192, 32768, 50000000⟩
  | .level42 => ⟨522240, 8704, 34816, 50000000⟩
  | .level50 => ⟨589824, 22080, 110400, 135000000⟩
  | .level51 => ⟨983040, 36864, 184320, 240000000⟩

/-- What a stream needs. -/
structure StreamNeeds where
  fs : ℕ
  dpbMbs : ℕ
  mbps : ℕ
  br : ℕ

/-- The level suffices but for the bit rate. -/
structure ShLevel.Holds (l : ShLevel) (s : StreamNeeds) : Prop where
  fs : s.fs ≤ l.limits.maxFs
  dpbMbs : s.dpbMbs ≤ l.limits.maxDpbMbs
  mbps : s.mbps ≤ l.limits.maxMbps

def ShLevel.Admits (l : ShLevel) (s : StreamNeeds) : Prop := l.Holds s ∧ s.br ≤ l.limits.maxBr

/-- The highest level allows the most. -/
theorem ShLevel.limits_le (l : ShLevel) : l.limits.maxFs ≤ 36864 ∧ l.limits.maxDpbMbs ≤ 184320 ∧
    l.limits.maxMbps ≤ 983040 ∧ l.limits.maxBr ≤ 240000000 := by
  cases l <;> decide

/-- No level is above 5.1. -/
theorem ShLevel.value_le (l : ShLevel) : l.value ≤ ShLevel.level51.value := by
  cases l <;> decide

/-- Higher levels allow higher bit rates. -/
theorem maxBr_mono {l l' : ShLevel} (h : l ≠ .level1B) (h' : l' ≠ .level1B)
    (hle : l.value ≤ l'.value) : l.limits.maxBr ≤ l'.limits.maxBr := by
  revert h h' hle
  cases l <;> cases l' <;> decide

/-! ### Ladders -/

variable {steps : List (ℕ × ShLevel)} {lowest : ShLevel}

/-- A bound below all steps. -/
theorem le_ladder {k : ℕ} (v : UInt32) (hlowest : k ≤ lowest.value)
    (hsteps : ∀ s ∈ steps, k ≤ s.2.value) : k ≤ (ladder steps lowest v).value := by
  rw [ladder]
  cases hfind : steps.find? fun s => s.1 < v.toNat with
  | none => exact hlowest
  | some s => exact hsteps s (List.mem_of_find?_eq_some hfind)

/-- A ladder is at most at a step if the steps above it are not reached. -/
theorem ladder_le_iff {k : ℕ} (v : UInt32)
    (hsorted : steps.Pairwise fun s t => t.1 ≤ s.1 ∧ t.2.value ≤ s.2.value)
    (hlowest : lowest.value ≤ k) :
    (ladder steps lowest v).value ≤ k ↔ ∀ s ∈ steps, k < s.2.value → v.toNat ≤ s.1 := by
  induction steps with
  | nil => exact iff_of_true hlowest fun s hs => absurd hs List.not_mem_nil
  | cons s steps ih =>
    obtain ⟨hfirst, hrest⟩ := List.pairwise_cons.mp hsorted
    rw [List.forall_mem_cons]
    by_cases hv : s.1 < v.toNat
    · have hladder : ladder (s :: steps) lowest v = s.2 := by
        rw [ladder, List.find?_cons_of_pos (by exact decide_eq_true hv)]
        rfl
      rw [hladder]
      refine ⟨fun hle => ⟨fun hlt => absurd hle (not_le.mpr hlt), fun t ht hlt => ?_⟩, fun h => ?_⟩
      · exact absurd ((hfirst t ht).2.trans hle) (not_le.mpr hlt)
      · exact not_lt.mp fun hlt => absurd (h.1 hlt) (not_le.mpr hv)
    · have hladder : ladder (s :: steps) lowest v = ladder steps lowest v := by
        rw [ladder, List.find?_cons_of_neg (by exact fun h => hv (of_decide_eq_true h))]
        rfl
      rw [hladder, ih hrest]
      exact (and_iff_right fun _ => not_lt.mp hv).symm

/-- The higher of two levels. -/
theorem max_value (a b : ShLevel) : (a.max b).value = Nat.max a.value b.value := by
  rw [ShLevel.max]
  split
  · exact (Nat.max_eq_left (by omega)).symm
  · exact (Nat.max_eq_right (by omega)).symm

/-- The higher level is bounded if both are. -/
theorem max_value_le_iff {a b : ShLevel} {k : ℕ} : (a.max b).value ≤ k ↔ a.value ≤ k ∧ b.value ≤ k := by
  rw [max_value]
  exact Nat.max_le

/-- A limit is where the first step above a level is. -/
def IsLimit (steps : List (ℕ × ShLevel)) (k limit : ℕ) : Prop :=
  (∀ s ∈ steps, k < s.2.value → limit ≤ s.1) ∧ ∃ s ∈ steps, k < s.2.value ∧ s.1 = limit

instance decidableIsLimit (steps : List (ℕ × ShLevel)) (k limit : ℕ) :
    Decidable (IsLimit steps k limit) :=
  inferInstanceAs (Decidable (_ ∧ _))

/-- A ladder stays below a level up to the level's limit. -/
theorem IsLimit.ladder_le_iff {k limit : ℕ} (h : IsLimit steps k limit) (v : UInt32)
    (hsorted : steps.Pairwise fun s t => t.1 ≤ s.1 ∧ t.2.value ≤ s.2.value)
    (hlowest : lowest.value ≤ k) : (ladder steps lowest v).value ≤ k ↔ v.toNat ≤ limit := by
  rw [HardwareIntel.Topaz.ladder_le_iff v hsorted hlowest]
  obtain ⟨hmin, s, hs, hlt, rfl⟩ := h
  exact ⟨fun hall => hall s hs hlt, fun hle t ht hlt' => hle.trans (hmin t ht hlt')⟩

section Steps

variable {l : ShLevel} (h1B : l ≠ .level1B) (h51 : l ≠ .level51) (v : UInt32)
include h1B

/-- No level is below 1.0. -/
theorem ten_le_value : ShLevel.level10.value ≤ l.value := by
  cases l with
  | level1B => exact absurd rfl h1B
  | _ => decide

include h51

/-- The thresholds are the limits of the levels. -/
theorem isLimit_limits : IsLimit frameSizeSteps l.value l.limits.maxFs ∧
    IsLimit dpbSteps l.value l.limits.maxDpbMbs ∧ IsLimit mbsSteps l.value l.limits.maxMbps := by
  cases l with
  | level1B => exact absurd rfl h1B
  | level51 => exact absurd rfl h51
  | _ => decide

/-- The frame size, by the level's limit. -/
theorem frameSize_le_iff :
    (ladder frameSizeSteps .level10 v).value ≤ l.value ↔ v.toNat ≤ l.limits.maxFs :=
  (isLimit_limits h1B h51).1.ladder_le_iff v (by decide) (ten_le_value h1B)

/-- The picture buffer, by the level's limit. -/
theorem dpb_le_iff :
    (ladder dpbSteps .level10 v).value ≤ l.value ↔ v.toNat ≤ l.limits.maxDpbMbs :=
  (isLimit_limits h1B h51).2.1.ladder_le_iff v (by decide) (ten_le_value h1B)

/-- The rate, by the level's limit. -/
theorem mbs_le_iff : (ladder mbsSteps .level10 v).value ≤ l.value ↔ v.toNat ≤ l.limits.maxMbps :=
  (isLimit_limits h1B h51).2.2.ladder_le_iff v (by decide) (ten_le_value h1B)

/-- A number of macroblocks is much less than a bit rate. -/
theorem bitRate_le (hv : v.toNat ≤ l.limits.maxMbps) :
    (ladder bitRateSteps .level10 v).value ≤ l.value := by
  have hmin : ∀ s ∈ bitRateSteps, l.value < s.2.value → l.limits.maxMbps ≤ s.1 := by
    cases l with
    | level1B => exact absurd rfl h1B
    | level51 => exact absurd rfl h51
    | _ => decide
  rw [ladder_le_iff v (by decide) (ten_le_value h1B)]
  exact fun s hs hlt => hv.trans (hmin s hs hlt)

end Steps

/-! ### The level of a context -/

namespace EncContext

variable (ctx : EncContext)

/-- Frames are made of whole macroblocks, as `tng_CreateContext` rounds them up to. -/
structure Framed : Prop where
  width_pos : 0 < ctx.width.toNat
  height_pos : 0 < ctx.frameHeight.toNat
  width_aligned : 16 ∣ ctx.width.toNat
  height_aligned : 16 ∣ ctx.frameHeight.toNat

/-- The macroblocks of a frame. -/
def frameMbs : ℕ := ctx.width.toNat / 16 * (ctx.frameHeight.toNat / 16)

/-- What the stream needs with a number of frames in the decoded picture buffer. -/
def needs (frames : ℕ) : StreamNeeds :=
  ⟨ctx.frameMbs, ctx.frameMbs * frames, ctx.frameMbs * ctx.rc.frameRate.toNat,
    ctx.rc.bitsPerSecond.toNat⟩

/-- The level suffices for the stream, also for its bit rate if that is controlled. -/
def LevelSuffices (l : ShLevel) : Prop :=
  l.Holds (ctx.needs ctx.maxNumRefFrames.toNat) ∧
    (ctx.rc.rcEnable = true → ctx.rc.bitsPerSecond.toNat ≤ l.limits.maxBr)

/-- The macroblocks of a frame. -/
theorem mbf_toNat (h : ctx.width.toNat * ctx.frameHeight.toNat < 2 ^ 31) :
    ctx.mbf.toNat = ctx.width.toNat * ctx.frameHeight.toNat / 256 := by
  have hproduct : (ctx.width.toUInt32.toInt32 * ctx.frameHeight.toUInt32.toInt32).toBitVec.toNat =
      ctx.width.toNat * ctx.frameHeight.toNat := by
    have hmul : (ctx.width.toUInt32.toInt32 * ctx.frameHeight.toUInt32.toInt32).toBitVec.toNat =
        (ctx.width.toNat * ctx.frameHeight.toNat) % 2 ^ 32 := BitVec.toNat_mul ..
    rw [hmul, Nat.mod_eq_of_lt (by omega)]
  have hmsb : (ctx.width.toUInt32.toInt32 * ctx.frameHeight.toUInt32.toInt32).toBitVec.msb = false := by
    rw [BitVec.msb_eq_false_iff_two_mul_lt, hproduct]
    omega
  have hshift : ctx.mbf.toNat =
      ((ctx.width.toUInt32.toInt32 * ctx.frameHeight.toUInt32.toInt32).toBitVec.sshiftRight 8).toNat := rfl
  rw [hshift, BitVec.sshiftRight_eq_of_msb_false hmsb, BitVec.toNat_ushiftRight, hproduct,
    Nat.shiftRight_eq_div_pow]

variable {ctx}

/-- A frame is whole macroblocks. -/
theorem Framed.area (hframed : ctx.Framed) :
    ctx.width.toNat * ctx.frameHeight.toNat = 256 * ctx.frameMbs := by
  obtain ⟨w, hw⟩ := hframed.width_aligned
  obtain ⟨h, hh⟩ := hframed.height_aligned
  rw [frameMbs, hw, hh, Nat.mul_div_cancel_left _ (by decide), Nat.mul_div_cancel_left _ (by decide)]
  ring

/-- There is at least one. -/
theorem Framed.frameMbs_pos (hframed : ctx.Framed) : 0 < ctx.frameMbs := by
  have harea := hframed.area
  have hpos := Nat.mul_pos hframed.width_pos hframed.height_pos
  omega

/-- Where the arithmetic of the source is exact. -/
structure Exact (ctx : EncContext) : Prop where
  mbf : ctx.mbf.toNat = ctx.frameMbs
  mbs : (ctx.mbf * ctx.rc.frameRate).toNat = ctx.frameMbs * ctx.rc.frameRate.toNat
  dpbMbs : (ctx.mbf * (ctx.maxNumRefFrames.toUInt32 + 1)).toNat =
    ctx.frameMbs * (ctx.maxNumRefFrames.toNat + 1)

/-- What a level holds is computed exactly. -/
theorem Framed.exact (hframed : ctx.Framed) {l : ShLevel} {frames : ℕ}
    (h : l.Holds (ctx.needs frames)) : Exact ctx := by
  have hfs : ctx.frameMbs ≤ 36864 := h.fs.trans l.limits_le.1
  have hmbps : ctx.frameMbs * ctx.rc.frameRate.toNat ≤ 983040 := h.mbps.trans l.limits_le.2.2.1
  have harea := hframed.area
  have hmbf : ctx.mbf.toNat = ctx.frameMbs := by
    rw [mbf_toNat ctx (by omega), harea]
    exact Nat.mul_div_cancel_left _ (by decide)
  have href := ctx.maxNumRefFrames.toNat_lt
  have hone : (ctx.maxNumRefFrames.toUInt32 + 1).toNat = ctx.maxNumRefFrames.toNat + 1 := by
    exact Nat.mod_eq_of_lt (by change ctx.maxNumRefFrames.toNat + 1 < 2 ^ 32; omega)
  have hdpb : ctx.frameMbs * (ctx.maxNumRefFrames.toNat + 1) ≤ 36864 * 256 :=
    Nat.mul_le_mul hfs (by omega)
  refine ⟨hmbf, ?_, ?_⟩
  · rw [UInt32.toNat_mul, hmbf]
    exact Nat.mod_eq_of_lt (by omega)
  · rw [UInt32.toNat_mul, hmbf, hone]
    exact Nat.mod_eq_of_lt (by omega)

/-- A level but for the highest one suffices, with one frame more in the buffer, if it is not below the
one that is chosen. -/
theorem Framed.level_le_iff (hframed : ctx.Framed) (hexact : Exact ctx) {l : ShLevel}
    (h1B : l ≠ .level1B) (h51 : l ≠ .level51) :
    (calculateLevel ctx).value ≤ l.value ↔ l.Holds (ctx.needs (ctx.maxNumRefFrames.toNat + 1)) := by
  have hthree : (((ladder frameSizeSteps .level10 ctx.mbf).max
      (ladder dpbSteps .level10 (ctx.mbf * (ctx.maxNumRefFrames.toUInt32 + 1)))).max
      (ladder mbsSteps .level10 (ctx.mbf * ctx.rc.frameRate))).value ≤ l.value ↔
      l.Holds (ctx.needs (ctx.maxNumRefFrames.toNat + 1)) := by
    rw [max_value_le_iff, max_value_le_iff, frameSize_le_iff h1B h51, dpb_le_iff h1B h51,
      mbs_le_iff h1B h51, hexact.mbf, hexact.mbs, hexact.dpbMbs]
    exact ⟨fun ⟨⟨hfs, hdpb⟩, hmbs⟩ => ⟨hfs, hdpb, hmbs⟩, fun h => ⟨⟨h.fs, h.dpbMbs⟩, h.mbps⟩⟩
  rw [calculateLevel]
  split
  · rw [max_value_le_iff, hthree]
    refine and_iff_left_of_imp fun h => bitRate_le h1B h51 _ (le_trans ?_ h.mbps)
    exact Nat.le_mul_of_pos_left _ hframed.frameMbs_pos
  · exact hthree

/-- Level 1b is never chosen. -/
theorem calculateLevel_ne (ctx : EncContext) : calculateLevel ctx ≠ .level1B := by
  have hsize : 10 ≤ (ladder frameSizeSteps .level10 ctx.mbf).value :=
    le_ladder _ (by decide) (by decide)
  have hlevel : 10 ≤ (calculateLevel ctx).value := by
    rw [calculateLevel]
    split
    · rw [max_value, max_value, max_value]
      exact hsize.trans ((Nat.le_max_left _ _).trans ((Nat.le_max_left _ _).trans (Nat.le_max_left _ _)))
    · rw [max_value, max_value]
      exact hsize.trans ((Nat.le_max_left _ _).trans (Nat.le_max_left _ _))
  intro h
  rw [h] at hlevel
  exact absurd hlevel (by decide)

end EncContext

/-- The level that is chosen suffices, whatever some level suffices for, if the bit rate is not controlled
or is allowed by all levels that the rest allows. -/
theorem level_sufficient_iff (ctx : EncContext) (hframed : ctx.Framed)
    (hadmits : ∃ l : ShLevel, l.Admits (ctx.needs ctx.maxNumRefFrames.toNat)) :
    ctx.LevelSuffices (calculateLevel ctx) ↔
      (ctx.rc.rcEnable = true → ∀ l : ShLevel, l ≠ .level1B →
        l.Holds (ctx.needs (ctx.maxNumRefFrames.toNat + 1)) →
        ctx.rc.bitsPerSecond.toNat ≤ l.limits.maxBr) := by
  obtain ⟨l₀, hholds₀, hbr₀⟩ := hadmits
  have hexact := hframed.exact hholds₀
  have hchosen : calculateLevel ctx ≠ .level51 →
      (calculateLevel ctx).Holds (ctx.needs (ctx.maxNumRefFrames.toNat + 1)) := fun h51 =>
    (hframed.level_le_iff hexact ctx.calculateLevel_ne h51).mp le_rfl
  have hholds : (calculateLevel ctx).Holds (ctx.needs ctx.maxNumRefFrames.toNat) := by
    by_cases h51 : calculateLevel ctx = .level51
    · rw [h51]
      exact ⟨hholds₀.fs.trans l₀.limits_le.1, hholds₀.dpbMbs.trans l₀.limits_le.2.1,
        hholds₀.mbps.trans l₀.limits_le.2.2.1⟩
    · obtain ⟨hfs, hdpb, hmbps⟩ := hchosen h51
      exact ⟨hfs, (Nat.mul_le_mul_left _ (Nat.le_succ _)).trans hdpb, hmbps⟩
  refine (and_iff_right hholds).trans (forall_congr' fun _ => ⟨fun hbr l h1B hl => ?_, fun hall => ?_⟩)
  · have hle : (calculateLevel ctx).value ≤ l.value := by
      by_cases h51 : l = .level51
      · rw [h51]
        exact ShLevel.value_le _
      · exact (hframed.level_le_iff hexact h1B h51).mpr hl
    exact hbr.trans (maxBr_mono ctx.calculateLevel_ne h1B hle)
  · by_cases h51 : calculateLevel ctx = .level51
    · rw [h51]
      exact hbr₀.trans l₀.limits_le.2.2.2
    · exact hall _ ctx.calculateLevel_ne (hchosen h51)

/-- A context for frames of 176 × 144 at 15 frames for each second, with one reference frame. -/
def qcifContext (bitsPerSecond : UInt32) : EncContext where
  frameCount := 0
  streamFrameCount := 0
  width := 176
  frameHeight := 144
  pictureHeight := 144
  profileIdc := h264esProfileMain
  levelIdc := 10
  maxNumRefFrames := 1
  idrPeriod := 0
  intraCnt := 0
  intraCntSave := 0
  idrForceFlag := false
  rcUpdateFlag := 0
  slotsInUse := 2
  vertMvLimit := 255
  limitNumVectors := false
  rc := ⟨true, .cbr, bitsPerSecond, bitsPerSecond, 15, 30, 0⟩
  cropParams := ⟨false, 0, 0, 0, 0⟩
  vuiParams := ⟨0, 0, 0, 0, 0, 0, 0, 0, 0⟩
  frameOrderInfo := .zero

/-- A small picture is whole macroblocks. -/
theorem qcif_framed (bitsPerSecond : UInt32) : (qcifContext bitsPerSecond).Framed :=
  ⟨show 0 < 176 by decide, show 0 < 144 by decide, show 16 ∣ 176 by decide,
    show 16 ∣ 144 by decide⟩

/-- At 64 kbit/s the lowest level suffices, and it is chosen. -/
theorem qcif_level_suffices :
    (qcifContext 64000).LevelSuffices (calculateLevel (qcifContext 64000)) := by
  refine (level_sufficient_iff (qcifContext 64000) (qcif_framed 64000)
    ⟨.level10, ⟨by decide, by decide, by decide⟩, by decide⟩).mpr fun _ l h1B _ => ?_
  cases l <;> decide

/-- At 2 Mbit/s level 2 suffices, but level 1 is chosen. -/
theorem level_not_sufficient : ¬∀ ctx : EncContext, ctx.Framed →
    (∃ l : ShLevel, l.Admits (ctx.needs ctx.maxNumRefFrames.toNat)) →
    ctx.LevelSuffices (calculateLevel ctx) := by
  intro h
  have hsuffices := h (qcifContext 2000000) (qcif_framed 2000000)
    ⟨.level20, ⟨by decide, by decide, by decide⟩, by decide⟩
  exact absurd (hsuffices.2 rfl) (by decide)

end HardwareIntel.Topaz
