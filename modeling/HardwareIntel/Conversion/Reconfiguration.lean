import HardwareIntel.Conversion.BufferSize

/-!
# Configuring a conversion again

The converters are kept from one `configure` to the next. The remapper and the reformatter take over
all of a new configuration. `Resampler::configure` returns early when it has a context and finds its
two rates again: the channels and the formats stay those of an earlier configuration, and so does
the context of the library, which was created for their number of channels.

`configured_afresh_iff` says after which configurations the conversion is that of a new object.
`configured_converters_eq`: after any of them its active converters are those of a new object.
`configured_again`: to configure it alike several times is to configure it once.
-/

namespace HardwareIntel.Configuration

open List

open Conversion (Frame)
open SampleSpecifications (SampleSpec SampleSpecItem)
open SampleSpecifications.SampleSpec (isSampleSpecItemEqual)

/-! ## Calls -/

/-- A call of `AudioConversion::configure`, with what the library answers if it is asked for
contexts. -/
structure ConfigureCall where
  created : Creation
  ssSrc : SampleSpec
  ssDst : SampleSpec

/-- The object after calls of `configure`, each of which may have failed. -/
def configureAll (supported : UInt32 → UInt32 → Bool) (calls : List ConfigureCall) :
    AudioConversion :=
  calls.foldl (fun c call => (c.configure supported call.created call.ssSrc call.ssDst).2) .initial

/-- A call of `convert`, with what stands in the memory of the caller, and the converter that fails,
if any. -/
structure ConvertCall where
  old : ℕ → Frame
  failing : Option ℕ
  frames : List Frame

/-- The results of calls of `convert`, one after the other. -/
def outputs (lib : Context → List Frame → List Frame) :
    List (Conversion.AudioConverter (List Context)) → List ConvertCall → List (Option (List Frame))
  | _, [] => []
  | chain, call :: calls =>
    let p := Conversion.convert (Conversion.resample lib) call.old chain call.failing call.frames
    p.2 :: outputs lib p.1 calls

/-! ## Conversions that are alike -/

/-- The same resamplers are active, with the same members. -/
structure AudioResampler.Alike (a b : AudioResampler) : Prop where
  converter : a.converter = b.converter
  active : a.activeResamplerList = b.activeResamplerList
  stages : ∀ stage ∈ a.activeResamplerList, a.stage stage = b.stage stage

/-- The same converters are active, with the same members. -/
structure AudioConversion.Alike (c d : AudioConversion) : Prop where
  active : c.activeAudioConvList = d.activeAudioConvList
  converter : ∀ item ∈ c.activeAudioConvList, c.converter item = d.converter item
  resampler : .rate ∈ c.activeAudioConvList → c.resampler.Alike d.resampler

/-- What a conversion has in common with a new object that is configured in the same way: it is
configured at all, its converters are the same, and calls of `convert` give the same frames. -/
structure Afresh (supported : UInt32 → UInt32 → Bool) (created : Creation)
    (ssSrc ssDst : SampleSpec) (c : AudioConversion) : Prop where
  succeeds : (AudioConversion.initial.configure supported created ssSrc ssDst).1 = true
  alike : c.Alike (AudioConversion.initial.configure supported created ssSrc ssDst).2
  outputs_eq : ∀ lib calls, outputs lib c.activeConverters calls =
    outputs lib (AudioConversion.initial.configure supported created ssSrc ssDst).2.activeConverters
      calls

theorem AudioResampler.Alike.contexts_eq {a b : AudioResampler} (h : a.Alike b) :
    a.contexts = b.contexts := by
  unfold AudioResampler.contexts
  rw [← h.active]
  exact filterMap_congr fun stage hstage => congrArg Resampler.context (h.stages stage hstage)

theorem AudioConversion.Alike.activeConverters_eq {c d : AudioConversion} (h : c.Alike d) :
    c.activeConverters = d.activeConverters := by
  unfold AudioConversion.activeConverters
  rw [← h.active]
  refine filterMap_congr fun item hitem => ?_
  have hconverter := h.converter item hitem
  cases item with
  | rate => simp only [AudioConversion.activeConverter, (h.resampler hitem).contexts_eq]
  | channelCount => simp only [AudioConversion.activeConverter, hconverter]
  | format => simp only [AudioConversion.activeConverter, hconverter]

theorem AudioConversion.Alike.refl (c : AudioConversion) : c.Alike c :=
  ⟨rfl, fun _ _ => rfl, fun _ => ⟨rfl, rfl, fun _ _ => rfl⟩⟩

theorem AudioResampler.Alike.trans {a b c : AudioResampler} (hab : a.Alike b) (hbc : b.Alike c) :
    a.Alike c :=
  ⟨hab.converter.trans hbc.converter, hab.active.trans hbc.active, fun stage hstage =>
    (hab.stages stage hstage).trans (hbc.stages stage (hab.active ▸ hstage))⟩

theorem AudioConversion.Alike.trans {c d e : AudioConversion} (hcd : c.Alike d) (hde : d.Alike e) :
    c.Alike e :=
  ⟨hcd.active.trans hde.active, fun item hitem =>
    (hcd.converter item hitem).trans (hde.converter item (hcd.active ▸ hitem)), fun hrate =>
    (hcd.resampler hrate).trans (hde.resampler (hcd.active ▸ hrate))⟩

/-! ## One resampler -/

/-- `Resampler::configure` returns early. -/
def Resampler.keeps (r : Resampler) (ssSrc ssDst : SampleSpec) : Bool :=
  decide (ssSrc.rate = r.converter.ssSrc.rate ∧ ssDst.rate = r.converter.ssDst.rate) &&
    r.context.isSome

/-- A resampler that was configured for the first time, and not used yet. -/
def Resampler.configured (ssSrc ssDst : SampleSpec) : Resampler where
  converter := ⟨ssSrc, ssDst, some .resampleFrames⟩
  context := some ⟨ssSrc.channelCount, ssSrc.rate, ssDst.rate, []⟩
  maxFrameCnt := 0
  floats := 0

/-- If the resampler keeps what it has, this is what it would be configured to. -/
def Resampler.Fits (r : Resampler) (created : Bool) (ssSrc ssDst : SampleSpec) : Prop :=
  r.keeps ssSrc ssDst = true → created = true ∧ r = .configured ssSrc ssDst

instance (r : Resampler) (created : Bool) (ssSrc ssDst : SampleSpec) :
    Decidable (r.Fits created ssSrc ssDst) :=
  inferInstanceAs (Decidable (_ → _))

/-- The resamplers that come to be used fit; the one of the pivot is used if the library cannot
convert the rates at once. -/
def AudioResampler.Fits (a : AudioResampler) (supported : UInt32 → UInt32 → Bool)
    (created : Creation) (ssSrc ssDst : SampleSpec) : Prop :=
  a.resampler.Fits created.direct ssSrc ssDst ∧
    (a.resampler.keeps ssSrc ssDst = false →
      (supported ssSrc.rate ssDst.rate && created.direct) = false →
        a.pivotResampler.Fits created.pivot ssSrc (ssDst.setSampleRate pivotSampleRate))

/-- A resampler that has not been used: its context, if any, is for rates that differ and that the
library supports. -/
structure Resampler.Unused (supported : UInt32 → UInt32 → Bool) (r : Resampler) : Prop where
  context : ∀ k, r.context = some k → supported k.srcRate k.dstRate = true ∧ k.srcRate ≠ k.dstRate
  maxFrameCnt : r.maxFrameCnt = 0
  floats : r.floats = 0

section Resamplers

variable {supported : UInt32 → UInt32 → Bool} {created : Creation} {ssSrc ssDst : SampleSpec}
  {r : Resampler} {new : Bool}

theorem rate_ne_of_convertible (h : convertible .rate ssSrc ssDst = true) :
    ssSrc.rate ≠ ssDst.rate := by
  intro heq
  exact (convertible_iff.mp h .rate).mp (congrArg (·, []) heq) rfl

theorem convertible_setSampleRate {rate : UInt32} (h : convertible .rate ssSrc ssDst = true)
    (hrate : ssSrc.rate ≠ rate) : convertible .rate ssSrc (ssDst.setSampleRate rate) = true := by
  rw [convertible_iff] at h ⊢
  intro i
  cases i with
  | channelCount => exact h .channelCount
  | format => exact h .format
  | rate => exact ⟨fun heq => absurd (congrArg Prod.fst heq) hrate, fun hne => absurd rfl hne⟩

/-- A new resampler would be configured. -/
def Resampler.makes (supported : UInt32 → UInt32 → Bool) (created : Bool)
    (ssSrc ssDst : SampleSpec) : Bool :=
  convertible .rate ssSrc ssDst && (supported ssSrc.rate ssDst.rate && created)

theorem Resampler.keeps_initial : Resampler.initial.keeps ssSrc ssDst = false :=
  Bool.and_false _

theorem Resampler.configure_of_keeps (hkeeps : r.keeps ssSrc ssDst = true) :
    r.configure supported new ssSrc ssDst = (true, r) := by
  rw [Resampler.keeps, Bool.and_eq_true, decide_eq_true_iff] at hkeeps
  exact if_pos ⟨hkeeps.1.1, hkeeps.1.2, hkeeps.2⟩

/-- A resampler that does not keep what it has becomes a new one. -/
theorem Resampler.configure_of_makes (hr : r.Unused supported)
    (hkeeps : r.keeps ssSrc ssDst = false) (hmakes : makes supported new ssSrc ssDst = true) :
    r.configure supported new ssSrc ssDst = (true, .configured ssSrc ssDst) := by
  rw [makes, Bool.and_eq_true] at hmakes
  rcases r.configure_cases new with
    ⟨hearly, -⟩ | ⟨-, ⟨hnot, -⟩ | ⟨-, hno, -⟩ | ⟨-, -, heq⟩⟩
  · rw [Resampler.keeps, decide_eq_true ⟨hearly.1, hearly.2.1⟩, hearly.2.2] at hkeeps
    exact absurd hkeeps (by decide)
  · exact absurd (hmakes.1.symm.trans hnot) (by decide)
  · exact absurd (hmakes.2.symm.trans hno) (by decide)
  · rw [heq, hr.maxFrameCnt, hr.floats]
    rfl

/-- When the library refuses the rates, the resampler has no context any more. -/
theorem Resampler.configure_of_not_makes (hkeeps : r.keeps ssSrc ssDst = false)
    (hmakes : makes supported new ssSrc ssDst = false) :
    (r.configure supported new ssSrc ssDst).1 = false ∧
      (convertible .rate ssSrc ssDst = true →
        (r.configure supported new ssSrc ssDst).2.context = none) := by
  rcases r.configure_cases new with
    ⟨hearly, -⟩ | ⟨-, ⟨hnot, heq⟩ | ⟨-, -, heq⟩ | ⟨hconvertible, hyes, -⟩⟩
  · rw [Resampler.keeps, decide_eq_true ⟨hearly.1, hearly.2.1⟩, hearly.2.2] at hkeeps
    exact absurd hkeeps (by decide)
  · rw [heq]
    exact ⟨rfl, fun hcon => absurd (hcon.symm.trans hnot) (by decide)⟩
  · rw [heq]
    exact ⟨rfl, fun _ => rfl⟩
  · rw [makes, hconvertible, hyes] at hmakes
    exact absurd hmakes (by decide)

theorem Resampler.keeps_of_context_eq_none (h : r.context = none) :
    r.keeps ssSrc ssDst = false := by
  rw [keeps, h]
  exact Bool.and_false _

theorem Resampler.Unused.configure (hr : r.Unused supported) (new : Bool)
    (ssSrc ssDst : SampleSpec) : (r.configure supported new ssSrc ssDst).2.Unused supported := by
  rcases r.configure_cases new with
    ⟨-, heq⟩ | ⟨-, ⟨-, heq⟩ | ⟨-, -, heq⟩ | ⟨hconvertible, hyes, heq⟩⟩
  · rw [heq]
    exact hr
  · rw [heq]
    exact { hr with }
  · rw [heq]
    exact ⟨fun k hk => absurd hk (by simp), hr.maxFrameCnt, hr.floats⟩
  · rw [heq]
    refine ⟨fun k hk => ?_, hr.maxFrameCnt, hr.floats⟩
    obtain rfl := Option.some.inj hk
    rw [Bool.and_eq_true] at hyes
    exact ⟨hyes.1, rate_ne_of_convertible hconvertible⟩

theorem Resampler.unused_initial : Resampler.initial.Unused supported :=
  ⟨fun k hk => absurd hk (by simp [Resampler.initial]), rfl, rfl⟩

/-- A resampler that fits would be made anew. -/
theorem Resampler.makes_of_fits (hr : r.Unused supported) (h : r.Fits new ssSrc ssDst)
    (hkeeps : r.keeps ssSrc ssDst = true)
    (hconvertible : ssSrc.rate ≠ ssDst.rate → convertible .rate ssSrc ssDst = true) :
    makes supported new ssSrc ssDst = true := by
  obtain ⟨rfl, rfl⟩ := h hkeeps
  obtain ⟨hsupported, hne⟩ := hr.context _ rfl
  rw [makes, hconvertible hne, Bool.true_and, Bool.and_true]
  exact hsupported

/-- What a resampler is after a configuration without an error. -/
theorem Resampler.configure_eq_configured_iff (hr : r.Unused supported)
    (hmakes : makes supported new ssSrc ssDst = true) :
    (r.configure supported new ssSrc ssDst).2 = .configured ssSrc ssDst ↔
      r.Fits new ssSrc ssDst := by
  cases hkeeps : r.keeps ssSrc ssDst with
  | true =>
    rw [configure_of_keeps hkeeps]
    rw [makes, Bool.and_eq_true, Bool.and_eq_true] at hmakes
    exact ⟨fun heq _ => ⟨hmakes.2.2, heq⟩, fun hfits => (hfits hkeeps).2⟩
  | false =>
    rw [configure_of_makes hr hkeeps hmakes]
    exact ⟨fun _ hcon => absurd (hkeeps.symm.trans hcon) (by decide), fun _ => rfl⟩

/-! ## Both resamplers -/

variable {a : AudioResampler} {s : AudioConversion × SampleSpec}

/-- The rates are converted at once. -/
theorem AudioResampler.configure_direct (hconvertible : convertible .rate ssSrc ssDst = true)
    (hdirect : a.resampler.configure supported created.direct ssSrc ssDst = (true, r)) :
    a.configure supported created ssSrc ssDst =
      (true, ⟨⟨ssSrc, ssDst, none⟩, r, a.pivotResampler, [.last]⟩) := by
  have hconfigure : a.converter.configure .rate ssSrc ssDst = (true, ⟨ssSrc, ssDst, none⟩) :=
    if_pos hconvertible
  simp only [AudioResampler.configure, hconfigure, hdirect, Bool.not_true, Bool.false_eq_true,
    if_false, if_true]

/-- The rates are converted over the pivot. -/
theorem AudioResampler.configure_over_pivot {direct pivot last : Resampler}
    (hconvertible : convertible .rate ssSrc ssDst = true)
    (hdirect : a.resampler.configure supported created.direct ssSrc ssDst = (false, direct))
    (hpivot : a.pivotResampler.configure supported created.pivot ssSrc
      (ssDst.setSampleRate pivotSampleRate) = (true, pivot))
    (hlast : direct.configure supported created.last (ssDst.setSampleRate pivotSampleRate) ssDst =
      (true, last))
    :
    a.configure supported created ssSrc ssDst =
      (true, ⟨⟨ssSrc, ssDst, none⟩, last, pivot, [.pivot, .last]⟩) := by
  have hconfigure : a.converter.configure .rate ssSrc ssDst = (true, ⟨ssSrc, ssDst, none⟩) :=
    if_pos hconvertible
  simp only [AudioResampler.configure, hconfigure, hdirect, hpivot, hlast, Bool.not_true,
    Bool.false_eq_true, if_false]

/-- A resampler that is configured without an error has kept its context or made a new one. -/
theorem Resampler.keeps_of_not_makes (h : (r.configure supported new ssSrc ssDst).1 = true)
    (hmakes : makes supported new ssSrc ssDst = false) : r.keeps ssSrc ssDst = true := by
  by_contra hkeeps
  rw [Bool.not_eq_true] at hkeeps
  rw [(configure_of_not_makes hkeeps hmakes).1] at h
  exact absurd h (by decide)

theorem Resampler.configure_initial (hmakes : makes supported new ssSrc ssDst = true) :
    Resampler.initial.configure supported new ssSrc ssDst = (true, .configured ssSrc ssDst) :=
  configure_of_makes unused_initial keeps_initial hmakes

theorem Resampler.configure_initial_fails (hmakes : makes supported new ssSrc ssDst = false) :
    (Resampler.initial.configure supported new ssSrc ssDst).1 = false :=
  (configure_of_not_makes keeps_initial hmakes).1

/-- The rates are supported and a context is created, once it is known that the rates differ and
nothing else. -/
theorem Resampler.makes_of_convertible (hconvertible : convertible .rate ssSrc ssDst = true) :
    makes supported new ssSrc ssDst = (supported ssSrc.rate ssDst.rate && new) := by
  rw [makes, hconvertible, Bool.true_and]

/-- The resampler with the direct conversion. -/
theorem AudioResampler.alike_direct_iff (ha : a.resampler.Unused supported)
    (hconvertible : convertible .rate ssSrc ssDst = true)
    (hdirect : (a.resampler.configure supported created.direct ssSrc ssDst).1 = true) :
    ((AudioResampler.initial.configure supported created ssSrc ssDst).1 = true ∧
      (a.configure supported created ssSrc ssDst).2.Alike
        (AudioResampler.initial.configure supported created ssSrc ssDst).2) ↔
      a.Fits supported created ssSrc ssDst := by
  rw [configure_direct (a := a) hconvertible (Prod.ext hdirect rfl)]
  cases hmakes : Resampler.makes supported created.direct ssSrc ssDst with
  | true =>
    rw [configure_direct (a := .initial) hconvertible (Resampler.configure_initial hmakes)]
    have hyes := hmakes
    rw [Resampler.makes_of_convertible hconvertible] at hyes
    have hfits := Resampler.configure_eq_configured_iff ha hmakes
    refine ⟨fun ⟨_, halike⟩ => ⟨hfits.mp (halike.stages .last (by simp)), fun _ hno => ?_⟩,
      fun h => ⟨rfl, rfl, rfl, fun stage hstage => ?_⟩⟩
    · exact absurd (hyes.symm.trans hno) (by decide)
    · obtain rfl := mem_singleton.mp hstage
      exact hfits.mpr h.1
  | false =>
    have hkeeps := Resampler.keeps_of_not_makes hdirect hmakes
    refine ⟨fun ⟨hsucceeds, halike⟩ => ?_, fun h => ?_⟩
    · obtain ⟨-, ⟨hok, -⟩ | ⟨-, -, -, heq⟩⟩ := AudioResampler.configure_cases hsucceeds
      · exact absurd (hok.symm.trans (Resampler.configure_initial_fails hmakes)) (by decide)
      · rw [heq] at halike
        exact absurd halike.active (by simp)
    · have hyes := Resampler.makes_of_fits ha h.1 hkeeps fun _ => hconvertible
      exact absurd (hyes.symm.trans hmakes) (by decide)

/-- Where the rates are not converted directly, the resampler has no context when it comes to be the
last stage, and is configured as a new one. -/
theorem Resampler.configure_last (hr : r.Unused supported)
    (hkeeps : r.keeps ssSrc ssDst = false)
    (hmakes : makes supported created.direct ssSrc ssDst = false)
    (hconvertible : convertible .rate ssSrc ssDst = true)
    (hlast : makes supported created.last (ssDst.setSampleRate pivotSampleRate) ssDst = true) :
    (r.configure supported created.direct ssSrc ssDst).2.configure supported created.last
        (ssDst.setSampleRate pivotSampleRate) ssDst =
      (true, .configured (ssDst.setSampleRate pivotSampleRate) ssDst) :=
  configure_of_makes (hr.configure _ _ _)
    (keeps_of_context_eq_none ((configure_of_not_makes hkeeps hmakes).2 hconvertible)) hlast

/-- What the library answers if the rates are converted over the pivot. -/
theorem Resampler.makes_last (hr : r.Unused supported)
    (hconvertible : convertible .rate ssSrc ssDst = true)
    (hdirect : (r.configure supported created.direct ssSrc ssDst).1 = false)
    (hlast : ((r.configure supported created.direct ssSrc ssDst).2.configure supported created.last
      (ssDst.setSampleRate pivotSampleRate) ssDst).1 = true) :
    r.keeps ssSrc ssDst = false ∧ makes supported created.direct ssSrc ssDst = false ∧
      makes supported created.last (ssDst.setSampleRate pivotSampleRate) ssDst = true := by
  have hkeeps : r.keeps ssSrc ssDst = false := by
    by_contra hcon
    rw [configure_of_keeps ((Bool.not_eq_false _).mp hcon)] at hdirect
    exact absurd hdirect (by simp)
  have hmakes : makes supported created.direct ssSrc ssDst = false := by
    by_contra hcon
    rw [configure_of_makes hr hkeeps ((Bool.not_eq_false _).mp hcon)] at hdirect
    exact absurd hdirect (by simp)
  have hnone := (configure_of_not_makes hkeeps hmakes).2 hconvertible
  refine ⟨hkeeps, hmakes, ?_⟩
  by_contra hcon
  rw [(configure_of_not_makes (keeps_of_context_eq_none hnone)
    ((Bool.not_eq_true _).mp hcon)).1] at hlast
  exact absurd hlast (by decide)

/-- The resamplers with the conversion over the pivot. -/
theorem AudioResampler.alike_pivot_iff (ha : a.resampler.Unused supported)
    (hpivot : a.pivotResampler.Unused supported)
    (hconvertible : convertible .rate ssSrc ssDst = true)
    (hdirect : (a.resampler.configure supported created.direct ssSrc ssDst).1 = false)
    (hpivotOk : (a.pivotResampler.configure supported created.pivot ssSrc
      (ssDst.setSampleRate pivotSampleRate)).1 = true)
    (hlastOk : ((a.resampler.configure supported created.direct ssSrc ssDst).2.configure supported
      created.last (ssDst.setSampleRate pivotSampleRate) ssDst).1 = true)
    :
    ((AudioResampler.initial.configure supported created ssSrc ssDst).1 = true ∧
      (a.configure supported created ssSrc ssDst).2.Alike
        (AudioResampler.initial.configure supported created ssSrc ssDst).2) ↔
      a.Fits supported created ssSrc ssDst := by
  obtain ⟨hkeeps, hmakes, hmakesLast⟩ := Resampler.makes_last ha hconvertible hdirect hlastOk
  have hno := hmakes
  rw [Resampler.makes_of_convertible hconvertible] at hno
  have hlastEq := Resampler.configure_last ha hkeeps hmakes hconvertible hmakesLast
  have hlastInitial := Resampler.configure_last Resampler.unused_initial Resampler.keeps_initial
    hmakes hconvertible hmakesLast
  rw [configure_over_pivot (a := a) hconvertible (Prod.ext hdirect rfl) (Prod.ext hpivotOk rfl)
    hlastEq]
  cases hmakesPivot : Resampler.makes supported created.pivot ssSrc
    (ssDst.setSampleRate pivotSampleRate) with
  | true =>
    rw [configure_over_pivot (a := .initial) hconvertible
      (Prod.ext (Resampler.configure_initial_fails hmakes) rfl)
      (Resampler.configure_initial hmakesPivot) hlastInitial]
    have hfits := Resampler.configure_eq_configured_iff hpivot hmakesPivot
    refine ⟨fun ⟨_, halike⟩ => ⟨fun hcon => ?_, fun _ _ => ?_⟩,
      fun h => ⟨rfl, rfl, rfl, fun stage _ => ?_⟩⟩
    · exact absurd (hkeeps.symm.trans hcon) (by decide)
    · exact hfits.mp (halike.stages .pivot (by simp))
    · cases stage with
      | pivot => exact hfits.mpr (h.2 hkeeps hno)
      | last => rfl
  | false =>
    have hkeepsPivot := Resampler.keeps_of_not_makes hpivotOk hmakesPivot
    refine ⟨fun ⟨hsucceeds, _⟩ => ?_, fun h => ?_⟩
    · obtain ⟨-, ⟨hok, -⟩ | ⟨-, hok, -, -⟩⟩ := AudioResampler.configure_cases hsucceeds
      · exact absurd (hok.symm.trans (Resampler.configure_initial_fails hmakes)) (by decide)
      · exact absurd (hok.symm.trans (Resampler.configure_initial_fails hmakesPivot)) (by decide)
    · have hyes := Resampler.makes_of_fits hpivot (h.2 hkeeps hno) hkeepsPivot
        (convertible_setSampleRate hconvertible)
      exact absurd (hyes.symm.trans hmakesPivot) (by decide)

/-- After a configuration without an error the resamplers are those of a new object if and only if
they fitted. -/
theorem AudioResampler.alike_iff (ha : a.resampler.Unused supported)
    (hpivot : a.pivotResampler.Unused supported)
    (h : (a.configure supported created ssSrc ssDst).1 = true) :
    ((AudioResampler.initial.configure supported created ssSrc ssDst).1 = true ∧
      (a.configure supported created ssSrc ssDst).2.Alike
        (AudioResampler.initial.configure supported created ssSrc ssDst).2) ↔
      a.Fits supported created ssSrc ssDst := by
  obtain ⟨hconvertible, ⟨hdirect, -⟩ | ⟨hdirect, hpivotOk, hlastOk, -⟩⟩ :=
    AudioResampler.configure_cases h
  · exact alike_direct_iff ha hconvertible hdirect
  · exact alike_pivot_iff ha hpivot hconvertible hdirect hpivotOk hlastOk

/-- Both resamplers have not been used. -/
structure AudioResampler.Unused (supported : UInt32 → UInt32 → Bool) (a : AudioResampler) :
    Prop where
  resampler : a.resampler.Unused supported
  pivotResampler : a.pivotResampler.Unused supported

theorem AudioResampler.Unused.configure (ha : a.Unused supported) :
    (a.configure supported created ssSrc ssDst).2.Unused supported := by
  have hdirect := ha.resampler.configure created.direct ssSrc ssDst
  unfold AudioResampler.configure
  dsimp only
  split
  · exact ⟨ha.resampler, ha.pivotResampler⟩
  split
  · exact ⟨hdirect, ha.pivotResampler⟩
  split
  · exact ⟨hdirect, ha.pivotResampler.configure _ _ _⟩
  split
  · exact ⟨hdirect.configure _ _ _, ha.pivotResampler.configure _ _ _⟩
  · exact ⟨hdirect.configure _ _ _, ha.pivotResampler.configure _ _ _⟩

theorem Resampler.keeps_configure (h : (r.configure supported new ssSrc ssDst).1 = true) :
    (r.configure supported new ssSrc ssDst).2.keeps ssSrc ssDst = true := by
  rcases r.configure_cases new with
    ⟨hearly, heq⟩ | ⟨-, ⟨-, heq⟩ | ⟨-, -, heq⟩ | ⟨-, -, heq⟩⟩
  · rw [heq, keeps, decide_eq_true ⟨hearly.1, hearly.2.1⟩, hearly.2.2]
    rfl
  · exact absurd h (by rw [heq]; simp)
  · exact absurd h (by rw [heq]; simp)
  · rw [heq]
    simp [keeps]

/-- Configured again in the same way, the resamplers stay as they are. If the rates are converted
over the pivot, the last one loses its context and gets it again. -/
theorem AudioResampler.configure_again (ha : a.Unused supported) (hcreated : created.direct = true)
    (h : (a.configure supported created ssSrc ssDst).1 = true) :
    (a.configure supported created ssSrc ssDst).2.configure supported created ssSrc ssDst =
      (true, (a.configure supported created ssSrc ssDst).2) := by
  obtain ⟨hconvertible, ⟨hdirect, heq⟩ | ⟨hdirect, hpivot, hlast, heq⟩⟩ :=
    AudioResampler.configure_cases h
  · rw [heq]
    exact configure_direct hconvertible
      (Resampler.configure_of_keeps (Resampler.keeps_configure hdirect))
  · obtain ⟨hkeeps, hmakes, hmakesLast⟩ :=
      Resampler.makes_last ha.resampler hconvertible hdirect hlast
    have hlastEq := Resampler.configure_last ha.resampler hkeeps hmakes hconvertible hmakesLast
    -- The library converts the rates from the pivot on, but not those from the source on.
    have hrate : ssSrc.rate ≠ pivotSampleRate := by
      intro hrate
      rw [Resampler.makes_of_convertible hconvertible, hcreated, Bool.and_true, hrate] at hmakes
      rw [Resampler.makes, Bool.and_eq_true, Bool.and_eq_true] at hmakesLast
      exact absurd (hmakesLast.2.1.symm.trans hmakes) (by decide)
    have hagain : (Resampler.configured (ssDst.setSampleRate pivotSampleRate) ssDst).keeps ssSrc
        ssDst = false := by
      rw [Resampler.keeps, decide_eq_false fun hsame => hrate hsame.1]
      rfl
    have hunused : (Resampler.configured (ssDst.setSampleRate pivotSampleRate) ssDst).Unused
        supported := by
      have hconfigured := (ha.resampler.configure created.direct ssSrc ssDst).configure
        created.last (ssDst.setSampleRate pivotSampleRate) ssDst
      rwa [hlastEq] at hconfigured
    rw [heq, hlastEq]
    exact configure_over_pivot hconvertible
      (Prod.ext (Resampler.configure_of_not_makes hagain hmakes).1 rfl)
      (Resampler.configure_of_keeps (Resampler.keeps_configure hpivot))
      (Resampler.configure_last hunused hagain hmakes hconvertible hmakesLast)

/-! ## The resamplers of a conversion -/

theorem AudioConversion.unused_configureConverter {c : AudioConversion}
    (hc : c.resampler.Unused supported) (item : SampleSpecItem) :
    (c.configureConverter supported created item ssSrc ssDst).2.resampler.Unused supported := by
  cases item with
  | rate => exact hc.configure
  | channelCount => exact hc
  | format => exact hc

theorem unused_doConfigureAndAddConverter (hs : s.1.resampler.Unused supported)
    (item : SampleSpecItem) :
    (doConfigureAndAddConverter supported created ssDst item s).2.1.resampler.Unused
      supported := by
  unfold doConfigureAndAddConverter
  dsimp only
  split
  · exact AudioConversion.unused_configureConverter hs item
  · exact AudioConversion.unused_configureConverter hs item

theorem unused_configureAndAddConverter (hs : s.1.resampler.Unused supported)
    (items : List SampleSpecItem) :
    (configureAndAddConverter supported created ssDst items s).2.1.resampler.Unused supported := by
  induction items generalizing s with
  | nil => exact hs
  | cons item items ih =>
    rw [configureAndAddConverter]
    generalize hlarger : (if s.2.getSampleSpecItem item > ssDst.getSampleSpecItem item then
      doConfigureAndAddConverter supported created ssDst item s else (true, s)) = larger
    have hunused : larger.2.1.resampler.Unused supported := by
      rw [← hlarger]
      split
      · exact unused_doConfigureAndAddConverter hs item
      · exact hs
    dsimp only
    split
    · exact hunused
    split
    · exact ih hunused
    split
    · exact unused_doConfigureAndAddConverter (ih hunused) item
    · exact ih hunused

/-- However often a conversion has been configured, its resamplers have not been used. -/
theorem unused_configureAll (supported : UInt32 → UInt32 → Bool) (calls : List ConfigureCall) :
    (configureAll supported calls).resampler.Unused supported := by
  refine List.foldlRecOn (motive := fun c : AudioConversion => c.resampler.Unused supported) calls _
    ⟨Resampler.unused_initial, Resampler.unused_initial⟩ fun c hc call _ => ?_
  unfold AudioConversion.configure
  split
  · exact hc
  · exact unused_configureAndAddConverter hc sampleSpecItems

end Resamplers

/-! ## Two conversions side by side -/

section Alongside

variable {supported : UInt32 → UInt32 → Bool} {created : Creation}
  {a b : AudioResampler} {ssSrc ssDst rateSrc rateDst : SampleSpec} {item : SampleSpecItem}
  {p q p' : AudioConversion × SampleSpec}

/-- Two conversions with the resamplers `a` and `b`, to which the same converters have been added:
the resamplers differ as their configurations do. -/
structure Alongside (supported : UInt32 → UInt32 → Bool) (created : Creation)
    (a b : AudioResampler) (rateSrc rateDst : SampleSpec) (p q : AudioConversion × SampleSpec) :
    Prop where
  spec : p.2 = q.2
  active : p.1.activeAudioConvList = q.1.activeAudioConvList
  converter : ∀ item ∈ p.1.activeAudioConvList, item ≠ .rate →
    p.1.converter item = q.1.converter item
  idle : .rate ∉ p.1.activeAudioConvList → p.1.resampler = a ∧ q.1.resampler = b
  used : .rate ∈ p.1.activeAudioConvList →
    ((a.configure supported created rateSrc rateDst).1 = true ∧
      p.1.resampler = (a.configure supported created rateSrc rateDst).2) ∧
    (b.configure supported created rateSrc rateDst).1 = true ∧
      q.1.resampler = (b.configure supported created rateSrc rateDst).2

/-- What the remapper and the reformatter become does not depend on what they were. -/
theorem AudioConversion.configureConverter_congr {c : AudioConversion} (d : AudioConversion)
    (hitem : item ≠ .rate)
    (h : (c.configureConverter supported created item ssSrc ssDst).1 = true) :
    (d.configureConverter supported created item ssSrc ssDst).1 = true ∧
      (c.configureConverter supported created item ssSrc ssDst).2.converter item =
        (d.configureConverter supported created item ssSrc ssDst).2.converter item ∧
      (c.configureConverter supported created item ssSrc ssDst).2.resampler = c.resampler ∧
      (d.configureConverter supported created item ssSrc ssDst).2.resampler = d.resampler := by
  cases item with
  | rate => exact absurd rfl hitem
  | channelCount =>
    have hsame : remapperConfigure d.remapper ssSrc ssDst =
        remapperConfigure c.remapper ssSrc ssDst := by
      change (remapperConfigure c.remapper ssSrc ssDst).1 = true at h
      unfold remapperConfigure Converter.configure at h ⊢
      cases hconvertible : convertible .channelCount ssSrc ssDst with
      | true => rfl
      | false => simp [hconvertible] at h
    exact ⟨(congrArg Prod.fst hsame).trans h, (congrArg Prod.snd hsame).symm, rfl, rfl⟩
  | format =>
    have hsame : reformatterConfigure d.reformatter ssSrc ssDst =
        reformatterConfigure c.reformatter ssSrc ssDst := by
      change (reformatterConfigure c.reformatter ssSrc ssDst).1 = true at h
      unfold reformatterConfigure Converter.configure at h ⊢
      cases hconvertible : convertible .format ssSrc ssDst with
      | true => rfl
      | false => simp [hconvertible] at h
    exact ⟨(congrArg Prod.fst hsame).trans h, (congrArg Prod.snd hsame).symm, rfl, rfl⟩

theorem doConfigureAndAddConverter_of_ok
    (hok : (p.1.configureConverter supported created item p.2 (withItem item p.2 ssDst)).1 = true) :
    doConfigureAndAddConverter supported created ssDst item p =
      let c := (p.1.configureConverter supported created item p.2 (withItem item p.2 ssDst)).2
      (true, { c with activeAudioConvList := c.activeAudioConvList ++ [item] },
        withItem item p.2 ssDst) :=
  if_pos hok

theorem ok_of_doConfigureAndAddConverter
    (h : doConfigureAndAddConverter supported created ssDst item p = (true, p')) :
    (p.1.configureConverter supported created item p.2 (withItem item p.2 ssDst)).1 = true := by
  by_contra hfails
  rw [doConfigureAndAddConverter, if_neg hfails] at h
  exact absurd (congrArg Prod.fst h) (by simp)

/-- The remapper or the reformatter is added to both. -/
theorem Alongside.add (h : Alongside supported created a b rateSrc rateDst p q)
    (hitem : item ≠ .rate)
    (hdo : doConfigureAndAddConverter supported created ssDst item p = (true, p')) :
    ∃ q', doConfigureAndAddConverter supported created ssDst item q = (true, q') ∧
      Alongside supported created a b rateSrc rateDst p' q' := by
  have hok := ok_of_doConfigureAndAddConverter hdo
  obtain ⟨hok', hsame, hp, hq⟩ := AudioConversion.configureConverter_congr q.1 hitem hok
  obtain ⟨-, -, -, hother, hactive⟩ := AudioConversion.configureConverter_spec hok
  obtain ⟨-, -, -, hother', hactive'⟩ := AudioConversion.configureConverter_spec hok'
  rw [h.spec] at hok'
  have hdo' := doConfigureAndAddConverter_of_ok hok'
  rw [doConfigureAndAddConverter_of_ok hok] at hdo
  obtain rfl := (Prod.mk.inj hdo).2
  refine ⟨_, hdo', ?_⟩
  rw [← h.spec]
  have hmem : ∀ i, i ≠ item → (i ∈ (p.1.configureConverter supported created item p.2
      (withItem item p.2 ssDst)).2.activeAudioConvList ++ [item] ↔
        i ∈ p.1.activeAudioConvList) := fun i hi => by simp [hactive, hi]
  constructor
  · rfl
  · simp only [hactive, hactive', h.active]
  · intro i hi hne
    refine (AudioConversion.converter_active _ _ i).trans
      (Eq.trans ?_ (AudioConversion.converter_active _ _ i).symm)
    by_cases heq : i = item
    · rw [heq]
      exact hsame
    · rw [hother i heq, hother' i heq]
      exact h.converter i ((hmem i heq).mp hi) hne
  · intro hnot
    obtain ⟨hidle, hidle'⟩ := h.idle (mt (hmem .rate hitem.symm).mpr hnot)
    exact ⟨hp.trans hidle, hq.trans hidle'⟩
  · intro hrate
    obtain ⟨⟨hconfigured, heq⟩, hconfigured', heq'⟩ := h.used ((hmem .rate hitem.symm).mp hrate)
    exact ⟨⟨hconfigured, hp.trans heq⟩, hconfigured', hq.trans heq'⟩

/-- The resampler is added to both. -/
theorem Alongside.addRate
    (h : Alongside supported created a b rateSrc (withItem .rate rateSrc ssDst) p q)
    (hfresh : .rate ∉ p.1.activeAudioConvList) (hspec : p.2 = rateSrc)
    (hok : (a.configure supported created rateSrc (withItem .rate rateSrc ssDst)).1 = true →
      (b.configure supported created rateSrc (withItem .rate rateSrc ssDst)).1 = true)
    (hdo : doConfigureAndAddConverter supported created ssDst .rate p = (true, p')) :
    ∃ q', doConfigureAndAddConverter supported created ssDst .rate q = (true, q') ∧
      Alongside supported created a b rateSrc (withItem .rate rateSrc ssDst) p' q' := by
  subst hspec
  obtain ⟨hidle, hidle'⟩ := h.idle hfresh
  have hdone := ok_of_doConfigureAndAddConverter hdo
  rw [doConfigureAndAddConverter_of_ok hdone] at hdo
  obtain rfl := (Prod.mk.inj hdo).2
  have hconfigured : (a.configure supported created p.2 (withItem .rate p.2 ssDst)).1 = true :=
    hidle ▸ hdone
  have hdone' : (q.1.configureConverter supported created .rate p.2
      (withItem .rate p.2 ssDst)).1 = true := by
    dsimp only [AudioConversion.configureConverter]
    rw [hidle']
    exact hok hconfigured
  rw [h.spec] at hdone'
  refine ⟨_, doConfigureAndAddConverter_of_ok hdone', ?_⟩
  rw [← h.spec]
  constructor
  · rfl
  · exact congrArg (· ++ [SampleSpecItem.rate]) h.active
  · intro i hi hne
    have hi : i ∈ p.1.activeAudioConvList :=
      (mem_append.mp hi).resolve_right (by simpa using hne)
    cases i with
    | rate => exact absurd rfl hne
    | channelCount => exact h.converter .channelCount hi hne
    | format => exact h.converter .format hi hne
  · exact fun hnot => absurd (mem_append_right _ (mem_singleton_self _)) hnot
  · intro _
    dsimp only [AudioConversion.configureConverter]
    rw [hidle, hidle']
    exact ⟨⟨hconfigured, rfl⟩, hok hconfigured, rfl⟩

/-- A configuration goes on only after a step without an error. -/
theorem ok_of_guard {x y : Bool × AudioConversion × SampleSpec}
    (h : (if (!x.1) = true then x else y) = (true, p')) : x = (true, x.2) ∧ y = (true, p') := by
  obtain ⟨ok, x⟩ := x
  cases ok with
  | true => exact ⟨rfl, h⟩
  | false => exact absurd (congrArg Prod.fst h) (by simp)

theorem configureRate_of_larger
    (hlarger : p.2.getSampleSpecItem .rate > ssDst.getSampleSpecItem .rate)
    (hdo : doConfigureAndAddConverter supported created ssDst .rate p = (true, p')) :
    configureAndAddConverter supported created ssDst [.rate] p = (true, p') := by
  have hequal : isSampleSpecItemEqual .rate p'.2 ssDst = true := by
    rw [(added_doConfigureAndAddConverter hdo).2, isSampleSpecItemEqual_iff]
    rfl
  rw [configureAndAddConverter]
  rw [if_pos hlarger, hdo]
  change (if (!isSampleSpecItemEqual .rate p'.2 ssDst) = true then
    doConfigureAndAddConverter supported created ssDst .rate p' else (true, p')) = (true, p')
  rw [hequal]
  rfl

theorem configureRate_of_not_larger
    (hlarger : ¬ p.2.getSampleSpecItem .rate > ssDst.getSampleSpecItem .rate) :
    configureAndAddConverter supported created ssDst [.rate] p =
      if (!isSampleSpecItemEqual .rate p.2 ssDst) = true then
        doConfigureAndAddConverter supported created ssDst .rate p else (true, p) := by
  rw [configureAndAddConverter]
  rw [if_neg hlarger]
  rfl

/-- The last level of the recursion. -/
theorem Alongside.configureRate
    (h : Alongside supported created a b rateSrc (withItem .rate rateSrc ssDst) p q)
    (hfresh : .rate ∉ p.1.activeAudioConvList) (hspec : p.2 = rateSrc)
    (hok : (a.configure supported created rateSrc (withItem .rate rateSrc ssDst)).1 = true →
      (b.configure supported created rateSrc (withItem .rate rateSrc ssDst)).1 = true)
    (hrun : configureAndAddConverter supported created ssDst [.rate] p = (true, p')) :
    ∃ q', configureAndAddConverter supported created ssDst [.rate] q = (true, q') ∧
      Alongside supported created a b rateSrc (withItem .rate rateSrc ssDst) p' q' := by
  by_cases hlarger : p.2.getSampleSpecItem .rate > ssDst.getSampleSpecItem .rate
  · have hdo : doConfigureAndAddConverter supported created ssDst .rate p = (true, p') := by
      have hguarded := hrun
      rw [configureAndAddConverter] at hguarded
      rw [if_pos hlarger] at hguarded
      obtain ⟨hdo, -⟩ := ok_of_guard hguarded
      rw [hdo, ← hrun, configureRate_of_larger hlarger hdo]
    obtain ⟨q', hdo', h'⟩ := h.addRate hfresh hspec hok hdo
    exact ⟨q', configureRate_of_larger (h.spec ▸ hlarger) hdo', h'⟩
  · rw [configureRate_of_not_larger hlarger] at hrun
    rw [configureRate_of_not_larger (h.spec ▸ hlarger), ← h.spec]
    split at hrun
    · rename_i hdiffers
      rw [if_pos hdiffers]
      exact h.addRate hfresh hspec hok hrun
    · rename_i hequal
      rw [if_neg hequal]
      obtain rfl := (Prod.mk.inj hrun).2
      exact ⟨q, rfl, h⟩

/-- If one conversion can be configured, the other one can, and both get the same converters. The
induction is on the items before the rate. -/
theorem Alongside.configure {items : List SampleSpecItem} (hitems : .rate ∉ items)
    (hok : (a.configure supported created rateSrc (withItem .rate rateSrc ssDst)).1 = true →
      (b.configure supported created rateSrc (withItem .rate rateSrc ssDst)).1 = true)
    (h : Alongside supported created a b rateSrc (withItem .rate rateSrc ssDst) p q)
    (hfresh : .rate ∉ p.1.activeAudioConvList)
    (hspec : items.foldl (fun ss item => lowered item ss ssDst) p.2 = rateSrc)
    (hrun : configureAndAddConverter supported created ssDst (items ++ [.rate]) p = (true, p')) :
    ∃ q', configureAndAddConverter supported created ssDst (items ++ [.rate]) q = (true, q') ∧
      Alongside supported created a b rateSrc (withItem .rate rateSrc ssDst) p' q' := by
  induction items generalizing p q p' with
  | nil => exact h.configureRate hfresh hspec hok hrun
  | cons item items ih =>
    rw [mem_cons, not_or] at hitems
    have hitem : item ≠ .rate := Ne.symm hitems.1
    rw [cons_append, configureAndAddConverter] at hrun ⊢
    -- What comes after the other items.
    have hlast : ∀ {p₂ q₂ : AudioConversion × SampleSpec},
        Alongside supported created a b rateSrc (withItem .rate rateSrc ssDst) p₂ q₂ →
        (if (!isSampleSpecItemEqual item p₂.2 ssDst) = true then
          doConfigureAndAddConverter supported created ssDst item p₂ else (true, p₂)) = (true, p') →
        ∃ q', (if (!isSampleSpecItemEqual item q₂.2 ssDst) = true then
            doConfigureAndAddConverter supported created ssDst item q₂ else (true, q₂)) =
              (true, q') ∧
          Alongside supported created a b rateSrc (withItem .rate rateSrc ssDst) p' q' := by
      intro p₂ q₂ h₂ hend
      rw [← h₂.spec]
      split at hend
      · rename_i hdiffers
        rw [if_pos hdiffers]
        exact h₂.add hitem hend
      · rename_i hequal
        rw [if_neg hequal]
        obtain rfl := (Prod.mk.inj hend).2
        exact ⟨q₂, rfl, h₂⟩
    rw [foldl_cons] at hspec
    rw [← h.spec]
    by_cases hlarger : p.2.getSampleSpecItem item > ssDst.getSampleSpecItem item
    · rw [if_pos hlarger] at hrun ⊢
      obtain ⟨hdo, hrun⟩ := ok_of_guard hrun
      obtain ⟨hdive, hrun⟩ := ok_of_guard hrun
      obtain ⟨q₁, hdo', h₁⟩ := h.add hitem hdo
      obtain ⟨hadded, hspec₁⟩ := added_doConfigureAndAddConverter hdo
      rw [lowered, if_pos hlarger, ← hspec₁] at hspec
      have hfresh₁ : .rate ∉
          (doConfigureAndAddConverter supported created ssDst item p).2.1.activeAudioConvList := by
        rw [hadded.active]
        simpa [hfresh] using hitems.1
      obtain ⟨q₂, hdive', h₂⟩ := ih hitems.2 h₁ hfresh₁ hspec hdive
      rw [hdive] at hrun
      obtain ⟨q', hend, h'⟩ := hlast h₂ hrun
      refine ⟨q', ?_, h'⟩
      simpa [hdo', hdive'] using hend
    · rw [if_neg hlarger] at hrun ⊢
      simp only [Bool.not_true, Bool.false_eq_true, if_false] at hrun ⊢
      obtain ⟨hdive, hrun⟩ := ok_of_guard hrun
      rw [lowered, if_neg hlarger] at hspec
      obtain ⟨q₂, hdive', h₂⟩ := ih hitems.2 h hfresh hspec hdive
      rw [hdive] at hrun
      obtain ⟨q', hend, h'⟩ := hlast h₂ hrun
      refine ⟨q', ?_, h'⟩
      simpa [hdive'] using hend

theorem Alongside.of_configure {c : AudioConversion} (d : AudioConversion)
    (h : (c.configure supported created ssSrc ssDst).1 = true)
    (hok : (c.resampler.configure supported created (rateSource ssSrc ssDst)
        (withItem .rate (rateSource ssSrc ssDst) ssDst)).1 = true →
      (d.resampler.configure supported created (rateSource ssSrc ssDst)
        (withItem .rate (rateSource ssSrc ssDst) ssDst)).1 = true) :
    (d.configure supported created ssSrc ssDst).1 = true ∧
      ∃ ss, Alongside supported created c.resampler d.resampler (rateSource ssSrc ssDst)
        (withItem .rate (rateSource ssSrc ssDst) ssDst)
        ((c.configure supported created ssSrc ssDst).2, ss)
        ((d.configure supported created ssSrc ssDst).2, ss) := by
  have hstart : Alongside supported created c.resampler d.resampler (rateSource ssSrc ssDst)
      (withItem .rate (rateSource ssSrc ssDst) ssDst)
      ({ c with activeAudioConvList := [], ssSrc := ssSrc, ssDst := ssDst }, ssSrc)
      ({ d with activeAudioConvList := [], ssSrc := ssSrc, ssDst := ssDst }, ssSrc) :=
    ⟨rfl, rfl, fun _ hi => absurd hi not_mem_nil, fun _ => ⟨rfl, rfl⟩,
      fun hi => absurd hi not_mem_nil⟩
  unfold AudioConversion.configure at h ⊢
  by_cases hequal : ssSrc = ssDst
  · rw [if_pos hequal, if_pos hequal]
    exact ⟨rfl, _, hstart⟩
  · rw [if_neg hequal] at h
    rw [if_neg hequal, if_neg hequal]
    have hitems : SampleSpecItem.rate ∉ [SampleSpecItem.channelCount, .format] := by decide
    obtain ⟨q', hrun', h'⟩ :=
      Alongside.configure hitems hok hstart not_mem_nil rfl (Prod.ext h rfl)
    have hrun : configureAndAddConverter supported created ssDst sampleSpecItems
      ({ d with activeAudioConvList := [], ssSrc := ssSrc, ssDst := ssDst }, ssSrc) =
        (true, q') := hrun'
    rw [hrun]
    refine ⟨rfl, q'.2, ?_⟩
    exact { h' with spec := rfl }

theorem Alongside.alike (h : Alongside supported created a b rateSrc rateDst p q)
    (halike : .rate ∈ p.1.activeAudioConvList →
      (a.configure supported created rateSrc rateDst).2.Alike
        (b.configure supported created rateSrc rateDst).2) : p.1.Alike q.1 := by
  have hresampler : .rate ∈ p.1.activeAudioConvList → p.1.resampler.Alike q.1.resampler := by
    intro hrate
    obtain ⟨⟨-, heq⟩, -, heq'⟩ := h.used hrate
    rw [heq, heq']
    exact halike hrate
  refine ⟨h.active, fun item hitem => ?_, hresampler⟩
  by_cases hrate : item = .rate
  · subst hrate
    exact (hresampler hitem).converter
  · exact h.converter item hitem hrate

end Alongside

/-! ## The last configuration -/

section Last

variable {supported : UInt32 → UInt32 → Bool} {created : Creation} {ssSrc ssDst : SampleSpec}
  {c : AudioConversion}

theorem rate_rateSource (ssSrc ssDst : SampleSpec) :
    (rateSource ssSrc ssDst).rate = ssSrc.rate := by
  have hlowered : ∀ item ss, item ≠ .rate → (lowered item ss ssDst).rate = ss.rate := by
    intro item ss hitem
    unfold lowered
    split
    · cases item <;> first | rfl | exact absurd rfl hitem
    · rfl
  exact (hlowered .format _ (by decide)).trans (hlowered .channelCount _ (by decide))

theorem rate_ne_of_resampler {a : AudioResampler}
    (h : (a.configure supported created (rateSource ssSrc ssDst)
      (withItem .rate (rateSource ssSrc ssDst) ssDst)).1 = true) : ssSrc.rate ≠ ssDst.rate := by
  have hne := rate_ne_of_convertible (AudioResampler.configure_spec h).1.1
  rwa [rate_rateSource] at hne

/-- A rate that differs is converted. -/
theorem rate_mem_of_configure (h : (c.configure supported created ssSrc ssDst).1 = true)
    (hrate : ssSrc.rate ≠ ssDst.rate) :
    .rate ∈ (c.configure supported created ssSrc ssDst).2.activeAudioConvList := by
  obtain ⟨s, t, steps, rfl, hnone, ht, hadded, -⟩ := AudioConversion.configure_spec h
  have hconversion : (c.configure supported created s.2 ssDst).2 = t.1 := by rw [ht]
  have hdst : t.2 = ssDst := by rw [ht]
  rw [hconversion, hadded.active, hnone, nil_append]
  by_contra hnot
  rw [← hdst] at hrate
  exact hrate (congrArg Prod.fst (hadded.path.kept hadded.accepted hnot))

/-- The resampler after a configuration without an error that converts the rate. -/
theorem resampler_of_configure (h : (c.configure supported created ssSrc ssDst).1 = true)
    (hrate : ssSrc.rate ≠ ssDst.rate) :
    (c.resampler.configure supported created (rateSource ssSrc ssDst)
        (withItem .rate (rateSource ssSrc ssDst) ssDst)).1 = true ∧
      (c.configure supported created ssSrc ssDst).2.resampler =
        (c.resampler.configure supported created (rateSource ssSrc ssDst)
          (withItem .rate (rateSource ssSrc ssDst) ssDst)).2 := by
  obtain ⟨-, ss, halong⟩ := Alongside.of_configure c h id
  exact (halong.used (rate_mem_of_configure h hrate)).1

theorem afresh_of_alike
    (hsucceeds : (AudioConversion.initial.configure supported created ssSrc ssDst).1 = true)
    (halike : c.Alike (AudioConversion.initial.configure supported created ssSrc ssDst).2) :
    Afresh supported created ssSrc ssDst c :=
  ⟨hsucceeds, halike, fun _ _ => by rw [halike.activeConverters_eq]⟩

/-- After any calls of `configure`, one without an error leaves the conversion as that of a new
object if and only if the rate is not converted, or each resampler that keeps its context has been
configured with the very specifications of this call. -/
theorem configured_afresh_iff (supported : UInt32 → UInt32 → Bool) (calls : List ConfigureCall)
    (h : ((configureAll supported calls).configure supported created ssSrc ssDst).1 = true) :
    Afresh supported created ssSrc ssDst
        ((configureAll supported calls).configure supported created ssSrc ssDst).2 ↔
      (ssSrc.rate ≠ ssDst.rate → (configureAll supported calls).resampler.Fits supported created
        (rateSource ssSrc ssDst) (withItem .rate (rateSource ssSrc ssDst) ssDst)) := by
  have hunused := unused_configureAll supported calls
  generalize configureAll supported calls = c at h hunused ⊢
  by_cases hrate : ssSrc.rate = ssDst.rate
  · refine ⟨fun _ hne => absurd hrate hne, fun _ => ?_⟩
    obtain ⟨hsucceeds, ss, halong⟩ := Alongside.of_configure .initial h fun hok =>
      absurd hrate (rate_ne_of_resampler hok)
    exact afresh_of_alike hsucceeds (halong.alike fun hmem =>
      absurd hrate (rate_ne_of_resampler (halong.used hmem).1.1))
  · obtain ⟨hconfigured, heq⟩ := resampler_of_configure h hrate
    have hiff := AudioResampler.alike_iff hunused.resampler hunused.pivotResampler hconfigured
    constructor
    · intro hafresh _
      obtain ⟨hinitial, heq'⟩ := resampler_of_configure hafresh.succeeds hrate
      have halike := hafresh.alike.resampler (rate_mem_of_configure h hrate)
      rw [heq, heq'] at halike
      exact hiff.mp ⟨hinitial, halike⟩
    · intro hfits
      obtain ⟨hinitial, halike⟩ := hiff.mpr (hfits hrate)
      obtain ⟨hsucceeds, ss, halong⟩ := Alongside.of_configure .initial h fun _ => hinitial
      exact afresh_of_alike hsucceeds (halong.alike fun _ => halike)

/-- What is left of earlier configurations is in the two resamplers only: after a configuration that
a new object can have, the converters that are active, their specifications and their functions are
those of the new object. -/
theorem configured_converters_eq (supported : UInt32 → UInt32 → Bool) (calls : List ConfigureCall)
    (h : ((configureAll supported calls).configure supported created ssSrc ssDst).1 = true)
    (hnew : (AudioConversion.initial.configure supported created ssSrc ssDst).1 = true) :
    let c := ((configureAll supported calls).configure supported created ssSrc ssDst).2
    let new := (AudioConversion.initial.configure supported created ssSrc ssDst).2
    c.activeAudioConvList = new.activeAudioConvList ∧
      ∀ item ∈ c.activeAudioConvList, c.converter item = new.converter item := by
  obtain ⟨-, ss, halong⟩ := Alongside.of_configure .initial h fun hok =>
    (resampler_of_configure hnew (rate_ne_of_resampler hok)).1
  refine ⟨halong.active, fun item hitem => ?_⟩
  by_cases hrate : item = .rate
  · subst hrate
    obtain ⟨⟨hok, heq⟩, hokNew, heqNew⟩ := halong.used hitem
    dsimp only at heq heqNew
    rw [AudioConversion.converter, AudioConversion.converter, heq, heqNew,
      (AudioResampler.configure_spec hok).2, (AudioResampler.configure_spec hokNew).2]
  · exact halong.converter item hitem hrate

/-- One more configuration in the same way changes nothing that converts. -/
theorem alike_configure_again (hc : c.resampler.Unused supported) (hcreated : created.direct = true)
    (h : (c.configure supported created ssSrc ssDst).1 = true) :
    let c' := (c.configure supported created ssSrc ssDst).2
    (c'.configure supported created ssSrc ssDst).1 = true ∧
      c'.Alike (c'.configure supported created ssSrc ssDst).2 := by
  have hagain : ∀ hok : (c.resampler.configure supported created (rateSource ssSrc ssDst)
      (withItem .rate (rateSource ssSrc ssDst) ssDst)).1 = true,
      (c.configure supported created ssSrc ssDst).2.resampler.configure supported created
          (rateSource ssSrc ssDst) (withItem .rate (rateSource ssSrc ssDst) ssDst) =
        (true, (c.resampler.configure supported created (rateSource ssSrc ssDst)
          (withItem .rate (rateSource ssSrc ssDst) ssDst)).2) := by
    intro hok
    rw [(resampler_of_configure h (rate_ne_of_resampler hok)).2]
    exact AudioResampler.configure_again hc hcreated hok
  obtain ⟨hsucceeds, ss, halong⟩ := Alongside.of_configure
    (c.configure supported created ssSrc ssDst).2 h fun hok => congrArg Prod.fst (hagain hok)
  refine ⟨hsucceeds, halong.alike fun hmem => ?_⟩
  rw [hagain (halong.used hmem).1.1]
  exact ⟨rfl, rfl, fun _ _ => rfl⟩

theorem configureAll_append (supported : UInt32 → UInt32 → Bool) (calls : List ConfigureCall)
    (call : ConfigureCall) : configureAll supported (calls ++ [call]) =
      ((configureAll supported calls).configure supported call.created call.ssSrc call.ssDst).2 :=
  foldl_append

/-- After any calls of `configure`, repeating one that succeeds, as often as one likes, succeeds and
leaves the converters and their results as they are, if the library has memory for a context. -/
theorem configured_again (supported : UInt32 → UInt32 → Bool) (calls : List ConfigureCall)
    (call : ConfigureCall) (hcreated : call.created.direct = true)
    (h : ((configureAll supported calls).configure supported call.created call.ssSrc
      call.ssDst).1 = true) (n : ℕ) :
    ((configureAll supported (calls ++ List.replicate n call)).configure supported call.created
        call.ssSrc call.ssDst).1 = true ∧
      (configureAll supported (calls ++ [call])).Alike
        (configureAll supported (calls ++ List.replicate (n + 1) call)) := by
  induction n with
  | zero => exact ⟨by simpa using h, .refl _⟩
  | succ n ih =>
    have hsucc : ∀ m, configureAll supported (calls ++ List.replicate (m + 1) call) =
        ((configureAll supported (calls ++ List.replicate m call)).configure supported
          call.created call.ssSrc call.ssDst).2 := fun m => by
      rw [replicate_succ', ← append_assoc, configureAll_append]
    have hnext := alike_configure_again (unused_configureAll supported _) hcreated ih.1
    dsimp only at hnext
    rw [← hsucc n, ← hsucc (n + 1)] at hnext
    exact ⟨hnext.1, ih.2.trans hnext.2⟩

end Last

/-- From a rate to 48 kHz with 16 bits, in stereo or in mono. -/
def upTo48k (stereo : Bool) (rate : UInt32) : ConfigureCall :=
  ⟨⟨true, true, true⟩, if stereo then defaultSpec.setSampleRate rate else Conversion.monoAt rate,
    if stereo then defaultSpec else Conversion.monoAt 48000⟩

/-- Stereo from 8 kHz and mono from 16 kHz: the second configuration is like a first one. -/
theorem configured_afresh_after_other_rate :
    Afresh (fun _ _ => true) ⟨true, true, true⟩ (Conversion.monoAt 16000) (Conversion.monoAt 48000)
      ((configureAll (fun _ _ => true) [upTo48k true 8000]).configure (fun _ _ => true)
        ⟨true, true, true⟩ (Conversion.monoAt 16000) (Conversion.monoAt 48000)).2 :=
  (configured_afresh_iff (fun _ _ => true) [upTo48k true 8000] (by decide)).mpr
    fun _ => ⟨by decide, by decide⟩

/-- The channels of a resampler that has kept its context do not show in the converters. -/
theorem configured_converters_eq_after_stereo :
    let new := (AudioConversion.initial.configure (fun _ _ => true) ⟨true, true, true⟩
      (Conversion.monoAt 8000) (Conversion.monoAt 48000)).2
    (configureAll (fun _ _ => true) [upTo48k true 8000, upTo48k false 8000]).converter .rate =
      new.converter .rate :=
  (configured_converters_eq (fun _ _ => true) [upTo48k true 8000] (by decide) (by decide)).2 .rate
    (by decide)

/-- Over the pivot, as the library does not convert 8 to 44.1 kHz, four times in a row. -/
theorem configured_again_over_pivot :
    let supported : UInt32 → UInt32 → Bool := fun src dst => src == 48000 || dst == 48000
    let call : ConfigureCall := ⟨⟨true, true, true⟩, Conversion.monoAt 8000,
      Conversion.monoAt 44100⟩
    (configureAll supported [call]).resampler.activeResamplerList = [.pivot, .last] ∧
      (configureAll supported [call]).Alike (configureAll supported [call, call, call, call]) :=
  ⟨by decide, (configured_again (fun src dst => src == 48000 || dst == 48000) []
    ⟨⟨true, true, true⟩, Conversion.monoAt 8000, Conversion.monoAt 44100⟩ rfl (by decide) 3).2⟩

/-- Stereo from 8 kHz and then mono from 8 kHz: the resampler still converts two channels. -/
theorem configured_not_afresh_after_stereo :
    ¬ ∀ (supported : UInt32 → UInt32 → Bool) (calls : List ConfigureCall) (created : Creation)
      (ssSrc ssDst : SampleSpec),
      ((configureAll supported calls).configure supported created ssSrc ssDst).1 = true →
        Afresh supported created ssSrc ssDst
          ((configureAll supported calls).configure supported created ssSrc ssDst).2 := by
  intro hclaim
  have hafresh := hclaim (fun _ _ => true) [upTo48k true 8000] ⟨true, true, true⟩
    (Conversion.monoAt 8000) (Conversion.monoAt 48000) (by decide)
  have hlast := (hafresh.alike.resampler (by decide)).stages .last (by decide)
  exact absurd hlast (by decide)

end HardwareIntel.Configuration
