import HardwareIntel.Conversion.Configuration

/-!
# The converters of a configured conversion

What `configure` has set up, as converters of a buffer: the remapper and the reformatter with their
functions, and the contexts of the active resamplers. Where each context has the rates that its
resampler stores, the contexts of a configured conversion lead from the source rate to the
destination rate, directly or over the pivot (`leads_of_configure`).
-/

namespace HardwareIntel.Configuration

open List

open Conversion (Frame SampleConverter)
open SampleSpecifications (SampleSpec SampleSpecItem audioFormatPcm16Bit)

/-! ## Converters -/

/-- The part of a specification on which converters of samples work. -/
def toSampleSpec (ss : SampleSpec) : Conversion.SampleSpec :=
  ⟨if ss.format = audioFormatPcm16Bit then .pcm16Bit else .pcm8_24Bit, ss.rate.toNat,
    ss.channelsPolicy⟩

/-- The function on samples that a pointer points to. -/
def ConvertSamplesFct.sampleConverter : ConvertSamplesFct → Option SampleConverter
  | .monoToStereo _ => some .monoToStereo
  | .stereoToMono _ => some .stereoToMono
  | .channelsPolicyInStereo _ => some .channelsPolicyInStereo
  | .s16toS24over32 => some .s16toS24over32
  | .s24over32toS16 => some .s24over32toS16
  | .resampleFrames => none

/-- The resampler of a stage. -/
def AudioResampler.stage (a : AudioResampler) : Stage → Resampler
  | .pivot => a.pivotResampler
  | .last => a.resampler

/-- The contexts of the active resamplers. -/
def AudioResampler.contexts (a : AudioResampler) : List Context :=
  a.activeResamplerList.filterMap fun stage => (a.stage stage).context

/-- An active converter. -/
def AudioConversion.activeConverter (c : AudioConversion) (item : SampleSpecItem) :
    Option (Conversion.AudioConverter (List Context)) :=
  match item with
  | .rate => some (.resampler c.resampler.contexts)
  | _ => ((c.converter item).convertSamplesFct.bind ConvertSamplesFct.sampleConverter).map
      fun fct => .samples fct (toSampleSpec (c.converter item).ssSrc)
        (toSampleSpec (c.converter item).ssDst)

def AudioConversion.activeConverters (c : AudioConversion) :
    List (Conversion.AudioConverter (List Context)) :=
  c.activeAudioConvList.filterMap c.activeConverter

/-! ## Contexts -/

/-- The context has the rates with which the resampler is configured. -/
def Resampler.Coherent (r : Resampler) : Prop :=
  ∀ k, r.context = some k →
    k.srcRate = r.converter.ssSrc.rate ∧ k.dstRate = r.converter.ssDst.rate

theorem Resampler.coherent_initial : Resampler.initial.Coherent := by
  intro k hk
  exact absurd hk (by simp [Resampler.initial])

section Contexts

variable {supported : UInt32 → UInt32 → Bool} {created : Creation} {ssSrc ssDst : SampleSpec}

/-- What the configuration of a resampler does. -/
theorem Resampler.configure_cases (r : Resampler) (new : Bool) :
    ((ssSrc.rate = r.converter.ssSrc.rate ∧ ssDst.rate = r.converter.ssDst.rate ∧
        r.context.isSome = true) ∧ r.configure supported new ssSrc ssDst = (true, r)) ∨
    (¬ (ssSrc.rate = r.converter.ssSrc.rate ∧ ssDst.rate = r.converter.ssDst.rate ∧
        r.context.isSome = true) ∧
      ((convertible .rate ssSrc ssDst = false ∧ r.configure supported new ssSrc ssDst =
          (false, { r with converter := { r.converter with ssSrc := ssSrc, ssDst := ssDst } })) ∨
        (convertible .rate ssSrc ssDst = true ∧ (supported ssSrc.rate ssDst.rate && new) = false ∧
          r.configure supported new ssSrc ssDst =
            (false, { r with converter := ⟨ssSrc, ssDst, none⟩, context := none })) ∨
        (convertible .rate ssSrc ssDst = true ∧ (supported ssSrc.rate ssDst.rate && new) = true ∧
          r.configure supported new ssSrc ssDst = (true, { r with
            converter := ⟨ssSrc, ssDst, some .resampleFrames⟩
            context := some ⟨ssSrc.channelCount, ssSrc.rate, ssDst.rate, []⟩ })))) := by
  unfold Resampler.configure
  by_cases hearly : ssSrc.rate = r.converter.ssSrc.rate ∧ ssDst.rate = r.converter.ssDst.rate ∧
      r.context.isSome = true
  · exact .inl ⟨hearly, if_pos hearly⟩
  refine .inr ⟨hearly, ?_⟩
  rw [if_neg hearly]
  unfold Converter.configure
  cases hconvertible : convertible .rate ssSrc ssDst with
  | false => exact .inl ⟨rfl, by simp⟩
  | true =>
    cases hcreated : supported ssSrc.rate ssDst.rate && new with
    | false => exact .inr (.inl ⟨rfl, rfl, by simp [← Bool.not_and, hcreated]⟩)
    | true => exact .inr (.inr ⟨rfl, rfl, by simp [← Bool.not_and, hcreated]⟩)

/-- A resampler that is configured without an error has a context for the rates. -/
theorem Resampler.context_of_configure {r : Resampler} {new : Bool} (hr : r.Coherent)
    (h : (r.configure supported new ssSrc ssDst).1 = true) :
    (r.configure supported new ssSrc ssDst).2.Coherent ∧
      ∃ k, (r.configure supported new ssSrc ssDst).2.context = some k ∧
        k.srcRate = ssSrc.rate ∧ k.dstRate = ssDst.rate := by
  rcases r.configure_cases new with
    ⟨hearly, heq⟩ | ⟨-, ⟨-, heq⟩ | ⟨-, -, heq⟩ | ⟨-, -, heq⟩⟩
  · rw [heq]
    obtain ⟨k, hk⟩ := Option.isSome_iff_exists.mp hearly.2.2
    exact ⟨hr, k, hk, by rw [hearly.1, (hr k hk).1], by rw [hearly.2.1, (hr k hk).2]⟩
  · exact absurd h (by rw [heq]; simp)
  · exact absurd h (by rw [heq]; simp)
  · rw [heq]
    refine ⟨fun k hk => ?_, _, rfl, rfl, rfl⟩
    obtain rfl := Option.some.inj hk
    exact ⟨rfl, rfl⟩

/-- A resampler for which the rates are refused loses its context. -/
theorem Resampler.coherent_of_refused {r : Resampler} {new : Bool}
    (hconvertible : convertible .rate ssSrc ssDst = true)
    (h : (r.configure supported new ssSrc ssDst).1 = false) :
    (r.configure supported new ssSrc ssDst).2.Coherent := by
  rcases r.configure_cases new with
    ⟨-, heq⟩ | ⟨-, ⟨hnot, -⟩ | ⟨-, -, heq⟩ | ⟨-, -, heq⟩⟩
  · exact absurd h (by rw [heq]; simp)
  · exact absurd hconvertible (by rw [hnot]; simp)
  · rw [heq]
    intro k hk
    exact absurd hk (by simp)
  · exact absurd h (by rw [heq]; simp)

/-- The two ways in which a rate is converted. -/
theorem AudioResampler.configure_cases {a : AudioResampler}
    (h : (a.configure supported created ssSrc ssDst).1 = true) :
    convertible .rate ssSrc ssDst = true ∧
    (let direct := a.resampler.configure supported created.direct ssSrc ssDst
      let pivotSs := ssDst.setSampleRate pivotSampleRate
      let pivot := a.pivotResampler.configure supported created.pivot ssSrc pivotSs
      let last := direct.2.configure supported created.last pivotSs ssDst
      (direct.1 = true ∧ a.configure supported created ssSrc ssDst =
        (true, ⟨⟨ssSrc, ssDst, none⟩, direct.2, a.pivotResampler, [.last]⟩)) ∨
      (direct.1 = false ∧ pivot.1 = true ∧ last.1 = true ∧
        a.configure supported created ssSrc ssDst =
          (true, ⟨⟨ssSrc, ssDst, none⟩, last.2, pivot.2, [.pivot, .last]⟩))) := by
  obtain ⟨⟨hconvertible, -⟩, -⟩ := AudioResampler.configure_spec h
  refine ⟨hconvertible, ?_⟩
  unfold AudioResampler.configure at h ⊢
  have hconfigure : a.converter.configure .rate ssSrc ssDst = (true, ⟨ssSrc, ssDst, none⟩) :=
    if_pos hconvertible
  simp only [hconfigure, Bool.not_true, Bool.false_eq_true, if_false] at h ⊢
  cases hdirect : (a.resampler.configure supported created.direct ssSrc ssDst).1 with
  | true => exact .inl ⟨rfl, by simp⟩
  | false =>
    refine .inr ⟨rfl, ?_⟩
    simp only [hdirect, Bool.false_eq_true, if_false] at h ⊢
    cases hpivot : (a.pivotResampler.configure supported created.pivot ssSrc
        (ssDst.setSampleRate pivotSampleRate)).1 with
    | false => simp [hpivot] at h
    | true =>
      simp only [hpivot, Bool.not_true, Bool.false_eq_true, if_false] at h ⊢
      cases hlast : ((a.resampler.configure supported created.direct ssSrc ssDst).2.configure
          supported created.last (ssDst.setSampleRate pivotSampleRate) ssDst).1 with
      | false => simp [hlast] at h
      | true => exact ⟨trivial, rfl, by simp⟩

/-- The contexts lead from the one rate to the other, directly or over the pivot. -/
def Leads (ks : List Context) (srcRate dstRate : UInt32) : Prop :=
  ks.map (fun k => (k.srcRate, k.dstRate)) = [(srcRate, dstRate)] ∨
    ks.map (fun k => (k.srcRate, k.dstRate)) =
      [(srcRate, pivotSampleRate), (pivotSampleRate, dstRate)]

/-- With coherent resamplers, the contexts lead from the source rate to the destination rate. -/
theorem AudioResampler.leads_of_configure {a : AudioResampler} (hlast : a.resampler.Coherent)
    (hpivot : a.pivotResampler.Coherent)
    (h : (a.configure supported created ssSrc ssDst).1 = true) :
    let a' := (a.configure supported created ssSrc ssDst).2
    a'.resampler.Coherent ∧ a'.pivotResampler.Coherent ∧
      Leads a'.contexts ssSrc.rate ssDst.rate := by
  obtain ⟨hconvertible, ⟨hdirect, heq⟩ | ⟨hdirect, hpivotOk, hlastOk, heq⟩⟩ :=
    AudioResampler.configure_cases h
  · obtain ⟨hcoherent, k, hk, hsrc, hdst⟩ := Resampler.context_of_configure hlast hdirect
    rw [heq]
    refine ⟨hcoherent, hpivot, .inl ?_⟩
    simp only [AudioResampler.contexts, AudioResampler.stage, filterMap_cons, hk,
      filterMap_nil, map_cons, map_nil, hsrc, hdst]
  · have hrefused := @Resampler.coherent_of_refused supported ssSrc ssDst _ _ hconvertible hdirect
    obtain ⟨hcoherent, k, hk, hsrc, hdst⟩ := Resampler.context_of_configure hrefused hlastOk
    obtain ⟨hcoherent', k', hk', hsrc', hdst'⟩ := Resampler.context_of_configure hpivot hpivotOk
    rw [heq]
    refine ⟨hcoherent, hcoherent', .inr ?_⟩
    simp only [AudioResampler.contexts, AudioResampler.stage, filterMap_cons, hk, hk',
      filterMap_nil, map_cons, map_nil, hsrc, hsrc', hdst, hdst']
    rfl

/-- What every added converter keeps. -/
theorem configureAndAddConverter_invariant {I : AudioConversion × SampleSpec → Prop}
    (hstep : ∀ item s t, doConfigureAndAddConverter supported created ssDst item s = (true, t) →
      I s → I t) {items : List SampleSpecItem} (hitems : items.Nodup)
    {s t : AudioConversion × SampleSpec}
    (h : configureAndAddConverter supported created ssDst items s = (true, t)) (hs : I s) : I t := by
  induction items generalizing s t with
  | nil =>
    obtain rfl := (Prod.mk.inj h).2
    exact hs
  | cons item items ih =>
    obtain ⟨hnot, hrest⟩ := nodup_cons.mp hitems
    rcases configureAndAddConverter_cons h with
      ⟨-, s₁, s₂, hdo, hdive, hend⟩ | ⟨-, s₁, hdive, ⟨-, rfl⟩ | hdo⟩
    · obtain ⟨hadded, -⟩ := added_doConfigureAndAddConverter hdo
      obtain ⟨steps, hsteps⟩ := added_configureAndAddConverter hrest hdive
      have hdone : itemValue item s₂.2 = itemValue item ssDst := by
        rw [hsteps.kept item hnot]
        exact hadded.done item (mem_singleton_self item)
      obtain rfl := hend hdone
      exact ih hrest hdive (hstep item s s₁ hdo hs)
    · exact ih hrest hdive hs
    · exact hstep item s₁ t hdo (ih hrest hdive hs)

/-- The resamplers are coherent, and if they are active, the contexts lead from the one rate to the
other. -/
structure Led (c : AudioConversion) : Prop where
  last : c.resampler.resampler.Coherent
  pivot : c.resampler.pivotResampler.Coherent
  leads : .rate ∈ c.activeAudioConvList →
    Leads c.resampler.contexts c.resampler.converter.ssSrc.rate c.resampler.converter.ssDst.rate

theorem Led.doConfigureAndAddConverter {item : SampleSpecItem} {s t : AudioConversion × SampleSpec}
    (h : Configuration.doConfigureAndAddConverter supported created ssDst item s = (true, t))
    (hs : Led s.1) : Led t.1 := by
  unfold Configuration.doConfigureAndAddConverter at h
  dsimp only at h
  split at h
  · rename_i hok
    obtain rfl := (Prod.mk.inj h).2
    cases item with
    | channelCount =>
      refine ⟨hs.last, hs.pivot, fun hactive => hs.leads ?_⟩
      simpa [AudioConversion.configureConverter] using hactive
    | format =>
      refine ⟨hs.last, hs.pivot, fun hactive => hs.leads ?_⟩
      simpa [AudioConversion.configureConverter] using hactive
    | rate =>
      obtain ⟨hlast, hpivot, hleads⟩ := AudioResampler.leads_of_configure hs.last hs.pivot hok
      refine ⟨hlast, hpivot, fun _ => ?_⟩
      have hconverter := (AudioResampler.configure_spec hok).2
      dsimp only [AudioConversion.configureConverter]
      rw [hconverter]
      exact hleads
  · exact absurd h (by simp)

/-- What `configure` keeps of the resamplers. -/
theorem Led.configure {c : AudioConversion} (hlast : c.resampler.resampler.Coherent)
    (hpivot : c.resampler.pivotResampler.Coherent)
    (h : (c.configure supported created ssSrc ssDst).1 = true) :
    Led (c.configure supported created ssSrc ssDst).2 := by
  unfold AudioConversion.configure at h ⊢
  dsimp only at h ⊢
  split at h
  · rename_i heq
    rw [if_pos heq]
    exact ⟨hlast, hpivot, fun hactive => absurd hactive (by simp)⟩
  · rename_i hne
    rw [if_neg hne]
    generalize hp : configureAndAddConverter supported created ssDst sampleSpecItems
      ({ c with activeAudioConvList := [], ssSrc := ssSrc, ssDst := ssDst }, ssSrc) = p at h ⊢
    obtain ⟨ok, t⟩ := p
    obtain rfl : ok = true := h
    exact configureAndAddConverter_invariant (I := fun s => Led s.1)
      (fun item s t hdo hs => hs.doConfigureAndAddConverter hdo) (by decide) hp
      ⟨hlast, hpivot, fun hactive => absurd hactive (by simp)⟩

/-- After a conversion with coherent resamplers has been configured, its contexts lead from the
source rate to the destination rate; if the rates are not converted, they are the same. -/
theorem leads_of_configure {c : AudioConversion} (hlast : c.resampler.resampler.Coherent)
    (hpivot : c.resampler.pivotResampler.Coherent)
    (h : (c.configure supported created ssSrc ssDst).1 = true) :
    let c' := (c.configure supported created ssSrc ssDst).2
    if .rate ∈ c'.activeAudioConvList then
      Leads c'.resampler.contexts ssSrc.rate ssDst.rate
    else ssSrc.rate = ssDst.rate := by
  have hled := Led.configure hlast hpivot h
  obtain ⟨s, t, steps, rfl, hnone, ht, hadded, -⟩ := AudioConversion.configure_spec h
  have hconversion : (c.configure supported created s.2 ssDst).2 = t.1 := by rw [ht]
  have hpath : Path steps s.2 ssDst := by
    have hdst : t.2 = ssDst := by rw [ht]
    exact hdst ▸ hadded.path
  have hactive : t.1.activeAudioConvList = steps.map Step.item := by
    rw [hadded.active, hnone, nil_append]
  rw [hconversion] at hled ⊢
  dsimp only
  split
  · rename_i hrate
    have hleads := hled.leads hrate
    rw [hactive] at hrate
    obtain ⟨x, hx, hitem⟩ := mem_map.mp hrate
    obtain ⟨hsrc, hdst⟩ := hpath.item_eq hadded.accepted hadded.once hx
    obtain ⟨hconvSrc, hconvDst⟩ := hadded.converter x hx
    rw [hitem] at hsrc hdst hconvSrc hconvDst
    have hsrcRate : x.ssSrc.rate = s.2.rate := congrArg Prod.fst hsrc
    have hdstRate : x.ssDst.rate = ssDst.rate := congrArg Prod.fst hdst
    rwa [← hsrcRate, ← hdstRate, ← hconvSrc, ← hconvDst]
  · rename_i hrate
    rw [hactive] at hrate
    exact congrArg Prod.fst (hpath.kept hadded.accepted hrate)

end Contexts

end HardwareIntel.Configuration
