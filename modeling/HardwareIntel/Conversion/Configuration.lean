import HardwareIntel.SampleSpecifications.SampleSpec
import Mathlib.Data.List.Nodup

/-!
# Configuration of the audio conversion

`configure` of `AudioConversion.cpp` and of its three converters. The channels, the format and the
rate are gone through in this order; an item that is larger at the source is converted on the way
down, and any other that differs on the way back, so that the rate is converted with the smaller
format.

The chain that is set up leads from the source to the destination (`Chained`). But no converter
looks at the format in which a resampler is used, which reads its samples as 16-bit ones: a rate is
converted between two specifications of 24-bit samples, too. `configured_chain_iff` says that this
is the only gap.

Functions that return a status are pairs of whether it is no error, and the object they leave.
-/

namespace HardwareIntel.Configuration

open List

open Conversion (ChannelsPolicy)
open SampleSpecifications (SampleSpec SampleSpecItem audioFormatPcm16Bit audioFormatPcm8_24Bit)
open SampleSpecifications.SampleSpec (isSampleSpecItemEqual)

/-! ## Converters -/

/-- The instances of the templates of the remapper. -/
inductive SampleType
  | int16
  | uint32
  deriving DecidableEq

/-- The functions that `mConvertSamplesFct` points to. -/
inductive ConvertSamplesFct
  | monoToStereo (type : SampleType)
  | stereoToMono (type : SampleType)
  | channelsPolicyInStereo (type : SampleType)
  | s16toS24over32
  | s24over32toS16
  | resampleFrames
  deriving DecidableEq

/-- The members of `AudioConverter`. -/
structure Converter where
  ssSrc : SampleSpec
  ssDst : SampleSpec
  convertSamplesFct : Option ConvertSamplesFct
  deriving DecidableEq

/-- The default specification: stereo, 16 bits, 48 kHz. -/
def defaultSpec : SampleSpec :=
  ⟨2, audioFormatPcm16Bit, 48000, [.copy, .copy], by decide, by decide⟩

def Converter.initial : Converter := ⟨defaultSpec, defaultSpec, none⟩

/-- The items in the order of their numbers. -/
def sampleSpecItems : List SampleSpecItem := [.channelCount, .format, .rate]

/-- The item of the converter differs, and the others do not. -/
def convertible (item : SampleSpecItem) (ssSrc ssDst : SampleSpec) : Bool :=
  sampleSpecItems.all fun i => isSampleSpecItemEqual i ssSrc ssDst == decide (i ≠ item)

/-- `AudioConverter::configure`. -/
def Converter.configure (c : Converter) (item : SampleSpecItem) (ssSrc ssDst : SampleSpec) :
    Bool × Converter :=
  if convertible item ssSrc ssDst then (true, ⟨ssSrc, ssDst, none⟩)
  else (false, { c with ssSrc := ssSrc, ssDst := ssDst })

/-- The type of the samples of a format. -/
def sampleType (format : UInt32) : Option SampleType :=
  if format = audioFormatPcm16Bit then some .int16
  else if format = audioFormatPcm8_24Bit then some .uint32
  else none

@[simp] theorem sampleType_pcm16Bit : sampleType audioFormatPcm16Bit = some .int16 := by decide

@[simp] theorem sampleType_pcm8_24Bit : sampleType audioFormatPcm8_24Bit = some .uint32 := by decide

/-- The template `configure` of the remapper. -/
def remapperFct (type : SampleType) (ssSrc ssDst : SampleSpec) : Option ConvertSamplesFct :=
  if ssSrc.isMono && ssDst.isStereo then some (.monoToStereo type)
  else if ssSrc.isStereo && ssDst.isMono then some (.stereoToMono type)
  else if ssSrc.isStereo && ssDst.isStereo then some (.channelsPolicyInStereo type)
  else none

/-- `AudioRemapper::configure`. That the channels differ has been checked. -/
def remapperConfigure (c : Converter) (ssSrc ssDst : SampleSpec) : Bool × Converter :=
  let p := c.configure .channelCount ssSrc ssDst
  if p.1 then
    match (sampleType ssSrc.format).bind fun type => remapperFct type ssSrc ssDst with
    | some fct => (true, { p.2 with convertSamplesFct := some fct })
    | none => (false, p.2)
  else p

/-- The function of the reformatter. -/
def reformatterFct (ssSrc ssDst : SampleSpec) : Option ConvertSamplesFct :=
  if ssSrc.format = audioFormatPcm16Bit ∧ ssDst.format = audioFormatPcm8_24Bit then
    some .s16toS24over32
  else if ssSrc.format = audioFormatPcm8_24Bit ∧ ssDst.format = audioFormatPcm16Bit then
    some .s24over32toS16
  else none

/-- `AudioReformatter::configure`. -/
def reformatterConfigure (c : Converter) (ssSrc ssDst : SampleSpec) : Bool × Converter :=
  let p := c.configure .format ssSrc ssDst
  if p.1 then
    match reformatterFct ssSrc ssDst with
    | some fct => (true, { p.2 with convertSamplesFct := some fct })
    | none => (false, p.2)
  else p

/-! ## The resampler -/

/-- A context of the resampling library, with what it has been given so far. -/
structure Context where
  channelCount : UInt32
  srcRate : UInt32
  dstRate : UInt32
  history : List (List (List ℕ))
  deriving DecidableEq

/-- The members of `Resampler`; each of the two buffers has `floats` places. -/
structure Resampler where
  converter : Converter
  context : Option Context
  maxFrameCnt : ℕ
  floats : ℕ
  deriving DecidableEq

def Resampler.initial : Resampler := ⟨.initial, none, 0, 0⟩

section Library

variable (supported : UInt32 → UInt32 → Bool)

/-- `Resampler::configure`; `created` is whether the library creates a context if it is asked to. -/
def Resampler.configure (r : Resampler) (created : Bool) (ssSrc ssDst : SampleSpec) :
    Bool × Resampler :=
  if ssSrc.rate = r.converter.ssSrc.rate ∧ ssDst.rate = r.converter.ssDst.rate ∧
      r.context.isSome = true then (true, r)
  else
    let p := r.converter.configure .rate ssSrc ssDst
    if !p.1 then (false, { r with converter := p.2 })
    else if !supported ssSrc.rate ssDst.rate || !created then
      (false, { r with converter := p.2, context := none })
    else
      (true, { r with
        converter := { p.2 with convertSamplesFct := some .resampleFrames }
        context := some ⟨ssSrc.channelCount, ssSrc.rate, ssDst.rate, []⟩ })

/-- The two resamplers of an `AudioResampler`. -/
inductive Stage
  | pivot
  | last
  deriving DecidableEq

/-- The members of `AudioResampler`. -/
structure AudioResampler where
  converter : Converter
  resampler : Resampler
  pivotResampler : Resampler
  activeResamplerList : List Stage
  deriving DecidableEq

def AudioResampler.initial : AudioResampler := ⟨.initial, .initial, .initial, []⟩

/-- Whether the library creates a context, in the three calls that may ask for one. -/
structure Creation where
  direct : Bool
  pivot : Bool
  last : Bool

/-- `mPivotSampleRate`. -/
def pivotSampleRate : UInt32 := 48000

/-- `AudioResampler::configure`. If the library cannot convert the rates, they are converted over a
pivot. -/
def AudioResampler.configure (a : AudioResampler) (created : Creation) (ssSrc ssDst : SampleSpec) :
    Bool × AudioResampler :=
  let p := a.converter.configure .rate ssSrc ssDst
  let a := { a with converter := p.2, activeResamplerList := [] }
  if !p.1 then (false, a)
  else
    let direct := a.resampler.configure supported created.direct ssSrc ssDst
    if direct.1 then (true, { a with resampler := direct.2, activeResamplerList := [.last] })
    else
      let pivotSs := ssDst.setSampleRate pivotSampleRate
      let pivot := a.pivotResampler.configure supported created.pivot ssSrc pivotSs
      if !pivot.1 then (false, { a with resampler := direct.2, pivotResampler := pivot.2 })
      else
        let last := direct.2.configure supported created.last pivotSs ssDst
        let a := { a with resampler := last.2, pivotResampler := pivot.2 }
        if !last.1 then (false, { a with activeResamplerList := [.pivot] })
        else (true, { a with activeResamplerList := [.pivot, .last] })

/-! ## The conversion -/

/-- The converters of an `AudioConversion`, those that are active, in order, and the
specifications. What belongs to the buffer is reset by every call of `configure`. -/
structure AudioConversion where
  remapper : Converter
  reformatter : Converter
  resampler : AudioResampler
  activeAudioConvList : List SampleSpecItem
  ssSrc : SampleSpec
  ssDst : SampleSpec
  deriving DecidableEq

def AudioConversion.initial : AudioConversion :=
  ⟨.initial, .initial, .initial, [], defaultSpec, defaultSpec⟩

/-- The members that the converter of an item has as an `AudioConverter`. -/
def AudioConversion.converter (c : AudioConversion) : SampleSpecItem → Converter
  | .channelCount => c.remapper
  | .format => c.reformatter
  | .rate => c.resampler.converter

/-- A specification with one item of another; with the channels come their policies. -/
def withItem (item : SampleSpecItem) (ss ssDst : SampleSpec) : SampleSpec :=
  match item with
  | .channelCount =>
    { ss with
      channelCount := ssDst.channelCount
      channelsPolicy := ssDst.channelsPolicy
      channelCount_lt := ssDst.channelCount_lt
      length_channelsPolicy_le := ssDst.length_channelsPolicy_le }
  | .format => { ss with format := ssDst.format }
  | .rate => { ss with rate := ssDst.rate }

/-- `configure` of `mAudioConverter[item]`. -/
def AudioConversion.configureConverter (c : AudioConversion) (created : Creation)
    (item : SampleSpecItem) (ssSrc ssDst : SampleSpec) : Bool × AudioConversion :=
  match item with
  | .channelCount =>
    let p := remapperConfigure c.remapper ssSrc ssDst
    (p.1, { c with remapper := p.2 })
  | .format =>
    let p := reformatterConfigure c.reformatter ssSrc ssDst
    (p.1, { c with reformatter := p.2 })
  | .rate =>
    let p := c.resampler.configure supported created ssSrc ssDst
    (p.1, { c with resampler := p.2 })

/-- `doConfigureAndAddConverter`. The source specification is moved on. -/
def doConfigureAndAddConverter (created : Creation) (ssDst : SampleSpec) (item : SampleSpecItem)
    (s : AudioConversion × SampleSpec) : Bool × AudioConversion × SampleSpec :=
  let tmpSsDst := withItem item s.2 ssDst
  let p := s.1.configureConverter supported created item s.2 tmpSsDst
  if p.1 then
    (true, { p.2 with activeAudioConvList := p.2.activeAudioConvList ++ [item] }, tmpSsDst)
  else (false, p.2, s.2)

/-- `configureAndAddConverter` from the first of the items on. -/
def configureAndAddConverter (created : Creation) (ssDst : SampleSpec) :
    List SampleSpecItem → AudioConversion × SampleSpec → Bool × AudioConversion × SampleSpec
  | [], s => (true, s)
  | item :: items, s =>
    let larger :=
      if s.2.getSampleSpecItem item > ssDst.getSampleSpecItem item then
        doConfigureAndAddConverter supported created ssDst item s
      else (true, s)
    if !larger.1 then larger
    else
      let dive := configureAndAddConverter created ssDst items larger.2
      if !dive.1 then dive
      else if !isSampleSpecItemEqual item dive.2.2 ssDst then
        doConfigureAndAddConverter supported created ssDst item dive.2
      else dive

/-- `AudioConversion::configure`. -/
def AudioConversion.configure (c : AudioConversion) (created : Creation)
    (ssSrc ssDst : SampleSpec) : Bool × AudioConversion :=
  let c := { c with activeAudioConvList := [], ssSrc := ssSrc, ssDst := ssDst }
  if ssSrc = ssDst then (true, c)
  else
    let p := configureAndAddConverter supported created ssDst sampleSpecItems (c, ssSrc)
    (p.1, p.2.1)

end Library

/-! ## The chain -/

/-- A converter that has been added, with the specifications that it leads from and to. -/
structure Step where
  item : SampleSpecItem
  ssSrc : SampleSpec
  ssDst : SampleSpec

/-- The steps lead from one specification to the other. -/
def Path : List Step → SampleSpec → SampleSpec → Prop
  | [], ssSrc, ssDst => ssSrc = ssDst
  | x :: steps, ssSrc, ssDst => x.ssSrc = ssSrc ∧ Path steps x.ssDst ssDst

/-- The active converters. -/
def AudioConversion.chain (c : AudioConversion) : List Step :=
  c.activeAudioConvList.map fun item => ⟨item, (c.converter item).ssSrc, (c.converter item).ssDst⟩

/-- The active converters lead from the source to the destination; there is at most one for each
item, and it changes this item and no other. -/
structure Chained (c : AudioConversion) (ssSrc ssDst : SampleSpec) : Prop where
  path : Path c.chain ssSrc ssDst
  once : c.activeAudioConvList.Nodup
  changes : ∀ x ∈ c.chain, convertible x.item x.ssSrc x.ssDst = true

/-- The formats and the layouts of the channels that a converter has functions for. -/
def implements (item : SampleSpecItem) (c : Converter) : Bool :=
  match item with
  | .channelCount =>
    (sampleType c.ssSrc.format).isSome && (sampleType c.ssDst.format).isSome &&
      (c.ssSrc.isMono || c.ssSrc.isStereo) && (c.ssDst.isMono || c.ssDst.isStereo)
  | .format => (sampleType c.ssSrc.format).isSome && (sampleType c.ssDst.format).isSome
  | .rate => decide (c.ssSrc.format = audioFormatPcm16Bit ∧ c.ssDst.format = audioFormatPcm16Bit)

/-! ## Items -/

section Items

variable {item i : SampleSpecItem} {ss ssSrc ssDst : SampleSpec}

/-- What is compared of an item. -/
def itemValue (item : SampleSpecItem) (ss : SampleSpec) : UInt32 × List ChannelsPolicy :=
  match item with
  | .channelCount => (ss.channelCount, ss.channelsPolicy)
  | .format => (ss.format, [])
  | .rate => (ss.rate, [])

theorem isSampleSpecItemEqual_iff :
    isSampleSpecItemEqual item ssSrc ssDst = true ↔ itemValue item ssSrc = itemValue item ssDst := by
  cases item <;>
    simp [isSampleSpecItemEqual, itemValue, SampleSpecifications.SampleSpec.getSampleSpecItem]

/-- Specifications with the same items are the same. -/
theorem eq_of_itemValue (h : ∀ item, itemValue item ssSrc = itemValue item ssDst) :
    ssSrc = ssDst := by
  obtain ⟨channels, format, rate, policy, _, _⟩ := ssSrc
  have hchannels := h .channelCount
  have hformat := h .format
  have hrate := h .rate
  simp only [itemValue, Prod.mk.injEq, and_true] at hchannels hformat hrate
  obtain ⟨rfl, rfl⟩ := hchannels
  subst hformat hrate
  rfl

theorem itemValue_withItem (item i : SampleSpecItem) (ss ssDst : SampleSpec) :
    itemValue i (withItem item ss ssDst) = if i = item then itemValue i ssDst else itemValue i ss := by
  cases item <;> cases i <;> rfl

theorem convertible_iff :
    convertible item ssSrc ssDst = true ↔
      ∀ i, itemValue i ssSrc = itemValue i ssDst ↔ i ≠ item := by
  have hall : ∀ i, i ∈ sampleSpecItems := by
    intro i
    cases i <;> decide
  simp only [convertible, all_eq_true, hall, true_implies, beq_iff_eq]
  refine forall_congr' fun i => ?_
  rw [← isSampleSpecItemEqual_iff]
  cases isSampleSpecItemEqual i ssSrc ssDst <;> simp

theorem format_eq_of_itemValue (h : itemValue .format ssSrc = itemValue .format ssDst) :
    ssSrc.format = ssDst.format := congrArg Prod.fst h

end Items

/-- A converter is no less what it is when others become active. -/
theorem AudioConversion.converter_active (c : AudioConversion) (active : List SampleSpecItem)
    (item : SampleSpecItem) :
    ({ c with activeAudioConvList := active } : AudioConversion).converter item =
      c.converter item := by
  cases item <;> rfl

/-! ## One converter -/

section Converters

variable {supported : UInt32 → UInt32 → Bool} {created : Creation} {c : Converter}
  {item : SampleSpecItem} {ssSrc ssDst : SampleSpec}

/-- What has been checked of a step: the item is the only one that differs, and the remapper and the
reformatter have a function for it. -/
def Accepted (x : Step) : Prop :=
  convertible x.item x.ssSrc x.ssDst = true ∧
    match x.item with
    | .channelCount =>
      ((sampleType x.ssSrc.format).bind fun type => remapperFct type x.ssSrc x.ssDst).isSome = true
    | .format => (reformatterFct x.ssSrc x.ssDst).isSome = true
    | .rate => True

theorem Converter.configure_spec (h : (c.configure item ssSrc ssDst).1 = true) :
    convertible item ssSrc ssDst = true ∧
      (c.configure item ssSrc ssDst).2 = ⟨ssSrc, ssDst, none⟩ := by
  unfold Converter.configure at h ⊢
  split at h
  · rename_i hconvertible
    rw [if_pos hconvertible]
    exact ⟨hconvertible, rfl⟩
  · exact absurd h (by simp)

theorem remapperConfigure_spec (h : (remapperConfigure c ssSrc ssDst).1 = true) :
    Accepted ⟨.channelCount, ssSrc, ssDst⟩ ∧ (remapperConfigure c ssSrc ssDst).2.ssSrc = ssSrc ∧
      (remapperConfigure c ssSrc ssDst).2.ssDst = ssDst := by
  unfold remapperConfigure at h ⊢
  dsimp only at h ⊢
  split at h
  · rename_i hok
    obtain ⟨hconvertible, heq⟩ := Converter.configure_spec hok
    rw [if_pos hok]
    split at h
    · rename_i fct hfct
      rw [heq]
      exact ⟨⟨hconvertible, by simp [hfct]⟩, rfl, rfl⟩
    · exact absurd h (by simp)
  · rename_i hfails
    exact absurd h hfails

theorem reformatterConfigure_spec (h : (reformatterConfigure c ssSrc ssDst).1 = true) :
    Accepted ⟨.format, ssSrc, ssDst⟩ ∧ (reformatterConfigure c ssSrc ssDst).2.ssSrc = ssSrc ∧
      (reformatterConfigure c ssSrc ssDst).2.ssDst = ssDst := by
  unfold reformatterConfigure at h ⊢
  dsimp only at h ⊢
  split at h
  · rename_i hok
    obtain ⟨hconvertible, heq⟩ := Converter.configure_spec hok
    rw [if_pos hok]
    split at h
    · rename_i fct hfct
      rw [heq]
      exact ⟨⟨hconvertible, by simp [hfct]⟩, rfl, rfl⟩
    · exact absurd h (by simp)
  · rename_i hfails
    exact absurd h hfails

/-- What the resampler has as a converter does not depend on how the rates are converted. -/
theorem AudioResampler.configure_spec {a : AudioResampler}
    (h : (a.configure supported created ssSrc ssDst).1 = true) :
    Accepted ⟨.rate, ssSrc, ssDst⟩ ∧
      (a.configure supported created ssSrc ssDst).2.converter = ⟨ssSrc, ssDst, none⟩ := by
  have hconverter : (a.configure supported created ssSrc ssDst).2.converter =
      (a.converter.configure .rate ssSrc ssDst).2 := by
    unfold AudioResampler.configure
    dsimp only
    repeat' split
    all_goals rfl
  have hok : (a.converter.configure .rate ssSrc ssDst).1 = true := by
    by_contra hfails
    rw [Bool.not_eq_true] at hfails
    simp [AudioResampler.configure, hfails] at h
  obtain ⟨hconvertible, heq⟩ := Converter.configure_spec hok
  exact ⟨⟨hconvertible, trivial⟩, hconverter.trans heq⟩

/-- A converter that is configured has been checked; the others stay. -/
theorem AudioConversion.configureConverter_spec {c : AudioConversion}
    (h : (c.configureConverter supported created item ssSrc ssDst).1 = true) :
    let c' := (c.configureConverter supported created item ssSrc ssDst).2
    Accepted ⟨item, ssSrc, ssDst⟩ ∧ (c'.converter item).ssSrc = ssSrc ∧
      (c'.converter item).ssDst = ssDst ∧ (∀ i, i ≠ item → c'.converter i = c.converter i) ∧
      c'.activeAudioConvList = c.activeAudioConvList := by
  cases item with
  | channelCount =>
    obtain ⟨haccepted, hsrc, hdst⟩ := remapperConfigure_spec h
    refine ⟨haccepted, hsrc, hdst, fun i hi => ?_, rfl⟩
    cases i <;> first | rfl | exact absurd rfl hi
  | format =>
    obtain ⟨haccepted, hsrc, hdst⟩ := reformatterConfigure_spec h
    refine ⟨haccepted, hsrc, hdst, fun i hi => ?_, rfl⟩
    cases i <;> first | rfl | exact absurd rfl hi
  | rate =>
    obtain ⟨haccepted, heq⟩ := AudioResampler.configure_spec h
    refine ⟨haccepted, congrArg Converter.ssSrc heq, congrArg Converter.ssDst heq,
      fun i hi => ?_, rfl⟩
    cases i <;> first | rfl | exact absurd rfl hi

end Converters

/-! ## The converters that are added -/

section Added

variable {supported : UInt32 → UInt32 → Bool} {created : Creation} {ssDst : SampleSpec}
  {item : SampleSpecItem} {items items' : List SampleSpecItem}
  {s t u : AudioConversion × SampleSpec} {steps steps' : List Step}

/-- From `s` to `t` the steps have been added, for some of the items, which are then those of the
destination; the other items stay. -/
structure Added (ssDst : SampleSpec) (items : List SampleSpecItem) (steps : List Step)
    (s t : AudioConversion × SampleSpec) : Prop where
  active : t.1.activeAudioConvList = s.1.activeAudioConvList ++ steps.map Step.item
  once : (steps.map Step.item).Nodup
  mem : ∀ x ∈ steps, x.item ∈ items
  other : ∀ i, i ∉ steps.map Step.item → t.1.converter i = s.1.converter i
  converter : ∀ x ∈ steps, (t.1.converter x.item).ssSrc = x.ssSrc ∧
    (t.1.converter x.item).ssDst = x.ssDst
  accepted : ∀ x ∈ steps, Accepted x
  path : Path steps s.2 t.2
  done : ∀ i ∈ items, itemValue i t.2 = itemValue i ssDst
  kept : ∀ i, i ∉ items → itemValue i t.2 = itemValue i s.2

theorem Path.append {s t u : SampleSpec} (h : Path steps s t) (h' : Path steps' t u) :
    Path (steps ++ steps') s u := by
  induction steps generalizing s with
  | nil =>
    obtain rfl : s = t := h
    exact h'
  | cons x steps ih => exact ⟨h.1, ih h.2⟩

/-- Nothing is added when the items are those of the destination already. -/
theorem Added.refl (h : ∀ i ∈ items, itemValue i s.2 = itemValue i ssDst) :
    Added ssDst items [] s s := by
  constructor
  · simp
  · exact nodup_nil
  · simp
  · exact fun _ _ => rfl
  · simp
  · simp
  · rfl
  · exact h
  · exact fun _ _ => rfl

theorem Added.trans (h : Added ssDst items steps s t) (h' : Added ssDst items' steps' t u)
    (hdisjoint : ∀ i ∈ items, i ∉ items') :
    Added ssDst (items ++ items') (steps ++ steps') s u := by
  have hsteps : ∀ x ∈ steps, x.item ∉ steps'.map Step.item := by
    intro x hx hmem
    obtain ⟨x', hx', heq⟩ := mem_map.mp hmem
    exact hdisjoint _ (h.mem x hx) (heq ▸ h'.mem x' hx')
  constructor
  · rw [h'.active, h.active, map_append, append_assoc]
  · rw [map_append]
    refine h.once.append h'.once fun i hi hi' => ?_
    obtain ⟨x, hx, rfl⟩ := mem_map.mp hi
    exact hsteps x hx hi'
  · intro x hx
    rcases mem_append.mp hx with hx | hx
    · exact mem_append_left _ (h.mem x hx)
    · exact mem_append_right _ (h'.mem x hx)
  · intro i hi
    rw [map_append, mem_append, not_or] at hi
    rw [h'.other i hi.2, h.other i hi.1]
  · intro x hx
    rcases mem_append.mp hx with hx | hx
    · rw [h'.other _ (hsteps x hx)]
      exact h.converter x hx
    · exact h'.converter x hx
  · intro x hx
    rcases mem_append.mp hx with hx | hx
    · exact h.accepted x hx
    · exact h'.accepted x hx
  · exact h.path.append h'.path
  · intro i hi
    by_cases hi' : i ∈ items'
    · exact h'.done i hi'
    · rw [h'.kept i hi']
      exact h.done i ((mem_append.mp hi).resolve_right hi')
  · intro i hi
    rw [mem_append, not_or] at hi
    rw [h'.kept i hi.2, h.kept i hi.1]

theorem Added.congr (h : Added ssDst items steps s t) (hitems : ∀ i, i ∈ items' ↔ i ∈ items) :
    Added ssDst items' steps s t :=
  { h with mem := fun x hx => (hitems _).mpr (h.mem x hx), done := fun i hi => h.done i ((hitems
    i).mp hi), kept := fun i hi => h.kept i (mt (hitems i).mpr hi) }

/-- One converter. -/
theorem added_doConfigureAndAddConverter
    (h : doConfigureAndAddConverter supported created ssDst item s = (true, t)) :
    Added ssDst [item] [⟨item, s.2, withItem item s.2 ssDst⟩] s t ∧
      t.2 = withItem item s.2 ssDst := by
  unfold doConfigureAndAddConverter at h
  dsimp only at h
  split at h
  · rename_i hok
    obtain ⟨haccepted, hsrc, hdst, hother, hactive⟩ := AudioConversion.configureConverter_spec hok
    obtain rfl := (Prod.mk.inj h).2
    refine ⟨?_, rfl⟩
    constructor
    · simp [hactive]
    · exact nodup_singleton _
    · simp
    · intro i hi
      exact hother i (by simpa using hi)
    · intro x hx
      obtain rfl := mem_singleton.mp hx
      exact ⟨hsrc, hdst⟩
    · intro x hx
      obtain rfl := mem_singleton.mp hx
      exact haccepted
    · exact ⟨rfl, rfl⟩
    · intro i hi
      rw [itemValue_withItem, if_pos (mem_singleton.mp hi)]
    · intro i hi
      rw [itemValue_withItem, if_neg (by simpa using hi)]
  · exact absurd h (by simp)

/-- What a level of `configureAndAddConverter` does: an item that is larger is converted before the
others, and one that differs after them. -/
theorem configureAndAddConverter_cons
    (h : configureAndAddConverter supported created ssDst (item :: items) s = (true, u)) :
    (s.2.getSampleSpecItem item > ssDst.getSampleSpecItem item ∧ ∃ t t',
      doConfigureAndAddConverter supported created ssDst item s = (true, t) ∧
      configureAndAddConverter supported created ssDst items t = (true, t') ∧
      (itemValue item t'.2 = itemValue item ssDst → u = t')) ∨
    (¬ s.2.getSampleSpecItem item > ssDst.getSampleSpecItem item ∧ ∃ t,
      configureAndAddConverter supported created ssDst items s = (true, t) ∧
      ((itemValue item t.2 = itemValue item ssDst ∧ u = t) ∨
        doConfigureAndAddConverter supported created ssDst item t = (true, u))) := by
  rw [configureAndAddConverter] at h
  dsimp only at h
  have hpair : ∀ p : Bool × AudioConversion × SampleSpec, p.1 = true → p = (true, p.2) := by
    rintro ⟨ok, p⟩ rfl
    rfl
  split at h
  · rename_i hlarger
    refine .inl ⟨hlarger, ?_⟩
    split at h
    · rename_i hfails
      rw [h] at hfails
      exact absurd hfails (by simp)
    rename_i hok
    rw [Bool.not_eq_true', Bool.not_eq_false] at hok
    split at h
    · rename_i hfails
      rw [h] at hfails
      exact absurd hfails (by simp)
    rename_i hdive
    rw [Bool.not_eq_true', Bool.not_eq_false] at hdive
    refine ⟨_, _, hpair _ hok, hpair _ hdive, fun heq => ?_⟩
    rw [← isSampleSpecItemEqual_iff] at heq
    rw [heq] at h
    exact (congrArg Prod.snd h).symm
  · rename_i hlarger
    refine .inr ⟨hlarger, ?_⟩
    rw [if_neg (by simp)] at h
    split at h
    · rename_i hfails
      rw [h] at hfails
      exact absurd hfails (by simp)
    rename_i hdive
    rw [Bool.not_eq_true', Bool.not_eq_false] at hdive
    refine ⟨_, hpair _ hdive, ?_⟩
    split at h
    · exact .inr h
    · rename_i hequal
      rw [Bool.not_eq_true', Bool.not_eq_false, isSampleSpecItemEqual_iff] at hequal
      exact .inl ⟨hequal, (congrArg Prod.snd h).symm⟩

/-- The converters that are added lead to the items of the destination. -/
theorem added_configureAndAddConverter (hitems : items.Nodup)
    (h : configureAndAddConverter supported created ssDst items s = (true, t)) :
    ∃ steps, Added ssDst items steps s t := by
  induction items generalizing s t with
  | nil =>
    obtain rfl := (Prod.mk.inj h).2
    exact ⟨[], .refl (by simp)⟩
  | cons item items ih =>
    obtain ⟨hnot, hrest⟩ := nodup_cons.mp hitems
    rcases configureAndAddConverter_cons h with
      ⟨-, s₁, s₂, hdo, hdive, hend⟩ | ⟨-, s₁, hdive, ⟨hequal, rfl⟩ | hdo⟩
    · obtain ⟨hadded, -⟩ := added_doConfigureAndAddConverter hdo
      obtain ⟨steps, hsteps⟩ := ih hrest hdive
      have hall := hadded.trans hsteps (by simpa using hnot)
      obtain rfl := hend (hall.done item (by simp))
      exact ⟨_, hall⟩
    · obtain ⟨steps, hsteps⟩ := ih hrest hdive
      have hnothing : Added ssDst [item] [] t t := .refl (by simpa using hequal)
      exact ⟨_, (hsteps.trans hnothing (by rintro i hi hi'; simp_all)).congr (by simp [or_comm])⟩
    · obtain ⟨steps, hsteps⟩ := ih hrest hdive
      obtain ⟨hadded, -⟩ := added_doConfigureAndAddConverter hdo
      exact ⟨_, (hsteps.trans hadded (by rintro i hi hi'; simp_all)).congr (by simp [or_comm])⟩

/-- An item for which there is no step stays. -/
theorem Path.kept {ss ss' : SampleSpec} (h : Path steps ss ss')
    (haccepted : ∀ x ∈ steps, Accepted x) (hitem : item ∉ steps.map Step.item) :
    itemValue item ss = itemValue item ss' := by
  induction steps generalizing ss with
  | nil =>
    obtain rfl : ss = ss' := h
    rfl
  | cons x steps ih =>
    rw [map_cons, mem_cons, not_or] at hitem
    obtain ⟨rfl, hrest⟩ := h
    have hsame := (convertible_iff.mp (haccepted x (mem_cons_self ..)).1 item).mpr hitem.1
    rw [hsame]
    exact ih hrest (fun y hy => haccepted y (mem_cons_of_mem _ hy)) hitem.2

/-- The step for an item leads from the item of the source to that of the destination. -/
theorem Path.item_eq {ss ss' : SampleSpec} (h : Path steps ss ss')
    (haccepted : ∀ x ∈ steps, Accepted x) (honce : (steps.map Step.item).Nodup) {x : Step}
    (hx : x ∈ steps) :
    itemValue x.item x.ssSrc = itemValue x.item ss ∧
      itemValue x.item x.ssDst = itemValue x.item ss' := by
  induction steps generalizing ss with
  | nil => exact absurd hx not_mem_nil
  | cons y steps ih =>
    rw [map_cons, nodup_cons] at honce
    obtain ⟨rfl, hrest⟩ := h
    have hrest' : ∀ z ∈ steps, Accepted z := fun z hz => haccepted z (mem_cons_of_mem _ hz)
    rcases mem_cons.mp hx with rfl | hx
    · exact ⟨rfl, hrest.kept hrest' honce.1⟩
    · obtain ⟨hsrc, hdst⟩ := ih hrest hrest' honce.2 hx
      have hne : x.item ≠ y.item := fun heq => honce.1 (heq ▸ mem_map_of_mem hx)
      have hsame := (convertible_iff.mp (haccepted y (mem_cons_self ..)).1 x.item).mpr hne
      exact ⟨hsrc.trans hsame.symm, hdst⟩

/-- The resampler is added last on the way down. -/
theorem ssSrc_of_rate (h : configureAndAddConverter supported created ssDst [.rate] s = (true, t))
    (hfresh : .rate ∉ s.1.activeAudioConvList) (hactive : .rate ∈ t.1.activeAudioConvList) :
    (t.1.converter .rate).ssSrc = s.2 := by
  obtain ⟨steps, hadded⟩ := added_configureAndAddConverter (nodup_singleton _) h
  rw [hadded.active, mem_append] at hactive
  obtain ⟨x, hx, hitem⟩ := mem_map.mp (hactive.resolve_left hfresh)
  cases steps with
  | nil => exact absurd hx not_mem_nil
  | cons y steps =>
    have hnone : steps = [] := by
      cases steps with
      | nil => rfl
      | cons z steps =>
        have hy := mem_singleton.mp (hadded.mem y (by simp))
        have hz := mem_singleton.mp (hadded.mem z (by simp))
        exact absurd hadded.once (by simp [hy, hz])
    subst hnone
    obtain rfl := mem_singleton.mp hx
    have hsrc := (hadded.converter x hx).1
    rw [hitem] at hsrc
    rw [hsrc]
    exact hadded.path.1

/-- The specification after the way down past an item. -/
def lowered (item : SampleSpecItem) (ss ssDst : SampleSpec) : SampleSpec :=
  if ss.getSampleSpecItem item > ssDst.getSampleSpecItem item then withItem item ss ssDst else ss

/-- The specification at which the rate is converted. -/
def rateSource (ssSrc ssDst : SampleSpec) : SampleSpec :=
  lowered .format (lowered .channelCount ssSrc ssDst) ssDst

/-- Past an item that comes before the rate. -/
theorem ssSrc_lowered {f : SampleSpec → SampleSpec} (hnodup : (item :: items).Nodup)
    (hitem : .rate ≠ item) (hrest : ∀ {s t},
      configureAndAddConverter supported created ssDst items s = (true, t) →
        .rate ∉ s.1.activeAudioConvList → .rate ∈ t.1.activeAudioConvList →
          (t.1.converter .rate).ssSrc = f s.2)
    (h : configureAndAddConverter supported created ssDst (item :: items) s = (true, t))
    (hfresh : .rate ∉ s.1.activeAudioConvList) (hactive : .rate ∈ t.1.activeAudioConvList) :
    (t.1.converter .rate).ssSrc = f (lowered item s.2 ssDst) := by
  obtain ⟨hnot, hnodup⟩ := nodup_cons.mp hnodup
  unfold lowered
  rcases configureAndAddConverter_cons h with
    ⟨hlarger, s₁, s₂, hdo, hdive, hend⟩ | ⟨hlarger, s₁, hdive, ⟨-, rfl⟩ | hdo⟩
  · obtain ⟨hadded, hspec⟩ := added_doConfigureAndAddConverter hdo
    obtain ⟨steps, hsteps⟩ := added_configureAndAddConverter hnodup hdive
    have hitem' : itemValue item s₂.2 = itemValue item ssDst := by
      rw [hsteps.kept item hnot]
      exact hadded.done item (mem_singleton_self _)
    obtain rfl := hend hitem'
    rw [hrest hdive (by rw [hadded.active]; simpa [hitem] using hfresh) hactive, hspec,
      if_pos hlarger]
  · rw [hrest hdive hfresh hactive, if_neg hlarger]
  · obtain ⟨hadded, -⟩ := added_doConfigureAndAddConverter hdo
    rw [hadded.active] at hactive
    rw [hadded.other .rate (by simpa using hitem),
      hrest hdive hfresh (by simpa [hitem] using hactive), if_neg hlarger]

/-- The resampler gets what the way down has left. -/
theorem ssSrc_of_channels
    (h : configureAndAddConverter supported created ssDst sampleSpecItems s = (true, t))
    (hfresh : .rate ∉ s.1.activeAudioConvList) (hactive : .rate ∈ t.1.activeAudioConvList) :
    (t.1.converter .rate).ssSrc = rateSource s.2 ssDst := by
  refine ssSrc_lowered (f := (lowered .format · ssDst)) (by decide) (by decide)
    (fun hp => ?_) h hfresh hactive
  exact ssSrc_lowered (f := id) (by decide) (by decide) ssSrc_of_rate hp

/-- The rate is converted with the smaller format. -/
theorem format_rateSource (ssSrc ssDst : SampleSpec) :
    (rateSource ssSrc ssDst).format =
      if ssSrc.format > ssDst.format then ssDst.format else ssSrc.format := by
  have hformat : ∀ ss : SampleSpec, (lowered .format ss ssDst).format =
      if ss.format > ssDst.format then ssDst.format else ss.format := by
    intro ss
    unfold lowered
    split
    · rename_i hlarger
      exact (if_pos hlarger).symm
    · rename_i hlarger
      exact (if_neg hlarger).symm
  have hchannels : (lowered .channelCount ssSrc ssDst).format = ssSrc.format := by
    unfold lowered
    split <;> rfl
  rw [rateSource, hformat, hchannels]

end Added

/-! ## The configured chain -/

section Configured

variable {supported : UInt32 → UInt32 → Bool} {created : Creation} {ssSrc ssDst : SampleSpec}
  {c : AudioConversion} {steps : List Step}

/-- The steps are the active converters. -/
theorem Added.chain {s t : AudioConversion × SampleSpec}
    (h : Added ssDst sampleSpecItems steps s t) (hnone : s.1.activeAudioConvList = []) :
    t.1.chain = steps := by
  rw [AudioConversion.chain, h.active, hnone, nil_append, map_map]
  refine (map_congr_left fun x hx => ?_).trans (map_id steps)
  simp only [Function.comp_apply, id_eq]
  rw [(h.converter x hx).1, (h.converter x hx).2]

/-- A configuration without an error: the assertion at its end holds, and the chain is complete. -/
theorem AudioConversion.configure_spec (h : (c.configure supported created ssSrc ssDst).1 = true) :
    ∃ s t : AudioConversion × SampleSpec, ∃ steps,
      s.2 = ssSrc ∧ s.1.activeAudioConvList = [] ∧
        t = ((c.configure supported created ssSrc ssDst).2, ssDst) ∧
        Added ssDst sampleSpecItems steps s t ∧
        (.rate ∈ t.1.activeAudioConvList →
          (t.1.converter .rate).ssSrc = rateSource ssSrc ssDst) := by
  unfold AudioConversion.configure at h ⊢
  dsimp only at h ⊢
  split at h
  · rename_i heq
    rw [if_pos heq]
    subst heq
    exact ⟨_, _, [], rfl, rfl, rfl, .refl fun _ _ => rfl, fun hrate => absurd hrate (by simp)⟩
  · rename_i hne
    rw [if_neg hne]
    generalize hp : configureAndAddConverter supported created ssDst sampleSpecItems
      ({ c with activeAudioConvList := [], ssSrc := ssSrc, ssDst := ssDst }, ssSrc) = p at h ⊢
    obtain ⟨ok, t⟩ := p
    obtain rfl : ok = true := h
    obtain ⟨steps, hadded⟩ := added_configureAndAddConverter (by decide) hp
    have hdst : t.2 = ssDst := eq_of_itemValue fun i => hadded.done i (by cases i <;> decide)
    exact ⟨_, t, steps, rfl, rfl, by rw [← hdst], hadded,
      fun hrate => ssSrc_of_channels hp (by simp) hrate⟩

/-- The remapper and the reformatter implement what they have accepted. -/
theorem implements_of_accepted {item : SampleSpecItem} {conv : Converter}
    (h : Accepted ⟨item, conv.ssSrc, conv.ssDst⟩) :
    implements item conv = true ↔
      (item = .rate → conv.ssSrc.format = audioFormatPcm16Bit) := by
  have hformat : item ≠ .format → conv.ssSrc.format = conv.ssDst.format := fun hitem =>
    format_eq_of_itemValue ((convertible_iff.mp h.1 .format).mpr (Ne.symm hitem))
  cases item with
  | channelCount =>
    refine ⟨fun _ hitem => absurd hitem (by simp), fun _ => ?_⟩
    obtain ⟨fct, hfct⟩ := Option.isSome_iff_exists.mp h.2
    obtain ⟨type, htype, hremapper⟩ := Option.bind_eq_some_iff.mp hfct
    have hlayout : (conv.ssSrc.isMono || conv.ssSrc.isStereo) = true ∧
        (conv.ssDst.isMono || conv.ssDst.isStereo) = true := by
      unfold remapperFct at hremapper
      cases hmono : conv.ssSrc.isMono <;> cases hstereo : conv.ssSrc.isStereo <;>
        cases hmono' : conv.ssDst.isMono <;> cases hstereo' : conv.ssDst.isStereo <;>
        simp_all
    simp [implements, ← hformat (by simp), htype, hlayout.1, hlayout.2]
  | format =>
    refine ⟨fun _ hitem => absurd hitem (by simp), fun _ => ?_⟩
    obtain ⟨fct, hfct⟩ := Option.isSome_iff_exists.mp h.2
    dsimp only at hfct
    unfold reformatterFct at hfct
    split at hfct
    · rename_i hformats
      simp [implements, hformats.1, hformats.2]
    · split at hfct
      · rename_i hformats
        simp [implements, hformats.1, hformats.2]
      · exact absurd hfct (by simp)
  | rate => simp [implements, ← hformat (by simp)]

/-- The formats between which the reformatter converts. -/
theorem smaller_of_reformatterFct (h : (reformatterFct ssSrc ssDst).isSome = true) :
    (if ssSrc.format > ssDst.format then ssDst.format else ssSrc.format) =
      audioFormatPcm16Bit := by
  unfold reformatterFct at h
  split at h
  · rename_i hformats
    rw [hformats.1, hformats.2]
    decide
  · split at h
    · rename_i hformats
      rw [hformats.1, hformats.2]
      decide
    · exact absurd h (by simp)

/-- For every configuration without an error, from whatever state: the active converters lead from
the source to the destination, and all of them are used on what they implement, iff the rates are
the same, the formats differ, or the format is that of 16-bit samples. -/
theorem configured_chain_iff (h : (c.configure supported created ssSrc ssDst).1 = true) :
    (Chained (c.configure supported created ssSrc ssDst).2 ssSrc ssDst ∧
      ∀ item ∈ (c.configure supported created ssSrc ssDst).2.activeAudioConvList,
        implements item ((c.configure supported created ssSrc ssDst).2.converter item) = true) ↔
    ssSrc.rate = ssDst.rate ∨ ssSrc.format ≠ ssDst.format ∨
      ssSrc.format = audioFormatPcm16Bit := by
  obtain ⟨s, t, steps, rfl, hnone, ht, hadded, hsource⟩ := AudioConversion.configure_spec h
  have hconversion : (c.configure supported created s.2 ssDst).2 = t.1 := by rw [ht]
  have hdst : t.2 = ssDst := by rw [ht]
  rw [hconversion]
  have hchain := hadded.chain hnone
  have hactive : t.1.activeAudioConvList = steps.map Step.item := by
    rw [hadded.active, hnone, nil_append]
  have hpath : Path steps s.2 ssDst := hdst ▸ hadded.path
  have hchained : Chained t.1 s.2 ssDst :=
    ⟨hchain ▸ hpath, hactive ▸ hadded.once, hchain ▸ fun x hx => (hadded.accepted x hx).1⟩
  have hstep : ∀ x ∈ steps, implements x.item (t.1.converter x.item) = true ↔
      (x.item = .rate → (rateSource s.2 ssDst).format = audioFormatPcm16Bit) := by
    intro x hx
    obtain ⟨hsrc, hdst'⟩ := hadded.converter x hx
    rw [implements_of_accepted (by rw [hsrc, hdst']; exact hadded.accepted x hx)]
    refine forall_congr' fun hitem => ?_
    rw [hitem, hsource (by rw [hactive]; exact hitem ▸ mem_map_of_mem hx)]
  -- The rate is converted iff it differs.
  have hrate : .rate ∈ steps.map Step.item ↔ s.2.rate ≠ ssDst.rate := by
    constructor
    · intro hmem hequal
      obtain ⟨x, hx, hitem⟩ := mem_map.mp hmem
      obtain ⟨hsrc, hdst'⟩ := hpath.item_eq hadded.accepted hadded.once hx
      have hdiffer := (convertible_iff.mp (hadded.accepted x hx).1 x.item).mp
      rw [hsrc, hdst', hitem] at hdiffer
      exact hdiffer (by rw [itemValue, itemValue, hequal]) rfl
    · intro hdiffer
      by_contra hmem
      exact hdiffer (congrArg Prod.fst (hpath.kept hadded.accepted hmem))
  -- Formats that differ are converted by the reformatter.
  have hreformat : s.2.format ≠ ssDst.format → (rateSource s.2 ssDst).format = audioFormatPcm16Bit := by
    intro hdiffer
    have hmem : .format ∈ steps.map Step.item := by
      by_contra hmem
      exact hdiffer (congrArg Prod.fst (hpath.kept hadded.accepted hmem))
    obtain ⟨x, hx, hxformat⟩ := mem_map.mp hmem
    obtain ⟨hsrc, hdst'⟩ := hpath.item_eq hadded.accepted hadded.once hx
    have haccepted := (hadded.accepted x hx).2
    rw [hxformat] at hsrc hdst' haccepted
    have hsrcFormat : x.ssSrc.format = s.2.format := congrArg Prod.fst hsrc
    have hdstFormat : x.ssDst.format = ssDst.format := congrArg Prod.fst hdst'
    rw [format_rateSource, ← hsrcFormat, ← hdstFormat]
    exact smaller_of_reformatterFct haccepted
  constructor
  · rintro ⟨-, hall⟩
    by_contra hnot
    rw [not_or, not_or, not_not] at hnot
    obtain ⟨hdiffer, hsame, hnot16⟩ := hnot
    have hmem := hrate.mpr hdiffer
    obtain ⟨x, hx, hitem⟩ := mem_map.mp hmem
    have hsmaller := (hstep x hx).mp (hall x.item (hactive ▸ mem_map_of_mem hx)) hitem
    rw [format_rateSource, hsame, ite_self] at hsmaller
    exact hnot16 (hsame.trans hsmaller)
  · intro hcondition
    refine ⟨hchained, fun item hitem => ?_⟩
    rw [hactive] at hitem
    obtain ⟨x, hx, rfl⟩ := mem_map.mp hitem
    refine (hstep x hx).mpr fun hxrate => ?_
    rcases hcondition with hequal | hdiffer | h16
    · exact absurd hequal (hrate.mp (hxrate ▸ hitem))
    · exact hreformat hdiffer
    · by_cases hsame : s.2.format = ssDst.format
      · rw [format_rateSource, ← hsame, ite_self, h16]
      · exact hreformat hsame

end Configured

/-- Stereo with 24 bits at 8 kHz. -/
def stereo24Bit : SampleSpec :=
  ⟨2, audioFormatPcm8_24Bit, 8000, [.copy, .copy], by decide, by decide⟩

/-- From 24 bits in stereo at 8 kHz to 16 bits in mono at 48 kHz, all three converters are used. -/
theorem configured_chain_all_converters :
    let c := (AudioConversion.initial.configure (fun _ _ => true) ⟨true, true, true⟩ stereo24Bit
      ⟨1, audioFormatPcm16Bit, 48000, [.copy], by decide, by decide⟩).2
    c.activeAudioConvList = [.channelCount, .format, .rate] ∧
      Chained c stereo24Bit ⟨1, audioFormatPcm16Bit, 48000, [.copy], by decide, by decide⟩ :=
  ⟨by decide, ((configured_chain_iff (by decide)).mpr (.inr (.inl (by decide)))).1⟩

/-- The rate of samples of 24 bits is converted without a reformatter. -/
theorem configured_chain_resamples_24Bit :
    let ssDst := stereo24Bit.setSampleRate 48000
    let p := AudioConversion.initial.configure (fun _ _ => true) ⟨true, true, true⟩ stereo24Bit ssDst
    p.1 = true ∧ p.2.activeAudioConvList = [.rate] ∧
      implements .rate (p.2.converter .rate) = false := by
  decide

end HardwareIntel.Configuration
