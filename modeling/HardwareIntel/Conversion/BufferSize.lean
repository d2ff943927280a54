import HardwareIntel.Conversion.ActiveConverters
import Mathlib.Algebra.Order.Floor.Div
import Mathlib.GroupTheory.GroupAction.Ring
import Mathlib.Tactic.Linarith
import Mathlib.Tactic.Ring

/-!
# The size of the converted buffer

Whether `getConvertedBuffer` stays inside its buffer, for a resampling library that gives at most
the number of frames that the rates let expect, rounded up.

The number of source frames is rounded up, and so is what is made of them: more frames come out
than are requested. The margin with which the buffer is allocated is enough for this surplus
(`atMost_requested_le`), but the buffer is made larger only when it is smaller than the request. A
later request that just fits has no margin left. `converted_buffer_fits` is about the runs in which
no call is of this kind.
-/

namespace HardwareIntel.Conversion

open List Option

open HardwareIntel.Configuration (Context pivotSampleRate)
open SampleSpecifications (SampleSpecItem)

/-! ## What the converters give at most -/

/-- Resampling with one context after the other, each of which keeps what it has been given. -/
def resample (lib : Context → List Frame → List Frame) :
    List Context → List Frame → List Context × List Frame :=
  convertChain fun k frames => ({ k with history := k.history ++ [frames] }, lib k frames)

/-- The library gives no more frames than the rates let expect, rounded up. -/
def AtMostScaled (lib : Context → List Frame → List Frame) : Prop :=
  ∀ k frames, (lib k frames).length ≤ (frames.length * k.dstRate.toNat) ⌈/⌉ k.srcRate.toNat

/-- The number of frames that the contexts give at most. -/
def resampledAtMost (ks : List Context) (frames : ℕ) : ℕ :=
  ks.foldl (fun n k => (n * k.dstRate.toNat) ⌈/⌉ k.srcRate.toNat) frames

/-- The number of frames that a converter gives at most. -/
def AudioConverter.atMost (conv : AudioConverter (List Context)) (frames : ℕ) : ℕ :=
  match conv with
  | .samples _ _ _ => frames
  | .resampler ks => resampledAtMost ks frames

/-- The number of frames that the converters give at most, one after the other. -/
def atMost (chain : List (AudioConverter (List Context))) (frames : ℕ) : ℕ :=
  chain.foldl (fun n conv => conv.atMost n) frames

section Lengths

variable {lib : Context → List Frame → List Frame} {ks : List Context}
  {chain : List (AudioConverter (List Context))}

theorem ceilDiv_mono {m n : ℕ} (h : m ≤ n) (d : ℕ) : m ⌈/⌉ d ≤ n ⌈/⌉ d :=
  Nat.div_le_div_right (by omega)

theorem resampledAtMost_mono (ks : List Context) : Monotone (resampledAtMost ks) := by
  induction ks with
  | nil => exact monotone_id
  | cons k ks ih =>
    intro m n h
    exact ih (ceilDiv_mono (Nat.mul_le_mul_right _ h) _)

theorem AudioConverter.atMost_mono (conv : AudioConverter (List Context)) :
    Monotone conv.atMost := by
  cases conv with
  | samples => exact monotone_id
  | resampler ks => exact resampledAtMost_mono ks

theorem atMost_mono (chain : List (AudioConverter (List Context))) : Monotone (atMost chain) := by
  induction chain with
  | nil => exact monotone_id
  | cons conv chain ih =>
    intro m n h
    exact ih (conv.atMost_mono h)

/-- Resampling keeps the rates. -/
theorem resampledAtMost_resample (ks : List Context) (frames : List Frame) :
    resampledAtMost (resample lib ks frames).1 = resampledAtMost ks := by
  induction ks generalizing frames with
  | nil => rfl
  | cons k ks ih =>
    funext n
    exact congrFun (ih (lib k frames)) _

theorem length_resample (hlib : AtMostScaled lib) (ks : List Context) (frames : List Frame) :
    (resample lib ks frames).2.length ≤ resampledAtMost ks frames.length := by
  induction ks generalizing frames with
  | nil => exact Nat.le_refl _
  | cons k ks ih =>
    calc (resample lib (k :: ks) frames).2.length
        = (resample lib ks (lib k frames)).2.length := rfl
      _ ≤ resampledAtMost ks (lib k frames).length := ih _
      _ ≤ resampledAtMost (k :: ks) frames.length := resampledAtMost_mono ks (hlib k frames)

/-- A converter stays of its kind. -/
theorem AudioConverter.atMost_convert (old : ℕ → Frame) (frames : List Frame)
    (conv : AudioConverter (List Context)) :
    (conv.convert (resample lib) old frames).1.atMost = conv.atMost := by
  cases conv with
  | samples => rfl
  | resampler ks => exact resampledAtMost_resample ks frames

theorem AudioConverter.length_convert (hlib : AtMostScaled lib) (old : ℕ → Frame)
    (frames : List Frame) (conv : AudioConverter (List Context)) :
    (conv.convert (resample lib) old frames).2.length ≤ conv.atMost frames.length := by
  cases conv with
  | samples => exact Nat.le_of_eq length_mapIdx
  | resampler ks => exact length_resample hlib ks frames

/-- Whether a converter fails or not, the converters stay of their kinds. -/
theorem atMost_convert (old : ℕ → Frame) (failing : Option ℕ) (frames : List Frame) :
    atMost (convert (resample lib) old chain failing frames).1 = atMost chain := by
  induction chain generalizing failing frames with
  | nil => cases failing <;> rfl
  | cons conv chain ih =>
    match failing with
    | some 0 => rfl
    | none | some (_ + 1) =>
      funext n
      rw [convert]
      · dsimp only [atMost, foldl_cons]
        rw [AudioConverter.atMost_convert]
        exact congrFun (ih _ _) _
      · simp

/-- A converter that does not fail gives no more than it may. -/
theorem length_convert (hlib : AtMostScaled lib) {old : ℕ → Frame} {failing : Option ℕ}
    {frames converted : List Frame}
    (h : (convert (resample lib) old chain failing frames).2 = some converted) :
    converted.length ≤ atMost chain frames.length := by
  induction chain generalizing failing frames with
  | nil =>
    have hsame : some frames = some converted := by
      rw [← h]
      cases failing <;> rfl
    obtain rfl := some.inj hsame
    exact Nat.le_refl _
  | cons conv chain ih =>
    match failing with
    | some 0 => exact absurd h (by simp [convert])
    | none | some (_ + 1) =>
      rw [convert] at h
      · exact (ih h).trans (atMost_mono chain (conv.length_convert hlib _ frames))
      · simp

end Lengths

/-! ## The surplus -/

section Surplus

variable {srcRate dstRate : ℕ}

theorem mul_ceilDiv_lt (n : ℕ) {d : ℕ} (hd : 0 < d) : d * (n ⌈/⌉ d) < n + d := by
  have hdiv := Nat.mul_div_le (n + d - 1) d
  rw [← Nat.ceilDiv_eq_add_pred_div] at hdiv
  omega

/-- The source frames for `n` ones, rounded up, give little more than `n`. -/
theorem direct_le (hsrc : 8000 ≤ srcRate) (hdst : 8000 ≤ dstRate) (hmax : dstRate ≤ 92000) (n : ℕ) :
    ((n * srcRate) ⌈/⌉ dstRate * dstRate) ⌈/⌉ srcRate ≤ n + allocMargin := by
  rw [ceilDiv_le_iff_le_mul (by omega)]
  have hrounded := mul_ceilDiv_lt (n * srcRate) (d := dstRate) (by omega)
  have hmargin : allocMargin = 22 := rfl
  calc (n * srcRate) ⌈/⌉ dstRate * dstRate
      ≤ n * srcRate + dstRate := by rw [Nat.mul_comm]; exact hrounded.le
    _ ≤ n * srcRate + 22 * srcRate := by omega
    _ = srcRate * (n + allocMargin) := by rw [hmargin]; ring

/-- So they do when they are converted over the pivot, and rounded up twice. -/
theorem pivot_le (hsrc : 8000 ≤ srcRate) (hdst : 8000 ≤ dstRate) (hmax : dstRate ≤ 92000) (n : ℕ) :
    (((n * srcRate) ⌈/⌉ dstRate * 48000) ⌈/⌉ srcRate * dstRate) ⌈/⌉ 48000 ≤ n + allocMargin := by
  rw [ceilDiv_le_iff_le_mul (by omega)]
  have hrounded := mul_ceilDiv_lt (n * srcRate) (d := dstRate) (by omega)
  generalize (n * srcRate) ⌈/⌉ dstRate = m at hrounded ⊢
  have hpivot := mul_ceilDiv_lt (m * 48000) (d := srcRate) (by omega)
  generalize (m * 48000) ⌈/⌉ srcRate = p at hpivot ⊢
  have hmargin : allocMargin = 22 := rfl
  refine Nat.le_of_mul_le_mul_left (c := srcRate) ?_ (by omega)
  calc srcRate * (p * dstRate)
      = srcRate * p * dstRate := by ring
    _ ≤ (m * 48000 + srcRate) * dstRate := Nat.mul_le_mul_right _ hpivot.le
    _ = 48000 * (dstRate * m) + srcRate * dstRate := by ring
    _ ≤ 48000 * (n * srcRate + dstRate) + srcRate * 92000 :=
        Nat.add_le_add (Nat.mul_le_mul_left _ hrounded.le) (Nat.mul_le_mul_left _ hmax)
    _ ≤ 48000 * (n * srcRate + 12 * srcRate) + srcRate * 96000 := by omega
    _ ≤ srcRate * (48000 * (n + allocMargin)) := by rw [hmargin]; linarith

/-- The frames that come out beyond those that are requested, where the contexts lead from the
source rate to the destination rate. -/
theorem resampledAtMost_le {ks : List Context} {srcRate dstRate : UInt32}
    (hks : Configuration.Leads ks srcRate dstRate) (hsrc : 8000 ≤ srcRate.toNat)
    (hdst : 8000 ≤ dstRate.toNat) (hmax : dstRate.toNat ≤ 92000) (n : ℕ) :
    resampledAtMost ks ((n * srcRate.toNat) ⌈/⌉ dstRate.toNat) ≤ n + allocMargin := by
  have hfold : ∀ m, resampledAtMost ks m =
      (ks.map fun k => (k.srcRate, k.dstRate)).foldl
        (fun n p => (n * p.2.toNat) ⌈/⌉ p.1.toNat) m := by
    intro m
    rw [foldl_map, resampledAtMost]
  have hrate : pivotSampleRate.toNat = 48000 := by decide
  rcases hks with hdirect | hpivot
  · rw [hfold, hdirect, foldl_cons, foldl_nil]
    exact direct_le hsrc hdst hmax n
  · generalize pivotSampleRate = pivot at hrate hpivot
    rw [hfold, hpivot, foldl_cons, foldl_cons, foldl_nil, hrate]
    exact pivot_le hsrc hdst hmax n

/-- Only the resamplers change the number of frames. -/
theorem atMost_activeConverters (c : Configuration.AudioConversion) {items : List SampleSpecItem}
    (hitems : items.Nodup) (n : ℕ) :
    atMost (items.filterMap c.activeConverter) n =
      if .rate ∈ items then resampledAtMost c.resampler.contexts n else n := by
  induction items generalizing n with
  | nil => rfl
  | cons item items ih =>
    obtain ⟨hnot, hrest⟩ := nodup_cons.mp hitems
    cases item with
    | rate =>
      have hothers := ih hrest (resampledAtMost c.resampler.contexts n)
      rw [if_neg hnot] at hothers
      exact hothers
    | _ =>
      rw [filterMap_cons]
      have hothers := ih hrest n
      split
      · simpa using hothers
      · rename_i conv hconv
        obtain ⟨fct, -, rfl⟩ := map_eq_some_iff.mp hconv
        simpa [atMost, AudioConverter.atMost] using hothers

/-- What is converted for a request fits the margin with which the buffer is allocated. -/
theorem atMost_requested_le {supported : UInt32 → UInt32 → Bool}
    {created : Configuration.Creation} {ssSrc ssDst : SampleSpecifications.SampleSpec}
    {c : Configuration.AudioConversion} (hlast : c.resampler.resampler.Coherent)
    (hpivot : c.resampler.pivotResampler.Coherent)
    (hok : (c.configure supported created ssSrc ssDst).1 = true) (hsrc : 8000 ≤ ssSrc.rate.toNat)
    (hdst : 8000 ≤ ssDst.rate.toNat) (hmax : ssDst.rate.toNat ≤ 92000) (n : ℕ) :
    atMost (c.configure supported created ssSrc ssDst).2.activeConverters
      (convertSrcToDstInFrames n (Configuration.toSampleSpec ssDst)
        (Configuration.toSampleSpec ssSrc)) ≤ n + allocMargin := by
  have hleads := Configuration.leads_of_configure hlast hpivot hok
  have hnodup : (c.configure supported created ssSrc ssDst).2.activeAudioConvList.Nodup := by
    obtain ⟨s, t, steps, -, hnone, ht, hadded, -⟩ :=
      Configuration.AudioConversion.configure_spec hok
    have hconversion : (c.configure supported created ssSrc ssDst).2 = t.1 := by rw [ht]
    rw [hconversion, hadded.active, hnone, nil_append]
    exact hadded.once
  rw [Configuration.AudioConversion.activeConverters, atMost_activeConverters _ hnodup,
    convertSrcToDstInFrames, ← Nat.ceilDiv_eq_add_pred_div]
  dsimp only [Configuration.toSampleSpec] at hleads ⊢
  split at hleads
  · rename_i hactive
    rw [if_pos hactive]
    exact resampledAtMost_le hleads hsrc hdst hmax n
  · rename_i hsame
    rw [if_neg hsame, hleads, ceilDiv_le_iff_le_mul (by omega), Nat.mul_comm]
    exact Nat.mul_le_mul_left _ (by omega)

end Surplus

/-! ## Calls with room -/

/-- The call fails before it converts anything, or it finds the position at the beginning of the
buffer and makes the buffer larger, or there is room for what comes out for any number of frames
that may still be requested. -/
def HasRoom (c : AudioConversion (List Context)) (call : Call) : Prop :=
  c.activeAudioConvList.isEmpty = true ∨
  (c.convOutBufferSizeInFrames < call.outFrames ∧
    (c.convOutBufferIndex = 0 ∨ call.reallocOk = false)) ∨
  ∀ n ≤ call.outFrames - c.convOutFrames, 0 < n →
    c.convOutBufferIndex + call.outFrames +
        atMost c.activeAudioConvList (convertSrcToDstInFrames n c.ssDst c.ssSrc) ≤
      (reserve c call).allocated + n

instance (c : AudioConversion (List Context)) (call : Call) : Decidable (HasRoom c call) :=
  inferInstanceAs (Decidable (_ ∨ _ ∨ _))

/-- A later state of a conversion: its converters give as many frames as before at most. -/
structure Later (c d : AudioConversion (List Context)) : Prop where
  atMost : Conversion.atMost d.activeAudioConvList = Conversion.atMost c.activeAudioConvList
  ssSrc : d.ssSrc = c.ssSrc
  ssDst : d.ssDst = c.ssDst

section Calls

variable {lib : Context → List Frame → List Frame} {c d e : AudioConversion (List Context)}
  {call : Call} {s : Session (List Context)}

theorem Later.refl (c : AudioConversion (List Context)) : Later c c := ⟨rfl, rfl, rfl⟩

theorem Later.trans (hcd : Later c d) (hde : Later d e) : Later c e :=
  ⟨hde.atMost.trans hcd.atMost, hde.ssSrc.trans hcd.ssSrc, hde.ssDst.trans hcd.ssDst⟩

theorem later_reserve (c : AudioConversion (List Context)) (call : Call) :
    Later c (reserve c call) := by
  unfold reserve
  split <;> exact ⟨rfl, rfl, rfl⟩

theorem reserve_convOutFrames (c : AudioConversion (List Context)) (call : Call) :
    (reserve c call).convOutFrames = c.convOutFrames := by
  unfold reserve
  split <;> rfl

theorem reserve_convOutBufferIndex (c : AudioConversion (List Context)) (call : Call) :
    (reserve c call).convOutBufferIndex = c.convOutBufferIndex := by
  unfold reserve
  split <;> rfl

/-- What an iteration of the loop does. -/
theorem fill_iteration (buffer : List Frame) (failing : Option ℕ)
    (buffers : List (List Frame × Option ℕ)) (n : ℕ) (c : AudioConversion (List Context)) :
    let frames := buffer.take (convertSrcToDstInFrames (n + 1) c.ssDst c.ssSrc)
    let p := convert (resample lib) (fun i => c.convOutBuffer (c.convOutBufferIndex + i))
      c.activeAudioConvList failing frames
    (p.2 = none ∧ fill (resample lib) ((buffer, failing) :: buffers) (n + 1) c =
      some ({ c with activeAudioConvList := p.1 }, some .converter, frames)) ∨
    ∃ converted, p.2 = some converted ∧
      fill (resample lib) ((buffer, failing) :: buffers) (n + 1) c =
        if c.allocated < c.convOutBufferIndex + converted.length then none
        else (fill (resample lib) buffers (n + 1 - min (n + 1) converted.length)
          (c.put (p.1, converted))).map fun q => (q.1, q.2.1, frames ++ q.2.2) := by
  intro frames p
  rw [fill]
  · cases hp : p.2 with
    | none => exact .inl ⟨rfl, rfl⟩
    | some converted => exact .inr ⟨converted, rfl, rfl⟩
  · exact Nat.succ_ne_zero n

theorem later_put (old : ℕ → Frame) (failing : Option ℕ) (frames converted : List Frame) :
    Later c (c.put ((convert (resample lib) old c.activeAudioConvList failing frames).1,
      converted)) :=
  ⟨atMost_convert old failing frames, rfl, rfl⟩

variable {buffers : List (List Frame × Option ℕ)}

/-- The loop. -/
theorem Later.fill {framesRequested : ℕ} {status : Option Status} {obtained : List Frame}
    (h : fill (resample lib) buffers framesRequested c = some (d, status, obtained)) :
    Later c d := by
  induction buffers generalizing framesRequested c obtained with
  | nil =>
    have hsame : c = d := by
      cases framesRequested <;>
      · simp only [Conversion.fill, some.injEq, Prod.mk.injEq] at h
        exact h.1
    exact hsame ▸ .refl c
  | cons b buffers ih =>
    obtain ⟨buffer, failing⟩ := b
    cases framesRequested with
    | zero =>
      simp only [Conversion.fill, some.injEq, Prod.mk.injEq] at h
      exact h.1 ▸ .refl c
    | succ n =>
      rcases @fill_iteration lib buffer failing buffers n c with
        ⟨-, heq⟩ | ⟨converted, -, heq⟩
      · rw [heq] at h
        simp only [some.injEq, Prod.mk.injEq] at h
        obtain ⟨rfl, -⟩ := h
        exact ⟨atMost_convert _ _ _, rfl, rfl⟩
      · rw [heq] at h
        split at h
        · exact absurd h (by simp)
        obtain ⟨⟨d', status', rest⟩, hrest, hd⟩ := map_eq_some_iff.mp h
        simp only [Prod.mk.injEq] at hd
        obtain ⟨rfl, rfl, -⟩ := hd
        exact (later_put _ _ _ _).trans (ih hrest)

/-- With room for what comes out in any iteration, the loop does not write beyond the end. -/
theorem fill_isSome_of_room (hlib : AtMostScaled lib) {framesRequested : ℕ}
    (hroom : ∀ n ≤ framesRequested, 0 < n → c.convOutBufferIndex + framesRequested +
      atMost c.activeAudioConvList (convertSrcToDstInFrames n c.ssDst c.ssSrc) ≤ c.allocated + n)
    : (fill (resample lib) buffers framesRequested c).isSome = true := by
  induction buffers generalizing framesRequested c with
  | nil => cases framesRequested <;> rfl
  | cons b buffers ih =>
    obtain ⟨buffer, failing⟩ := b
    cases framesRequested with
    | zero => rfl
    | succ n =>
      rcases @fill_iteration lib buffer failing buffers n c with
        ⟨-, heq⟩ | ⟨converted, hconverted, heq⟩
      · rw [heq]
        rfl
      · have hlength : converted.length ≤ atMost c.activeAudioConvList
            (convertSrcToDstInFrames (n + 1) c.ssDst c.ssSrc) :=
          (length_convert hlib hconverted).trans
            (atMost_mono _ (length_take_le _ _))
        have hfits := hroom (n + 1) (Nat.le_refl _) (Nat.succ_pos n)
        rw [heq, if_neg (by omega), isSome_map]
        refine ih fun x hx hpos => ?_
        have hput := @later_put lib c (fun i => c.convOutBuffer (c.convOutBufferIndex + i)) failing
          (buffer.take (convertSrcToDstInFrames (n + 1) c.ssDst c.ssSrc)) converted
        have hnext := hroom x (by omega) hpos
        rw [hput.atMost]
        simp only [AudioConversion.put]
        omega

/-- A call. -/
theorem Later.getConvertedBuffer {o : Outcome (List Context)}
    (h : getConvertedBuffer (resample lib) s.conversion call = some o) :
    Later s.conversion o.conversion := by
  by_cases hactive : s.conversion.activeAudioConvList = []
  · rw [Conversion.getConvertedBuffer, if_pos (by simp [hactive])] at h
    exact some.inj h ▸ .refl s.conversion
  by_cases hmemory : s.conversion.convOutBufferSizeInFrames < call.outFrames ∧
      call.reallocOk = false
  · rw [Conversion.getConvertedBuffer, if_neg (by simpa using hactive), if_pos hmemory] at h
    exact some.inj h ▸ later_reserve s.conversion call
  rw [getConvertedBuffer_eq s call hactive hmemory] at h
  obtain ⟨⟨d, status, obtained⟩, hfill, hresult⟩ := map_eq_some_iff.mp h
  have hcounted : Later s.conversion (counted s call).conversion :=
    (later_reserve s.conversion call).trans ⟨rfl, rfl, rfl⟩
  have hlater := hcounted.trans (.fill hfill)
  cases status with
  | some status =>
    subst hresult
    exact hlater
  | none =>
    subst hresult
    exact hlater.trans ⟨rfl, rfl, rfl⟩

/-- A run. -/
theorem Later.of_reach {C : Session (List Context) → Call → Prop} {start : Session (List Context)}
    (hrun : Reach (conversionStep (resample lib)) C start s) :
    Later start.conversion s.conversion := by
  refine Reach.invariant (I := fun t => Later start.conversion t.conversion) hrun (.refl _) ?_
  intro a call b ha _ hb
  obtain ⟨o, ho, rfl⟩ := map_eq_some_iff.mp hb
  exact ha.trans (.getConvertedBuffer ho)

/-- A call that has room does not write beyond the end of the buffer. -/
theorem getConvertedBuffer_isSome (hlib : AtMostScaled lib)
    (hmargin : ∀ n, atMost s.conversion.activeAudioConvList
      (convertSrcToDstInFrames n s.conversion.ssDst s.conversion.ssSrc) ≤ n + allocMargin)
    (hcall : HasRoom s.conversion call) :
    (getConvertedBuffer (resample lib) s.conversion call).isSome = true := by
  by_cases hactive : s.conversion.activeAudioConvList = []
  · rw [getConvertedBuffer, if_pos (by simp [hactive])]
    rfl
  by_cases hmemory : s.conversion.convOutBufferSizeInFrames < call.outFrames ∧
      call.reallocOk = false
  · rw [getConvertedBuffer, if_neg (by simpa using hactive), if_pos hmemory]
    rfl
  rw [getConvertedBuffer_eq s call hactive hmemory, isSome_map]
  apply fill_isSome_of_room hlib
  intro n hn hpos
  have hlater := later_reserve s.conversion call
  simp only [counted, reserve_convOutFrames, reserve_convOutBufferIndex, hlater.atMost,
    hlater.ssSrc, hlater.ssDst] at hn ⊢
  rcases hcall with hnone | ⟨hlarger, hindex | hfails⟩ | hroom
  · exact absurd (isEmpty_iff.mp hnone) hactive
  · -- The buffer is made larger, by more than the surplus.
    have hok : call.reallocOk = true := by
      by_contra hnot
      exact hmemory ⟨hlarger, by simpa using hnot⟩
    have hallocated : (reserve s.conversion call).allocated = call.outFrames + allocMargin := by
      rw [reserve, if_pos hlarger]
      exact if_pos hok
    have hsurplus := hmargin n
    omega
  · exact absurd ⟨hlarger, hfails⟩ hmemory
  · have hfits := hroom n hn hpos
    omega

end Calls

/-- For all specifications that `configure` accepts, with rates between 8000 and 92000 Hz: from the
configured conversion on, in every run of calls that have room, the next such call writes nothing
beyond the end of the buffer. -/
theorem converted_buffer_fits {lib : Context → List Frame → List Frame} (hlib : AtMostScaled lib)
    {supported : UInt32 → UInt32 → Bool} {created : Configuration.Creation}
    {ssSrc ssDst : SampleSpecifications.SampleSpec} {c : Configuration.AudioConversion}
    (hlast : c.resampler.resampler.Coherent) (hpivot : c.resampler.pivotResampler.Coherent)
    (hok : (c.configure supported created ssSrc ssDst).1 = true)
    (hsrc : 8000 ≤ ssSrc.rate.toNat ∧ ssSrc.rate.toNat ≤ 92000)
    (hdst : 8000 ≤ ssDst.rate.toNat ∧ ssDst.rate.toNat ≤ 92000) {memory : ℕ → Frame}
    {s : Session (List Context)}
    (hrun : Reach (conversionStep (resample lib)) (fun s call => HasRoom s.conversion call)
      ⟨.configured (c.configure supported created ssSrc ssDst).2.activeConverters
        (Configuration.toSampleSpec ssSrc) (Configuration.toSampleSpec ssDst) memory, [], []⟩ s)
    {call : Call} (hcall : HasRoom s.conversion call) :
    (conversionStep (resample lib) s call).isSome = true := by
  have hlater := Later.of_reach hrun
  rw [conversionStep, isSome_map]
  refine getConvertedBuffer_isSome hlib (fun n => ?_) hcall
  rw [hlater.atMost, hlater.ssSrc, hlater.ssDst]
  exact atMost_requested_le hlast hpivot hok hsrc.1 hdst.1 hdst.2 n

/-- A library that gives as many frames as it may. -/
def mostFrames (k : Context) (frames : List Frame) : List Frame :=
  List.replicate ((frames.length * k.dstRate.toNat) ⌈/⌉ k.srcRate.toNat) (frames.headD [])

theorem atMostScaled_mostFrames : AtMostScaled mostFrames := by
  intro k frames
  exact Nat.le_of_eq length_replicate

/-- Mono with 16 bits. -/
def monoAt (rate : UInt32) : SampleSpecifications.SampleSpec :=
  ⟨1, SampleSpecifications.audioFormatPcm16Bit, rate, [.copy], by decide, by decide⟩

/-- A new conversion, configured from 8 to 48 kHz. -/
def upsampled : Bool × Configuration.AudioConversion :=
  Configuration.AudioConversion.initial.configure (fun _ _ => true) ⟨true, true, true⟩
    (monoAt 8000) (monoAt 48000)

/-- The conversion, before the first call. -/
def upsamplingSession : Session (List Context) :=
  ⟨.configured upsampled.2.activeConverters (Configuration.toSampleSpec (monoAt 8000))
    (Configuration.toSampleSpec (monoAt 48000)) fun _ => [0], [], []⟩

/-- Two frames and then twelve: for each call the buffer has room. -/
theorem converted_buffer_fits_upsampling :
    ∃ s, Reach (conversionStep (resample mostFrames))
        (fun s call => HasRoom s.conversion call) upsamplingSession s ∧
      s.delivered.length = 2 ∧ s.conversion.convOutFrames = 4 ∧
      (conversionStep (resample mostFrames) s ⟨12, [([[8], [9]], none)], true⟩).isSome = true := by
  refine Reach.exists_of_decide (fun s hrun (h : s.delivered.length = 2 ∧
    s.conversion.convOutFrames = 4 ∧ HasRoom s.conversion ⟨12, [([[8], [9]], none)], true⟩) =>
      ⟨h.1, h.2.1, ?_⟩) [⟨2, [([[7]], none)], true⟩] (by decide)
  have hrate : (8000 ≤ (monoAt 8000).rate.toNat ∧ (monoAt 8000).rate.toNat ≤ 92000) ∧
      8000 ≤ (monoAt 48000).rate.toNat ∧ (monoAt 48000).rate.toNat ≤ 92000 := by decide
  exact converted_buffer_fits atMostScaled_mostFrames Configuration.Resampler.coherent_initial
    Configuration.Resampler.coherent_initial (by decide) hrate.1 hrate.2 hrun h.2.2

/-- Two frames and then 24, with a provider that gives what it is asked for: six frames are made of
one, four are kept, and for the 20 that are missing the next 24 are written behind the end of a
buffer of 24. -/
theorem converted_buffer_overflows :
    AtMostScaled mostFrames ∧ upsampled.1 = true ∧
    ∃ s, Reach (conversionStep (resample mostFrames))
        (fun _ call => (∀ b ∈ call.buffers, b.2 = none) ∧ call.reallocOk = true)
        upsamplingSession s ∧
      s.conversion.allocated = 24 ∧
      convertSrcToDstInFrames (24 - s.conversion.convOutFrames) s.conversion.ssDst
        s.conversion.ssSrc = 4 ∧
      conversionStep (resample mostFrames) s
        ⟨24, [([[8], [9], [10], [11]], none)], true⟩ = none :=
  ⟨atMostScaled_mostFrames, by decide,
    Reach.exists_of_decide (fun s _ (h : s.conversion.allocated = 24 ∧
        convertSrcToDstInFrames (24 - s.conversion.convOutFrames) s.conversion.ssDst
          s.conversion.ssSrc = 4 ∧ (conversionStep (resample mostFrames) s
            ⟨24, [([[8], [9], [10], [11]], none)], true⟩).isNone = true) =>
      ⟨h.1, h.2.1, isNone_iff_eq_none.mp h.2.2⟩) [⟨2, [([[7]], none)], true⟩] (by decide)⟩

end HardwareIntel.Conversion
