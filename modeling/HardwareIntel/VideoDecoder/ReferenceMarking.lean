import HardwareIntel.VideoDecoder.Avc
import HardwareIntel.VideoDecoder.OutputQueue

/-!
# Reference marks of the AVC decoder

`asReferernce` keeps a surface buffer from being acquired as long as the current decoded picture
buffer points to it. The mark is set and cleared in several places: all marks are renewed when a
picture begins, and a buffer loses its mark when the frame in it is given up.

`Consistent n s` says that the marks and the decoded picture buffer agree. Everything keeps this
except giving up a frame whose buffer stays in the decoded picture buffer: after an error in a slice
one entry is removed by its picture order count, which may be another one, and a frame that the
driver fails to end, or that is dropped by a change of the format, is not removed at all.
`references_marked` says that the marks are right as long as this does not happen.
-/

namespace HardwareIntel.VideoDecoder

open List Option Function

variable {c : DecoderConfig} {n : ℕ}

/-! ### The marks in the base class -/

namespace Decoder

variable {s t : Decoder} {m : ℕ → Prop}

/-- The buffers that are marked as references are those in `m`. -/
structure Tracks (n : ℕ) (m : ℕ → Prop) (s : Decoder) : Prop where
  pos : s.acquirePos < n
  marked : ∀ b < n, (s.buffers b).asReference = true ↔ m b

namespace Tracks

section

variable (h : Tracks n m s)
include h

theorem congr {m' : ℕ → Prop} (hm : ∀ b < n, m b ↔ m' b) : Tracks n m' s :=
  ⟨h.pos, fun b hb => (h.marked b hb).trans (hm b hb)⟩

/-- A change that does not touch the marks. -/
theorem kept (hpos : t.acquirePos = s.acquirePos)
    (hmarked : ∀ b, (t.buffers b).asReference = (s.buffers b).asReference) : Tracks n m t := by
  refine ⟨hpos ▸ h.pos, fun b hb => ?_⟩
  rw [hmarked b]
  exact h.marked b hb

section

variable (i : ℕ) (f : VideoSurfaceBuffer → VideoSurfaceBuffer)
include i f

theorem modify_kept (hf : ∀ b, (f b).asReference = b.asReference) : Tracks n m (s.modify i f) := by
  refine h.kept rfl fun b => ?_
  by_cases hb : b = i
  · rw [hb, modify_buffers_self, hf]
  · rw [modify_buffers_of_ne f hb]

/-- A buffer loses its mark. -/
theorem modify_clear (hf : ∀ b, (f b).asReference = false) : Tracks n (fun b => m b ∧ b ≠ i) (s.modify i f) := by
  refine ⟨h.pos, fun b hb => ?_⟩
  by_cases hbi : b = i
  · rw [hbi, modify_buffers_self, hf]
    simp
  · rw [modify_buffers_of_ne f hbi, h.marked b hb]
    simp [hbi]

/-- A buffer is marked. -/
theorem modify_mark (hf : ∀ b, (f b).asReference = true) : Tracks n (fun b => m b ∨ b = i) (s.modify i f) := by
  refine ⟨h.pos, fun b hb => ?_⟩
  by_cases hbi : b = i
  · rw [hbi, modify_buffers_self, hf]
    simp
  · rw [modify_buffers_of_ne f hbi, h.marked b hb]
    simp [hbi]

end

end

/-- The buffer that is acquired was not marked. -/
theorem acquireSurfaceBuffer (h : Tracks c.numSurfaces m s) (busy : ℕ → Bool) :
    (∃ a, (s.acquireSurfaceBuffer c busy).1 = .success ∧
      (s.acquireSurfaceBuffer c busy).2.acquired = some a ∧ ¬ m a ∧
      Tracks c.numSurfaces m (s.acquireSurfaceBuffer c busy).2) ∨
      ((s.acquireSurfaceBuffer c busy).1 ≠ .success ∧ (s.acquireSurfaceBuffer c busy).2 = s) := by
  rcases acquire_cases busy h.pos with ⟨i, -, hlt, hfree, heq⟩ | hfail
  · left
    rw [heq]
    have hnot : ¬ m i := by
      rw [← h.marked i hlt, hfree.asReference]
      simp
    have hmoved : Tracks c.numSurfaces m { s with acquired := some i, acquirePos := i } :=
      ⟨hlt, h.marked⟩
    refine ⟨i, rfl, rfl, hnot, ?_⟩
    dsimp only
    refine Tracks.congr (hmoved.modify_clear i _ fun _ => rfl) fun b _ => ?_
    exact and_iff_left_of_imp fun hb heq => hnot (heq ▸ hb)
  · exact Or.inr hfail

theorem releaseSurfaceBuffer (h : Tracks n m s) :
    Tracks n (fun b => m b ∧ s.acquired ≠ some b) s.releaseSurfaceBuffer := by
  unfold Decoder.releaseSurfaceBuffer
  cases hacquired : s.acquired with
  | none => exact h.congr fun b _ => by simp
  | some a =>
    have hdrop : Tracks n m { s with acquired := none } := ⟨h.pos, h.marked⟩
    refine (hdrop.modify_clear a _ fun _ => rfl).congr fun b _ => ?_
    rw [ne_eq, ne_eq, some.injEq, eq_comm]

theorem updateReferences (h : Tracks n m s) (hc : c.manageReference = false) (a : ℕ) :
    Tracks n m (s.updateReferences c a) := by
  unfold Decoder.updateReferences
  rw [hc]
  exact ⟨h.pos, h.marked⟩

theorem addToOutput (h : Tracks n m s) (a : ℕ) : Tracks n m (s.addToOutput a) := by
  unfold Decoder.addToOutput
  refine Tracks.modify_kept ?_ a _ fun _ => rfl
  cases s.outputHead with
  | none => exact ⟨h.pos, h.marked⟩
  | some p =>
    cases s.outputTail with
    | none => exact ⟨h.pos, h.marked⟩
    | some t =>
      have hlink := h.modify_kept t (fun b => { b with next := some a }) fun _ => rfl
      exact ⟨hlink.pos, hlink.marked⟩

theorem outputSurfaceBuffer (h : Tracks c.numSurfaces m s) (hc : c.manageReference = false)
    (rawData : Bool) : Tracks c.numSurfaces m (s.outputSurfaceBuffer c rawData).2 := by
  unfold Decoder.outputSurfaceBuffer
  cases s.acquired with
  | none => exact h
  | some a =>
    dsimp only
    split
    · exact h
    · have hrender := h.modify_kept a (fun b => { b with renderDone := !s.showFrame }) fun _ => rfl
      generalize s.modify a (fun b => { b with renderDone := !s.showFrame }) = u at hrender ⊢
      have href : Tracks c.numSurfaces m
          (if (u.buffers a).referenceFrame then u.updateReferences c a else u) := by
        split
        · exact hrender.updateReferences hc a
        · exact hrender
      generalize (if (u.buffers a).referenceFrame then u.updateReferences c a else u) = v
        at href ⊢
      have hout : Tracks c.numSurfaces m (if v.showFrame then v.addToOutput a else v) := by
        split
        · exact href.addToOutput a
        · exact href
      exact ⟨Nat.mod_lt _ c.surfaces_pos, hout.marked⟩

end Tracks

/-- The buffer that `endDecodingFrame` releases. -/
def released (c : DecoderConfig) (s : Decoder) (dropFrame endPicture : Bool) : Option ℕ :=
  if s.decodingFrame && !dropFrame && (c.isSoftwareDecoder || endPicture) then none else s.acquired

namespace Tracks

theorem endDecodingFrame (h : Tracks c.numSurfaces m s) (hc : c.manageReference = false)
    (dropFrame endPicture rawData : Bool) :
    Tracks c.numSurfaces (fun b => m b ∧ s.released c dropFrame endPicture ≠ some b)
      (s.endDecodingFrame c dropFrame endPicture rawData).2 := by
  unfold Decoder.endDecodingFrame Decoder.released
  have hrelease := h.releaseSurfaceBuffer
  cases hdecoding : s.decodingFrame with
  | false =>
    cases hacquired : s.acquired with
    | none => exact h.congr fun b _ => by simp
    | some a =>
      rw [hacquired] at hrelease
      exact hrelease
  | true =>
    cases hacquired : s.acquired with
    | none =>
      have hdone : Tracks c.numSurfaces m { s with acquired := none, decodingFrame := false } :=
        ⟨h.pos, h.marked⟩
      exact hdone.congr fun b _ => by simp
    | some a =>
      rw [hacquired] at hrelease
      have hend : Tracks c.numSurfaces (fun b => m b ∧ some a ≠ some b)
          { s.releaseSurfaceBuffer with decodingFrame := false } :=
        ⟨hrelease.pos, hrelease.marked⟩
      have hout : Tracks c.numSurfaces m
          { (s.outputSurfaceBuffer c rawData).2 with decodingFrame := false } :=
        ⟨(h.outputSurfaceBuffer hc rawData).pos, (h.outputSurfaceBuffer hc rawData).marked⟩
      cases c.isSoftwareDecoder <;> cases endPicture <;> cases dropFrame <;>
        first
        | exact hend
        | exact hout.congr fun b _ => by simp

/-- A loop that does not touch the marks. -/
theorem foldl_kept (h : Tracks n m s) (f : VideoSurfaceBuffer → VideoSurfaceBuffer)
    (hf : ∀ b, (f b).asReference = b.asReference) (l : List ℕ) :
    Tracks n m (l.foldl (fun t i => t.modify i f) s) := by
  induction l generalizing s with
  | nil => exact h
  | cons i l ih => exact ih (h.modify_kept i f hf)

theorem flushSurfaceBuffers (h : Tracks c.numSurfaces m s) (hc : c.manageReference = false)
    (endPicture : Bool) :
    Tracks c.numSurfaces (fun b => m b ∧ s.released c true endPicture ≠ some b)
      (s.flushSurfaceBuffers c endPicture) := by
  have hend := h.endDecodingFrame hc true endPicture true
  have hloop := hend.foldl_kept (fun b => { b with renderDone := true, next := none })
    (fun _ => rfl) ((s.endDecodingFrame c true endPicture true).2.outputQueue c)
  exact ⟨hloop.pos, hloop.marked⟩

end Tracks

theorem tracks_flush (endPicture : Bool) :
    Tracks c.numSurfaces (fun _ => False) (s.flush c endPicture) where
  pos := Nat.mod_lt _ c.surfaces_pos
  marked := by
    intro b hb
    simp [Decoder.flush, initSurfaceBuffer, hb]

namespace Tracks

theorem drained (h : Tracks c.numSurfaces m s) (hc : c.manageReference = false)
    (draining endPicture rawData : Bool)
    (hkeep : draining = true → ∀ b, m b → s.released c false endPicture ≠ some b) :
    Tracks c.numSurfaces m (s.drained c draining endPicture rawData) := by
  unfold Decoder.drained
  split
  · rename_i hdraining
    refine (h.endDecodingFrame hc false endPicture rawData).congr fun b _ => ?_
    exact and_iff_left_of_imp (hkeep hdraining b)
  · exact h

section

variable (h : Tracks n m s)
include h

theorem removeHead (head : ℕ) : Tracks n m (s.removeHead head) :=
  ⟨h.pos, h.marked⟩

theorem removeBehind (o : ℕ) (queue : List ℕ) :
    Tracks n m (s.removeBehind o queue) := by
  unfold Decoder.removeBehind
  split
  · exact h
  · refine Tracks.modify_kept ?_ _ _ fun _ => rfl
    exact ⟨h.pos, h.marked⟩

theorem swapTimeStamps (i j : ℕ) : Tracks n m (s.swapTimeStamps i j) := by
  unfold Decoder.swapTimeStamps
  refine Tracks.modify_kept (Tracks.modify_kept h i _ ?_) j _ ?_
  · exact fun _ => rfl
  · exact fun _ => rfl

theorem handOut (draining : Bool) (o : ℕ) :
    Tracks n m (s.handOut draining o) := by
  refine Tracks.modify_kept ?_ o _ fun _ => rfl
  exact ⟨h.pos, h.marked⟩

/-- The time stamps of the output and of the surface found by its time stamp are swapped. -/
theorem swapFound (o : ℕ) (found : Option ℕ) :
    Tracks n m (match found with
      | some byPts => if o ≠ byPts then s.swapTimeStamps o byPts else s
      | none => s) := by
  split
  · split
    · exact h.swapTimeStamps _ _
    · exact h
  · exact h

theorem takeOutput {draining : Bool} {r : Option ℕ × Decoder}
    (hout : s.takeOutput c draining = some r) : Tracks n m r.2 := by
  unfold Decoder.takeOutput at hout
  cases hhead : s.outputHead with
  | none =>
    rw [hhead] at hout
    rw [← some.inj hout]
    exact h
  | some head =>
    rw [hhead] at hout
    dsimp only at hout
    split at hout
    · rw [← some.inj hout]
      exact (h.removeHead head).handOut draining head
    · obtain ⟨⟨output, t⟩, hfound, rfl⟩ := map_eq_some_iff.mp hout
      have ht : Tracks n m t := by
        split at hfound
        · obtain ⟨v, -, hv⟩ := map_eq_some_iff.mp hfound
          rw [← (Prod.mk.inj hv).2]
          exact ⟨h.pos, h.marked⟩
        · rw [← (Prod.mk.inj (some.inj hfound)).2]
          exact h
      cases output with
      | none => exact ht
      | some o =>
        refine Tracks.handOut ?_ draining o
        have hswap := ht.swapFound o (s.findOutputByPts (s.outputQueue c))
        split
        · exact hswap.removeBehind o _
        · exact hswap.removeHead head

end

end Tracks

end Decoder

/-! ### The marks and the decoded picture buffer -/

/-- The buffer an entry points to. -/
def DecodedPictureBuffer.buffer (e : DecodedPictureBuffer) : Option ℕ :=
  e.surfaceBuffer.map Reference.buffer

@[simp] theorem DecodedPictureBuffer.buffer_invalid : DecodedPictureBuffer.invalid.buffer = none :=
  rfl

namespace AvcDecoder

variable {c : AvcConfig} {s t : AvcDecoder}

/-- The marks and the current decoded picture buffer agree, and the other one is empty. -/
structure Consistent (n : ℕ) (s : AvcDecoder) : Prop where
  tracks : s.base.Tracks n fun b => ∃ i < dpbSize, (s.dpb i).buffer = some b
  entered : ∀ i < dpbSize, ∀ r, (s.dpb i).surfaceBuffer = some r →
    r.acquisition = s.acquisitions r.buffer
  spare : ∀ i < dpbSize, (s.dpbs (!s.toggleDpb) i).buffer = none

/-- A change of the buffers only. -/
theorem Consistent.of_base (h : Consistent n s) (hdpbs : t.dpbs = s.dpbs)
    (htoggle : t.toggleDpb = s.toggleDpb) (hacquisitions : t.acquisitions = s.acquisitions)
    (htracks : t.base.Tracks n fun b => ∃ i < dpbSize, (s.dpb i).buffer = some b) :
    Consistent n t := by
  have hdpb : t.dpb = s.dpb := by rw [dpb, hdpbs, htoggle, dpb]
  refine ⟨?_, ?_, ?_⟩
  · rw [hdpb]
    exact htracks
  · rw [hdpb, hacquisitions]
    exact h.entered
  · rw [hdpbs, htoggle]
    exact h.spare

/-! ### Building a decoded picture buffer -/

variable {data : VbpDataH264} {v : DpbBuild} {k : ℕ} {answers : Answers} {m : ℕ → Prop}
  {base : Decoder} {pic : VAPictureParameterBufferH264} {r : Reference}

theorem tracks_mark (h : base.Tracks n m) (i : ℕ) :
    (mark base true i).Tracks n fun b => m b ∨ b = i :=
  h.modify_mark i (fun x => { x with asReference := true }) fun _ => rfl

theorem tracks_unmark (h : base.Tracks n m) (i : ℕ) :
    (mark base false i).Tracks n fun b => m b ∧ b ≠ i :=
  h.modify_clear i (fun x => { x with asReference := false }) fun _ => rfl

/-- The marks are those of the part of the new decoded picture buffer that is built. -/
structure Building (n : ℕ) (s : AvcDecoder) (v : DpbBuild) (k : ℕ) : Prop where
  tracks : v.base.Tracks n fun b => ∃ i < v.pos, (v.dpb i).buffer = some b
  entered : ∀ i < v.pos, ∀ r, (v.dpb i).surfaceBuffer = some r →
    r.acquisition = s.acquisitions r.buffer
  rest : ∀ i < dpbSize, v.pos ≤ i → (v.dpb i).buffer = none
  le : v.pos ≤ k

theorem dpb_enter_self (v : DpbBuild) (poc : ℤ) (r : Reference) :
    (v.enter poc r).dpb v.pos = ⟨poc, some r⟩ :=
  update_self ..

theorem dpb_enter_of_ne (v : DpbBuild) (poc : ℤ) (r : Reference) {i : ℕ} (hi : i ≠ v.pos) :
    (v.enter poc r).dpb i = v.dpb i :=
  update_of_ne hi ..

theorem lt_pos_enter {poc : ℤ} {i : ℕ} : i < (v.enter poc r).pos ↔ i < v.pos ∨ i = v.pos :=
  Nat.lt_succ_iff_lt_or_eq

theorem Building.enter (h : Building n s v k) (poc : ℤ)
    (hr : r.acquisition = s.acquisitions r.buffer) : Building n s (v.enter poc r) (k + 1) where
  tracks := by
    have hmark : (v.enter poc r).base.Tracks n
        fun b => (∃ i < v.pos, (v.dpb i).buffer = some b) ∨ b = r.buffer :=
      tracks_mark h.tracks r.buffer
    refine hmark.congr fun b _ => ?_
    constructor
    · rintro (⟨i, hi, hb⟩ | rfl)
      · refine ⟨i, lt_pos_enter.mpr (Or.inl hi), ?_⟩
        rw [dpb_enter_of_ne v poc r hi.ne]
        exact hb
      · refine ⟨v.pos, lt_pos_enter.mpr (Or.inr rfl), ?_⟩
        rw [dpb_enter_self]
        rfl
    · rintro ⟨i, hi, hb⟩
      rcases lt_pos_enter.mp hi with hlt | rfl
      · rw [dpb_enter_of_ne v poc r hlt.ne] at hb
        exact Or.inl ⟨i, hlt, hb⟩
      · rw [dpb_enter_self] at hb
        exact Or.inr (some.inj hb).symm
  entered := by
    intro i hi r' hr'
    rcases lt_pos_enter.mp hi with hlt | rfl
    · rw [dpb_enter_of_ne v poc r hlt.ne] at hr'
      exact h.entered i hlt r' hr'
    · rw [dpb_enter_self] at hr'
      rw [← some.inj hr']
      exact hr
  rest := by
    intro i hi hle
    have hlt : v.pos < i := hle
    rw [dpb_enter_of_ne v poc r hlt.ne']
    exact h.rest i hi hlt.le
  le := Nat.succ_le_succ h.le

/-- The entry at the position is left without a buffer. -/
theorem Building.skip (h : Building n s v k) (poc : ℤ) :
    Building n s { v with dpb := Function.update v.dpb v.pos ⟨poc, none⟩ } k where
  tracks := by
    refine h.tracks.congr fun b _ => exists_congr fun i => and_congr_right fun hi => ?_
    dsimp only
    rw [update_of_ne hi.ne]
  entered := by
    intro i hi r hr
    dsimp only at hi hr
    rw [update_of_ne hi.ne] at hr
    exact h.entered i hi r hr
  rest := by
    intro i hi hle
    dsimp only
    by_cases hpos : i = v.pos
    · rw [hpos, update_self]
      rfl
    · rw [update_of_ne hpos]
      exact h.rest i hi hle
  le := h.le

theorem Building.mono {l : ℕ} (h : Building n s v k) (hkl : k ≤ l) : Building n s v l :=
  { h with le := h.le.trans hkl }

/-- The references that are entered have not been acquired since. -/
def Entered (s : AvcDecoder) : Prop :=
  ∀ i < dpbSize, ∀ r, (s.dpb i).surfaceBuffer = some r → r.acquisition = s.acquisitions r.buffer

/-- A buffer that is entered for a reference has not been acquired since it was entered first. -/
theorem referenceFor_acquisition {a : ℕ} {currPic pic : VAPictureH264} (hentered : Entered s)
    (h : s.referenceFor a currPic pic = some r) : r.acquisition = s.acquisitions r.buffer := by
  unfold referenceFor at h
  split at h
  · rename_i r' hfound
    obtain rfl := some.inj h
    obtain ⟨i, hi, hr⟩ := bind_eq_some_iff.mp hfound
    have hmem := mem_of_find?_eq_some hi
    rw [mem_reverse, mem_range] at hmem
    exact hentered i hmem r' hr
  · split at h
    · rw [← some.inj h]
      rfl
    · obtain ⟨b, -, rfl⟩ := map_eq_some_iff.mp h
      rfl

/-- One reference. -/
theorem Building.addReference (h : Building n s v k)
    (hentered : Entered s) (a : ℕ) (currPic pic : VAPictureH264) :
    Building n s (s.addReference a currPic v pic) (k + 1) := by
  unfold AvcDecoder.addReference
  split
  · exact h.mono (Nat.le_succ k)
  · split
    · rename_i r hr
      exact h.enter pic.getPoc (referenceFor_acquisition hentered hr)
    · exact (h.skip pic.getPoc).mono (Nat.le_succ k)

/-- All references. -/
theorem Building.foldl (h : Building n s v k)
    (hentered : Entered s) (a : ℕ) (currPic : VAPictureH264) (l : List VAPictureH264) :
    Building n s (l.foldl (s.addReference a currPic) v) (k + l.length) := by
  induction l generalizing v k with
  | nil => exact h
  | cons pic l ih =>
    rw [length_cons, Nat.add_comm l.length, ← Nat.add_assoc]
    exact ih (h.addReference hentered a currPic pic)

/-- The buffer of an entry loses its mark. -/
theorem tracks_unmarkEntry (h : base.Tracks n m) (e : DecodedPictureBuffer) :
    (match e.surfaceBuffer with
      | some r => mark base false r.buffer
      | none => base).Tracks n fun b => m b ∧ e.buffer ≠ some b := by
  unfold DecodedPictureBuffer.buffer
  cases e.surfaceBuffer with
  | none => exact h.congr fun b _ => by simp
  | some r =>
    refine (tracks_unmark h r.buffer).congr fun b _ => and_congr_right fun _ => not_congr ?_
    rw [map_some, some.injEq, eq_comm]

/-- The marks after some entries have been cleared. -/
theorem tracks_clear (e : ℕ → DecodedPictureBuffer) (h : base.Tracks n m) (l : List ℕ) :
    (l.foldl (fun base i => match (e i).surfaceBuffer with
      | some r => mark base false r.buffer
      | none => base) base).Tracks n fun b => m b ∧ ∀ i ∈ l, (e i).buffer ≠ some b := by
  induction l generalizing base m with
  | nil => exact h.congr fun b _ => by simp
  | cons i l ih =>
    refine (ih (tracks_unmarkEntry h (e i))).congr fun b _ => ?_
    rw [forall_mem_cons, and_assoc]

theorem Consistent.clearAsReference (h : Consistent n s) :
    (s.clearAsReference s.toggleDpb).base.Tracks n fun _ => False := by
  refine Decoder.Tracks.congr (tracks_clear s.dpb h.tracks (List.range dpbSize)) fun b _ => ?_
  rw [iff_false]
  rintro ⟨⟨i, hi, hb⟩, hnone⟩
  exact hnone i (mem_range.mpr hi) hb

theorem Building.consistent (h : Building n s v k) (hk : k ≤ dpbSize) (hbase : t.base = v.base)
    (hdpb : t.dpb = v.dpb) (hacquisitions : t.acquisitions = s.acquisitions)
    (hspare : ∀ i < dpbSize, (t.dpbs (!t.toggleDpb) i).buffer = none) : Consistent n t where
  tracks := by
    rw [hbase, hdpb]
    refine h.tracks.congr fun b _ => ?_
    constructor
    · rintro ⟨i, hi, hb⟩
      exact ⟨i, hi.trans_le (h.le.trans hk), hb⟩
    · rintro ⟨i, hi, hb⟩
      refine ⟨i, ?_, hb⟩
      by_contra hle
      rw [h.rest i hi (Nat.le_of_not_lt hle)] at hb
      cases hb
  entered := by
    intro i hi r hr
    rw [hdpb] at hr
    rw [hacquisitions]
    refine h.entered i ?_ r hr
    by_contra hle
    have hnone := h.rest i hi (Nat.le_of_not_lt hle)
    rw [DecodedPictureBuffer.buffer, hr] at hnone
    cases hnone
  spare := hspare

/-- A new decoded picture buffer is built: whatever the picture refers to, the marks agree with
it. -/
theorem Consistent.updateDpb (h : Consistent n s) (a : ℕ) (pic : VAPictureParameterBufferH264) :
    Consistent n (s.updateDpb a pic) := by
  have hclear := h.clearAsReference
  have hentered : Entered (s.clearAsReference s.toggleDpb) := h.entered
  have hspare : ∀ i < dpbSize,
      ((s.clearAsReference s.toggleDpb).dpbs (!s.toggleDpb) i).buffer = none := h.spare
  unfold AvcDecoder.updateDpb
  have htoggle : (s.clearAsReference s.toggleDpb).toggleDpb = s.toggleDpb := rfl
  generalize s.clearAsReference s.toggleDpb = u at hclear hentered hspare htoggle ⊢
  rw [← htoggle] at hspare
  have hstart : Building n u ⟨u.base, u.dpbs !u.toggleDpb, 0⟩ 0 :=
    ⟨hclear.congr fun b _ => by simp, by simp, fun i hi _ => hspare i hi, le_rfl⟩
  have hrefs := hstart.foldl hentered a pic.currPic
    ((List.range maxRefNumber).map pic.referenceFrames)
  dsimp only
  generalize ((List.range maxRefNumber).map pic.referenceFrames).foldl
    (u.addReference a pic.currPic) ⟨u.base, u.dpbs !u.toggleDpb, 0⟩ = v at hrefs ⊢
  have hcurrent : Building n u
      (if pic.currPic.isReference then v.enter pic.currPic.getPoc (u.pointer a) else v)
      (maxRefNumber + 1) := by
    split
    · exact hrefs.enter _ rfl
    · exact hrefs.mono (Nat.le_succ _)
  generalize (if pic.currPic.isReference then v.enter pic.currPic.getPoc (u.pointer a) else v) = w
    at hcurrent ⊢
  refine hcurrent.consistent le_rfl rfl ?_ rfl ?_
  · cases u.toggleDpb <;> simp [invalidateDpb, dpb]
  · intro i hi
    simp [invalidateDpb, hi]

/-! ### Giving up a frame -/

/-- No entry points to the buffer that `endDecodingFrame` releases. -/
def endKeeps (c : AvcConfig) (s : AvcDecoder) (dropFrame endPicture : Bool) : Bool :=
  (s.base.released c.toDecoderConfig dropFrame endPicture).all fun b =>
    (List.range dpbSize).all fun i => (s.dpb i).buffer != some b

/-- When a frame is given up after an error in a slice, the entry that is removed is the only one of
the frame, and the only one of the buffer it points to. -/
def dropKeeps (s : AvcDecoder) (pic : VAPictureH264) : Bool :=
  (List.range dpbSize).all fun i => (s.dpb i).buffer.all fun b =>
    s.removed pic == some i ||
      (s.base.acquired != some b && (s.removed pic).all fun k => (s.dpb k).buffer != some b)

theorem ne_of_endKeeps {dropFrame endPicture : Bool} (h : s.endKeeps c dropFrame endPicture = true)
    {b : ℕ} (hb : ∃ i < dpbSize, (s.dpb i).buffer = some b) :
    s.base.released c.toDecoderConfig dropFrame endPicture ≠ some b := by
  intro hreleased
  obtain ⟨i, hi, hib⟩ := hb
  simp only [endKeeps, hreleased, Option.all_some, List.all_eq_true, List.mem_range, bne_iff_ne] at h
  exact h i hi hib

theorem Consistent.endDecodingFrame {dropFrame endPicture : Bool}
    (h : Consistent c.numSurfaces s) (hkeep : s.endKeeps c dropFrame endPicture = true)
    (rawData : Bool) :
    Consistent c.numSurfaces (s.endDecodingFrame c dropFrame endPicture rawData).2 := by
  refine h.of_base rfl rfl rfl ?_
  refine (h.tracks.endDecodingFrame c.ownReferences dropFrame endPicture rawData).congr fun b _ => ?_
  exact and_iff_left_of_imp (ne_of_endKeeps hkeep)

theorem Consistent.flushSurfaceBuffers {endPicture : Bool} (h : Consistent c.numSurfaces s)
    (hkeep : s.endKeeps c true endPicture = true) :
    Consistent c.numSurfaces (s.flushSurfaceBuffers c endPicture) := by
  refine h.of_base rfl rfl rfl ?_
  refine (h.tracks.flushSurfaceBuffers c.ownReferences endPicture).congr fun b _ => ?_
  exact and_iff_left_of_imp (ne_of_endKeeps hkeep)

theorem dropKeeps_iff {pic : VAPictureH264} : s.dropKeeps pic = true ↔
    ∀ i < dpbSize, ∀ b, (s.dpb i).buffer = some b → s.removed pic ≠ some i →
      s.base.acquired ≠ some b ∧ ∀ k, s.removed pic = some k → (s.dpb k).buffer ≠ some b := by
  simp only [dropKeeps, List.all_eq_true, List.mem_range, Option.all_eq_true, Bool.or_eq_true,
    beq_iff_eq, Bool.and_eq_true, bne_iff_ne, or_iff_not_imp_left]

/-- An entry has been removed. -/
theorem Consistent.of_removed (h : Consistent n s) (hdpb : t.dpb = Function.update s.dpb k .invalid)
    (hacquisitions : t.acquisitions = s.acquisitions)
    (hspare : ∀ i < dpbSize, (t.dpbs (!t.toggleDpb) i).buffer = none)
    (htracks : t.base.Tracks n fun b => ∃ i < dpbSize, i ≠ k ∧ (s.dpb i).buffer = some b) :
    Consistent n t where
  tracks := by
    refine htracks.congr fun b _ => exists_congr fun i => and_congr_right fun _ => ?_
    rw [hdpb]
    by_cases hi : i = k
    · rw [hi, update_self]
      simp
    · rw [update_of_ne hi]
      simp [hi]
  entered := by
    intro i hi r hr
    rw [hacquisitions]
    rw [hdpb] at hr
    by_cases hik : i = k
    · rw [hik, update_self] at hr
      cases hr
    · rw [update_of_ne hik] at hr
      exact h.entered i hi r hr
  spare := hspare

/-- The buffers that keep their marks when entry `k` is removed with the frame. -/
theorem kept_iff_of_dropKeeps {pic : VAPictureH264} (hkeep : s.dropKeeps pic = true)
    (hremoved : s.removed pic = some k) (b : ℕ) :
    (((∃ i < dpbSize, (s.dpb i).buffer = some b) ∧ s.base.acquired ≠ some b) ∧
      (s.dpb k).buffer ≠ some b) ↔ ∃ i < dpbSize, i ≠ k ∧ (s.dpb i).buffer = some b := by
  rw [dropKeeps_iff] at hkeep
  constructor
  · rintro ⟨⟨⟨i, hi, hb⟩, -⟩, hother⟩
    exact ⟨i, hi, fun hik => hother (hik ▸ hb), hb⟩
  · rintro ⟨i, hi, hik, hb⟩
    have hne : s.removed pic ≠ some i := by
      rw [hremoved]
      exact fun heq => hik (some.inj heq).symm
    obtain ⟨hacquired, hother⟩ := hkeep i hi b hb hne
    exact ⟨⟨⟨i, hi, hb⟩, hacquired⟩, hother k hremoved⟩

/-- The frame loses its mark, and the entry that is removed with it. -/
theorem Consistent.dropFrame (h : Consistent c.numSurfaces s)
    (hkeep : s.dropKeeps pic.currPic = true) (endDropped : Bool) :
    Consistent c.numSurfaces (s.dropFrame c pic endDropped) := by
  have hend : (s.endDecodingFrame c true endDropped true).2.base.Tracks c.numSurfaces
      fun b => (∃ i < dpbSize, (s.dpb i).buffer = some b) ∧ s.base.acquired ≠ some b := by
    have hreleased : s.base.released c.toDecoderConfig true endDropped = s.base.acquired := by
      simp [Decoder.released]
    rw [← hreleased]
    exact h.tracks.endDecodingFrame c.ownReferences true endDropped true
  have hsame : (s.endDecodingFrame c true endDropped true).2.removed pic.currPic =
      s.removed pic.currPic := rfl
  unfold AvcDecoder.dropFrame removeReferenceFromDpb
  rw [hsame]
  cases hremoved : s.removed pic.currPic with
  | none =>
    refine h.of_base rfl rfl rfl (hend.congr fun b _ => and_iff_left_of_imp ?_)
    rintro ⟨i, hi, hb⟩
    exact (dropKeeps_iff.mp hkeep i hi b hb (by simp [hremoved])).1
  | some k =>
    refine h.of_removed (k := k) ?_ rfl ?_ ?_
    · exact update_self ..
    · intro i hi
      have hspare : Function.update s.dpbs s.toggleDpb (Function.update s.dpb k .invalid)
          (!s.toggleDpb) = s.dpbs (!s.toggleDpb) := update_of_ne (by simp) ..
      exact (congrArg (fun d => (d i).buffer) hspare).trans (h.spare i hi)
    · exact (tracks_unmarkEntry hend (s.dpb k)).congr fun b _ =>
        kept_iff_of_dropKeeps hkeep hremoved b

/-! ### Decoding a frame -/

theorem Consistent.startPicture (h : Consistent n s) (a : ℕ) (pic : VAPictureParameterBufferH264)
    (slice : VbpSliceDataH264) : Consistent n (s.startPicture a pic slice).2 := by
  unfold AvcDecoder.startPicture
  split
  · exact h
  · have horder : Consistent n (if s.base.decodingFrame then
        { s with base := s.base.modify a fun b =>
          { b with pictureOrder := min pic.currPic.getPoc b.pictureOrder } }
        else s) := by
      split
      · refine h.of_base rfl rfl rfl ?_
        exact h.tracks.modify_kept a (fun b =>
          { b with pictureOrder := min pic.currPic.getPoc b.pictureOrder }) fun _ => rfl
      · exact h
    generalize (if s.base.decodingFrame then
        { s with base := s.base.modify a fun b =>
          { b with pictureOrder := min pic.currPic.getPoc b.pictureOrder } }
        else s) = u at horder ⊢
    have hupdate := horder.updateDpb a pic
    split
    · exact hupdate
    · exact hupdate.of_base rfl rfl rfl ⟨hupdate.tracks.pos, hupdate.tracks.marked⟩

theorem Consistent.decodeSlice (h : Consistent n s) (a : ℕ) (pic : VAPictureParameterBufferH264)
    (slice : VbpSliceDataH264) : Consistent n (s.decodeSlice c a pic slice).2 := by
  unfold AvcDecoder.decodeSlice
  have hstart : Consistent n (if slice.firstMbInSlice = 0 ∨ s.base.decodingFrame = false then
      s.startPicture a pic slice else (.success, s)).2 := by
    split
    · exact h.startPicture a pic slice
    · exact h
  generalize (if slice.firstMbInSlice = 0 ∨ s.base.decodingFrame = false then
      s.startPicture a pic slice else (.success, s)) = r at hstart ⊢
  dsimp only
  split
  · exact hstart
  · exact hstart

/-- A frame that is given up in the slices leaves the marks right. -/
def slicesKeep (c : AvcConfig) (s : AvcDecoder) (a : ℕ) (pic : VAPictureParameterBufferH264) :
    List VbpSliceDataH264 → Bool
  | [] => true
  | slice :: slices =>
    let r := s.decodeSlice c a pic slice
    if r.1 ≠ .success then r.2.dropKeeps pic.currPic else slicesKeep c r.2 a pic slices

theorem Consistent.decodeSlices {a : ℕ} {slices : List VbpSliceDataH264}
    (h : Consistent c.numSurfaces s) (hkeep : s.slicesKeep c a pic slices = true) :
    Consistent c.numSurfaces (s.decodeSlices c a pic slices).2 := by
  induction slices generalizing s with
  | nil => exact h
  | cons slice slices ih =>
    have hslice : Consistent c.numSurfaces (s.decodeSlice c a pic slice).2 :=
      h.decodeSlice a pic slice
    rw [slicesKeep] at hkeep
    rw [AvcDecoder.decodeSlices]
    split at hkeep
    · rename_i hfail
      rw [if_pos hfail]
      exact hslice.dropFrame hkeep slice.endDropped
    · rename_i hsuccess
      rw [if_neg hsuccess]
      exact ih hslice hkeep

def picturesKeep (c : AvcConfig) (s : AvcDecoder) (a : ℕ) (first : Bool) :
    List VbpPictureDataH264 → Bool
  | [] => true
  | p :: pictures =>
    if p.slices = [] then true
    else if !first && !p.picParms.currPic.topField && !p.picParms.currPic.bottomField then true
    else
      let r := s.decodeSlices c a p.picParms p.slices
      s.slicesKeep c a p.picParms p.slices &&
        (r.1 ≠ .success || picturesKeep c r.2 a false pictures)

theorem Consistent.decodePictures {a : ℕ} {first : Bool} {pictures : List VbpPictureDataH264}
    (h : Consistent c.numSurfaces s) (hkeep : s.picturesKeep c a first pictures = true) :
    Consistent c.numSurfaces (s.decodePictures c a first pictures).2 := by
  induction pictures generalizing s first with
  | nil => exact h
  | cons p pictures ih =>
    rw [picturesKeep] at hkeep
    rw [AvcDecoder.decodePictures]
    split
    · exact h
    · rename_i hslices
      rw [if_neg hslices] at hkeep
      split
      · exact h
      · rename_i hfield
        rw [if_neg hfield] at hkeep
        dsimp only at hkeep ⊢
        obtain ⟨hkept, hrest⟩ := Bool.and_eq_true _ _ ▸ hkeep
        have hpicture := h.decodeSlices hkept
        split
        · exact hpicture
        · rename_i hsuccess
          refine ih hpicture ?_
          simpa [hsuccess] using hrest

def continueKeeps (c : AvcConfig) (s : AvcDecoder) (data : VbpDataH264) : Bool :=
  s.base.acquired.all fun a =>
    (s.base.buffers a).surface == none || s.picturesKeep c a true data.pictures

theorem Consistent.continueDecodingFrame (h : Consistent c.numSurfaces s)
    (hkeep : s.continueKeeps c data = true) :
    Consistent c.numSurfaces (s.continueDecodingFrame c data).2 := by
  unfold continueKeeps at hkeep
  unfold AvcDecoder.continueDecodingFrame
  cases hacquired : s.base.acquired with
  | none => exact h
  | some a =>
    rw [hacquired, all_some, Bool.or_eq_true, beq_iff_eq] at hkeep
    dsimp only
    split
    · exact h
    · rename_i hsurface
      exact h.decodePictures (hkeep.resolve_left hsurface)

theorem Consistent.prepare {a : ℕ} (h : Consistent n s)
    (ha : ¬ ∃ i < dpbSize, (s.dpb i).buffer = some a) (data : VbpDataH264) :
    Consistent n (s.prepare a data) where
  tracks := by
    have hsize : Decoder.Tracks n (fun b => ∃ i < dpbSize, (s.dpb i).buffer = some b)
        { s.base with sizeChanged := false } := ⟨h.tracks.pos, h.tracks.marked⟩
    exact hsize.modify_kept a (fun b =>
      { b with
        referenceFrame := (data.picData 0).picParms.currPic.isReference
        timeStamp := s.currentPts
        pictureOrder := (data.picData 0).picParms.currPic.getPoc
        resolutionChange := s.base.sizeChanged
        eos := false }) fun _ => rfl
  entered := by
    intro i hi r hr
    have hne : r.buffer ≠ a := by
      rintro rfl
      exact ha ⟨i, hi, congrArg (Option.map Reference.buffer) hr⟩
    exact (h.entered i hi r hr).trans (update_of_ne hne ..).symm
  spare := h.spare

/-- The buffer that is acquired is in no entry. -/
theorem Consistent.acquire (h : Consistent c.numSurfaces s) (data : VbpDataH264)
    (busy : ℕ → Bool) : Consistent c.numSurfaces (s.acquire c data busy).2 := by
  unfold AvcDecoder.acquire
  rcases h.tracks.acquireSurfaceBuffer busy with ⟨a, hsuccess, ha, hnot, htracks⟩ | ⟨hfail, hsame⟩
  · have hbase : Consistent c.numSurfaces
        { s with base := (s.base.acquireSurfaceBuffer c.toDecoderConfig busy).2 } :=
      h.of_base rfl rfl rfl htracks
    simp only [hsuccess, ha]
    exact hbase.prepare hnot data
  · dsimp only
    split
    · rename_i hsuccess ha
      exact absurd hsuccess hfail
    · rw [hsame]
      exact h

def beginKeeps (c : AvcConfig) (s : AvcDecoder) (data : VbpDataH264) (busy : ℕ → Bool) : Bool :=
  let r := s.acquire c data busy
  r.1 ≠ .success || r.2.continueKeeps c data

theorem Consistent.beginDecodingFrame {busy : ℕ → Bool} (h : Consistent c.numSurfaces s)
    (hkeep : s.beginKeeps c data busy = true) :
    Consistent c.numSurfaces (s.beginDecodingFrame c data busy).2 := by
  have hacquire := h.acquire data busy
  unfold beginKeeps at hkeep
  unfold AvcDecoder.beginDecodingFrame
  dsimp only at hkeep ⊢
  split
  · exact hacquire
  · rename_i hsuccess
    refine hacquire.continueDecodingFrame ?_
    simpa [hsuccess] using hkeep

/-! ### A new sequence -/

/-- A change that does not touch the decoded picture buffers and keeps the base class but for
`mSizeChanged`. -/
theorem Consistent.resize (h : Consistent n s) (sizeChanged : Bool) (format : VideoFormatInfo)
    (widiOn : Bool) : Consistent n { s with
      base := { s.base with sizeChanged := sizeChanged }, format := format, widiOn := widiOn } :=
  h.of_base rfl rfl rfl ⟨h.tracks.pos, h.tracks.marked⟩

theorem Consistent.isWiDiStatusChanged (h : Consistent n s) (widi : Bool) :
    Consistent n (s.isWiDiStatusChanged c widi).2 := by
  unfold AvcDecoder.isWiDiStatusChanged
  split
  · exact h
  · exact h.of_base rfl rfl rfl h.tracks

theorem Consistent.needFlush (h : Consistent n s) (widi : Bool) :
    Consistent n (s.needFlush c widi).2 := by
  have hwidi : Consistent n (s.isWiDiStatusChanged c widi).2 := h.isWiDiStatusChanged widi
  unfold AvcDecoder.needFlush
  generalize (if c.storeMetaData then s.base.sizeChanged
    else decide (s.format.surfaceWidth < s.format.width) ||
      decide (s.format.surfaceHeight < s.format.height)) = sizeNeedsFlush
  cases sizeNeedsFlush with
  | true => exact h
  | false => exact hwidi

def sequenceKeeps (c : AvcConfig) (s : AvcDecoder) (data : VbpDataH264) (answers : Answers) :
    Bool :=
  let s := s.updateFormatInfo c data
  if !c.useGraphicBuffer then !s.base.sizeChanged || s.endKeeps c true answers.endPicture
  else
    let n := s.needFlush c answers.widiInSequence
    !n.1 || n.2.endKeeps c (!c.storeMetaData) answers.endPicture

theorem Consistent.handleNewSequence (h : Consistent c.numSurfaces s)
    (hkeep : s.sequenceKeeps c data answers = true) :
    Consistent c.numSurfaces (s.handleNewSequence c data answers).2 := by
  have hformat : Consistent c.numSurfaces (s.updateFormatInfo c data) := h.resize _ _ _
  unfold sequenceKeeps at hkeep
  unfold AvcDecoder.handleNewSequence
  generalize s.updateFormatInfo c data = u at hformat hkeep ⊢
  dsimp only at hkeep ⊢
  split
  · rename_i hraw
    rw [if_pos hraw] at hkeep
    split
    · rename_i hsize
      refine Consistent.resize (hformat.flushSurfaceBuffers ?_) _ _ _
      simpa [hsize] using hkeep
    · exact hformat
  · rename_i hraw
    rw [if_neg hraw] at hkeep
    have hflush := hformat.needFlush (c := c) answers.widiInSequence
    split
    · exact hflush
    · rename_i hneed
      have hend : (u.needFlush c answers.widiInSequence).2.endKeeps c (!c.storeMetaData)
          answers.endPicture = true := by simpa [hneed] using hkeep
      split
      · rename_i hstore
        rw [hstore] at hend
        have hended := hflush.endDecodingFrame hend answers.rawData
        split
        · exact hended
        · exact hended.resize _ _ _
      · rename_i hstore
        rw [Bool.not_eq_true] at hstore
        rw [hstore] at hend
        exact Consistent.resize (hflush.flushSurfaceBuffers hend) _ _ _

/-! ### Decoding a buffer -/

theorem Consistent.isNewFrame (h : Consistent n s) (data : VbpDataH264) (equalPts : Bool) :
    Consistent n (s.isNewFrame data equalPts).2 := by
  unfold AvcDecoder.isNewFrame
  dsimp only
  split
  · exact h
  · split
    · exact h
    · split
      · exact h
      · split
        · exact h.of_base rfl rfl rfl h.tracks
        · exact h.of_base rfl rfl rfl h.tracks

def newFrameKeeps (c : AvcConfig) (s : AvcDecoder) (data : VbpDataH264) (answers : Answers) :
    Bool :=
  if c.lowDelay then
    s.beginKeeps c data answers.busy &&
      (s.beginDecodingFrame c data answers.busy).2.endKeeps c false answers.endPicture
  else
    let e := s.endDecodingFrame c false answers.endPicture answers.rawData
    s.endKeeps c false answers.endPicture &&
      (e.1 ≠ .success || e.2.beginKeeps c data answers.busy)

theorem Consistent.decodeNewFrame (h : Consistent c.numSurfaces s)
    (hkeep : s.newFrameKeeps c data answers = true) :
    Consistent c.numSurfaces (s.decodeNewFrame c data answers).2 := by
  unfold newFrameKeeps at hkeep
  unfold AvcDecoder.decodeNewFrame
  dsimp only at hkeep ⊢
  split
  · rename_i hlow
    rw [if_pos hlow, Bool.and_eq_true] at hkeep
    exact (h.beginDecodingFrame hkeep.1).endDecodingFrame hkeep.2 answers.rawData
  · rename_i hlow
    rw [if_neg hlow, Bool.and_eq_true] at hkeep
    have hend := h.endDecodingFrame hkeep.1 answers.rawData
    split
    · exact hend
    · rename_i hsuccess
      refine hend.beginDecodingFrame ?_
      simpa [hsuccess] using hkeep.2

def pictureDataKeeps (c : AvcConfig) (s : AvcDecoder) (timeStamp : UInt64) (data : VbpDataH264)
    (answers : Answers) : Bool :=
  let w := s.isWiDiStatusChanged c answers.widi
  if w.1 then w.2.resetSizeChanged.endKeeps c true answers.endPicture
  else if (data.picData 0).slices = [] then true
  else
    let n := { w.2 with currentPts := timeStamp }.isNewFrame data (w.2.currentPts == timeStamp)
    if n.1 then n.2.newFrameKeeps c data answers else n.2.continueKeeps c data

theorem Consistent.decodePictureData {timeStamp : UInt64} (h : Consistent c.numSurfaces s)
    (hkeep : s.pictureDataKeeps c timeStamp data answers = true) :
    Consistent c.numSurfaces (s.decodePictureData c timeStamp data answers).2 := by
  have hwidi : Consistent c.numSurfaces (s.isWiDiStatusChanged c answers.widi).2 :=
    h.isWiDiStatusChanged answers.widi
  unfold pictureDataKeeps at hkeep
  unfold AvcDecoder.decodePictureData
  generalize s.isWiDiStatusChanged c answers.widi = w at hwidi hkeep ⊢
  dsimp only at hkeep ⊢
  split
  · rename_i hchanged
    rw [if_pos hchanged] at hkeep
    exact (hwidi.resize false _ _).flushSurfaceBuffers hkeep
  · rename_i hchanged
    rw [if_neg hchanged] at hkeep
    split
    · exact hwidi.resize false _ _
    · rename_i hslices
      rw [if_neg hslices] at hkeep
      have hpts : Consistent c.numSurfaces { w.2 with currentPts := timeStamp } :=
        hwidi.of_base rfl rfl rfl hwidi.tracks
      have hnew := hpts.isNewFrame data (w.2.currentPts == timeStamp)
      split
      · rename_i hframe
        rw [if_pos hframe] at hkeep
        exact hnew.decodeNewFrame hkeep
      · rename_i hframe
        rw [if_neg hframe] at hkeep
        exact hnew.continueDecodingFrame hkeep

/-- A call of `decodeFrame` gives up no frame whose buffer stays in the decoded picture buffer, and
removes no entry of another frame. -/
def frameKeeps (c : AvcConfig) (s : AvcDecoder) (timeStamp : UInt64) (data : VbpDataH264)
    (answers : Answers) : Bool :=
  if !data.hasSps || !data.hasPps then true
  else
    let changed := data.newSps || data.newPps
    let r := if changed then s.handleNewSequence c data answers else (.success, s)
    (!changed || s.sequenceKeeps c data answers) &&
      (r.1 ≠ .success || r.2.pictureDataKeeps c timeStamp data answers)

theorem Consistent.decodeFrame {timeStamp : UInt64} (h : Consistent c.numSurfaces s)
    (hkeep : s.frameKeeps c timeStamp data answers = true) :
    Consistent c.numSurfaces (s.decodeFrame c timeStamp data answers).2 := by
  unfold frameKeeps at hkeep
  unfold AvcDecoder.decodeFrame
  split
  · exact h
  · rename_i hconfig
    rw [if_neg hconfig] at hkeep
    dsimp only at hkeep ⊢
    rw [Bool.and_eq_true] at hkeep
    obtain ⟨hsequence, hpictures⟩ := hkeep
    have hnew : Consistent c.numSurfaces
        (if data.newSps || data.newPps then s.handleNewSequence c data answers
          else (.success, s)).2 := by
      split
      · rename_i hchanged
        refine h.handleNewSequence ?_
        simpa [hchanged] using hsequence
      · exact h
    generalize (if data.newSps || data.newPps then s.handleNewSequence c data answers
      else (.success, s)) = r at hnew hpictures ⊢
    split
    · exact hnew
    · rename_i hsuccess
      refine hnew.decodePictureData ?_
      simpa [hsuccess] using hpictures

/-! ### Flushing, stopping and starting -/

theorem dpbs_invalidate (s : AvcDecoder) (toggle : Bool) {i : ℕ} (hi : i < dpbSize) :
    s.invalidate.dpbs toggle i = .invalid := by
  cases toggle <;> simp [invalidate, invalidateDpb, hi]

/-- Nothing is marked and nothing is entered. -/
theorem Consistent.of_empty (htracks : s.base.Tracks n fun _ => False)
    (hdpbs : ∀ toggle, ∀ i < dpbSize, s.dpbs toggle i = .invalid) : Consistent n s where
  tracks := by
    refine htracks.congr fun b _ => ?_
    rw [false_iff]
    rintro ⟨i, hi, hb⟩
    rw [dpb, hdpbs s.toggleDpb i hi] at hb
    cases hb
  entered := by
    intro i hi r hr
    rw [dpb, hdpbs s.toggleDpb i hi] at hr
    cases hr
  spare := by
    intro i hi
    rw [hdpbs (!s.toggleDpb) i hi]
    rfl

/-- The buffers of a decoder whose VA is not started. -/
structure Stopped (s : AvcDecoder) : Prop where
  acquirePos : s.base.acquirePos = 0
  dpbs : ∀ toggle, ∀ i < dpbSize, s.dpbs toggle i = .invalid

/-- The invariant of a run. -/
def Marked (s : AvcDecoder) : Prop :=
  match s.va with
  | none => s.Stopped
  | some c => Consistent c.numSurfaces s

theorem Marked.of_va (h : s.Marked) (hva : s.va = some c) : Consistent c.numSurfaces s := by
  rw [Marked, hva] at h
  exact h

theorem Consistent.marked (h : Consistent c.numSurfaces s) (hva : s.va = some c) : s.Marked := by
  rw [Marked, hva]
  exact h

theorem marked_constructed (format : VideoFormatInfo) : (constructed format).Marked :=
  (⟨rfl, fun _ _ _ => rfl⟩ : (constructed format).Stopped)

theorem Marked.flush (h : s.Marked) (endPicture : Bool) : (s.flush endPicture).Marked := by
  cases hva : s.va with
  | none =>
    have hstopped : s.Stopped := by
      rw [Marked, hva] at h
      exact h
    have hflush : s.flush endPicture = s.invalidate := by simp [AvcDecoder.flush, hva]
    have hva' : s.invalidate.va = none := hva
    rw [hflush, Marked, hva']
    exact ⟨hstopped.acquirePos, fun toggle i hi => s.dpbs_invalidate toggle hi⟩
  | some c =>
    have hflush : s.flush endPicture = AvcDecoder.invalidate { s with
        base := s.base.flush c.toDecoderConfig endPicture, currentPts := invalidPts } := by
      simp [AvcDecoder.flush, hva]
    rw [hflush]
    refine Consistent.marked (c := c) ?_ hva
    refine Consistent.of_empty (Decoder.tracks_flush endPicture) fun toggle i hi => ?_
    exact dpbs_invalidate _ toggle hi

theorem marked_stop (s : AvcDecoder) (endPicture : Bool) : (s.stop endPicture).Marked :=
  (⟨rfl, fun toggle _ hi => dpbs_invalidate _ toggle hi⟩ : (s.stop endPicture).Stopped)

theorem Stopped.startVa (h : s.Stopped) (x : StartVa) : (s.startVa x).Marked := by
  refine Consistent.marked (c := x.config) ?_ rfl
  refine Consistent.of_empty ⟨?_, fun b _ => by simp [AvcDecoder.startVa, freshBuffer]⟩ h.dpbs
  have hpos : (s.startVa x).base.acquirePos = 0 := h.acquirePos
  rw [hpos]
  exact x.config.surfaces_pos

/-! ### Runs -/

/-- A call gives up no frame whose buffer stays in the decoded picture buffer. -/
def keeps (s : AvcDecoder) : AvcCall → Bool
  | .decodeFrame timeStamp data answers => s.va.all fun c => s.frameKeeps c timeStamp data answers
  | .getOutput draining endPicture _ =>
    s.va.all fun c => !draining || s.endKeeps c false endPicture
  | _ => true

/-! Decoding does not change the configuration. -/

@[simp] theorem va_startPicture (s : AvcDecoder) (a : ℕ) (pic : VAPictureParameterBufferH264)
    (slice : VbpSliceDataH264) : (s.startPicture a pic slice).2.va = s.va := by
  unfold AvcDecoder.startPicture
  repeat' split
  all_goals rfl

@[simp] theorem va_decodeSlice (s : AvcDecoder) (a : ℕ) (pic : VAPictureParameterBufferH264)
    (slice : VbpSliceDataH264) : (s.decodeSlice c a pic slice).2.va = s.va := by
  unfold AvcDecoder.decodeSlice
  extract_lets r
  have hr : r.2.va = s.va := by
    unfold r
    split
    · exact s.va_startPicture a pic slice
    · rfl
  split
  · exact hr
  · exact hr

@[simp] theorem va_dropFrame (s : AvcDecoder) (pic : VAPictureParameterBufferH264)
    (endDropped : Bool) : (s.dropFrame c pic endDropped).va = s.va := by
  unfold AvcDecoder.dropFrame removeReferenceFromDpb
  split <;> rfl

@[simp] theorem va_decodeSlices (s : AvcDecoder) (a : ℕ) (pic : VAPictureParameterBufferH264)
    (slices : List VbpSliceDataH264) : (s.decodeSlices c a pic slices).2.va = s.va := by
  induction slices generalizing s with
  | nil => rfl
  | cons slice slices ih =>
    rw [AvcDecoder.decodeSlices]
    split
    · simp
    · simp [ih]

@[simp] theorem va_decodePictures (s : AvcDecoder) (a : ℕ) (first : Bool)
    (pictures : List VbpPictureDataH264) : (s.decodePictures c a first pictures).2.va = s.va := by
  induction pictures generalizing s first with
  | nil => rfl
  | cons p pictures ih =>
    rw [AvcDecoder.decodePictures]
    dsimp only
    repeat' split
    · rfl
    · rfl
    · simp
    · simp [ih]

@[simp] theorem va_continueDecodingFrame (s : AvcDecoder) (data : VbpDataH264) :
    (s.continueDecodingFrame c data).2.va = s.va := by
  unfold AvcDecoder.continueDecodingFrame
  split
  · rfl
  · split
    · rfl
    · simp

@[simp] theorem va_acquire (s : AvcDecoder) (data : VbpDataH264) (busy : ℕ → Bool) :
    (s.acquire c data busy).2.va = s.va := by
  unfold AvcDecoder.acquire
  extract_lets r
  split <;> rfl

@[simp] theorem va_beginDecodingFrame (s : AvcDecoder) (data : VbpDataH264) (busy : ℕ → Bool) :
    (s.beginDecodingFrame c data busy).2.va = s.va := by
  unfold AvcDecoder.beginDecodingFrame
  dsimp only
  split <;> simp

@[simp] theorem va_isWiDiStatusChanged (s : AvcDecoder) (widi : Bool) :
    (s.isWiDiStatusChanged c widi).2.va = s.va := by
  unfold AvcDecoder.isWiDiStatusChanged
  split <;> rfl

@[simp] theorem va_endDecodingFrame (s : AvcDecoder) (dropFrame endPicture rawData : Bool) :
    (s.endDecodingFrame c dropFrame endPicture rawData).2.va = s.va := rfl

@[simp] theorem va_needFlush (s : AvcDecoder) (widi : Bool) : (s.needFlush c widi).2.va = s.va := by
  unfold AvcDecoder.needFlush
  dsimp only
  repeat' split
  all_goals first | rfl | exact s.va_isWiDiStatusChanged widi

theorem va_handleNewSequence (s : AvcDecoder) (data : VbpDataH264) (answers : Answers) :
    (s.handleNewSequence c data answers).2.va = s.va := by
  have hformat : (s.updateFormatInfo c data).va = s.va := rfl
  have hflush := (s.updateFormatInfo c data).va_needFlush (c := c) answers.widiInSequence
  unfold AvcDecoder.handleNewSequence
  dsimp only
  repeat' split
  all_goals first | exact hformat | exact hflush.trans hformat

@[simp] theorem va_isNewFrame (s : AvcDecoder) (data : VbpDataH264) (equalPts : Bool) :
    (s.isNewFrame data equalPts).2.va = s.va := by
  unfold AvcDecoder.isNewFrame
  dsimp only
  repeat' split
  all_goals rfl

@[simp] theorem va_decodeNewFrame (s : AvcDecoder) (data : VbpDataH264) (answers : Answers) :
    (s.decodeNewFrame c data answers).2.va = s.va := by
  unfold AvcDecoder.decodeNewFrame
  dsimp only
  repeat' split
  all_goals simp

theorem va_decodePictureData (s : AvcDecoder) (timeStamp : UInt64) (data : VbpDataH264)
    (answers : Answers) : (s.decodePictureData c timeStamp data answers).2.va = s.va := by
  have hwidi : (s.isWiDiStatusChanged c answers.widi).2.va = s.va :=
    s.va_isWiDiStatusChanged answers.widi
  unfold AvcDecoder.decodePictureData
  generalize s.isWiDiStatusChanged c answers.widi = w at hwidi ⊢
  dsimp only
  split
  · exact hwidi
  · split
    · exact hwidi
    · split
      · simp [hwidi]
      · simp [hwidi]

theorem va_decodeFrame (s : AvcDecoder) (timeStamp : UInt64) (data : VbpDataH264)
    (answers : Answers) : (s.decodeFrame c timeStamp data answers).2.va = s.va := by
  unfold AvcDecoder.decodeFrame
  split
  · rfl
  · extract_lets r
    have hr : r.2.va = s.va := by
      unfold r
      split
      · exact s.va_handleNewSequence data answers
      · rfl
    split
    · exact hr
    · exact (r.2.va_decodePictureData timeStamp data answers).trans hr

/-- One call. -/
theorem Marked.step {call : AvcCall} (h : s.Marked) (hkeeps : s.keeps call = true)
    (hstep : s.step call = some t) : t.Marked := by
  cases call with
  | startVa x =>
    obtain ⟨hstopped, hstep⟩ := ite_none_left_eq_some.mp hstep
    have hva : s.va = none := by
      rw [Bool.or_eq_true, not_or, not_isSome_iff_eq_none] at hstopped
      exact hstopped.1
    rw [Marked, hva] at h
    rw [← some.inj hstep]
    exact h.startVa x
  | decodeFrame timeStamp data answers =>
    obtain ⟨c, hva, rfl⟩ := map_eq_some_iff.mp hstep
    rw [keeps, hva, all_some] at hkeeps
    refine ((h.of_va hva).decodeFrame hkeeps).marked ?_
    rw [va_decodeFrame, hva]
  | getOutput draining endPicture rawData =>
    obtain ⟨c, hva, hout⟩ := bind_eq_some_iff.mp hstep
    obtain ⟨r, hr, rfl⟩ := map_eq_some_iff.mp hout
    rw [keeps, hva, all_some] at hkeeps
    refine Consistent.marked ?_ hva
    have hmarks := (h.of_va hva).tracks.drained c.ownReferences draining endPicture rawData
      fun hdraining b hb => by
        rw [hdraining] at hkeeps
        exact ne_of_endKeeps hkeeps hb
    exact (h.of_va hva).of_base rfl rfl rfl (hmarks.takeOutput hr)
  | signalRenderDone i =>
    obtain ⟨c, hva, hsignal⟩ := bind_eq_some_iff.mp hstep
    obtain ⟨base, hsignal, rfl⟩ := map_eq_some_iff.mp hsignal
    refine Consistent.marked ?_ hva
    refine (h.of_va hva).of_base rfl rfl rfl ?_
    simp only [Decoder.step] at hsignal
    split at hsignal
    · cases hsignal
    · rw [← some.inj hsignal]
      have hmarks := (h.of_va hva).tracks.modify_kept i (fun b => { b with renderDone := true })
        fun _ => rfl
      exact ⟨hmarks.pos, hmarks.marked⟩
  | flush endPicture =>
    rw [← some.inj hstep]
    exact h.flush endPicture
  | stop endPicture =>
    rw [← some.inj hstep]
    exact s.marked_stop endPicture

/-- A surface buffer is marked exactly if an entry of the current decoded picture buffer points to
it, and such a buffer has not been acquired again since it was entered. -/
def ReferencesMarked (s : AvcDecoder) : Prop :=
  ∀ c, s.va = some c →
    (∀ b < c.numSurfaces, (s.base.buffers b).asReference = true ↔
      ∃ i < dpbSize, ∃ r, (s.dpb i).surfaceBuffer = some r ∧ r.buffer = b) ∧
    ∀ i < dpbSize, ∀ r, (s.dpb i).surfaceBuffer = some r → r.acquisition = s.acquisitions r.buffer

theorem Marked.referencesMarked (h : s.Marked) : s.ReferencesMarked := by
  intro c hva
  refine ⟨fun b hb => ((h.of_va hva).tracks.marked b hb).trans ?_, (h.of_va hva).entered⟩
  simp [DecodedPictureBuffer.buffer]

end AvcDecoder

open AvcDecoder

/-- In every run in which no frame is given up whose buffer stays in the decoded picture buffer,
the marks are right between two calls. -/
theorem references_marked {s : AvcDecoder} {format : VideoFormatInfo}
    (hrun : Reach AvcDecoder.step (fun s call => s.keeps call = true) (constructed format) s) :
    s.ReferencesMarked :=
  (hrun.invariant (marked_constructed format) fun _ _ _ => Marked.step).referencesMarked

/-- Two surfaces for an AVC decoder with graphic buffers. -/
def twoSurfaces : AvcConfig where
  toDecoderConfig := { twoBuffers true with manageReference := false, outputMethod := .byPoc }
  genHw := false
  storeMetaData := false
  surfaceProtection := false
  surfaceNumber := 2
  ownReferences := rfl

/-- A reference picture: one of the fields of a frame. -/
def fieldPicture (bottom : Bool) (poc : ℤ) : VAPictureH264 :=
  ⟨false, !bottom, bottom, true, false, poc, poc⟩

/-- A missing picture. -/
def noPicture : VAPictureH264 := ⟨true, false, false, false, false, 0, 0⟩

/-- A field with one slice, whose rendering has the given result. -/
def fieldData (pic : VAPictureH264) (reference : VAPictureH264) (rendered : Bool) :
    VbpPictureDataH264 where
  picParms := ⟨pic, fun i => if i = 0 then reference else noPicture, 0, 0⟩
  slices := [⟨0, 2, 0, 0, fun _ => noPicture, fun _ => noPicture, true, true, true, rendered, true⟩]

/-- A frame of two fields, the second of which refers to the first. -/
def twoFields (rendered : Bool) : VbpDataH264 where
  hasSps := true
  hasPps := true
  newSps := false
  newPps := false
  numRefFrames := 1
  numPictures := 2
  picData i :=
    if i = 0 then fieldData (fieldPicture false 0) noPicture true
    else fieldData (fieldPicture true 1) (fieldPicture false 0) rendered

/-- VA is started, and a frame of two fields is decoded. -/
def decodeTwoFields (rendered : Bool) : List AvcCall :=
  [.startVa ⟨twoSurfaces, fun _ => true, ⟨16, 16, 16, 16, 2⟩, 8, false⟩,
    .decodeFrame 0 (twoFields rendered) ⟨fun _ => false, true, true, false, false⟩]

/-- Both fields are decoded: their buffer is a reference. -/
theorem references_marked_fields : ∃ s : AvcDecoder, s.ReferencesMarked ∧
    (s.base.buffers 0).asReference = true ∧ (s.dpb 1).surfaceBuffer = some ⟨0, 1⟩ := by
  obtain ⟨s, hrun, hs⟩ : ∃ s, Reach AvcDecoder.step (fun s call => s.keeps call = true)
      (constructed ⟨16, 16, 16, 16, 2⟩) s ∧ (s.base.buffers 0).asReference = true ∧
        (s.dpb 1).surfaceBuffer = some ⟨0, 1⟩ :=
    Reach.exists_of_decide (fun _ _ h => h) (decodeTwoFields true) (by decide)
  exact ⟨s, references_marked hrun, hs⟩

/-- The second field cannot be rendered: the buffer is released, but the entry of the first field
still points to it. -/
theorem released_reference_entered : ¬ ∀ (format : VideoFormatInfo) (s : AvcDecoder),
    Reach AvcDecoder.step (fun _ _ => True) (constructed format) s → s.ReferencesMarked := by
  intro h
  obtain ⟨s, hrun, hva, hmark, hentry⟩ : ∃ s, Reach AvcDecoder.step (fun _ _ => True)
      (constructed ⟨16, 16, 16, 16, 2⟩) s ∧ s.va.map (·.numSurfaces) = some 2 ∧
        (s.base.buffers 0).asReference = false ∧ (s.dpb 0).surfaceBuffer = some ⟨0, 1⟩ :=
    Reach.exists_of_decide (fun _ _ h => h) (decodeTwoFields false) (by decide)
  obtain ⟨c, hva, hsurfaces⟩ := map_eq_some_iff.mp hva
  have hmarked := ((h _ s hrun c hva).1 0 (by rw [hsurfaces]; decide)).mpr
    ⟨0, by decide, ⟨0, 1⟩, hentry, rfl⟩
  rw [hmark] at hmarked
  cases hmarked

end HardwareIntel.VideoDecoder
