import HardwareIntel.Asf.ReassemblySafety

/-!
# The objects that clients read

If the payloads of a track are the fragments of media objects, then what a client reads from the track
are these objects, in order, and the end of the stream after the last one.
-/

namespace HardwareIntel.Asf

open List

/-- A media object of a stream, with its presentation time in milliseconds. -/
structure MediaObject where
  data : List UInt8
  presentationTime : ℕ

/-- The payload carries at least a byte of the object, from a position on. -/
structure Payload.Carries (payload : Payload) (o : MediaObject) (pos : ℕ) : Prop where
  offset : payload.offsetIntoMediaObject = pos
  length : payload.mediaObjectLength = o.data.length
  time : payload.presentationTime = o.presentationTime
  data : payload.payloadData = (o.data.drop pos).take payload.payloadSize
  pos : 0 < payload.payloadSize

/-- Payloads that carry the rest of an object. -/
inductive Fragments (o : MediaObject) : ℕ → List Payload → Prop
  | done : Fragments o o.data.length []
  | next {pos : ℕ} {payload : Payload} {rest : List Payload} (carries : payload.Carries o pos)
      (fragments : Fragments o (pos + payload.payloadSize) rest) : Fragments o pos (payload :: rest)

/-- Payloads that carry objects one after the other. -/
inductive Carries : List MediaObject → List Payload → Prop
  | nil : Carries [] []
  | cons {o : MediaObject} {objects : List MediaObject} {fragments rest : List Payload}
      (ne_nil : o.data ≠ []) (first : Fragments o 0 fragments) (others : Carries objects rest) :
      Carries (o :: objects) (fragments ++ rest)

/-- A buffer with an object: its bytes, and the time in microseconds. -/
structure MediaBuffer.Is (b : MediaBuffer) (o : MediaObject) : Prop where
  range : b.range = o.data.map some
  time : b.keyTime = some (o.presentationTime * 1000)

/-- A buffer with the first bytes of an object. -/
structure MediaBuffer.Holds (b : MediaBuffer) (o : MediaObject) (pos : ℕ) : Prop where
  size : o.data.length ≤ b.size
  offset : b.rangeOffset = 0
  length : b.rangeLength = o.data.length
  time : b.keyTime = some (o.presentationTime * 1000)
  data : ∀ i < pos, b.data i = o.data[i]?

/-- What is left of the objects of a track: all of them, or also a part of one that is in progress. -/
inductive Pending : Option MediaBuffer → List MediaObject → List Payload → Prop
  | whole {active : Option MediaBuffer} {objects : List MediaObject} {rest : List Payload}
      (carries : Carries objects rest) : Pending active objects rest
  | part {b : MediaBuffer} {o : MediaObject} {objects : List MediaObject} {pos : ℕ}
      {fragments rest : List Payload} (pos_pos : 0 < pos) (pos_lt : pos < o.data.length)
      (holds : b.Holds o pos) (first : Fragments o pos fragments) (carries : Carries objects rest) :
      Pending (some b) (o :: objects) (fragments ++ rest)

namespace MediaBuffer

variable {b b' : MediaBuffer} {o : MediaObject} {pos : ℕ} {payload : Payload}

theorem Holds.is (h : b.Holds o o.data.length) : b.Is o := by
  refine ⟨?_, h.time⟩
  rw [range, h.offset, h.length]
  refine ext_getElem (by rw [length_map, length_map, length_range]) ?_
  intro i hi _
  rw [length_map, length_range] at hi
  rw [getElem_map, getElem_map, getElem_range, Nat.zero_add, h.data i hi,
    List.getElem?_eq_getElem hi]

/-- A fragment is copied to its place. -/
theorem Holds.memcpy (h : b.Holds o pos)
    (hdata : payload.payloadData = (o.data.drop pos).take payload.payloadSize)
    (hcopy : b.memcpy pos payload.payloadData = some b') : b'.Holds o (pos + payload.payloadSize) := by
  rw [MediaBuffer.memcpy, Option.ite_none_right_eq_some] at hcopy
  obtain rfl := Option.some.inj hcopy.2
  refine { h with data := fun i hi => ?_ }
  dsimp only
  by_cases hpos : pos ≤ i
  · have hplace : pos ≤ i ∧ i < pos + payload.payloadData.length := ⟨hpos, hi⟩
    rw [if_pos hplace, hdata, List.getElem?_take_of_lt (by omega), List.getElem?_drop,
      Nat.add_sub_cancel' hpos]
  · rw [if_neg fun h => hpos h.1]
    exact h.data i (by omega)

theorem holds_started {mProtected : Bool} {size : ℕ}
    (hlength : payload.mediaObjectLength = o.data.length)
    (htime : payload.presentationTime = o.presentationTime)
    (hdata : payload.payloadData = (o.data.drop 0).take payload.payloadSize)
    (hsize : o.data.length ≤ size) :
    (Track.started mProtected payload size).Holds o payload.payloadSize where
  size := hsize
  offset := rfl
  length := hlength
  time := congrArg (fun n => some (n * 1000)) htime
  data i hi := by
    have hplace : 0 ≤ i ∧ i < 0 + payload.payloadData.length := ⟨Nat.zero_le i, by rwa [Nat.zero_add]⟩
    change (if _ then _ else _) = _
    rw [if_pos hplace, Nat.sub_zero, hdata, drop_zero, List.getElem?_take_of_lt hi]

end MediaBuffer

/-! ## Fragments -/

section Fragments

variable {o : MediaObject} {objects : List MediaObject} {payload : Payload} {rest : List Payload}
  {pos : ℕ} {active : Option MediaBuffer}

theorem Payload.Carries.le (h : payload.Carries o pos) : pos + payload.payloadSize ≤ o.data.length := by
  have hlength := congrArg List.length h.data
  have hpos := h.pos
  rw [length_take, length_drop, ← Payload.payloadSize] at hlength
  omega

variable {fragments : List Payload}

section

variable (h : Fragments o pos fragments)
include h

theorem Fragments.le : pos ≤ o.data.length := by
  induction h with
  | done => exact le_rfl
  | next _ _ ih => omega

/-- Behind the end of the object there are no fragments. -/
theorem Fragments.eq_nil (hpos : pos = o.data.length) :
    fragments = [] := by
  cases h with
  | done => rfl
  | next carries fragments =>
    have hle := fragments.le
    have hsize := carries.pos
    omega

theorem Fragments.pos_eq (hnil : fragments = []) :
    pos = o.data.length := by
  cases h with
  | done => rfl
  | next => exact nomatch hnil

/-- The first payload of fragments that are appended to others. -/
theorem Fragments.cons {others : List Payload} (hpos : pos ≠ o.data.length)
    (hcons : fragments ++ others = payload :: rest) :
    ∃ fragments', payload.Carries o pos ∧ rest = fragments' ++ others ∧
      Fragments o (pos + payload.payloadSize) fragments' := by
  cases h with
  | done => exact absurd rfl hpos
  | next carries fragments =>
    obtain ⟨rfl, rfl⟩ := List.cons.inj hcons
    exact ⟨_, carries, rfl, fragments⟩

end

/-- What the next payload of a track carries: the start of an object, or the next part of the one that
is in progress. -/
theorem Pending.cons (h : Pending active objects (payload :: rest)) :
    ∃ o objects' pos fragments others, objects = o :: objects' ∧ rest = fragments ++ others ∧
      payload.Carries o pos ∧ Fragments o (pos + payload.payloadSize) fragments ∧
      Carries objects' others ∧ (pos = 0 ∨ 0 < pos ∧ ∃ b, active = some b ∧ b.Holds o pos) := by
  generalize hcons : payload :: rest = l at h
  cases h with
  | whole carries =>
    cases carries with
    | nil => exact nomatch hcons
    | @cons o objects' fragments others ne_nil first carries =>
      have hpos : 0 ≠ o.data.length := (length_pos_of_ne_nil ne_nil).ne
      obtain ⟨fragments', hpayload, hrest, hfragments⟩ := first.cons hpos hcons.symm
      exact ⟨o, objects', 0, fragments', others, rfl, hrest, hpayload, hfragments, carries, .inl rfl⟩
  | @part b o objects' pos fragments others pos_pos pos_lt holds first carries =>
    obtain ⟨fragments', hpayload, hrest, hfragments⟩ := first.cons pos_lt.ne hcons.symm
    exact ⟨o, objects', pos, fragments', others, rfl, hrest, hpayload, hfragments, carries,
      .inr ⟨pos_pos, b, rfl, holds⟩⟩

/-- With no payload left, no object is left. -/
theorem Pending.eq_nil (h : Pending active objects []) : objects = [] := by
  generalize hnil : [] = l at h
  cases h with
  | whole carries =>
    cases carries with
    | nil => rfl
    | @cons o objects' fragments others ne_nil first carries =>
      obtain ⟨rfl, rfl⟩ := append_eq_nil_iff.mp hnil.symm
      exact absurd (first.pos_eq rfl) (length_pos_of_ne_nil ne_nil).ne
  | @part b o objects' pos fragments others pos_pos pos_lt holds first carries =>
    obtain ⟨rfl, rfl⟩ := append_eq_nil_iff.mp hnil.symm
    exact absurd (first.pos_eq rfl) pos_lt.ne

end Fragments

/-! ## Tracks -/

namespace Track

variable {t : Track} {o : MediaObject} {objects : List MediaObject} {payload : Payload}
  {rest : List Payload} {pos : ℕ} {mProtected : Bool}

/-- The track after a step has queued these buffers, and is the same track. -/
structure Queues (t t' : Track) (new : List MediaBuffer) : Prop where
  queue : t'.bufferQueue = t.bufferQueue ++ new
  streamNumber : t'.streamNumber = t.streamNumber
  skipTrack : t'.skipTrack = t.skipTrack
  encrypted : t'.encrypted = t.encrypted

theorem isFirst_iff (h : payload.Carries o pos) : payload.IsFirst ↔ pos = 0 := by
  have hle := h.le
  rw [Payload.IsFirst, h.length, h.offset]
  constructor
  · rintro (hsize | hzero)
    · omega
    · exact hzero
  · exact .inr

/-- A track that is not encrypted puts a fragment into its place, and queues the buffer if the object
is complete. -/
theorem take_fragment (h : t.Sound) (henc : t.encrypted = false) (hcarries : payload.Carries o pos)
    (hactive : pos = 0 ∨ 0 < pos ∧ ∃ b, t.bufferActive = some b ∧ b.Holds o pos)
    (hfits : t.Fits payload) :
    ∃ t' b, t.take mProtected payload = some t' ∧ b.Holds o (pos + payload.payloadSize) ∧
      if pos + payload.payloadSize = o.data.length then t.Queues t' [b]
      else t.Queues t' [] ∧ t'.bufferActive = some b := by
  have hlength := hcarries.length
  have hplain : ¬ t.encrypted = true := fun h => Bool.false_ne_true (henc.symm.trans h)
  obtain rfl | ⟨hpos, b, hb, hholds⟩ := hactive
  · have hfirst := (isFirst_iff hcarries).mpr rfl
    rw [Fits, if_pos hfirst] at hfits
    obtain ⟨hlt, hcapacity⟩ := hfits
    rw [take, if_pos hfirst, firstPayload_of_fits h hlt hcapacity]
    have hsize : o.data.length ≤ t.bufferPool.capacity payload.mediaObjectLength :=
      hlength ▸ (le_pageSize _).trans (le_max_right _ _)
    have hholds := @MediaBuffer.holds_started o payload mProtected _ hlength hcarries.time
      hcarries.data hsize
    rw [Nat.zero_add]
    by_cases hcomplete : payload.payloadSize = o.data.length
    · rw [if_pos (hlength.trans hcomplete.symm)]
      refine ⟨_, _, rfl, hholds, ?_⟩
      rw [if_pos hcomplete]
      exact ⟨rfl, rfl, rfl, rfl⟩
    · rw [if_neg fun heq => hcomplete (heq.symm.trans hlength), if_neg hplain]
      refine ⟨_, _, rfl, hholds, ?_⟩
      rw [if_neg hcomplete]
      exact ⟨⟨(append_nil _).symm, rfl, rfl, rfl⟩, rfl⟩
  · have hlater : ¬ payload.IsFirst := fun hfirst => hpos.ne' ((isFirst_iff hcarries).mp hfirst)
    rw [Fits, if_neg hlater] at hfits
    obtain ⟨copied, hcopied⟩ := MediaBuffer.exists_memcpy (hfits b hb)
    have hoffset := hcarries.offset
    have hholds' := hholds.memcpy hcarries.data (hoffset ▸ hcopied)
    rw [take, if_neg hlater, laterPayload_of_active hb, hcopied, Option.bind_some, hoffset]
    have hlimit := (h.active b hb).2
    have hend := hfits b hb
    have hsmall : (pos + payload.payloadSize) % 2 ^ 32 = pos + payload.payloadSize :=
      Nat.mod_eq_of_lt (by omega)
    rw [hsmall, hlength]
    by_cases hcomplete : pos + payload.payloadSize = o.data.length
    · rw [if_pos hcomplete, if_neg hplain]
      refine ⟨_, _, rfl, hholds', ?_⟩
      rw [if_pos hcomplete]
      exact ⟨rfl, rfl, rfl, rfl⟩
    · rw [if_neg hcomplete, if_neg hplain]
      refine ⟨_, _, rfl, hholds', ?_⟩
      rw [if_neg hcomplete]
      exact ⟨⟨(append_nil _).symm, rfl, rfl, rfl⟩, rfl⟩

/-- The next payload of a track completes an object or goes on with one. -/
theorem take_pending (h : t.Sound) (henc : t.encrypted = false)
    (hpending : Pending t.bufferActive objects (payload :: rest)) (hfits : t.Fits payload) :
    ∃ t' new done objects', t.take mProtected payload = some t' ∧ t.Queues t' new ∧
      objects = done ++ objects' ∧ List.Forall₂ MediaBuffer.Is new done ∧
      Pending t'.bufferActive objects' rest := by
  obtain ⟨o, objects', pos, fragments, others, rfl, rfl, hcarries, hfragments, hothers, hactive⟩ :=
    hpending.cons
  obtain ⟨t', b, htake, hholds, hnext⟩ := @take_fragment t o payload pos mProtected h henc hcarries
    hactive hfits
  split at hnext
  · next hcomplete =>
    rw [hcomplete] at hholds
    obtain rfl := hfragments.eq_nil hcomplete
    exact ⟨t', [b], [o], objects', htake, hnext, rfl, .cons hholds.is .nil, .whole hothers⟩
  · next hcomplete =>
    obtain ⟨hqueues, hb⟩ := hnext
    have hpos := hcarries.pos
    have hle := hfragments.le
    refine ⟨t', [], [], o :: objects', htake, hqueues, rfl, .nil, ?_⟩
    rw [hb]
    exact .part (by omega) (by omega) hholds hfragments hothers

/-- Fragments of objects that are not too large fit. -/
theorem fits_pending (hpending : Pending t.bufferActive objects (payload :: rest))
    (hsize : ∀ o ∈ objects, o.data.length + 4096 - 1 < 2 ^ 31) : t.Fits payload := by
  obtain ⟨o, objects', pos, fragments, others, rfl, rfl, hcarries, -, -, hactive⟩ := hpending.cons
  have hle := hcarries.le
  have hlength := hcarries.length
  rw [Fits]
  split
  · have hobject := hsize o (mem_cons_self ..)
    have hpages := le_pageSize payload.mediaObjectLength
    rw [MediaBufferPool.capacity]
    omega
  · next hlater =>
    obtain rfl | ⟨-, b, hb, hholds⟩ := hactive
    · exact absurd ((isFirst_iff hcarries).mpr rfl) hlater
    · intro b' hb'
      rw [hb] at hb'
      obtain rfl := Option.mem_some.mp hb'
      have hobject := hholds.size
      rw [hcarries.offset]
      omega

end Track

end HardwareIntel.Asf
