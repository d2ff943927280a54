import HardwareIntel.Asf.Reassembly

/-!
# Which payloads stay in their buffers

A payload fits if it ends within the buffer that it is copied to: for the first payload of an object the
buffer is as large as the largest object of the track so far, up to a page, for a later one it is that
of the object in progress. `isSome_readPayloads_iff` says that nothing else can go wrong.
-/

namespace HardwareIntel.Asf

open Option

/-! ## The pool -/

/-- The size in pages. -/
def pageSize (n : ℕ) : ℕ := (n + 4096 - 1) / 4096 * 4096

/-- Buffers have no observer, so that the pool never gets one back, and are not larger than an `int`
allows. -/
structure MediaBufferPool.Sound (pool : MediaBufferPool) : Prop where
  nil : pool.buffers = []
  nonneg : 0 ≤ pool.mMaxBufferSize
  le : pool.mMaxBufferSize ≤ 2 ^ 31 - 4096

namespace MediaBufferPool

variable {pool pool' : MediaBufferPool} {b : MediaBuffer} {size : ℤ} {n : ℕ}

/-- A sound pool gives a new buffer, and one as large as any before. -/
theorem Sound.acquire (hpool : pool.Sound) (h : pool.acquireBuffer size = some (b, pool')) :
    pool'.Sound ∧ b = .new pool'.mMaxBufferSize.toNat := by
  rw [acquireBuffer, hpool.nil] at h
  change (if _ then _ else none) = some _ at h
  rw [ite_none_right_eq_some] at h
  obtain ⟨hsize, h⟩ := h
  have hnonneg := hpool.nonneg
  dsimp only at h
  split at h
  · obtain ⟨rfl, rfl⟩ := Prod.mk.inj (some.inj h)
    exact ⟨⟨rfl, hnonneg, hpool.le⟩, rfl⟩
  · next hmax =>
    obtain ⟨rfl, rfl⟩ := Prod.mk.inj (some.inj h)
    have hpages : Int.tdiv (size + 4096 - 1) 4096 ≤ Int.tdiv (2 ^ 31 - 1) 4096 :=
      Int.tdiv_le_tdiv (by decide) (by omega)
    have hlast : Int.tdiv (2 ^ 31 - 1) 4096 = 524287 := by decide
    exact ⟨⟨rfl, (by omega : 0 ≤ Int.tdiv (size + 4096 - 1) 4096 * 4096),
      (by omega : Int.tdiv (size + 4096 - 1) 4096 * 4096 ≤ 2 ^ 31 - 4096)⟩, rfl⟩

/-- The size of the buffer for an object: in pages, and not smaller than any before. -/
def capacity (pool : MediaBufferPool) (n : ℕ) : ℕ := max pool.mMaxBufferSize.toNat (pageSize n)

theorem Sound.acquire_of_lt (hpool : pool.Sound) (hn : n + 4096 - 1 < 2 ^ 31) :
    pool.acquireBuffer (toInt n) = some (.new (pool.capacity n), ⟨pool.capacity n, []⟩) := by
  have hnonneg := hpool.nonneg
  have hsmall : n < 2 ^ 31 := by omega
  have hround : Int.tdiv ((n : ℤ) + 4096 - 1) 4096 * 4096 = (pageSize n : ℕ) := by
    rw [Int.tdiv_eq_ediv_of_nonneg (by omega), pageSize]
    omega
  have hsize : (n : ℤ) + 4096 - 1 < 2 ^ 31 := by omega
  rw [acquireBuffer, hpool.nil, toInt, if_pos hsmall]
  change (if _ then _ else none) = _
  rw [if_pos hsize]
  dsimp only
  rw [hround, capacity]
  split
  · next hlt =>
    have hmax : max pool.mMaxBufferSize.toNat (pageSize n) = pool.mMaxBufferSize.toNat := by omega
    rw [hmax, Int.toNat_of_nonneg hnonneg]
  · next hge =>
    have hmax : max pool.mMaxBufferSize.toNat (pageSize n) = pageSize n := by omega
    rw [hmax, Int.toNat_natCast]

/-- Objects above the limit do not get a buffer of their size. -/
theorem Sound.size_lt (hpool : pool.Sound) (hn : ¬ n + 4096 - 1 < 2 ^ 31)
    (h : pool.acquireBuffer (toInt n) = some (b, pool')) : b.size < n := by
  obtain ⟨hpool', rfl⟩ := hpool.acquire h
  change pool'.mMaxBufferSize.toNat < n
  have hle := hpool'.le
  omega

end MediaBufferPool

theorem le_pageSize (n : ℕ) : n ≤ pageSize n := by
  rw [pageSize]
  omega

/-! ## Tracks -/

/-- The pool is sound, and no buffer of the track has an observer or is too large. -/
structure Track.Sound (t : Track) : Prop where
  pool : t.bufferPool.Sound
  queue : ∀ b ∈ t.bufferQueue, b.hasObserver = false
  active : ∀ b ∈ t.bufferActive, b.hasObserver = false ∧ b.size ≤ 2 ^ 31 - 4096

/-- The payload stays in its buffer. -/
def Track.Fits (t : Track) (payload : Payload) : Prop :=
  if payload.IsFirst then payload.mediaObjectLength + 4096 - 1 < 2 ^ 31 ∧
    payload.payloadSize ≤ t.bufferPool.capacity payload.mediaObjectLength
  else ∀ b ∈ t.bufferActive, payload.offsetIntoMediaObject + payload.payloadSize ≤ b.size

namespace MediaBuffer

variable {b b' : MediaBuffer} {offset length : ℕ} {l : List UInt8}

theorem memcpy_eq_none (h : ¬ offset + l.length ≤ b.size) : b.memcpy offset l = none := if_neg h

theorem exists_memcpy (h : offset + l.length ≤ b.size) : ∃ b', b.memcpy offset l = some b' :=
  ⟨_, if_pos h⟩

/-- A copy leaves everything but the data. -/
theorem size_of_memcpy (h : b.memcpy offset l = some b') :
    b'.size = b.size ∧ b'.hasObserver = b.hasObserver := by
  rw [memcpy, ite_none_right_eq_some] at h
  obtain rfl := some.inj h.2
  exact ⟨rfl, rfl⟩

theorem size_of_setRange (h : b.setRange offset length = some b') :
    b'.size = b.size ∧ b'.hasObserver = b.hasObserver := by
  rw [setRange, ite_none_right_eq_some] at h
  obtain rfl := some.inj h.2
  exact ⟨rfl, rfl⟩

end MediaBuffer

namespace Track

variable {t t' : Track} {payload : Payload} {mProtected : Bool} {keyTime : Option ℕ}

theorem Sound.push (h : t.Sound) {b : MediaBuffer} (hb : b.hasObserver = false)
    {active : Option MediaBuffer} {pool : MediaBufferPool} (hpool : pool.Sound)
    (hactive : ∀ b ∈ active, b.hasObserver = false ∧ b.size ≤ 2 ^ 31 - 4096) :
    Sound { t with bufferPool := pool, bufferActive := active, bufferQueue := t.bufferQueue ++ [b] } where
  pool := hpool
  queue b' hb' := by
    obtain hb' | hb' := List.mem_append.mp hb'
    · exact h.queue b' hb'
    · exact List.mem_singleton.mp hb' ▸ hb
  active := hactive

theorem Sound.pushCopy (h : t.Sound) (hcopy : t.pushCopy keyTime payload = some t') : t'.Sound := by
  rw [Track.pushCopy, bind_eq_some_iff] at hcopy
  obtain ⟨⟨copy, pool⟩, hacquire, hcopy⟩ := hcopy
  rw [bind_eq_some_iff] at hcopy
  obtain ⟨copied, hmemcpy, hcopy⟩ := hcopy
  rw [map_eq_some_iff] at hcopy
  obtain ⟨ranged, hrange, rfl⟩ := hcopy
  obtain ⟨hpool, rfl⟩ := h.pool.acquire hacquire
  have hobserver : ranged.hasObserver = false :=
    (MediaBuffer.size_of_setRange hrange).2.trans (MediaBuffer.size_of_memcpy hmemcpy).2
  exact h.push hobserver hpool h.active

/-- A copy of a payload has a buffer of its own size. -/
theorem isSome_pushCopy (h : t.Sound) (hsize : payload.payloadSize ≤ 2 ^ 31 - 4096) :
    (t.pushCopy keyTime payload).isSome := by
  have hle : payload.payloadSize ≤ t.bufferPool.capacity payload.payloadSize :=
    (le_pageSize _).trans (le_max_right _ _)
  have hfits : 0 + payload.payloadData.length ≤ t.bufferPool.capacity payload.payloadSize :=
    (Nat.zero_add _).trans_le hle
  have hrange : 0 + payload.payloadSize ≤ t.bufferPool.capacity payload.payloadSize :=
    (Nat.zero_add _).trans_le hle
  rw [Track.pushCopy, h.pool.acquire_of_lt (by omega), bind_some]
  dsimp only
  change (Option.bind (if 0 + _ ≤ t.bufferPool.capacity payload.payloadSize then _ else _) _).isSome
  rw [if_pos hfits, bind_some, MediaBuffer.setRange]
  change (Option.map _ (if 0 + _ ≤ t.bufferPool.capacity payload.payloadSize then _ else _)).isSome
  rw [if_pos hrange]
  rfl

/-- The buffer of an object after its first payload. -/
theorem firstPayload_eq_some (h : firstPayload mProtected payload t = some t') :
    ∃ b pool copied ranged, t.bufferPool.acquireBuffer (toInt payload.mediaObjectLength) = some (b, pool) ∧
      b.memcpy 0 payload.payloadData = some copied ∧
      copied.setRange 0 payload.mediaObjectLength = some ranged ∧
      (if payload.mediaObjectLength = payload.payloadSize then
        some { t with
          bufferPool := pool, bufferQueue := t.bufferQueue ++ [describe mProtected payload ranged] }
      else
        let t := { t with bufferPool := pool, bufferActive := some (describe mProtected payload ranged) }
        if t.encrypted then t.pushCopy (some (payload.presentationTime * 1000)) payload else some t) =
      some t' := by
  rw [firstPayload, bind_eq_some_iff] at h
  obtain ⟨⟨b, pool⟩, hacquire, h⟩ := h
  rw [bind_eq_some_iff] at h
  obtain ⟨copied, hmemcpy, h⟩ := h
  rw [bind_eq_some_iff] at h
  obtain ⟨ranged, hrange, h⟩ := h
  exact ⟨b, pool, copied, ranged, hacquire, hmemcpy, hrange, h⟩

theorem Sound.firstPayload (h : t.Sound) (hfirst : firstPayload mProtected payload t = some t') :
    t'.Sound := by
  obtain ⟨b, pool, copied, ranged, hacquire, hmemcpy, hrange, hfirst⟩ := firstPayload_eq_some hfirst
  obtain ⟨hpool, rfl⟩ := h.pool.acquire hacquire
  have hsize := MediaBuffer.size_of_memcpy hmemcpy
  have hsize' := MediaBuffer.size_of_setRange hrange
  have hobserver : (describe mProtected payload ranged).hasObserver = false :=
    hsize'.2.trans hsize.2
  have hlimit : (describe mProtected payload ranged).size ≤ 2 ^ 31 - 4096 := by
    have hle := hpool.le
    have hnonneg := hpool.nonneg
    have heq : ranged.size = pool.mMaxBufferSize.toNat := hsize'.1.trans hsize.1
    change ranged.size ≤ _
    omega
  have hactive : Sound { t with
      bufferPool := pool, bufferActive := some (describe mProtected payload ranged) } :=
    ⟨hpool, h.queue, fun b hb => mem_some.mp hb ▸ ⟨hobserver, hlimit⟩⟩
  split at hfirst
  · obtain rfl := some.inj hfirst
    exact h.push hobserver hpool h.active
  · dsimp only at hfirst
    split at hfirst
    · exact hactive.pushCopy hfirst
    · obtain rfl := some.inj hfirst
      exact hactive

/-- The buffer of `size` bytes with the first payload of an object. -/
def started (mProtected : Bool) (payload : Payload) (size : ℕ) : MediaBuffer :=
  describe mProtected payload { MediaBuffer.new size with
    data := fun i => if 0 ≤ i ∧ i < 0 + payload.payloadData.length then payload.payloadData[i - 0]?
      else none
    rangeLength := payload.mediaObjectLength }

theorem firstPayload_of_fits (h : t.Sound) (hlt : payload.mediaObjectLength + 4096 - 1 < 2 ^ 31)
    (hle : payload.payloadSize ≤ t.bufferPool.capacity payload.mediaObjectLength) :
    firstPayload mProtected payload t =
      let size := t.bufferPool.capacity payload.mediaObjectLength
      if payload.mediaObjectLength = payload.payloadSize then
        some { t with
          bufferPool := ⟨size, []⟩, bufferQueue := t.bufferQueue ++ [started mProtected payload size] }
      else
        let t := { t with
          bufferPool := ⟨size, []⟩, bufferActive := some (started mProtected payload size) }
        if t.encrypted then t.pushCopy (some (payload.presentationTime * 1000)) payload else some t := by
  have hobject : payload.mediaObjectLength ≤ t.bufferPool.capacity payload.mediaObjectLength :=
    (le_pageSize _).trans (le_max_right _ _)
  have hfits : 0 + payload.payloadData.length ≤ t.bufferPool.capacity payload.mediaObjectLength :=
    (Nat.zero_add _).trans_le hle
  have hrange : 0 + payload.mediaObjectLength ≤ t.bufferPool.capacity payload.mediaObjectLength :=
    (Nat.zero_add _).trans_le hobject
  rw [firstPayload, h.pool.acquire_of_lt hlt, bind_some]
  dsimp only
  change Option.bind (if 0 + _ ≤ t.bufferPool.capacity payload.mediaObjectLength then _ else _) _ = _
  rw [if_pos hfits, bind_some, MediaBuffer.setRange]
  change Option.bind (if 0 + _ ≤ t.bufferPool.capacity payload.mediaObjectLength then _ else _) _ = _
  rw [if_pos hrange]
  rfl

/-- The first payload of an object has to fit its buffer. -/
theorem isSome_firstPayload_iff (h : t.Sound) :
    (firstPayload mProtected payload t).isSome ↔ payload.mediaObjectLength + 4096 - 1 < 2 ^ 31 ∧
      payload.payloadSize ≤ t.bufferPool.capacity payload.mediaObjectLength := by
  constructor
  · intro hsome
    obtain ⟨t', hfirst⟩ := isSome_iff_exists.mp hsome
    obtain ⟨b, pool, copied, ranged, hacquire, hmemcpy, hrange, -⟩ := firstPayload_eq_some hfirst
    have hsize := (MediaBuffer.size_of_memcpy hmemcpy).1
    by_cases hlt : payload.mediaObjectLength + 4096 - 1 < 2 ^ 31
    · refine ⟨hlt, ?_⟩
      rw [h.pool.acquire_of_lt hlt] at hacquire
      obtain ⟨rfl, rfl⟩ := Prod.mk.inj (some.inj hacquire)
      by_contra hle
      have hnone := @MediaBuffer.memcpy_eq_none
        (.new (t.bufferPool.capacity payload.mediaObjectLength)) 0 payload.payloadData
        (by rw [Nat.zero_add]; exact hle)
      rw [hnone] at hmemcpy
      exact nomatch hmemcpy
    · have hsmall := h.pool.size_lt hlt hacquire
      rw [MediaBuffer.setRange, ite_none_right_eq_some] at hrange
      omega
  · rintro ⟨hlt, hle⟩
    rw [firstPayload_of_fits h hlt hle]
    dsimp only
    have hacquire := h.pool.acquire_of_lt hlt
    obtain ⟨hpool, -⟩ := h.pool.acquire hacquire
    have hlimit : ((t.bufferPool.capacity payload.mediaObjectLength : ℕ) : ℤ) ≤ 2 ^ 31 - 4096 :=
      hpool.le
    have hsize : t.bufferPool.capacity payload.mediaObjectLength ≤ 2 ^ 31 - 4096 := by omega
    split
    · rfl
    · split
      · have hactive : Sound { t with
            bufferPool := ⟨t.bufferPool.capacity payload.mediaObjectLength, []⟩
            bufferActive := some (started mProtected payload
              (t.bufferPool.capacity payload.mediaObjectLength)) } :=
          ⟨hpool, h.queue, fun b hb => mem_some.mp hb ▸ ⟨rfl, hsize⟩⟩
        exact isSome_pushCopy hactive (hle.trans hsize)
      · rfl

theorem laterPayload_of_active {active : MediaBuffer} (hactive : t.bufferActive = some active) :
    laterPayload payload t =
      (active.memcpy payload.offsetIntoMediaObject payload.payloadData).bind fun active =>
        if (payload.offsetIntoMediaObject + payload.payloadSize) % 2 ^ 32 =
            payload.mediaObjectLength then
          if t.encrypted then
            (active.setRange payload.offsetIntoMediaObject payload.payloadSize).map fun active =>
              { t with bufferQueue := t.bufferQueue ++ [active], bufferActive := none }
          else some { t with bufferQueue := t.bufferQueue ++ [active], bufferActive := none }
        else
          let t := { t with bufferActive := some active }
          if t.encrypted then t.pushCopy active.keyTime payload else some t := by
  rw [laterPayload, hactive]

theorem Sound.laterPayload (h : t.Sound) (hlater : laterPayload payload t = some t') : t'.Sound := by
  cases hactive : t.bufferActive with
  | none =>
    rw [Track.laterPayload, hactive] at hlater
    exact some.inj hlater ▸ h
  | some active =>
    rw [laterPayload_of_active hactive, bind_eq_some_iff] at hlater
    obtain ⟨copied, hmemcpy, hlater⟩ := hlater
    obtain ⟨hobserver, hlimit⟩ := h.active active hactive
    obtain ⟨hsize, hsame⟩ := MediaBuffer.size_of_memcpy hmemcpy
    have hcopied : Sound { t with bufferActive := some copied } :=
      ⟨h.pool, h.queue, fun b hb => mem_some.mp hb ▸ ⟨hsame.trans hobserver, hsize ▸ hlimit⟩⟩
    have hnone : ∀ b ∈ (none : Option MediaBuffer), b.hasObserver = false ∧ b.size ≤ 2 ^ 31 - 4096 :=
      fun b hb => nomatch hb
    split at hlater
    · split at hlater
      · rw [map_eq_some_iff] at hlater
        obtain ⟨ranged, hrange, rfl⟩ := hlater
        exact h.push ((MediaBuffer.size_of_setRange hrange).2.trans (hsame.trans hobserver)) h.pool hnone
      · obtain rfl := some.inj hlater
        exact h.push (hsame.trans hobserver) h.pool hnone
    · dsimp only at hlater
      split at hlater
      · exact hcopied.pushCopy hlater
      · exact some.inj hlater ▸ hcopied

/-- A later payload has to fit the buffer of the object in progress. -/
theorem isSome_laterPayload_iff (h : t.Sound) : (laterPayload payload t).isSome ↔
    ∀ b ∈ t.bufferActive, payload.offsetIntoMediaObject + payload.payloadSize ≤ b.size := by
  cases hactive : t.bufferActive with
  | none =>
    rw [laterPayload, hactive]
    exact ⟨fun _ b hb => (nomatch hb), fun _ => rfl⟩
  | some active =>
    obtain ⟨hobserver, hlimit⟩ := h.active active hactive
    rw [laterPayload_of_active hactive]
    constructor
    · intro hsome b hb
      obtain rfl := mem_some.mp hb
      by_contra hle
      rw [MediaBuffer.memcpy_eq_none hle] at hsome
      exact Bool.false_ne_true hsome
    · intro hfits
      have hle := hfits active rfl
      obtain ⟨copied, hcopied⟩ := MediaBuffer.exists_memcpy hle
      obtain ⟨hsize, hsame⟩ := MediaBuffer.size_of_memcpy hcopied
      have hrange : payload.offsetIntoMediaObject + payload.payloadSize ≤ copied.size := hsize ▸ hle
      have hsound : Sound { t with bufferActive := some copied } :=
        ⟨h.pool, h.queue, fun b hb => mem_some.mp hb ▸ ⟨hsame.trans hobserver, hsize ▸ hlimit⟩⟩
      rw [hcopied, bind_some]
      split
      · split
        · rw [MediaBuffer.setRange, if_pos hrange]
          rfl
        · rfl
      · dsimp only
        split
        · exact isSome_pushCopy hsound (by omega)
        · rfl

/-- What a track does with a payload. -/
def take (mProtected : Bool) (payload : Payload) (t : Track) : Option Track :=
  if payload.IsFirst then t.firstPayload mProtected payload else t.laterPayload payload

theorem Sound.take (h : t.Sound) (htake : t.take mProtected payload = some t') : t'.Sound := by
  rw [Track.take] at htake
  split at htake
  · exact h.firstPayload htake
  · exact h.laterPayload htake

theorem isSome_take_iff (h : t.Sound) : (t.take mProtected payload).isSome ↔ t.Fits payload := by
  rw [Track.take, Fits]
  split
  · exact isSome_firstPayload_iff h
  · exact isSome_laterPayload_iff h

end Track

/-! ## The extractor -/

namespace AsfExtractor

variable {s s' : AsfExtractor} {payload : Payload} {i : ℕ} {t : Track}

def Sound (s : AsfExtractor) : Prop := ∀ t ∈ s.tracks, t.Sound

/-- The track that takes a payload: not one that is skipped, nor one of video that waits for a key
frame. -/
def receiver (s : AsfExtractor) (payload : Payload) : Option (ℕ × Track) :=
  (s.trackOf payload.streamNumber).bind fun i => s.tracks[i]?.bind fun t =>
    if t.skipTrack ∨ (payload.IsFirst ∧ s.mNeedKeyFrame ∧ t.video ∧ ¬ payload.keyframe) then none
    else some (i, t)

theorem receiver_eq_some (h : s.receiver payload = some (i, t)) :
    s.trackOf payload.streamNumber = some i ∧ s.tracks[i]? = some t ∧ ¬ t.skipTrack := by
  obtain ⟨j, hj, h⟩ := bind_eq_some_iff.mp h
  obtain ⟨u, hu, h⟩ := bind_eq_some_iff.mp h
  rw [ite_none_left_eq_some, not_or] at h
  obtain ⟨⟨hskip, -⟩, h⟩ := h
  obtain ⟨rfl, rfl⟩ := Prod.mk.inj (some.inj h)
  exact ⟨hj, hu, hskip⟩

/-- The extractor after a track has taken a payload. -/
def update (s : AsfExtractor) (payload : Payload) (i : ℕ) (t t' : Track) : AsfExtractor :=
  { s with
    tracks := s.tracks.set i t'
    mNeedKeyFrame := s.mNeedKeyFrame && !(decide payload.IsFirst && t.video) }

theorem update_of_first (h : payload.IsFirst) : s.update payload i t = fun t' =>
    { s with tracks := s.tracks.set i t', mNeedKeyFrame := s.mNeedKeyFrame && !t.video } := by
  funext t'
  rw [update, decide_eq_true h, Bool.true_and]

theorem update_of_later (h : ¬ payload.IsFirst) : s.update payload i t = fun t' =>
    { s with tracks := s.tracks.set i t' } := by
  funext t'
  rw [update, decide_eq_false h, Bool.false_and, Bool.not_false, Bool.and_true]

theorem readPayload_eq : s.readPayload payload = (s.receiver payload).elim (some s) fun r =>
    (r.2.take s.mProtected payload).map (s.update payload r.1 r.2) := by
  rw [readPayload, receiver]
  cases htrack : s.trackOf payload.streamNumber with
  | none => rfl
  | some i =>
    rw [bind_some]
    dsimp only
    cases ht : s.tracks[i]? with
    | none => rfl
    | some t =>
      rw [bind_some]
      dsimp only
      by_cases hskip : t.skipTrack = true
      · rw [if_pos hskip, if_pos (Or.inl hskip)]
        rfl
      · rw [if_neg hskip]
        by_cases hfirst : payload.IsFirst
        · rw [if_pos hfirst]
          by_cases hdrop : s.mNeedKeyFrame ∧ t.video ∧ ¬ payload.keyframe
          · rw [if_pos hdrop, if_pos (Or.inr ⟨hfirst, hdrop⟩)]
            rfl
          · have hnot : ¬ (t.skipTrack ∨ (payload.IsFirst ∧ s.mNeedKeyFrame ∧ t.video ∧
                ¬ payload.keyframe)) := not_or.mpr ⟨hskip, fun h => hdrop h.2⟩
            rw [if_neg hdrop, if_neg hnot, elim_some, Track.take, if_pos hfirst,
              update_of_first hfirst]
        · have hnot : ¬ (t.skipTrack ∨ (payload.IsFirst ∧ s.mNeedKeyFrame ∧ t.video ∧
              ¬ payload.keyframe)) := not_or.mpr ⟨hskip, fun h => hfirst h.1⟩
          rw [if_neg hfirst, if_neg hnot, elim_some, Track.take, if_neg hfirst,
            update_of_later hfirst]

/-- The payload stays in the buffer of the track that takes it. -/
def Fits (s : AsfExtractor) (payload : Payload) : Prop :=
  ∀ r ∈ s.receiver payload, r.2.Fits payload

theorem Sound.getElem? (h : s.Sound) (ht : s.tracks[i]? = some t) : t.Sound :=
  h t (List.mem_of_getElem? ht)

theorem Sound.set (h : s.Sound) (ht : t.Sound) {mNeedKeyFrame : Bool} :
    Sound ⟨s.tracks.set i t, s.mProtected, mNeedKeyFrame⟩ := fun u hu => by
  obtain hu | rfl := List.mem_or_eq_of_mem_set hu
  · exact h u hu
  · exact ht

theorem Sound.readPayload (h : s.Sound) (hread : s.readPayload payload = some s') : s'.Sound := by
  rw [readPayload_eq] at hread
  cases hreceiver : s.receiver payload with
  | none =>
    rw [hreceiver] at hread
    exact some.inj hread ▸ h
  | some r =>
    rw [hreceiver, elim_some, map_eq_some_iff] at hread
    obtain ⟨t', htake, rfl⟩ := hread
    have ht := h.getElem? (receiver_eq_some hreceiver).2.1
    exact h.set (ht.take htake)

theorem isSome_readPayload_iff (h : s.Sound) : (s.readPayload payload).isSome ↔ s.Fits payload := by
  rw [readPayload_eq, Fits]
  cases hreceiver : s.receiver payload with
  | none => exact ⟨fun _ r hr => (nomatch hr), fun _ => rfl⟩
  | some r =>
    have ht := h.getElem? (receiver_eq_some hreceiver).2.1
    rw [elim_some, isSome_map, Track.isSome_take_iff ht]
    exact ⟨fun hfits r' hr' => mem_some.mp hr' ▸ hfits, fun hfits => hfits r rfl⟩

/-- A sequence of payloads is copied without an error exactly if each of them fits when it comes. -/
theorem isSome_readPayloads_iff (h : s.Sound) (payloads : List Payload) :
    (s.readPayloads payloads).isSome ↔ AlongM AsfExtractor.readPayload Fits s payloads :=
  isSome_foldlM_iff (fun _ _ hs => isSome_readPayload_iff hs) (fun _ _ _ hs => hs.readPayload) h

end AsfExtractor

end HardwareIntel.Asf
