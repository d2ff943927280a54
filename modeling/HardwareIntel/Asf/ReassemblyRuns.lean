import Mathlib.Data.List.Forall2
import HardwareIntel.Asf.ReassemblyOrder

/-!
# Runs of the clients

Clients read from the tracks in any order and release buffers when they like. As long as the payloads
fit and every packet has one, no run goes wrong, and every track whose payloads are the fragments of
objects gives these objects and then the end of the stream: `session_exact`.
-/

namespace HardwareIntel.Asf

open List Option Function

variable {s s' : AsfExtractor} {t t' : Track} {payload : Payload} {payloads rest : List Payload}
  {i n : ℕ} {objects : List MediaObject} {delivered : List MediaBuffer} {mProtected : Bool}

/-! ## Payloads of other tracks -/

theorem Track.same_of_pushCopy {keyTime : Option ℕ} (h : t.pushCopy keyTime payload = some t') :
    t'.streamNumber = t.streamNumber ∧ t'.skipTrack = t.skipTrack := by
  obtain ⟨⟨copy, pool⟩, -, h⟩ := bind_eq_some_iff.mp h
  obtain ⟨copied, -, h⟩ := bind_eq_some_iff.mp h
  obtain ⟨ranged, -, rfl⟩ := map_eq_some_iff.mp h
  exact ⟨rfl, rfl⟩

/-- A payload does not change which stream a track is for, nor whether it is read. -/
theorem Track.same_of_take (h : t.take mProtected payload = some t') :
    t'.streamNumber = t.streamNumber ∧ t'.skipTrack = t.skipTrack := by
  rw [take] at h
  split at h
  · obtain ⟨b, pool, copied, ranged, -, -, -, h⟩ := firstPayload_eq_some h
    split at h
    · exact some.inj h ▸ ⟨rfl, rfl⟩
    · dsimp only at h
      split at h
      · have hsame := same_of_pushCopy h
        exact hsame
      · exact some.inj h ▸ ⟨rfl, rfl⟩
  · cases hactive : t.bufferActive with
    | none =>
      rw [laterPayload, hactive] at h
      exact some.inj h ▸ ⟨rfl, rfl⟩
    | some active =>
      rw [laterPayload_of_active hactive] at h
      obtain ⟨copied, -, h⟩ := bind_eq_some_iff.mp h
      split at h
      · split at h
        · obtain ⟨ranged, -, rfl⟩ := map_eq_some_iff.mp h
          exact ⟨rfl, rfl⟩
        · exact some.inj h ▸ ⟨rfl, rfl⟩
      · dsimp only at h
        split at h
        · have hsame := same_of_pushCopy h
          exact hsame
        · exact some.inj h ▸ ⟨rfl, rfl⟩

/-! ## Queues do not matter -/

namespace Track

/-- The track without what it has queued. -/
def erase (t : Track) : Track := { t with bufferQueue := [] }

theorem map_erase_pushCopy (t : Track) (keyTime : Option ℕ) (payload : Payload) :
    (t.pushCopy keyTime payload).map erase = (t.erase.pushCopy keyTime payload).map erase := by
  simp [pushCopy, Option.map_map, erase, Function.comp_def]

theorem map_erase_firstPayload (mProtected : Bool) (payload : Payload) (t : Track) :
    (t.firstPayload mProtected payload).map erase =
      (t.erase.firstPayload mProtected payload).map erase := by
  simp only [firstPayload, map_bind, comp_def]
  refine congrArg _ (funext fun acquired => congrArg _ (funext fun copied =>
    congrArg _ (funext fun ranged => ?_)))
  by_cases hcomplete : payload.mediaObjectLength = payload.payloadSize
  · rw [if_pos hcomplete, if_pos hcomplete]
    rfl
  · rw [if_neg hcomplete, if_neg hcomplete]
    change Option.map erase (if t.encrypted then _ else _) =
      Option.map erase (if t.encrypted then _ else _)
    split
    · exact map_erase_pushCopy _ _ _
    · rfl

theorem map_erase_laterPayload (payload : Payload) (t : Track) :
    (t.laterPayload payload).map erase = (t.erase.laterPayload payload).map erase := by
  cases hactive : t.bufferActive with
  | none =>
    have herase : t.erase.bufferActive = none := hactive
    rw [laterPayload, laterPayload, hactive, herase]
    rfl
  | some active =>
    have herase : t.erase.bufferActive = some active := hactive
    rw [laterPayload_of_active hactive, laterPayload_of_active herase]
    simp only [Option.map_bind, Function.comp_def]
    refine congrArg _ (funext fun copied => ?_)
    change Option.map erase (if _ then if t.encrypted then _ else _ else if t.encrypted then _ else _) =
      Option.map erase (if _ then if t.encrypted then _ else _ else if t.encrypted then _ else _)
    split
    · split
      · simp only [Option.map_map, Function.comp_def]
        rfl
      · rfl
    · split
      · exact map_erase_pushCopy _ _ _
      · rfl

theorem map_erase_take (mProtected : Bool) (payload : Payload) (t : Track) :
    (t.take mProtected payload).map erase = (t.erase.take mProtected payload).map erase := by
  rw [take, take]
  split
  · exact map_erase_firstPayload mProtected payload t
  · exact map_erase_laterPayload payload t

end Track

namespace AsfExtractor

/-- The extractor without what its tracks have queued. -/
def erase (s : AsfExtractor) : AsfExtractor := { s with tracks := s.tracks.map Track.erase }

theorem trackOf_erase : s.erase.trackOf n = s.trackOf n := by
  exact List.findIdx?_map ..

theorem receiver_erase :
    s.erase.receiver payload = (s.receiver payload).map fun r => (r.1, r.2.erase) := by
  rw [receiver, receiver, trackOf_erase, map_bind]
  refine congrArg _ (funext fun i => ?_)
  rw [comp_apply, map_bind]
  change (s.tracks.map Track.erase)[i]?.bind _ = _
  rw [List.getElem?_map, bind_map]
  refine congrArg _ (funext fun t => ?_)
  rw [comp_apply, comp_apply, apply_ite (Option.map _)]
  rfl

theorem fits_erase : s.erase.Fits payload ↔ s.Fits payload := by
  rw [Fits, Fits, receiver_erase]
  cases s.receiver payload with
  | none => exact ⟨fun _ r hr => (by cases hr), fun _ r hr => (by cases hr)⟩
  | some r =>
    constructor
    · intro h r' hr'
      obtain rfl := mem_some.mp hr'
      exact h (r.1, r.2.erase) rfl
    · intro h r' hr'
      obtain rfl := mem_some.mp hr'
      exact h r rfl

/-- What is queued is erased before or after a track is put back. -/
theorem erase_update {u : Track} {other : AsfExtractor} (hother : s.erase = other.erase) :
    (s.update payload i t u).erase = (other.update payload i t.erase u.erase).erase := by
  obtain ⟨htracks, hprotected, hkey⟩ := AsfExtractor.mk.inj hother
  simp only [update, erase, map_set, htracks, hprotected, hkey]
  rfl

theorem erase_erase : s.erase.erase = s.erase := by
  rw [erase, erase, List.map_map]
  rfl

theorem map_erase_readPayload :
    (s.readPayload payload).map erase = (s.erase.readPayload payload).map erase := by
  rw [readPayload_eq, readPayload_eq, receiver_erase]
  cases s.receiver payload with
  | none => exact congrArg some erase_erase.symm
  | some r =>
    obtain ⟨i, t⟩ := r
    have htake := Track.map_erase_take s.mProtected payload t
    have hleft : erase ∘ s.update payload i t =
        (fun u => (s.erase.update payload i t.erase u).erase) ∘ Track.erase :=
      funext fun u => erase_update erase_erase.symm
    have hright : erase ∘ s.erase.update payload i t.erase =
        (fun u => (s.erase.update payload i t.erase u).erase) ∘ Track.erase :=
      funext fun u => erase_update rfl
    rw [Option.map_some, Option.elim_some, Option.elim_some, Option.map_map, Option.map_map, hleft]
    change _ = Option.map (erase ∘ s.erase.update payload i t.erase) _
    rw [hright, ← Option.map_map, ← Option.map_map, htake]
    rfl

/-- Whether payloads fit does not depend on what is queued. -/
theorem alongM_of_erase_eq (h : s.erase = s'.erase)
    (hfits : AlongM AsfExtractor.readPayload Fits s payloads) :
    AlongM AsfExtractor.readPayload Fits s' payloads := by
  induction payloads generalizing s s' with
  | nil => trivial
  | cons payload payloads ih =>
    refine ⟨?_, fun u' hu' => ?_⟩
    · rw [← fits_erase, ← h, fits_erase]
      exact hfits.1
    · have hsame : (s.readPayload payload).map erase = some u'.erase := by
        rw [map_erase_readPayload, h, ← map_erase_readPayload, hu']
        rfl
      obtain ⟨u, hu, herase⟩ := map_eq_some_iff.mp hsame
      exact ih herase (hfits.2 u hu)

end AsfExtractor

namespace AsfExtractor

/-- A track with the same number in its place does not change where a stream belongs. -/
theorem trackOf_set (ht : s.tracks[i]? = some t) (hnumber : t'.streamNumber = t.streamNumber)
    {mNeedKeyFrame : Bool} :
    trackOf ⟨s.tracks.set i t', s.mProtected, mNeedKeyFrame⟩ n = s.trackOf n := by
  have hnumbers (l : List Track) : l.findIdx? (fun t => t.streamNumber = n) =
      (l.map Track.streamNumber).findIdx? fun m => m = n := by
    rw [List.findIdx?_map]
    rfl
  obtain ⟨hi, hget⟩ := List.getElem?_eq_some_iff.mp ht
  have hi' : i < (s.tracks.map Track.streamNumber).length := (length_map _).symm ▸ hi
  have hsame : (s.tracks.map Track.streamNumber)[i] = t'.streamNumber := by
    rw [getElem_map, hget, hnumber]
  rw [trackOf, trackOf, hnumbers, hnumbers, map_set, ← hsame, set_getElem_self]

theorem receiver_of_trackOf (h : s.trackOf payload.streamNumber = some i)
    (ht : s.tracks[i]? = some t) (hkey : s.mNeedKeyFrame = false) (hskip : t.skipTrack = false) :
    s.receiver payload = some (i, t) := by
  rw [receiver, h, bind_some, ht, bind_some, hkey, hskip]
  simp

section

variable (hread : s.readPayload payload = some s')
include hread

theorem trackOf_readPayload : s'.trackOf = s.trackOf := by
  rw [readPayload_eq] at hread
  cases hreceiver : s.receiver payload with
  | none =>
    rw [hreceiver, elim_none] at hread
    exact some.inj hread ▸ rfl
  | some r =>
    rw [hreceiver, elim_some] at hread
    obtain ⟨t', htake, rfl⟩ := map_eq_some_iff.mp hread
    have ht := (receiver_eq_some hreceiver).2.1
    exact funext fun n => trackOf_set ht (Track.same_of_take htake).1

/-- A payload of another track leaves the track as it is. -/
theorem getElem?_readPayload (hother : s.trackOf payload.streamNumber ≠ some i) : s'.tracks[i]? = s.tracks[i]? := by
  rw [readPayload_eq] at hread
  cases hreceiver : s.receiver payload with
  | none =>
    rw [hreceiver, elim_none] at hread
    exact some.inj hread ▸ rfl
  | some r =>
    rw [hreceiver, elim_some] at hread
    obtain ⟨t', -, rfl⟩ := map_eq_some_iff.mp hread
    have hr := (receiver_eq_some hreceiver).1
    exact List.getElem?_set_ne fun hri => hother (hr.trans (congrArg some hri))

/-- The track that a payload may have changed. -/
theorem exists_getElem?_of_readPayload (ht' : s'.tracks[i]? = some t') : ∃ t, s.tracks[i]? = some t ∧ t'.skipTrack = t.skipTrack := by
  rw [readPayload_eq] at hread
  cases hreceiver : s.receiver payload with
  | none =>
    rw [hreceiver, elim_none] at hread
    exact ⟨t', some.inj hread ▸ ht', rfl⟩
  | some r =>
    obtain ⟨j, u⟩ := r
    rw [hreceiver, elim_some] at hread
    obtain ⟨u', htake, rfl⟩ := map_eq_some_iff.mp hread
    have hu := (receiver_eq_some hreceiver).2.1
    by_cases hji : j = i
    · subst hji
      have hj := (List.getElem?_eq_some_iff.mp hu).1
      obtain rfl : u' = t' := some.inj ((List.getElem?_set_self hj).symm.trans ht')
      exact ⟨u, hu, (Track.same_of_take htake).2⟩
    · exact ⟨t', (List.getElem?_set_ne hji).symm.trans ht', rfl⟩

end

/-! ## One track -/

/-- The payloads of a track. -/
def payloadsOf (s : AsfExtractor) (i : ℕ) (payloads : List Payload) : List Payload :=
  payloads.filter fun payload => s.trackOf payload.streamNumber = some i

/-- An active track without encryption that has queued or delivered some of its objects, with the other
ones still in the payloads. -/
structure Follows (s : AsfExtractor) (i : ℕ) (objects : List MediaObject)
    (delivered : List MediaBuffer) (rest : List Payload) (t : Track) (done todo : List MediaObject) :
    Prop where
  track : s.tracks[i]? = some t
  skipTrack : t.skipTrack = false
  encrypted : t.encrypted = false
  split : objects = done ++ todo
  complete : List.Forall₂ MediaBuffer.Is (delivered ++ t.bufferQueue) done
  pending : Pending t.bufferActive todo (s.payloadsOf i rest)

variable {done todo : List MediaObject}

/-- What is delivered is queued before. -/
theorem Follows.length_le (h : s.Follows i objects delivered rest t done todo) :
    delivered.length ≤ done.length := by
  have hcomplete := h.complete.length_eq
  rw [length_append] at hcomplete
  omega

/-- A payload goes on with the track, or leaves it as it is. -/
theorem Follows.readPayload (hsound : s.Sound) (hkey : s.mNeedKeyFrame = false)
    (h : s.Follows i objects delivered (payload :: rest) t done todo)
    (hread : s.readPayload payload = some s') :
    ∃ t' done' todo', s'.Follows i objects delivered rest t' done' todo' := by
  have hfits : s.Fits payload := (isSome_readPayload_iff hsound).mp (hread ▸ rfl)
  have hpayloads : s'.payloadsOf i rest = s.payloadsOf i rest := by
    rw [payloadsOf, payloadsOf, trackOf_readPayload hread]
  have hpending := h.pending
  by_cases hmine : s.trackOf payload.streamNumber = some i
  · have hreceiver := receiver_of_trackOf hmine h.track hkey h.skipTrack
    rw [readPayload_eq, hreceiver, elim_some] at hread
    obtain ⟨t', htake, rfl⟩ := map_eq_some_iff.mp hread
    rw [payloadsOf, filter_cons, if_pos (decide_eq_true hmine)] at hpending
    obtain ⟨u, new, done', todo', htake', hqueues, hsplit, hnew, hpending'⟩ :=
      Track.take_pending (hsound.getElem? h.track) h.encrypted hpending (hfits _ hreceiver)
    obtain rfl : t' = u := some.inj (htake.symm.trans htake')
    have hi := (List.getElem?_eq_some_iff.mp h.track).1
    refine ⟨t', done ++ done', todo', List.getElem?_set_self hi, hqueues.skipTrack.trans h.skipTrack,
      hqueues.encrypted.trans h.encrypted, ?_, ?_, hpayloads.symm ▸ hpending'⟩
    · rw [h.split, hsplit, append_assoc]
    · rw [hqueues.queue, ← append_assoc]
      exact rel_append h.complete hnew
  · rw [payloadsOf, filter_cons, if_neg (mt of_decide_eq_true hmine)] at hpending
    exact ⟨t, done, todo, { h with
      track := (getElem?_readPayload hread hmine).trans h.track
      pending := hpayloads.symm ▸ hpending }⟩

theorem mNeedKeyFrame_of_readPayload (hkey : s.mNeedKeyFrame = false)
    (hread : s.readPayload payload = some s') : s'.mNeedKeyFrame = false := by
  rw [readPayload_eq] at hread
  cases hreceiver : s.receiver payload with
  | none =>
    rw [hreceiver] at hread
    exact some.inj hread ▸ hkey
  | some r =>
    rw [hreceiver, elim_some] at hread
    obtain ⟨t', -, rfl⟩ := map_eq_some_iff.mp hread
    rw [update, hkey, Bool.false_and]

/-- The payloads of packets go on with all tracks. -/
theorem Follows.readPayloads (hsound : s.Sound) (hkey : s.mNeedKeyFrame = false)
    (h : s.Follows i objects delivered (payloads ++ rest) t done todo)
    (hread : s.readPayloads payloads = some s') :
    ∃ t' done' todo', s'.Follows i objects delivered rest t' done' todo' := by
  induction payloads generalizing s t done todo with
  | nil =>
    obtain rfl := some.inj hread
    exact ⟨t, done, todo, h⟩
  | cons payload payloads ih =>
    obtain ⟨u, hu, hrest⟩ := bind_eq_some_iff.mp hread
    obtain ⟨t', done', todo', h'⟩ := h.readPayload hsound hkey hu
    exact ih (hsound.readPayload hu) (mNeedKeyFrame_of_readPayload hkey hu) h' hrest

/-- If every track that is read is not encrypted and gets objects that are not too large, everything
fits. -/
theorem alongM_fits (hsound : s.Sound) (hkey : s.mNeedKeyFrame = false)
    (hfollows : ∀ i t, s.tracks[i]? = some t → t.skipTrack = false → ∃ objects done todo,
      s.Follows i objects [] payloads t done todo ∧ ∀ o ∈ objects, o.data.length + 4096 - 1 < 2 ^ 31) :
    AlongM AsfExtractor.readPayload Fits s payloads := by
  induction payloads generalizing s with
  | nil => trivial
  | cons payload payloads ih =>
    refine ⟨fun r hr => ?_, fun s' hread => ?_⟩
    · obtain ⟨i, t⟩ := r
      obtain ⟨hmine, ht, hskip⟩ := receiver_eq_some hr
      obtain ⟨objects, done, todo, h, hsize⟩ :=
        hfollows i t ht (Bool.eq_false_of_not_eq_true hskip)
      have hpending := h.pending
      rw [payloadsOf, filter_cons, if_pos (decide_eq_true hmine)] at hpending
      exact Track.fits_pending hpending fun o ho =>
        hsize o (h.split ▸ mem_append_right done ho)
    · refine ih (hsound.readPayload hread) (mNeedKeyFrame_of_readPayload hkey hread)
        fun i t' ht' hskip' => ?_
      obtain ⟨t, ht, hskip⟩ := exists_getElem?_of_readPayload hread ht'
      obtain ⟨objects, done, todo, h, hsize⟩ := hfollows i t ht (hskip.symm.trans hskip')
      obtain ⟨u, done', todo', h'⟩ := h.readPayload hsound hkey hread
      obtain rfl : u = t' := some.inj (h'.track.symm.trans ht')
      exact ⟨objects, done', todo', h', hsize⟩

/-! ## One call -/

variable {packets packets' : List (List Payload)} {result : Option MediaBuffer} {k : ℕ}

/-- All payloads of the packets fit, no packet is without one, and no key frame is waited for. -/
structure Ready (s : AsfExtractor) (packets : List (List Payload)) : Prop where
  sound : s.Sound
  key : s.mNeedKeyFrame = false
  fits : AlongM AsfExtractor.readPayload Fits s packets.flatten
  ne_nil : ∀ payloads ∈ packets, payloads ≠ []

theorem Ready.readPayloads (h : s.Ready (payloads :: packets)) :
    ∃ s', s.readPayloads payloads = some s' ∧ s'.Ready packets := by
  have hfits := h.fits
  have hsome := (isSome_readPayloads_iff h.sound payloads).mpr hfits.left
  obtain ⟨s', hread⟩ := isSome_iff_exists.mp hsome
  refine ⟨s', hread, ?_, ?_, hfits.right hread, fun p hp => h.ne_nil p (mem_cons_of_mem _ hp)⟩
  · exact foldlM_keeps (fun _ _ _ hs => hs.readPayload) h.sound hread
  · exact @foldlM_keeps _ _ _ _ _ _ (fun s => s.mNeedKeyFrame = false)
      (fun _ _ _ hs => mNeedKeyFrame_of_readPayload hs) h.key hread

/-- A buffer is taken from the queue of a track. -/
theorem erase_pop (ht : s.tracks[k]? = some t) (others : List MediaBuffer) :
    erase { s with tracks := s.tracks.set k { t with bufferQueue := others } } = s.erase := by
  obtain ⟨hk, rfl⟩ := List.getElem?_eq_some_iff.mp ht
  have hk' : k < (s.tracks.map Track.erase).length := (length_map _).symm ▸ hk
  have hsame : (s.tracks.map Track.erase)[k] = s.tracks[k].erase := getElem_map ..
  simp only [erase, map_set]
  change AsfExtractor.mk ((s.tracks.map Track.erase).set k s.tracks[k].erase) _ _ = _
  rw [← hsame, set_getElem_self]

theorem payloadsOf_pop (ht : s.tracks[k]? = some t) (others : List MediaBuffer) :
    payloadsOf { s with tracks := s.tracks.set k { t with bufferQueue := others } } i rest =
      s.payloadsOf i rest := by
  have hsame := funext fun n => @trackOf_set s t { t with bufferQueue := others } k n ht rfl
    s.mNeedKeyFrame
  rw [payloadsOf, payloadsOf, hsame]

theorem Ready.pop (h : s.Ready packets) (ht : s.tracks[k]? = some t) {buffer : MediaBuffer}
    {others : List MediaBuffer} (hqueue : t.bufferQueue = buffer :: others) :
    AsfExtractor.Ready { s with tracks := s.tracks.set k { t with bufferQueue := others } } packets := by
  have hsound := h.sound.getElem? ht
  have hpop : Track.Sound { t with bufferQueue := others } :=
    ⟨hsound.pool, fun b hb => hsound.queue b (hqueue ▸ mem_cons_of_mem _ hb), hsound.active⟩
  exact ⟨h.sound.set hpop, h.key, alongM_of_erase_eq (erase_pop ht others).symm h.fits, h.ne_nil⟩

/-- What a call gives to the client of a track: a buffer that the track had queued, or the end of the
stream if the track has no object left. -/
def Gives (s : AsfExtractor) (packets : List (List Payload)) (k : ℕ) (result : Option MediaBuffer)
    (i : ℕ) (objects : List MediaObject) (delivered : List MediaBuffer) : Prop :=
  ∃ t done todo, s.Follows i objects (if i = k then delivered ++ result.toList else delivered)
      packets.flatten t done todo ∧
    (i = k → result = none → packets = [] ∧ t.bufferQueue = [])

/-- A call goes well: it returns, it keeps what the next calls need, and it serves all tracks. -/
def ReadsWell (s : AsfExtractor) (packets : List (List Payload)) (k : ℕ) : Prop :=
  ∃ result packets' s', read k packets s = some (result, packets', s') ∧ s'.Ready packets' ∧
    (∀ b ∈ result, b.hasObserver = false) ∧
    ∀ {i objects delivered t done todo},
      s.Follows i objects delivered packets.flatten t done todo →
        s'.Gives packets' k result i objects delivered

theorem readsWell_of_missing (h : s.Ready packets) (hk : s.tracks[k]? = none) :
    s.ReadsWell packets k := by
  refine ⟨none, packets, s, ?_, h, fun b hb => (nomatch hb), fun {i _ _ t done todo} hfollows => ?_⟩
  · rw [read.eq_def]
    dsimp only
    rw [hk]
  · have hne : i ≠ k := fun hik => by
      rw [← hik, hfollows.track] at hk
      exact nomatch hk
    refine ⟨t, done, todo, ?_, fun hik => absurd hik hne⟩
    rw [if_neg hne]
    exact hfollows

theorem readsWell_of_queued (h : s.Ready packets) (hk : s.tracks[k]? = some t) {buffer : MediaBuffer}
    {others : List MediaBuffer} (hqueue : t.bufferQueue = buffer :: others) :
    s.ReadsWell packets k := by
  refine ⟨some buffer, packets, { s with tracks := s.tracks.set k { t with bufferQueue := others } }, ?_,
    h.pop hk hqueue, fun b hb => ?_, fun {i objects delivered u done todo} hfollows => ?_⟩
  · rw [read.eq_def]
    dsimp only
    rw [hk]
    dsimp only
    rw [hqueue]
  · obtain rfl := mem_some.mp hb
    exact (h.sound.getElem? hk).queue buffer (hqueue ▸ mem_cons_self ..)
  · have hpending := hfollows.pending
    rw [← payloadsOf_pop hk others] at hpending
    by_cases hik : i = k
    · subst hik
      obtain rfl : u = t := some.inj (hfollows.track.symm.trans hk)
      have hi := (List.getElem?_eq_some_iff.mp hk).1
      have hcomplete := hfollows.complete
      rw [hqueue] at hcomplete
      refine ⟨{ u with bufferQueue := others }, done, todo, ?_, fun _ hnone => nomatch hnone⟩
      rw [if_pos rfl]
      refine { hfollows with track := List.getElem?_set_self hi, complete := ?_, pending := hpending
        }
      rw [toList_some, append_assoc]
      exact hcomplete
    · refine ⟨u, done, todo, ?_, fun h => absurd h hik⟩
      rw [if_neg hik]
      exact { hfollows with
        track := (List.getElem?_set_ne fun hki => hik hki.symm).trans hfollows.track
        pending := hpending }

/-- The induction is on the packets that are left: a packet goes on with all tracks. -/
theorem Ready.read (h : s.Ready packets) (k : ℕ) : s.ReadsWell packets k := by
  induction packets generalizing s with
  | nil =>
    cases hk : s.tracks[k]? with
    | none => exact readsWell_of_missing h hk
    | some t =>
      cases hqueue : t.bufferQueue with
      | cons buffer others => exact readsWell_of_queued h hk hqueue
      | nil =>
        refine ⟨none, [], s, ?_, h, fun b hb => (nomatch hb),
          fun {i objects delivered u done todo} hfollows => ⟨u, done, todo, ?_, fun hik _ => ?_⟩⟩
        · rw [AsfExtractor.read.eq_def]
          dsimp only
          rw [hk]
          dsimp only
          rw [hqueue]
        · rw [toList_none, append_nil, ite_self]
          exact hfollows
        · subst hik
          obtain rfl : u = t := some.inj (hfollows.track.symm.trans hk)
          exact ⟨rfl, hqueue⟩
  | cons payloads packets ih =>
    cases hk : s.tracks[k]? with
    | none => exact readsWell_of_missing h hk
    | some t =>
      cases hqueue : t.bufferQueue with
      | cons buffer others => exact readsWell_of_queued h hk hqueue
      | nil =>
        obtain ⟨s', hread, hready⟩ := h.readPayloads
        obtain ⟨result, packets', s'', hrest, hready', hobserver, hgives⟩ := ih hready
        have hne := h.ne_nil payloads (mem_cons_self ..)
        refine ⟨result, packets', s'', ?_, hready', hobserver, fun hfollows => ?_⟩
        · rw [AsfExtractor.read.eq_def]
          dsimp only
          rw [hk]
          dsimp only
          rw [hqueue]
          obtain ⟨payload, payloads, rfl⟩ := exists_cons_of_ne_nil hne
          dsimp only
          rw [hread, bind_some, hrest]
        · rw [flatten_cons] at hfollows
          obtain ⟨t', done', todo', hfollows'⟩ := hfollows.readPayloads h.sound h.key hread
          exact hgives hfollows'

theorem release_of_unobserved {b : MediaBuffer} (hb : b.hasObserver = false) (i : ℕ) :
    s.release i b = s := by
  rw [release]
  cases ht : s.tracks[i]? with
  | none => rfl
  | some t =>
    obtain ⟨hi, rfl⟩ := List.getElem?_eq_some_iff.mp ht
    have hpool : s.tracks[i].bufferPool.release b = s.tracks[i].bufferPool :=
      if_neg fun h => Bool.false_ne_true (hb.symm.trans h)
    dsimp only
    rw [hpool]
    exact congrArg (fun tracks => AsfExtractor.mk tracks s.mProtected s.mNeedKeyFrame)
      (set_getElem_self hi)

end AsfExtractor

/-! ## Sessions -/

/-- Buffers for the first objects, and the end of the stream only after buffers for all. -/
def Exact (objects : List MediaObject) (results : List (Option MediaBuffer)) : Prop :=
  ∃ delivered m, results = delivered.map some ++ List.replicate m none ∧
    List.Forall₂ MediaBuffer.Is delivered (objects.take delivered.length) ∧
    (0 < m → delivered.length = objects.length)

namespace Session

variable {c c' : Session} {packets packets' : List (List Payload)}

/-- The session can go on, and no client has a buffer that would come back to a pool. -/
structure Sound (c : Session) : Prop where
  ready : c.extractor.Ready c.packets
  results : ∀ {i b}, (i, some b) ∈ c.results → b.hasObserver = false

/-- The client of the track has got its first objects. -/
def Serves (c : Session) (i : ℕ) (objects : List MediaObject) : Prop :=
  ∃ delivered m t done todo,
    c.extractor.Follows i objects delivered c.packets.flatten t done todo ∧
    c.resultsOf i = delivered.map some ++ List.replicate m none ∧
    (0 < m → delivered.length = objects.length)

theorem Serves.exact (h : c.Serves i objects) : Exact objects (c.resultsOf i) := by
  obtain ⟨delivered, m, t, done, todo, hfollows, hresults, hend⟩ := h
  refine ⟨delivered, m, hresults, ?_, hend⟩
  have hlength := hfollows.length_le
  have hdelivered := List.forall₂_take delivered.length hfollows.complete
  rw [take_left] at hdelivered
  rw [hfollows.split, take_append_of_le_length hlength]
  exact hdelivered

theorem resultsOf_append (l : List (ℕ × Option MediaBuffer)) (k : ℕ) (result : Option MediaBuffer) :
    resultsOf ⟨s, packets, l ++ [(k, result)]⟩ i =
      resultsOf ⟨s', packets', l⟩ i ++ if k = i then [result] else [] := by
  rw [resultsOf, resultsOf, filter_append, map_append, filter_cons, filter_nil]
  by_cases hki : k = i
  · rw [if_pos hki, if_pos (decide_eq_true hki)]
    rfl
  · rw [if_neg hki, if_neg (mt of_decide_eq_true hki)]
    rfl

/-- A call for a track gives its client the next object, or the end of the stream. -/
theorem Serves.read (h : c.Serves i objects) {k : ℕ} {result : Option MediaBuffer}
    (hgives : ∀ {i objects delivered t done todo},
      c.extractor.Follows i objects delivered c.packets.flatten t done todo →
        s'.Gives packets' k result i objects delivered) :
    Serves ⟨s', packets', c.results ++ [(k, result)]⟩ i objects := by
  obtain ⟨delivered, m, t, done, todo, hfollows, hresults, hend⟩ := h
  obtain ⟨t', done', todo', hfollows', hnone⟩ := hgives hfollows
  have happend := @resultsOf_append s' c.extractor i packets' c.packets c.results k result
  change _ = c.resultsOf i ++ _ at happend
  by_cases hik : i = k
  · rw [if_pos hik] at hfollows'
    rw [if_pos hik.symm, hresults] at happend
    cases result with
    | some b =>
      -- a buffer cannot come behind the end of the stream
      have hm : m = 0 := by
        by_contra hm
        have hlength := hfollows'.length_le
        have hle := congrArg List.length hfollows'.split
        rw [toList_some, length_append, length_singleton] at hlength
        rw [length_append] at hle
        omega
      subst hm
      refine ⟨delivered ++ [b], 0, t', done', todo', hfollows', ?_, fun h => absurd h (lt_irrefl 0)⟩
      rw [happend, map_append, replicate_zero, append_nil, append_nil]
      rfl
    | none =>
      obtain ⟨rfl, hqueue⟩ := hnone hik rfl
      rw [toList_none, append_nil] at hfollows'
      refine ⟨delivered, m + 1, t', done', todo', hfollows', ?_, fun _ => ?_⟩
      · rw [happend, append_assoc, replicate_succ']
      · have hcomplete := hfollows'.complete.length_eq
        rw [hqueue, append_nil] at hcomplete
        rw [hcomplete, hfollows'.split, hfollows'.pending.eq_nil, append_nil]
  · rw [if_neg hik] at hfollows'
    rw [if_neg fun hki => hik hki.symm, append_nil, hresults] at happend
    exact ⟨delivered, m, t', done', todo', hfollows', happend, hend⟩

theorem step_sound (hc : c.Sound) (call : Call) : ∃ c', c.step call = some c' ∧ c'.Sound ∧
    ∀ {i objects}, c.Serves i objects → c'.Serves i objects := by
  cases call with
  | read k =>
    obtain ⟨result, packets', s', hread, hready, hobserver, hgives⟩ := hc.ready.read k
    refine ⟨⟨s', packets', c.results ++ [(k, result)]⟩, ?_, ⟨hready, fun {i b} hb => ?_⟩, ?_⟩
    · rw [step, hread]
      rfl
    · obtain hb | hb := mem_append.mp hb
      · exact hc.results hb
      · obtain ⟨-, rfl⟩ := Prod.mk.inj (mem_singleton.mp hb)
        exact hobserver b rfl
    · exact fun hserves => hserves.read hgives
  | release k =>
    refine ⟨c, ?_, hc, id⟩
    rw [step]
    split
    · next i b h =>
      have hb := hc.results (mem_of_getElem? h)
      rw [AsfExtractor.release_of_unobserved hb]
    · rfl

/-- A session goes on whatever the clients do, and serves all tracks. -/
theorem run_sound (hc : c.Sound) (calls : List Call) : ∃ c', c.run calls = some c' ∧
    ∀ {i objects}, c.Serves i objects → c'.Serves i objects := by
  induction calls generalizing c with
  | nil => exact ⟨c, rfl, id⟩
  | cons call calls ih =>
    obtain ⟨c₁, hstep, hsound, hserves⟩ := step_sound hc call
    obtain ⟨c₂, hrun, hserves'⟩ := ih hsound
    refine ⟨c₂, ?_, fun h => hserves' (hserves h)⟩
    rw [run, foldlM_cons, hstep]
    exact hrun

end Session

/-! ## From the start -/

/-- An extractor that has read nothing and has not been asked to seek. -/
structure AsfExtractor.Fresh (s : AsfExtractor) : Prop where
  mNeedKeyFrame : s.mNeedKeyFrame = false
  tracks : ∀ t ∈ s.tracks, t.bufferQueue = [] ∧ t.bufferActive = none ∧ t.bufferPool = ⟨0, []⟩

theorem AsfExtractor.Fresh.sound (h : s.Fresh) : s.Sound := fun t ht => by
  obtain ⟨hqueue, hactive, hpool⟩ := h.tracks t ht
  refine ⟨?_, fun b hb => ?_, fun b hb => ?_⟩
  · rw [hpool]
    exact ⟨rfl, le_rfl, by decide⟩
  · rw [hqueue] at hb
    exact absurd hb not_mem_nil
  · rw [hactive] at hb
    exact nomatch hb

theorem AsfExtractor.Fresh.follows (hs : s.Fresh) (ht : s.tracks[i]? = some t)
    (hskip : t.skipTrack = false) (henc : t.encrypted = false)
    (hcarries : Carries objects (s.payloadsOf i payloads)) :
    s.Follows i objects [] payloads t [] objects := by
  refine ⟨ht, hskip, henc, rfl, ?_, .whole hcarries⟩
  rw [(hs.tracks t (mem_of_getElem? ht)).1]
  exact .nil

/-- Packets with the fragments of objects below 2 GB, and with nothing else, fit. -/
theorem AsfExtractor.Fresh.fits (hs : s.Fresh)
    (hcarries : ∀ i t, s.tracks[i]? = some t → t.skipTrack = false → t.encrypted = false ∧
      ∃ objects, Carries objects (s.payloadsOf i payloads) ∧
        ∀ o ∈ objects, o.data.length + 4096 - 1 < 2 ^ 31) :
    AlongM AsfExtractor.readPayload AsfExtractor.Fits s payloads := by
  refine AsfExtractor.alongM_fits hs.sound hs.mNeedKeyFrame fun i t ht hskip => ?_
  obtain ⟨henc, objects, hobjects, hsize⟩ := hcarries i t ht hskip
  exact ⟨objects, [], objects, hs.follows ht hskip henc hobjects, hsize⟩

namespace Session

variable {packets : List (List Payload)}

/-- Whatever the packets hold, they are copied without leaving a buffer exactly if every payload fits
when it comes. If so, and if no packet is without payloads, then whatever the clients read and release
in whichever order, each track without encryption whose payloads are the fragments of objects gives
exactly these objects. -/
theorem session_exact (hs : s.Fresh) (packets : List (List Payload)) :
    ((s.readPayloads packets.flatten).isSome ↔
      AlongM AsfExtractor.readPayload AsfExtractor.Fits s packets.flatten) ∧
    (AlongM AsfExtractor.readPayload AsfExtractor.Fits s packets.flatten →
      (∀ payloads ∈ packets, payloads ≠ []) → ∀ calls : List Call,
      ∃ c, run ⟨s, packets, []⟩ calls = some c ∧
        ∀ i t objects, s.tracks[i]? = some t → t.skipTrack = false → t.encrypted = false →
          Carries objects (s.payloadsOf i packets.flatten) → Exact objects (c.resultsOf i)) := by
  refine ⟨AsfExtractor.isSome_readPayloads_iff hs.sound _, fun hfits hne calls => ?_⟩
  have hsound : Sound ⟨s, packets, []⟩ :=
    ⟨⟨hs.sound, hs.mNeedKeyFrame, hfits, hne⟩, fun hb => absurd hb not_mem_nil⟩
  obtain ⟨c, hrun, hserves⟩ := run_sound hsound calls
  refine ⟨c, hrun, fun i t objects ht hskip henc hcarries => ?_⟩
  have hstart : Serves ⟨s, packets, []⟩ i objects :=
    ⟨[], 0, t, [], objects, hs.follows ht hskip henc hcarries, rfl, fun h => absurd h (lt_irrefl 0)⟩
  exact (hserves hstart).exact

/-- An extractor with one track, of stream 1. -/
def oneTrack : AsfExtractor := ⟨[⟨1, false, false, false, [], none, ⟨0, []⟩⟩], false, false⟩

theorem fresh_oneTrack : oneTrack.Fresh where
  mNeedKeyFrame := rfl
  tracks t ht := by
    obtain rfl := mem_singleton.mp ht
    exact ⟨rfl, rfl, rfl⟩

/-- An object of three bytes, in two packets. -/
theorem session_exact_fragments : ∃ c, run ⟨oneTrack,
      [[⟨1, true, 3, 0, 40, [10, 20], none⟩], [⟨1, true, 3, 2, 40, [30], none⟩]], []⟩
      [.read 0, .read 0] = some c ∧
    Exact [⟨[10, 20, 30], 40⟩] (c.resultsOf 0) := by
  have hstart : Payload.Carries ⟨1, true, 3, 0, 40, [10, 20], none⟩ ⟨[10, 20, 30], 40⟩ 0 :=
    ⟨rfl, rfl, rfl, rfl, by decide⟩
  have hend : Payload.Carries ⟨1, true, 3, 2, 40, [30], none⟩ ⟨[10, 20, 30], 40⟩ 2 :=
    ⟨rfl, rfl, rfl, rfl, by decide⟩
  have hcarries : Carries [⟨[10, 20, 30], 40⟩]
      (oneTrack.payloadsOf 0 [⟨1, true, 3, 0, 40, [10, 20], none⟩, ⟨1, true, 3, 2, 40, [30], none⟩]) :=
    .cons (cons_ne_nil _ _) (.next hstart (.next hend .done)) .nil
  have hfits : AlongM AsfExtractor.readPayload AsfExtractor.Fits oneTrack
      [⟨1, true, 3, 0, 40, [10, 20], none⟩, ⟨1, true, 3, 2, 40, [30], none⟩] := by
    refine fresh_oneTrack.fits fun i t ht _ => ?_
    cases i with
    | zero =>
      obtain rfl := some.inj ht
      refine ⟨rfl, _, hcarries, fun o ho => ?_⟩
      obtain rfl := mem_singleton.mp ho
      decide
    | succ i => exact nomatch ht
  obtain ⟨c, hrun, hexact⟩ := (session_exact fresh_oneTrack [[⟨1, true, 3, 0, 40, [10, 20], none⟩],
    [⟨1, true, 3, 2, 40, [30], none⟩]]).2 hfits (by simp) [.read 0, .read 0]
  exact ⟨c, hrun, hexact 0 _ _ rfl rfl rfl hcarries⟩

/-- A payload with so many bytes that says that its object has eight. -/
def oversized (n : ℕ) : Payload := ⟨1, true, 8, 0, 0, List.replicate n 0, none⟩

/-- It does not fit if it is more than a page. -/
theorem not_fits_oversized {n : ℕ} (hn : 4096 < n) : ¬ oneTrack.Fits (oversized n) := fun hfits => by
  have hreceiver := @AsfExtractor.receiver_of_trackOf oneTrack _ (oversized n) 0 rfl rfl rfl rfl
  have hfirst : (oversized n).IsFirst := .inr rfl
  have hcapacity : MediaBufferPool.capacity ⟨0, []⟩ 8 = 4096 := by decide
  have htrack := hfits _ hreceiver
  rw [Track.Fits, if_pos hfirst, Payload.payloadSize, oversized, length_replicate] at htrack
  have hle : n ≤ MediaBufferPool.capacity ⟨0, []⟩ 8 := htrack.2
  omega

theorem isSome_oversized {n : ℕ} (hsome : (oneTrack.readPayloads [[oversized n]].flatten).isSome) :
    n ≤ 4096 := by
  have hfits := (AsfExtractor.isSome_readPayloads_iff fresh_oneTrack.sound _).mp hsome
  exact le_of_not_gt fun hn => not_fits_oversized hn hfits.1

/-- Nothing keeps `memcpy` in its buffer. -/
theorem not_session_safe : ¬ ∀ (s : AsfExtractor) (packets : List (List Payload)), s.Fresh →
    (s.readPayloads packets.flatten).isSome := fun hsafe =>
  absurd (isSome_oversized (hsafe oneTrack [[oversized 4097]] fresh_oneTrack)) (by decide)

end Session

end HardwareIntel.Asf
