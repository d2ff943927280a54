import HardwareIntel.VideoDecoder.OutputByPoc

/-!
# Streams through the output queue

The frames of a stream are handed to the decoder, and after each of them the client calls
`getOutput` until it returns NULL; at the end it does so with `draining`. `Flow` is what holds in
between: the queue is `Ordered` with respect to what has been returned. Every frame that the scan
finds may be taken, so that the loops end and the frames are returned in their output order, unless
a frame has the count `MAXIMUM_POC`.
-/

namespace HardwareIntel.VideoDecoder

open List Option

namespace Decoder

variable {c : DecoderConfig} {s t u : Decoder} {q q' new : List ℕ} {a i : ℕ}

/-! ### Feeding the decoder -/

/-- A call of the decoder of a codec, or of the client, that takes nothing out of the queue. -/
def Feeds (_ : Decoder) : Call → Prop
  | .acquire _ | .prepare _ | .mark _ _ | .restamp _ | .endDecodingFrame _ _ _ | .output _ | .release
  | .signalRenderDone _ => True
  | .setOutputWindowSize _ | .getOutput _ _ _ | .flushSurfaceBuffers _ | .flush _ => False

/-- The frames of `new` have been put behind those of the queue `q`, and nothing else has changed
that the output looks at. -/
structure Fed (s : Decoder) (q : List ℕ) (t : Decoder) (new : List ℕ) : Prop where
  nextOutputPoc : t.nextOutputPoc = s.nextOutputPoc
  outputWindowSize : t.outputWindowSize = s.outputWindowSize
  returned : t.history.returned = s.history.returned
  discarded : t.history.discarded = s.history.discarded
  frameOf : ∀ i ∈ q, t.history.frameOf i = s.history.frameOf i
  order : ∀ i ∈ q, t.order i = s.order i
  shown : t.history.shown = s.history.shown + new.length
  numbers : new.map t.history.frameOf = List.range' s.history.shown new.length

theorem Fed.refl (s : Decoder) (q : List ℕ) : Fed s q s [] :=
  ⟨rfl, rfl, rfl, rfl, fun _ _ => rfl, fun _ _ => rfl, rfl, rfl⟩

theorem Fed.trans {new' : List ℕ} (h : Fed s q t new) (h' : Fed t (q ++ new) u new') :
    Fed s q u (new ++ new') where
  nextOutputPoc := h'.nextOutputPoc.trans h.nextOutputPoc
  outputWindowSize := h'.outputWindowSize.trans h.outputWindowSize
  returned := h'.returned.trans h.returned
  discarded := h'.discarded.trans h.discarded
  frameOf := fun i hi => (h'.frameOf i (mem_append_left _ hi)).trans (h.frameOf i hi)
  order := fun i hi => (h'.order i (mem_append_left _ hi)).trans (h.order i hi)
  shown := by rw [h'.shown, h.shown, length_append, Nat.add_assoc]
  numbers := by
    have hold : new.map u.history.frameOf = new.map t.history.frameOf :=
      map_congr_left fun i hi => h'.frameOf i (mem_append_right _ hi)
    rw [map_append, hold, h.numbers, h'.numbers, h.shown, length_append, ← List.range'_append_1]

@[simp] theorem order_modify_of_ne {j : ℕ} (f : VideoSurfaceBuffer → VideoSurfaceBuffer)
    (h : j ≠ i) : (s.modify i f).order j = s.order j := by
  rw [order, modify_buffers_of_ne f h, order]

/-- A change of a buffer that keeps its count. -/
theorem order_modify (i j : ℕ) {f : VideoSurfaceBuffer → VideoSurfaceBuffer}
    (hf : ∀ b, (f b).pictureOrder = b.pictureOrder) : (s.modify i f).order j = s.order j := by
  by_cases h : j = i
  · rw [h, order, modify_buffers_self, hf, order]
  · exact order_modify_of_ne f h

/-- What a call leaves alone that puts at most one frame into the queue. -/
structure Kept (s t : Decoder) : Prop where
  nextOutputPoc : t.nextOutputPoc = s.nextOutputPoc
  outputWindowSize : t.outputWindowSize = s.outputWindowSize
  order : ∀ i, t.order i = s.order i

theorem Kept.refl (s : Decoder) : Kept s s := ⟨rfl, rfl, fun _ => rfl⟩

theorem Kept.trans (h : Kept s t) (h' : Kept t u) : Kept s u :=
  ⟨h'.nextOutputPoc.trans h.nextOutputPoc, h'.outputWindowSize.trans h.outputWindowSize,
    fun i => (h'.order i).trans (h.order i)⟩

theorem kept_modify (i : ℕ) {f : VideoSurfaceBuffer → VideoSurfaceBuffer}
    (hf : ∀ b, (f b).pictureOrder = b.pictureOrder) : Kept s (s.modify i f) :=
  ⟨rfl, rfl, fun j => order_modify i j hf⟩

theorem kept_releaseSurfaceBuffer : Kept s s.releaseSurfaceBuffer := by
  unfold Decoder.releaseSurfaceBuffer
  split
  · exact .refl s
  · rename_i a _
    exact Kept.trans (t := { s with acquired := none }) ⟨rfl, rfl, fun _ => rfl⟩
      (kept_modify a fun _ => rfl)

theorem kept_updateReferences (a : ℕ) : Kept s (s.updateReferences c a) := by
  have hlast : ∀ {t : Decoder}, Kept s t → Kept s { t with lastReference := some a } := fun h =>
    { h with }
  have hforward : ∀ {t : Decoder}, Kept s t →
      Kept s { t with forwardReference := t.lastReference } := fun h =>
    { h with }
  refine hlast ?_
  split
  · refine (hforward ?_).trans (kept_modify a fun _ => rfl)
    cases s.forwardReference with
    | none => exact .refl s
    | some f => exact kept_modify f fun _ => rfl
  · exact .refl s

theorem kept_addToOutput (a : ℕ) : Kept s (s.addToOutput a) := by
  have hadd : ∀ {u : Decoder} (h : History), Kept s u →
      Kept s ({ u with outputTail := some a, history := h }.modify a fun b =>
        { b with next := none }) := fun {u} h hu =>
    Kept.trans (t := { u with outputTail := some a, history := h })
      { hu with } (kept_modify a fun _ => rfl)
  unfold addToOutput
  split
  · exact @hadd { s with outputHead := some a } _ ⟨rfl, rfl, fun _ => rfl⟩
  · rename_i p _ _
    exact @hadd (s.modify p fun b => { b with next := some a }) _ (kept_modify p fun _ => rfl)
  · exact hadd _ (.refl s)

theorem kept_outputSurfaceBuffer (rawData : Bool) : Kept s (s.outputSurfaceBuffer c rawData).2 := by
  unfold Decoder.outputSurfaceBuffer
  cases s.acquired with
  | none => exact .refl s
  | some a =>
    dsimp only
    split
    · exact .refl s
    · have hdone : Kept s (s.modify a fun b => { b with renderDone := !s.showFrame }) :=
        kept_modify a fun _ => rfl
      generalize (s.modify a fun b => { b with renderDone := !s.showFrame }) = u at hdone
      have hrefs : Kept s (if (u.buffers a).referenceFrame then u.updateReferences c a else u) := by
        split
        · exact hdone.trans (kept_updateReferences a)
        · exact hdone
      generalize (if (u.buffers a).referenceFrame then u.updateReferences c a else u) = v at hrefs
      have hout : Kept s (if v.showFrame then v.addToOutput a else v) := by
        split
        · exact hrefs.trans (kept_addToOutput a)
        · exact hrefs
      exact { hout with }

theorem kept_endDecodingFrame (dropFrame endPicture rawData : Bool) :
    Kept s (s.endDecodingFrame c dropFrame endPicture rawData).2 := by
  have hdecoding : ∀ {t : Decoder}, Kept s t → Kept s { t with decodingFrame := false } := fun h =>
    { h with }
  unfold Decoder.endDecodingFrame
  split
  · split
    · exact kept_releaseSurfaceBuffer
    · exact .refl s
  · split
    · exact hdecoding (.refl s)
    · split
      · exact hdecoding kept_releaseSurfaceBuffer
      · split
        · exact hdecoding kept_releaseSurfaceBuffer
        · exact hdecoding (kept_outputSurfaceBuffer rawData)

/-- A frame that has been shown is at the end of the queue. -/
theorem Shown.fed (h : Shown c s q t) (hkept : Kept s t) :
    ∃ new, Pool c t (q ++ new) ∧ Fed s q t new := by
  cases h with
  | same pool history =>
    refine ⟨[], by rwa [append_nil], hkept.nextOutputPoc, hkept.outputWindowSize, ?_, ?_, ?_,
      fun i _ => hkept.order i, ?_, rfl⟩
    all_goals simp [history]
  | added a pool history =>
    have hne : ∀ i ∈ q, i ≠ a := by
      rintro i hi rfl
      exact (nodup_append.mp pool.nodup).2.2 i hi i (mem_singleton_self i) rfl
    refine ⟨[a], pool, hkept.nextOutputPoc, hkept.outputWindowSize, by rw [history],
      by rw [history], fun i hi => ?_, fun i _ => hkept.order i, by rw [history]; rfl, ?_⟩
    · rw [history]
      exact Function.update_of_ne (hne i hi) _ _
    · simp [history]

/-- A feeding call that keeps the queue. -/
theorem Fed.of_kept (hpool : Pool c t q) (hhistory : t.history.returned = s.history.returned ∧
    t.history.discarded = s.history.discarded ∧ t.history.frameOf = s.history.frameOf ∧
    t.history.shown = s.history.shown) (hnext : t.nextOutputPoc = s.nextOutputPoc)
    (hwindow : t.outputWindowSize = s.outputWindowSize) (horder : ∀ i ∈ q, t.order i = s.order i) :
    ∃ new, Pool c t (q ++ new) ∧ Fed s q t new := by
  obtain ⟨hreturned, hdiscarded, hframeOf, hshown⟩ := hhistory
  exact ⟨[], by rwa [append_nil], hnext, hwindow, hreturned, hdiscarded,
    fun i _ => congrFun hframeOf i, horder, hshown, rfl⟩

/-- One feeding call. -/
theorem Pool.feed {call : Call} (h : Pool c s q) (hfeeds : Feeds s call)
    (hstep : s.step c call = some t) : ∃ new, Pool c t (q ++ new) ∧ Fed s q t new := by
  cases call with
  | acquire busy =>
    obtain rfl := some.inj hstep
    have hpool := h.acquireSurfaceBuffer busy
    rcases acquire_cases busy h.pos with ⟨i, -, -, -, heq⟩ | ⟨-, heq⟩
    · rw [heq] at hpool ⊢
      refine Fed.of_kept hpool ⟨rfl, rfl, rfl, rfl⟩ rfl rfl fun j _ => ?_
      exact @order_modify { s with acquired := some i, acquirePos := i } i j (fun b => { b with
        surface := some i, timeStamp := invalidPts, resolutionChange := false, eos := false,
        renderDone := false, asReference := false }) fun _ => rfl
    · rw [heq]
      exact Fed.of_kept h ⟨rfl, rfl, rfl, rfl⟩ rfl rfl fun _ _ => rfl
  | prepare f =>
    obtain rfl := some.inj hstep
    have hpool := h.prepareFrame f
    unfold Decoder.prepareFrame at hpool ⊢
    cases ha : s.acquired with
    | none =>
      rw [ha] at hpool
      exact Fed.of_kept hpool ⟨rfl, rfl, rfl, rfl⟩ rfl rfl fun _ _ => rfl
    | some a =>
      rw [ha] at hpool
      refine Fed.of_kept hpool ⟨rfl, rfl, rfl, rfl⟩ rfl rfl fun j hj => ?_
      exact order_modify_of_ne (s := { s with
        decodingFrame := f.decodingFrame, showFrame := f.showFrame, acquired := some a }) _
          fun heq => h.acquired_notMem ha (heq ▸ hj)
  | mark i asReference =>
    obtain rfl := some.inj hstep
    exact Fed.of_kept (h.modify_kept i _ fun _ => ⟨rfl, rfl, rfl⟩) ⟨rfl, rfl, rfl, rfl⟩ rfl rfl
      fun j _ => order_modify i j (by intro b; rfl)
  | restamp timeStamp =>
    obtain rfl := some.inj hstep
    cases hlast : s.lastReference with
    | none => exact ⟨[], by rwa [append_nil], Fed.refl s q⟩
    | some i =>
      exact Fed.of_kept (h.modify_kept i _ fun _ => ⟨rfl, rfl, rfl⟩) ⟨rfl, rfl, rfl, rfl⟩ rfl rfl
        fun j _ => order_modify i j (by intro b; rfl)
  | endDecodingFrame dropFrame endPicture rawData =>
    obtain rfl := some.inj hstep
    exact (h.shown_endDecodingFrame dropFrame endPicture rawData).fed (kept_endDecodingFrame ..)
  | output rawData =>
    obtain rfl := some.inj hstep
    exact (h.shown_outputSurfaceBuffer rawData).fed (kept_outputSurfaceBuffer rawData)
  | release =>
    obtain rfl := some.inj hstep
    exact (Shown.same h.releaseSurfaceBuffer history_releaseSurfaceBuffer).fed
      kept_releaseSurfaceBuffer
  | signalRenderDone i =>
    rw [Decoder.step, h.outputQueue_eq] at hstep
    split at hstep
    · cases hstep
    · rename_i hfree
      obtain rfl := some.inj hstep
      rw [not_or] at hfree
      exact Fed.of_kept (h.signalRenderDone hfree.1 hfree.2) ⟨rfl, rfl, rfl, rfl⟩ rfl rfl
        fun j _ => order_modify i j (by intro b; rfl)
  | setOutputWindowSize size => exact hfeeds.elim
  | getOutput draining endPicture rawData => exact hfeeds.elim
  | flushSurfaceBuffers endPicture => exact hfeeds.elim
  | flush endPicture => exact hfeeds.elim

/-- A run of feeding calls. -/
theorem Pool.feedRun (h : Pool c s q) (hrun : Reach (Decoder.step c) Feeds s t) :
    ∃ new, Pool c t (q ++ new) ∧ Fed s q t new := by
  refine Reach.invariant (I := fun t => ∃ new, Pool c t (q ++ new) ∧ Fed s q t new) hrun
    ⟨[], by rwa [append_nil], Fed.refl s q⟩ ?_
  rintro a x b ⟨new, hpool, hfed⟩ hfeeds hstep
  obtain ⟨new', hpool', hfed'⟩ := hpool.feed hfeeds hstep
  exact ⟨new ++ new', by rwa [← append_assoc], hfed.trans hfed'⟩

/-! ### Taking a frame out of the queue -/

/-- The buffer `o` has been taken out of the queue and returned, and the count `next` is expected. -/
structure Taken (c : DecoderConfig) (s : Decoder) (q : List ℕ) (next : ℤ) (o : ℕ) (t : Decoder)
    (q' : List ℕ) : Prop where
  pool : Pool c t q'
  perm : (o :: q').Perm q
  sublist : q'.Sublist q
  nextOutputPoc : t.nextOutputPoc = next
  outputWindowSize : t.outputWindowSize = s.outputWindowSize
  decodingFrame : t.decodingFrame = s.decodingFrame
  order : ∀ i, t.order i = s.order i
  history : t.history.shown = s.history.shown ∧ t.history.frameOf = s.history.frameOf ∧
    t.history.discarded = s.history.discarded ∧
    t.history.returned = s.history.frameOf o :: s.history.returned

theorem order_removeBehind (o : ℕ) (queue : List ℕ) (i : ℕ) :
    (s.removeBehind o queue).order i = s.order i := by
  unfold removeBehind
  split
  · rfl
  · rename_i p _
    exact @order_modify { s with
      outputTail := if s.outputTail = some o then some p else s.outputTail } p i
      (fun b => { b with next := s.next o }) fun _ => rfl

theorem fields_removeBehind (o : ℕ) (queue : List ℕ) :
    (s.removeBehind o queue).nextOutputPoc = s.nextOutputPoc ∧
      (s.removeBehind o queue).outputWindowSize = s.outputWindowSize ∧
      (s.removeBehind o queue).decodingFrame = s.decodingFrame := by
  unfold removeBehind
  split <;> exact ⟨rfl, rfl, rfl⟩

theorem order_swapTimeStamps (o m i : ℕ) : (s.swapTimeStamps o m).order i = s.order i := by
  unfold swapTimeStamps
  exact (order_modify m i (by intro b; rfl)).trans (order_modify o i (by intro b; rfl))

/-- What the search finds is taken out of the queue and returned. -/
theorem Pool.takeOutput_some {draining : Bool} {head o : ℕ} {next : ℤ} (h : Pool c s q)
    (hlow : c.lowDelay = false) (hmethod : c.outputMethod = .byPoc)
    (hhead : s.outputHead = some head) (ho : o ∈ q)
    (hfound : s.findOutputByPoc draining head q = some (some o, { s with nextOutputPoc := next })) :
    ∃ t q', s.takeOutput c draining = some (some o, t) ∧ Taken c s q next o t q' := by
  obtain ⟨m, hm, hpts, -⟩ := @findOutputByPts_spec s q (ne_nil_of_mem ho)
  have hout : s.takeOutput c draining = some (some o, (if o ≠ head then
        (if o ≠ m then { s with nextOutputPoc := next }.swapTimeStamps o m
          else { s with nextOutputPoc := next }).removeBehind o q
      else (if o ≠ m then { s with nextOutputPoc := next }.swapTimeStamps o m
          else { s with nextOutputPoc := next }).removeHead head).handOut draining o) := by
    simp only [takeOutput, hhead, hlow, Bool.false_eq_true, if_false, h.outputQueue_eq, hmethod,
      hfound, hpts, map_some]
  have hstamps : ∀ v, v = (if o ≠ m then { s with nextOutputPoc := next }.swapTimeStamps o m
      else { s with nextOutputPoc := next }) → Pool c v q ∧ v.outputHead = some head ∧
        v.nextOutputPoc = next ∧ v.outputWindowSize = s.outputWindowSize ∧
        v.decodingFrame = s.decodingFrame ∧ v.history = s.history ∧ ∀ i, v.order i = s.order i := by
    rintro v rfl
    have hnext := h.setNextOutputPoc next
    split
    · exact ⟨hnext.swapTimeStamps o m, hhead, rfl, rfl, rfl, rfl, fun i =>
        order_swapTimeStamps o m i⟩
    · exact ⟨hnext, hhead, rfl, rfl, rfl, rfl, fun _ => rfl⟩
  generalize (if o ≠ m then { s with nextOutputPoc := next }.swapTimeStamps o m
    else { s with nextOutputPoc := next } : Decoder) = v at hout hstamps
  obtain ⟨hpool, hhead', hnext, hwindow, hdecoding, hhistory, horder⟩ := hstamps v rfl
  obtain ⟨q', hperm, hsub, hpool', -⟩ := hpool.takeOut hhead' ho draining
  have hfields := @fields_removeBehind v o q
  refine ⟨_, q', hout, hpool', hperm, hsub, ?_, ?_, ?_, fun i => ?_, ?_⟩
  · split
    · exact hfields.1.trans hnext
    · exact hnext
  · split
    · exact hfields.2.1.trans hwindow
    · exact hwindow
  · split
    · exact hfields.2.2.trans hdecoding
    · exact hdecoding
  · rw [← horder i]
    have hhand : ∀ x : Decoder, (x.handOut draining o).order i = x.order i := fun x =>
      @order_modify { x with history := { x.history with
        returned := x.history.frameOf o :: x.history.returned
        unrendered := Function.update x.history.unrendered o true } } o i
        (fun b => { b with eos := b.eos || (draining && x.outputTail.isNone) }) fun _ => rfl
    rw [hhand]
    split
    · exact order_removeBehind o q i
    · rfl
  · rw [← hhistory]
    have hhand : ∀ x : Decoder, x.history = v.history →
        (x.handOut draining o).history.shown = v.history.shown ∧
        (x.handOut draining o).history.frameOf = v.history.frameOf ∧
        (x.handOut draining o).history.discarded = v.history.discarded ∧
        (x.handOut draining o).history.returned = v.history.frameOf o :: v.history.returned := by
      intro x hx
      rw [← hx]
      exact ⟨rfl, rfl, rfl, rfl⟩
    apply hhand
    split
    · exact (kept_removeBehind o q).2.2
    · rfl

/-- Nothing is taken out if the search finds nothing. -/
theorem Pool.takeOutput_none {draining : Bool} {head : ℕ} (h : Pool c s q)
    (hlow : c.lowDelay = false) (hmethod : c.outputMethod = .byPoc)
    (hhead : s.outputHead = some head)
    (hfound : s.findOutputByPoc draining head q = some (none, t)) :
    s.takeOutput c draining = some (none, t) := by
  simp only [takeOutput, hhead, hlow, Bool.false_eq_true, if_false, h.outputQueue_eq, hmethod,
    hfound, map_some]

/-! ### Between the calls -/

variable {poc : ℕ → ℤ} {n : ℕ} {w : ℤ}

/-- The frames of the queue `q` have the counts of the stream, and what has been returned is in
order. -/
structure Flow (c : DecoderConfig) (poc : ℕ → ℤ) (n : ℕ) (w : ℤ) (s : Decoder) (q : List ℕ) :
    Prop where
  pool : Pool c s q
  discarded : s.history.discarded = []
  window : s.outputWindowSize = w
  order : ∀ i ∈ q, s.order i = poc (s.history.frameOf i)
  ordered : Ordered poc n s.history.shown s.history.returned (q.map s.history.frameOf)
    s.nextOutputPoc

/-- At most one more frame has been shown, and it has the count of the next frame of the stream. -/
def ShowsNext (poc : ℕ → ℤ) (s t : Decoder) : Prop :=
  t.history.shown = s.history.shown ∨
    t.history.shown = s.history.shown + 1 ∧
      ∀ a, t.outputTail = some a → t.order a = poc s.history.shown

theorem Flow.fed (h : Flow c poc n w s q) (hpool : Pool c t (q ++ new)) (hfed : Fed s q t new)
    (hshows : ShowsNext poc s t) : Flow c poc n w t (q ++ new) := by
  have hmap : q.map t.history.frameOf = q.map s.history.frameOf :=
    map_congr_left hfed.frameOf
  have horder : ∀ i ∈ q, t.order i = poc (t.history.frameOf i) := by
    intro i hi
    rw [hfed.order i hi, hfed.frameOf i hi]
    exact h.order i hi
  have hshown := hfed.shown
  rcases hshows with hsame | ⟨hone, htail⟩
  · obtain rfl : new = [] := length_eq_zero_iff.mp (by omega)
    rw [append_nil] at hpool ⊢
    refine ⟨hpool, hfed.discarded.trans h.discarded, hfed.outputWindowSize.trans h.window, horder, ?_⟩
    rw [hmap, hsame, hfed.returned, hfed.nextOutputPoc]
    exact h.ordered
  · obtain ⟨a, rfl⟩ : ∃ a, new = [a] := length_eq_one_iff.mp (by omega)
    have hnumber : t.history.frameOf a = s.history.shown := by simpa using hfed.numbers
    refine ⟨hpool, hfed.discarded.trans h.discarded, hfed.outputWindowSize.trans h.window, ?_, ?_⟩
    · intro i hi
      rcases mem_append.mp hi with hi | hi
      · exact horder i hi
      · obtain rfl := mem_singleton.mp hi
        rw [hnumber]
        exact htail i (by rw [hpool.queue.tail_eq, List.getLast?_append]; rfl)
    · rw [map_append, map_singleton, hnumber, hmap, hone, hfed.returned, hfed.nextOutputPoc]
      exact h.ordered.arrive

section Search

variable {head : ℕ} {l window rest : List ℕ} {m o : ℕ} {v : PocScan}

/-- A frame of the queue. -/
theorem Flow.frame (h : Flow c poc n w s q) (hshown : s.history.shown ≤ n) {x : ℕ} (hx : x ∈ q) :
    s.history.frameOf x < n ∧ s.history.frameOf x ∉ s.history.returned := by
  have hmem := mem_map_of_mem (f := s.history.frameOf) hx
  exact ⟨((h.ordered.frames _).mpr (Or.inl hmem)).trans_le hshown, h.ordered.apart _ hmem⟩

/-- The frames of a first part of the queue in which no sequence starts are of one sequence. -/
theorem Flow.sameSeq (h : Flow c poc n w s (head :: window ++ rest)) (hstream : Reordered poc w n)
    (hshown : s.history.shown ≤ n) (hwindow : ∀ x ∈ window, s.order x ≠ 0) :
    ∀ x ∈ head :: window, seqStart poc (s.history.frameOf x) =
      seqStart poc (s.history.frameOf head) := by
  have hlt := (h.frame hshown (mem_cons_self ..)).1
  have hordered := h.ordered
  rw [map_append, map_cons] at hordered
  intro x hx
  refine hordered.seqStart_window hshown (hstream.first (by omega)) ?_ _
    (by rw [← map_cons]; exact mem_map_of_mem hx)
  intro y hy
  obtain ⟨z, hz, rfl⟩ := mem_map.mp hy
  rw [← h.order z (mem_append_left _ (mem_cons_of_mem _ hz))]
  exact hwindow z hz

/-- The frames of the sequence that is output have the counts that the scan expects. -/
theorem Flow.expected_le (h : Flow c poc n w s (head :: l)) (hstream : Reordered poc w n)
    (hshown : s.history.shown ≤ n) {j : ℕ} (hj : j < n) (hout : j ∉ s.history.returned)
    (hseq : seqStart poc j = seqStart poc (s.history.frameOf head)) :
    (if s.order head = 0 then minimumPoc else s.nextOutputPoc) ≤ poc j := by
  rw [h.order head (mem_cons_self ..)]
  split
  · exact (hstream.int32 j hj).1
  · rename_i hzero
    exact (h.ordered.expected (h.frame hshown (mem_cons_self ..)).1).resolve_left hzero j hj
      hout hseq

/-- The scan of the queue ends, since the frames of the sequence that is output have the counts that
are expected. -/
theorem Flow.scan_ends (h : Flow c poc n w s (head :: l)) (hstream : Reordered poc w n)
    (hmax : ∀ i < n, poc i ≠ maximumPoc) (hw : 1 ≤ w) (hshown : s.history.shown ≤ n) :
    ∃ v, s.scanByPoc (head :: l) ⟨0, maximumPoc, none, head, s.nextOutputPoc⟩ = some v ∧
      Ends s (if s.order head = 0 then minimumPoc else s.nextOutputPoc) head (head :: l) v := by
  have hlt := (h.frame hshown (mem_cons_self ..)).1
  refine scanByPoc_ends (h.window ▸ hw) ?_ fun window rest hl hnonzero x hx => ?_
  · rw [h.order head (mem_cons_self ..)]
    exact lt_of_le_of_ne (hstream.int32 _ hlt).2 (hmax _ hlt)
  · have hin : x ∈ head :: l := by
      rw [hl, ← cons_append]
      exact mem_append_left _ hx
    obtain ⟨hxlt, hxout⟩ := h.frame hshown hin
    rw [h.order x hin]
    refine h.expected_le hstream hshown hxlt hxout ?_
    rw [hl, ← cons_append] at h
    exact h.sameSeq hstream hshown hnonzero x hx

/-- What the scan has found may be taken. -/
theorem Flow.precedes (h : Flow c poc n w s (head :: window ++ rest)) (hstream : Reordered poc w n)
    (hshown : s.history.shown ≤ n) (hwindow : ∀ x ∈ window, s.order x ≠ 0)
    (hm : m ∈ head :: window) (hleast : ∀ x ∈ head :: window, s.order m ≤ s.order x)
    (hmay : Ordered.MayTake poc w n s.history.shown s.nextOutputPoc (s.history.frameOf head)
      (window.map s.history.frameOf) (rest.map s.history.frameOf) (s.history.frameOf m)) :
    ∀ j < n, j ∉ s.history.returned → j ≠ s.history.frameOf m →
      Precedes poc (s.history.frameOf m) j := by
  have horder : ∀ x ∈ head :: window, s.order x = poc (s.history.frameOf x) := fun x hx =>
    h.order x (mem_append_left _ hx)
  have hordered := h.ordered
  rw [map_append, map_cons] at hordered
  intro j hj hout hne
  refine hordered.precedes_of_mayTake hstream hshown ?_ ?_ ?_ hmay hj hout hne
  · intro y hy
    obtain ⟨z, hz, rfl⟩ := mem_map.mp hy
    rw [← horder z (mem_cons_of_mem _ hz)]
    exact hwindow z hz
  · rw [← map_cons]
    exact mem_map_of_mem hm
  · intro y hy
    rw [← map_cons] at hy
    obtain ⟨z, hz, rfl⟩ := mem_map.mp hy
    rw [← horder m hm, ← horder z hz]
    exact hleast z hz

/-- The frame that comes before all others is taken. -/
theorem Flow.taken {next : ℤ} (h : Flow c poc n w s q) (hstream : Reordered poc w n)
    (hshown : s.history.shown ≤ n) (ht : Taken c s q next o t q')
    (hbefore : ∀ j < n, j ∉ s.history.returned → j ≠ s.history.frameOf o →
      Precedes poc (s.history.frameOf o) j)
    (hnext : ∀ j < n, j ∉ s.history.returned → j ≠ s.history.frameOf o →
      seqStart poc j = seqStart poc (s.history.frameOf o) → next ≤ poc j) :
    Flow c poc n w t q' ∧ t.history.shown = s.history.shown ∧ q'.length < q.length := by
  obtain ⟨hsame, hframeOf, hdiscarded, hreturned⟩ := ht.history
  refine ⟨⟨ht.pool, hdiscarded.trans h.discarded, ht.outputWindowSize.trans h.window, ?_, ?_⟩,
    hsame, ?_⟩
  · intro i hi
    rw [ht.order i, hframeOf]
    exact h.order i (ht.sublist.subset hi)
  · rw [hsame, hframeOf, hreturned, ht.nextOutputPoc]
    have hperm := ht.perm.map s.history.frameOf
    exact h.ordered.take hstream hshown hperm (ht.sublist.map _) hbefore hnext
  · have hlength := ht.perm.length_eq
    rw [length_cons] at hlength
    omega

/-- The scan has come to the end of the queue: the expected count is that of `Ordered`, or it has
been reset at the start of a sequence. -/
theorem Flow.atEnd (h : Flow c poc n w s (head :: l)) :
    Flow c poc n w { s with
      nextOutputPoc := if s.order head = 0 then minimumPoc else s.nextOutputPoc } (head :: l) := by
  refine { h with pool := h.pool.setNextOutputPoc _, ordered := ?_ }
  change Ordered poc n s.history.shown s.history.returned ((head :: l).map s.history.frameOf) _
  split
  · rename_i hzero
    refine h.ordered.reset ?_ _
    rw [h.order head (mem_cons_self ..)] at hzero
    exact hzero
  · exact h.ordered

/-- The result of a call of `getOutput` that does not add a frame. -/
theorem Flow.takeOutput (h : Flow c poc n w s q) (hlow : c.lowDelay = false)
    (hmethod : c.outputMethod = .byPoc) (hstream : Reordered poc w n)
    (hmax : ∀ i < n, poc i ≠ maximumPoc) (hw : 1 ≤ w) (hshown : s.history.shown ≤ n)
    {draining : Bool} (hlast : draining = true → s.history.shown = n) :
    (∃ t, s.takeOutput c draining = some (none, t) ∧ Flow c poc n w t q ∧
        t.history.shown = s.history.shown ∧ t.decodingFrame = s.decodingFrame ∧
        (draining = true → q = [])) ∨
      ∃ o t q', s.takeOutput c draining = some (some o, t) ∧ Flow c poc n w t q' ∧
        t.history.shown = s.history.shown ∧ t.decodingFrame = s.decodingFrame ∧
        q'.length < q.length := by
  have hfirst := h.pool.queue.head_eq
  cases q with
  | nil =>
    refine Or.inl ⟨s, ?_, h, rfl, rfl, fun _ => rfl⟩
    have hnone : s.outputHead = none := hfirst
    simp only [Decoder.takeOutput, hnone]
  | cons head l =>
    have hhead : s.outputHead = some head := hfirst
    obtain ⟨v, hscan, hends⟩ := h.scan_ends hstream hmax hw hshown
    have hfind : s.findOutputByPoc draining head (head :: l) =
        some (if draining && v.output.isNone then some v.outputLeastPoc else v.output,
          { s with nextOutputPoc := v.nextOutputPoc }) := by
      simp [findOutputByPoc, hscan]
    have horder := h.order
    cases hends with
    | @found window rest m hq hwindow hm hleast houtput hnext hwhy =>
      rw [hq] at h horder
      have hmq : m ∈ head :: window ++ rest := mem_append_left _ hm
      have hbefore := h.precedes hstream hshown hwindow hm hleast (by
        rcases hwhy with heq | hfull | ⟨z, l', hrest, hzero⟩
        · refine .expected ?_
          rw [← horder m hmq, ← horder head (mem_cons_self ..)]
          exact heq
        · refine .full ?_
          rw [← h.window, ← hfull, ← map_cons, length_map]
        · have hz : z ∈ head :: window ++ rest := by simp [hrest]
          exact .ended (by rw [hrest, map_cons]) (by rw [← horder z hz]; exact hzero))
      rw [houtput, isNone_some, Bool.and_false, if_neg (by decide), hnext] at hfind
      rw [hq] at hfind
      obtain ⟨t, q', hout, htaken⟩ := h.pool.takeOutput_some hlow hmethod hhead hmq hfind
      obtain ⟨hflow, hsame, hlength⟩ := h.taken hstream hshown htaken hbefore (by
        intro j hj hret hne hseq
        rcases hbefore j hj hret hne with hlt | ⟨-, hlt⟩
        · omega
        · rw [horder m hmq]
          omega)
      exact Or.inr ⟨m, t, q', hout, hflow, hsame, htaken.decodingFrame, by rwa [hq]⟩
    | @atEnd window hq hwindow hm hleast houtput hnext =>
      rw [houtput, isNone_none, Bool.and_true, hnext] at hfind
      cases draining with
      | false =>
        exact Or.inl ⟨_, h.pool.takeOutput_none hlow hmethod hhead hfind, h.atEnd, rfl, rfl,
          fun hdrain => by cases hdrain⟩
      | true =>
        obtain ⟨t, q', hout, htaken⟩ := h.pool.takeOutput_some hlow hmethod hhead hm hfind
        obtain rfl : l = window := (List.cons.inj hq).2
        have hwhole : Flow c poc n w s (head :: l ++ []) := by rwa [append_nil]
        have hbefore := hwhole.precedes hstream hshown hwindow hm hleast (.last rfl (hlast rfl))
        have hseq := hwhole.sameSeq hstream hshown hwindow _ hm
        obtain ⟨hflow, hsame, hlength⟩ := h.taken hstream hshown htaken hbefore
          fun j hj hret _ hj' => h.expected_le hstream hshown hj hret (hj'.trans hseq)
        exact Or.inr ⟨_, t, q', hout, hflow, hsame, htaken.decodingFrame, hlength⟩

end Search

/-! ### Runs -/

/-- `getOutput` is called until it returns NULL. Only the first call can have a picture to complete,
so that the driver's answers may be the same for all. -/
inductive Drains (c : DecoderConfig) (draining endPicture rawData : Bool) :
    Decoder → Decoder → Prop
  | done {s t : Decoder} (hout : s.getOutput c draining endPicture rawData = some (none, t)) :
      Drains c draining endPicture rawData s t
  | more {s t u : Decoder} {o : ℕ}
      (hout : s.getOutput c draining endPicture rawData = some (some o, t))
      (hrest : Drains c draining endPicture rawData t u) : Drains c draining endPicture rawData s u

/-- The states of the decoder while the first `n` frames of a stream are fed to it, one after
another, and `getOutput` is called until it returns NULL after each of them. -/
inductive Streamed (c : DecoderConfig) (poc : ℕ → ℤ) (n : ℕ) (s₀ : Decoder) : Decoder → Prop
  | start : Streamed c poc n s₀ s₀
  | feed {s t u : Decoder} {endPicture rawData : Bool} (hs : Streamed c poc n s₀ s)
      (hrun : Reach (Decoder.step c) Feeds s t) (hshows : ShowsNext poc s t)
      (hle : t.history.shown ≤ n) (hdrains : Drains c false endPicture rawData t u) :
      Streamed c poc n s₀ u

section Runs

variable {draining endPicture rawData : Bool}

/-- A state in which `getOutput` may be called: the picture that it completes is a frame of the
stream, and if it is draining, this is the last one. -/
structure Ready (c : DecoderConfig) (poc : ℕ → ℤ) (n : ℕ) (w : ℤ)
    (draining endPicture rawData : Bool) (s : Decoder) (q : List ℕ) : Prop where
  flow : Flow c poc n w (s.drained c draining endPicture rawData) q
  shown : (s.drained c draining endPicture rawData).history.shown ≤ n
  last : draining = true → (s.drained c draining endPicture rawData).history.shown = n ∧
    (s.drained c draining endPicture rawData).decodingFrame = false

theorem decodingFrame_endDecodingFrame (s : Decoder) (dropFrame endPicture rawData : Bool) :
    (s.endDecodingFrame c dropFrame endPicture rawData).2.decodingFrame = false := by
  have hrelease : s.releaseSurfaceBuffer.decodingFrame = s.decodingFrame := by
    unfold Decoder.releaseSurfaceBuffer
    split <;> rfl
  unfold Decoder.endDecodingFrame
  split
  · rename_i hnot
    rw [Bool.not_eq_true'] at hnot
    split
    · exact hrelease.trans hnot
    · exact hnot
  · split
    · rfl
    · split
      · rfl
      · split <;> rfl

/-- When no picture is being decoded, `getOutput` adds no frame. -/
theorem Flow.drained (h : Flow c poc n w s q)
    (hnone : draining = true → s.decodingFrame = false) :
    Flow c poc n w (s.drained c draining endPicture rawData) q ∧
      (s.drained c draining endPicture rawData).history.shown = s.history.shown := by
  unfold Decoder.drained
  split
  · rename_i hdraining
    have hkept : Kept s (s.endDecodingFrame c false endPicture rawData).2 :=
      kept_endDecodingFrame ..
    have hsame : Shown c s q (s.endDecodingFrame c false endPicture rawData).2 ∧
        (s.endDecodingFrame c false endPicture rawData).2.history = s.history := by
      refine ⟨h.pool.shown_endDecodingFrame false endPicture rawData, ?_⟩
      rw [Decoder.endDecodingFrame, hnone hdraining]
      simp only [Bool.not_false, if_true]
      split
      · exact history_releaseSurfaceBuffer
      · rfl
    obtain ⟨hshown, hhistory⟩ := hsame
    obtain ⟨new, hpool, hfed⟩ := hshown.fed hkept
    have hflow := h.fed hpool hfed (Or.inl (by rw [hhistory]))
    obtain rfl : new = [] := by
      have hlength := hfed.shown
      rw [hhistory] at hlength
      exact length_eq_zero_iff.mp (by omega)
    rw [append_nil] at hflow
    exact ⟨hflow, by rw [hhistory]⟩
  · exact ⟨h, rfl⟩

/-- One call of `getOutput`. -/
theorem Ready.getOutput (h : Ready c poc n w draining endPicture rawData s q)
    (hlow : c.lowDelay = false) (hmethod : c.outputMethod = .byPoc) (hstream : Reordered poc w n)
    (hmax : ∀ i < n, poc i ≠ maximumPoc) (hw : 1 ≤ w) :
    (∃ t, s.getOutput c draining endPicture rawData = some (none, t) ∧ Flow c poc n w t q ∧
        t.history.shown = (s.drained c draining endPicture rawData).history.shown ∧
        (draining = true → q = [])) ∨
      ∃ o t q', s.getOutput c draining endPicture rawData = some (some o, t) ∧
        Ready c poc n w draining endPicture rawData t q' ∧
        (t.drained c draining endPicture rawData).history.shown =
          (s.drained c draining endPicture rawData).history.shown ∧ q'.length < q.length := by
  rcases h.flow.takeOutput hlow hmethod hstream hmax hw h.shown fun hd => (h.last hd).1 with
    ⟨t, hout, hflow, hshown, -, hempty⟩ | ⟨o, t, q', hout, hflow, hshown, hdecoding, hlength⟩
  · exact Or.inl ⟨t, hout, hflow, hshown, hempty⟩
  · have hnone : draining = true → t.decodingFrame = false := fun hd =>
      hdecoding.trans (h.last hd).2
    obtain ⟨hflow', hshown'⟩ : Flow c poc n w (t.drained c draining endPicture rawData) q' ∧
        (t.drained c draining endPicture rawData).history.shown = t.history.shown :=
      hflow.drained hnone
    refine Or.inr ⟨o, t, q', hout, ⟨hflow', ?_, fun hd => ⟨?_, ?_⟩⟩, hshown'.trans hshown, hlength⟩
    · rw [hshown', hshown]
      exact h.shown
    · rw [hshown', hshown]
      exact (h.last hd).1
    · subst hd
      exact decodingFrame_endDecodingFrame t false endPicture rawData

/-- The calls of `getOutput` come to NULL, and leave the rest of the queue in order, of which there
is none when draining. -/
theorem Ready.drains (h : Ready c poc n w draining endPicture rawData s q)
    (hlow : c.lowDelay = false) (hmethod : c.outputMethod = .byPoc) (hstream : Reordered poc w n)
    (hmax : ∀ i < n, poc i ≠ maximumPoc) (hw : 1 ≤ w) :
    ∃ u q', Drains c draining endPicture rawData s u ∧
      (∀ u', Drains c draining endPicture rawData s u' → u' = u) ∧ Flow c poc n w u q' ∧
      u.history.shown = (s.drained c draining endPicture rawData).history.shown ∧
      (draining = true → q' = []) := by
  induction hk : q.length using Nat.strong_induction_on generalizing s q with
  | _ k ih =>
    rcases h.getOutput hlow hmethod hstream hmax hw with
      ⟨t, hout, hflow, hshown, hempty⟩ | ⟨o, t, q', hout, hready, hshown, hlength⟩
    · refine ⟨t, q, .done hout, fun u' hu' => ?_, hflow, hshown, hempty⟩
      cases hu' with
      | done hout' =>
        rw [hout, some.injEq] at hout'
        exact ((Prod.mk.inj hout').2).symm
      | more hout' _ =>
        rw [hout] at hout'
        cases hout'
    · obtain ⟨u, q'', hdrains, hunique, hflow, hsame, hempty⟩ :=
        ih q'.length (hk ▸ hlength) hready rfl
      refine ⟨u, q'', .more hout hdrains, fun u' hu' => ?_, hflow, hsame.trans hshown, hempty⟩
      cases hu' with
      | done hout' =>
        rw [hout] at hout'
        cases hout'
      | more hout' hrest =>
        rw [hout, some.injEq] at hout'
        obtain ⟨-, rfl⟩ := Prod.mk.inj hout'
        exact hunique u' hrest

/-- After a frame, the client may wait for NULL. -/
theorem Flow.ready (h : Flow c poc n w s q) (hrun : Reach (Decoder.step c) Feeds s t)
    (hshows : ShowsNext poc s t) (hle : t.history.shown ≤ n) :
    ∃ q', Ready c poc n w false endPicture rawData t q' := by
  obtain ⟨new, hpool, hfed⟩ := h.pool.feedRun hrun
  exact ⟨q ++ new, h.fed hpool hfed hshows, hle, fun hdraining => by cases hdraining⟩

/-- After the last frame, the client may drain the queue. -/
theorem Flow.readyLast (h : Flow c poc n w s q)
    (hshows : ShowsNext poc s (s.drained c true endPicture rawData))
    (hlast : (s.drained c true endPicture rawData).history.shown = n) :
    ∃ q', Ready c poc n w true endPicture rawData s q' := by
  obtain ⟨new, hpool, hfed⟩ :=
    (h.pool.shown_endDecodingFrame false endPicture rawData).fed (kept_endDecodingFrame ..)
  exact ⟨q ++ new, h.fed hpool hfed hshows, hlast.le, fun _ =>
    ⟨hlast, decodingFrame_endDecodingFrame s false endPicture rawData⟩⟩

/-- The frames that wait for later ones are in order. -/
theorem Streamed.flow {s₀ : Decoder} (h : Streamed c poc n s₀ s) (hstart : s₀.Started)
    (hlow : c.lowDelay = false) (hmethod : c.outputMethod = .byPoc)
    (hstream : Reordered poc s₀.outputWindowSize n) (hmax : ∀ i < n, poc i ≠ maximumPoc)
    (hw : 1 ≤ s₀.outputWindowSize) : ∃ q, Flow c poc n s₀.outputWindowSize s q := by
  induction h with
  | start =>
    refine ⟨[], hstart.pool, hstart.discarded, rfl, by simp, ?_⟩
    rw [hstart.shown, hstart.returned]
    exact Ordered.start hstream _
  | @feed s t u endPicture rawData _ hrun hshows hle hdrains ih =>
    obtain ⟨q, hflow⟩ := ih
    obtain ⟨q', hready⟩ : ∃ q', Ready c poc n s₀.outputWindowSize false endPicture rawData t q' :=
      hflow.ready hrun hshows hle
    obtain ⟨u', q'', -, hunique, hflow', -⟩ := hready.drains hlow hmethod hstream hmax hw
    exact ⟨q'', hunique u hdrains ▸ hflow'⟩

/-- Everything has been returned when the queue has been drained. -/
theorem Flow.complete (h : Flow c poc n w s []) (hshown : s.history.shown = n) :
    s.history.returned.reverse.Perm (List.range n) ∧
      s.history.returned.reverse.Pairwise (Precedes poc) := by
  have hframes := h.pool.frames
  rw [h.discarded, hshown, map_nil, nil_append, append_nil] at hframes
  exact ⟨(reverse_perm _).trans hframes, pairwise_reverse.mpr h.ordered.output⟩

end Runs

/-- A stream comes out: the client gets NULL after every frame and at the end, and all frames have
been returned then, in their output order. -/
structure ComesOut (c : DecoderConfig) (poc : ℕ → ℤ) (n : ℕ) (s₀ : Decoder) : Prop where
  waits : ∀ s t endPicture rawData, Streamed c poc n s₀ s → Reach (Decoder.step c) Feeds s t →
    ShowsNext poc s t → t.history.shown ≤ n → ∃ u, Drains c false endPicture rawData t u
  ends : ∀ s endPicture rawData, Streamed c poc n s₀ s →
    ShowsNext poc s (s.drained c true endPicture rawData) →
    (s.drained c true endPicture rawData).history.shown = n →
    ∃ u, Drains c true endPicture rawData s u
  complete : ∀ s u endPicture rawData, Streamed c poc n s₀ s →
    ShowsNext poc s (s.drained c true endPicture rawData) →
    (s.drained c true endPicture rawData).history.shown = n →
    Drains c true endPicture rawData s u →
    u.history.returned.reverse.Perm (List.range n) ∧
      u.history.returned.reverse.Pairwise (Precedes poc)

end Decoder

open Decoder in
/-- The search ends if and only if the window is not full of frames with the count `MAXIMUM_POC`;
and a stream without that count comes out. -/
theorem output_by_poc {c : DecoderConfig} (hlow : c.lowDelay = false)
    (hmethod : c.outputMethod = .byPoc) :
    (∀ (s : Decoder) head l next, 1 ≤ s.outputWindowSize →
      (∀ p ∈ head :: l, minimumPoc ≤ s.order p ∧ s.order p ≤ maximumPoc) →
      ((∃ scans, (s.searchByPoc head (head :: l) scans next).isSome) ↔ ¬ s.Stuck (head :: l))) ∧
    ∀ poc n (s₀ : Decoder), s₀.Started → 1 ≤ s₀.outputWindowSize →
      Reordered poc s₀.outputWindowSize n → (∀ i < n, poc i ≠ maximumPoc) →
      ComesOut c poc n s₀ := by
  refine ⟨fun s head l next hw hint => searchByPoc_isSome_iff hw hint head next, ?_⟩
  intro poc n s₀ hstart hw hstream hmax
  refine ⟨fun s t endPicture rawData hs hrun hshows hle => ?_,
    fun s endPicture rawData hs hshows hlast => ?_,
    fun s u endPicture rawData hs hshows hlast hu => ?_⟩
  all_goals obtain ⟨q, hflow⟩ := hs.flow hstart hlow hmethod hstream hmax hw
  · obtain ⟨q', hready⟩ : ∃ q', Ready c poc n s₀.outputWindowSize false endPicture rawData t q' :=
      hflow.ready hrun hshows hle
    obtain ⟨u, -, hdrains, -⟩ := hready.drains hlow hmethod hstream hmax hw
    exact ⟨u, hdrains⟩
  · obtain ⟨q', hready⟩ := hflow.readyLast hshows hlast
    obtain ⟨u, -, hdrains, -⟩ := hready.drains hlow hmethod hstream hmax hw
    exact ⟨u, hdrains⟩
  · obtain ⟨q', hready⟩ := hflow.readyLast hshows hlast
    obtain ⟨v, q'', -, hunique, hflow', hshown, hempty⟩ :=
      hready.drains hlow hmethod hstream hmax hw
    obtain rfl := hunique u hu
    rw [hempty rfl] at hflow'
    exact hflow'.complete (hshown.trans hlast)

namespace Decoder

/-! ### A computed run -/

/-- `Drains` as a program. -/
def drainAll (c : DecoderConfig) (draining : Bool) : ℕ → Decoder → Option Decoder
  | 0, _ => none
  | fuel + 1, s =>
    match s.getOutput c draining true true with
    | some (some _, t) => drainAll c draining fuel t
    | some (none, t) => some t
    | none => none

theorem Drains.of_drainAll {draining : Bool} {fuel : ℕ} (h : drainAll c draining fuel s = some t) :
    Drains c draining true true s t := by
  induction fuel generalizing s with
  | zero => cases h
  | succ fuel ih =>
    rw [drainAll] at h
    split at h
    · rename_i hout
      exact .more hout (ih h)
    · rename_i hout
      obtain rfl := some.inj h
      exact .done hout
    · cases h

/-- Decode and show a frame. -/
def frameCalls (order : ℤ) : List Call :=
  [.acquire fun _ => false, .prepare ⟨0, order, false, false, true, true⟩,
    .endDecodingFrame false true true]

def feedsCheck (_ : Decoder) : Call → Bool
  | .acquire _ | .prepare _ | .endDecodingFrame _ _ _ => true
  | _ => false

theorem feeds_of_check (s : Decoder) (call : Call) (h : feedsCheck s call = true) :
    Feeds s call := by
  cases call <;> trivial

/-- The first frames of a stream, each followed by calls of `getOutput`. -/
def play (c : DecoderConfig) (poc : ℕ → ℤ) (s₀ : Decoder) : ℕ → Option Decoder
  | 0 => some s₀
  | m + 1 =>
    (play c poc s₀ m).bind fun s =>
      (exec (Decoder.step c) feedsCheck s (frameCalls (poc s.history.shown))).bind fun t =>
        if t.history.shown = s.history.shown + 1 ∧ t.history.shown ≤ m + 1 ∧
            t.outputTail.map t.order = some (poc s.history.shown) then
          drainAll c false 9 t
        else none

theorem Streamed.of_play {poc : ℕ → ℤ} {n m : ℕ} {s₀ : Decoder} (hm : m ≤ n)
    (h : play c poc s₀ m = some s) : Streamed c poc n s₀ s := by
  induction m generalizing s with
  | zero =>
    obtain rfl := some.inj h
    exact .start
  | succ m ih =>
    obtain ⟨r, hr, hrest⟩ := bind_eq_some_iff.mp h
    obtain ⟨t, ht, hdrains⟩ := bind_eq_some_iff.mp hrest
    split at hdrains
    · rename_i hnext
      obtain ⟨hshown, hle, htail⟩ := hnext
      refine .feed (ih (by omega) hr) (Reach.of_exec feeds_of_check _ ht) (Or.inr ⟨hshown, ?_⟩)
        (by omega) (Drains.of_drainAll hdrains)
      intro a ha
      rw [ha] at htail
      exact some.inj htail
    · cases hdrains

end Decoder

/-- Four buffers, put out by picture order count. -/
def fourBuffers : DecoderConfig :=
  { twoBuffers true with numSurfaces := 4, surfaces_pos := by decide, outputMethod := .byPoc }

/-- A stream of three frames. -/
def threeCounts : ℕ → ℤ
  | 1 => 4
  | 2 => 2
  | _ => 0

theorem threeCounts_reordered : Reordered threeCounts 2 3 where
  first := fun _ => rfl
  int32 := by decide
  distinct := by
    have h : ∀ j < 3, ∀ i < j, seqStart threeCounts i = seqStart threeCounts j →
      threeCounts i ≠ threeCounts j := by decide
    exact fun i j hlt hj => h j hj i hlt
  near := by
    have h : ∀ j < 3, ∀ i < j, seqStart threeCounts i = seqStart threeCounts j →
      threeCounts j < threeCounts i → ((j - i : ℕ) : ℤ) < 2 := by decide
    exact fun i j hlt hj => h j hj i hlt

open Decoder in
/-- The third frame comes out before the second. -/
theorem output_by_poc_three : ∃ s u : Decoder,
    Streamed fourBuffers threeCounts 3 { startedDecoder with outputWindowSize := 2 } s ∧
    Drains fourBuffers true true true s u ∧ u.history.returned.reverse = [0, 2, 1] ∧
    u.history.returned.reverse.Pairwise (Precedes threeCounts) := by
  let s₀ : Decoder := { startedDecoder with outputWindowSize := 2 }
  have hstart : s₀.Started :=
    ⟨fun _ => ⟨rfl, rfl, rfl⟩, rfl, rfl, rfl, rfl, rfl, rfl, rfl, fun _ h => by cases h⟩
  have hrun : ((play fourBuffers threeCounts s₀ 3).any fun s =>
      s.history.shown == 3 && (s.drained fourBuffers true true true).history.shown == 3 &&
        (drainAll fourBuffers true 9 s).any fun u => u.history.returned.reverse == [0, 2, 1]) =
      true := by decide
  obtain ⟨s, hs, hrest⟩ := (any_eq_true _ _).mp hrun
  simp only [Bool.and_eq_true, beq_iff_eq] at hrest
  obtain ⟨⟨hshown, hdrained⟩, hdrain⟩ := hrest
  obtain ⟨u, hu, hreturned⟩ := (any_eq_true _ _).mp hdrain
  have hstreamed : Streamed fourBuffers threeCounts 3 s₀ s := Streamed.of_play (le_refl 3) hs
  have hdrains := Drains.of_drainAll hu
  have hout := (output_by_poc (c := fourBuffers) rfl rfl).2 threeCounts 3 s₀ hstart (by decide)
    threeCounts_reordered (by decide)
  exact ⟨s, u, hstreamed, hdrains, beq_iff_eq.mp hreturned,
    (hout.complete s u true true hstreamed (Or.inl (hdrained.trans hshown.symm)) hdrained hdrains).2⟩

open Decoder in
/-- A window that is full of frames with the count `MAXIMUM_POC` is scanned for ever. -/
theorem output_by_poc_stuck : ¬ ∀ (s : Decoder) head l next, 1 ≤ s.outputWindowSize →
    (∀ p ∈ head :: l, minimumPoc ≤ s.order p ∧ s.order p ≤ maximumPoc) →
    ∃ scans, (s.searchByPoc head (head :: l) scans next).isSome := by
  intro h
  let s : Decoder := { startedDecoder with
    buffers := fun _ => ⟨none, 0, false, false, false, maximumPoc, false, false, none⟩
    outputHead := some 0, outputTail := some 0, outputWindowSize := 1 }
  have hint : ∀ p ∈ [0], minimumPoc ≤ s.order p ∧ s.order p ≤ maximumPoc := fun p _ =>
    ⟨show minimumPoc ≤ maximumPoc by decide, le_refl maximumPoc⟩
  have hends := h s 0 [] minimumPoc (le_refl 1) hint
  have hw : 1 ≤ s.outputWindowSize := le_refl 1
  exact (searchByPoc_isSome_iff hw hint 0 minimumPoc).mp hends ⟨le_refl 1, fun p _ => rfl⟩

end HardwareIntel.VideoDecoder
