import HardwareIntel.VideoDecoder.PocSearch
import Mathlib.Data.List.Perm.Basic
import Mathlib.Data.List.Perm.Subperm
import Mathlib.Data.List.Range

/-!
# The output queue and the surface pool

Where a buffer is can be read off its flags only together: it waits in the output queue, it is
decoded into, the client has it, or it is free. `Pool c s q` says that these agree when the queue is
`q`, and that every frame that was shown is in the queue, was returned or was discarded.

Every call keeps the pool except `flush` without graphic buffers: it marks every buffer as rendered,
also those that the client still has. And `getOutput` does not return when the search for the next
picture starts again and again. `output_queue_sound` says what follows as long as this does not
happen.
-/

namespace HardwareIntel.VideoDecoder

open List Option Function

variable {c : DecoderConfig} {s t : Decoder} {q : List ℕ}

namespace Decoder

/-- The buffers are where their flags say. -/
structure Pool (c : DecoderConfig) (s : Decoder) (q : List ℕ) : Prop where
  queue : IsQueue s.next s.outputHead s.outputTail q
  lt : ∀ i ∈ q, i < c.numSurfaces
  waiting : ∀ i ∈ q, (s.buffers i).renderDone = false
  acquired : ∀ a, s.acquired = some a →
    a ∉ q ∧ s.history.unrendered a = false ∧ a < c.numSurfaces
  unrendered : ∀ i, s.history.unrendered i = true → (s.buffers i).renderDone = false ∧ i ∉ q
  surface : ∀ i, (s.buffers i).surface = none ∨ (s.buffers i).surface = some i
  pos : s.acquirePos < c.numSurfaces
  frames : (q.map s.history.frameOf ++ (s.history.returned ++ s.history.discarded)).Perm
    (List.range s.history.shown)

@[simp] theorem modify_buffers_self (i : ℕ) (f : VideoSurfaceBuffer → VideoSurfaceBuffer) :
    (s.modify i f).buffers i = f (s.buffers i) := by
  simp [modify]

theorem modify_buffers_of_ne {i j : ℕ} (f : VideoSurfaceBuffer → VideoSurfaceBuffer)
    (h : j ≠ i) : (s.modify i f).buffers j = s.buffers j := by
  simp [modify, update_of_ne h]

theorem next_modify (i : ℕ) (f : VideoSurfaceBuffer → VideoSurfaceBuffer) :
    (s.modify i f).next = Function.update s.next i (f (s.buffers i)).next := by
  funext j
  by_cases h : j = i
  · rw [h, update_self, next, modify_buffers_self]
  · rw [update_of_ne h, next, modify_buffers_of_ne f h, next]

namespace Pool

theorem nodup (h : Pool c s q) : q.Nodup := h.queue.path.nodup

/-- The queue that the loops meet. -/
theorem outputQueue_eq (h : Pool c s q) : s.outputQueue c = q := by
  refine h.queue.path.nodes_eq ?_
  have hsub : q ⊆ List.range c.numSurfaces := fun i hi => mem_range.mpr (h.lt i hi)
  have hle := (h.nodup.subperm hsub).length_le
  rwa [length_range] at hle

theorem acquired_notMem (h : Pool c s q) {a : ℕ} (ha : s.acquired = some a) : a ∉ q :=
  (h.acquired a ha).1

/-- A change that leaves the links, the surfaces and the flags of the client alone. -/
theorem kept (h : Pool c s q)
    (hbuffers : ∀ i, (t.buffers i).next = (s.buffers i).next ∧
      (t.buffers i).renderDone = (s.buffers i).renderDone ∧
      (t.buffers i).surface = (s.buffers i).surface)
    (hhead : t.outputHead = s.outputHead) (htail : t.outputTail = s.outputTail)
    (hacquired : t.acquired = s.acquired) (hpos : t.acquirePos = s.acquirePos)
    (hhistory : t.history = s.history) : Pool c t q where
  queue := by
    rw [hhead, htail]
    exact h.queue.congr fun i _ => (hbuffers i).1
  lt := h.lt
  waiting := fun i hi => (hbuffers i).2.1.trans (h.waiting i hi)
  acquired := by
    rw [hacquired, hhistory]
    exact h.acquired
  unrendered := by
    rw [hhistory]
    intro i hi
    rw [(hbuffers i).2.1]
    exact h.unrendered i hi
  surface := by
    intro i
    rw [(hbuffers i).2.2]
    exact h.surface i
  pos := hpos ▸ h.pos
  frames := hhistory ▸ h.frames

/-- One buffer is changed, in fields that the pool does not look at. -/
theorem modify_kept (h : Pool c s q) (i : ℕ) (f : VideoSurfaceBuffer → VideoSurfaceBuffer)
    (hf : ∀ b, (f b).next = b.next ∧ (f b).renderDone = b.renderDone ∧
      (f b).surface = b.surface) : Pool c (s.modify i f) q := by
  refine h.kept (fun j => ?_) rfl rfl rfl rfl rfl
  by_cases hj : j = i
  · rw [hj, modify_buffers_self]
    exact hf _
  · rw [modify_buffers_of_ne f hj]
    exact ⟨rfl, rfl, rfl⟩

end Pool

/-! ### Acquiring and releasing -/

theorem findAcquirable_spec {busy : ℕ → Bool} {fuel start i : ℕ} (hstart : start < c.numSurfaces)
    (h : s.findAcquirable c busy fuel start = some i) :
    i < c.numSurfaces ∧ s.canAcquire c busy i = true := by
  induction fuel generalizing start with
  | zero => simp [findAcquirable] at h
  | succ fuel ih =>
    rw [findAcquirable] at h
    split at h
    · rename_i hcan
      obtain rfl := some.inj h
      exact ⟨hstart, hcan⟩
    · have hnext : (if start + 1 = c.numSurfaces then 0 else start + 1) < c.numSurfaces := by
        split <;> omega
      dsimp only at h
      generalize (if start + 1 = c.numSurfaces then 0 else start + 1) = nextAcquire at h hnext
      split at h
      · cases h
      · exact ih hnext h

/-- What a buffer that can be acquired is like. -/
structure Free (c : DecoderConfig) (s : Decoder) (i : ℕ) : Prop where
  asReference : (s.buffers i).asReference = false
  renderDone : (s.buffers i).renderDone = true
  unshared : ∀ j < c.numSurfaces, j ≠ i → (s.buffers j).surface = some i →
    (s.buffers j).renderDone = true

theorem free_of_canAcquire {busy : ℕ → Bool} {i : ℕ} (h : s.canAcquire c busy i = true) :
    Free c s i := by
  simp only [canAcquire, Bool.and_eq_true, Bool.not_eq_true', List.all_eq_true, List.mem_range,
    Bool.or_eq_true, beq_iff_eq, Bool.and_eq_false_iff, beq_eq_false_iff_ne,
    Bool.not_eq_false'] at h
  obtain ⟨⟨⟨href, hdone⟩, -⟩, hall⟩ := h
  refine ⟨href, hdone, fun j hj hne hsurface => ?_⟩
  rcases hall j hj with heq | hother | hrendered
  · exact absurd heq hne
  · exact absurd hsurface hother
  · exact hrendered

/-- A successful call acquires a free buffer, and there was no other. -/
theorem acquire_cases (busy : ℕ → Bool) (hpos : s.acquirePos < c.numSurfaces) :
    (∃ i, s.acquired = none ∧ i < c.numSurfaces ∧ Free c s i ∧
      s.acquireSurfaceBuffer c busy = (.success, { s with acquired := some i, acquirePos := i }.modify
        i fun b =>
        { b with
          surface := some i, timeStamp := invalidPts, resolutionChange := false, eos := false,
          renderDone := false, asReference := false })) ∨
      ((s.acquireSurfaceBuffer c busy).1 ≠ .success ∧ (s.acquireSurfaceBuffer c busy).2 = s) := by
  unfold acquireSurfaceBuffer
  cases hacquired : s.acquired with
  | some a => exact Or.inr ⟨by simp, rfl⟩
  | none =>
    cases hfind : s.findAcquirable c busy c.numSurfaces s.acquirePos with
    | none => exact Or.inr ⟨by simp, rfl⟩
    | some i =>
      obtain ⟨hlt, hcan⟩ := findAcquirable_spec hpos hfind
      exact Or.inl ⟨i, rfl, hlt, free_of_canAcquire hcan, rfl⟩

section

variable (h : Pool c s q)
include h

theorem Pool.free {i : ℕ} (hfree : Free c s i) :
    i ∉ q ∧ s.history.unrendered i = false := by
  have hdone := hfree.renderDone
  constructor
  · intro hmem
    rw [h.waiting i hmem] at hdone
    cases hdone
  · by_contra hne
    rw [(h.unrendered i (by simpa using hne)).1] at hdone
    cases hdone

/-- A buffer that is not in the queue may be changed, but for its surface. -/
theorem Pool.modify_of_notMem {i : ℕ} (hi : i ∉ q) (hnone : s.history.unrendered i = false)
    (f : VideoSurfaceBuffer → VideoSurfaceBuffer)
    (hf : ∀ b, (f b).surface = b.surface ∨ (f b).surface = some i) : Pool c (s.modify i f) q := by
  have hne : ∀ j ∈ q, j ≠ i := fun j hj heq => hi (heq ▸ hj)
  exact { h with
    queue := by
      refine h.queue.congr fun j hj => ?_
      rw [next_modify, update_of_ne (hne j hj)]
    waiting := fun j hj => by
      rw [modify_buffers_of_ne _ (hne j hj)]
      exact h.waiting j hj
    unrendered := fun j hj => by
      have hji : j ≠ i := by
        rintro rfl
        exact absurd (hnone.symm.trans hj) (by simp)
      rw [modify_buffers_of_ne _ hji]
      exact h.unrendered j hj
    surface := fun j => by
      by_cases hji : j = i
      · rw [hji, modify_buffers_self]
        rcases hf (s.buffers i) with hsame | hsome
        · rw [hsame]
          exact h.surface i
        · exact Or.inr hsome
      · rw [modify_buffers_of_ne _ hji]
        exact h.surface j }

theorem Pool.acquireSurfaceBuffer (busy : ℕ → Bool) :
    Pool c (s.acquireSurfaceBuffer c busy).2 q := by
  rcases acquire_cases busy h.pos with ⟨i, -, hlt, hfree, heq⟩ | ⟨-, heq⟩
  · obtain ⟨hnotMem, hnone⟩ := h.free hfree
    rw [heq]
    have hacquired : Pool c { s with acquired := some i, acquirePos := i } q :=
      { h with
        acquired := by
          rintro a ⟨⟩
          exact ⟨hnotMem, hnone, hlt⟩
        pos := hlt }
    dsimp only
    exact hacquired.modify_of_notMem hnotMem hnone _ fun _ => Or.inr rfl
  · rw [heq]
    exact h

/-- The buffer that is decoded into may be changed, but for its surface. -/
theorem Pool.modify_acquired {a : ℕ} (ha : s.acquired = some a)
    (f : VideoSurfaceBuffer → VideoSurfaceBuffer) (hf : ∀ b, (f b).surface = b.surface) :
    Pool c (s.modify a f) q := by
  obtain ⟨hnotMem, hnone, -⟩ := h.acquired a ha
  exact h.modify_of_notMem hnotMem hnone f fun b => Or.inl (hf b)

/-- No buffer is decoded into any more. -/
theorem Pool.drop : Pool c { s with acquired := none } q :=
  { h with acquired := by simp }

theorem Pool.releaseSurfaceBuffer : Pool c s.releaseSurfaceBuffer q := by
  unfold Decoder.releaseSurfaceBuffer
  cases ha : s.acquired with
  | none => exact h
  | some a =>
    exact (h.modify_acquired ha (fun b => { b with asReference := false, renderDone := true })
      fun _ => rfl).drop

/-! ### Output -/

theorem Pool.updateReferences (a : ℕ) : Pool c (s.updateReferences c a) q := by
  have hlast {u : Decoder} (hu : Pool c u q) : Pool c { u with lastReference := some a } q :=
    hu.kept (fun i => ⟨rfl, rfl, rfl⟩) rfl rfl rfl rfl rfl
  have hforward {u : Decoder} (hu : Pool c u q) :
      Pool c { u with forwardReference := u.lastReference } q :=
    hu.kept (fun i => ⟨rfl, rfl, rfl⟩) rfl rfl rfl rfl rfl
  refine hlast ?_
  split
  · refine (hforward ?_).modify_kept a _ fun b => ⟨rfl, rfl, rfl⟩
    cases s.forwardReference with
    | none => exact h
    | some f => exact h.modify_kept f _ fun b => ⟨rfl, rfl, rfl⟩
  · exact h

end

/-- What `addToOutput` does to the buffers: it changes links only. -/
theorem buffers_addToOutput (a i : ℕ) :
    ((s.addToOutput a).buffers i).renderDone = (s.buffers i).renderDone ∧
      ((s.addToOutput a).buffers i).surface = (s.buffers i).surface := by
  have hlink (u : Decoder) (j : ℕ) (n : Option ℕ) :
      (((u.modify j fun b => { b with next := n }).buffers i).renderDone = (u.buffers i).renderDone) ∧
      ((u.modify j fun b => { b with next := n }).buffers i).surface = (u.buffers i).surface := by
    by_cases hij : i = j
    · rw [hij, modify_buffers_self]
      exact ⟨rfl, rfl⟩
    · rw [modify_buffers_of_ne _ hij]
      exact ⟨rfl, rfl⟩
  unfold addToOutput
  split
  · exact hlink _ _ _
  · exact ⟨(hlink _ _ _).1.trans (hlink s _ _).1, (hlink _ _ _).2.trans (hlink s _ _).2⟩
  · exact hlink _ _ _

/-- The queue after a buffer has been added. -/
theorem queue_addToOutput {a : ℕ} (h : IsQueue s.next s.outputHead s.outputTail q) (ha : a ∉ q) :
    IsQueue (s.addToOutput a).next (s.addToOutput a).outputHead (s.addToOutput a).outputTail
      (q ++ [a]) := by
  unfold addToOutput
  cases hhead : s.outputHead with
  | none =>
    rw [hhead] at h
    rw [next_modify]
    exact h.pushEmpty
  | some first =>
    cases htail : s.outputTail with
    | none => exact absurd (h.head_none_iff.mpr htail) (by simp [hhead])
    | some t =>
      rw [htail] at h
      have hpush := h.push ha
      have hnext : (s.modify t fun b => { b with next := some a }).next =
          Function.update s.next t (some a) := next_modify ..
      rw [next_modify]
      change IsQueue (Function.update (s.modify t fun b => { b with next := some a }).next a none)
        s.outputHead (some a) (q ++ [a])
      rw [hnext]
      exact hpush

theorem history_addToOutput (a : ℕ) :
    (s.addToOutput a).history = { s.history with
      shown := s.history.shown + 1
      frameOf := Function.update s.history.frameOf a s.history.shown } := by
  unfold addToOutput
  split <;> rfl

theorem acquirePos_addToOutput (a : ℕ) : (s.addToOutput a).acquirePos = s.acquirePos := by
  unfold addToOutput
  split <;> rfl

/-- A decoded frame is put into the queue. -/
theorem Pool.addToOutput (h : Pool c s q) {a : ℕ} (ha : s.acquired = some a)
    (hdone : (s.buffers a).renderDone = false) :
    Pool c { s.addToOutput a with acquired := none } (q ++ [a]) := by
  obtain ⟨hnotMem, hnone, hlt⟩ := h.acquired a ha
  have hhistory := @history_addToOutput s a
  exact {
    queue := queue_addToOutput h.queue hnotMem
    lt := by
      intro i hi
      rcases mem_append.mp hi with hi | hi
      · exact h.lt i hi
      · rw [mem_singleton.mp hi]
        exact hlt
    waiting := by
      intro i hi
      refine (buffers_addToOutput a i).1.trans ?_
      rcases mem_append.mp hi with hi | hi
      · exact h.waiting i hi
      · rw [mem_singleton.mp hi]
        exact hdone
    acquired := by simp
    unrendered := by
      simp only [hhistory]
      intro i hi
      obtain ⟨hrender, hout⟩ := h.unrendered i hi
      refine ⟨(buffers_addToOutput a i).1.trans hrender, ?_⟩
      rw [mem_append, mem_singleton]
      rintro (hmem | rfl)
      · exact hout hmem
      · exact absurd (hnone.symm.trans hi) (by simp)
    surface := by
      intro i
      rw [(buffers_addToOutput a i).2]
      exact h.surface i
    pos := by
      rw [acquirePos_addToOutput]
      exact h.pos
    frames := by
      simp only [hhistory]
      have hold : q.map (Function.update s.history.frameOf a s.history.shown) =
          q.map s.history.frameOf := by
        refine map_congr_left fun i hi => update_of_ne ?_ _ _
        rintro rfl
        exact hnotMem hi
      rw [map_append, hold, map_singleton, update_self, range_succ, append_assoc]
      refine perm_append_comm_assoc .. |>.trans ?_
      refine (h.frames.append_left [s.history.shown]).trans ?_
      exact perm_append_comm }

/-- The position from which the next search starts. -/
theorem Pool.advance (h : Pool c s q) :
    Pool c { s with acquirePos := (s.acquirePos + 1) % c.numSurfaces } q :=
  { h with pos := Nat.mod_lt _ c.surfaces_pos }

theorem acquired_updateReferences (a : ℕ) : (s.updateReferences c a).acquired = s.acquired := by
  unfold updateReferences
  split <;> (try split) <;> rfl

theorem showFrame_updateReferences (a : ℕ) : (s.updateReferences c a).showFrame = s.showFrame := by
  unfold updateReferences
  split <;> (try split) <;> rfl

theorem renderDone_updateReferences (a i : ℕ) :
    ((s.updateReferences c a).buffers i).renderDone = (s.buffers i).renderDone := by
  have hmark (u : Decoder) (j : ℕ) (m : Bool) :
      ((u.modify j fun b => { b with asReference := m }).buffers i).renderDone =
        (u.buffers i).renderDone := by
    by_cases hij : i = j
    · rw [hij, modify_buffers_self]
    · rw [modify_buffers_of_ne _ hij]
  unfold updateReferences
  split
  · refine (hmark _ _ _).trans ?_
    split
    · exact hmark _ _ _
    · rfl
  · rfl

theorem history_updateReferences (a : ℕ) : (s.updateReferences c a).history = s.history := by
  unfold updateReferences
  split <;> (try split) <;> rfl

/-- A frame has been put into the queue, behind the others, or none has. -/
inductive Shown (c : DecoderConfig) (s : Decoder) (q : List ℕ) (t : Decoder) : Prop
  | same (pool : Pool c t q) (history : t.history = s.history)
  | added (a : ℕ) (pool : Pool c t (q ++ [a]))
      (history : t.history = { s.history with
        shown := s.history.shown + 1
        frameOf := Function.update s.history.frameOf a s.history.shown })

theorem Shown.pool (h : Shown c s q t) : ∃ q', Pool c t q' := by
  cases h with
  | same pool => exact ⟨_, pool⟩
  | added a pool => exact ⟨_, pool⟩

theorem Pool.shown_outputSurfaceBuffer (h : Pool c s q) (rawData : Bool) :
    Shown c s q (s.outputSurfaceBuffer c rawData).2 := by
  unfold Decoder.outputSurfaceBuffer
  cases ha : s.acquired with
  | none => exact .same h rfl
  | some a =>
    dsimp only
    split
    · exact .same h rfl
    · have hdone := h.modify_acquired ha (fun b => { b with renderDone := !s.showFrame })
        fun _ => rfl
      generalize hu : (s.modify a fun b => { b with renderDone := !s.showFrame }) = u at hdone
      have hacquired : u.acquired = some a := by rw [← hu]; exact ha
      have hrender : (u.buffers a).renderDone = !s.showFrame := by rw [← hu, modify_buffers_self]
      have hshow : u.showFrame = s.showFrame := by rw [← hu]; rfl
      have hhistory : u.history = s.history := by rw [← hu]; rfl
      generalize hv : (if (u.buffers a).referenceFrame then u.updateReferences c a else u) = v
      have hpool : Pool c v q ∧ v.acquired = some a ∧ v.showFrame = s.showFrame ∧
          (v.buffers a).renderDone = (!s.showFrame) ∧ v.history = s.history := by
        rw [← hv]
        split
        · exact ⟨hdone.updateReferences a, (acquired_updateReferences a).trans hacquired,
            (showFrame_updateReferences a).trans hshow,
            (renderDone_updateReferences a a).trans hrender,
            (history_updateReferences a).trans hhistory⟩
        · exact ⟨hdone, hacquired, hshow, hrender, hhistory⟩
      obtain ⟨hpool, hacquired, hshow, hrender, hhistory⟩ := hpool
      split
      · rename_i hshown
        rw [← hshow, hshown] at hrender
        refine .added a (hpool.addToOutput hacquired hrender).advance ?_
        rw [← hhistory]
        exact history_addToOutput a
      · exact .same hpool.drop.advance hhistory

theorem Pool.outputSurfaceBuffer (h : Pool c s q) (rawData : Bool) :
    ∃ q', Pool c (s.outputSurfaceBuffer c rawData).2 q' :=
  (h.shown_outputSurfaceBuffer rawData).pool

theorem Pool.setDecoding (h : Pool c s q) (b : Bool) : Pool c { s with decodingFrame := b } q :=
  h.kept (fun _ => ⟨rfl, rfl, rfl⟩) rfl rfl rfl rfl rfl

theorem history_releaseSurfaceBuffer : s.releaseSurfaceBuffer.history = s.history := by
  unfold Decoder.releaseSurfaceBuffer
  split <;> rfl

theorem Pool.shown_endDecodingFrame (h : Pool c s q) (dropFrame endPicture rawData : Bool) :
    Shown c s q (s.endDecodingFrame c dropFrame endPicture rawData).2 := by
  unfold Decoder.endDecodingFrame
  split
  · split
    · exact .same h.releaseSurfaceBuffer history_releaseSurfaceBuffer
    · exact .same h rfl
  · split
    · exact .same (h.setDecoding false) rfl
    · split
      · exact .same (h.releaseSurfaceBuffer.setDecoding false) history_releaseSurfaceBuffer
      · split
        · exact .same (h.releaseSurfaceBuffer.setDecoding false) history_releaseSurfaceBuffer
        · cases h.shown_outputSurfaceBuffer rawData with
          | same pool history => exact .same (pool.setDecoding false) history
          | added a pool history => exact .added a (pool.setDecoding false) history

theorem Pool.endDecodingFrame (h : Pool c s q) (dropFrame endPicture rawData : Bool) :
    ∃ q', Pool c (s.endDecodingFrame c dropFrame endPicture rawData).2 q' :=
  (h.shown_endDecodingFrame dropFrame endPicture rawData).pool

/-! ### Handing out -/

/-- The time stamp of a buffer. -/
def timeStamp (s : Decoder) (i : ℕ) : UInt64 := (s.buffers i).timeStamp

/-- A buffer that has been taken out of the queue is handed out. Between `s` and `t` only links are
changed. -/
theorem Pool.handOut {q' : List ℕ} {o : ℕ} (h : Pool c s q) (draining : Bool)
    (hqueue : IsQueue t.next t.outputHead t.outputTail q') (hperm : (o :: q').Perm q)
    (hbuffers : ∀ i, (t.buffers i).renderDone = (s.buffers i).renderDone ∧
      (t.buffers i).surface = (s.buffers i).surface)
    (hacquired : t.acquired = s.acquired) (hpos : t.acquirePos = s.acquirePos)
    (hhistory : t.history = s.history) : Pool c (t.handOut draining o) q' := by
  have hmem : ∀ i ∈ q', i ∈ q := fun i hi => hperm.subset (mem_cons_of_mem _ hi)
  have ho : o ∈ q := hperm.subset (mem_cons_self ..)
  have hout : o ∉ q' := (nodup_cons.mp (hperm.nodup_iff.mpr h.nodup)).1
  have hkept : ∀ i, ((t.handOut draining o).buffers i).renderDone = (s.buffers i).renderDone ∧
      ((t.handOut draining o).buffers i).surface = (s.buffers i).surface ∧
      ((t.handOut draining o).buffers i).next = (t.buffers i).next := by
    intro i
    unfold Decoder.handOut
    by_cases hi : i = o
    · rw [hi, modify_buffers_self]
      exact ⟨(hbuffers o).1, (hbuffers o).2, rfl⟩
    · rw [modify_buffers_of_ne _ hi]
      exact ⟨(hbuffers i).1, (hbuffers i).2, rfl⟩
  have hunrendered : (t.handOut draining o).history.unrendered =
      Function.update s.history.unrendered o true := by
    rw [← hhistory]
    rfl
  exact {
    queue := hqueue.congr fun i _ => (hkept i).2.2
    lt := fun i hi => h.lt i (hmem i hi)
    waiting := fun i hi => (hkept i).1.trans (h.waiting i (hmem i hi))
    acquired := by
      intro a ha
      have ha' : s.acquired = some a := hacquired.symm.trans ha
      obtain ⟨hnotMem, hnone, hlt⟩ := h.acquired a ha'
      have hao : a ≠ o := fun heq => hnotMem (heq ▸ ho)
      rw [hunrendered, update_of_ne hao]
      exact ⟨fun hin => hnotMem (hmem a hin), hnone, hlt⟩
    unrendered := by
      rw [hunrendered]
      intro i hi
      by_cases hio : i = o
      · rw [hio]
        exact ⟨(hkept o).1.trans (h.waiting o ho), hout⟩
      · rw [update_of_ne hio] at hi
        obtain ⟨hdone, hnotMem⟩ := h.unrendered i hi
        exact ⟨(hkept i).1.trans hdone, fun hin => hnotMem (hmem i hin)⟩
    surface := by
      intro i
      rw [(hkept i).2.1]
      exact h.surface i
    pos := by
      change t.acquirePos < c.numSurfaces
      exact hpos ▸ h.pos
    frames := by
      change (q'.map t.history.frameOf ++ (t.history.frameOf o :: t.history.returned ++
        t.history.discarded)).Perm (List.range t.history.shown)
      rw [hhistory]
      refine List.Perm.trans ?_ h.frames
      refine perm_middle.trans ?_
      exact (hperm.map s.history.frameOf).append_right _ }

variable {head : ℕ}

/-- Removing the head of the queue. -/
theorem Pool.removeHead (h : Pool c s q) (hhead : s.outputHead = some head) :
    ∃ q', (head :: q').Perm q ∧ q'.Sublist q ∧
      IsQueue (s.removeHead head).next (s.removeHead head).outputHead
        (s.removeHead head).outputTail q' := by
  have hqueue := h.queue
  rw [hhead] at hqueue
  obtain ⟨l, rfl, hl⟩ := hqueue.pop
  exact ⟨l, .refl _, sublist_cons_self .., hl⟩

/-- Removing another buffer of the queue. -/
theorem Pool.removeBehind {o : ℕ} (h : Pool c s q) (ho : o ∈ q) (hhead : s.outputHead ≠ some o) :
    ∃ q', (o :: q').Perm q ∧ q'.Sublist q ∧
      IsQueue (s.removeBehind o q).next (s.removeBehind o q).outputHead
        (s.removeBehind o q).outputTail q' := by
  obtain ⟨b, hb, hnext⟩ := h.queue.path.exists_before ho hhead
  unfold Decoder.removeBehind
  cases hfind : q.find? fun p => s.next p == some o with
  | none =>
    have hnot := List.find?_eq_none.mp hfind b hb
    simp [hnext] at hnot
  | some p =>
    obtain ⟨hp, l₁, l₂, hq, -⟩ := List.find?_eq_some_iff_append.mp hfind
    have hpnext : s.next p = some o := by simpa using hp
    have hpath := h.queue.path
    rw [hq] at hpath
    have hsuffix := hpath.suffix
    rw [hpnext] at hsuffix
    obtain ⟨l₃, rfl⟩ : ∃ l₃, l₂ = o :: l₃ := by
      cases hsuffix
      exact ⟨_, rfl⟩
    have hqueue := h.queue
    rw [hq] at hqueue
    refine ⟨l₁ ++ p :: l₃, ?_, ?_, ?_⟩
    · rw [hq]
      have hmove := @perm_middle _ o (l₁ ++ [p]) l₃
      simpa using hmove.symm
    · rw [hq]
      exact ((sublist_cons_self o l₃).cons_cons p).append_left l₁
    · dsimp only
      rw [next_modify]
      exact hqueue.remove

theorem buffers_removeBehind (o : ℕ) (queue : List ℕ) (i : ℕ) :
    ((s.removeBehind o queue).buffers i).renderDone = (s.buffers i).renderDone ∧
      ((s.removeBehind o queue).buffers i).surface = (s.buffers i).surface ∧
      (s.removeBehind o queue).timeStamp i = s.timeStamp i := by
  unfold Decoder.removeBehind timeStamp
  split
  · exact ⟨rfl, rfl, rfl⟩
  · rename_i p _
    by_cases hip : i = p
    · rw [hip, modify_buffers_self]
      exact ⟨rfl, rfl, rfl⟩
    · rw [modify_buffers_of_ne _ hip]
      exact ⟨rfl, rfl, rfl⟩

theorem kept_removeBehind (o : ℕ) (queue : List ℕ) :
    (s.removeBehind o queue).acquired = s.acquired ∧
      (s.removeBehind o queue).acquirePos = s.acquirePos ∧
      (s.removeBehind o queue).history = s.history := by
  unfold Decoder.removeBehind
  split <;> exact ⟨rfl, rfl, rfl⟩

/-! ### The choice of the output -/

/-- The buffer with the smallest time stamp. -/
theorem findOutputByPts_spec (hq : q ≠ []) :
    ∃ m ∈ q, s.findOutputByPts q = some m ∧ ∀ i ∈ q, s.timeStamp m ≤ s.timeStamp i := by
  have hfold (l : List ℕ) (best : UInt64 × Option ℕ) :
      let r := l.foldl (fun (best : UInt64 × Option ℕ) p =>
        if (s.buffers p).timeStamp ≤ best.1 then ((s.buffers p).timeStamp, some p) else best) best
      r.1 ≤ best.1 ∧ (∀ i ∈ l, r.1 ≤ s.timeStamp i) ∧
        (r = best ∨ ∃ m ∈ l, r = (s.timeStamp m, some m)) := by
    induction l generalizing best with
    | nil => exact ⟨UInt64.le_refl _, by simp, Or.inl rfl⟩
    | cons p l ih =>
      rw [foldl_cons]
      split
      · rename_i hle
        obtain ⟨hbest, hall, hfound⟩ := ih ((s.buffers p).timeStamp, some p)
        refine ⟨UInt64.le_trans hbest hle, ?_, Or.inr ?_⟩
        · intro i hi
          rcases mem_cons.mp hi with rfl | hi
          · exact hbest
          · exact hall i hi
        · rcases hfound with heq | ⟨m, hm, heq⟩
          · exact ⟨p, mem_cons_self .., heq⟩
          · exact ⟨m, mem_cons_of_mem _ hm, heq⟩
      · rename_i hlt
        obtain ⟨hbest, hall, hfound⟩ := ih best
        refine ⟨hbest, ?_, hfound.imp_right fun ⟨m, hm, heq⟩ => ⟨m, mem_cons_of_mem _ hm, heq⟩⟩
        intro i hi
        rcases mem_cons.mp hi with rfl | hi
        · exact UInt64.le_trans hbest (UInt64.le_of_lt (UInt64.not_le.mp hlt))
        · exact hall i hi
  obtain ⟨-, hall, hfound⟩ := hfold q (invalidPts, none)
  rcases hfound with heq | ⟨m, hm, heq⟩
  · -- the first buffer is taken whatever its time stamp is
    exfalso
    obtain ⟨p, l, rfl⟩ := exists_cons_of_ne_nil hq
    have hle : (s.buffers p).timeStamp ≤ invalidPts := by
      rw [UInt64.le_iff_toNat_le]
      have hlt := (s.buffers p).timeStamp.toNat_lt
      have hmax : invalidPts.toNat = 2 ^ 64 - 1 := by decide
      omega
    rw [foldl_cons, if_pos hle] at heq
    obtain ⟨-, -, hcase⟩ := hfold l ((s.buffers p).timeStamp, some p)
    rcases hcase with h1 | ⟨m, -, h1⟩
    · rw [h1] at heq
      cases congrArg Prod.snd heq
    · rw [h1] at heq
      cases congrArg Prod.snd heq
  · refine ⟨m, hm, congrArg Prod.snd heq, fun i hi => ?_⟩
    have hle := hall i hi
    rw [heq] at hle
    exact hle

theorem scanByPct_mem {o : ℕ} {l : List ℕ} {reference : ℕ} (hl : ∀ i ∈ l, i ∈ q) (hhead : head ∈ q)
    (h : s.scanByPct head l reference = some o) : o ∈ q := by
  induction l generalizing reference with
  | nil => simp [scanByPct] at h
  | cons p l ih =>
    rw [scanByPct] at h
    split at h
    · split at h
      · obtain rfl := some.inj h
        exact hhead
      · exact ih (fun i hi => hl i (mem_cons_of_mem _ hi)) h
    · obtain rfl := some.inj h
      exact hl p (mem_cons_self ..)

theorem findOutputByPct_mem {draining : Bool} {o : ℕ} (hhead : head ∈ q)
    (h : s.findOutputByPct draining head q = some o) : o ∈ q := by
  unfold findOutputByPct at h
  split at h
  · rename_i p hscan
    obtain rfl := some.inj h
    exact scanByPct_mem (fun i hi => hi) hhead hscan
  · split at h
    · obtain rfl := some.inj h
      exact hhead
    · cases h

/-- The candidates of a scan are buffers of the queue. -/
structure PocScan.In (v : PocScan) (q : List ℕ) : Prop where
  output : ∀ o, v.output = some o → o ∈ q
  least : v.outputLeastPoc ∈ q

theorem scanByPoc_in {l : List ℕ} {v w : PocScan} (hl : ∀ i ∈ l, i ∈ q) (hv : v.In q)
    (h : s.scanByPoc l v = some w) : w.In q := by
  have hfinish (u : PocScan) (hu : u.In q) : (u.finish s).In q := by
    unfold PocScan.finish
    split
    · exact ⟨hu.output, hu.least⟩
    · exact hu
  induction l generalizing v with
  | nil =>
    obtain rfl := some.inj h
    exact hv
  | cons p l ih =>
    have hp : p ∈ q := hl p (mem_cons_self ..)
    rw [scanByPoc] at h
    dsimp only at h
    split at h
    · obtain rfl := some.inj h
      exact hfinish _ ⟨hv.output, hv.least⟩
    · generalize hu : (if (s.buffers p).pictureOrder = 0 then
          { v with count := v.count + 1, nextOutputPoc := minimumPoc }
        else { v with count := v.count + 1 } : PocScan) = u at h
      have hin : u.In q := by
        rw [← hu]
        split <;> exact ⟨hv.output, hv.least⟩
      generalize hx : (if (s.buffers p).pictureOrder < u.poc ∧
          u.nextOutputPoc ≤ (s.buffers p).pictureOrder then
          { u with poc := (s.buffers p).pictureOrder, output := some p, outputLeastPoc := p }
        else u : PocScan) = x at h
      have hxin : x.In q := by
        rw [← hx]
        split
        · exact ⟨by rintro o ⟨⟩; exact hp, hp⟩
        · exact hin
      split at h
      · split at h
        · obtain rfl := some.inj h
          exact hfinish _ hxin
        · cases h
      · refine ih (fun i hi => hl i (mem_cons_of_mem _ hi)) ?_ h
        split
        · exact ⟨by simp, hxin.least⟩
        · exact hxin

theorem findOutputByPoc_spec {draining : Bool} {r : Option ℕ × Decoder} (hhead : head ∈ q)
    (h : s.findOutputByPoc draining head q = some r) :
    (∀ o, r.1 = some o → o ∈ q) ∧ ∃ n, r.2 = { s with nextOutputPoc := n } := by
  obtain ⟨v, hv, rfl⟩ := map_eq_some_iff.mp h
  refine ⟨fun o ho => ?_, v.nextOutputPoc, rfl⟩
  have hstart (n : ℤ) : PocScan.In ⟨0, maximumPoc, none, head, n⟩ q := ⟨by simp, hhead⟩
  have hin : v.In q := by
    split at hv
    · rename_i w hw
      obtain rfl := some.inj hv
      exact scanByPoc_in (fun i hi => hi) (hstart _) hw
    · exact scanByPoc_in (fun i hi => hi) (hstart _) hv
  split at ho
  · obtain rfl := some.inj ho
    exact hin.least
  · exact hin.output o ho

/-- Two functions that exchange their values at two places of a list. -/
theorem map_perm_of_exchange {β : Type} {f g : ℕ → β} {o m : ℕ} (hnodup : q.Nodup) (ho : o ∈ q)
    (hm : m ∈ q) (hne : o ≠ m) (hfo : f o = g m) (hfm : f m = g o)
    (hother : ∀ i, i ≠ o → i ≠ m → f i = g i) : (q.map f).Perm (q.map g) := by
  have hm' : m ∈ q.erase o := (mem_erase_of_ne hne.symm).mpr hm
  have hperm : q.Perm (o :: m :: (q.erase o).erase m) :=
    (perm_cons_erase ho).trans ((perm_cons_erase hm').cons o)
  have hnodup' := hperm.nodup_iff.mp hnodup
  simp only [nodup_cons, mem_cons, not_or] at hnodup'
  have hrest : ((q.erase o).erase m).map f = ((q.erase o).erase m).map g := by
    refine map_congr_left fun i hi => hother i ?_ ?_
    · rintro rfl
      exact hnodup'.1.2 hi
    · rintro rfl
      exact hnodup'.2.1 hi
  calc (q.map f).Perm _ := hperm.map f
    _ = g m :: g o :: ((q.erase o).erase m).map g := by
      rw [map_cons, map_cons, hfo, hfm, hrest]
    _ |>.Perm (g o :: g m :: ((q.erase o).erase m).map g) := .swap ..
    _ |>.Perm (q.map g) := (hperm.map g).symm

/-- The time stamps of two buffers are exchanged. -/
theorem timeStamp_swap {o m : ℕ} (hne : o ≠ m) :
    (s.swapTimeStamps o m).timeStamp o = s.timeStamp m ∧
      (s.swapTimeStamps o m).timeStamp m = s.timeStamp o ∧
      ∀ i, i ≠ o → i ≠ m → (s.swapTimeStamps o m).timeStamp i = s.timeStamp i := by
  unfold swapTimeStamps timeStamp
  refine ⟨?_, ?_, fun i hio him => ?_⟩
  · rw [modify_buffers_of_ne _ hne, modify_buffers_self]
  · rw [modify_buffers_self]
  · rw [modify_buffers_of_ne _ him, modify_buffers_of_ne _ hio]

theorem Pool.swapTimeStamps (h : Pool c s q) (o m : ℕ) : Pool c (s.swapTimeStamps o m) q :=
  (h.modify_kept o (fun b => { b with timeStamp := s.timeStamp m })
    fun _ => ⟨rfl, rfl, rfl⟩).modify_kept m (fun b => { b with timeStamp := s.timeStamp o })
    fun _ => ⟨rfl, rfl, rfl⟩

theorem timeStamp_handOut (draining : Bool) (o i : ℕ) :
    (s.handOut draining o).timeStamp i = s.timeStamp i := by
  unfold Decoder.handOut timeStamp
  by_cases hi : i = o
  · rw [hi, modify_buffers_self]
  · rw [modify_buffers_of_ne _ hi]

/-- A buffer of the queue is taken out and handed out. -/
theorem Pool.takeOut {o : ℕ} (h : Pool c s q) (hhead : s.outputHead = some head) (ho : o ∈ q)
    (draining : Bool) :
    ∃ q', (o :: q').Perm q ∧ q'.Sublist q ∧
      Pool c ((if o ≠ head then s.removeBehind o q else s.removeHead head).handOut draining o) q' ∧
      ∀ i, ((if o ≠ head then s.removeBehind o q else s.removeHead head).handOut draining
        o).timeStamp i = s.timeStamp i := by
  by_cases hfirst : o = head
  · subst hfirst
    obtain ⟨q', hperm, hsub, hqueue⟩ := h.removeHead hhead
    simp only [ne_eq, not_true_eq_false, if_false]
    exact ⟨q', hperm, hsub, h.handOut draining hqueue hperm (fun _ => ⟨rfl, rfl⟩) rfl rfl rfl,
      fun i => timeStamp_handOut ..⟩
  · have hne : s.outputHead ≠ some o := by
      rw [hhead]
      rintro ⟨⟩
      exact hfirst rfl
    obtain ⟨q', hperm, hsub, hqueue⟩ := h.removeBehind ho hne
    obtain ⟨hacquired, hpos, hhistory⟩ := @kept_removeBehind s o q
    simp only [ne_eq, hfirst, not_false_eq_true, if_true]
    refine ⟨q', hperm, hsub, h.handOut draining hqueue hperm (fun i => ?_) hacquired hpos hhistory,
      fun i => ?_⟩
    · exact ⟨(buffers_removeBehind o q i).1, (buffers_removeBehind o q i).2.1⟩
    · rw [timeStamp_handOut]
      exact (buffers_removeBehind o q i).2.2

/-- What `getOutput` does with a queue: the time stamps of the queue and of the frame that is
returned are those of the queue before, and the frame has the smallest. -/
structure Delivers (c : DecoderConfig) (s : Decoder) (q : List ℕ) (r : Option ℕ) (t : Decoder)
    (q' : List ℕ) : Prop where
  timeStamps : ((r.toList ++ q').map t.timeStamp).Perm (q.map s.timeStamp)
  smallest : c.lowDelay = false → ∀ o, r = some o → ∀ i ∈ q, t.timeStamp o ≤ s.timeStamp i

theorem Pool.drained (h : Pool c s q) (draining endPicture rawData : Bool) :
    ∃ q', Pool c (s.drained c draining endPicture rawData) q' := by
  unfold Decoder.drained
  split
  · exact h.endDecodingFrame false endPicture rawData
  · exact ⟨q, h⟩

/-- The part of `getOutput` after the search, for the buffer `o` that has been found. -/
theorem Pool.deliver {o m : ℕ} (h : Pool c s q) (hhead : s.outputHead = some head) (ho : o ∈ q)
    (hm : m ∈ q) (hmin : ∀ i ∈ q, s.timeStamp m ≤ s.timeStamp i) (draining : Bool) :
    let u := if o ≠ m then s.swapTimeStamps o m else s
    let v := if o ≠ head then u.removeBehind o q else u.removeHead head
    ∃ q', Pool c (v.handOut draining o) q' ∧
      Delivers c s q (some o) (v.handOut draining o) q' := by
  intro u v
  have hu : Pool c u q ∧ u.outputHead = some head ∧ u.timeStamp o = s.timeStamp m ∧
      (q.map u.timeStamp).Perm (q.map s.timeStamp) := by
    by_cases hom : o = m
    · have hsame : u = s := if_neg (by simp [hom])
      rw [hsame, hom]
      exact ⟨h, hhead, rfl, .refl _⟩
    · have hswap : u = s.swapTimeStamps o m := if_pos hom
      obtain ⟨hto, htm, hother⟩ := @timeStamp_swap s o m hom
      rw [hswap]
      exact ⟨h.swapTimeStamps o m, hhead, hto,
        map_perm_of_exchange h.nodup ho hm hom hto htm hother⟩
  obtain ⟨hpool, hhead', hto, hperm⟩ := hu
  obtain ⟨q', hq', -, hpool', hsame⟩ := hpool.takeOut hhead' ho draining
  refine ⟨q', hpool', ?_, fun _ p hp i hi => ?_⟩
  · have hmap : ((some o).toList ++ q').map (v.handOut draining o).timeStamp =
        (o :: q').map u.timeStamp := map_congr_left fun i _ => hsame i
    rw [hmap]
    exact (hq'.map u.timeStamp).trans hperm
  · obtain rfl := some.inj hp
    rw [hsame o, hto]
    exact hmin i hi

theorem Pool.setNextOutputPoc (h : Pool c s q) (n : ℤ) : Pool c { s with nextOutputPoc := n } q :=
  h.kept (fun _ => ⟨rfl, rfl, rfl⟩) rfl rfl rfl rfl rfl

theorem Delivers.none (c : DecoderConfig) (h : ∀ i, t.timeStamp i = s.timeStamp i) :
    Delivers c s q none t q := by
  refine ⟨?_, fun _ o ho => by cases ho⟩
  have hmap : ((Option.none : Option ℕ).toList ++ q).map t.timeStamp = q.map s.timeStamp :=
    map_congr_left fun i _ => h i
  rw [hmap]

/-- What `getOutput` returns and leaves. -/
theorem Pool.getOutput {draining endPicture rawData : Bool} {r : Option ℕ} (h : Pool c s q)
    (hout : s.getOutput c draining endPicture rawData = some (r, t)) :
    ∃ q₁ q', Pool c (s.drained c draining endPicture rawData) q₁ ∧ Pool c t q' ∧
      Delivers c (s.drained c draining endPicture rawData) q₁ r t q' := by
  obtain ⟨q₁, hpool⟩ := h.drained draining endPicture rawData
  unfold Decoder.getOutput at hout
  generalize s.drained c draining endPicture rawData = u at hpool hout ⊢
  unfold takeOutput at hout
  cases hhead : u.outputHead with
  | none =>
    rw [hhead] at hout
    obtain ⟨rfl, rfl⟩ : Option.none = r ∧ u = t := by simpa using hout
    exact ⟨q₁, q₁, hpool, hpool, .none c fun _ => rfl⟩
  | some head =>
    rw [hhead] at hout
    have hmem : head ∈ q₁ := by
      have hfirst := hpool.queue.head_eq
      rw [hhead] at hfirst
      exact mem_of_head? hfirst.symm
    dsimp only at hout
    split at hout
    · rename_i hlow
      obtain ⟨rfl, rfl⟩ : some head = r ∧ (u.removeHead head).handOut draining head = t := by
        simpa using hout
      obtain ⟨q', hperm, -, hpool', hsame⟩ := hpool.takeOut hhead hmem draining
      simp only [ne_eq, not_true_eq_false, if_false] at hpool' hsame
      refine ⟨q₁, q', hpool, hpool', ?_, fun hnot => absurd hlow (by simp [hnot])⟩
      have hmap : ((some head).toList ++ q').map
          ((u.removeHead head).handOut draining head).timeStamp = (head :: q').map u.timeStamp :=
        map_congr_left fun i _ => hsame i
      rw [hmap]
      exact hperm.map _
    · rw [hpool.outputQueue_eq] at hout
      obtain ⟨m, hm, hpts, hmin⟩ := @findOutputByPts_spec u q₁ (ne_nil_of_mem hmem)
      rw [hpts] at hout
      obtain ⟨⟨output, v⟩, hfound, hresult⟩ := map_eq_some_iff.mp hout
      have hspec : (∀ o, output = some o → o ∈ q₁) ∧ ∃ n, v = { u with nextOutputPoc := n } := by
        split at hfound
        · exact findOutputByPoc_spec hmem hfound
        · obtain ⟨rfl, rfl⟩ : u.findOutputByPct draining head q₁ = output ∧ u = v := by
            simpa using hfound
          exact ⟨fun o ho => findOutputByPct_mem hmem ho, u.nextOutputPoc, rfl⟩
      obtain ⟨hin, n, rfl⟩ := hspec
      have hpool' := hpool.setNextOutputPoc n
      cases output with
      | none =>
        obtain ⟨rfl, rfl⟩ := Prod.mk.inj hresult
        exact ⟨q₁, q₁, hpool, hpool', .none c fun _ => rfl⟩
      | some o =>
        obtain ⟨rfl, rfl⟩ := Prod.mk.inj hresult
        obtain ⟨q', hq', hdeliver⟩ := hpool'.deliver hhead (hin o rfl) hm hmin draining
        exact ⟨q₁, q', hpool, hq', hdeliver.timeStamps, hdeliver.smallest⟩

/-! ### The client and flushing -/

/-- The client signals a buffer that is neither decoded into nor in the queue. -/
theorem Pool.signalRenderDone (h : Pool c s q) {i : ℕ} (hi : i ∉ q) (ha : s.acquired ≠ some i) :
    Pool c (s.signalRenderDone i) q := by
  have hsignalled : Pool c { s with history := { s.history with
      unrendered := Function.update s.history.unrendered i false } } q :=
    { h with
      acquired := fun a hacquired => by
        have hai : a ≠ i := by
          rintro rfl
          exact ha hacquired
        obtain ⟨hnotMem, hnone, hlt⟩ := h.acquired a hacquired
        exact ⟨hnotMem, (update_of_ne hai _ _).trans hnone, hlt⟩
      unrendered := fun j hj => by
        change Function.update s.history.unrendered i false j = true at hj
        have hji : j ≠ i := by
          rintro rfl
          rw [update_self] at hj
          cases hj
        rw [update_of_ne hji] at hj
        exact h.unrendered j hj }
  exact hsignalled.modify_of_notMem hi (update_self ..) _ fun _ => Or.inl rfl

/-- The frames of the queue are accounted for as discarded. -/
theorem Pool.frames_discard (h : Pool c s q) :
    (([] : List ℕ).map (s.discardQueue c).history.frameOf ++
      ((s.discardQueue c).history.returned ++ (s.discardQueue c).history.discarded)).Perm
      (List.range (s.discardQueue c).history.shown) := by
  change (s.history.returned ++ ((s.outputQueue c).map s.history.frameOf ++
    s.history.discarded)).Perm (List.range s.history.shown)
  rw [h.outputQueue_eq]
  exact (perm_append_comm_assoc ..).trans h.frames

/-- The loop of `flushSurfaceBuffers` changes the buffers of the queue only. -/
theorem foldl_rendered (l : List ℕ) (s : Decoder) :
    let t := l.foldl (fun t i => t.modify i fun b => { b with renderDone := true, next := none }) s
    (∀ i, i ∉ l → t.buffers i = s.buffers i) ∧
      (∀ i, (t.buffers i).surface = (s.buffers i).surface) ∧ t.acquired = s.acquired ∧
      t.acquirePos = s.acquirePos := by
  induction l generalizing s with
  | nil => exact ⟨fun _ _ => rfl, fun _ => rfl, rfl, rfl⟩
  | cons p l ih =>
    obtain ⟨hout, hsurface, hacquired, hpos⟩ :=
      ih (s.modify p fun b => { b with renderDone := true, next := none })
    rw [foldl_cons]
    refine ⟨fun i hi => ?_, fun i => ?_, hacquired, hpos⟩
    · have hne : i ≠ p := fun heq => hi (heq ▸ mem_cons_self ..)
      rw [hout i fun hmem => hi (mem_cons_of_mem _ hmem), modify_buffers_of_ne _ hne]
    · rw [hsurface i]
      by_cases hip : i = p
      · rw [hip, modify_buffers_self]
      · rw [modify_buffers_of_ne _ hip]

theorem Pool.flushSurfaceBuffers (h : Pool c s q) (endPicture : Bool) :
    Pool c (s.flushSurfaceBuffers c endPicture) [] := by
  obtain ⟨q₁, hpool⟩ := h.endDecodingFrame true endPicture true
  unfold Decoder.flushSurfaceBuffers
  generalize (s.endDecodingFrame c true endPicture true).2 = u at hpool
  obtain ⟨hout, hsurface, hacquired, hpos⟩ := foldl_rendered (u.outputQueue c) u
  exact {
    queue := .empty
    lt := by simp
    waiting := by simp
    acquired := by
      intro a ha
      obtain ⟨-, hnone, hlt⟩ := hpool.acquired a (hacquired.symm.trans ha)
      exact ⟨by simp, hnone, hlt⟩
    unrendered := by
      intro i hi
      obtain ⟨hdone, hnotMem⟩ := hpool.unrendered i hi
      rw [← hpool.outputQueue_eq] at hnotMem
      exact ⟨(congrArg VideoSurfaceBuffer.renderDone (hout i hnotMem)).trans hdone, by simp⟩
    surface := fun i => by
      rw [hsurface i]
      exact hpool.surface i
    pos := hpos ▸ hpool.pos
    frames := hpool.frames_discard }

/-- A frame that is dropped leaves no trace in the history. -/
theorem history_dropFrame (endPicture rawData : Bool) :
    (s.endDecodingFrame c true endPicture rawData).2.history = s.history := by
  have hrelease := @history_releaseSurfaceBuffer s
  unfold Decoder.endDecodingFrame
  split
  · split
    · exact hrelease
    · rfl
  · split
    · rfl
    · split
      · exact hrelease
      · exact hrelease

/-- With graphic buffers, or when the client has rendered all its buffers, `flush` keeps the
pool. -/
theorem Pool.flush (h : Pool c s q) (endPicture : Bool)
    (hrendered : c.useGraphicBuffer = true ∨
      ∀ i < c.numSurfaces, s.history.unrendered i = false) : Pool c (s.flush c endPicture) [] := by
  obtain ⟨q₁, hpool⟩ := h.endDecodingFrame true endPicture true
  have hhistory := @history_dropFrame c s endPicture true
  unfold Decoder.flush initSurfaceBuffer
  generalize (s.endDecodingFrame c true endPicture true).2 = u at hpool hhistory
  rw [← hhistory] at hrendered
  exact {
    queue := .empty
    lt := by simp
    waiting := by simp
    acquired := by simp
    unrendered := by
      intro i hi
      refine ⟨?_, by simp⟩
      have hi' : u.history.unrendered i = true := hi
      by_cases hlt : i < c.numSurfaces
      · rcases hrendered with hgraphic | hnone
        · simp [hlt, hgraphic]
        · exact absurd ((hnone i hlt).symm.trans hi') (by simp)
      · simpa [hlt, discardQueue] using (hpool.unrendered i hi').1
    surface := by
      intro i
      by_cases hlt : i < c.numSurfaces
      · exact Or.inl (by simp [hlt])
      · simpa [hlt, discardQueue] using hpool.surface i
    pos := Nat.mod_lt _ c.surfaces_pos
    frames := hpool.frames_discard }

theorem Pool.prepareFrame (h : Pool c s q) (f : FrameInfo) : Pool c (s.prepareFrame f) q := by
  have hflags : Pool c { s with decodingFrame := f.decodingFrame, showFrame := f.showFrame } q :=
    h.kept (fun _ => ⟨rfl, rfl, rfl⟩) rfl rfl rfl rfl rfl
  unfold Decoder.prepareFrame
  dsimp only
  split
  · exact hflags
  · exact hflags.modify_kept _ _ fun _ => ⟨rfl, rfl, rfl⟩

/-! ### Runs -/

/-- A call is not a `flush` that takes buffers away from the client, nor a `getOutput` that does not
return. -/
def Keeps (c : DecoderConfig) (s : Decoder) : Call → Prop
  | .flush _ => c.useGraphicBuffer = true ∨
      ∀ i < c.numSurfaces, s.history.unrendered i = false
  | .getOutput draining endPicture rawData =>
      (s.drained c draining endPicture rawData).SearchEnds c
  | _ => True

/-- One call keeps the pool. -/
theorem Pool.step {call : Call} (h : Pool c s q) (hkeeps : Keeps c s call)
    (hstep : s.step c call = some t) : ∃ q', Pool c t q' := by
  cases call with
  | acquire busy =>
    obtain rfl := some.inj hstep
    exact ⟨q, h.acquireSurfaceBuffer busy⟩
  | prepare f =>
    obtain rfl := some.inj hstep
    exact ⟨q, h.prepareFrame f⟩
  | mark i asReference =>
    obtain rfl := some.inj hstep
    exact ⟨q, h.modify_kept i _ fun _ => ⟨rfl, rfl, rfl⟩⟩
  | restamp timeStamp =>
    obtain rfl := some.inj hstep
    refine ⟨q, ?_⟩
    split
    · exact h
    · exact h.modify_kept _ _ fun _ => ⟨rfl, rfl, rfl⟩
  | setOutputWindowSize size =>
    obtain rfl := some.inj hstep
    exact ⟨q, h.kept (fun _ => ⟨rfl, rfl, rfl⟩) rfl rfl rfl rfl rfl⟩
  | endDecodingFrame dropFrame endPicture rawData =>
    obtain rfl := some.inj hstep
    exact h.endDecodingFrame dropFrame endPicture rawData
  | output rawData =>
    obtain rfl := some.inj hstep
    exact h.outputSurfaceBuffer rawData
  | release =>
    obtain rfl := some.inj hstep
    exact ⟨q, h.releaseSurfaceBuffer⟩
  | getOutput draining endPicture rawData =>
    obtain ⟨⟨r, u⟩, hout, rfl⟩ := map_eq_some_iff.mp hstep
    obtain ⟨-, q', -, hpool, -⟩ := h.getOutput hout
    exact ⟨q', hpool⟩
  | signalRenderDone i =>
    rw [Decoder.step, h.outputQueue_eq] at hstep
    split at hstep
    · cases hstep
    · rename_i hfree
      obtain rfl := some.inj hstep
      rw [not_or] at hfree
      exact ⟨q, h.signalRenderDone hfree.1 hfree.2⟩
  | flushSurfaceBuffers endPicture =>
    obtain rfl := some.inj hstep
    exact ⟨[], h.flushSurfaceBuffers endPicture⟩
  | flush endPicture =>
    obtain rfl := some.inj hstep
    exact ⟨[], h.flush endPicture hkeeps⟩

theorem Started.pool (h : Started s) : Pool c s [] where
  queue := by
    rw [h.head, h.tail]
    exact .empty
  lt := by simp
  waiting := by simp
  acquired := by simp [h.acquired]
  unrendered := fun i hi => ⟨h.unrendered i hi, by simp⟩
  surface := fun i => Or.inl (h.buffers i).1
  pos := by
    rw [h.acquirePos]
    exact c.surfaces_pos
  frames := by simp [h.shown, h.returned, h.discarded]

theorem Pool.reach {s₀ : Decoder} (hstart : Started s₀)
    (hrun : Reach (Decoder.step c) (Keeps c) s₀ s) : ∃ q, Pool c s q := by
  have hinit : ∃ q, Pool c s₀ q := ⟨[], hstart.pool⟩
  refine Reach.invariant (I := fun s => ∃ q, Pool c s q) hrun hinit ?_
  rintro a x b ⟨q, hpool⟩ hkeeps hstep
  exact hpool.step hkeeps hstep

/-- A buffer that waits in the queue, is a reference, is decoded into, or is with the client. -/
def InUse (c : DecoderConfig) (s : Decoder) (i : ℕ) : Prop :=
  i ∈ s.outputQueue c ∨ (s.buffers i).asReference = true ∨ s.acquired = some i ∨
    s.history.unrendered i = true

/-- The output queue and the pool are in order. -/
structure Sound (c : DecoderConfig) (s : Decoder) : Prop where
  /-- the links lead from the head through the queue to the tail and end there -/
  queue : IsQueue s.next s.outputHead s.outputTail (s.outputQueue c)
  nodup : (s.outputQueue c).Nodup
  ends : s.outputHead = none ↔ s.outputTail = none
  /-- a frame that was shown is in the queue, or was returned once, or was discarded -/
  frames : ((s.outputQueue c).map s.history.frameOf ++
    (s.history.returned ++ s.history.discarded)).Perm (List.range s.history.shown)
  acquire : ∀ busy j t, s.acquireSurfaceBuffer c busy = (.success, t) → t.acquired = some j →
    ¬ InUse c s j ∧ ∀ i ≠ j, InUse c s i → (s.buffers i).surface ≠ some j
  /-- a call of `getOutput` returns, and delivers -/
  output : ∀ draining endPicture rawData, Keeps c s (.getOutput draining endPicture rawData) →
    ∃ r t, s.getOutput c draining endPicture rawData = some (r, t) ∧
      Delivers c (s.drained c draining endPicture rawData)
        ((s.drained c draining endPicture rawData).outputQueue c) r t (t.outputQueue c)

theorem Pool.sound (h : Pool c s q) : Sound c s where
  queue := by
    rw [h.outputQueue_eq]
    exact h.queue
  nodup := by
    rw [h.outputQueue_eq]
    exact h.nodup
  ends := h.queue.head_none_iff
  frames := by
    rw [h.outputQueue_eq]
    exact h.frames
  acquire := by
    intro busy j t hacquire hj
    rcases acquire_cases busy h.pos with ⟨i, hnone, -, hfree, heq⟩ | ⟨hfail, -⟩
    · rw [hacquire] at heq
      obtain rfl : i = j := by
        rw [(Prod.mk.inj heq).2] at hj
        exact some.inj hj
      obtain ⟨hnotMem, hrendered⟩ := h.free hfree
      constructor
      · rintro (hmem | href | hacquired | hclient)
        · rw [h.outputQueue_eq] at hmem
          exact hnotMem hmem
        · exact absurd (hfree.asReference.symm.trans href) (by simp)
        · exact absurd (hnone.symm.trans hacquired) (by simp)
        · exact absurd (hrendered.symm.trans hclient) (by simp)
      · -- every buffer shows its own surface
        intro k hk _ hsurface
        rcases h.surface k with hnone | hown
        · rw [hnone] at hsurface
          cases hsurface
        · rw [hown] at hsurface
          exact hk (some.inj hsurface)
    · rw [hacquire] at hfail
      exact absurd rfl hfail
  output := by
    intro draining endPicture rawData hkeeps
    obtain ⟨⟨r, t⟩, hout⟩ := isSome_iff_exists.mp (takeOutput_isSome hkeeps draining)
    obtain ⟨q₁, q', hpool, hpool', hdelivers⟩ := h.getOutput hout
    refine ⟨r, t, hout, ?_⟩
    rw [hpool.outputQueue_eq, hpool'.outputQueue_eq]
    exact hdelivers

end Decoder

/-- In every run without a `flush` that takes buffers away from the client and without a `getOutput`
that does not return, the output queue and the pool are in order. -/
theorem output_queue_sound {s₀ : Decoder} (hstart : s₀.Started)
    (hrun : Reach (Decoder.step c) (Decoder.Keeps c) s₀ s) : s.Sound c := by
  obtain ⟨q, hpool⟩ := Decoder.Pool.reach hstart hrun
  exact hpool.sound

/-- Two buffers, without graphic buffers. -/
def twoBuffers (useGraphicBuffer : Bool) : DecoderConfig where
  numSurfaces := 2
  surfaces_pos := by decide
  useGraphicBuffer := useGraphicBuffer
  rawOutput := false
  isSoftwareDecoder := false
  manageReference := true
  lowDelay := false
  outputMethod := .byPct

/-- A decoder just after VA has been started. -/
def startedDecoder : Decoder where
  buffers _ := ⟨none, 0, true, false, false, 0, false, false, none⟩
  acquired := none
  acquirePos := 0
  outputHead := none
  outputTail := none
  nextOutputPoc := minimumPoc
  outputWindowSize := 8
  lastReference := none
  forwardReference := none
  decodingFrame := false
  showFrame := true
  sizeChanged := false
  history := ⟨0, fun _ => 0, [], [], fun _ => false⟩

theorem startedDecoder_started : startedDecoder.Started :=
  ⟨fun _ => ⟨rfl, rfl, rfl⟩, rfl, rfl, rfl, rfl, rfl, rfl, rfl, fun _ h => by cases h⟩

open Decoder in
/-- Decode and show a frame with a time stamp. -/
def showFrame (timeStamp : UInt64) : List Call :=
  [.acquire fun _ => false, .prepare ⟨timeStamp, 0, false, false, true, true⟩,
    .endDecodingFrame false true true]

/-- A decidable condition for `Decoder.Keeps`, without a search by count. -/
def keepsCheck (c : DecoderConfig) (s : Decoder) : Decoder.Call → Bool
  | .flush _ => c.useGraphicBuffer ||
      (List.range c.numSurfaces).all fun i => !s.history.unrendered i
  | .getOutput .. => c.lowDelay || c.outputMethod == .byPct
  | _ => true

theorem keeps_of_check (s : Decoder) (call : Decoder.Call) (h : keepsCheck c s call = true) :
    s.Keeps c call := by
  cases call with
  | flush endPicture => simpa [keepsCheck, Decoder.Keeps] using h
  | getOutput draining endPicture rawData =>
    rw [keepsCheck, Bool.or_eq_true, beq_iff_eq] at h
    exact h.imp_right .inl
  | _ => trivial

/-- With graphic buffers a frame is shown, handed out, and the decoder is flushed: it is still with
the client. -/
theorem output_queue_sound_flushed : ∃ s : Decoder, s.Sound (twoBuffers true) ∧
    s.history.returned = [0] ∧ s.history.unrendered 0 = true := by
  obtain ⟨s, hrun, hs⟩ : ∃ s, Reach (Decoder.step (twoBuffers true))
      (Decoder.Keeps (twoBuffers true)) startedDecoder s ∧ s.history.returned = [0] ∧
        s.history.unrendered 0 = true :=
    Reach.exists_of_check keeps_of_check (fun _ _ h => h)
      (showFrame 5 ++ [.getOutput true true true, .flush true]) (by decide)
  exact ⟨s, output_queue_sound startedDecoder_started hrun, hs⟩

/-- Without graphic buffers, the buffer that the client has not rendered is acquired after a
`flush`. -/
theorem flush_takes_back : ¬ ∀ s : Decoder,
    Reach (Decoder.step (twoBuffers false)) (fun _ _ => True) startedDecoder s →
      s.Sound (twoBuffers false) := by
  intro h
  obtain ⟨s, hrun, hclient, hsuccess, hacquired⟩ : ∃ s, Reach (Decoder.step (twoBuffers false))
      (fun _ _ => True) startedDecoder s ∧ s.history.unrendered 0 = true ∧
        (s.acquireSurfaceBuffer (twoBuffers false) fun _ => false).1 = .success ∧
        (s.acquireSurfaceBuffer (twoBuffers false) fun _ => false).2.acquired = some 0 :=
    Reach.exists_of_decide (fun _ _ h => h)
      (showFrame 5 ++ [.getOutput true true true, .flush true]) (by decide)
  have hfree := (h s hrun).acquire (fun _ => false) 0 _ (Prod.ext hsuccess rfl) hacquired
  exact hfree.1 (Or.inr (Or.inr (Or.inr hclient)))

end HardwareIntel.VideoDecoder
