import HardwareIntel.Vpp.Agreement

/-!
# Frames stay in order

The player's calls keep what the thread keeps, and a seek brings the two together again, so in every
run the oldest frame is processed first and the oldest output is shown first.

There are four ways for them not to come together, which the order of frames is not claimed for: a
seek that finds no frame at the worker puts back the player's load points, but neither the thread's
indices nor the render list; a frame is loaded after the end of the stream, before any seek; a flush
for a new frame rate meets the end of the stream or a seek; a frame rate conversion needs more output
slots than there are. `Regular` leaves them out.
-/

namespace HardwareIntel.Vpp

open List Option

namespace State

variable {cfg : Config} {s t : State} {tasks waiting start shown : ℕ}

/-! ### The player -/

theorem Ordered.setDecoderBufferToVPP (h : s.Ordered cfg tasks waiting start shown)
    (hapart : ¬s.Apart) (timeUs : ℤ) : (s.setDecoderBufferToVPP cfg timeUs).Consistent cfg := by
  have hpoint := h.loadPoint hapart
  have hslots : slotsOf (s.mRenderList ++ [⟨timeUs, none⟩]) = slotsOf s.mRenderList := by
    simp [slotsOf]
  have hlisted : Listed cfg.mOutputBufferNum s.mOutput (s.mRenderList ++ [⟨timeUs, none⟩])
      s.seeking := by
    have hl := h.listed
    exact ⟨hslots ▸ hl.nodup, hslots ▸ hl.lt, hslots ▸ hl.vpp, hslots ▸ hl.rendering⟩
  rw [State.setDecoderBufferToVPP]
  split
  · rename_i hfree
    rw [hpoint] at hfree
    have hinputs := h.inputs.load (b := { s.mInput.buf s.mInputLoadPoint with
      mStatus := .loaded, mTimeUs := timeUs, number := s.mInputCount }) hfree rfl rfl
    rw [← hpoint] at hinputs
    refine ⟨tasks, waiting + 1, start, shown, ?_⟩
    exact { h with
      inputs := hinputs
      listed := hlisted
      counted := { h.counted with }
      flagged := { h.flagged with
        idle := fun _ htrue => absurd htrue hapart
        seeking := fun htrue => absurd (.inr htrue) hapart }
      parked := fun htrue => absurd (.inr htrue) hapart
      loadPoint := fun _ => by
        change (s.mInputLoadPoint + 1) % _ = _
        rw [hpoint, Nat.mod_add_mod, Nat.add_assoc]
      sync := h.sync.imp_right fun hd => absurd hd.apart hapart }
  · exact ⟨tasks, waiting, start, shown, { h with
      listed := hlisted
      counted := { h.counted with }
      flagged := { h.flagged with }
      parked := fun htrue => absurd (.inr htrue) hapart
      sync := h.sync.imp_right fun hd => absurd hd.apart hapart }⟩

theorem Ordered.clearInput (h : s.Ordered cfg tasks waiting start shown) :
    (s.clearInput cfg).Ordered cfg tasks waiting start shown :=
  { h with
    inputs := h.inputs.sweep (fun b => decide (b.mStatus = .ready)) le_rfl
      (fun i _ hi => by simp [show (s.mInput.buf i).mStatus = .processing from hi])
      (h.inputs.loaded.sweep
        (fun i _ hi => by simp [show (s.mInput.buf i).mStatus = .loaded from hi]) (by decide))
      (fun i _ hi => by simp [Slots.status, of_decide_eq_true hi])
    listed := h.listed
    counted := { h.counted with }
    flagged := { h.flagged with }
    parked := fun hseeking hseek => { h.parked hseeking hseek with
      drained := { (h.parked hseeking hseek).drained with } }
    sync := h.sync.imp_right fun hd => { hd with } }

/-! #### The render list -/

theorem slotsOf_append (l l' : List Entry) : slotsOf (l ++ l') = slotsOf l ++ slotsOf l' :=
  filterMap_append

theorem slotsOf_cons_some (time : ℤ) (i : ℕ) (l : List Entry) :
    slotsOf (⟨time, some i⟩ :: l) = i :: slotsOf l := rfl

theorem findEntry_append {stop : ℤ → Bool} {l before after : List Entry}
    (h : findEntry stop l = some (before, after)) : before ++ after = l := by
  induction l generalizing before after with
  | nil =>
    obtain ⟨rfl, rfl⟩ : [] = before ∧ [] = after := by simpa [findEntry] using h
    rfl
  | cons e l ih =>
    obtain ⟨-, h⟩ := ite_none_left_eq_some.mp h
    split at h
    · obtain ⟨rfl, rfl⟩ : [] = before ∧ e :: l = after := by simpa using h
      rfl
    · obtain ⟨⟨before', after'⟩, hfind, heq⟩ := map_eq_some_iff.mp h
      obtain ⟨rfl, rfl⟩ : e :: before' = before ∧ after' = after := by simpa using heq
      rw [cons_append, ih hfind]

section RenderList

variable {m i : ℕ} {out : Slots} {before after rest : List Entry} {e : Entry} {b : VPPBuffer}

/-- A `READY` slot takes its place in the list. -/
theorem listed_insert (h : Listed m out (before ++ after) false) (hi : i < m)
    (hready : out.status i = .ready) (hstatus : b.mStatus = .rendering) (howner : b.owner = .vpp)
    (time : ℤ) : Listed m (out.set i b) (before ++ ⟨time, some i⟩ :: after) false := by
  have hslots : slotsOf (before ++ after) = slotsOf before ++ slotsOf after := slotsOf_append ..
  have hnew : i ∉ slotsOf (before ++ after) := fun hmem => by
    simp [h.rendering rfl i hmem] at hready
  have hmem : ∀ j, j ∈ slotsOf (before ++ ⟨time, some i⟩ :: after) ↔
      j = i ∨ j ∈ slotsOf (before ++ after) := by
    intro j
    rw [slotsOf_append, slotsOf_cons_some, hslots, mem_append, mem_cons, mem_append]
    tauto
  refine ⟨?_, fun j hj => ?_, fun j hj => ?_, fun _ j hj => ?_⟩
  · rw [slotsOf_append, slotsOf_cons_some, nodup_middle, ← hslots]
    exact nodup_cons.mpr ⟨hnew, h.nodup⟩
  · rcases (hmem j).mp hj with rfl | hj
    · exact hi
    · exact h.lt j hj
  · rcases (hmem j).mp hj with rfl | hj
    · rw [Slots.owner, Slots.buf_set_self, howner]
    · have hne : j ≠ i := fun heq => hnew (heq ▸ hj)
      rw [Slots.owner, Slots.buf_set_of_ne hne]
      exact h.vpp j hj
  · rcases (hmem j).mp hj with rfl | hj
    · rw [Slots.status, Slots.buf_set_self, hstatus]
    · have hne : j ≠ i := fun heq => hnew (heq ▸ hj)
      rw [Slots.status, Slots.buf_set_of_ne hne]
      exact h.rendering rfl j hj

/-- An entry leaves the list, whatever happens to its slot. -/
theorem listed_remove (before : List Entry) {seeking : Bool}
    (h : Listed m out (before ++ e :: rest) seeking) {t : Slots}
    (hframe : ∀ j, e.slot ≠ some j → t.buf j = out.buf j) : Listed m t (before ++ rest) seeking := by
  have hslots : slotsOf (before ++ e :: rest) = slotsOf before ++ (slotsOf [e] ++ slotsOf rest) := by
    rw [slotsOf_append, ← singleton_append, slotsOf_append]
  have hmem : ∀ j ∈ slotsOf (before ++ rest), j ∈ slotsOf (before ++ e :: rest) ∧ e.slot ≠ some j := by
    intro j hj
    rw [slotsOf_append, mem_append] at hj
    have hnodup := h.nodup
    rw [hslots, nodup_append', nodup_append', disjoint_append_right] at hnodup
    refine ⟨by rw [hslots]; simp only [mem_append]; tauto, fun heq => ?_⟩
    have hself : j ∈ slotsOf [e] := by simp [slotsOf, heq]
    exact hj.elim (fun hb => hnodup.2.2.1 hb hself) fun hr => hnodup.2.1.2.2 hself hr
  refine ⟨?_, fun j hj => h.lt j (hmem j hj).1, fun j hj => ?_, fun hseeking j hj => ?_⟩
  · refine h.nodup.sublist (List.Sublist.filterMap _ ?_)
    exact (sublist_cons_self ..).append_left _
  · rw [Slots.owner, hframe j (hmem j hj).2]
    exact h.vpp j (hmem j hj).1
  · rw [Slots.status, hframe j (hmem j hj).2]
    exact h.rendering hseeking j (hmem j hj).1

theorem release_frame {j : ℕ} (h : e.slot ≠ some j) : (release out e).buf j = out.buf j := by
  rw [release]
  split
  · rfl
  · rename_i k hk
    exact Slots.buf_set_of_ne fun heq => h (heq ▸ hk)

/-- The slot of an entry is released, whether it is rendered or has been released before. -/
theorem outputs_release {fill proc busy start shown given : ℕ} {flush : Bool} {readied : List ℕ}
    (h : OutputRing m out fill proc busy start shown flush given readied)
    (hslot : ∀ j, e.slot = some j → out.status j = .rendering ∨ out.status j = .free) :
    OutputRing m (release out e) fill proc busy start shown flush given readied := by
  rw [release]
  split
  · exact h
  · rename_i j hj
    exact h.retire (hslot j hj) (.inr ⟨rfl, rfl⟩) rfl

end RenderList

/-- The oldest `READY` slot is rendered or dropped, and nothing else changes. -/
theorem Ordered.placeOutput (h : s.Ordered cfg tasks waiting start (shown + 1))
    (hseeking : s.seeking = false) {before after : List Entry}
    (hlist : before ++ after = s.mRenderList) :
    ∃ out l, s.placeOutput start before after = { s with mOutput := out, mRenderList := l } ∧
      OutputRing cfg.mOutputBufferNum out s.thread.mOutputFillIdx s.thread.mOutputProcIdx
        (s.worker.taskSlots tasks) ((start + 1) % cfg.mOutputBufferNum) shown
        s.thread.mbFlushPipelineInProcessing s.given s.readied ∧
      Listed cfg.mOutputBufferNum out l false := by
  have hlisted := h.listed
  rw [hseeking, ← hlist] at hlisted
  have hready : s.mOutput.status start = .ready := by
    refine h.outputs.ready.status_of_mem ?_
    rw [ring_succ h.outputs.start_lt]
    exact mem_cons_self ..
  have hvpp : s.mOutput.owner start = .vpp := by
    by_contra hne
    simp [h.outputs.owned start h.outputs.start_lt hne] at hready
  have hdropped : OutputRing cfg.mOutputBufferNum
        (s.mOutput.set start (s.mOutput.buf start).resetBuffer) s.thread.mOutputFillIdx
        s.thread.mOutputProcIdx (s.worker.taskSlots tasks) ((start + 1) % cfg.mOutputBufferNum) shown
        s.thread.mbFlushPipelineInProcessing s.given s.readied ∧
      Listed cfg.mOutputBufferNum (s.mOutput.set start (s.mOutput.buf start).resetBuffer)
        s.mRenderList false :=
    ⟨h.outputs.take rfl (.inr rfl) rfl rfl, hlist ▸ hlisted.of_moved (Slots.moved_set rfl)
      (Slots.owner_set hvpp.symm) (by simp [hready])⟩
  cases after with
  | nil => exact ⟨_, _, rfl, hdropped⟩
  | cons e rest =>
    unfold State.placeOutput
    dsimp only
    split
    · exact ⟨_, _, rfl, hdropped⟩
    · split
      · -- the entry with the same time stamp is replaced
        have hslot : ∀ j, e.slot = some j → s.mOutput.status j = .rendering := fun j hj => by
          refine hlisted.rendering rfl j ?_
          rw [slotsOf_append, mem_append]
          exact .inr (by simp [slotsOf, hj])
        have hne : e.slot ≠ some start := fun heq => by simp [hslot start heq] at hready
        have hbuf : (release s.mOutput e).buf start = s.mOutput.buf start := release_frame hne
        have hremoved := listed_remove before hlisted fun j hj => release_frame hj
        refine ⟨_, _, rfl, (outputs_release h.outputs fun j hj => .inl (hslot j hj)).take rfl
          (.inl rfl) rfl ?_, listed_insert hremoved h.outputs.start_lt ?_ (by rfl) ?_ _⟩
        · exact (congrArg VPPBuffer.owner hbuf).trans hvpp
        · exact (congrArg VPPBuffer.mStatus hbuf).trans hready
        · exact (congrArg VPPBuffer.owner hbuf).trans hvpp
      · split
        · exact ⟨_, _, rfl, h.outputs.take rfl (.inl rfl) rfl hvpp,
            listed_insert hlisted h.outputs.start_lt hready (by rfl) (by exact hvpp) _⟩
        · exact ⟨_, _, rfl, hdropped⟩

theorem Ordered.renderOutput (h : s.Ordered cfg tasks waiting start (shown + 1))
    (hseeking : s.seeking = false) (ht : s.renderOutput cfg = some t) :
    t.Ordered cfg tasks waiting ((start + 1) % cfg.mOutputBufferNum) shown ∧ t.seeking = false := by
  obtain rfl := h.showPoint hseeking
  obtain ⟨⟨before, after⟩, hfind, heq⟩ :=
    map_eq_some_iff.mp (ite_none_left_eq_some.mp ht).2
  obtain ⟨out, l, hplace, hout, hlisted⟩ := h.placeOutput hseeking (findEntry_append hfind)
  simp only [hplace] at heq
  subst heq
  refine ⟨?_, hseeking⟩
  exact { h with
    outputs := hout
    listed := hseeking ▸ hlisted
    counted := { h.counted with }
    flagged := { h.flagged with }
    parked := fun htrue => absurd (hseeking.symm.trans htrue) (by simp)
    showPoint := fun _ => rfl
    sync := by
      refine h.sync.imp (fun hsync => ?_) fun hd => { hd with }
      rw [Nat.mod_add_mod, Nat.add_right_comm, Nat.add_assoc]
      exact hsync }

/-- The loop of `updateRenderList`, by induction on its iterations; it does not end before a slot
that is not `READY`. -/
theorem Ordered.renderOutputs (fuel : ℕ) : ∀ {s : State} {start shown : ℕ},
    s.Ordered cfg tasks waiting start shown → s.seeking = false →
      (s.renderOutputs cfg fuel).1.Consistent cfg ∧
        (shown ≤ fuel → (s.renderOutputs cfg fuel).2 = true →
          (s.renderOutputs cfg fuel).1.mOutput.status (s.renderOutputs cfg fuel).1.mOutputLoadPoint ≠
            .ready) := by
  induction fuel with
  | zero =>
    intro s start shown h hseeking
    refine ⟨⟨_, _, _, _, h⟩, fun hle _ hready => ?_⟩
    obtain rfl : shown = 0 := Nat.le_zero.mp hle
    rw [State.renderOutputs, ← h.showPoint hseeking] at hready
    simpa using h.outputs.ready.mem h.outputs.start_lt hready
  | succ fuel ih =>
    intro s start shown h hseeking
    rw [State.renderOutputs]
    split
    · rename_i hready
      obtain ⟨k, rfl⟩ : ∃ k, shown = k + 1 := by
        rw [← h.showPoint hseeking] at hready
        have hmem := h.outputs.ready.mem h.outputs.start_lt hready
        exact Nat.exists_eq_succ_of_ne_zero (by rintro rfl; simp at hmem)
      cases hrender : s.renderOutput cfg with
      | none => exact ⟨⟨_, _, _, _, h⟩, fun _ hfalse => absurd hfalse (by simp)⟩
      | some u =>
        obtain ⟨hu, hseeking'⟩ := h.renderOutput hseeking hrender
        obtain ⟨hconsistent, hdone⟩ := ih hu hseeking'
        exact ⟨hconsistent, fun hle => hdone (Nat.le_of_succ_le_succ hle)⟩
    · rename_i hready
      exact ⟨⟨_, _, _, _, h⟩, fun _ _ => hready⟩

section

variable (h : s.Ordered cfg tasks waiting start shown)
include h

/-- `updateRenderList` leaves no `READY` slot at the load point. -/
theorem Ordered.updateRenderList (hseeking : s.seeking = false) :
    (s.updateRenderList cfg).1.Consistent cfg ∧ ((s.updateRenderList cfg).2 = true →
      (s.updateRenderList cfg).1.mOutput.status (s.updateRenderList cfg).1.mOutputLoadPoint ≠
        .ready) := by
  obtain ⟨hconsistent, hdone⟩ := h.renderOutputs cfg.mOutputBufferNum hseeking
  exact ⟨hconsistent, hdone (by simpa using h.outputs.ready.length_le)⟩

variable {l : List Entry}

/-- The slots and the list change in a way that keeps the ring. -/
theorem Ordered.withOutputs {out : Slots}
    (houtputs : OutputRing cfg.mOutputBufferNum out s.thread.mOutputFillIdx s.thread.mOutputProcIdx
      (s.worker.taskSlots tasks) start shown s.thread.mbFlushPipelineInProcessing s.given s.readied)
    (hlisted : Listed cfg.mOutputBufferNum out l s.seeking) :
    { s with mOutput := out, mRenderList := l }.Ordered cfg tasks waiting start shown :=
  { h with
    outputs := houtputs
    listed := hlisted
    counted := { h.counted with }
    flagged := { h.flagged with }
    parked := fun hseeking hseek => { h.parked hseeking hseek with
      drained := { (h.parked hseeking hseek).drained with } }
    sync := h.sync.imp_right fun hd => { hd with } }

theorem Ordered.read (hseeking : s.seeking = false) :
    s.read.Ordered cfg tasks waiting start shown := by
  have hlisted := h.listed
  rw [State.read]
  split
  · split
    · exact h
    · exact { h with
        counted := { h.counted with }
        flagged := { h.flagged with }
        parked := fun htrue => absurd (hseeking.symm.trans htrue) (by simp)
        sync := h.sync.imp_right fun hd => { hd with } }
  · rename_i rest hl
    rw [hl] at hlisted
    exact h.withOutputs h.outputs (listed_remove [] hlisted fun _ _ => rfl)
  · rename_i i rest hl
    rw [hl] at hlisted
    have hi : s.mOutput.status i = .rendering :=
      hlisted.rendering hseeking i (mem_cons_self ..)
    refine h.withOutputs (h.outputs.retire (.inl hi) (.inl ⟨hi, hi⟩) rfl)
      (listed_remove [] hlisted fun j hj => Slots.buf_set_of_ne fun heq => ?_)
    exact hj (congrArg some heq.symm)

theorem Ordered.setEOS (hseeking : s.seeking = false)
    (hfrc : s.thread.mFrcChange = false ∧ s.thread.mNeedCheckFrc = false) :
    s.setEOS.Ordered cfg tasks waiting start shown := by
  rw [State.setEOS]
  split
  · exact h
  · exact { h with
      counted := { h.counted with }
      flagged := { h.flagged with
        flushing := fun _ => .inr (.inl rfl)
        idle := fun hflush _ => by
          refine h.flagged.idle hflush ?_
          rcases h.flagged.flushing hflush with hchange | heos | hseek
          · exact absurd hchange (by simp [hfrc.1])
          · exact h.flagged.eos heos
          · exact .inr (h.flagged.seek hseek)
        ended := fun _ => hfrc
        eos := fun _ => .inl rfl }
      parked := fun htrue => absurd (hseeking.symm.trans htrue) (by simp)
      loadPoint := fun hnot => absurd (.inl rfl) hnot
      sync := h.sync.imp_right fun hd => { hd with apart := .inl rfl } }

theorem Ordered.notifyCheckFrc (hapart : ¬s.Apart) :
    s.notifyCheckFrc.Ordered cfg tasks waiting start shown :=
  { h with
    counted := { h.counted with }
    flagged := { h.flagged with ended := fun htrue => absurd (.inl htrue) hapart }
    parked := fun htrue => absurd (.inr htrue) hapart
    sync := h.sync.imp_right fun hd => { hd with } }

/-- The client returns a buffer that it has. -/
theorem Ordered.signalBufferReturned {pos : ℕ} (hpos : pos < cfg.mOutputBufferNum)
    (howner : s.mOutput.owner pos = .client) (rendered dequeued : Bool) :
    (s.signalBufferReturned pos rendered dequeued).Ordered cfg tasks waiting start shown := by
  have hrendering := h.outputs.owned pos hpos (by simp [howner])
  have hnew : pos ∉ slotsOf s.mRenderList := fun hmem => by
    simp [h.listed.vpp pos hmem] at howner
  have hlisted : ∀ b, Listed cfg.mOutputBufferNum (s.mOutput.set pos b) s.mRenderList s.seeking := by
    intro b
    have hframe : ∀ i ∈ slotsOf s.mRenderList, (s.mOutput.set pos b).buf i = s.mOutput.buf i :=
      fun i hi => Slots.buf_set_of_ne fun heq => hnew (heq ▸ hi)
    exact ⟨h.listed.nodup, h.listed.lt,
      fun i hi => (congrArg VPPBuffer.owner (hframe i hi)).trans (h.listed.vpp i hi),
      fun hseeking i hi => (congrArg VPPBuffer.mStatus (hframe i hi)).trans
        (h.listed.rendering hseeking i hi)⟩
  rw [State.signalBufferReturned]
  split
  · exact h.withOutputs (h.outputs.retire (.inl hrendering) (.inl ⟨hrendering, hrendering⟩) rfl)
      (hlisted _)
  · exact h.withOutputs (h.outputs.retire (.inl hrendering) (.inr ⟨rfl, rfl⟩) rfl) (hlisted _)

end

/-! #### Seeking -/

/-- The slots of a sweep that owns what it releases are listed as before. -/
theorem listed_sweep {m : ℕ} {out : Slots} {seeking : Bool} (h : Listed m out l seeking)
    (release : VPPBuffer → Bool) : Listed m (out.sweep m release) l true where
  nodup := h.nodup
  lt := h.lt
  vpp i hi := by
    rw [Slots.owner, Slots.buf_sweep]
    split
    · rfl
    · exact h.vpp i hi
  rendering hfalse := absurd hfalse (by simp)

theorem inputs_dropBuffers {handed : List ℕ} {n fill proc held count : ℕ} {ins : Slots}
    (h : InputRing n ins fill proc held waiting handed count) :
    InputRing n (ins.sweep n dropsInput) fill proc held 0 handed count :=
  h.sweep _ (Nat.zero_le _)
    (fun i _ hi => by simp [dropsInput, show (ins.buf i).mStatus = .processing from hi])
    (Slots.has_sweep_nil
      (fun i _ hi => by simp [dropsInput, show (ins.buf i).mStatus = .loaded from hi]) (by decide))
    (fun i _ hi => (of_decide_eq_true hi).2)

section

variable (h : s.Ordered cfg tasks waiting start shown)
include h

theorem Ordered.outputs_dropBuffers {start' : ℕ} (hstart : start' < cfg.mOutputBufferNum) :
    OutputRing cfg.mOutputBufferNum (s.dropBuffers cfg).mOutput s.thread.mOutputFillIdx
      s.thread.mOutputProcIdx (s.worker.taskSlots tasks) start' 0
      s.thread.mbFlushPipelineInProcessing s.given s.readied := by
  refine h.outputs.sweep dropsOutput hstart (fun i hi hrel => ?_) fun i hi hready => ?_
  · have hkind := h.outputs.kinds i hi
    have hne := of_decide_eq_true hrel
    rw [Slots.status] at hkind ⊢
    cases hst : (s.mOutput.buf i).mStatus <;> simp_all
  · have hvpp : (s.mOutput.buf i).owner = .vpp := by
      by_contra hne
      simp [h.outputs.owned i hi hne] at hready
    simp [dropsOutput, show (s.mOutput.buf i).mStatus = .ready from hready, hvpp]

/-- A seek that has to wait for the worker. -/
theorem Ordered.seek_wait (hfound : s.processing cfg = true) :
    (s.seek cfg).Ordered cfg tasks 0 s.thread.mOutputFillIdx 0 := by
  rw [State.seek, if_pos hfound]
  exact {
    inputs := inputs_dropBuffers h.inputs
    outputs := h.outputs_dropBuffers h.outputs.fill_lt
    listed := listed_sweep h.listed dropsOutput
    counted := { h.counted with }
    flagged := {
      flushing := fun hflush => (h.flagged.flushing hflush).imp_right fun _ => .inr rfl
      idle := fun _ _ => rfl
      ended := h.flagged.ended
      seeking := fun _ => rfl
      eos := fun _ => .inr rfl
      seek := fun _ => rfl }
    parked := fun _ hfalse => absurd hfalse (by simp)
    loadPoint := fun hnot => absurd (.inr rfl) hnot
    showPoint := fun hfalse => absurd hfalse (by simp)
    sync := .inl (Nat.mod_eq_of_lt h.outputs.fill_lt).symm }

/-- A seek that finds nothing at the worker, while the thread is at the first slots. -/
theorem Ordered.seek_done (hseeking : s.seeking = false) (hfound : s.processing cfg = false)
    (hinput : s.thread.mInputProcIdx = 0) (houtput : s.thread.mOutputProcIdx = 0)
    (hslots : slotsOf s.mRenderList = []) (heos : s.thread.mEOS = false) : (s.seek cfg).Ordered cfg tasks 0 0 0 := by
  have hnone : tasks + s.kept = 0 := by
    by_contra hne
    obtain ⟨k, hk⟩ := Nat.exists_eq_succ_of_ne_zero hne
    have hfill : s.mInput.status s.thread.mInputFillIdx = .processing := by
      refine h.inputs.processing.status_of_mem ?_
      rw [hk, ring_succ h.inputs.fill_lt]
      exact List.mem_cons_self ..
    rw [State.processing, List.any_eq_false] at hfound
    exact hfound _ (List.mem_range.mpr h.inputs.fill_lt) (by simpa using hfill)
  obtain ⟨rfl, hkept⟩ := Nat.add_eq_zero_iff.mp hnone
  have hfill : s.thread.mOutputFillIdx = 0 := by
    have hproc := h.outputs.proc_eq
    rw [Worker.taskSlots_zero, Nat.add_zero, Nat.mod_eq_of_lt h.outputs.fill_lt] at hproc
    exact hproc.symm.trans houtput
  rw [State.seek, if_neg (by simp [hfound])]
  exact {
    inputs := inputs_dropBuffers h.inputs
    outputs := h.outputs_dropBuffers h.outputs.pos
    listed := by
      change Listed _ _ s.mRenderList s.seeking
      refine ⟨?_, ?_, ?_, ?_⟩ <;> rw [hslots] <;> simp
    counted := { h.counted with }
    flagged := {
      flushing := h.flagged.flushing
      idle := fun _ _ => rfl
      ended := fun hfalse => absurd hfalse (by simp)
      seeking := fun _ => rfl
      eos := fun htrue => absurd (heos.symm.trans htrue) (by simp)
      seek := h.flagged.seek }
    parked := fun htrue => absurd (hseeking.symm.trans htrue) (by simp)
    loadPoint := fun _ => by
      change 0 = (s.thread.mInputProcIdx + 0) % _
      rw [hinput, Nat.zero_mod]
    showPoint := fun _ => rfl
    sync := .inl (by
      change s.thread.mOutputFillIdx = _
      rw [hfill, Nat.zero_mod]) }

end

/-- The entries of the render list are released, after their slots have been. -/
theorem outputs_releaseAll {m fill proc busy start shown given : ℕ} {flush : Bool}
    {readied : List ℕ} : ∀ {out : Slots},
    OutputRing m out fill proc busy start shown flush given readied →
      (∀ i ∈ slotsOf l, out.status i = .free) →
      OutputRing m (l.foldl release out) fill proc busy start shown flush given readied := by
  induction l with
  | nil => exact fun h _ => h
  | cons e l ih =>
    intro out h hfree
    have hslot : ∀ j, e.slot = some j → out.status j = .free := fun j hj =>
      hfree j (by simp [slotsOf, hj])
    refine ih (outputs_release h fun j hj => .inr (hslot j hj)) fun i hi => ?_
    have hi' : out.status i = .free := hfree i (by
      rw [slotsOf, filterMap_cons]
      split
      · exact hi
      · exact mem_cons_of_mem _ hi)
    by_cases heq : e.slot = some i
    · rw [release, heq, Slots.status, Slots.buf_set_self]
      rfl
    · rw [Slots.status, release_frame heq]
      exact hi'

/-- The rest of `seek`. -/
theorem Ordered.seekEnd (h : s.Ordered cfg tasks waiting start shown) (hseeking : s.seeking = true)
    (hseek : s.thread.mSeek = false) :
    { s.flush cfg with seeking := false, ended := false }.Ordered cfg 0 0 0 0 := by
  obtain ⟨⟨rfl, rfl, hfirst, hinputFill, houtputFill, -⟩, hflush, heos, hchange, hneed⟩ :=
    h.parked hseeking hseek
  have hkept : s.kept = 0 := by rw [kept, if_pos hfirst]
  have hinputs := h.inputs
  rw [hkept] at hinputs
  have hprocessing : ∀ i < cfg.mInputBufferNum, s.mInput.status i ≠ .processing := fun i hi heq => by
    simpa using hinputs.processing.mem hi heq
  have hloaded : ∀ i < cfg.mInputBufferNum, s.mInput.status i ≠ .loaded := fun i hi heq => by
    simpa using hinputs.loaded.mem hi heq
  have hin := hinputs.sweep (fun b => decide (b.mStatus ≠ .free)) le_rfl
    (fun i hi heq => absurd heq (hprocessing i hi))
    (Slots.has_sweep_nil (fun i hi heq => absurd heq (hloaded i hi)) (by decide))
    (fun i _ hi => of_decide_eq_true hi)
  have hnot : ∀ i < cfg.mOutputBufferNum, s.mOutput.status i ≠ .processing := fun i hi heq => by
    simpa using h.outputs.processing.mem hi heq
  have hend : ∀ i < cfg.mOutputBufferNum, s.mOutput.status i ≠ .endFlag := fun i hi heq => by
    simpa [hflush] using (h.outputs.endFlag i hi).mp heq
  have hout := h.outputs.sweep (fun b => decide (b.mStatus ≠ .free ∧ b.owner = .vpp)) h.outputs.pos
    (fun i hi hrel => by
      have hkind := h.outputs.kinds i hi
      have hnot := hnot i hi
      have hend := hend i hi
      rw [Slots.status] at *
      cases hst : (s.mOutput.buf i).mStatus <;> simp_all)
    (fun i hi hready => by
      have hvpp : (s.mOutput.buf i).owner = .vpp := by
        by_contra hne
        simp [h.outputs.owned i hi hne] at hready
      simp [show (s.mOutput.buf i).mStatus = .ready from hready, hvpp])
  have hfree : ∀ i ∈ slotsOf s.mRenderList,
      (s.mOutput.sweep cfg.mOutputBufferNum fun b =>
        decide (b.mStatus ≠ .free ∧ b.owner = .vpp)).status i = .free := by
    intro i hi
    have hvpp : (s.mOutput.buf i).owner = .vpp := h.listed.vpp i hi
    rw [Slots.status, Slots.buf_sweep]
    by_cases hst : (s.mOutput.buf i).mStatus = .free
    · rw [if_neg (by simp [hst]), hst]
    · rw [if_pos ⟨h.listed.lt i hi, by simp [hst, hvpp]⟩]
      rfl
  exact {
    inputs := by
      change InputRing _ _ _ _ (0 + s.kept) _ _ _
      rw [hkept]
      exact hin
    outputs := outputs_releaseAll hout hfree
    listed := ⟨nodup_nil, by simp [slotsOf, State.flush], by simp [slotsOf, State.flush],
      by simp [slotsOf, State.flush]⟩
    counted := { h.counted with }
    flagged := {
      flushing := h.flagged.flushing
      idle := fun _ _ => rfl
      ended := fun hfalse => absurd hfalse (by simp)
      seeking := fun _ => rfl
      eos := fun htrue => absurd (heos.symm.trans htrue) (by simp)
      seek := fun htrue => absurd (hseek.symm.trans htrue) (by simp) }
    parked := fun hfalse => absurd hfalse (by simp)
    loadPoint := fun _ => by
      change 0 = (s.thread.mInputProcIdx + 0) % _
      simp [hinputs.proc_eq, hinputFill]
    showPoint := fun _ => rfl
    sync := .inl (by
      change s.thread.mOutputFillIdx = _
      rw [houtputFill, Nat.zero_mod]) }

theorem ordered_initial (h : Initial cfg s) : s.Ordered cfg 0 0 0 0 where
  inputs := by
    rw [kept, h.thread, h.handed]
    exact {
      fill_lt := h.inputNum
      proc_eq := (Nat.zero_mod _).symm
      processing := .nil fun i _ => by simp [h.inputs i]
      loaded := .nil fun i _ => by simp [h.inputs i]
      kinds := fun i _ => by simp [h.inputs i]
      sorted := by simp
      below := by simp
      follows := by simp [Slots.Follows, h.inputChanges] }
  outputs := by
    have hpos : 0 < cfg.mOutputBufferNum := Nat.zero_lt_of_lt h.outputNum
    rw [h.thread, h.readied]
    exact {
      fill_lt := hpos
      start_lt := hpos
      proc_eq := (Nat.zero_mod _).symm
      processing := .nil fun i _ => by simp [(h.outputs i).1]
      ready := .nil fun i _ => by simp [(h.outputs i).1]
      endFlag := fun i _ => by simp [(h.outputs i).1]
      kinds := fun i _ => by simp [(h.outputs i).1]
      owned := fun i _ hne => absurd (h.outputs i).2 hne
      sorted := by simp
      below := by simp
      suffix := nil_suffix
      follows := by simp [Slots.Follows, h.outputChanges] }
  listed := by
    rw [h.renderList]
    exact ⟨nodup_nil, by simp [slotsOf], by simp [slotsOf], by simp [slotsOf]⟩
  counted := {
    number := by rw [h.thread]; rfl
    index := fun _ => by rw [h.inputIndex, h.outputIndex]; rfl
    rate := h.outputNum
    updated := fun hfalse => absurd hfalse (by simp [h.thread]) }
  flagged := by
    constructor <;> simp [h.thread, h.seeking]
  parked hfalse := absurd hfalse (by simp [h.seeking])
  loadPoint _ := by rw [h.inputLoadPoint, h.thread, Nat.zero_mod]
  showPoint _ := h.outputLoadPoint.symm
  sync := .inl (by rw [h.thread, Nat.zero_mod])

end State

/-! ### Runs -/

/-- A step after which the player and the thread can still agree. -/
def Regular (cfg : Config) (s : State) : Op → Prop
  | .setDecoderBufferToVPP _ => s.ended = false
  | .setEOS => s.thread.mFrcChange = false ∧ s.thread.mNeedCheckFrc = false
  | .seek => s.processing cfg = true ∨ (s.thread.mInputProcIdx = 0 ∧ s.thread.mOutputProcIdx = 0 ∧
      slotsOf s.mRenderList = [] ∧ s.thread.mEOS = false)
  | .notifyCheckFrc => s.ended = false ∧ s.seeking = false
  | .threadLoop a => s.thread.mNeedCheckFrc = true → a.frcRate.value + 1 ≤ cfg.mOutputBufferNum
  | _ => True

instance (cfg : Config) (s : State) (op : Op) : Decidable (Regular cfg s op) :=
  match op with
  | .setDecoderBufferToVPP _ => inferInstanceAs (Decidable (s.ended = false))
  | .setEOS => inferInstanceAs (Decidable (_ ∧ _))
  | .seek => inferInstanceAs (Decidable (_ ∨ _))
  | .notifyCheckFrc => inferInstanceAs (Decidable (_ ∧ _))
  | .threadLoop _ => inferInstanceAs (Decidable (_ → _))
  | .clearInput | .updateRenderList | .read | .seekEnd | .signalBufferReturned .. => isTrue trivial

/-- Frames are handed to the worker in the order in which they were loaded, output slots become
`READY` in the order in which they were handed out, the indices point at the oldest slots, and
statuses change as they should. -/
structure InOrder (cfg : Config) (s : State) : Prop where
  handed : s.handed.Pairwise (· < ·)
  oldestLoaded : ∀ i < cfg.mInputBufferNum, s.mInput.status i = .loaded →
    s.mInput.status s.thread.mInputProcIdx = .loaded ∧
      s.mInput.number s.thread.mInputProcIdx ≤ s.mInput.number i
  readied : s.readied.Pairwise (· < ·)
  oldestReady : s.seeking = false → ∀ i < cfg.mOutputBufferNum, s.mOutput.status i = .ready →
    s.mOutput.status s.mOutputLoadPoint = .ready ∧
      s.mOutput.number s.mOutputLoadPoint ≤ s.mOutput.number i
  inputs : s.mInput.Follows inputChange
  outputs : s.mOutput.Follows outputChange

variable {cfg : Config} {s t : State}

theorem State.Consistent.step (h : s.Consistent cfg) {op : Op} (hregular : Regular cfg s op)
    (ht : step cfg s op = some t) : t.Consistent cfg := by
  have hall := h
  obtain ⟨tasks, waiting, start, shown, h⟩ := h
  have hplayer : ∀ {u : State}, (if s.seeking = true then none else some u) = some t →
      s.seeking = false ∧ u = t := fun heq => by
    obtain ⟨hseeking, hsome⟩ := ite_none_left_eq_some.mp heq
    exact ⟨by simpa using hseeking, some.inj hsome⟩
  cases op with
  | setDecoderBufferToVPP timeUs =>
    obtain ⟨hseeking, rfl⟩ := hplayer ht
    have hended : s.ended = false := hregular
    exact h.setDecoderBufferToVPP (by simp [Apart, hended, hseeking]) timeUs
  | clearInput =>
    obtain ⟨-, rfl⟩ := hplayer ht
    exact ⟨_, _, _, _, h.clearInput⟩
  | updateRenderList =>
    obtain ⟨hseeking, rfl⟩ := hplayer ht
    exact (h.updateRenderList hseeking).1
  | read =>
    obtain ⟨hseeking, rfl⟩ := hplayer ht
    exact ⟨_, _, _, _, h.read hseeking⟩
  | setEOS =>
    obtain ⟨hseeking, rfl⟩ := hplayer ht
    exact ⟨_, _, _, _, h.setEOS hseeking hregular⟩
  | seek =>
    obtain ⟨hseeking, rfl⟩ := hplayer ht
    rcases hfound : s.processing cfg with _ | _
    · obtain ⟨hinput, houtput, hslots, heos⟩ := hregular.resolve_left (by simp [hfound])
      exact ⟨_, _, _, _, h.seek_done hseeking hfound hinput houtput hslots heos⟩
    · exact ⟨_, _, _, _, h.seek_wait hfound⟩
  | seekEnd =>
    obtain ⟨⟨hseeking, hseek⟩, hsome⟩ := ite_none_right_eq_some.mp ht
    obtain rfl := some.inj hsome
    exact ⟨_, _, _, _, h.seekEnd hseeking hseek⟩
  | signalBufferReturned pos rendered dequeued =>
    obtain ⟨⟨hpos, howner⟩, hsome⟩ := ite_none_right_eq_some.mp ht
    obtain rfl := some.inj hsome
    exact ⟨_, _, _, _, h.signalBufferReturned hpos howner rendered dequeued⟩
  | notifyCheckFrc =>
    obtain rfl := some.inj ht
    exact ⟨_, _, _, _, h.notifyCheckFrc (by simp [Apart, hregular.1, hregular.2])⟩
  | threadLoop a => exact hall.threadLoop hregular ht

theorem State.Consistent.inOrder (h : s.Consistent cfg) : InOrder cfg s := by
  obtain ⟨tasks, waiting, start, shown, h⟩ := h
  exact {
    handed := (pairwise_append.mp h.inputs.sorted).1
    oldestLoaded := fun _ hi hloaded => h.inputs.oldest hi hloaded
    readied := (pairwise_append.mp h.outputs.sorted).1
    oldestReady := fun hseeking i hi hready => h.showPoint hseeking ▸ h.outputs.oldest hi hready
    inputs := h.inputs.follows
    outputs := h.outputs.follows }

theorem frames_in_order (hinit : Initial cfg s) (hrun : Reach (step cfg) (Regular cfg) s t) :
    InOrder cfg t :=
  have hconsistent : t.Consistent cfg := hrun.invariant ⟨0, 0, 0, 0, State.ordered_initial hinit⟩
    fun _ _ _ h hregular ht => h.step hregular ht
  hconsistent.inOrder

/-- Two frames, a seek that waits for the thread, and a third frame. -/
theorem frames_in_order_seek :
    ∃ t, InOrder (validateVideoInfo 3 .x1) t ∧ t.handed = [0, 1, 2] ∧ t.readied = [0, 1] := by
  obtain ⟨t, hrun, ht⟩ : ∃ t, Reach (step (validateVideoInfo 3 .x1))
      (Regular (validateVideoInfo 3 .x1)) (started false .x1) t ∧
        t.handed = [0, 1, 2] ∧ t.readied = [0, 1] :=
    Reach.exists_of_decide (fun _ _ h => h)
      [.setDecoderBufferToVPP 0, .threadLoop ⟨false, .x1, [], true⟩, .setDecoderBufferToVPP 33333,
        .threadLoop ⟨false, .x1, [.dataRendering], true⟩,
        .threadLoop ⟨false, .x1, [.ok, .ok], true⟩, .updateRenderList, .seek,
        .threadLoop ⟨false, .x1, [], true⟩, .threadLoop ⟨false, .x1, [.ok], true⟩, .seekEnd,
        .setDecoderBufferToVPP 500000, .threadLoop ⟨false, .x1, [], true⟩] (by decide)
  exact ⟨t, frames_in_order (initial_started 3 false .x1) hrun, ht⟩

/-- At the end of the stream an output slot goes from `FREE` to `END_FLAG`, which is none of the
transitions that `VPPBuffer.h` lists. -/
theorem end_flag_undocumented :
    ∃ t, Reach (step (validateVideoInfo 3 .x1)) (fun _ _ => True) (started false .x1) t ∧
      ¬t.mOutput.Follows documentedOutput :=
  Reach.exists_of_decide (fun _ _ h => h) [.setEOS, .threadLoop ⟨false, .x1, [], true⟩]
    (by decide)

end HardwareIntel.Vpp
