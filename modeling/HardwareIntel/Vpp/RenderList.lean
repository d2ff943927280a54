import HardwareIntel.Vpp.FrameOrder
import HardwareIntel.Vpp.TimeStamps

/-!
# What the player gets to render

`updateRenderList` puts the output slots that became `READY` among the decoded frames: over the frame
with the same time stamp, before the next one if it is a frame in between, and nowhere if it is too
late. The player takes the buffers from the front. As long as there is no seek, it gets every time
stamp of the decoded frames once, in order, and the slots are either listed once or released.

A time stamp of `-1` stands for none and makes `updateRenderList` fail, also where it has been computed
for an output slot. The frames of a run are spaced so that this does not happen.
-/

namespace HardwareIntel.Vpp

open List Option

/-- A run with the time stamps of the decoded frames and of the buffers that `read` has returned. -/
structure Played where
  state : State
  decoded : List ℤ
  returned : List ℤ

namespace Played

variable (cfg : Config)

/-- What `read` takes from the list. -/
def front (s : State) : List ℤ := (s.mRenderList.take 1).map Entry.time

/-- A step that is recorded. -/
def step (p : Played) (op : Op) : Option Played :=
  (Vpp.step cfg p.state op).map fun t =>
    { state := t
      decoded := match op with
        | .setDecoderBufferToVPP timeUs => p.decoded ++ [timeUs]
        | _ => p.decoded
      returned := match op with
        | .read => p.returned ++ front p.state
        | _ => p.returned }

/-- No output slot has become `READY` with the time stamp `-1`. -/
def OutputsStamped (s : State) : Prop :=
  ∀ i < cfg.mOutputBufferNum, s.mOutput.status i = .ready → (s.mOutput.buf i).mTimeUs ≠ -1

/-- Time stamps that increase, and no seek. -/
def Increasing (p : Played) : Op → Prop
  | .setDecoderBufferToVPP timeUs => ∀ time ∈ p.decoded, time < timeUs
  | .seek | .seekEnd => False
  | _ => True

instance (p : Played) (op : Op) : Decidable (Increasing p op) :=
  match op with
  | .setDecoderBufferToVPP timeUs => inferInstanceAs (Decidable (∀ time ∈ p.decoded, time < timeUs))
  | .seek | .seekEnd => isFalse id
  | .clearInput | .updateRenderList | .read | .setEOS | .signalBufferReturned .. | .notifyCheckFrc
  | .threadLoop _ => isTrue trivial

/-- Every frame is spaced for `factor`, and no new frame rate conversion has a higher one. -/
def Spaces (factor : ℕ) (p : Played) : Op → Prop
  | .setDecoderBufferToVPP timeUs => Spaced factor timeUs
  | .threadLoop a => p.state.thread.mNeedCheckFrc = true → a.frcRate.value ≤ factor
  | _ => True

instance (factor : ℕ) (p : Played) (op : Op) : Decidable (Spaces factor p op) :=
  match op with
  | .setDecoderBufferToVPP timeUs => inferInstanceAs (Decidable (Spaced factor timeUs))
  | .threadLoop a => inferInstanceAs
      (Decidable (p.state.thread.mNeedCheckFrc = true → a.frcRate.value ≤ factor))
  | .clearInput | .updateRenderList | .read | .setEOS | .seek | .seekEnd | .notifyCheckFrc
  | .signalBufferReturned .. => isTrue trivial

/-- The time stamps in the render list. -/
def times (s : State) : List ℤ := s.mRenderList.map Entry.time

/-- A slot that was `READY` is listed or released. -/
def Settled (s : State) (i : ℕ) : Prop :=
  s.mOutput.status i = .rendering ∧ (slotsOf s.mRenderList).count i = 1 ∨
    s.mOutput.status i = .free ∧ i ∉ slotsOf s.mRenderList

/-- `updateRenderList` settles the slots that are `READY` from its load point on. -/
def Settles (p : Played) : Prop :=
  ∃ n ≤ cfg.mOutputBufferNum, ∃ t, p.state.updateRenderList cfg = (t, true) ∧
    t.mOutputLoadPoint = (p.state.mOutputLoadPoint + n) % cfg.mOutputBufferNum ∧
    t.mOutput.status t.mOutputLoadPoint ≠ .ready ∧
    ∀ i ∈ ring cfg.mOutputBufferNum p.state.mOutputLoadPoint n,
      p.state.mOutput.status i = .ready ∧ Settled t i

/-- The buffers come in order, every decoded frame's time stamp once, and the slots are settled. -/
structure Lawful (p : Played) : Prop where
  increasing : p.returned.Pairwise (· < ·)
  once : ∀ time ∈ p.decoded, p.returned.count time + (times p.state).count time = 1
  settled : Settles cfg p

end Played

/-! ### The search -/

namespace State

variable {cfg : Config} {s t : State}

theorem findEntry_ne_none {stop : ℤ → Bool} {l : List Entry} (h : ∀ e ∈ l, e.time ≠ -1) :
    findEntry stop l ≠ none := by
  induction l with
  | nil => exact some_ne_none _
  | cons e l ih =>
    have hrest := ih fun e' he' => h e' (mem_cons_of_mem _ he')
    rw [findEntry, if_neg (h e mem_cons_self)]
    split
    · exact some_ne_none _
    · rw [ne_eq, map_eq_none_iff]
      exact hrest

variable {i : ℕ} {returned decoded : List ℤ} {out : Slots} {before : List Entry}

/-- The search passes the entries that do not stop it. -/
theorem findEntry_before {stop : ℤ → Bool} {l after : List Entry}
    (h : findEntry stop l = some (before, after)) :
    (∀ e ∈ before, stop e.time = false) ∧ ∀ e ∈ after.head?, stop e.time = true := by
  induction l generalizing before after with
  | nil =>
    cases h
    exact ⟨fun e he => absurd he not_mem_nil, fun e he => nomatch he⟩
  | cons e l ih =>
    rw [findEntry] at h
    split_ifs at h with hnone hstop
    · cases h
      refine ⟨fun e he => absurd he not_mem_nil, fun e' he' => ?_⟩
      cases he'
      exact hstop
    · obtain ⟨⟨before', after'⟩, hfind, heq⟩ := map_eq_some_iff.mp h
      cases heq
      obtain ⟨hbefore, hafter⟩ := ih hfind
      refine ⟨fun e' he' => ?_, hafter⟩
      rcases mem_cons.mp he' with rfl | he'
      · exact Bool.not_eq_true _ ▸ hstop
      · exact hbefore e' he'

/-! ### The slots that are shown -/

/-- A slot that is not the processor's is rendered. -/
def Owned (out : Slots) : Prop := ∀ i, out.owner i ≠ .vpp → out.status i = .rendering

/-- The slots in the list are rendered, and a slot that is not the processor's is rendered. -/
structure Shown (cfg : Config) (s : State) : Prop where
  listed : Listed cfg.mOutputBufferNum s.mOutput s.mRenderList false
  owned : Owned s.mOutput
  point : s.mOutputLoadPoint < cfg.mOutputBufferNum
  notSeeking : s.seeking = false
  proc : s.thread.mOutputProcIdx < cfg.mOutputBufferNum

/-- What the thread leaves as it is. -/
structure Keeps (cfg : Config) (s t : State) : Prop where
  list : t.mRenderList = s.mRenderList
  point : t.mOutputLoadPoint = s.mOutputLoadPoint
  seeking : t.seeking = s.seeking
  owner : t.mOutput.owner = s.mOutput.owner
  rendering : ∀ i, s.mOutput.status i = .rendering → t.mOutput.status i = .rendering
  proc : s.thread.mOutputProcIdx < cfg.mOutputBufferNum →
    t.thread.mOutputProcIdx < cfg.mOutputBufferNum

theorem Keeps.refl (s : State) : Keeps cfg s s := ⟨rfl, rfl, rfl, rfl, fun _ => id, id⟩

theorem Keeps.trans {u : State} (h : Keeps cfg s t) (h' : Keeps cfg t u) : Keeps cfg s u where
  list := h'.list.trans h.list
  point := h'.point.trans h.point
  seeking := h'.seeking.trans h.seeking
  owner := h'.owner.trans h.owner
  rendering i hi := h'.rendering i (h.rendering i hi)
  proc hs := h'.proc (h.proc hs)

/-- Slots that are not rendered change. -/
theorem Keeps.of_moved {new : VPPBufferStatus} {cells : List ℕ} (hlist : t.mRenderList = s.mRenderList)
    (hpoint : t.mOutputLoadPoint = s.mOutputLoadPoint) (hseeking : t.seeking = s.seeking)
    (howner : t.mOutput.owner = s.mOutput.owner) (hmoved : Slots.Moved cells new s.mOutput t.mOutput)
    (hcells : ∀ i ∈ cells, s.mOutput.status i ≠ .rendering)
    (hproc : s.thread.mOutputProcIdx < cfg.mOutputBufferNum →
      t.thread.mOutputProcIdx < cfg.mOutputBufferNum) : Keeps cfg s t where
  list := hlist
  point := hpoint
  seeking := hseeking
  owner := howner
  rendering i hi := (hmoved.of_notMem i fun hmem => hcells i hmem hi).trans hi
  proc := hproc

theorem Shown.keeps (h : s.Shown cfg) (hkeeps : Keeps cfg s t) : t.Shown cfg where
  listed := by
    have hlisted := h.listed
    rw [hkeeps.list]
    exact ⟨hlisted.nodup, hlisted.lt, fun i hi => hkeeps.owner ▸ hlisted.vpp i hi,
      fun hseeking i hi => hkeeps.rendering i (hlisted.rendering hseeking i hi)⟩
  owned i hi := hkeeps.rendering i (h.owned i (hkeeps.owner ▸ hi))
  point := hkeeps.point ▸ h.point
  notSeeking := hkeeps.seeking.trans h.notSeeking
  proc := hkeeps.proc h.proc

/-! ### The thread -/

theorem keeps_checkFrc (s : State) (a : Answers) : Keeps cfg s (s.checkFrc a) := by
  rw [checkFrc]
  split_ifs <;> exact ⟨rfl, rfl, rfl, rfl, fun _ => id, id⟩

theorem releaseInput_keeps (cfg : Config) (s : State) :
    Keeps cfg s (s.releaseInput cfg) ∧ (s.releaseInput cfg).mOutput = s.mOutput ∧
      (s.releaseInput cfg).thread.mOutputFillIdx = s.thread.mOutputFillIdx := by
  rw [releaseInput]
  split <;> exact ⟨⟨rfl, rfl, rfl, rfl, fun _ => id, id⟩, rfl, rfl⟩

/-- The thread is done with the end flag. -/
theorem keeps_takeEndFlag (h : s.mOutput.status s.thread.mOutputFillIdx = .endFlag) :
    Keeps cfg s s.takeEndFlag.completeFlush := by
  refine @Keeps.of_moved cfg s _ .free [s.thread.mOutputFillIdx] rfl rfl rfl
    (Slots.owner_set rfl) (Slots.moved_set rfl) (fun i hi => ?_) fun hproc => ?_
  · rw [mem_singleton.mp hi, h]
    decide
  · rw [completeFlush, takeEndFlag]
    split
    · exact Nat.zero_lt_of_lt hproc
    · exact hproc

/-- The thread gets slots back that were in processing. -/
theorem keeps_takeFilled {n : ℕ}
    (h : ∀ i ∈ ring cfg.mOutputBufferNum s.thread.mOutputFillIdx n,
      s.mOutput.status i = .processing) : Keeps cfg s (s.takeFilled cfg n) := by
  refine Keeps.of_moved rfl rfl rfl (Slots.owner_showFilled n) (Slots.moved_showFilled n)
    (fun i hi => ?_) id
  rw [h i hi]
  decide

theorem keeps_finishTask {l : List ℕ} (h : s.getBufForFirmwareOutput cfg = some l) :
    Keeps cfg s (s.finishTask cfg l.length) := by
  obtain ⟨hkeeps, hout, hfill⟩ := releaseInput_keeps cfg s.filled
  have hfilled : Keeps cfg s (s.filled.releaseInput cfg) :=
    { hkeeps with }
  generalize hu : s.filled.releaseInput cfg = u at hfilled hout hfill
  refine hfilled.trans ?_
  have hstatus : ∀ i, u.mOutput.status i = s.mOutput.status i := by
    rw [hout]
    exact fun i => rfl
  have hfill' : u.thread.mOutputFillIdx = s.thread.mOutputFillIdx := hfill
  by_cases hend : u.mOutput.status u.thread.mOutputFillIdx = .endFlag
  · rw [finishTask_of_endFlag hu hend]
    exact keeps_takeEndFlag hend
  · by_cases hprocessing : u.mOutput.status u.thread.mOutputFillIdx = .processing
    · rw [finishTask_of_processing hu hprocessing]
      refine keeps_takeFilled fun i hi => ?_
      rw [hstatus]
      rcases getBufForFirmwareOutput_eq_some h with hflag | ⟨hring, -, -, hall⟩
      · rw [hstatus, hfill'] at hend
        exact absurd hflag hend
      · rw [hfill', ← hring] at hi
        exact hall i hi
    · rw [finishTask_of_other hu hend hprocessing]
      exact Keeps.refl u

theorem keeps_fillTasks {fills : List FillStatus} {bPending : Bool} {s : State}
    (h : s.fillTasks cfg fills bPending = some t) : Keeps cfg s t :=
  fillTasks_rule (fun hs _ hbuf => hs.trans (keeps_finishTask hbuf)) (Keeps.refl s) h

theorem keeps_handFrame {n : ℕ}
    (hfree : ∀ i ∈ ring cfg.mOutputBufferNum s.thread.mOutputProcIdx n,
      s.mOutput.status i = .free) : Keeps cfg s (s.handFrame cfg n) := by
  refine Keeps.of_moved rfl rfl rfl (Slots.owner_giveSlots _) (Slots.moved_giveSlots _)
    (fun i hi => ?_) fun hproc => Nat.mod_lt _ (Nat.zero_lt_of_lt hproc)
  rw [hfree i hi]
  decide

theorem keeps_handEndFlag (hfree : s.mOutput.status s.thread.mOutputProcIdx = .free) :
    Keeps cfg s s.handEndFlag := by
  refine @Keeps.of_moved cfg s _ .endFlag [s.thread.mOutputProcIdx] rfl rfl rfl
    (Slots.owner_set rfl) (Slots.moved_set rfl) (fun i hi => ?_) id
  rw [mem_singleton.mp hi, hfree]
  decide

/-- The worker is given slots that are free. The end flag goes to the first one. -/
theorem keeps_processNext (hproc : s.thread.mOutputProcIdx < cfg.mOutputBufferNum)
    (process : Bool) : Keeps cfg s (s.processNext cfg process) := by
  rw [State.processNext]
  split
  · generalize ((!decide (s.mInput.status s.thread.mInputProcIdx = .loaded) &&
      (s.thread.mEOS || s.thread.mSeek) || s.thread.mFrcChange) &&
        !s.thread.mbFlushPipelineInProcessing) = bFlush
    cases hbuf : s.getBufForFirmwareInput cfg bFlush with
    | none => exact Keeps.refl s
    | some procBufNum =>
      obtain ⟨hnum, hfree⟩ := getBufForFirmwareInput_eq_some hbuf
      cases process with
      | false => exact Keeps.refl s
      | true =>
        cases bFlush with
        | true =>
          rw [if_pos rfl] at hnum
          subst hnum
          rw [ring_one hproc] at hfree
          exact keeps_handEndFlag (hfree _ (mem_singleton_self _))
        | false => exact keeps_handFrame hfree
  · exact Keeps.refl s

theorem keeps_threadLoop {a : Answers} (hproc : s.thread.mOutputProcIdx < cfg.mOutputBufferNum)
    (ht : s.threadLoop cfg a = some t) : Keeps cfg s t := by
  obtain ⟨u, hu, rfl⟩ := map_eq_some_iff.mp ht
  have hfill := (keeps_checkFrc s a).trans (keeps_fillTasks hu)
  exact hfill.trans (keeps_processNext (hfill.proc hproc) a.process)

/-! ### One output slot -/

/-- The ways a `READY` slot can go: it is dropped, it replaces an entry with its time stamp, or it is
put before a later entry that is not the first. -/
theorem placeOutput_cases (s : State) (pos : ℕ) (before after : List Entry)
    (hafter : ∀ e ∈ after.head?, (s.mOutput.buf pos).mTimeUs ≤ e.time) :
    let new : Entry := ⟨(s.mOutput.buf pos).mTimeUs, some pos⟩
    s.placeOutput pos before after = { s with mOutput := release s.mOutput new } ∨
      ∃ e rest, after = e :: rest ∧
        ((new.time = e.time ∧ s.placeOutput pos before after = { s with
            mOutput := (release s.mOutput e).set pos
              { (release s.mOutput e).buf pos with mStatus := .rendering }
            mRenderList := before ++ new :: rest }) ∨
          (before ≠ [] ∧ new.time < e.time ∧ s.placeOutput pos before after = { s with
            mOutput := s.mOutput.set pos { s.mOutput.buf pos with mStatus := .rendering }
            mRenderList := before ++ new :: e :: rest })) := by
  intro new
  cases after with
  | nil => exact Or.inl rfl
  | cons e rest =>
    have hle : (s.mOutput.buf pos).mTimeUs ≤ e.time := hafter e rfl
    by_cases hlate : before = [] ∧ (s.mOutput.buf pos).mTimeUs < e.time
    · left
      simp only [placeOutput, if_pos hlate]
      rfl
    · right
      refine ⟨e, rest, rfl, ?_⟩
      by_cases hsame : (s.mOutput.buf pos).mTimeUs = e.time
      · left
        refine ⟨hsame, ?_⟩
        simp only [placeOutput, if_neg hlate, if_pos hsame]
        rfl
      · right
        have hlt : (s.mOutput.buf pos).mTimeUs < e.time := lt_of_le_of_ne hle hsame
        refine ⟨fun hbefore => hlate ⟨hbefore, hlt⟩, hlt, ?_⟩
        simp only [placeOutput, if_neg hlate, if_neg hsame, if_pos hlt]
        rfl

/-- The buffer of the slot at the load point. -/
def shownEntry (s : State) : Entry :=
  ⟨(s.mOutput.buf s.mOutputLoadPoint).mTimeUs, some s.mOutputLoadPoint⟩

/-- The slot at the load point becomes `RENDERING`. -/
def rendered (out : Slots) (pos : ℕ) : Slots :=
  out.set pos { out.buf pos with mStatus := .rendering }

/-- What one iteration of `updateRenderList` does with the slot at the load point. -/
inductive Placed (s t : State) : Prop
  | dropped (hout : t.mOutput = release s.mOutput s.shownEntry)
      (hlist : t.mRenderList = s.mRenderList)
  | replaced (before : List Entry) (e : Entry) (rest : List Entry)
      (hlist : s.mRenderList = before ++ e :: rest) (htime : s.shownEntry.time = e.time)
      (hout : t.mOutput = rendered (release s.mOutput e) s.mOutputLoadPoint)
      (hnew : t.mRenderList = before ++ s.shownEntry :: rest)
  | inserted (before : List Entry) (e : Entry) (rest : List Entry)
      (hlist : s.mRenderList = before ++ e :: rest) (hfirst : before ≠ [])
      (hbefore : ∀ e' ∈ before, e'.time < s.shownEntry.time) (hafter : s.shownEntry.time < e.time)
      (hout : t.mOutput = rendered s.mOutput s.mOutputLoadPoint)
      (hnew : t.mRenderList = before ++ s.shownEntry :: e :: rest)

/-- An iteration succeeds if all time stamps are there. -/
theorem renderOutput_placed (hnew : s.shownEntry.time ≠ -1)
    (hlist : ∀ e ∈ s.mRenderList, e.time ≠ -1) :
    ∃ t, s.renderOutput cfg = some t ∧ Placed s t ∧
      t = { s with
        mOutput := t.mOutput
        mRenderList := t.mRenderList
        mOutputLoadPoint := (s.mOutputLoadPoint + 1) % cfg.mOutputBufferNum } := by
  generalize hstop : (fun timeRenderList : ℤ =>
    if s.worker.mFrcRate = .x1 then decide (s.shownEntry.time = timeRenderList)
    else decide (s.shownEntry.time ≤ timeRenderList)) = stop
  have hle : ∀ time, stop time = true → s.shownEntry.time ≤ time := by
    intro time
    rw [← hstop]
    split_ifs with hrate
    · exact fun h => (of_decide_eq_true h).le
    · exact of_decide_eq_true
  have hlt : ∀ time time', stop time = true → s.shownEntry.time < time → stop time' = false →
      time' < s.shownEntry.time := by
    intro time time'
    rw [← hstop]
    split_ifs with hrate
    · exact fun h hne => absurd (of_decide_eq_true h) hne.ne
    · exact fun _ _ h => not_le.mp (of_decide_eq_false h)
  obtain ⟨⟨before, after⟩, hfind⟩ :=
    ne_none_iff_exists'.mp (@findEntry_ne_none stop _ hlist)
  have hparts := findEntry_append hfind
  obtain ⟨hbefore, hafter⟩ := findEntry_before hfind
  have hrender : s.renderOutput cfg = some { s.placeOutput s.mOutputLoadPoint before after with
      mOutputLoadPoint := (s.mOutputLoadPoint + 1) % cfg.mOutputBufferNum } := by
    refine (if_neg hnew).trans ?_
    change (findEntry (fun timeRenderList : ℤ =>
      if s.worker.mFrcRate = .x1 then decide (s.shownEntry.time = timeRenderList)
      else decide (s.shownEntry.time ≤ timeRenderList)) s.mRenderList).map _ = _
    rw [hstop, hfind]
    rfl
  refine ⟨_, hrender, ?_⟩
  rcases placeOutput_cases s s.mOutputLoadPoint before after
    (fun e he => hle e.time (hafter e he)) with hplace | ⟨e, rest, rfl, hrest⟩
  · rw [hplace]
    exact ⟨.dropped rfl rfl, rfl⟩
  · have hstopped := hafter e rfl
    rcases hrest with ⟨htime, hplace⟩ | ⟨hfirst, htime, hplace⟩
    · rw [hplace]
      exact ⟨.replaced before e rest hparts.symm htime rfl rfl, rfl⟩
    · rw [hplace]
      refine ⟨.inserted before e rest hparts.symm hfirst (fun e' he' => ?_) htime rfl rfl, rfl⟩
      exact hlt e.time e'.time hstopped htime (hbefore e' he')

/-! #### The slots -/

theorem Owned.set (h : Owned out) {b : VPPBuffer} (hb : b.owner ≠ .vpp → b.mStatus = .rendering)
    (pos : ℕ) : Owned (out.set pos b) := by
  intro i
  by_cases hi : i = pos
  · subst hi
    rw [Slots.owner, Slots.status, Slots.buf_set_self]
    exact hb
  · rw [Slots.owner, Slots.status, Slots.buf_set_of_ne hi]
    exact h i

theorem Owned.release (h : Owned out) (e : Entry) : Owned (State.release out e) := by
  rw [State.release]
  split
  · exact h
  · exact h.set (fun hne => absurd rfl hne) _

theorem Owned.rendered (h : Owned out) (pos : ℕ) : Owned (State.rendered out pos) :=
  h.set (fun _ => rfl) pos

/-- The entries of other slots leave a slot alone. -/
theorem Shown.release_ready (h : s.Shown cfg) {e : Entry} {rest : List Entry}
    (hlist : s.mRenderList = before ++ e :: rest) (hi : s.mOutput.status i = .ready) :
    (release s.mOutput e).buf i = s.mOutput.buf i := by
  refine release_frame fun heq => ?_
  have hmem : i ∈ slotsOf s.mRenderList := by
    rw [hlist, slotsOf_append, mem_append]
    exact .inr (by simp [slotsOf, heq])
  rw [h.listed.rendering rfl i hmem] at hi
  cases hi

/-- An iteration keeps the slots in the list. -/
theorem Shown.placed (h : s.Shown cfg) (hready : s.mOutput.status s.mOutputLoadPoint = .ready)
    (hplaced : Placed s t) (ht : t = { s with
        mOutput := t.mOutput
        mRenderList := t.mRenderList
        mOutputLoadPoint := (s.mOutputLoadPoint + 1) % cfg.mOutputBufferNum }) : t.Shown cfg := by
  have hvpp : s.mOutput.owner s.mOutputLoadPoint = .vpp := by
    by_contra hne
    rw [h.owned _ hne] at hready
    cases hready
  have hlisted := h.listed
  have hparts : Listed cfg.mOutputBufferNum t.mOutput t.mRenderList false ∧ Owned t.mOutput := by
    cases hplaced with
    | dropped hout hlist =>
      rw [hout, hlist]
      refine ⟨?_, Owned.release h.owned _⟩
      exact hlisted.of_moved (Slots.moved_set (i := s.mOutputLoadPoint) rfl)
        (Slots.owner_set hvpp.symm) (by simp [hready])
    | replaced before e rest hlist htime hout hnew =>
      have hbuf := h.release_ready hlist hready
      rw [hlist] at hlisted
      rw [hout, hnew]
      refine ⟨listed_insert (listed_remove before hlisted fun j hj => release_frame hj) h.point ?_
        rfl ?_ _, (Owned.release h.owned _).rendered _⟩
      · exact (congrArg VPPBuffer.mStatus hbuf).trans hready
      · exact (congrArg VPPBuffer.owner hbuf).trans hvpp
    | inserted before e rest hlist hfirst hbefore hafter hout hnew =>
      rw [hlist] at hlisted
      rw [hout, hnew]
      refine ⟨listed_insert hlisted h.point hready ?_ ?_ _, Owned.rendered h.owned _⟩
      · rfl
      · exact hvpp
  rw [ht]
  exact ⟨hparts.1, hparts.2, Nat.mod_lt _ (Nat.zero_lt_of_lt h.point), h.notSeeking, h.proc⟩

theorem mem_slotsOf_append {e : Entry} {rest : List Entry} :
    i ∈ slotsOf (before ++ e :: rest) ↔ e.slot = some i ∨ i ∈ slotsOf (before ++ rest) := by
  simp only [slotsOf, mem_filterMap, mem_append, mem_cons]
  constructor
  · rintro ⟨e', hbefore | rfl | hrest, hslot⟩
    · exact Or.inr ⟨e', Or.inl hbefore, hslot⟩
    · exact Or.inl hslot
    · exact Or.inr ⟨e', Or.inr hrest, hslot⟩
  · rintro (hslot | ⟨e', hbefore | hrest, hslot⟩)
    · exact ⟨e, Or.inr (Or.inl rfl), hslot⟩
    · exact ⟨e', Or.inl hbefore, hslot⟩
    · exact ⟨e', Or.inr (Or.inr hrest), hslot⟩

theorem settled_iff (h : s.Shown cfg) : Played.Settled s i ↔
    s.mOutput.status i = .rendering ∧ i ∈ slotsOf s.mRenderList ∨
      s.mOutput.status i = .free ∧ i ∉ slotsOf s.mRenderList := by
  refine or_congr (and_congr_right fun _ => ?_) Iff.rfl
  constructor
  · intro hcount
    exact count_pos_iff.mp (hcount ▸ Nat.one_pos)
  · exact count_eq_one_of_mem h.listed.nodup

theorem status_rendered {pos : ℕ} :
    (rendered out pos).status i = if i = pos then .rendering else out.status i := by
  rw [Slots.status, rendered]
  split_ifs with hi
  · rw [hi, Slots.buf_set_self]
  · rw [Slots.buf_set_of_ne hi]
    rfl

theorem status_release {e : Entry} :
    (release out e).status i = if e.slot = some i then .free else out.status i := by
  split_ifs with hi
  · rw [release, hi]
    rw [Slots.status, Slots.buf_set_self]
    rfl
  · exact congrArg VPPBuffer.mStatus (release_frame hi)

/-- An iteration settles its slot. -/
theorem Shown.settled_point (h : s.Shown cfg)
    (hready : s.mOutput.status s.mOutputLoadPoint = .ready) (ht : t.Shown cfg)
    (hplaced : Placed s t) : Played.Settled t s.mOutputLoadPoint := by
  rw [settled_iff ht]
  cases hplaced with
  | dropped hout hlist =>
    right
    have hslot : s.shownEntry.slot = some s.mOutputLoadPoint := rfl
    rw [hout, hlist, status_release, if_pos hslot]
    refine ⟨rfl, fun hmem => ?_⟩
    rw [h.listed.rendering rfl _ hmem] at hready
    cases hready
  | replaced before e rest hlist htime hout hnew =>
    left
    rw [hout, hnew, status_rendered, if_pos rfl, mem_slotsOf_append]
    exact ⟨rfl, Or.inl rfl⟩
  | inserted before e rest hlist hfirst hbefore hafter hout hnew =>
    left
    rw [hout, hnew, status_rendered, if_pos rfl, mem_slotsOf_append]
    exact ⟨rfl, Or.inl rfl⟩

/-- An iteration leaves settled slots settled. -/
theorem Shown.settled_other (h : s.Shown cfg) (ht : t.Shown cfg) (hplaced : Placed s t)
    (hi : i ≠ s.mOutputLoadPoint) (hsettled : Played.Settled s i) : Played.Settled t i := by
  have hne : s.shownEntry.slot ≠ some i := fun heq => hi (some.inj heq).symm
  rw [settled_iff h] at hsettled
  rw [settled_iff ht]
  cases hplaced with
  | dropped hout hlist =>
    rw [hout, hlist, status_release, if_neg hne]
    exact hsettled
  | replaced before e rest hlist htime hout hnew =>
    rw [hlist, mem_slotsOf_append] at hsettled
    rw [hout, hnew, status_rendered, if_neg hi, status_release, mem_slotsOf_append]
    by_cases hslot : e.slot = some i
    · -- the entry that is replaced goes, and it was listed once
      have hnodup := h.listed.nodup
      rw [hlist, slotsOf_append, slotsOf, slotsOf, filterMap_cons_some hslot,
        nodup_middle, ← filterMap_append] at hnodup
      rw [if_pos hslot]
      exact Or.inr ⟨rfl, fun hmem => (nodup_cons.mp hnodup).1 (hmem.resolve_left hne)⟩
    · simp only [hslot, hne, false_or, if_false] at hsettled ⊢
      exact hsettled
  | inserted before e rest hlist hfirst hbefore hafter hout hnew =>
    rw [hlist] at hsettled
    rw [hout, hnew, status_rendered, if_neg hi, mem_slotsOf_append]
    simp only [hne, false_or]
    exact hsettled

/-- An iteration leaves the other `READY` slots as they are. -/
theorem Shown.buf_of_ready (h : s.Shown cfg) (hplaced : Placed s t) (hi : i ≠ s.mOutputLoadPoint)
    (hready : s.mOutput.status i = .ready) : t.mOutput.buf i = s.mOutput.buf i := by
  have hne : s.shownEntry.slot ≠ some i := fun heq => hi (some.inj heq).symm
  cases hplaced with
  | dropped hout hlist =>
    rw [hout]
    exact release_frame hne
  | replaced before e rest hlist htime hout hnew =>
    rw [hout, rendered, Slots.buf_set_of_ne hi]
    exact h.release_ready hlist hready
  | inserted before e rest hlist hfirst hbefore hafter hout hnew =>
    rw [hout, rendered, Slots.buf_set_of_ne hi]

/-- A slot that is not `READY` does not become so. -/
theorem Placed.ready_of_ready (hplaced : Placed s t) (hready : t.mOutput.status i = .ready) :
    s.mOutput.status i = .ready := by
  cases hplaced with
  | dropped hout hlist =>
    rw [hout, status_release] at hready
    split_ifs at hready
    exact hready
  | replaced before e rest hlist htime hout hnew =>
    rw [hout, status_rendered, status_release] at hready
    split_ifs at hready
    exact hready
  | inserted before e rest hlist hfirst hbefore hafter hout hnew =>
    rw [hout, status_rendered] at hready
    split_ifs at hready
    exact hready

/-! ### All output slots -/

theorem not_ready_of_settled (h : Played.Settled s i) : s.mOutput.status i ≠ .ready := by
  rcases h with ⟨hstatus, -⟩ | ⟨hstatus, -⟩ <;> simp [hstatus]

/-- The time stamps of the frames and of the buffers in the list. -/
structure Times (decoded returned : List ℤ) (s : State) : Prop where
  increasing : (returned ++ Played.times s).Pairwise (· < ·)
  complete : ∀ time ∈ decoded, time ∈ returned ++ Played.times s
  bounded : ∀ time ∈ returned ++ Played.times s, ∃ last ∈ decoded, time ≤ last
  stamped : ∀ e ∈ s.mRenderList, e.time ≠ -1

theorem Times.of_times (h : Times decoded returned s) (htimes : Played.times t = Played.times s) :
    Times decoded returned t := by
  refine ⟨htimes ▸ h.increasing, htimes ▸ h.complete, htimes ▸ h.bounded, fun e he => ?_⟩
  have hmem : e.time ∈ Played.times s := htimes ▸ mem_map_of_mem he
  obtain ⟨e', he', htime⟩ := mem_map.mp hmem
  exact htime ▸ h.stamped e' he'

/-- An entry that comes in between. -/
theorem Times.insert {rest : List Entry} {e new : Entry} (h : Times decoded returned s)
    (hlist : s.mRenderList = before ++ e :: rest) (hfirst : before ≠ [])
    (hbefore : ∀ e' ∈ before, e'.time < new.time) (hafter : new.time < e.time)
    (hstamp : new.time ≠ -1) (hnew : t.mRenderList = before ++ new :: e :: rest) :
    Times decoded returned t := by
  obtain ⟨hincreasing, hcomplete, hbounded, hstamped⟩ := h
  have htimes : Played.times t =
      before.map Entry.time ++ new.time :: e.time :: rest.map Entry.time := by
    rw [Played.times, hnew, map_append, map_cons, map_cons]
  rw [Played.times, hlist, map_append, map_cons] at hincreasing hcomplete hbounded
  rw [← append_assoc] at hincreasing
  have hfront : ∀ time ∈ returned ++ before.map Entry.time, time < new.time := by
    intro time htime
    rcases mem_append.mp htime with hreturned | hmem
    · -- what was returned is earlier than the first entry
      obtain ⟨first, others, rfl⟩ := exists_cons_of_ne_nil hfirst
      have hlt := (pairwise_append.mp (pairwise_append.mp hincreasing).1).2.2
        time hreturned first.time mem_cons_self
      exact hlt.trans (hbefore first mem_cons_self)
    · obtain ⟨e', he', rfl⟩ := mem_map.mp hmem
      exact hbefore e' he'
  have hback : ∀ time ∈ e.time :: rest.map Entry.time, new.time < time := by
    intro time htime
    rcases mem_cons.mp htime with rfl | htime
    · exact hafter
    · exact hafter.trans
        ((pairwise_cons.mp (pairwise_append.mp hincreasing).2.1).1 time htime)
  refine ⟨?_, fun time htime => ?_, fun time htime => ?_, fun e' he' => ?_⟩
  · rw [htimes, ← append_assoc, pairwise_append]
    obtain ⟨hleft, hright, hcross⟩ := pairwise_append.mp hincreasing
    refine ⟨hleft, pairwise_cons.mpr ⟨hback, hright⟩, fun a ha b hb => ?_⟩
    rcases mem_cons.mp hb with rfl | hb
    · exact hfront a ha
    · exact hcross a ha b hb
  · have hmem := hcomplete time htime
    rw [htimes]
    simp only [mem_append, mem_cons] at hmem ⊢
    tauto
  · have hcases : time = new.time ∨
        time ∈ returned ++ (before.map Entry.time ++ e.time :: rest.map Entry.time) := by
      rw [htimes] at htime
      simp only [mem_append, mem_cons] at htime ⊢
      tauto
    rcases hcases with rfl | hmem
    · obtain ⟨last, hlast, hle⟩ := hbounded e.time (by simp)
      exact ⟨last, hlast, hafter.le.trans hle⟩
    · exact hbounded time hmem
  · rw [hnew] at he'
    rcases mem_append.mp he' with hmem | hmem
    · exact hstamped e' (hlist ▸ mem_append_left _ hmem)
    · rcases mem_cons.mp hmem with rfl | hmem
      · exact hstamp
      · exact hstamped e' (hlist ▸ mem_append_right _ hmem)

theorem Times.placed (h : Times decoded returned s) (hstamp : s.shownEntry.time ≠ -1)
    (hplaced : Placed s t) : Times decoded returned t := by
  cases hplaced with
  | dropped hout hlist => exact h.of_times (congrArg (List.map Entry.time) hlist)
  | replaced before e rest hlist htime hout hnew =>
    refine h.of_times ?_
    rw [Played.times, Played.times, hnew, hlist, map_append, map_append, map_cons, map_cons, htime]
  | inserted before e rest hlist hfirst hbefore hafter hout hnew =>
    exact h.insert hlist hfirst hbefore hafter hstamp hnew

/-- What the loop of `updateRenderList` keeps, after `n` slots from `start` on. -/
structure Settling (cfg : Config) (decoded returned : List ℤ) (start n : ℕ) (s : State) :
    Prop where
  shown : s.Shown cfg
  times : Times decoded returned s
  outputs : Played.OutputsStamped cfg s
  point : s.mOutputLoadPoint = (start + n) % cfg.mOutputBufferNum
  settled : ∀ i ∈ ring cfg.mOutputBufferNum start n, Played.Settled s i

theorem Settling.next {start n : ℕ} (h : s.Settling cfg decoded returned start n)
    (hready : s.mOutput.status s.mOutputLoadPoint = .ready) :
    ∃ t, s.renderOutput cfg = some t ∧ t.Settling cfg decoded returned start (n + 1) ∧
      ∀ i, t.mOutput.status i = .ready → s.mOutput.status i = .ready := by
  obtain ⟨hshown, htimes, houtputs, hpoint, hsettled⟩ := h
  have hstamp : s.shownEntry.time ≠ -1 := houtputs _ hshown.point hready
  obtain ⟨t, hrender, hplaced, ht⟩ := @renderOutput_placed cfg s hstamp htimes.stamped
  have hshown' := hshown.placed hready hplaced ht
  have hself := hshown.settled_point hready hshown' hplaced
  refine ⟨t, hrender, ⟨hshown', htimes.placed hstamp hplaced, fun i hi hready' => ?_, ?_,
    fun i hi => ?_⟩, fun i hi => hplaced.ready_of_ready hi⟩
  · have hne : i ≠ s.mOutputLoadPoint := by
      rintro rfl
      exact not_ready_of_settled hself hready'
    have hbefore := hplaced.ready_of_ready hready'
    rw [hshown.buf_of_ready hplaced hne hbefore]
    exact houtputs i hi hbefore
  · rw [ht]
    change (s.mOutputLoadPoint + 1) % cfg.mOutputBufferNum = _
    rw [hpoint, Nat.mod_add_mod, Nat.add_assoc]
  · rw [ring_append, mem_append] at hi
    rcases hi with hi | hi
    · have hne : i ≠ s.mOutputLoadPoint := by
        rintro rfl
        exact not_ready_of_settled (hsettled _ hi) hready
      exact hshown.settled_other hshown' hplaced hne (hsettled i hi)
    · have hi' : i = s.mOutputLoadPoint := by
        rw [hpoint]
        simpa [ring] using hi
      exact hi' ▸ hself

/-- The loop settles the slots up to the first that is not `READY`. -/
theorem Settling.renderOutputs {start fuel : ℕ} :
    ∀ {n : ℕ} {s : State}, s.Settling cfg decoded returned start n →
      n + fuel = cfg.mOutputBufferNum →
      ∃ n', n ≤ n' ∧ n' ≤ cfg.mOutputBufferNum ∧ ∃ t, s.renderOutputs cfg fuel = (t, true) ∧
        t.Settling cfg decoded returned start n' ∧
        t.mOutput.status t.mOutputLoadPoint ≠ .ready ∧
        ∀ i ∈ ring cfg.mOutputBufferNum start n', i ∈ ring cfg.mOutputBufferNum start n ∨
          s.mOutput.status i = .ready := by
  induction fuel with
  | zero =>
    intro n s h hn
    refine ⟨n, le_rfl, hn.le, s, rfl, h, ?_, fun i hi => Or.inl hi⟩
    refine not_ready_of_settled (h.settled _ ?_)
    rw [h.point, show n = cfg.mOutputBufferNum from hn, Nat.add_mod_right]
    exact mem_map.mpr ⟨0, mem_range.mpr (Nat.zero_lt_of_lt h.shown.point), rfl⟩
  | succ fuel ih =>
    intro n s h hn
    by_cases hready : s.mOutput.status s.mOutputLoadPoint = .ready
    · obtain ⟨u, hrender, hu, hkept⟩ := h.next hready
      obtain ⟨n', hle, hmax, t, hrun, ht, hdone, hslots⟩ := ih hu (by omega)
      refine ⟨n', by omega, hmax, t, ?_, ht, hdone, fun i hi => ?_⟩
      · rw [State.renderOutputs, if_pos hready, hrender]
        exact hrun
      · rcases hslots i hi with hmem | hready'
        · rw [ring_append, mem_append] at hmem
          refine hmem.imp_right fun hlast => ?_
          have hi' : i = s.mOutputLoadPoint := by
            rw [h.point]
            simpa [ring] using hlast
          exact hi' ▸ hready
        · exact Or.inr (hkept i hready')
    · refine ⟨n, le_rfl, by omega, s, ?_, h, hready, fun i hi => Or.inl hi⟩
      rw [State.renderOutputs, if_neg hready]

/-- A call of `updateRenderList`. -/
theorem Shown.updateRenderList (h : s.Shown cfg) (htimes : Times decoded returned s)
    (houtputs : Played.OutputsStamped cfg s) :
    ∃ n ≤ cfg.mOutputBufferNum, ∃ t, s.updateRenderList cfg = (t, true) ∧
      t.Settling cfg decoded returned s.mOutputLoadPoint n ∧
      t.mOutput.status t.mOutputLoadPoint ≠ .ready ∧
      ∀ i ∈ ring cfg.mOutputBufferNum s.mOutputLoadPoint n, s.mOutput.status i = .ready := by
  have hstart : s.Settling cfg decoded returned s.mOutputLoadPoint 0 :=
    ⟨h, htimes, houtputs, (Nat.mod_eq_of_lt h.point).symm, fun i hi => absurd hi not_mem_nil⟩
  have hfuel : 0 + cfg.mOutputBufferNum = cfg.mOutputBufferNum := Nat.zero_add _
  obtain ⟨n, -, hmax, t, hrun, ht, hdone, hslots⟩ := hstart.renderOutputs hfuel
  exact ⟨n, hmax, t, hrun, ht, hdone, fun i hi => (hslots i hi).resolve_left not_mem_nil⟩

/-! ### The player's other calls -/

theorem Shown.setDecoderBufferToVPP (h : s.Shown cfg) (timeUs : ℤ) :
    (s.setDecoderBufferToVPP cfg timeUs).Shown cfg ∧
      (s.setDecoderBufferToVPP cfg timeUs).mRenderList = s.mRenderList ++ [⟨timeUs, none⟩] := by
  have hslots : slotsOf (s.mRenderList ++ [⟨timeUs, none⟩]) = slotsOf s.mRenderList := by
    simp [slotsOf]
  have hl := h.listed
  have hlisted : Listed cfg.mOutputBufferNum s.mOutput (s.mRenderList ++ [⟨timeUs, none⟩]) false :=
    ⟨hslots ▸ hl.nodup, hslots ▸ hl.lt, hslots ▸ hl.vpp, hslots ▸ hl.rendering⟩
  rw [State.setDecoderBufferToVPP]
  split
  · exact ⟨{ h with listed := hlisted }, rfl⟩
  · exact ⟨{ h with listed := hlisted }, rfl⟩

/-- A decoded frame is the last one. -/
theorem Times.push {timeUs : ℤ} (h : Times decoded returned s) (hstamp : timeUs ≠ -1)
    (hlast : ∀ time ∈ decoded, time < timeUs)
    (hlist : t.mRenderList = s.mRenderList ++ [⟨timeUs, none⟩]) :
    Times (decoded ++ [timeUs]) returned t := by
  have htimes : returned ++ Played.times t = (returned ++ Played.times s) ++ [timeUs] := by
    rw [Played.times, hlist, map_append, ← append_assoc]
    rfl
  refine ⟨?_, fun time htime => ?_, fun time htime => ?_, fun e he => ?_⟩
  · rw [htimes, pairwise_append]
    refine ⟨h.increasing, pairwise_singleton _ _, fun a ha b hb => ?_⟩
    obtain ⟨last, hmem, hle⟩ := h.bounded a ha
    rw [mem_singleton.mp hb]
    exact hle.trans_lt (hlast last hmem)
  · rw [htimes]
    refine mem_append.mpr ((mem_append.mp htime).imp_left (h.complete time))
  · rw [htimes] at htime
    rcases mem_append.mp htime with hmem | hmem
    · obtain ⟨last, hlast', hle⟩ := h.bounded time hmem
      exact ⟨last, mem_append_left _ hlast', hle⟩
    · exact ⟨time, mem_append_right _ hmem, le_rfl⟩
  · rw [hlist] at he
    rcases mem_append.mp he with hmem | hmem
    · exact h.stamped e hmem
    · rw [mem_singleton.mp hmem]
      exact hstamp

theorem Shown.read (h : s.Shown cfg) : s.read.Shown cfg := by
  have hlisted := h.listed
  rw [State.read]
  split
  · split
    · exact h
    · exact { h with }
  · rename_i rest hl
    rw [hl] at hlisted
    exact { h with listed := listed_remove [] hlisted fun _ _ => rfl }
  · rename_i i rest hl
    rw [hl] at hlisted
    have hi : s.mOutput.status i = .rendering := hlisted.rendering rfl i mem_cons_self
    refine ⟨listed_remove [] hlisted fun j hj => Slots.buf_set_of_ne fun heq => ?_,
      Owned.set h.owned ?_ i, h.point, h.notSeeking, h.proc⟩
    · exact hj (congrArg some heq.symm)
    · exact fun _ => hi

/-- `read` takes the first entry. -/
theorem Times.read (h : Times decoded returned s) :
    Times decoded (returned ++ Played.front s) s.read := by
  have hlist : s.read.mRenderList = s.mRenderList.drop 1 := by
    rw [State.read]
    cases hl : s.mRenderList with
    | nil =>
      dsimp only
      split
      · exact hl
      · rfl
    | cons e rest =>
      obtain ⟨time, slot⟩ := e
      cases slot <;> rfl
  have htimes : (returned ++ Played.front s) ++ Played.times s.read =
      returned ++ Played.times s := by
    rw [Played.front, Played.times, Played.times, hlist, append_assoc, ← map_append,
      take_append_drop]
  refine ⟨htimes ▸ h.increasing, htimes ▸ h.complete, htimes ▸ h.bounded, fun e he => ?_⟩
  rw [hlist] at he
  exact h.stamped e (mem_of_mem_drop he)

/-- The client returns a buffer that it has, which is not in the list. -/
theorem Shown.signalBufferReturned (h : s.Shown cfg) {pos : ℕ}
    (howner : (s.mOutput.buf pos).owner = .client) (rendered dequeued : Bool) :
    (s.signalBufferReturned pos rendered dequeued).Shown cfg := by
  have hrendering : s.mOutput.status pos = .rendering := by
    refine h.owned pos ?_
    rw [Slots.owner, howner]
    decide
  have hnew : pos ∉ slotsOf s.mRenderList := fun hmem => by
    have hvpp := h.listed.vpp pos hmem
    rw [Slots.owner, howner] at hvpp
    cases hvpp
  have hlisted : ∀ b, Listed cfg.mOutputBufferNum (s.mOutput.set pos b) s.mRenderList false := by
    intro b
    have hframe : ∀ i ∈ slotsOf s.mRenderList, (s.mOutput.set pos b).buf i = s.mOutput.buf i :=
      fun i hi => Slots.buf_set_of_ne fun heq => hnew (heq ▸ hi)
    exact ⟨h.listed.nodup, h.listed.lt,
      fun i hi => (congrArg VPPBuffer.owner (hframe i hi)).trans (h.listed.vpp i hi),
      fun hseeking i hi => (congrArg VPPBuffer.mStatus (hframe i hi)).trans
        (h.listed.rendering hseeking i hi)⟩
  rw [State.signalBufferReturned]
  split
  · refine ⟨hlisted _, Owned.set h.owned ?_ pos, h.point, h.notSeeking, h.proc⟩
    exact fun _ => hrendering
  · exact ⟨hlisted _, Owned.set h.owned (fun hne => absurd rfl hne) pos, h.point, h.notSeeking,
      h.proc⟩

end State

/-! ### Runs -/

namespace Played

variable {cfg : Config} {factor : ℕ} {p q : Played}

/-- What every run keeps. -/
structure Kept (cfg : Config) (factor : ℕ) (p : Played) : Prop where
  shown : p.state.Shown cfg
  times : State.Times p.decoded p.returned p.state
  timed : p.state.Timed factor

theorem Kept.outputsStamped (h : p.Kept cfg factor) : OutputsStamped cfg p.state :=
  fun i _ hready => (h.timed.outputs i).ready hready

theorem Kept.step (h : p.Kept cfg factor) (hslots : 3 ≤ cfg.mOutputBufferNum) {op : Op}
    (hincreasing : p.Increasing op) (hspaces : p.Spaces factor op)
    (hq : p.step cfg op = some q) : q.Kept cfg factor := by
  have houtputs := h.outputsStamped
  obtain ⟨t, ht, rfl⟩ := map_eq_some_iff.mp hq
  obtain ⟨hshown, htimes, htimed⟩ := h
  have hplayer : ∀ {u : State}, (if p.state.seeking = true then none else some u) = some t →
      u = t := fun heq => some.inj (ite_none_left_eq_some.mp heq).2
  cases op with
  | setDecoderBufferToVPP timeUs =>
    obtain rfl := hplayer ht
    obtain ⟨hshown', hlist⟩ := hshown.setDecoderBufferToVPP timeUs
    have hpos : 0 < factor := lt_of_lt_of_le (by cases p.state.worker.mFrcRate <;> decide) htimed.rate
    exact ⟨hshown', htimes.push (hspaces.ne hpos) hincreasing hlist,
      htimed.setDecoderBufferToVPP hspaces⟩
  | clearInput =>
    obtain rfl := hplayer ht
    exact ⟨{ hshown with }, htimes.of_times rfl, htimed.clearInput⟩
  | updateRenderList =>
    obtain rfl := hplayer ht
    obtain ⟨n, -, u, hu, hsettling, -⟩ := hshown.updateRenderList htimes houtputs
    have htimed' : (p.state.updateRenderList cfg).1.Timed factor := htimed.renderOutputs
    rw [hu] at htimed' ⊢
    exact ⟨hsettling.shown, hsettling.times, htimed'⟩
  | read =>
    obtain rfl := hplayer ht
    exact ⟨hshown.read, htimes.read, htimed.read⟩
  | setEOS =>
    obtain rfl := hplayer ht
    have hkeeps : State.Keeps cfg p.state p.state.setEOS := by
      rw [State.setEOS]
      split_ifs <;> exact ⟨rfl, rfl, rfl, rfl, fun _ => id, id⟩
    have htimed' : p.state.setEOS.Timed factor := by
      rw [State.setEOS]
      split_ifs <;> exact { htimed with }
    exact ⟨hshown.keeps hkeeps, htimes.of_times (congrArg (List.map Entry.time) hkeeps.list),
      htimed'⟩
  | seek => exact hincreasing.elim
  | seekEnd => exact hincreasing.elim
  | signalBufferReturned pos rendered dequeued =>
    obtain ⟨⟨-, howner⟩, hsome⟩ := ite_none_right_eq_some.mp ht
    obtain rfl := some.inj hsome
    refine ⟨hshown.signalBufferReturned howner rendered dequeued, htimes.of_times ?_,
      htimed.signalBufferReturned pos rendered dequeued⟩
    rw [State.signalBufferReturned]
    split_ifs <;> rfl
  | notifyCheckFrc =>
    obtain rfl := some.inj ht
    exact ⟨{ hshown with }, htimes.of_times rfl, { htimed with }⟩
  | threadLoop a =>
    have hkeeps := State.keeps_threadLoop hshown.proc ht
    exact ⟨hshown.keeps hkeeps, htimes.of_times (congrArg (List.map Entry.time) hkeeps.list),
      htimed.threadLoop hslots hspaces ht⟩

theorem Kept.lawful (h : p.Kept cfg factor) : p.Lawful cfg := by
  have houtputs := h.outputsStamped
  obtain ⟨hshown, htimes, -⟩ := h
  refine ⟨(pairwise_append.mp htimes.increasing).1, fun time htime => ?_, ?_⟩
  · have hnodup : (p.returned ++ Played.times p.state).Nodup :=
      htimes.increasing.imp fun hlt => hlt.ne
    rw [← count_append]
    exact count_eq_one_of_mem hnodup (htimes.complete time htime)
  · obtain ⟨n, hmax, t, hrun, hsettling, hdone, hslots⟩ := hshown.updateRenderList htimes houtputs
    exact ⟨n, hmax, t, hrun, hsettling.point, hdone,
      fun i hi => ⟨hslots i hi, hsettling.settled i hi⟩⟩

/-- A processor that has not been used yet. -/
def begin (s : State) : Played := ⟨s, [], []⟩

theorem kept_begin {s : State} (h : Initial cfg s) (hrate : s.worker.mFrcRate.value ≤ factor) :
    (begin s).Kept cfg factor := by
  have hlist := h.renderList
  have hpos : 0 < cfg.mOutputBufferNum := Nat.zero_lt_of_lt h.outputNum
  refine ⟨⟨?_, fun i hi => absurd (h.outputs i).2 hi, ?_, h.seeking, ?_⟩, ?_, ?_⟩
  · change Listed _ _ s.mRenderList false
    rw [hlist]
    exact ⟨nodup_nil, by simp [slotsOf], by simp [slotsOf], by simp [slotsOf]⟩
  · change s.mOutputLoadPoint < _
    rw [h.outputLoadPoint]
    exact hpos
  · change s.thread.mOutputProcIdx < _
    rw [h.thread]
    exact hpos
  · refine ⟨?_, fun time htime => absurd htime not_mem_nil, ?_, ?_⟩ <;>
      simp [begin, times, hlist]
  · refine ⟨fun i hloaded => ?_, fun i => ?_, hrate, fun hchange => ?_⟩
    · exact absurd ((h.inputs i).symm.trans hloaded) (by decide)
    · have hfree : ((begin s).state.mOutput.buf i).mStatus = .free := (h.outputs i).1
      exact .of_status (by simp [hfree]) (by simp [hfree])
    · have hno : (begin s).state.thread.mFrcChange = false := congrArg ProcThread.mFrcChange h.thread
      simp [hno] at hchange

end Played

open Played in
/-- In every run without a seek, with time stamps that increase and are spaced for the frame rate
factors of the run, the player gets the buffers in order and every decoded frame's time stamp once,
and every output slot is listed once or released. -/
theorem render_list_lawful {cfg : Config} {factor : ℕ} {s : State} {p : Played}
    (hinit : Initial cfg s) (hslots : 3 ≤ cfg.mOutputBufferNum)
    (hrate : s.worker.mFrcRate.value ≤ factor)
    (hrun : Reach (Played.step cfg) (fun p op => Increasing p op ∧ Spaces factor p op) (begin s) p) :
    p.Lawful cfg :=
  have hkept : p.Kept cfg factor := hrun.invariant (kept_begin hinit hrate)
    fun _ _ _ h hc hs => h.step hslots hc.1 hc.2 hs
  hkept.lawful

open Played in
/-- Two frames at twice the frame rate: an output replaces each, and one comes in between. -/
theorem render_list_lawful_frc : ∃ p : Played, p.Lawful (validateVideoInfo 3 .x2) ∧
    p.returned = [0, 16667, 33333] := by
  obtain ⟨p, hrun, hp⟩ : ∃ p, Reach (Played.step (validateVideoInfo 3 .x2))
      (fun p op => Increasing p op ∧ Spaces 2 p op) (begin (started true .x2)) p ∧
        p.returned = [0, 16667, 33333] :=
    Reach.exists_of_decide (fun _ _ h => h)
      [.setDecoderBufferToVPP 0, .threadLoop ⟨true, .x2, [], true⟩, .setDecoderBufferToVPP 33333,
        .threadLoop ⟨true, .x2, [.dataRendering], true⟩,
        .threadLoop ⟨true, .x2, [.ok, .ok], true⟩, .updateRenderList, .read, .read, .read]
      (by decide)
  exact ⟨p, render_list_lawful (initial_started 3 true .x2) (by decide) (by decide) hrun, hp⟩

open Played in
/-- A frame that is shown 16665 microseconds after the start, at twice the frame rate: the output
between has the time stamp `-1`, and the slots are not settled. -/
theorem render_list_stuck : ¬ ∀ p, Reach (Played.step (validateVideoInfo 3 .x2)) Increasing
    (begin (started true .x2)) p → p.Settles (validateVideoInfo 3 .x2) := by
  intro h
  obtain ⟨p, hrun, hp⟩ : ∃ p, Reach (Played.step (validateVideoInfo 3 .x2)) Increasing
      (begin (started true .x2)) p ∧
        (p.state.updateRenderList (validateVideoInfo 3 .x2)).2 = false :=
    Reach.exists_of_decide (fun _ _ h => h)
      [.setDecoderBufferToVPP 0, .threadLoop ⟨true, .x2, [], true⟩, .setDecoderBufferToVPP 16665,
        .threadLoop ⟨true, .x2, [.dataRendering], true⟩,
        .threadLoop ⟨true, .x2, [.ok, .ok], true⟩] (by decide)
  obtain ⟨n, -, t, ht, -⟩ := h p hrun
  rw [ht] at hp
  exact Bool.noConfusion hp

end HardwareIntel.Vpp
