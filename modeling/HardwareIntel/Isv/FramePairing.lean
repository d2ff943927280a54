import HardwareIntel.Isv.BufferConservation

/-!
# Output buffers belong to the frame they are made from

How many output buffers a task takes is computed when it is started and again when it is given
back, from the filters and the frame rate factor that `addInput` may have changed in between. The
factor is settled before the first frame is queued, so both counts agree, and the queues are the
tasks in progress followed by what waits: this is `Paired`.

The time stamps of a task are computed backwards from its frame. `frames_paired` says that they
increase as long as every queued frame is further away from the ones before it than its task
reaches back, and no frame passes the queue.
-/

namespace HardwareIntel.Isv

open List Option

namespace State

/-- A step that is no flush and no failure; frames come with increasing time stamps. -/
def Undisturbed (s : State) : Op → Prop
  | .fillThisBuffer _ mapped => mapped = true
  | .fillBufferDone _ b setup =>
    b.nFlags &&& OMX_BUFFERFLAG_EOS = 0 ∧ setup.ok = true ∧ ∀ t ∈ s.arrived, t < b.nTimeStamp
  | .sendCommand c | .commandComplete c => flushesOutput c = false
  | .threadLoop a => a.process = true

/-- How far the time stamps of the `k`-th task reach back. -/
def gap (s : State) (k : ℕ) : ℕ := span s.mFilterParam (s.worker.getOutputBufCount (k % 2 ^ 32))

/-- A frame is later than the queued ones by more than its task reaches back, and while frames are
queued a filter is on for it. -/
def Spaced (s : State) : Op → Prop
  | .fillBufferDone _ b _ =>
    (∀ t ∈ s.queued, t + s.gap s.queued.length < b.nTimeStamp) ∧
      (s.mInputBuffers ≠ [] → (s.configDeinterlacing b.nFlags).mFilters ≠ 0)
  | _ => True

instance (s : State) (op : Op) : Decidable (s.Undisturbed op) :=
  match op with
  | .fillThisBuffer _ mapped => inferInstanceAs (Decidable (mapped = true))
  | .fillBufferDone .. => inferInstanceAs (Decidable (_ ∧ _ ∧ _))
  | .sendCommand c | .commandComplete c => inferInstanceAs (Decidable (flushesOutput c = false))
  | .threadLoop a => inferInstanceAs (Decidable (a.process = true))

instance (s : State) (op : Op) : Decidable (s.Spaced op) :=
  match op with
  | .fillBufferDone .. => inferInstanceAs (Decidable (_ ∧ _))
  | .fillThisBuffer .. | .sendCommand _ | .commandComplete _ | .threadLoop _ => isTrue trivial

/-! ### The tasks in progress -/

/-- The frame rate conversion is decided, and the worker knows. -/
structure Settled (s : State) : Prop where
  converts : Converts s.mFilters s.mFilterParam
  filters : s.worker.mFilters &&& FilterFrameRateConversion =
    s.mFilters &&& FilterFrameRateConversion
  param : s.worker.mFilterParam = s.mFilterParam

/-- The queues are the tasks in progress and what waits behind them. -/
structure Paired (s : State) (active : List Task) (waiting spare : List Header) : Prop where
  inputs : s.mInputBuffers = active.map Task.input ++ waiting
  outputs : s.mOutputBuffers = active.flatMap Task.outputs ++ spare
  inputIdx : s.mInputProcIdx = active.length
  outputIdx : s.mOutputProcIdx = (active.flatMap Task.outputs).length
  processed : s.worker.processed = s.returned ++ active
  filled : s.worker.filled = s.returned.map Task.outputs
  inputIndex : s.worker.mInputIndex = (s.returned ++ active).length % 2 ^ 32
  outputIndex : s.worker.mOutputIndex = s.returned.length % 2 ^ 32
  counts : ∀ i (h : i < active.length), active[i].outputs.length =
    s.worker.getOutputBufCount ((s.returned.length + i) % 2 ^ 32)
  queued : s.queued.length = s.returned.length + s.mInputBuffers.length
  settled : s.queued ≠ [] → s.Settled
  flush : s.mbFlush = false

variable {s t : State} {active : List Task} {waiting spare : List Header} {p : Header → ℕ}

/-! ### Time stamps -/

def stamp (s : State) (h : Header) : ℤ := (s.info h).nTimeStamp

/-- The time stamps `ts` of the tasks from the `k`-th one on reach back to nothing in `rs`, nor to
each other. -/
def Ahead (gap : ℕ → ℕ) : ℕ → List ℤ → List ℤ → Prop
  | _, _, [] => True
  | k, rs, t :: ts => (∀ r ∈ rs, r + gap k < t) ∧ Ahead gap (k + 1) (rs ++ [t]) ts

theorem Ahead.mono {gap : ℕ → ℕ} {ts : List ℤ} : ∀ {k : ℕ} {rs rs' : List ℤ},
    (∀ r ∈ rs', ∃ r₀ ∈ rs, r ≤ r₀) → Ahead gap k rs ts → Ahead gap k rs' ts := by
  induction ts with
  | nil => exact fun _ _ => trivial
  | cons t ts ih =>
    intro k rs rs' hle hahead
    refine ⟨fun r hr => ?_, ih (fun r hr => ?_) hahead.2⟩
    · obtain ⟨r₀, hr₀, hlt⟩ := hle r hr
      have := hahead.1 r₀ hr₀
      omega
    · rcases mem_append.mp hr with hr | hr
      · obtain ⟨r₀, hr₀, hlt⟩ := hle r hr
        exact ⟨r₀, mem_append_left _ hr₀, hlt⟩
      · exact ⟨r, mem_append_right _ hr, le_refl r⟩

theorem Ahead.concat {gap : ℕ → ℕ} {t : ℤ} {ts : List ℤ} : ∀ {k : ℕ} {rs : List ℤ},
    Ahead gap k rs ts → (∀ r ∈ rs ++ ts, r + gap (k + ts.length) < t) →
      Ahead gap k rs (ts ++ [t]) := by
  induction ts with
  | nil => exact fun _ hlast => ⟨by simpa using hlast, trivial⟩
  | cons u ts ih =>
    intro k rs hahead hlast
    refine ⟨hahead.1, ih hahead.2 ?_⟩
    rw [append_assoc, singleton_append, Nat.add_assoc, Nat.add_comm 1]
    exact hlast

/-- The time stamps of a task with `n` output buffers. -/
def stamps (timeUs : ℤ) (rate : ℕ) : ℕ → List ℤ
  | 0 => []
  | n + 1 => (timeUs - (1000000 * n / rate : ℕ)) :: stamps timeUs rate n

variable {input : Header} {n : ℕ}

theorem mem_stamps {timeUs t : ℤ} {rate : ℕ} (h : t ∈ stamps timeUs rate n) :
    timeUs - (1000000 * (n - 1) / rate : ℕ) ≤ t ∧ t ≤ timeUs := by
  induction n with
  | zero => exact absurd h (by simp [stamps])
  | succ n ih =>
    rcases mem_cons.mp h with rfl | h
    · rw [Nat.add_sub_cancel]
      have := Int.natCast_nonneg (1000000 * n / rate)
      omega
    · obtain ⟨hlow, hhigh⟩ := ih h
      have hle : 1000000 * (n - 1) / rate ≤ 1000000 * n / rate := by gcongr; omega
      rw [Nat.add_sub_cancel]
      omega

theorem stamps_pairwise (timeUs : ℤ) {rate : ℕ} (hpos : 0 < rate) (hrate : rate ≤ 1000000) (n : ℕ) :
    (stamps timeUs rate n).Pairwise (· < ·) := by
  induction n with
  | zero => exact List.Pairwise.nil
  | succ n ih =>
    refine pairwise_cons.mpr ⟨fun t ht => ?_, ih⟩
    obtain ⟨hlow, -⟩ := mem_stamps ht
    cases n with
    | zero => exact absurd ht (by simp [stamps])
    | succ n =>
      have hstep : 1000000 * n / rate + 1 ≤ 1000000 * (n + 1) / rate := by
        rw [← Nat.add_div_right _ hpos]
        gcongr
        omega
      rw [Nat.add_sub_cancel] at hlow
      omega

theorem stamp_releaseBuffer (s : State) (index : PortIndex) (h : Header) (bFlush : Bool)
    (x : Header) : (s.releaseBuffer index h bFlush).stamp x = s.stamp x := by
  cases bFlush with
  | true =>
    by_cases hx : x = h
    · subst hx
      simp [releaseBuffer, stamp, setInfo]
    · simp [releaseBuffer, stamp, setInfo, hx]
  | false =>
    cases index with
    | kPortIndexInput =>
      by_cases hx : x = h
      · subst hx
        simp [releaseBuffer, stamp, setInfo]
      · simp [releaseBuffer, stamp, setInfo, hx]
    | kPortIndexOutput => rfl

/-- The time stamps of other headers are not touched when a task is rendered. -/
theorem stamp_render {timeUs : ℤ} {x : Header} (outputs : List Header) :
    ∀ s, x ∉ outputs → (render timeUs n outputs s).stamp x = s.stamp x := by
  induction outputs with
  | nil => exact fun _ _ => rfl
  | cons output rest ih =>
    intro s hx
    rw [mem_cons, not_or] at hx
    obtain ⟨hne, hrest⟩ := hx
    rw [render, ih _ hrest, stamp_releaseBuffer]
    split
    · simp [stamp, setInfo, hne]
    · rfl

/-- What the client is shown of a task with interpolated frames. -/
theorem rendered_render (timeUs : ℤ) (hn : 1 < n) (outputs : List Header) :
    ∀ s, (render timeUs n outputs s).rendered =
      s.rendered ++ stamps timeUs (outputRate s.mFilterParam) outputs.length := by
  induction outputs with
  | nil => exact fun s => by simp [render, stamps]
  | cons output rest ih =>
    intro s
    rw [render, if_pos hn, ih]
    simp [releaseBuffer, setInfo, stamps]

theorem stamp_returnTask {first x : Header} {outputs : List Header} (s : State) (hx : x ∉ outputs) :
    (s.returnTask input first outputs).stamp x = s.stamp x := by
  have hrender : ∀ u : State, (render ((u.info first).nTimeStamp) outputs.length outputs u).stamp x =
      u.stamp x := fun u => stamp_render outputs u hx
  exact (hrender _).trans (stamp_releaseBuffer s .kPortIndexInput input false x)

/-- What the client is shown of any task, if its output buffers have the frame's time stamp. -/
theorem rendered_returnTask {first : Header} {rest : List Header} (s : State) :
    (s.returnTask input first (first :: rest)).rendered =
      s.rendered ++ stamps (s.stamp first) (outputRate s.mFilterParam) (rest.length + 1) := by
  have hfirst := stamp_releaseBuffer s .kPortIndexInput input false first
  cases rest with
  | nil =>
    change s.rendered ++ [(s.releaseBuffer .kPortIndexInput input false).stamp first] = _
    rw [hfirst]
    simp [stamps]
  | cons output rest =>
    have hrender := rendered_render (s.stamp first) (n := rest.length + 2) (by omega)
      (first :: output :: rest) { s.releaseBuffer .kPortIndexInput input false with
        mInputBuffers := s.mInputBuffers.drop 1
        mInputProcIdx := sub32 s.mInputProcIdx 1 }
    rw [← hfirst] at hrender ⊢
    exact hrender

/-- The time stamps in a run whose steps are `Spaced`. -/
structure Timed (s : State) (active : List Task) : Prop where
  ahead : Ahead s.gap s.returned.length s.rendered (s.mInputBuffers.map s.stamp)
  copied : ∀ task ∈ active, ∀ h ∈ task.outputs, s.stamp h = s.stamp task.input
  increasing : s.rendered.Pairwise (· < ·)
  pending : ∀ h ∈ s.mInputBuffers, s.stamp h ∈ s.queued
  shown : s.mbBypass = false → ∀ r ∈ s.rendered, ∃ a ∈ s.queued, r ≤ a
  seen : ∀ r ∈ s.rendered, ∃ a ∈ s.arrived, r ≤ a
  arrived : ∀ a ∈ s.queued, a ∈ s.arrived
  bypassed : s.mbBypass = true → s.mInputBuffers = []

theorem outputRate_pos (param : FilterParam) : 0 < outputRate param := by
  unfold outputRate
  split
  · decide
  · decide

theorem outputRate_le (param : FilterParam) : outputRate param ≤ 1000000 := by
  unfold outputRate
  split
  · decide
  · decide

/-- The queues hold no header twice. -/
theorem nodup_queues (hinv : Invariant p s) (hp : ∀ h, p h ≤ 1) :
    (s.mInputBuffers ++ s.mOutputBuffers).Nodup := by
  rw [nodup_iff_count_le_one]
  intro h
  have hplaces := hinv.once h
  have := hp h
  rw [places] at hplaces
  rw [count_append]
  omega

/-! ### Giving a task back -/

/-- The state after a pass of the loop that gives tasks back. -/
def giveBack (s : State) (task : Task) (first : Header) : State :=
  { s with
    worker := s.worker.fill task.outputs
    mNumTaskInProcesing := s.mNumTaskInProcesing - 1 }.returnTask task.input first task.outputs

theorem Paired.giveBack {task : Task} (h : Paired s (task :: active) waiting spare)
    (first : Header) : Paired (s.giveBack task first) active waiting spare := by
  obtain ⟨info, client, decoder, rendered, heq, -⟩ := returnTask_eq { s with
    worker := s.worker.fill task.outputs
    mNumTaskInProcesing := s.mNumTaskInProcesing - 1 } task.input first task.outputs
  have hout := h.outputIdx
  rw [State.giveBack, heq]
  refine ⟨?_, ?_, ?_, ?_, ?_, ?_, ?_, ?_, ?_, ?_, fun hq => ?_, h.flush⟩
  · simp [h.inputs]
  · simp [h.outputs]
  · simp [h.inputIdx]
  · simp [hout]
  · simp [Worker.fill, h.processed]
  · simp [Worker.fill, h.filled]
  · simp only [Worker.fill, h.inputIndex]
    simp
  · simp only [Worker.fill, h.outputIndex, length_append, length_singleton]
    omega
  · intro i hi
    have hcount := h.counts (i + 1) (Nat.succ_lt_succ hi)
    rw [getElem_cons_succ] at hcount
    rw [hcount]
    simp only [length_append, length_singleton]
    rw [Nat.add_assoc, Nat.add_comm 1 i]
    rfl
  · have hq := h.queued
    have hin := h.inputs
    simp only [hin, map_cons, cons_append, length_cons, drop_succ_cons,
      drop_zero, length_append, length_nil] at hq ⊢
    omega
  · exact { h.settled hq with }

/-- A task that is given back shows its time stamps, and no others move. -/
theorem Timed.giveBack {task : Task} {first : Header} {rest : List Header}
    (hpaired : Paired s (task :: active) waiting spare) (h : Timed s (task :: active))
    (hnodup : (s.mInputBuffers ++ s.mOutputBuffers).Nodup) (hfirst : task.outputs = first :: rest) :
    Timed (s.giveBack task first) active := by
  have hin := hpaired.inputs
  have hout := hpaired.outputs
  rw [flatMap_cons, append_assoc] at hout
  have hstamp : ∀ x ∉ task.outputs, (s.giveBack task first).stamp x = s.stamp x :=
    fun x hx => stamp_returnTask _ hx
  have hdisjoint : ∀ x ∈ s.mInputBuffers, x ∉ task.outputs := by
    intro x hx hmem
    refine (nodup_append.mp hnodup).2.2 x hx x ?_ rfl
    rw [hout]
    exact mem_append_left _ hmem
  have hothers : ∀ x ∈ active.flatMap Task.outputs, x ∉ task.outputs := by
    intro x hx hmem
    have houts := (nodup_append.mp hnodup).2.1
    rw [hout] at houts
    exact (nodup_append.mp houts).2.2 x hmem x (mem_append_left _ hx) rfl
  obtain ⟨info, client, decoder, rendered, heq, -⟩ := returnTask_eq { s with
    worker := s.worker.fill task.outputs
    mNumTaskInProcesing := s.mNumTaskInProcesing - 1 } task.input first task.outputs
  change s.giveBack task first = _ at heq
  have hgap : (s.giveBack task first).gap = s.gap := by rw [heq]; rfl
  have hreturned : (s.giveBack task first).returned = s.returned ++ [task] := by rw [heq]
  have hinputs : (s.giveBack task first).mInputBuffers = active.map Task.input ++ waiting := by
    rw [heq]
    simp [hin]
  have hqueued : (s.giveBack task first).queued = s.queued := by rw [heq]
  have harrived : (s.giveBack task first).arrived = s.arrived := by rw [heq]
  have hbypass : (s.giveBack task first).mbBypass = s.mbBypass := by rw [heq]
  -- the frame's own time stamp is the last one shown
  have htime : s.stamp first = s.stamp task.input :=
    h.copied task (mem_cons_self ..) first (by simp [hfirst])
  have hrendered : (s.giveBack task first).rendered =
      s.rendered ++ stamps (s.stamp task.input) (outputRate s.mFilterParam) (rest.length + 1) := by
    rw [State.giveBack, hfirst, rendered_returnTask]
    exact congrArg (fun t => s.rendered ++ stamps t _ _) htime
  have hcount : s.gap s.returned.length = 1000000 * rest.length / outputRate s.mFilterParam := by
    have hlength : rest.length + 1 = s.worker.getOutputBufCount (s.returned.length % 2 ^ 32) := by
      rw [← length_cons, ← hfirst]
      exact hpaired.counts 0 (Nat.succ_pos _)
    rw [gap, span, ← hlength, Nat.add_sub_cancel]
  have hahead := h.ahead
  rw [hin, map_cons] at hahead
  obtain ⟨hbefore, hafter⟩ := hahead
  have hmem : task.input ∈ s.mInputBuffers := by simp [hin]
  have hlater : ∀ x ∈ active.map Task.input ++ waiting, x ∈ s.mInputBuffers :=
    fun x hx => hin ▸ mem_cons_of_mem _ hx
  have hle : ∀ r ∈ (s.giveBack task first).rendered,
      r ∈ s.rendered ∨ (s.stamp task.input - s.gap s.returned.length ≤ r ∧
        r ≤ s.stamp task.input) := by
    intro r hr
    rw [hrendered] at hr
    rcases mem_append.mp hr with hr | hr
    · exact .inl hr
    · rw [hcount]
      exact .inr (mem_stamps hr)
  refine ⟨?_, fun task' htask h' hh' => ?_, ?_, fun x hx => ?_, fun hb r hr => ?_, fun r hr => ?_, ?_,
    fun hb => ?_⟩
  · rw [hgap, hreturned, length_append, length_singleton, hinputs]
    have htail : (active.map Task.input ++ waiting).map (s.giveBack task first).stamp =
        (active.map Task.input ++ waiting).map s.stamp :=
      map_congr_left fun x hx => hstamp x (hdisjoint x (hlater x hx))
    rw [htail]
    refine hafter.mono fun r hr => ?_
    rcases hle r hr with hr | ⟨-, hr⟩
    · exact ⟨r, mem_append_left _ hr, le_refl r⟩
    · exact ⟨_, mem_append_right _ (mem_singleton.mpr rfl), hr⟩
  · have hout' : h' ∈ active.flatMap Task.outputs := mem_flatMap.mpr ⟨task', htask, hh'⟩
    have hin' := hlater _ (mem_append_left _ (mem_map_of_mem htask))
    rw [hstamp h' (hothers h' hout'), hstamp _ (hdisjoint _ hin')]
    exact h.copied task' (mem_cons_of_mem _ htask) h' hh'
  · rw [hrendered]
    refine pairwise_append.mpr ⟨h.increasing,
      stamps_pairwise _ (outputRate_pos _) (outputRate_le _) _, fun r hr r' hr' => ?_⟩
    have hlow := (mem_stamps hr').1
    have := hbefore r hr
    rw [Nat.add_sub_cancel] at hlow
    omega
  · rw [hinputs] at hx
    rw [hqueued, hstamp x (hdisjoint x (hlater x hx))]
    exact h.pending x (hlater x hx)
  · rw [hqueued]
    rcases hle r hr with hr | ⟨-, hr⟩
    · exact h.shown (hbypass ▸ hb) r hr
    · exact ⟨_, h.pending _ hmem, hr⟩
  · rw [harrived]
    rcases hle r hr with hr | ⟨-, hr⟩
    · exact h.seen r hr
    · exact ⟨_, h.arrived _ (h.pending _ hmem), hr⟩
  · rw [hqueued, harrived]
    exact h.arrived
  · have hnil := h.bypassed (hbypass ▸ hb)
    rw [hin] at hnil
    exact absurd hnil (by simp)

theorem fillLoop_paired (hp : ∀ h, p h ≤ 1) (fuel : ℕ) : ∀ (s : State) (active : List Task),
    Invariant p s → Paired s active waiting spare → ∃ t active', fillLoop fuel s = some t ∧
      Invariant p t ∧ Paired t active' waiting spare ∧ (Timed s active → Timed t active') := by
  induction fuel with
  | zero => exact fun s active hinv hpaired => ⟨s, active, rfl, hinv, hpaired, id⟩
  | succ fuel ih =>
    intro s active hinv hpaired
    rw [fillLoop]
    split
    · obtain hnone | ⟨hbufs, hle, hin⟩ := getBufForFirmwareOutput_eq hinv
      · rw [hnone]
        exact ⟨s, active, rfl, hinv, hpaired, id⟩
      · have hpos := getOutputBufCount_pos s.worker.mOutputIndex hinv.factor
        rw [← Worker.getFillBufCount] at hpos
        cases active with
        | nil =>
          have hidx := hpaired.inputIdx
          rw [length_nil] at hidx
          omega
        | cons task active =>
          have hin' := hpaired.inputs
          have hout' := hpaired.outputs
          rw [flatMap_cons, append_assoc] at hout'
          -- the count at this time is the one the task was started with
          have hcount : s.worker.getFillBufCount = task.outputs.length := by
            rw [Worker.getFillBufCount, hpaired.outputIndex]
            exact (hpaired.counts 0 (Nat.succ_pos _)).symm
          obtain ⟨first, rest, hfirst⟩ :=
            exists_cons_of_length_pos (l := task.outputs) (by omega)
          have htake : s.mOutputBuffers.take s.worker.getFillBufCount = task.outputs := by
            rw [hout', hcount, take_left]
          have hhead : s.mOutputBuffers = first :: (rest ++ (active.flatMap Task.outputs ++ spare)) := by
            rw [hout', hfirst, cons_append]
          have hinv' : Invariant p (s.giveBack task first) :=
            hinv.returnTask _ hin' (hout' ▸ prefix_append _ _) (hcount ▸ hle) hin _ rfl rfl
          have hupdate := updateFirmwareOutputBufStatus_eq (n := task.outputs.length)
            (s := { s with
              worker := s.worker.fill task.outputs
              mNumTaskInProcesing := s.mNumTaskInProcesing - 1 }) hin' hhead
            (hcount ▸ hle.trans hinv.outputIdx)
          obtain ⟨t, active', ht, hrest⟩ := ih _ active hinv' (hpaired.giveBack first)
          refine ⟨t, active', ?_, hrest.1, hrest.2.1, fun htimed => hrest.2.2 ?_⟩
          · rw [htake] at hbufs
            simp only [hbufs, hupdate, bind_eq_bind, bind_some]
            rw [← hcount, htake]
            exact ht
          · exact htimed.giveBack hpaired (nodup_queues hinv hp) hfirst
    · exact ⟨s, active, rfl, hinv, hpaired, id⟩

/-! ### Starting a task -/

/-- The output buffers of a task get the time stamp of its frame. -/
theorem stamp_copy {x : Header} (outputs : List Header) : ∀ s : State,
    (outputs.foldl (fun s h => s.setInfo h (s.info input)) s).stamp x =
      if x ∈ outputs then s.stamp input else s.stamp x := by
  induction outputs with
  | nil => exact fun s => by simp
  | cons output outputs ih =>
    intro s
    have hself : ∀ y, (s.setInfo output (s.info input)).stamp y =
        if y = output then s.stamp input else s.stamp y := by
      intro y
      by_cases hy : y = output
      · simp [stamp, setInfo, hy]
      · simp [stamp, setInfo, hy]
    rw [foldl_cons, ih, hself, hself, ite_self]
    by_cases hmem : x ∈ outputs
    · rw [if_pos hmem, if_pos (mem_cons_of_mem _ hmem)]
    · simp [hmem]

theorem Paired.startTask (h : Paired s active (input :: waiting) spare)
    (hn : n = s.worker.getProcBufCount) (hle : n ≤ spare.length) :
    Paired (s.startTask ⟨input, spare.take n⟩) (active ++ [⟨input, spare.take n⟩]) waiting
      (spare.drop n) := by
  obtain ⟨info, heq⟩ := startTask_eq s ⟨input, spare.take n⟩
  have hlength : (spare.take n).length = n := length_take_of_le hle
  rw [heq]
  refine ⟨?_, ?_, ?_, ?_, ?_, h.filled, ?_, h.outputIndex, ?_, h.queued, fun hq => ?_, h.flush⟩
  · simp [h.inputs]
  · simp [h.outputs]
  · simp [h.inputIdx]
  · simp [h.outputIdx, hlength]
  · simp [Worker.process, h.processed]
  · simp only [Worker.process, h.inputIndex, ← append_assoc, length_append, length_singleton]
    omega
  · intro i hi
    rw [length_append, length_singleton] at hi
    by_cases hlt : i < active.length
    · rw [getElem_append_left hlt]
      exact h.counts i hlt
    · have hi' : i = active.length := by omega
      subst hi'
      rw [getElem_append_right (le_refl _)]
      simp only [Nat.sub_self, getElem_cons_zero]
      rw [hlength, hn, Worker.getProcBufCount, h.inputIndex, length_append]
      rfl
  · exact { h.settled hq with }

theorem Timed.startTask (hpaired : Paired s active (input :: waiting) spare) (h : Timed s active)
    (hnodup : (s.mInputBuffers ++ s.mOutputBuffers).Nodup) :
    Timed (s.startTask ⟨input, spare.take n⟩) (active ++ [⟨input, spare.take n⟩]) := by
  have hstamp : ∀ x, (s.startTask ⟨input, spare.take n⟩).stamp x =
      if x ∈ spare.take n then s.stamp input else s.stamp x :=
    fun x => stamp_copy (spare.take n) { s with
      worker := s.worker.process ⟨input, spare.take n⟩
      mNumTaskInProcesing := s.mNumTaskInProcesing + 1 }
  have hspare : ∀ x ∈ spare.take n, x ∈ s.mOutputBuffers := by
    intro x hx
    rw [hpaired.outputs]
    exact mem_append_right _ (mem_of_mem_take hx)
  have hinputs : ∀ x ∈ s.mInputBuffers, (s.startTask ⟨input, spare.take n⟩).stamp x = s.stamp x :=
    fun x hx => (hstamp x).trans
      (if_neg fun hmem => (nodup_append.mp hnodup).2.2 x hx x (hspare x hmem) rfl)
  have hothers : ∀ x ∈ active.flatMap Task.outputs,
      (s.startTask ⟨input, spare.take n⟩).stamp x = s.stamp x := by
    refine fun x hx => (hstamp x).trans (if_neg fun hmem => ?_)
    have houts := (nodup_append.mp hnodup).2.1
    rw [hpaired.outputs] at houts
    exact (nodup_append.mp houts).2.2 x hx x (mem_of_mem_take hmem) rfl
  have hmem : ∀ x ∈ active.map Task.input ++ input :: waiting, x ∈ s.mInputBuffers :=
    fun x hx => hpaired.inputs ▸ hx
  have hcopied : ∀ task ∈ active ++ [⟨input, spare.take n⟩], ∀ x ∈ task.outputs,
      (s.startTask ⟨input, spare.take n⟩).stamp x =
        (s.startTask ⟨input, spare.take n⟩).stamp task.input := by
    intro task htask x hx
    rcases mem_append.mp htask with htask | htask
    · have hin := hmem _ (mem_append_left _ (mem_map_of_mem htask))
      rw [hothers x (mem_flatMap.mpr ⟨task, htask, hx⟩), hinputs _ hin]
      exact h.copied task htask x hx
    · obtain rfl := mem_singleton.mp htask
      rw [hstamp x, if_pos hx]
      exact (hinputs input (hmem _ (mem_append_right _ (mem_cons_self ..)))).symm
  have hmap : s.mInputBuffers.map (s.startTask ⟨input, spare.take n⟩).stamp =
      s.mInputBuffers.map s.stamp := map_congr_left hinputs
  obtain ⟨info, heq⟩ := startTask_eq s ⟨input, spare.take n⟩
  rw [heq] at hmap hinputs hcopied ⊢
  refine { h with ahead := ?_, copied := hcopied, pending := fun x hx => ?_ }
  · rw [hmap]
    exact h.ahead
  · rw [hinputs x hx]
    exact h.pending x hx

/-- An iteration of the thread keeps the tasks in order. -/
theorem threadLoop_paired (hp : ∀ h, p h ≤ 1) (hinv : Invariant p s)
    (hpaired : Paired s active waiting spare) {a : Answers} (ha : a.process = true)
    (ht : s.threadLoop a = some t) : ∃ active' waiting' spare', Paired t active' waiting' spare' ∧
      (Timed s active → Timed t active') := by
  rw [threadLoop, hpaired.flush, Bool.or_false] at ht
  split at ht
  · rename_i hready
    obtain ⟨input, hinput, hle, hbufs⟩ := getBufForFirmwareInput_of_ready hinv hpaired.flush hready
    have hin := hpaired.inputs
    have hdrop : s.mOutputBuffers.drop s.mOutputProcIdx = spare := by
      rw [hpaired.outputs, hpaired.outputIdx, drop_left]
    cases waiting with
    | nil =>
      rw [hin, hpaired.inputIdx, append_nil, List.getElem?_eq_none (by simp)] at hinput
      exact absurd hinput (by simp)
    | cons first waiting =>
      have hfirst : first = input := by
        rw [hin, hpaired.inputIdx, List.getElem?_append_right (by simp), length_map,
          Nat.sub_self, List.getElem?_cons_zero] at hinput
        exact some.inj hinput
      subst hfirst
      have hlength : s.worker.getProcBufCount ≤ spare.length := by
        have hout := hpaired.outputs
        have houtIdx := hpaired.outputIdx
        rw [hout, length_append] at hle
        omega
      have hinv' := hinv.startTask (spare.take s.worker.getProcBufCount) hinput
        (by rw [length_take_of_le hlength]; exact hle)
      have hpaired' := hpaired.startTask rfl hlength
      obtain ⟨t', active', ht', -, hpaired'', htimed⟩ :=
        fillLoop_paired hp _ _ _ hinv' hpaired'
      rw [hdrop] at hbufs
      simp only [hbufs, bind_eq_bind, bind_some] at ht
      rw [← hdrop, afterProcess_eq hinput hle ha, hdrop, fillTasks, ht'] at ht
      obtain rfl := some.inj ht
      exact ⟨active', waiting, _, hpaired'',
        fun h => htimed (h.startTask hpaired (nodup_queues hinv hp))⟩
  · obtain ⟨t', active', ht', -, hpaired', htimed⟩ :=
      fillLoop_paired hp s.mNumTaskInProcesing s active hinv hpaired
    rw [fillTasks, ht'] at ht
    obtain rfl := some.inj ht
    exact ⟨active', waiting, spare, hpaired', htimed⟩

/-! ### Frames and buffers that arrive -/

variable {cfg : Profile} {h : Header} {setup : Setup}

/-- The filters that decide on the number of output buffers. -/
theorem getOutputBufCount_congr {w w' : Worker} (index : ℕ)
    (hfilters : w'.mFilters &&& FilterFrameRateConversion = w.mFilters &&& FilterFrameRateConversion)
    (hparam : w'.mFilterParam = w.mFilterParam) :
    w'.getOutputBufCount index = w.getOutputBufCount index := by
  rw [Worker.getOutputBufCount, Worker.getOutputBufCount, hfilters, hparam]

/-- What is outside the processor does not concern the tasks. -/
theorem Paired.surroundings (hpaired : Paired s active waiting spare) (info : Header → BufferInfo)
    (client decoder : List Header) (rendered : List ℤ) (n : ℕ) :
    Paired { s with
      info := info
      client := client
      decoder := decoder
      rendered := rendered
      mNumDecoderBuffers := n } active waiting spare :=
  { hpaired with settled := fun hq => { hpaired.settled hq with } }

theorem Paired.of_gives {hs : List Header} (hpaired : Paired s active waiting spare)
    (hgives : Gives hs s t) : Paired t active waiting spare := by
  obtain ⟨info, client, decoder, rendered, rfl, -⟩ := hgives
  exact hpaired.surroundings info client decoder rendered s.mNumDecoderBuffers

/-- Nor does it concern the time stamps, if the queued headers are not touched. -/
theorem Timed.surroundings (htimed : Timed s active) {info : Header → BufferInfo}
    (hinputs : ∀ x ∈ s.mInputBuffers, info x = s.info x)
    (hactive : ∀ task ∈ active, info task.input = s.info task.input ∧
      ∀ x ∈ task.outputs, info x = s.info x) (client decoder : List Header) (n : ℕ) :
    Timed { s with
      info := info
      client := client
      decoder := decoder
      mNumDecoderBuffers := n } active := by
  have hstamp : ∀ x ∈ s.mInputBuffers, (info x).nTimeStamp = s.stamp x :=
    fun x hx => congrArg BufferInfo.nTimeStamp (hinputs x hx)
  refine { htimed with ahead := ?_, copied := fun task htask x hx => ?_, pending := fun x hx => ?_ }
  · have hahead := htimed.ahead
    rw [← map_congr_left hstamp] at hahead
    exact hahead
  · obtain ⟨hinput, houtputs⟩ := hactive task htask
    change (info x).nTimeStamp = (info task.input).nTimeStamp
    rw [houtputs x hx, hinput]
    exact htimed.copied task htask x hx
  · change (info x).nTimeStamp ∈ s.queued
    rw [hstamp x hx]
    exact htimed.pending x hx

/-- A header that goes to the decoder does not concern the time stamps. -/
theorem Timed.toDecoder (htimed : Timed s active) (h : Header) :
    Timed (s.releaseBuffer .kPortIndexInput h false) active := by
  have hstamp : (s.releaseBuffer .kPortIndexInput h false).stamp = s.stamp :=
    funext (stamp_releaseBuffer s .kPortIndexInput h false)
  refine { htimed with ahead := ?_, copied := ?_, pending := ?_ }
  · rw [hstamp]
    exact htimed.ahead
  · rw [hstamp]
    exact htimed.copied
  · rw [hstamp]
    exact htimed.pending

theorem addOutput_paired (hpaired : Paired s active waiting spare) :
    ∃ spare', Paired (s.addOutput h) active waiting spare' ∧
      (Timed s active → Timed (s.addOutput h) active) := by
  unfold addOutput
  rw [if_neg (by simp [hpaired.flush])]
  split
  · exact ⟨spare, hpaired.of_gives (gives_releaseBuffer _ _ _ _), fun htimed => htimed.toDecoder h⟩
  · exact ⟨spare ++ [h], { hpaired with
      outputs := by simp [hpaired.outputs]
      settled := fun hq => { hpaired.settled hq with } }, fun htimed => { htimed with }⟩

/-- The condition under which a frame keeps the time stamps in order. -/
structure Later (s : State) (b : BufferInfo) : Prop where
  arrived : ∀ t ∈ s.arrived, t < b.nTimeStamp
  queued : ∀ t ∈ s.queued, t + s.gap s.queued.length < b.nTimeStamp
  filters : s.mInputBuffers ≠ [] → (s.configDeinterlacing b.nFlags).mFilters ≠ 0

/-- A frame that passes the empty queue is shown as it is. -/
theorem Timed.pass {ts : ℤ} (htimed : Timed s active) (hnil : s.mInputBuffers = [])
    (harrived : ∀ t ∈ s.arrived, t < ts) (info : Header → BufferInfo) (client : List Header)
    (retry : ℕ) (last : ℤ) (filters : BitVec 32) (param : FilterParam) (worker : Worker) :
    Timed { s with
      info := info
      client := client
      arrived := s.arrived ++ [ts]
      rendered := s.rendered ++ [ts]
      mNumRetry := retry
      mLastTimeStamp := last
      mFilters := filters
      mFilterParam := param
      worker := worker
      mbBypass := true } [] := by
  refine ⟨?_, by simp, ?_, by simp [hnil], by simp, fun r hr => ?_, fun a ha => ?_, fun _ => hnil⟩
  · simp only [hnil]
    exact trivial
  · refine pairwise_append.mpr ⟨htimed.increasing, pairwise_singleton _ _, fun r hr t ht => ?_⟩
    obtain ⟨a, ha, hle⟩ := htimed.seen r hr
    obtain rfl := mem_singleton.mp ht
    exact lt_of_le_of_lt hle (harrived a ha)
  · rcases mem_append.mp hr with hr | hr
    · obtain ⟨a, ha, hle⟩ := htimed.seen r hr
      exact ⟨a, mem_append_left _ ha, hle⟩
    · exact ⟨r, mem_append_right _ hr, le_refl r⟩
  · exact mem_append_left _ (htimed.arrived a ha)

/-- A worker that `configFilters` has changed for a settled processor. -/
theorem Settled.config (hsettled : s.Settled) {b : BufferInfo} {filters : BitVec 32}
    {param : FilterParam} {worker : Worker}
    (hworker : worker = s.worker ∨ worker.mFilters = filters ∧ worker.mFilterParam = param)
    (hdecided : filters = (s.configDeinterlacing b.nFlags).mFilters ∧ param = s.mFilterParam) :
    Converts filters param ∧
      worker.mFilters &&& FilterFrameRateConversion = filters &&& FilterFrameRateConversion ∧
      worker.mFilterParam = param ∧
      worker.mFilters &&& FilterFrameRateConversion =
        s.worker.mFilters &&& FilterFrameRateConversion ∧
      worker.mFilterParam = s.worker.mFilterParam ∧ param = s.mFilterParam := by
  obtain ⟨filters', hdeint, hand⟩ := configDeinterlacing_eq s b.nFlags
  obtain ⟨rfl, rfl⟩ := hdecided
  have hfilters : (s.configDeinterlacing b.nFlags).mFilters = filters' := by rw [hdeint]
  rw [hfilters] at hworker ⊢
  have hconverts : Converts filters' s.mFilterParam :=
    ⟨fun h => hsettled.converts.valid (hand ▸ h), fun h => hsettled.converts.factor (hand ▸ h)⟩
  rcases hworker with rfl | ⟨hwf, hwp⟩
  · exact ⟨hconverts, hsettled.filters.trans hand.symm, hsettled.param, rfl, rfl, rfl⟩
  · refine ⟨hconverts, by rw [hwf], hwp, ?_, hwp.trans hsettled.param.symm, rfl⟩
    rw [hwf, hand, hsettled.filters]

/-- A frame keeps the tasks as they are; it waits behind them if it is queued. -/
theorem addInput_paired (cfg : Profile) {q : Header → ℕ} (hinv : Invariant q s)
    (hpaired : Paired s active waiting spare)
    (heos : (s.info h).nFlags &&& OMX_BUFFERFLAG_EOS = 0) (hok : setup.ok = true) :
    ∃ waiting', Paired (s.addInput cfg h setup) active waiting' spare ∧
      (Timed s active → s.Later (s.info h) → Timed (s.addInput cfg h setup) active) := by
  have hnil : s.mInputBuffers = [] → active = [] := by
    intro hnil
    have hin := hpaired.inputs
    rw [hnil] at hin
    exact List.map_eq_nil_iff.mp (List.append_eq_nil_iff.mp hin.symm).1
  unfold State.addInput
  rw [if_neg (by simp [hpaired.flush])]
  split
  · rename_i hbypass
    refine ⟨waiting, { hpaired with settled := fun hq => { hpaired.settled hq with } },
      fun htimed hlater => ?_⟩
    have hempty := htimed.bypassed hbypass
    rw [hnil hempty] at htimed ⊢
    have hpass := htimed.pass hempty hlater.arrived s.info (h :: s.client) s.mNumRetry
      s.mLastTimeStamp s.mFilters s.mFilterParam s.worker
    rw [← hbypass] at hpass
    exact hpass
  rename_i hbypass
  rw [Bool.not_eq_true] at hbypass
  rw [if_neg (by simp [heos])]
  obtain ⟨retry, last, filters, param, worker, status, heq, -, hworker, hzero, hdecided⟩ :=
    configFilters_eq cfg (s := { s with arrived := s.arrived ++ [(s.info h).nTimeStamp] })
      hinv.decided (s.info h) setup
  rw [heq]
  have hcopy : worker = s.worker ∨ worker.mFilters = filters ∧ worker.mFilterParam = param := by
    obtain ⟨rfl, -⟩ | ⟨-, references, rfl⟩ := hworker
    · exact .inl rfl
    · exact .inr ⟨rfl, rfl⟩
  have hlog : worker.processed = s.worker.processed ∧ worker.filled = s.worker.filled ∧
      worker.mInputIndex = s.worker.mInputIndex ∧ worker.mOutputIndex = s.worker.mOutputIndex := by
    obtain ⟨rfl, -⟩ | ⟨-, references, rfl⟩ := hworker
    · exact ⟨rfl, rfl, rfl, rfl⟩
    · exact ⟨rfl, rfl, rfl, rfl⟩
  have hconfig : s.queued ≠ [] → _ := fun hq =>
    (hpaired.settled hq).config hcopy
      ((hdecided (hpaired.settled hq).converts).imp_left
        fun heq => heq.trans (configDeinterlacing_congr (by rfl) _))
  obtain ⟨hprocessed, hfilled, hinputIndex, houtputIndex⟩ := hlog
  have hcounts : ∀ i (hi : i < active.length), active[i].outputs.length =
      worker.getOutputBufCount ((s.returned.length + i) % 2 ^ 32) := by
    intro i hi
    have hq : s.queued ≠ [] := by
      intro hq
      have hlength := hpaired.queued
      rw [hq, hpaired.inputs, List.length_append, List.length_map, List.length_nil] at hlength
      omega
    obtain ⟨-, -, -, hwf, hwp, -⟩ := hconfig hq
    rw [getOutputBufCount_congr _ hwf hwp]
    exact hpaired.counts i hi
  have hwait : s.mInputBuffers ≠ [] → s.queued ≠ [] := by
    intro hne hq
    have hlength := hpaired.queued
    rw [hq, List.length_nil] at hlength
    exact hne (List.length_eq_zero_iff.mp (by omega))
  have hgap : s.queued ≠ [] → ∀ k,
      span param (worker.getOutputBufCount (k % 2 ^ 32)) = s.gap k := by
    intro hq k
    obtain ⟨-, -, -, hwf, hwp, hparam⟩ := hconfig hq
    rw [getOutputBufCount_congr _ hwf hwp, hparam]
    rfl
  have hahead : Timed s active → Ahead (fun k => span param (worker.getOutputBufCount (k % 2 ^ 32)))
      s.returned.length s.rendered (s.mInputBuffers.map s.stamp) := by
    intro htimed
    by_cases hne : s.mInputBuffers = []
    · rw [hne]
      exact trivial
    · rw [funext (hgap (hwait hne))]
      exact htimed.ahead
  have hseen : Timed s active →
      ∀ r ∈ s.rendered, ∃ a ∈ s.arrived ++ [(s.info h).nTimeStamp], r ≤ a := by
    intro htimed r hr
    obtain ⟨a, ha, hle⟩ := htimed.seen r hr
    exact ⟨a, List.mem_append_left _ ha, hle⟩
  have hkept : ∀ bypass, Paired { s with
      arrived := s.arrived ++ [(s.info h).nTimeStamp]
      mNumRetry := retry
      mLastTimeStamp := last
      mbBypass := bypass
      mFilters := filters
      mFilterParam := param
      worker := worker } active waiting spare := fun _ =>
    { hpaired with
      processed := hprocessed.trans hpaired.processed
      filled := hfilled.trans hpaired.filled
      inputIndex := hinputIndex.trans hpaired.inputIndex
      outputIndex := houtputIndex.trans hpaired.outputIndex
      counts := hcounts
      settled := fun hq => ⟨(hconfig hq).1, (hconfig hq).2.1, (hconfig hq).2.2.1⟩ }
  cases status with
  | notEnoughData =>
    refine ⟨waiting, (hkept _).of_gives (gives_releaseBuffer _ _ _ _), fun htimed _ =>
      Timed.toDecoder ?_ h⟩
    exact { htimed with ahead := hahead htimed, seen := hseen htimed, arrived := fun a ha =>
      List.mem_append_left _ (htimed.arrived a ha) }
  | unknownError =>
    refine ⟨waiting, (hkept _).of_gives (gives_releaseBuffer _ _ _ _), fun htimed hlater => ?_⟩
    -- a frame without filters comes when nothing is queued
    have hempty : s.mInputBuffers = [] := by
      by_contra hne
      have hdeint := (hdecided (hpaired.settled (hwait hne)).converts).1
      rw [hzero rfl hok] at hdeint
      exact hlater.filters hne (hdeint.trans (configDeinterlacing_congr (by rfl) _)).symm
    rw [hnil hempty] at htimed ⊢
    exact htimed.pass hempty hlater.arrived s.info (h :: s.client) retry last filters param worker
  | ok =>
    obtain ⟨-, hstatus⟩ | ⟨hconverts, references, rfl⟩ := hworker
    · exact absurd rfl hstatus
    refine ⟨waiting ++ [h], { hkept s.mbBypass with
      inputs := by simp [hpaired.inputs]
      queued := ?_
      settled := fun _ => ⟨hconverts, rfl, rfl⟩ }, fun htimed hlater => ?_⟩
    · have hlength := hpaired.queued
      simp only [List.length_append, List.length_singleton]
      omega
    · refine ⟨?_, htimed.copied, htimed.increasing, fun x hx => ?_, fun _ r hr => ?_, hseen htimed,
        fun a ha => ?_, fun hb => ?_⟩
      · simp only [List.map_append, List.map_cons, List.map_nil]
        refine (hahead htimed).concat fun r hr => ?_
        -- what is shown or pending is not later than a queued frame
        have hle : ∃ a ∈ s.queued, r ≤ a := by
          rcases List.mem_append.mp hr with hr | hr
          · exact htimed.shown hbypass r hr
          · obtain ⟨x, hx, rfl⟩ := List.mem_map.mp hr
            exact ⟨_, htimed.pending x hx, le_refl _⟩
        obtain ⟨a, ha, hra⟩ := hle
        have hlate := hlater.queued a ha
        rw [List.length_map, ← hpaired.queued, hgap (List.ne_nil_of_mem ha)]
        exact lt_of_le_of_lt (by omega) hlate
      · rcases List.mem_append.mp hx with hx | hx
        · exact List.mem_append_left _ (htimed.pending x hx)
        · obtain rfl := List.mem_singleton.mp hx
          exact List.mem_append_right _ (List.mem_singleton.mpr rfl)
      · obtain ⟨a, ha, hle⟩ := htimed.shown hbypass r hr
        exact ⟨a, List.mem_append_left _ ha, hle⟩
      · rcases List.mem_append.mp ha with ha | ha
        · exact List.mem_append_left _ (htimed.arrived a ha)
        · exact List.mem_append_right _ ha
      · rw [hbypass] at hb
        exact absurd hb (by decide)

/-- A header that the decoder holds is in no queue. -/
theorem notMem_queues (hinv : Invariant p s) (hp : ∀ h, p h ≤ 1) (hmem : h ∈ s.decoder) :
    h ∉ s.mInputBuffers ∧ h ∉ s.mOutputBuffers := by
  have hplaces := hinv.once h
  have hone := hp h
  have hpos := count_pos_iff.mpr hmem
  rw [places] at hplaces
  exact ⟨count_eq_zero.mp (by omega), count_eq_zero.mp (by omega)⟩

end State

open State

variable {cfg : Profile} {init s t : State} {p : Header → ℕ}

/-- Every undisturbed step keeps the tasks in order, and the time stamps if it is spaced. -/
theorem step_paired (hp : ∀ h, p h ≤ 1) (hinv : Invariant p s) {active : List Task}
    {waiting spare : List Header} (hpaired : Paired s active waiting spare) {op : Op}
    (hop : s.Undisturbed op) (hstep : step cfg s op = some t) :
    ∃ active' waiting' spare', Paired t active' waiting' spare' ∧
      (Timed s active → s.Spaced op → Timed t active') := by
  cases op with
  | fillThisBuffer h mapped =>
    obtain ⟨-, heq⟩ := ite_none_right_eq_some.mp hstep
    rw [← some.inj heq, fillThisBuffer]
    have hdecoder : ∀ n, ∃ active' waiting' spare', Paired { s with
          client := s.client.erase h
          decoder := h :: s.decoder
          mNumDecoderBuffers := n } active' waiting' spare' ∧
        (Timed s active → s.Spaced (.fillThisBuffer h mapped) → Timed { s with
          client := s.client.erase h
          decoder := h :: s.decoder
          mNumDecoderBuffers := n } active') := fun n =>
      ⟨active, waiting, spare, hpaired.surroundings _ _ _ _ n, fun htimed _ =>
        htimed.surroundings (fun _ _ => rfl) (fun _ _ => ⟨rfl, fun _ _ => rfl⟩) _ _ n⟩
    split
    · exact hdecoder s.mNumDecoderBuffers
    split
    · rename_i hmapped
      have htrue : mapped = true := hop
      simp [htrue] at hmapped
    split
    · exact hdecoder (s.mNumDecoderBuffers - 1)
    · obtain ⟨spare', hpaired', htimed⟩ := addOutput_paired (h := h)
        (hpaired.surroundings s.info (s.client.erase h) s.decoder s.rendered s.mNumDecoderBuffers)
      exact ⟨active, waiting, spare', hpaired', fun h _ => htimed
        (h.surroundings (fun _ _ => rfl) (fun _ _ => ⟨rfl, fun _ _ => rfl⟩) _ _ _)⟩
  | fillBufferDone h b setup =>
    obtain ⟨hmem, heq⟩ := ite_none_right_eq_some.mp hstep
    obtain ⟨heos, hok, harrived⟩ := hop
    obtain ⟨hin, hout⟩ := notMem_queues hinv hp hmem
    have hinfo : ∀ x, x ≠ h → Function.update s.info h b x = s.info x :=
      fun x hx => Function.update_of_ne hx b s.info
    have htimed : ∀ client decoder, Timed s active → Timed { s with
        info := Function.update s.info h b
        client := client
        decoder := decoder } active := by
      refine fun client decoder htimed => htimed.surroundings
        (fun x hx => hinfo x (ne_of_mem_of_not_mem hx hin)) (fun task htask => ⟨?_, fun x hx => ?_⟩)
        client decoder s.mNumDecoderBuffers
      · refine hinfo _ (ne_of_mem_of_not_mem ?_ hin)
        rw [hpaired.inputs]
        exact mem_append_left _ (mem_map_of_mem htask)
      · refine hinfo x (ne_of_mem_of_not_mem ?_ hout)
        rw [hpaired.outputs]
        exact mem_append_left _ (mem_flatMap.mpr ⟨task, htask, hx⟩)
    rw [← some.inj heq, fillBufferDone]
    split
    · exact ⟨active, waiting, spare, hpaired.surroundings _ _ _ _ _, fun h' _ => htimed _ _ h'⟩
    · have htaken : Invariant (fun x => { s.setInfo h b with decoder := s.decoder.erase h }.places x)
          { s.setInfo h b with decoder := s.decoder.erase h } :=
        { hinv with once := fun _ => rfl }
      have hself : ({ s.setInfo h b with decoder := s.decoder.erase h } : State).info h = b := by
        simp [setInfo]
      obtain ⟨waiting', hpaired', htimed'⟩ := addInput_paired cfg (h := h) htaken
        (hpaired.surroundings (Function.update s.info h b) s.client (s.decoder.erase h) s.rendered
          s.mNumDecoderBuffers) (hself.symm ▸ heos) hok
      refine ⟨active, waiting', spare, hpaired', fun h' hspaced => htimed' (htimed _ _ h') ?_⟩
      rw [hself]
      exact ⟨harrived, hspaced.1, fun hne hzero =>
        hspaced.2 hne ((configDeinterlacing_congr (by rfl) b.nFlags).trans hzero)⟩
  | sendCommand c =>
    have hflush : flushesOutput c = false := hop
    rw [step, sendCommand, hflush, Bool.and_false, if_neg (by decide)] at hstep
    exact ⟨active, waiting, spare, some.inj hstep ▸ hpaired, fun h _ => some.inj hstep ▸ h⟩
  | commandComplete c =>
    have hflush : flushesOutput c = false := hop
    rw [step, commandComplete, hflush, Bool.and_false, if_neg (by decide)] at hstep
    exact ⟨active, waiting, spare, some.inj hstep ▸ hpaired, fun h _ => some.inj hstep ▸ h⟩
  | threadLoop a =>
    obtain ⟨active', waiting', spare', hpaired', htimed⟩ := threadLoop_paired hp hinv hpaired hop hstep
    exact ⟨active', waiting', spare', hpaired', fun h _ => htimed h⟩

theorem Initial.paired (hinit : Initial init) : Paired init [] [] [] where
  inputs := hinit.inputs
  outputs := hinit.outputs
  inputIdx := hinit.inputIdx
  outputIdx := hinit.outputIdx
  processed := by rw [hinit.processed, hinit.returned]; rfl
  filled := by rw [hinit.filled, hinit.returned]; rfl
  inputIndex := by rw [hinit.inputIndex, hinit.returned]; rfl
  outputIndex := by rw [hinit.outputIndex, hinit.returned]; rfl
  counts := fun _ hi => absurd hi (Nat.not_lt_zero _)
  queued := by rw [hinit.queued, hinit.returned, hinit.inputs]; rfl
  settled := fun hq => absurd hinit.queued hq
  flush := hinit.flush

theorem Initial.timed (hinit : Initial init) : Timed init [] where
  ahead := by rw [hinit.inputs]; exact trivial
  copied := by simp
  increasing := by rw [hinit.rendered]; exact List.Pairwise.nil
  pending := by simp [hinit.inputs]
  shown := by simp [hinit.rendered]
  seen := by simp [hinit.rendered]
  arrived := by simp [hinit.queued]
  bypassed := fun _ => hinit.inputs

theorem Initial.places_le (hinit : Initial init) (h : Header) : init.places h ≤ 1 := by
  have hone := nodup_iff_count_le_one.mp hinit.once h
  rw [count_append] at hone
  rw [places, hinit.inputs, hinit.outputs, count_nil]
  exact hone

theorem Undisturbed.completes {op : Op} {active : List Task} {waiting spare : List Header}
    (hpaired : Paired s active waiting spare) (hop : s.Undisturbed op) : s.Completes op := by
  cases op with
  | threadLoop a =>
    refine ⟨fun hflush => ?_, fun _ hprocess => ?_⟩
    · rw [hpaired.flush] at hflush
      exact absurd hflush (by decide)
    · have htrue : a.process = true := hop
      rw [htrue] at hprocess
      exact absurd hprocess (by decide)
  | fillThisBuffer | fillBufferDone | sendCommand | commandComplete => exact trivial

/-- In every undisturbed run the `k`-th task that is given back is the `k`-th one that was started,
with the output buffers it was started with; and if the run is spaced too, the time stamps shown to
the client increase. -/
theorem frames_paired (hinit : Initial init) :
    (∀ s, Reach (step cfg) Undisturbed init s →
      s.returned <+: s.worker.processed ∧ s.worker.filled = s.returned.map Task.outputs) ∧
    ∀ s, Reach (step cfg) (fun s op => s.Undisturbed op ∧ s.Spaced op) init s →
      s.rendered.Pairwise (· < ·) := by
  constructor
  · intro s hrun
    obtain ⟨-, active, waiting, spare, hpaired⟩ := hrun.invariant
      (I := fun s => Invariant init.places s ∧
        ∃ active waiting spare, Paired s active waiting spare)
      ⟨hinit.invariant, [], [], [], hinit.paired⟩ (by
        rintro s op t ⟨hinv, active, waiting, spare, hpaired⟩ hop hstep
        obtain ⟨active', waiting', spare', hpaired', -⟩ :=
          step_paired hinit.places_le hinv hpaired hop hstep
        exact ⟨step_invariant hinv (Undisturbed.completes hpaired hop) hstep, active', waiting',
          spare', hpaired'⟩)
    exact ⟨⟨active, hpaired.processed.symm⟩, hpaired.filled⟩
  · intro s hrun
    obtain ⟨-, active, waiting, spare, -, htimed⟩ := hrun.invariant
      (I := fun s => Invariant init.places s ∧
        ∃ active waiting spare, Paired s active waiting spare ∧ Timed s active)
      ⟨hinit.invariant, [], [], [], hinit.paired, hinit.timed⟩ (by
        rintro s op t ⟨hinv, active, waiting, spare, hpaired, htimed⟩ ⟨hop, hspaced⟩ hstep
        obtain ⟨active', waiting', spare', hpaired', htimed'⟩ :=
          step_paired hinit.places_le hinv hpaired hop hstep
        exact ⟨step_invariant hinv (Undisturbed.completes hpaired hop) hstep, active', waiting',
          spare', hpaired', htimed' htimed hspaced⟩)
    exact htimed.increasing

/-- A stream at 15 frames per second that is doubled. -/
theorem frames_paired_doubled : ∃ s,
    Reach (step ⟨true, fun d => if d = 66667 then 15 else 0, [(15, .x2)]⟩)
      (fun s op => s.Undisturbed op ∧ s.Spaced op) (started [0, 1, 2] [3, 4] 0x40) s ∧
      s.rendered = [66667, 100001, 133334] ∧ s.rendered.Pairwise (· < ·) :=
  Reach.exists_of_decide (fun s hrun (hs : s.rendered = [66667, 100001, 133334]) =>
      ⟨hs, (frames_paired (initial_started 0x40 (by decide))).2 s hrun⟩)
    [.fillThisBuffer 0 true, .fillThisBuffer 1 true, .fillThisBuffer 2 true,
      .fillBufferDone 3 ⟨66667, 1, 0, 0⟩ ⟨true, 0⟩, .threadLoop ⟨true, ⟨true, 0⟩⟩,
      .fillBufferDone 4 ⟨133334, 1, 0, 0⟩ ⟨true, 0⟩, .threadLoop ⟨true, ⟨true, 0⟩⟩] (by decide)

/-- A stream at 15 frames per second that is converted to four times its rate: the time stamps of
the second task start before the first frame. -/
theorem interpolated_before_frame : ¬ ∀ (cfg : Profile) (init s : State), Initial init →
    Reach (step cfg) Undisturbed init s →
      (s.returned <+: s.worker.processed ∧ s.worker.filled = s.returned.map Task.outputs) ∧
        s.rendered.Pairwise (· < ·) := by
  intro h
  obtain ⟨s, hrun, hs⟩ : ∃ s,
      Reach (step ⟨true, fun d => if d = 66667 then 15 else 0, [(15, .x4)]⟩) Undisturbed
        (started [0, 1, 2, 3, 4] [5, 6] 0x40) s ∧
      s.rendered = [66667, 33334, 66668, 100001, 133334] :=
    Reach.exists_of_decide (fun _ _ h => h)
      [.fillThisBuffer 0 true, .fillThisBuffer 1 true, .fillThisBuffer 2 true,
        .fillThisBuffer 3 true, .fillThisBuffer 4 true,
        .fillBufferDone 5 ⟨66667, 1, 0, 0⟩ ⟨true, 0⟩, .threadLoop ⟨true, ⟨true, 0⟩⟩,
        .fillBufferDone 6 ⟨133334, 1, 0, 0⟩ ⟨true, 0⟩, .threadLoop ⟨true, ⟨true, 0⟩⟩] (by decide)
  have hincreasing := (h _ _ s (initial_started 0x40 (by decide)) hrun).2
  rw [hs] at hincreasing
  exact absurd hincreasing (by decide)

end HardwareIntel.Isv
