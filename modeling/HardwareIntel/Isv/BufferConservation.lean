import HardwareIntel.Isv.Processor

/-!
# No buffer header of the output port is lost

A header is with the client, with the decoder or in one of the two queues. The queues and the two
progress indices are changed by the client, by the decoder and by the processor's thread, and an end
of stream, a flush and the switch to bypass mode each reset a part of them.

`headers_conserved` says which iterations of the thread keep everything in order: those that do not
flush while `mOutputBuffers` is empty, since the last output buffer is passed to the worker even
then, and in which `process` does not fail while tasks are in progress, since the queues are emptied
then but the indices stay.
-/

namespace HardwareIntel.Isv

open List Option

namespace State

/-- In how many places a header is. -/
def places (s : State) (h : Header) : ℕ :=
  s.client.count h + s.decoder.count h + s.mInputBuffers.count h + s.mOutputBuffers.count h

/-- What holds at every moment of a run that started in `init`. -/
structure Sound (init s : State) : Prop where
  once : ∀ h ∈ init.client ++ init.decoder, s.places h = 1
  inputIdx : s.mInputProcIdx ≤ s.mInputBuffers.length
  outputIdx : s.mOutputProcIdx ≤ s.mOutputBuffers.length

/-- The worker is called, and nothing goes wrong with the call. -/
def Completes (s : State) : Op → Prop
  | .threadLoop a =>
    (s.mbFlush = true → s.mOutputBuffers ≠ []) ∧
      ((s.isReadytoRun || s.mbFlush) = true → a.process = false →
        s.mInputProcIdx = 0 ∧ s.mOutputProcIdx = 0)
  | _ => True

instance (s : State) (op : Op) : Decidable (s.Completes op) :=
  match op with
  | .threadLoop _ => inferInstanceAs (Decidable (_ ∧ _))
  | .fillThisBuffer .. | .fillBufferDone .. | .sendCommand _ | .commandComplete _ => isTrue trivial

/-! ### Giving headers away -/

variable {s t u : State} {hs hs' : List Header} {h : Header}

/-- The headers `hs` are given to the client or the decoder; the rest of the state stays. -/
def Gives (hs : List Header) (s t : State) : Prop :=
  ∃ info client decoder rendered,
    t = { s with info := info, client := client, decoder := decoder, rendered := rendered } ∧
      ∀ h, client.count h + decoder.count h =
        s.client.count h + s.decoder.count h + hs.count h

theorem Gives.refl (s : State) : Gives [] s s := ⟨_, _, _, _, rfl, fun _ => rfl⟩

theorem Gives.trans (hst : Gives hs s t) (htu : Gives hs' t u) : Gives (hs ++ hs') s u := by
  obtain ⟨_, _, _, _, rfl, hcount⟩ := hst
  obtain ⟨info, client, decoder, rendered, rfl, hcount'⟩ := htu
  refine ⟨info, client, decoder, rendered, rfl, fun h => ?_⟩
  rw [hcount' h, hcount h, count_append, Nat.add_assoc]

theorem gives_setInfo (s : State) (h : Header) (b : BufferInfo) : Gives [] s (s.setInfo h b) :=
  ⟨_, _, _, _, rfl, fun _ => rfl⟩

theorem gives_releaseBuffer (s : State) (index : PortIndex) (h : Header) (bFlush : Bool) :
    Gives [h] s (s.releaseBuffer index h bFlush) := by
  cases bFlush with
  | true =>
    refine ⟨_, _, _, _, rfl, fun x => ?_⟩
    simp only [setInfo, count_cons, count_nil]
    omega
  | false =>
    cases index with
    | kPortIndexInput =>
      refine ⟨_, _, _, _, rfl, fun x => ?_⟩
      simp only [setInfo, count_cons, count_nil]
      omega
    | kPortIndexOutput =>
      refine ⟨_, _, _, _, rfl, fun x => ?_⟩
      simp only [count_cons, count_nil]
      omega

theorem gives_render (timeUs : ℤ) (n : ℕ) (outputs : List Header) :
    ∀ s, Gives outputs s (render timeUs n outputs s) := by
  induction outputs with
  | nil => exact Gives.refl
  | cons outputBuffer rest ih =>
    intro s
    rw [← singleton_append]
    refine Gives.trans ?_ (ih _)
    split
    · exact (gives_setInfo s outputBuffer _).trans (gives_releaseBuffer _ _ _ _)
    · exact gives_releaseBuffer _ _ _ _

theorem gives_release_all (index : PortIndex) (hs : List Header) :
    ∀ s, Gives hs s (hs.foldl (fun s h => s.releaseBuffer index h true) s) := by
  induction hs with
  | nil => exact Gives.refl
  | cons h hs ih => exact fun s => (gives_releaseBuffer s index h true).trans (ih _)

/-- A flush empties the queues and touches no index. -/
theorem flush_eq (s : State) : ∃ info client decoder rendered,
    s.flush = { s with
      info := info
      client := client
      decoder := decoder
      rendered := rendered
      mInputBuffers := []
      mOutputBuffers := [] } ∧
    ∀ h, client.count h + decoder.count h = s.places h := by
  obtain ⟨_, _, _, _, hfirst, hcount⟩ :=
    gives_release_all .kPortIndexInput s.mInputBuffers s
  obtain ⟨info, client, decoder, rendered, hsecond, hcount'⟩ :=
    gives_release_all .kPortIndexOutput s.mOutputBuffers
      (s.mInputBuffers.foldl (fun s h => s.releaseBuffer .kPortIndexInput h true) s)
  refine ⟨info, client, decoder, rendered, ?_, fun h => ?_⟩
  · rw [flush]
    rw [hfirst] at hsecond ⊢
    rw [hsecond]
  · rw [hfirst] at hcount'
    rw [hcount' h, hcount h]
    rfl

/-! ### What every call keeps -/

/-- The invariant, for headers that are in `p h` places. -/
structure Invariant (p : Header → ℕ) (s : State) : Prop where
  once : ∀ h, s.places h = p h
  inputIdx : s.mInputProcIdx ≤ s.mInputBuffers.length
  outputIdx : s.mOutputProcIdx ≤ s.mOutputBuffers.length
  tasks : s.mNumTaskInProcesing = s.mInputProcIdx
  factor : s.worker.mFilters &&& FilterFrameRateConversion ≠ 0 →
    s.worker.mFilterParam.frcRate ≠ none
  decided : s.mFilters &&& FilterFrameRateConversion ≠ 0 →
    isFrameRateValid s.mFilterParam.frameRate = true → s.mFilterParam.frcRate ≠ none

variable {p : Header → ℕ} {n : ℕ}

theorem getOutputBufCount_pos {w : Worker} (index : ℕ)
    (hfactor : w.mFilters &&& FilterFrameRateConversion ≠ 0 → w.mFilterParam.frcRate ≠ none) :
    1 ≤ w.getOutputBufCount index ∧ w.getOutputBufCount index ≤ 4 := by
  unfold Worker.getOutputBufCount
  split
  · rename_i hfrc
    obtain ⟨rate, hrate⟩ := ne_none_iff_exists'.mp (hfactor hfrc.1)
    have hvalue : 1 ≤ rate.value ∧ rate.value ≤ 4 := by cases rate <;> decide
    rw [hrate, elim_some]
    split
    · rename_i hhalf
      cases hhalf
      have hthree : FrcRate.x2_5.value = 3 := rfl
      omega
    · omega
  · omega

/-- The buffers of the oldest task are there. -/
theorem getBufForFirmwareOutput_eq (hinv : Invariant p s) :
    s.getBufForFirmwareOutput = some none ∨
      (s.getBufForFirmwareOutput = some (some (s.mOutputBuffers.take s.worker.getFillBufCount)) ∧
        s.worker.getFillBufCount ≤ s.mOutputProcIdx ∧ 1 ≤ s.mInputProcIdx) := by
  have hpos := getOutputBufCount_pos s.worker.mOutputIndex hinv.factor
  rw [← Worker.getFillBufCount] at hpos
  have hle := hinv.outputIdx
  rw [getBufForFirmwareOutput]
  by_cases hready : s.mOutputProcIdx < s.worker.getFillBufCount ∨ s.mInputProcIdx < 1
  · exact .inl (if_pos hready)
  · have hitems : itemsAt s.mOutputBuffers 0 s.worker.getFillBufCount =
        some (s.mOutputBuffers.take s.worker.getFillBufCount) :=
      itemsAt_of_le (by omega)
    refine .inr ⟨?_, by omega, by omega⟩
    rw [if_neg hready, if_neg (by omega), hitems]
    rfl

variable {input : Header}

/-- There is a task to end. -/
theorem updateFirmwareOutputBufStatus_eq {first : Header} {inputs outputs : List Header}
    (hinputs : s.mInputBuffers = input :: inputs) (houtputs : s.mOutputBuffers = first :: outputs)
    (hle : n ≤ s.mOutputBuffers.length) :
    s.updateFirmwareOutputBufStatus n =
      some (s.returnTask input first (s.mOutputBuffers.take n)) := by
  have hitems : itemsAt s.mOutputBuffers 0 n = some (s.mOutputBuffers.take n) :=
    itemsAt_of_le (by omega)
  rw [updateFirmwareOutputBufStatus, if_neg (by simp [hinputs]), if_neg (by omega), hitems]
  simp only [hinputs, houtputs, List.getElem?_cons_zero]
  rfl

/-- The places of the headers of a task that is over. -/
theorem returnTask_eq (s : State) (input first : Header) (outputs : List Header) :
    ∃ info client decoder rendered, s.returnTask input first outputs = { s with
      info := info
      client := client
      decoder := decoder
      rendered := rendered
      mInputBuffers := s.mInputBuffers.drop 1
      mInputProcIdx := sub32 s.mInputProcIdx 1
      mOutputBuffers := s.mOutputBuffers.drop outputs.length
      mOutputProcIdx := sub32 s.mOutputProcIdx outputs.length
      returned := s.returned ++ [⟨input, outputs⟩] } ∧
    ∀ h, client.count h + decoder.count h =
      s.client.count h + s.decoder.count h + (input :: outputs).count h := by
  let s' := { s.releaseBuffer .kPortIndexInput input false with
    mInputBuffers := s.mInputBuffers.drop 1
    mInputProcIdx := sub32 s.mInputProcIdx 1 }
  have hinput : Gives [input] { s with
      mInputBuffers := s.mInputBuffers.drop 1
      mInputProcIdx := sub32 s.mInputProcIdx 1 } s' :=
    gives_releaseBuffer _ .kPortIndexInput input false
  obtain ⟨info, client, decoder, rendered, hgives, hcount⟩ := hinput.trans
    (gives_render (s'.info first).nTimeStamp outputs.length outputs s')
  have hrender : s.returnTask input first outputs =
      (fun t : State => { t with
        mOutputBuffers := t.mOutputBuffers.drop outputs.length
        mOutputProcIdx := sub32 t.mOutputProcIdx outputs.length
        returned := t.returned ++ [⟨input, outputs⟩] })
      (render (s'.info first).nTimeStamp outputs.length outputs s') := rfl
  exact ⟨info, client, decoder, rendered, by rw [hrender, hgives], hcount⟩

/-- Ending the oldest task keeps the invariant. -/
theorem Invariant.returnTask (hinv : Invariant p s) (first : Header) {inputs outputs : List Header}
    (hinputs : s.mInputBuffers = input :: inputs) (houtputs : outputs <+: s.mOutputBuffers)
    (hle : outputs.length ≤ s.mOutputProcIdx) (hin : 1 ≤ s.mInputProcIdx) (w : Worker)
    (hw : w.mFilters = s.worker.mFilters) (hparam : w.mFilterParam = s.worker.mFilterParam) :
    Invariant p ({ s with
      worker := w
      mNumTaskInProcesing := s.mNumTaskInProcesing - 1 }.returnTask input first outputs) := by
  obtain ⟨info, client, decoder, rendered, heq, hcount⟩ := returnTask_eq { s with
    worker := w
    mNumTaskInProcesing := s.mNumTaskInProcesing - 1 } input first outputs
  obtain ⟨rest, hrest⟩ := houtputs
  have hinput := hinv.inputIdx
  have houtput := hinv.outputIdx
  rw [heq]
  refine ⟨fun h => ?_, ?_, ?_, ?_, ?_, hinv.decided⟩
  · have hplaces := hinv.once h
    have := hcount h
    simp only [places, hinputs, ← hrest, drop_one, tail_cons, drop_left,
      count_append, count_cons] at *
    omega
  · simp only [length_drop, sub32_of_le hin]
    omega
  · simp only [length_drop, sub32_of_le hle]
    omega
  · simp only [sub32_of_le hin, hinv.tasks]
  · simp only [hw, hparam]
    exact hinv.factor

theorem fillLoop_invariant (fuel : ℕ) : ∀ s : State, Invariant p s →
    ∃ t, fillLoop fuel s = some t ∧ Invariant p t := by
  induction fuel with
  | zero => exact fun s hinv => ⟨s, rfl, hinv⟩
  | succ fuel ih =>
    intro s hinv
    rw [fillLoop]
    split
    · obtain hnone | ⟨hbufs, hle, hin⟩ := getBufForFirmwareOutput_eq hinv
      · rw [hnone]
        exact ⟨s, rfl, hinv⟩
      · have hpos := getOutputBufCount_pos s.worker.mOutputIndex hinv.factor
        rw [← Worker.getFillBufCount] at hpos
        have hinput := hinv.inputIdx
        have houtput := hinv.outputIdx
        obtain ⟨input, inputs, hinputs⟩ :=
          exists_cons_of_length_pos (l := s.mInputBuffers) (by omega)
        obtain ⟨output, outputs, houtputs⟩ :=
          exists_cons_of_length_pos (l := s.mOutputBuffers) (by omega)
        have hlength : (s.mOutputBuffers.take s.worker.getFillBufCount).length =
            s.worker.getFillBufCount := length_take_of_le (by omega)
        have hnext := hinv.returnTask output hinputs
          (List.take_prefix s.worker.getFillBufCount s.mOutputBuffers) (by omega) hin
          (s.worker.fill (s.mOutputBuffers.take s.worker.getFillBufCount)) rfl rfl
        have hupdate := updateFirmwareOutputBufStatus_eq (n := s.worker.getFillBufCount)
          (s := { s with
            worker := s.worker.fill (s.mOutputBuffers.take s.worker.getFillBufCount)
            mNumTaskInProcesing := s.mNumTaskInProcesing - 1 }) hinputs houtputs (hle.trans houtput)
        obtain ⟨t, ht, hinv'⟩ := ih _ hnext
        refine ⟨t, ?_, hinv'⟩
        simp only [hbufs, hlength, hupdate, bind_eq_bind, bind_some]
        exact ht
    · exact ⟨s, rfl, hinv⟩

theorem fillTasks_invariant (hinv : Invariant p s) : ∃ t, s.fillTasks = some t ∧ Invariant p t :=
  fillLoop_invariant s.mNumTaskInProcesing s hinv

/-- With empty queues there is nothing to give back, whatever the indices say. -/
theorem fillTasks_of_nil (hinv : s.worker.mFilters &&& FilterFrameRateConversion ≠ 0 →
    s.worker.mFilterParam.frcRate ≠ none) (houtputs : s.mOutputBuffers = []) (ht : s.fillTasks = some t) :
    t = s := by
  have hpos := getOutputBufCount_pos s.worker.mOutputIndex hinv
  rw [← Worker.getFillBufCount] at hpos
  obtain ⟨n, hn⟩ := Nat.exists_eq_add_one.mpr hpos.1
  have hbufs : s.getBufForFirmwareOutput = some none ∨ s.getBufForFirmwareOutput = none := by
    rw [getBufForFirmwareOutput]
    by_cases hready : s.mOutputProcIdx < s.worker.getFillBufCount ∨ s.mInputProcIdx < 1
    · exact .inl (if_pos hready)
    · rw [if_neg hready, if_neg (by omega), hn, houtputs]
      exact .inr rfl
  rw [fillTasks] at ht
  cases hfuel : s.mNumTaskInProcesing with
  | zero =>
    rw [hfuel, fillLoop, some.injEq] at ht
    exact ht.symm
  | succ fuel =>
    rw [hfuel, fillLoop] at ht
    split at ht
    · obtain hnone | hfault := hbufs
      · rw [hnone] at ht
        exact (some.inj ht).symm
      · rw [hfault] at ht
        exact absurd ht (by simp)
    · exact (some.inj ht).symm

/-! ### Starting a task -/

/-- A flush passes one output buffer to the worker. -/
theorem getBufForFirmwareInput_of_flush (hinv : Invariant p s) (hflush : s.mbFlush = true) :
    s.getBufForFirmwareInput = s.mOutputBuffers[0]?.map fun h => some ⟨none, [h], 1⟩ := by
  have hpos := getOutputBufCount_pos s.worker.mInputIndex hinv.factor
  rw [← Worker.getProcBufCount] at hpos
  rw [getBufForFirmwareInput, if_neg (by omega), if_pos hflush]
  cases s.mOutputBuffers[0]? with
  | none => rfl
  | some h => rfl

/-- The frame and the output buffers of the next task are there. -/
theorem getBufForFirmwareInput_of_ready (hinv : Invariant p s) (hflush : s.mbFlush = false)
    (hready : s.isReadytoRun = true) :
    ∃ input, s.mInputBuffers[s.mInputProcIdx]? = some input ∧
      s.mOutputProcIdx + s.worker.getProcBufCount ≤ s.mOutputBuffers.length ∧
      s.getBufForFirmwareInput = some (some ⟨some input,
        (s.mOutputBuffers.drop s.mOutputProcIdx).take s.worker.getProcBufCount,
        s.worker.getProcBufCount⟩) := by
  have hpos := getOutputBufCount_pos s.worker.mInputIndex hinv.factor
  rw [← Worker.getProcBufCount] at hpos
  rw [isReadytoRun, Bool.and_eq_true, decide_eq_true_eq, decide_eq_true_eq,
    sub32_of_le hinv.outputIdx] at hready
  have hinput : s.mInputBuffers[s.mInputProcIdx]? = some s.mInputBuffers[s.mInputProcIdx] :=
    List.getElem?_eq_getElem hready.1
  have hitems := itemsAt_of_le (v := s.mOutputBuffers) (k := s.mOutputProcIdx)
    (n := s.worker.getProcBufCount) (by omega)
  refine ⟨_, hinput, by omega, ?_⟩
  rw [getBufForFirmwareInput, if_neg (by omega), hflush, if_neg (by decide), hinput, hitems]
  rfl

/-- The state after a task has been started. -/
def startTask (s : State) (task : Task) : State :=
  { task.outputs.foldl (fun s h => s.setInfo h (s.info task.input)) { s with
      worker := s.worker.process task
      mNumTaskInProcesing := s.mNumTaskInProcesing + 1 } with
    mInputProcIdx := s.mInputProcIdx + 1
    mOutputProcIdx := s.mOutputProcIdx + task.outputs.length }

theorem copy_eq (input : Header) (outputs : List Header) : ∀ s : State, ∃ info,
    outputs.foldl (fun s h => s.setInfo h (s.info input)) s = { s with info := info } := by
  induction outputs with
  | nil => exact fun s => ⟨s.info, rfl⟩
  | cons output outputs ih => exact fun s => ih (s.setInfo output (s.info input))

theorem startTask_eq (s : State) (task : Task) : ∃ info, s.startTask task = { s with
    info := info
    worker := s.worker.process task
    mNumTaskInProcesing := s.mNumTaskInProcesing + 1
    mInputProcIdx := s.mInputProcIdx + 1
    mOutputProcIdx := s.mOutputProcIdx + task.outputs.length } := by
  obtain ⟨info, heq⟩ := copy_eq task.input task.outputs { s with
    worker := s.worker.process task
    mNumTaskInProcesing := s.mNumTaskInProcesing + 1 }
  exact ⟨info, by rw [startTask, heq]⟩

/-- The worker has taken the next task. -/
theorem afterProcess_eq {a : Answers} (hinput : s.mInputBuffers[s.mInputProcIdx]? = some input)
    (hle : s.mOutputProcIdx + n ≤ s.mOutputBuffers.length) (hok : a.process = true) :
    s.afterProcess ⟨some input, (s.mOutputBuffers.drop s.mOutputProcIdx).take n, n⟩ a =
      (s.startTask ⟨input, (s.mOutputBuffers.drop s.mOutputProcIdx).take n⟩).fillTasks := by
  let task : Task := ⟨input, (s.mOutputBuffers.drop s.mOutputProcIdx).take n⟩
  have hlength : task.outputs.length = n :=
    length_take_of_le (by rw [length_drop]; omega)
  obtain ⟨info, heq⟩ := copy_eq input task.outputs { s with
    worker := s.worker.process task
    mNumTaskInProcesing := s.mNumTaskInProcesing + 1 }
  have hupdate : { s with
      worker := s.worker.process task
      mNumTaskInProcesing := s.mNumTaskInProcesing + 1 }.updateFirmwareInputBufStatus n =
      some (s.startTask task) := by
    rw [updateFirmwareInputBufStatus, startTask, hinput, itemsAt_of_le hle, hlength]
    simp only [bind_eq_bind, bind_some]
    rw [heq]
    rfl
  rw [afterProcess, if_pos hok]
  simp only [task] at hupdate
  simp [hupdate]

section

variable (hinv : Invariant p s)
include hinv

theorem Invariant.startTask (outputs : List Header)
    (hinput : s.mInputBuffers[s.mInputProcIdx]? = some input)
    (hle : s.mOutputProcIdx + outputs.length ≤ s.mOutputBuffers.length) :
    Invariant p (s.startTask ⟨input, outputs⟩) := by
  obtain ⟨info, heq⟩ := startTask_eq s ⟨input, outputs⟩
  rw [heq]
  exact ⟨hinv.once, (List.getElem?_eq_some_iff.mp hinput).1, hle, by simp [hinv.tasks],
    hinv.factor, hinv.decided⟩

/-- Queues that are emptied give everything back. -/
theorem Invariant.flush {w : Worker} (mbBypass mbFlush : Bool) (hw : w.mFilters = s.worker.mFilters)
    (hparam : w.mFilterParam = s.worker.mFilterParam) :
    Invariant p { { s with worker := w, mbBypass := mbBypass }.flush with
      mNumTaskInProcesing := 0
      mInputProcIdx := 0
      mOutputProcIdx := 0
      mbFlush := mbFlush } := by
  obtain ⟨info, client, decoder, rendered, heq, hcount⟩ :=
    flush_eq { s with worker := w, mbBypass := mbBypass }
  rw [heq]
  refine ⟨fun h => ?_, Nat.zero_le _, Nat.zero_le _, rfl, ?_, hinv.decided⟩
  · have hplaces := hinv.once h
    have := hcount h
    simp only [places, count_nil] at *
    omega
  · simp only [hw, hparam]
    exact hinv.factor

/-- A flush to bypass mode with no task in progress. -/
theorem Invariant.bypass (hin : s.mInputProcIdx = 0) (hout : s.mOutputProcIdx = 0) : Invariant p { s with mbBypass := true }.flush := by
  have hflush := hinv.flush (w := s.worker) true s.mbFlush rfl rfl
  obtain ⟨info, client, decoder, rendered, heq, -⟩ := flush_eq { s with mbBypass := true }
  have htasks : s.mNumTaskInProcesing = 0 := hinv.tasks.trans hin
  rw [heq] at hflush ⊢
  simpa only [htasks, hin, hout] using hflush

/-- An iteration whose call of the worker completes. -/
theorem threadLoop_invariant {a : Answers} (h : s.Completes (.threadLoop a)) : ∃ t, s.threadLoop a = some t ∧ Invariant p t := by
  obtain ⟨hnil, hfail⟩ := h
  rw [threadLoop]
  by_cases hrun : (s.isReadytoRun || s.mbFlush) = true
  · rw [if_pos hrun]
    have hfailed : a.process = false →
        ∃ t, { s with mbBypass := true }.flush.fillTasks = some t ∧ Invariant p t := by
      intro hprocess
      obtain ⟨hin, hout⟩ := hfail hrun hprocess
      exact fillTasks_invariant (hinv.bypass hin hout)
    cases hflush : s.mbFlush with
    | true =>
      obtain ⟨output, outputs, houtputs⟩ := exists_cons_of_ne_nil (hnil hflush)
      simp only [getBufForFirmwareInput_of_flush hinv hflush, houtputs, List.getElem?_cons_zero,
        map_some, bind_eq_bind, bind_some]
      cases hprocess : a.process with
      | true =>
        rw [afterProcess, if_pos hprocess]
        exact ⟨_, rfl, hinv.flush _ _ rfl rfl⟩
      | false =>
        rw [afterProcess, if_neg (by simp [hprocess])]
        exact hfailed hprocess
    | false =>
      rw [hflush, Bool.or_false] at hrun
      obtain ⟨input, hinput, hle, hbufs⟩ := getBufForFirmwareInput_of_ready hinv hflush hrun
      simp only [hbufs, bind_eq_bind, bind_some]
      cases hprocess : a.process with
      | true =>
        rw [afterProcess_eq hinput hle hprocess]
        refine fillTasks_invariant (hinv.startTask _ hinput ?_)
        rw [length_take_of_le (by rw [length_drop]; omega)]
        exact hle
      | false =>
        rw [afterProcess, if_neg (by simp [hprocess])]
        exact hfailed hprocess
  · rw [if_neg hrun]
    exact fillTasks_invariant hinv

/-- Any other iteration ends in an access outside a vector or leaves an index behind. -/
theorem completes_of_threadLoop {a : Answers} (ht : s.threadLoop a = some t)
    (hin : t.mInputProcIdx ≤ t.mInputBuffers.length)
    (hout : t.mOutputProcIdx ≤ t.mOutputBuffers.length) : s.Completes (.threadLoop a) := by
  rw [threadLoop] at ht
  refine ⟨fun hflush hnil => ?_, fun hrun hprocess => ?_⟩
  · rw [if_pos (by simp [hflush]), getBufForFirmwareInput_of_flush hinv hflush, hnil] at ht
    exact absurd ht (by simp)
  · rw [if_pos hrun] at ht
    have hfailed : { s with mbBypass := true }.flush.fillTasks = some t := by
      by_cases hflush : s.mbFlush = true
      · rw [getBufForFirmwareInput_of_flush hinv hflush] at ht
        cases houtputs : s.mOutputBuffers[0]? with
        | none => simp [houtputs] at ht
        | some output => simpa [houtputs, afterProcess, hprocess] using ht
      · rw [Bool.not_eq_true] at hflush
        rw [hflush, Bool.or_false] at hrun
        obtain ⟨input, hinput, hle, hbufs⟩ := getBufForFirmwareInput_of_ready hinv hflush hrun
        simpa [hbufs, afterProcess, hprocess] using ht
    obtain ⟨info, client, decoder, rendered, heq, -⟩ := flush_eq { s with mbBypass := true }
    rw [heq] at hfailed
    have hkept := fillTasks_of_nil (by exact hinv.factor) rfl hfailed
    subst hkept
    exact ⟨Nat.le_zero.mp hin, Nat.le_zero.mp hout⟩

end

/-! ### Frames and buffers that arrive -/

variable {cfg : Profile}

theorem clear_and (f g : BitVec 32) : (f &&& ~~~g) &&& g = 0 := by
  rw [BitVec.and_assoc, BitVec.not_and_self]
  exact BitVec.and_zero

/-- Deinterlacing does not concern the conversion of the frame rate. -/
theorem configDeinterlacing_eq (s : State) (nFlags : BitVec 32) : ∃ filters,
    s.configDeinterlacing nFlags = { s with mFilters := filters } ∧
      filters &&& FilterFrameRateConversion = s.mFilters &&& FilterFrameRateConversion := by
  unfold configDeinterlacing
  split
  · refine ⟨_, rfl, ?_⟩
    have hzero : FilterDeinterlacing &&& FilterFrameRateConversion = 0#32 := by decide
    rw [BitVec.and_or_distrib_right, hzero, BitVec.or_zero]
  · refine ⟨_, rfl, ?_⟩
    have hself : ~~~FilterDeinterlacing &&& FilterFrameRateConversion =
        FilterFrameRateConversion := by decide
    rw [BitVec.and_assoc, hself]

theorem configDeinterlacing_congr (h : s.mFilters = t.mFilters) (nFlags : BitVec 32) :
    (s.configDeinterlacing nFlags).mFilters = (t.configDeinterlacing nFlags).mFilters := by
  unfold configDeinterlacing
  rw [h]
  split
  · rfl
  · rfl

/-- The frame rate conversion is switched off, or it has a frame rate to convert. -/
structure Converts (filters : BitVec 32) (param : FilterParam) : Prop where
  valid : filters &&& FilterFrameRateConversion ≠ 0 → isFrameRateValid param.frameRate = true
  factor : filters &&& FilterFrameRateConversion ≠ 0 → param.frcRate ≠ none

theorem Converts.of_clear {filters : BitVec 32} {param : FilterParam}
    (h : filters &&& FilterFrameRateConversion = 0) : Converts filters param :=
  ⟨fun hne => absurd h hne, fun hne => absurd h hne⟩

/-- The parameters are made up before the first frame is taken. -/
theorem configFrameRate_eq (cfg : Profile) (hinv : s.mFilters &&& FilterFrameRateConversion ≠ 0 →
      isFrameRateValid s.mFilterParam.frameRate = true → s.mFilterParam.frcRate ≠ none)
    (nTimeStamp : ℤ) : ∃ retry last filters param ok,
    s.configFrameRate cfg nTimeStamp = ({ s with
      mNumRetry := retry
      mLastTimeStamp := last
      mFilters := filters
      mFilterParam := param }, ok) ∧
    (ok = true → Converts filters param) ∧
    (ok = false → isFrameRateValid param.frameRate = false) ∧
    (Converts s.mFilters s.mFilterParam →
      ok = true ∧ filters = s.mFilters ∧ param = s.mFilterParam) := by
  unfold configFrameRate
  split
  · rename_i hinvalid
    have hundecided : ¬ Converts s.mFilters s.mFilterParam := by
      intro h
      rw [h.valid hinvalid.1] at hinvalid
      exact absurd hinvalid.2 (by decide)
    split
    · dsimp only
      generalize (if nTimeStamp - s.mLastTimeStamp ≠ 0 then
        cfg.frameRateOf (nTimeStamp - s.mLastTimeStamp) else s.mFilterParam.frameRate) = frameRate
      split
      · rename_i hvalid
        exact ⟨_, _, _, _, _, rfl, by simp, fun _ => hvalid, fun h => absurd h hundecided⟩
      · rename_i hvalid
        split
        · exact ⟨_, _, _, _, _, rfl, fun _ => .of_clear (clear_and _ _), by simp,
            fun h => absurd h hundecided⟩
        · rw [Bool.not_eq_false] at hvalid
          exact ⟨_, _, _, _, _, rfl, fun _ => ⟨fun _ => hvalid, fun _ => by simp⟩, by simp,
            fun h => absurd h hundecided⟩
    · exact ⟨_, _, _, _, _, rfl, fun _ => .of_clear (clear_and _ _), by simp,
        fun h => absurd h hundecided⟩
  · rename_i hvalid
    rw [not_and, Bool.not_eq_false] at hvalid
    exact ⟨_, _, _, _, _, rfl, fun _ => ⟨hvalid, fun h => hinv h (hvalid h)⟩, by simp,
      fun _ => ⟨rfl, rfl, rfl⟩⟩

/-- What `configFilters` makes of the processor: the parameters, and the worker's copy of them unless
a frame is not to be queued. Once the conversion is decided only deinterlacing changes. -/
theorem configFilters_eq (cfg : Profile) (hinv : s.mFilters &&& FilterFrameRateConversion ≠ 0 →
      isFrameRateValid s.mFilterParam.frameRate = true → s.mFilterParam.frcRate ≠ none)
    (b : BufferInfo) (setup : Setup) : ∃ retry last filters param worker status,
    s.configFilters cfg b setup = ({ s with
      mNumRetry := retry
      mLastTimeStamp := last
      mFilters := filters
      mFilterParam := param
      worker := worker }, status) ∧
    (Converts filters param ∨ isFrameRateValid param.frameRate = false) ∧
    (worker = s.worker ∧ status ≠ .ok ∨
      Converts filters param ∧ ∃ references, worker = { s.worker with
        mFilters := filters
        mFilterParam := param
        mNumForwardReferences := references }) ∧
    (status = .unknownError → setup.ok = true → filters = 0) ∧
    (Converts s.mFilters s.mFilterParam →
      filters = (s.configDeinterlacing b.nFlags).mFilters ∧ param = s.mFilterParam) := by
  obtain ⟨retry, last, filters, param, ok, hrate, hconverts, hinvalid, hdecided⟩ :=
    configFrameRate_eq cfg hinv b.nTimeStamp
  unfold configFilters
  rw [hrate]
  cases ok with
  | false =>
    exact ⟨_, _, _, _, _, _, rfl, .inr (hinvalid rfl), .inl ⟨rfl, by simp⟩, by simp,
      fun h => absurd (hdecided h).1 (by simp)⟩
  | true =>
    obtain ⟨valid, factor⟩ := hconverts rfl
    obtain ⟨filters', hdeint, hand⟩ := configDeinterlacing_eq { s with
      mNumRetry := retry
      mLastTimeStamp := last
      mFilters := filters
      mFilterParam := param } b.nFlags
    have hconverts' : Converts filters' param :=
      ⟨fun h => valid (hand ▸ h), fun h => factor (hand ▸ h)⟩
    have hdecided' : Converts s.mFilters s.mFilterParam →
        filters' = (s.configDeinterlacing b.nFlags).mFilters ∧ param = s.mFilterParam := by
      intro h
      obtain ⟨-, rfl, rfl⟩ := hdecided h
      refine ⟨?_, rfl⟩
      have hsame := congrArg State.mFilters hdeint
      exact hsame.symm.trans (configDeinterlacing_congr (by rfl) b.nFlags)
    simp only [hdeint]
    split
    · rename_i hzero
      exact ⟨_, _, _, _, _, _, rfl, .inl hconverts', .inl ⟨rfl, by simp⟩, fun _ _ => hzero,
        hdecided'⟩
    · rename_i hne
      refine ⟨_, _, _, _, _, _, rfl, .inl hconverts', .inr ⟨hconverts', ?_⟩, ?_, hdecided'⟩
      · simp only [Worker.configFilters, if_pos hne]
        split
        · exact ⟨_, rfl⟩
        · rename_i hsame
          rw [not_not] at hsame
          exact ⟨s.worker.mNumForwardReferences, by rw [← hsame]⟩
      · simp only [Worker.configFilters, if_pos hne]
        split
        · intro hstatus hok
          rw [if_pos hok] at hstatus
          exact absurd hstatus (by simp)
        · intro hstatus
          exact absurd hstatus (by simp)

variable {q : Header → ℕ} {b : BufferInfo} {setup : Setup}

/-- A header that is given away is in one more place. -/
theorem Invariant.release (hinv : Invariant q s) (hp : ∀ x, p x = q x + [h].count x)
    (index : PortIndex) (bFlush : Bool) : Invariant p (s.releaseBuffer index h bFlush) := by
  obtain ⟨info, client, decoder, rendered, heq, hcount⟩ := gives_releaseBuffer s index h bFlush
  rw [heq]
  refine { hinv with once := fun x => ?_ }
  have hplaces := hinv.once x
  have := hcount x
  have := hp x
  simp only [places] at *
  omega

theorem Invariant.notifyFlush (hinv : Invariant p s) : Invariant p s.notifyFlush := by
  unfold State.notifyFlush
  split
  · exact hinv
  · exact { hinv with }

/-- A frame in the hands of the processor is queued or given away. -/
theorem Invariant.addInput (hinv : Invariant q s) (hp : ∀ x, p x = q x + [h].count x)
    (setup : Setup) : Invariant p (s.addInput cfg h setup) := by
  have harrived : Invariant q { s with arrived := s.arrived ++ [(s.info h).nTimeStamp] } :=
    { hinv with }
  unfold State.addInput
  dsimp only
  split
  · exact harrived.release hp _ _
  split
  · exact harrived.release hp _ _
  split
  · exact (harrived.release hp _ _).notifyFlush
  obtain ⟨retry, last, filters, param, worker, status, heq, hconverts, hworker, -⟩ :=
    configFilters_eq cfg harrived.decided (s.info h) setup
  rw [heq]
  have hdecided : filters &&& FilterFrameRateConversion ≠ 0 →
      isFrameRateValid param.frameRate = true → param.frcRate ≠ none := by
    intro hne hvalid
    obtain hconverts | hinvalid := hconverts
    · exact hconverts.factor hne
    · rw [hinvalid] at hvalid
      exact absurd hvalid (by decide)
  have hfactor : worker.mFilters &&& FilterFrameRateConversion ≠ 0 →
      worker.mFilterParam.frcRate ≠ none := by
    obtain ⟨rfl, -⟩ | ⟨hconverts, references, rfl⟩ := hworker
    · exact hinv.factor
    · exact hconverts.factor
  have hconfig : ∀ mbBypass, Invariant q { s with
      arrived := s.arrived ++ [(s.info h).nTimeStamp]
      mNumRetry := retry
      mLastTimeStamp := last
      mFilters := filters
      mFilterParam := param
      worker := worker
      mbBypass := mbBypass } := fun _ =>
    { hinv with factor := hfactor, decided := hdecided }
  cases status with
  | notEnoughData => exact (hconfig s.mbBypass).release hp _ _
  | unknownError => exact (hconfig true).release hp _ _
  | ok =>
    refine ⟨fun x => ?_, ?_, hinv.outputIdx, hinv.tasks, hfactor, hdecided⟩
    · have hplaces := hinv.once x
      have := hp x
      simp only [places, count_append] at *
      omega
    · have := hinv.inputIdx
      simp only [length_append, length_cons]
      omega

/-- An output buffer in the hands of the processor is queued or given away. -/
theorem Invariant.addOutput (hinv : Invariant q s) (hp : ∀ x, p x = q x + [h].count x) :
    Invariant p (s.addOutput h) := by
  unfold State.addOutput
  split
  · exact hinv.release hp _ _
  split
  · exact hinv.release hp _ _
  refine { hinv with once := fun x => ?_, outputIdx := ?_ }
  · have hplaces := hinv.once x
    have := hp x
    simp only [places, count_append] at *
    omega
  · have := hinv.outputIdx
    simp only [length_append, length_cons]
    omega

/-- A header that is taken out of a list is in one place less. -/
theorem count_of_mem {l : List Header} (hmem : h ∈ l) (x : Header) :
    l.count x = (l.erase h).count x + [h].count x := by
  rw [(perm_cons_erase hmem).count_eq x, count_cons, count_singleton]

theorem fillThisBuffer_invariant (hinv : Invariant p s) (hmem : h ∈ s.client) (mapped : Bool) :
    Invariant p (s.fillThisBuffer cfg h mapped) := by
  have hcount := count_of_mem hmem
  have htaken : Invariant (fun x => { s with client := s.client.erase h }.places x)
      { s with client := s.client.erase h } :=
    { hinv with once := fun _ => rfl }
  have hp : ∀ x, p x = { s with client := s.client.erase h }.places x + [h].count x := by
    intro x
    have hplaces := hinv.once x
    have := hcount x
    simp only [places] at *
    omega
  have hdecoder : ∀ enabled n, Invariant p { s with
      client := s.client.erase h
      decoder := h :: s.decoder
      mVPPEnabled := enabled
      mNumDecoderBuffers := n } := by
    refine fun _ _ => { hinv with once := fun x => ?_ }
    have := hp x
    simp only [places, count_cons, count_nil] at *
    omega
  unfold State.fillThisBuffer
  dsimp only
  split
  · exact hdecoder s.mVPPEnabled s.mNumDecoderBuffers
  split
  · exact hdecoder false s.mNumDecoderBuffers
  split
  · exact hdecoder s.mVPPEnabled (s.mNumDecoderBuffers - 1)
  · exact htaken.addOutput hp

theorem fillBufferDone_invariant (hinv : Invariant p s) (hmem : h ∈ s.decoder) (b : BufferInfo)
    (setup : Setup) : Invariant p (s.fillBufferDone cfg h b setup) := by
  have hcount := count_of_mem hmem
  have htaken : Invariant (fun x => { s.setInfo h b with decoder := s.decoder.erase h }.places x)
      { s.setInfo h b with decoder := s.decoder.erase h } :=
    { hinv with once := fun _ => rfl }
  have hp : ∀ x, p x =
      { s.setInfo h b with decoder := s.decoder.erase h }.places x + [h].count x := by
    intro x
    have hplaces := hinv.once x
    have := hcount x
    simp only [places, setInfo] at *
    omega
  unfold State.fillBufferDone
  dsimp only
  split
  · refine { hinv with once := fun x => ?_ }
    have := hp x
    simp only [places, setInfo, count_cons, count_nil] at *
    omega
  · exact htaken.addInput hp setup

end State

open State

variable {cfg : Profile} {init s t : State}

/-- Every step that completes keeps the invariant. -/
theorem step_invariant {p : Header → ℕ} {op : Op} (hinv : Invariant p s) (hop : s.Completes op)
    (hstep : step cfg s op = some t) : Invariant p t := by
  cases op with
  | fillThisBuffer h mapped =>
    obtain ⟨hmem, heq⟩ := ite_none_right_eq_some.mp hstep
    exact some.inj heq ▸ fillThisBuffer_invariant hinv hmem mapped
  | fillBufferDone h b setup =>
    obtain ⟨hmem, heq⟩ := ite_none_right_eq_some.mp hstep
    exact some.inj heq ▸ fillBufferDone_invariant hinv hmem b setup
  | sendCommand c =>
    rw [← some.inj hstep, sendCommand]
    split
    · exact Invariant.notifyFlush
        { hinv with }
    · exact hinv
  | commandComplete c =>
    rw [step, commandComplete] at hstep
    split at hstep
    · obtain ⟨-, heq⟩ := ite_none_left_eq_some.mp hstep
      rw [← some.inj heq]
      exact { hinv with }
    · exact some.inj hstep ▸ hinv
  | threadLoop a =>
    obtain ⟨t', ht', hinv'⟩ := threadLoop_invariant hinv hop
    rw [step, ht'] at hstep
    exact some.inj hstep ▸ hinv'

theorem Initial.invariant (hinit : Initial init) : Invariant init.places init where
  once := fun _ => rfl
  inputIdx := by simp [hinit.inputIdx]
  outputIdx := by simp [hinit.outputIdx]
  tasks := by rw [hinit.tasks, hinit.inputIdx]
  factor := fun hne => absurd (by rw [hinit.filters]; rfl) hne
  decided := fun _ hvalid => absurd hvalid (by rw [hinit.param]; decide)

theorem Initial.sound (hinit : Initial init) (hinv : Invariant init.places s) : Sound init s := by
  refine ⟨fun h hmem => ?_, hinv.inputIdx, hinv.outputIdx⟩
  have hone := count_eq_one_of_mem hinit.once hmem
  rw [count_append] at hone
  rw [hinv.once h, places, hinit.inputs, hinit.outputs, hone, count_nil]

/-- In a run whose iterations complete, every header is in one place and the indices stay inside the
queues; an iteration leaves it so, with every access inside its vector, if and only if it
completes. -/
theorem headers_conserved (hinit : Initial init) (hrun : Reach (step cfg) Completes init s) :
    Sound init s ∧ ∀ a, s.Completes (.threadLoop a) ↔ ∃ t, s.threadLoop a = some t ∧ Sound init t := by
  have hinv : Invariant init.places s :=
    hrun.invariant hinit.invariant fun _ _ _ hinv hop hstep => step_invariant hinv hop hstep
  refine ⟨hinit.sound hinv, fun a => ⟨fun hop => ?_, ?_⟩⟩
  · obtain ⟨t, ht, hinv'⟩ := threadLoop_invariant hinv hop
    exact ⟨t, ht, hinit.sound hinv'⟩
  · rintro ⟨t, ht, hsound⟩
    exact completes_of_threadLoop hinv ht hsound.inputIdx hsound.outputIdx

/-- A run in which one task ends and another one is started. -/
theorem headers_conserved_two_tasks : ∃ s,
    Reach (step ⟨true, fun _ => 0, []⟩) Completes (started [0, 1, 2] [3, 4] 2) s ∧
      s.mInputProcIdx = 1 ∧ Sound (started [0, 1, 2] [3, 4] 2) s :=
  Reach.exists_of_decide (fun s hrun (hs : s.mInputProcIdx = 1) =>
      ⟨hs, (headers_conserved (initial_started 2 (by decide)) hrun).1⟩)
    [.fillThisBuffer 0 true, .fillThisBuffer 1 true, .fillBufferDone 3 ⟨40, 1, 0, 0⟩ ⟨true, 2⟩,
      .fillBufferDone 4 ⟨80, 1, 0, 0⟩ ⟨true, 2⟩, .threadLoop ⟨true, ⟨true, 2⟩⟩,
      .threadLoop ⟨true, ⟨true, 2⟩⟩] (by decide)

/-- A call of the worker that fails while a task is in progress leaves `mInputProcIdx` behind the
end of a queue that has been emptied. -/
theorem index_left_behind : ¬ ∀ (cfg : Profile) (init s : State), Initial init →
    Reach (step cfg) (fun _ _ => True) init s →
      Sound init s ∧ ∀ a, ∃ t, s.threadLoop a = some t := by
  intro h
  obtain ⟨s, hrun, hlt⟩ : ∃ s, Reach (step ⟨true, fun _ => 0, []⟩) (fun _ _ => True)
      (started [0, 1] [2, 3] 2) s ∧ s.mInputBuffers.length < s.mInputProcIdx :=
    Reach.exists_of_decide (fun _ _ h => h)
      [.fillThisBuffer 0 true, .fillThisBuffer 1 true, .fillBufferDone 2 ⟨40, 1, 0, 0⟩ ⟨true, 2⟩,
        .fillBufferDone 3 ⟨80, 1, 0, 0⟩ ⟨true, 2⟩, .threadLoop ⟨true, ⟨true, 2⟩⟩,
        .threadLoop ⟨false, ⟨true, 2⟩⟩] (by decide)
  have hsound := (h _ _ s (initial_started 2 (by decide)) hrun).1.inputIdx
  omega

end HardwareIntel.Isv
