import HardwareIntel.Library.Runs

/-!
# The state of an OMX component and its worker

`ComponentBase::TransState` of `wrs_omxil_core/base/src/componentbase.cpp` with its transition
functions, and the part of `WorkQueue` and `Thread` (`utils/src/workqueue.cpp`, `thread.cpp`) that
they use. The component has a work queue for its buffers, whose thread should run in the states
Executing and Pause and be paused in Pause.

The transition functions change the work queue first and call the hook of the processor afterwards,
and do not undo the change if the hook fails. So the state and the worker agree as long as the hooks
succeed; `Harmless` says exactly which commands are meant. The calls that wait for the worker or for
the buffers of the ports are taken to return.
-/

namespace HardwareIntel.Omx

/-! ## The work queue -/

/-- The state of a `WorkQueue`: its thread is created, the flag that tells the thread to end, and
the flag that lets it work. -/
structure WorkQueue where
  created : Bool
  stop : Bool
  executing : Bool
  deriving DecidableEq

namespace WorkQueue

/-- `WorkQueue::WorkQueue`. -/
def new : WorkQueue := ⟨false, false, true⟩

/-- `Thread::Start`; `createOk` is the success of `pthread_create`. -/
def start (q : WorkQueue) (createOk : Bool) : WorkQueue :=
  if q.created then q else { q with created := createOk }

/-- `Thread::Join`. -/
def join (q : WorkQueue) : WorkQueue :=
  if q.created then { q with created := false } else q

/-- `WorkQueue::StartWork`. -/
def startWork (q : WorkQueue) (executing createOk : Bool) : WorkQueue :=
  { q with executing := executing, stop := false }.start createOk

/-- `WorkQueue::PauseWork`. -/
def pauseWork (q : WorkQueue) : WorkQueue := { q with executing := false }

/-- `WorkQueue::ResumeWork`. -/
def resumeWork (q : WorkQueue) : WorkQueue := { q with executing := true }

/-- `WorkQueue::StopWork`. -/
def stopWork (q : WorkQueue) : WorkQueue := { q.resumeWork with stop := true }.join

/-- The thread runs and was not told to end. -/
def started (q : WorkQueue) : Bool := q.created && !q.stop

/-- The thread has to wait before each piece of work. -/
def paused (q : WorkQueue) : Bool := !q.executing

/-- A queue that was told to end has been joined. -/
def Joined (q : WorkQueue) : Prop := q.created = true → q.stop = false

theorem joined_new : new.Joined := by
  simp [Joined, new]

section

variable (q : WorkQueue)
include q

@[simp] theorem joined_startWork (executing createOk : Bool) :
    (q.startWork executing createOk).Joined := by
  simp only [Joined, startWork, start]
  split <;> simp

@[simp] theorem joined_pauseWork : q.pauseWork.Joined ↔ q.Joined := Iff.rfl

@[simp] theorem joined_resumeWork : q.resumeWork.Joined ↔ q.Joined := Iff.rfl

@[simp] theorem created_stopWork : q.stopWork.created = false := by
  cases hcreated : q.created <;> simp [stopWork, join, resumeWork, hcreated]

@[simp] theorem joined_stopWork : q.stopWork.Joined := by
  simp [Joined]

@[simp] theorem started_stopWork : q.stopWork.started = false := by
  simp [started]

@[simp] theorem paused_stopWork : q.stopWork.paused = false := by
  cases hcreated : q.created <;> simp [stopWork, join, resumeWork, paused, hcreated]

@[simp] theorem started_pauseWork : q.pauseWork.started = q.started := rfl

@[simp] theorem started_resumeWork : q.resumeWork.started = q.started := rfl

@[simp] theorem paused_pauseWork : q.pauseWork.paused = true := rfl

@[simp] theorem paused_resumeWork : q.resumeWork.paused = false := rfl

@[simp] theorem paused_startWork (executing createOk : Bool) :
    (q.startWork executing createOk).paused = !executing := by
  simp only [startWork, start, paused]
  split <;> rfl

end

/-- Starting a queue whose thread does not run. -/
theorem started_startWork {q : WorkQueue} (hjoined : q.Joined) (hstarted : q.started = false)
    (executing createOk : Bool) : (q.startWork executing createOk).started = createOk := by
  have hcreated : q.created = false := by
    rw [← Bool.not_eq_true]
    intro hcreated
    simp [started, hcreated, hjoined hcreated] at hstarted
  simp [startWork, start, started, hcreated]

end WorkQueue

/-! ## State transitions -/

/-- `OMX_STATETYPE`. -/
inductive OmxState
  | invalid | loaded | idle | executing | pause | waitForResources
  deriving DecidableEq

/-- `OMX_ERRORTYPE`; the codes that `TransState` does not look at are numbered. -/
inductive OmxError
  | none | sameState | invalidState | incorrectStateTransition
  | other (code : ℕ)
  deriving DecidableEq

/-- A state command: the state asked for (`none` is a number that is no state), and what the calls
made on the way return. -/
structure StateCommand where
  transition : Option OmxState
  waitPortBufferCompletion : OmxError
  processorInit : OmxError
  processorStart : OmxError
  processorStop : OmxError
  processorPause : OmxError
  processorResume : OmxError
  processorDeinit : OmxError
  createOk : Bool

/-- The parts of a `ComponentBase` that matter here. -/
structure Component where
  state : OmxState
  bufferwork : WorkQueue
  deriving DecidableEq

/-- A component after `GetHandle`. -/
def Component.new : Component := ⟨.loaded, .new⟩

/-- `TransStateToLoaded`. -/
def transStateToLoaded (cmd : StateCommand) (current : OmxState) (bufferwork : WorkQueue) :
    OmxError × WorkQueue :=
  match current with
  | .idle => (cmd.processorDeinit, bufferwork)
  | .waitForResources => (.none, bufferwork)
  | _ => (.incorrectStateTransition, bufferwork)

/-- `TransStateToIdle`. -/
def transStateToIdle (cmd : StateCommand) (current : OmxState) (bufferwork : WorkQueue) :
    OmxError × WorkQueue :=
  match current with
  | .loaded =>
    let ret := cmd.waitPortBufferCompletion
    (if ret = .none then cmd.processorInit else ret, bufferwork)
  | .pause => (cmd.processorStop, bufferwork.resumeWork.stopWork)
  | .executing => (cmd.processorStop, bufferwork.stopWork)
  | .waitForResources => (.none, bufferwork)
  | _ => (.incorrectStateTransition, bufferwork)

/-- `TransStateToExecuting`. -/
def transStateToExecuting (cmd : StateCommand) (current : OmxState) (bufferwork : WorkQueue) :
    OmxError × WorkQueue :=
  match current with
  | .idle => (cmd.processorStart, bufferwork.startWork true cmd.createOk)
  | .pause => (cmd.processorResume, bufferwork.resumeWork)
  | _ => (.incorrectStateTransition, bufferwork)

/-- `TransStateToPause`. -/
def transStateToPause (cmd : StateCommand) (current : OmxState) (bufferwork : WorkQueue) :
    OmxError × WorkQueue :=
  match current with
  | .idle => (cmd.processorStart, bufferwork.startWork false cmd.createOk)
  | .executing => (cmd.processorPause, bufferwork.pauseWork)
  | _ => (.incorrectStateTransition, bufferwork)

/-- `TransStateToInvalid`. -/
def transStateToInvalid (bufferwork : WorkQueue) : OmxError × WorkQueue :=
  (.invalidState, bufferwork)

/-- `TransStateToWaitForResources`. -/
def transStateToWaitForResources (current : OmxState) (bufferwork : WorkQueue) :
    OmxError × WorkQueue :=
  match current with
  | .loaded => (.none, bufferwork)
  | _ => (.incorrectStateTransition, bufferwork)

/-- The choice of the transition function in `TransState`. -/
def tryTransition (c : Component) (cmd : StateCommand) : OmxError × WorkQueue :=
  if cmd.transition = some c.state then (.sameState, c.bufferwork)
  else if c.state = .invalid then (.invalidState, c.bufferwork)
  else
    match cmd.transition with
    | some .loaded => transStateToLoaded cmd c.state c.bufferwork
    | some .idle => transStateToIdle cmd c.state c.bufferwork
    | some .executing => transStateToExecuting cmd c.state c.bufferwork
    | some .pause => transStateToPause cmd c.state c.bufferwork
    | some .invalid => transStateToInvalid c.bufferwork
    | some .waitForResources => transStateToWaitForResources c.state c.bufferwork
    | none => (.incorrectStateTransition, c.bufferwork)

/-- The state that `TransState` leaves when the transition returned `ret`. -/
def stateAfter (c : Component) (cmd : StateCommand) (ret : OmxError) : OmxState :=
  if ret = .none then cmd.transition.getD c.state
  else if cmd.transition = some .invalid ∨ ret = .invalidState then .invalid
  else c.state

/-- `TransState`: the error that is notified, and the component afterwards. -/
def transState (c : Component) (cmd : StateCommand) : OmxError × Component :=
  let (ret, bufferwork) := tryTransition c cmd
  (ret, ⟨stateAfter c cmd ret, bufferwork⟩)

/-- The step function of the runs: a state command. -/
def stateStep (c : Component) (cmd : StateCommand) : Option Component :=
  some (transState c cmd).2

/-! ## Agreement of the state and the worker -/

/-- The worker is started in the states Executing and Pause, and is paused in Pause. -/
def Fits (state : OmxState) (q : WorkQueue) : Prop :=
  (q.started = true ↔ state = .executing ∨ state = .pause) ∧ (q.paused = true ↔ state = .pause)

/-- The state of the component agrees with its worker. -/
def Agrees (c : Component) : Prop := Fits c.state c.bufferwork

/-- A failed transition leaves the state and the worker as they were, unless the component goes to
Invalid, because it was asked to or because a hook said so. -/
def FailureKeeps (c : Component) (cmd : StateCommand) : Prop :=
  (transState c cmd).1 ≠ .none → cmd.transition ≠ some .invalid →
    (transState c cmd).1 ≠ .invalidState →
    (transState c cmd).2.state = c.state ∧
      (transState c cmd).2.bufferwork.started = c.bufferwork.started ∧
      (transState c cmd).2.bufferwork.paused = c.bufferwork.paused

/-- The commands after which state and worker still agree. The hook that follows a change of the
worker succeeds, with two exceptions: no thread was created for a start that fails, and a failed
stop sends the component to Invalid. And a component whose worker runs is not sent to Invalid. -/
def harmless (c : Component) (cmd : StateCommand) : Bool :=
  match c.state, cmd.transition with
  | .idle, some .executing => cmd.createOk == decide (cmd.processorStart = .none)
  | .idle, some .pause => cmd.createOk && decide (cmd.processorStart = .none)
  | .executing, some .pause => cmd.processorPause = .none
  | .pause, some .executing => cmd.processorResume = .none
  | .executing, some .idle => cmd.processorStop = .none ∨ cmd.processorStop = .invalidState
  | .pause, some .idle => cmd.processorStop = .none ∨ cmd.processorStop = .invalidState
  | .executing, some .invalid => false
  | .pause, some .invalid => false
  | _, _ => true

variable {c : Component}

theorem joined_transState (hjoined : c.bufferwork.Joined) (cmd : StateCommand) :
    (transState c cmd).2.bufferwork.Joined := by
  simp only [transState, tryTransition, transStateToLoaded, transStateToIdle,
    transStateToExecuting, transStateToPause, transStateToInvalid, transStateToWaitForResources]
  repeat' split
  all_goals simp [hjoined]

/-- Two workers that fit a state are started and paused alike. -/
theorem Fits.same {state : OmxState} {q q' : WorkQueue} (h : Fits state q) (h' : Fits state q') :
    q'.started = q.started ∧ q'.paused = q.paused :=
  ⟨Bool.eq_iff_iff.mpr (h'.1.trans h.1.symm), Bool.eq_iff_iff.mpr (h'.2.trans h.2.symm)⟩

/-- What a command has to leave, by the result of its transition function. -/
theorem settled_iff (h : Agrees c) {cmd : StateCommand} (hne : cmd.transition ≠ some .invalid) :
    (Agrees (transState c cmd).2 ∧ FailureKeeps c cmd) ↔
      ((tryTransition c cmd).1 = .none →
        Fits (cmd.transition.getD c.state) (tryTransition c cmd).2) ∧
      ((tryTransition c cmd).1 = .invalidState → Fits .invalid (tryTransition c cmd).2) ∧
      ((tryTransition c cmd).1 ≠ .none → (tryTransition c cmd).1 ≠ .invalidState →
        Fits c.state (tryTransition c cmd).2) := by
  simp only [Agrees, FailureKeeps, transState, stateAfter, hne, false_or]
  generalize (tryTransition c cmd).1 = ret
  generalize (tryTransition c cmd).2 = q
  by_cases hnone : ret = .none
  · simp [hnone]
  by_cases hinv : ret = .invalidState
  · simp [hinv]
  simp only [hnone, hinv, if_false, false_implies, true_and, ne_eq, not_false_eq_true, true_implies]
  constructor
  · exact fun hboth => hboth.1
  · exact fun hfits => ⟨hfits, fun _ => h.same hfits⟩

/-- From a component that agrees with its worker, a command keeps the agreement, and the law for
failures, exactly if it is harmless. -/
theorem agrees_transState_iff (hjoined : c.bufferwork.Joined) (h : Agrees c) (cmd : StateCommand) :
    (Agrees (transState c cmd).2 ∧ FailureKeeps c cmd) ↔ harmless c cmd = true := by
  obtain ⟨state, q⟩ := c
  have hfits : Fits state q := h
  by_cases hinvalid : cmd.transition = some .invalid
  · -- the worker goes on, whatever it does
    cases state <;>
      simp_all [Agrees, Fits, FailureKeeps, harmless, transState, tryTransition, stateAfter,
        transStateToInvalid]
  rw [settled_iff h hinvalid]
  cases htrans : cmd.transition with
  | none => cases state <;> simp_all [Fits, harmless, tryTransition]
  | some transition =>
    cases transition with
    | invalid => exact absurd htrans hinvalid
    | loaded => cases state <;> simp_all [Fits, harmless, tryTransition, transStateToLoaded]
    | waitForResources =>
      cases state <;> simp_all [Fits, harmless, tryTransition, transStateToWaitForResources]
    | idle =>
      -- a stopped worker fits every state but Executing and Pause
      cases state <;> simp_all [Fits, harmless, tryTransition, transStateToIdle]
      all_goals by_cases hstop : cmd.processorStop = .none <;> simp [hstop]
    | executing =>
      cases state <;> simp_all [Fits, harmless, tryTransition, transStateToExecuting,
        WorkQueue.started_startWork]
      case idle => cases hstart : cmd.processorStart <;> simp
      case pause => cases hresume : cmd.processorResume <;> simp
    | pause =>
      cases state <;> simp_all [Fits, harmless, tryTransition, transStateToPause,
        WorkQueue.started_startWork]
      case idle => cases hstart : cmd.processorStart <;> simp
      case executing => cases hpause : cmd.processorPause <;> simp

/-- A component that agrees with its worker, and whose worker is joined when it was told to end. -/
structure Sound (c : Component) : Prop where
  joined : c.bufferwork.Joined
  agrees : Agrees c

theorem sound_new : Sound .new :=
  ⟨WorkQueue.joined_new, by simp [Agrees, Fits, Component.new, WorkQueue.new, WorkQueue.started,
    WorkQueue.paused]⟩

/-- In every run of harmless commands the state of the component agrees with its worker; and a
further command keeps this, and leaves everything as it was if it fails, exactly if it is harmless
as well. -/
theorem state_agrees_with_worker {c : Component}
    (hrun : Reach stateStep (fun c cmd => harmless c cmd = true) .new c) :
    Agrees c ∧ ∀ cmd, (Agrees (transState c cmd).2 ∧ FailureKeeps c cmd) ↔
      harmless c cmd = true := by
  have hsound : Sound c := by
    refine hrun.invariant sound_new fun a cmd b ha hcmd hb => ?_
    obtain rfl : (transState a cmd).2 = b := Option.some.inj hb
    exact ⟨joined_transState ha.joined cmd,
      ((agrees_transState_iff ha.joined ha.agrees cmd).mpr hcmd).1⟩
  exact ⟨hsound.agrees, fun cmd => agrees_transState_iff hsound.joined hsound.agrees cmd⟩

/-- The command to go to a state, with all calls successful. -/
def StateCommand.to (transition : OmxState) : StateCommand :=
  ⟨some transition, .none, .none, .none, .none, .none, .none, .none, true⟩

/-- A component that plays, is paused and plays on, whose next command to stop fails with
`OMX_ErrorInvalidState`. -/
theorem state_agrees_with_worker_playing :
    ∃ c, Reach stateStep (fun c cmd => harmless c cmd = true) .new c ∧
      c.state = .executing ∧ Agrees c ∧
      Agrees (transState c { StateCommand.to .idle with processorStop := .invalidState }).2 := by
  have hrun : Reach stateStep (fun c cmd => harmless c cmd = true) .new
      ⟨.executing, ⟨true, false, true⟩⟩ :=
    Reach.of_exec (fun _ _ h => h) ([.idle, .executing, .pause, .executing].map StateCommand.to)
      (by decide)
  have hagrees := state_agrees_with_worker hrun
  exact ⟨_, hrun, rfl, hagrees.1, ((hagrees.2 _).mpr (by decide)).1⟩

/-- `ProcessorStart` fails: the component stays Idle, and its worker runs. -/
theorem failed_start_leaves_worker :
    ∃ c, Reach stateStep (fun _ _ => True) .new c ∧ c.state = .idle ∧
      ¬ Agrees c ∧ ¬ FailureKeeps ⟨.idle, .new⟩
        { StateCommand.to .executing with processorStart := .other 0 } := by
  refine ⟨⟨.idle, ⟨true, false, true⟩⟩, ?_, rfl, ?_, ?_⟩
  · exact @Reach.of_exec _ _ stateStep (fun _ _ => True) (fun _ _ => true) (fun _ _ _ => trivial)
      [.to .idle, { StateCommand.to .executing with processorStart := .other 0 }] _ _
      (by decide)
  · simp [Agrees, Fits, WorkQueue.started]
  · intro hkeeps
    have hsame := hkeeps (by decide) (by decide) (by decide)
    exact absurd hsame.2.1 (by decide)

end HardwareIntel.Omx
