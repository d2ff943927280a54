import HardwareIntel.Omx.Component
import Mathlib.Data.List.FinRange

/-!
# Populating the ports of an OMX component

A component that goes from Loaded to Idle, or enables a port, waits until the client has allocated
all buffers of the ports; from Idle to Loaded, or to disable a port, it waits until they are freed.
The client and the command thread run concurrently: `UseBuffer`, `AllocateBuffer` and `FreeBuffer`
of `PortBase` (`wrs_omxil_core/base/src/portbase.cpp`) are atomic (`hdrs_lock`), and the command
thread (`TransStateToIdle`, `TransStateToLoaded` in `componentbase.cpp`, `PortBase::TransState`)
makes a step for each port it looks at, for the beginning and the end of each wait, for the test of
`nr_buffer_hdrs` after it, for setting `bEnabled`, and for each announcement.

One flag, `buffer_hdrs_completion`, tells the thread of both events, and a wait that ends toggles
it. The ghost field `signal` of a port remembers which event raised the flag, as long as no call of
the client came after it. A wait that ends on a signal of the right kind was worth waiting for;
`freshSteps` admits these, and an expired wait if its error is not overwritten.
-/

namespace HardwareIntel.Omx

open Option Function

variable {n : ℕ}

/-! ## The headers of a port -/

/-- The two events that raise `buffer_hdrs_completion`. -/
inductive Completion
  | allocated | freed
  deriving DecidableEq

/-- The parts of a `PortBase` that count its buffer headers. -/
structure PortHeaders where
  enabled : Bool
  nrBufferHdrs : ℕ
  nBufferCountActual : ℕ
  populated : Bool
  completion : Bool
  signal : Option Completion

namespace PortHeaders

/-- A port without buffer headers. -/
def new (nBufferCountActual : ℕ) : PortHeaders := ⟨true, 0, nBufferCountActual, false, false, none⟩

/-- Another header is there; `full` says that it is the last one. -/
def addHeader (port : PortHeaders) (full : ℕ → ℕ → Bool) : PortHeaders :=
  let nr := port.nrBufferHdrs + 1
  if port.populated then port
  else if full nr port.nBufferCountActual then
    { port with
      nrBufferHdrs := nr, populated := true, completion := true, signal := some .allocated }
  else { port with nrBufferHdrs := nr, signal := none }

/-- `PortBase::UseBuffer`. -/
def useBuffer (port : PortHeaders) : PortHeaders := port.addHeader fun nr count => count ≤ nr

/-- `PortBase::AllocateBuffer`. -/
def allocateBuffer (port : PortHeaders) : PortHeaders := port.addHeader fun nr count => nr = count

/-- `PortBase::FreeBuffer`, for a header of the port. -/
def freeBuffer (port : PortHeaders) : PortHeaders :=
  let nr := port.nrBufferHdrs - 1
  if nr = 0 then
    { port with
      nrBufferHdrs := nr, populated := false, completion := true, signal := some .freed }
  else { port with nrBufferHdrs := nr, populated := false, signal := none }

/-- The end of a wait, by a signal or not. -/
def endWait (port : PortHeaders) : PortHeaders :=
  { port with completion := !port.completion, signal := none }

end PortHeaders

/-! ## The command thread -/

/-- The commands that wait for the client. -/
inductive WaitCommand
  | loadedToIdle | idleToLoaded | portEnable | portDisable
  deriving DecidableEq

/-- The event that a command waits for. -/
def WaitCommand.awaits : WaitCommand → Completion
  | .loadedToIdle => .allocated
  | .portEnable => .allocated
  | .idleToLoaded => .freed
  | .portDisable => .freed

/-- What the thread does with a port: it goes on to the next one, is about to wait, or waits. In a port
command it is then done with the wait, has tested the port, and announces the result; `ok` says that
the result is `OMX_ErrorNone`. -/
inductive Phase (n : ℕ)
  | examine
  | entering (p : Fin n)
  | waiting (p : Fin n)
  | waited (p : Fin n) (ok : Bool)
  | tested (p : Fin n) (ok : Bool)
  | announcing (p : Fin n) (ok : Bool)
  deriving DecidableEq

/-- The port that the thread waits for or is about to wait for. -/
def Phase.awaited : Phase n → Option (Fin n)
  | .entering p | .waiting p => some p
  | _ => none

/-- The port of a port command that has not failed after its wait. -/
def Phase.done : Phase n → Option (Fin n)
  | .waited p true | .tested p true | .announcing p true => some p
  | _ => none

/-- The command thread in a command: the ports it has still to look at, and whether the result is
`OMX_ErrorNone` so far. -/
structure CommandThread (n : ℕ) where
  cmd : WaitCommand
  todo : List (Fin n)
  phase : Phase n
  ok : Bool

/-- A command that completed with success. -/
inductive Announcement (n : ℕ)
  | idle
  | loaded
  | enabled (p : Fin n)
  | disabled (p : Fin n)
  deriving DecidableEq

/-- The ports of a component, its state, the command that is handled, and the success announced by
the last step. -/
structure Population (n : ℕ) where
  ports : Fin n → PortHeaders
  state : OmxState
  thread : Option (CommandThread n)
  announced : Option (Announcement n)

/-- A component in the state Loaded, with the given numbers of buffers. -/
def Population.new (count : Fin n → ℕ) : Population n :=
  ⟨fun p => .new (count p), .loaded, none, none⟩

namespace Population

/-- Change a port and go on with a command. -/
def proceed (s : Population n) (p : Fin n) (port : PortHeaders) (t : CommandThread n) :
    Population n :=
  { s with ports := Function.update s.ports p port, thread := some t, announced := none }

/-- The end of the wait for a port, in `TransStateToIdle`, `TransStateToLoaded` and
`PortBase::TransState`. Only decoders (`decoder`) wait for a limited time and use the result. -/
def endWait (decoder : Bool) (s : Population n) (t : CommandThread n) (p : Fin n)
    (expired : Bool) : Population n :=
  let port := (s.ports p).endWait
  match t.cmd with
  | .loadedToIdle =>
    s.proceed p port { t with phase := .examine, ok := if decoder then !expired else t.ok }
  | .idleToLoaded => s.proceed p port { t with phase := .examine }
  | .portEnable | .portDisable => s.proceed p port { t with phase := .waited p !expired }

/-- `WaitPortBufferCompletion` and `WaitPortBufferCompletionTimeout`, up to the wait. -/
def wait (decoder : Bool) (s : Population n) (t : CommandThread n) (p : Fin n) : Population n :=
  if (s.ports p).completion then s.endWait decoder t p false
  else s.proceed p (s.ports p) { t with phase := .waiting p }

/-- The thread looks at a port; `t` is the thread without it. -/
def examine (s : Population n) (t : CommandThread n) (p : Fin n) : Population n :=
  let port := s.ports p
  match t.cmd with
  | .loadedToIdle => s.proceed p port (if port.enabled then { t with phase := .entering p } else t)
  | .idleToLoaded =>
    s.proceed p port (if 0 < port.nrBufferHdrs then { t with phase := .entering p } else t)
  | .portEnable =>
    -- the port is in this state already
    if port.enabled then s.proceed p port { t with phase := .announcing p false }
    else s.proceed p port { t with phase := .entering p }
  | .portDisable =>
    if !port.enabled then s.proceed p port { t with phase := .announcing p false }
    else if 0 < port.nrBufferHdrs then s.proceed p port { t with phase := .entering p }
    else s.proceed p port { t with phase := .tested p true }

/-- A decoder that enables a port looks after the wait whether the port is empty, without the lock. -/
def test (decoder : Bool) (s : Population n) (t : CommandThread n) (p : Fin n) (ok : Bool) :
    Population n :=
  let empty := decoder && decide (t.cmd = .portEnable) && decide ((s.ports p).nrBufferHdrs = 0)
  s.proceed p (s.ports p) { t with phase := .tested p (ok && !empty) }

/-- A port command that has not failed sets `bEnabled`. -/
def setEnabled (s : Population n) (t : CommandThread n) (p : Fin n) (ok : Bool) : Population n :=
  let port := s.ports p
  s.proceed p (if ok then { port with enabled := decide (t.cmd = .portEnable) } else port)
    { t with phase := .announcing p ok }

/-- The announcement at the end of a state command, or for a port; `hookOk` is the result of
`ProcessorInit` or `ProcessorDeinit`. -/
def announce (s : Population n) (t : CommandThread n) (hookOk : Bool) : Option (Population n) :=
  match t.cmd, t.phase, t.todo with
  | .loadedToIdle, .examine, [] =>
    some { s with
      thread := none
      state := if t.ok && hookOk then .idle else s.state
      announced := if t.ok && hookOk then some .idle else none }
  | .idleToLoaded, .examine, [] =>
    some { s with
      thread := none
      state := if hookOk then .loaded else s.state
      announced := if hookOk then some .loaded else none }
  | .portEnable, .announcing p ok, _ =>
    some { s with
      thread := some { t with phase := .examine }
      announced := if ok then some (.enabled p) else none }
  | .portDisable, .announcing p ok, _ =>
    some { s with
      thread := some { t with phase := .examine }
      announced := if ok then some (.disabled p) else none }
  | .portEnable, .examine, [] => some { s with thread := none, announced := none }
  | .portDisable, .examine, [] => some { s with thread := none, announced := none }
  | _, _, _ => none

/-- A call of the client that changes the headers of a port. -/
def onPort (s : Population n) (p : Fin n) (f : PortHeaders → PortHeaders) : Population n :=
  { s with ports := Function.update s.ports p (f (s.ports p)), announced := none }

/-- The state in which `CBaseUseBuffer` and `CBaseAllocateBuffer` take buffers for the port. -/
def takesBuffers (s : Population n) (p : Fin n) : Bool :=
  !(s.ports p).enabled || s.state = .loaded || s.state = .waitForResources

end Population

/-- The steps of the client and the command thread. -/
inductive PopulationStep (n : ℕ)
  | useBuffer (p : Fin n)
  | allocateBuffer (p : Fin n)
  | freeBuffer (p : Fin n)
  /-- Another state command. -/
  | setState (state : OmxState)
  | startIdle
  | startLoaded
  /-- A port command, for one port or for all. -/
  | startPorts (enable : Bool) (p : Option (Fin n))
  | examine
  /-- A wait begins, or ends at once because the flag is raised. -/
  | enter
  /-- A wait ends, by a signal or without one. -/
  | wake
  | expire
  | test
  | setEnabled
  | announce (hookOk : Bool)

/-- One step. -/
def populationStep (decoder : Bool) (s : Population n) : PopulationStep n → Option (Population n)
  | .useBuffer p =>
    if s.takesBuffers p then some (s.onPort p (·.useBuffer)) else some { s with announced := none }
  | .allocateBuffer p =>
    if s.takesBuffers p then some (s.onPort p (·.allocateBuffer))
    else some { s with announced := none }
  | .freeBuffer p =>
    if 0 < (s.ports p).nrBufferHdrs then some (s.onPort p (·.freeBuffer)) else none
  | .setState state =>
    if s.thread = none then some { s with state := state, announced := none } else none
  | .startIdle =>
    if s.thread = none ∧ s.state = .loaded then
      some { s with
        thread := some ⟨.loadedToIdle, List.finRange n, .examine, true⟩, announced := none }
    else none
  | .startLoaded =>
    if s.thread = none ∧ s.state = .idle then
      some { s with
        thread := some ⟨.idleToLoaded, List.finRange n, .examine, true⟩, announced := none }
    else none
  | .startPorts enable p =>
    if s.thread = none then
      some { s with
        thread := some ⟨if enable then .portEnable else .portDisable,
          (p.map fun p => [p]).getD (List.finRange n), .examine, true⟩
        announced := none }
    else none
  | .examine => s.thread.bind fun t =>
    match t.phase, t.todo with
    | .examine, p :: todo => some (s.examine { t with todo := todo } p)
    | _, _ => none
  | .enter => s.thread.bind fun t =>
    match t.phase with
    | .entering p => some (s.wait decoder t p)
    | _ => none
  | .wake => s.thread.bind fun t =>
    match t.phase with
    | .waiting p => some (s.endWait decoder t p false)
    | _ => none
  | .expire => s.thread.bind fun t =>
    match t.phase, decoder, t.cmd with
    | .waiting p, true, .loadedToIdle => some (s.endWait decoder t p true)
    | .waiting p, true, .portEnable => some (s.endWait decoder t p true)
    | _, _, _ => none
  | .test => s.thread.bind fun t =>
    match t.cmd, t.phase with
    | .portEnable, .waited p ok | .portDisable, .waited p ok => some (s.test decoder t p ok)
    | _, _ => none
  | .setEnabled => s.thread.bind fun t =>
    match t.cmd, t.phase with
    | .portEnable, .tested p ok | .portDisable, .tested p ok => some (s.setEnabled t p ok)
    | _, _ => none
  | .announce hookOk => s.thread.bind fun t => s.announce t hookOk

/-! ## Fresh signals -/

/-- All buffers of the port are there, or none. -/
def PortHeaders.Complete (port : PortHeaders) : Completion → Prop
  | .allocated => port.nrBufferHdrs = port.nBufferCountActual
  | .freed => port.nrBufferHdrs = 0

/-- What an announcement promises of the ports concerned. -/
def Announcement.Holds (s : Population n) : Announcement n → Prop
  | .idle => ∀ p, (s.ports p).enabled = true → (s.ports p).Complete .allocated
  | .loaded => ∀ p, (s.ports p).Complete .freed
  | .enabled p => (s.ports p).Complete .allocated
  | .disabled p => (s.ports p).Complete .freed

/-- The thread is done with the port, and its command may still succeed. -/
def CommandThread.settled (t : CommandThread n) (enabled : Bool) (p : Fin n) : Bool :=
  match t.cmd with
  | .loadedToIdle => t.ok && enabled && decide (p ∉ t.todo) && decide (t.phase.awaited ≠ some p)
  | .idleToLoaded => decide (p ∉ t.todo) && decide (t.phase.awaited ≠ some p)
  | _ => decide (t.phase.done = some p)

/-- A decoder has still to look whether the port is empty. -/
def CommandThread.tests (decoder : Bool) (t : CommandThread n) (p : Fin n) : Bool :=
  decoder && decide (t.cmd = .portEnable) && decide (t.phase = .waited p true)

namespace Population

/-- The thread is done with the port in a command that waits for the event. -/
def settled (s : Population n) (c : Completion) (p : Fin n) : Bool :=
  s.thread.any fun t => decide (t.cmd.awaits = c) && t.settled (s.ports p).enabled p

/-- A decoder is about to see that the port is empty. -/
def testsEmpty (decoder : Bool) (s : Population n) (p : Fin n) : Bool :=
  s.thread.any (·.tests decoder p) && decide ((s.ports p).nrBufferHdrs = 0)

/-- The client may use or allocate a buffer for the port. -/
def mayAdd (decoder : Bool) (s : Population n) (p : Fin n) : Bool :=
  decide (0 < (s.ports p).nBufferCountActual) && !s.settled .freed p && !s.testsEmpty decoder p

/-- A wait that ends without an expired one before it, by the event it waits for, which the client
has not undone; or after which a decoder can notice that all buffers were freed. -/
def endsFresh (decoder : Bool) (s : Population n) (t : CommandThread n) (p : Fin n) : Bool :=
  (t.ok && decide ((s.ports p).signal = some t.cmd.awaits)) ||
    (decoder && decide (t.cmd = .portEnable) && decide ((s.ports p).nrBufferHdrs = 0))

end Population

/-- The steps that end a wait by a fresh signal only, and in which the client does not undo what the
thread waited for, or what it is about to notice, before it is announced. -/
def freshStep (decoder : Bool) (s : Population n) : PopulationStep n → Bool
  | .useBuffer p => !s.takesBuffers p || s.mayAdd decoder p
  | .allocateBuffer p => !s.takesBuffers p || s.mayAdd decoder p
  | .freeBuffer p => !s.settled .allocated p
  | .enter => s.thread.all fun t =>
    match t.phase with
    | .entering p => !(s.ports p).completion || s.endsFresh decoder t p
    | _ => true
  | .wake => s.thread.all fun t =>
    match t.phase with
    | .waiting p => s.endsFresh decoder t p
    | _ => true
  | _ => true

/-! ## The invariant -/

/-- The flags of a port tell the truth about the number of its headers. -/
structure PortHeaders.Counts (port : PortHeaders) : Prop where
  le_count : 0 < port.nBufferCountActual → port.nrBufferHdrs ≤ port.nBufferCountActual
  lt_count : 0 < port.nBufferCountActual → port.populated = false →
    port.nrBufferHdrs < port.nBufferCountActual
  signal : ∀ c, port.signal = some c → port.Complete c

namespace PortHeaders

variable {port : PortHeaders}

theorem counts_new (count : ℕ) : (new count).Counts := by
  constructor <;> simp [new]

theorem Counts.endWait (h : port.Counts) : port.endWait.Counts :=
  ⟨h.le_count, h.lt_count, by simp [PortHeaders.endWait]⟩

theorem Counts.setEnabled (h : port.Counts) (enabled : Bool) :
    { port with enabled := enabled }.Counts := by
  refine ⟨h.le_count, h.lt_count, fun c hc => ?_⟩
  have hcomplete := h.signal c hc
  cases c <;> exact hcomplete

@[simp] theorem enabled_addHeader (full : ℕ → ℕ → Bool) :
    (port.addHeader full).enabled = port.enabled := by
  unfold addHeader
  dsimp only
  repeat' split
  all_goals rfl

@[simp] theorem enabled_freeBuffer : port.freeBuffer.enabled = port.enabled := by
  unfold freeBuffer
  dsimp only
  split <;> rfl

/-- A new header completes the port exactly if it is the last one, for both ways to test it. -/
theorem Counts.addHeader (h : port.Counts) (hpos : 0 < port.nBufferCountActual)
    {full : ℕ → ℕ → Bool} (hfull : ∀ nr count, nr ≤ count → (full nr count = true ↔ nr = count)) :
    (port.addHeader full).Counts := by
  unfold PortHeaders.addHeader
  dsimp only
  split
  · exact h
  · rename_i hpop
    have hlt := h.lt_count hpos (by simpa using hpop)
    have hiff := hfull (port.nrBufferHdrs + 1) port.nBufferCountActual hlt
    split
    · rename_i hlast
      have heq := hiff.mp hlast
      refine ⟨fun _ => heq.le, by simp, fun c hc => ?_⟩
      obtain rfl : Completion.allocated = c := some.inj hc
      exact heq
    · rename_i hlast
      have hne : port.nrBufferHdrs + 1 ≠ port.nBufferCountActual := fun heq => hlast (hiff.mpr heq)
      refine ⟨fun _ => hlt, fun _ _ => ?_, by simp⟩
      dsimp only
      omega

/-- A port that is complete takes no more headers. -/
theorem Counts.addHeader_of_complete (h : port.Counts) (hpos : 0 < port.nBufferCountActual)
    (hcomplete : port.Complete .allocated) (full : ℕ → ℕ → Bool) :
    port.addHeader full = port := by
  have hpop : port.populated = true := by
    by_contra hpop
    have hlt := h.lt_count hpos (by simpa using hpop)
    have heq : port.nrBufferHdrs = port.nBufferCountActual := hcomplete
    omega
  simp [PortHeaders.addHeader, hpop]

theorem Counts.freeBuffer (h : port.Counts) (hpos : 0 < port.nrBufferHdrs) :
    port.freeBuffer.Counts := by
  unfold PortHeaders.freeBuffer
  dsimp only
  split
  · rename_i hzero
    refine ⟨fun _ => ?_, fun hcount _ => ?_, fun c hc => ?_⟩
    · dsimp only
      omega
    · dsimp only at hcount ⊢
      omega
    · obtain rfl : Completion.freed = c := some.inj hc
      exact hzero
  · refine ⟨fun hcount => ?_, fun hcount _ => ?_, by simp⟩
    · have hle := h.le_count hcount
      dsimp only
      omega
    · have hle := h.le_count hcount
      dsimp only
      omega

end PortHeaders

/-- What the thread relies on at a port that it is done with: all headers are there, or none, unless
a decoder is about to see that the port is empty. -/
def CommandThread.Relies (decoder : Bool) (t : CommandThread n) (p : Fin n) (port : PortHeaders) :
    Prop :=
  port.Complete t.cmd.awaits ∨ t.tests decoder p = true ∧ port.nrBufferHdrs = 0

/-- The counts of all ports; the ports that the thread is done with; and the last announcement. -/
structure Consistent (decoder : Bool) (s : Population n) : Prop where
  counts : ∀ p, (s.ports p).Counts
  settled : ∀ t, s.thread = some t → ∀ p, t.settled (s.ports p).enabled p = true →
    t.Relies decoder p (s.ports p)
  announced : ∀ a, s.announced = some a → a.Holds s

section Steps

variable {s s' : Population n} {t : CommandThread n} {p : Fin n} {decoder : Bool}

theorem consistent_new (count : Fin n → ℕ) : Consistent decoder (.new count) :=
  ⟨fun _ => PortHeaders.counts_new _, fun _ ht => by simp [Population.new] at ht,
    fun _ ha => by simp [Population.new] at ha⟩

variable {port : PortHeaders} {phase : Phase n}

/-- Only a wait that has just ended leaves a decoder something to test. -/
theorem CommandThread.Relies.complete (h : t.Relies decoder p port)
    (hphase : t.phase ≠ .waited p true) : port.Complete t.cmd.awaits := by
  refine h.resolve_right fun hempty => hphase ?_
  have htests := hempty.1
  simp only [CommandThread.tests, Bool.and_eq_true, decide_eq_true_eq] at htests
  exact htests.2

section

variable (h : Consistent decoder s)
include h

/-- A call of the client that keeps the port complete if the thread is done with it. -/
theorem Consistent.onPort {f : PortHeaders → PortHeaders} (hcounts : (f (s.ports p)).Counts)
    (henabled : (f (s.ports p)).enabled = (s.ports p).enabled)
    (hempty : s.testsEmpty decoder p = false)
    (hkeeps : ∀ c, s.settled c p = true → (s.ports p).Complete c → (f (s.ports p)).Complete c) :
    Consistent decoder (s.onPort p f) where
  counts q := by
    unfold Population.onPort
    by_cases hq : q = p
    · subst hq
      simpa using hcounts
    · simpa [hq] using h.counts q
  settled t ht q hsettled := by
    unfold Population.onPort at ht hsettled ⊢
    by_cases hq : q = p
    · subst hq
      simp only [update_self, henabled] at hsettled ⊢
      have hthread : s.thread = some t := ht
      rcases h.settled t ht q hsettled with hcomplete | ⟨htests, hzero⟩
      · exact Or.inl (hkeeps _ (by simp [Population.settled, hthread, hsettled]) hcomplete)
      · simp [Population.testsEmpty, hthread, htests, hzero] at hempty
    · simp only [update_of_ne hq] at hsettled ⊢
      exact h.settled t ht q hsettled
  announced a ha := by simp [Population.onPort] at ha

theorem Consistent.addHeader {full : ℕ → ℕ → Bool} (hmay : s.mayAdd decoder p = true)
    (hfull : ∀ nr count, nr ≤ count → (full nr count = true ↔ nr = count)) :
    Consistent decoder (s.onPort p (·.addHeader full)) := by
  have hcounts := h.counts p
  simp only [Population.mayAdd, Bool.and_eq_true, decide_eq_true_eq, Bool.not_eq_true'] at hmay
  obtain ⟨⟨hpos, hsettled⟩, hempty⟩ := hmay
  refine h.onPort (hcounts.addHeader hpos hfull) (by simp) hempty fun c hc hcomplete => ?_
  cases c with
  | allocated => rwa [hcounts.addHeader_of_complete hpos hcomplete]
  | freed => simp [hsettled] at hc

theorem Consistent.freeBuffer (hpos : 0 < (s.ports p).nrBufferHdrs)
    (hsettled : s.settled .allocated p = false) :
    Consistent decoder (s.onPort p (·.freeBuffer)) := by
  have hempty : s.testsEmpty decoder p = false := by simp [Population.testsEmpty, hpos.ne']
  refine h.onPort ((h.counts p).freeBuffer hpos) (by simp) hempty fun c hc hcomplete => ?_
  cases c with
  | allocated => simp [hsettled] at hc
  | freed =>
    have hzero : (s.ports p).nrBufferHdrs = 0 := hcomplete
    omega

/-- A step of the thread from one port. -/
theorem Consistent.proceed (hcounts : port.Counts)
    (hport : t.settled port.enabled p = true → t.Relies decoder p port)
    (hothers : ∀ q, q ≠ p → t.settled (s.ports q).enabled q = true →
      (s.ports q).Complete t.cmd.awaits) :
    Consistent decoder (s.proceed p port t) where
  counts q := by
    unfold Population.proceed
    by_cases hq : q = p
    · subst hq
      simpa using hcounts
    · simpa [hq] using h.counts q
  settled t' ht' q hsettled := by
    obtain rfl : t = t' := some.inj ht'
    unfold Population.proceed at hsettled ⊢
    by_cases hq : q = p
    · subst hq
      simp only [update_self] at hsettled ⊢
      exact hport hsettled
    · simp only [update_of_ne hq] at hsettled ⊢
      exact Or.inl (hothers q hq hsettled)
  announced a ha := by simp [Population.proceed] at ha

/-- The thread is done with the other ports, if it has only `p` in hand. -/
def OthersComplete (s : Population n) (t : CommandThread n) (p : Fin n) : Prop :=
  ∀ q, q ≠ p → { t with phase := .examine }.settled (s.ports q).enabled q = true →
    (s.ports q).Complete t.cmd.awaits

/-- A fresh signal means that the port is complete, or a decoder can notice that it is empty. -/
theorem Consistent.complete_of_endsFresh (hfresh : s.endsFresh decoder t p = true) :
    t.ok = true ∧ (s.ports p).Complete t.cmd.awaits ∨
      decoder = true ∧ t.cmd = .portEnable ∧ (s.ports p).nrBufferHdrs = 0 := by
  simp only [Population.endsFresh, Bool.or_eq_true, Bool.and_eq_true, decide_eq_true_eq] at hfresh
  rcases hfresh with ⟨hok, hsignal⟩ | ⟨⟨hdecoder, hcmd⟩, hzero⟩
  · exact Or.inl ⟨hok, (h.counts p).signal _ hsignal⟩
  · exact Or.inr ⟨hdecoder, hcmd, hzero⟩

/-- In a state command, the wait for the port ends. -/
theorem Consistent.endWait_state (hothers : OthersComplete s t p)
    (hcomplete : (s.ports p).Complete t.cmd.awaits)
    (hcmd : t.cmd = .loadedToIdle ∨ t.cmd = .idleToLoaded) {ok : Bool}
    (hok : ok = true → t.ok = true) :
    Consistent decoder (s.proceed p (s.ports p).endWait { t with phase := .examine, ok := ok }) := by
  refine h.proceed (h.counts p).endWait (fun _ => Or.inl ?_) fun q hq hsettled => hothers q hq ?_
  · revert hcomplete
    cases t.cmd.awaits <;> exact id
  · rcases hcmd with hcmd | hcmd
    · simp only [CommandThread.settled, hcmd, Bool.and_eq_true] at hsettled ⊢
      exact ⟨⟨⟨hok hsettled.1.1.1, hsettled.1.1.2⟩, hsettled.1.2⟩, hsettled.2⟩
    · simpa only [CommandThread.settled, hcmd] using hsettled

/-- A step of a port command. -/
theorem Consistent.proceed_port (hcounts : port.Counts)
    (hcmd : t.cmd = .portEnable ∨ t.cmd = .portDisable) (hphase : ∀ q, phase.done = some q → q = p)
    (hport : phase.done = some p → { t with phase := phase }.Relies decoder p port) :
    Consistent decoder (s.proceed p port { t with phase := phase }) := by
  have hdone : ∀ q enabled, { t with phase := phase }.settled enabled q = true →
      phase.done = some q := by
    intro q enabled hsettled
    rcases hcmd with hcmd | hcmd <;>
      simpa only [CommandThread.settled, hcmd, decide_eq_true_eq] using hsettled
  exact h.proceed hcounts (fun hsettled => hport (hdone _ _ hsettled))
    fun q hq hsettled => absurd (hphase q (hdone _ _ hsettled)) hq

end

/-- Only one port is done in a phase. -/
theorem Phase.eq_of_done {q : Fin n} (hp : phase.done = some p) (hq : phase.done = some q) :
    q = p := some.inj (hq.symm.trans hp)

theorem Consistent.endWait (h : Consistent decoder s) (hothers : OthersComplete s t p)
    (hfresh : s.endsFresh decoder t p = true) :
    Consistent decoder (s.endWait decoder t p false) := by
  have hcounts := (h.counts p).endWait
  have hcomplete := h.complete_of_endsFresh hfresh
  obtain ⟨cmd, todo, phase, ok⟩ := t
  cases cmd with
  | loadedToIdle =>
    simp only [reduceCtorEq, false_and, and_false, or_false] at hcomplete
    exact h.endWait_state hothers hcomplete.2 (Or.inl rfl) fun _ => hcomplete.1
  | idleToLoaded =>
    simp only [reduceCtorEq, false_and, and_false, or_false] at hcomplete
    exact h.endWait_state hothers hcomplete.2 (Or.inr rfl) id
  | portEnable =>
    refine h.proceed_port (t := ⟨.portEnable, todo, phase, ok⟩) hcounts
      (Or.inl rfl) (fun q => Phase.eq_of_done rfl) fun _ => ?_
    rcases hcomplete with ⟨-, hcomplete⟩ | ⟨hdecoder, -, hzero⟩
    · exact Or.inl hcomplete
    · exact Or.inr ⟨by simp [CommandThread.tests, hdecoder], hzero⟩
  | portDisable =>
    simp only [reduceCtorEq, false_and, and_false, or_false] at hcomplete
    exact h.proceed_port (t := ⟨.portDisable, todo, phase, ok⟩) hcounts
      (Or.inr rfl) (fun q => Phase.eq_of_done rfl) fun _ => Or.inl hcomplete.2

/-- A decoder whose wait expires fails. -/
theorem Consistent.expire (h : Consistent true s)
    (hcmd : t.cmd = .loadedToIdle ∨ t.cmd = .portEnable) :
    Consistent true (s.endWait true t p true) := by
  have hcounts := (h.counts p).endWait
  obtain ⟨cmd, todo, phase, ok⟩ := t
  rcases hcmd with rfl | rfl
  · refine h.proceed hcounts (fun hsettled => ?_) fun q _ hsettled => ?_ <;>
      simp [CommandThread.settled] at hsettled
  · exact h.proceed_port (t := ⟨.portEnable, todo, phase, ok⟩) hcounts
      (Or.inl rfl) (by simp [Phase.done]) (by simp [Phase.done])

section

variable (h : Consistent decoder s)
include h

section

variable (hothers : OthersComplete s t p)
include hothers

/-- The thread waits for a port, or is about to. -/
theorem Consistent.await (hphase : phase.awaited = some p) (hdone : phase.done = none) :
    Consistent decoder (s.proceed p (s.ports p) { t with phase := phase }) := by
  refine h.proceed (h.counts p) (fun hsettled => ?_) fun q hq hsettled => hothers q hq ?_
  · revert hsettled
    simp only [CommandThread.settled, hphase, hdone]
    cases t.cmd <;> simp
  · revert hsettled
    simp only [CommandThread.settled, hphase, hdone]
    cases t.cmd <;> simp +contextual [Phase.awaited]

theorem Consistent.wait (hfresh : (s.ports p).completion = true → s.endsFresh decoder t p = true) :
    Consistent decoder (s.wait decoder t p) := by
  unfold Population.wait
  split
  · rename_i hcompletion
    exact h.endWait hothers (hfresh hcompletion)
  · exact h.await hothers rfl rfl

/-- The thread looks at a port without waiting for it. -/
theorem Consistent.skip (hphase : t.phase = .examine)
    (hport : t.settled (s.ports p).enabled p = true → (s.ports p).Complete t.cmd.awaits) :
    Consistent decoder (s.proceed p (s.ports p) t) := by
  refine h.proceed (h.counts p) (fun hsettled => Or.inl (hport hsettled))
    fun q hq hsettled => hothers q hq ?_
  rw [← hphase]
  exact hsettled

theorem Consistent.examine (hphase : t.phase = .examine) :
    Consistent decoder (s.examine t p) := by
  obtain ⟨cmd, todo, phase, ok⟩ := t
  cases cmd with
  | loadedToIdle =>
    simp only [Population.examine]
    split
    · exact h.await hothers rfl rfl
    · rename_i henabled
      exact h.skip hothers hphase fun hsettled => by simp [CommandThread.settled, henabled] at hsettled
  | idleToLoaded =>
    simp only [Population.examine]
    split
    · exact h.await hothers rfl rfl
    · rename_i hpos
      exact h.skip hothers hphase fun _ => Nat.eq_zero_of_not_pos hpos
  | portEnable =>
    simp only [Population.examine]
    split
    · exact h.proceed_port (t := ⟨.portEnable, todo, phase, ok⟩) (h.counts p) (Or.inl rfl)
        (by simp [Phase.done]) (by simp [Phase.done])
    · exact h.await hothers rfl rfl
  | portDisable =>
    simp only [Population.examine]
    split
    · exact h.proceed_port (t := ⟨.portDisable, todo, phase, ok⟩) (h.counts p) (Or.inr rfl)
        (by simp [Phase.done]) (by simp [Phase.done])
    · split
      · exact h.await hothers rfl rfl
      · rename_i hpos
        exact h.proceed_port (t := ⟨.portDisable, todo, phase, ok⟩) (h.counts p) (Or.inr rfl)
          (fun q => Phase.eq_of_done rfl) fun _ => Or.inl (Nat.eq_zero_of_not_pos hpos)

end

section

variable (ht : s.thread = some t) (hcmd : t.cmd = .portEnable ∨ t.cmd = .portDisable)
include ht hcmd

/-- What the thread relies on after the wait of a port command. -/
theorem Consistent.relies_of_done (hdone : t.phase.done = some p) :
    t.Relies decoder p (s.ports p) :=
  h.settled t ht p (by rcases hcmd with hcmd | hcmd <;> simp [CommandThread.settled, hcmd, hdone])

/-- A decoder that does not see an empty port has all buffers. -/
theorem Consistent.test {ok : Bool} (hphase : t.phase = .waited p ok) :
    Consistent decoder (s.test decoder t p ok) := by
  cases ok with
  | false =>
    exact h.proceed_port (h.counts p) hcmd (by simp [Phase.done]) (by simp [Phase.done])
  | true =>
    have hrelies := h.relies_of_done ht hcmd (by rw [hphase]; rfl)
    unfold Population.test
    cases hempty : decoder && decide (t.cmd = .portEnable) &&
        decide ((s.ports p).nrBufferHdrs = 0) with
    | false =>
      refine h.proceed_port (h.counts p) hcmd (fun q => Phase.eq_of_done rfl) fun _ => Or.inl ?_
      refine hrelies.resolve_right fun hzero => ?_
      have htests := hzero.1
      simp only [CommandThread.tests, hphase, decide_true, Bool.and_true] at htests
      simp [htests, hzero.2] at hempty
    | true =>
      exact h.proceed_port (h.counts p) hcmd (by simp [Phase.done]) (by simp [Phase.done])

/-- A port command ends for a port. -/
theorem Consistent.setEnabled {ok : Bool} (hphase : t.phase = .tested p ok) :
    Consistent decoder (s.setEnabled t p ok) := by
  cases ok with
  | false =>
    exact h.proceed_port (h.counts p) hcmd (by simp [Phase.done]) (by simp [Phase.done])
  | true =>
    have hcomplete : (s.ports p).Complete t.cmd.awaits :=
      (h.relies_of_done ht hcmd (by rw [hphase]; rfl)).complete (by simp [hphase])
    refine h.proceed_port ((h.counts p).setEnabled _) hcmd (fun q => Phase.eq_of_done rfl)
      fun _ => Or.inl ?_
    revert hcomplete
    cases t.cmd.awaits <;> exact id

end

/-- The ports do not change with an announcement. -/
theorem Consistent.of_ports (hports : s'.ports = s.ports)
    (hsettled : ∀ t, s'.thread = some t → ∀ p, t.settled (s.ports p).enabled p = true →
      t.Relies decoder p (s.ports p))
    (hannounced : ∀ a, s'.announced = some a → a.Holds s) : Consistent decoder s' where
  counts p := by
    rw [hports]
    exact h.counts p
  settled t ht p := by
    rw [hports]
    exact hsettled t ht p
  announced a ha := by
    have hholds := hannounced a ha
    cases a <;> simp only [Announcement.Holds, hports] at hholds ⊢ <;> exact hholds

/-- What is announced holds of the ports. -/
theorem Consistent.announce (ht : s.thread = some t) {hookOk : Bool}
    (hstep : s.announce t hookOk = some s') : Consistent decoder s' := by
  have hsettled := h.settled t ht
  obtain ⟨cmd, todo, phase, ok⟩ := t
  unfold Population.announce at hstep
  split at hstep
  · -- Loaded to Idle
    rename_i hcmd hphase htodo
    obtain ⟨rfl, rfl, rfl⟩ : cmd = .loadedToIdle ∧ phase = .examine ∧ todo = [] :=
      ⟨hcmd, hphase, htodo⟩
    obtain rfl := some.inj hstep
    refine h.of_ports rfl (by simp) fun a ha => ?_
    obtain ⟨hok, rfl⟩ : (ok && hookOk) = true ∧ .idle = a := by simpa using ha
    rw [Bool.and_eq_true] at hok
    intro p henabled
    exact (hsettled p (by simp [CommandThread.settled, Phase.awaited, hok.1, henabled])).complete
      (by simp)
  · -- Idle to Loaded
    rename_i hcmd hphase htodo
    obtain ⟨rfl, rfl, rfl⟩ : cmd = .idleToLoaded ∧ phase = .examine ∧ todo = [] :=
      ⟨hcmd, hphase, htodo⟩
    obtain rfl := some.inj hstep
    refine h.of_ports rfl (by simp) fun a ha => ?_
    obtain ⟨-, rfl⟩ : hookOk = true ∧ .loaded = a := by simpa using ha
    intro p
    exact (hsettled p (by simp [CommandThread.settled, Phase.awaited])).complete (by simp)
  · -- a port is enabled
    rename_i p ok' hcmd hphase
    obtain ⟨rfl, rfl⟩ : cmd = .portEnable ∧ phase = .announcing p ok' := ⟨hcmd, hphase⟩
    obtain rfl := some.inj hstep
    refine h.of_ports rfl (fun t ht q hq => ?_) fun a ha => ?_
    · obtain rfl := some.inj ht
      simp [CommandThread.settled, Phase.done] at hq
    · obtain ⟨rfl, rfl⟩ : ok' = true ∧ .enabled p = a := by simpa using ha
      exact (hsettled p (by simp [CommandThread.settled, Phase.done])).complete (by simp)
  · -- a port is disabled
    rename_i p ok' hcmd hphase
    obtain ⟨rfl, rfl⟩ : cmd = .portDisable ∧ phase = .announcing p ok' := ⟨hcmd, hphase⟩
    obtain rfl := some.inj hstep
    refine h.of_ports rfl (fun t ht q hq => ?_) fun a ha => ?_
    · obtain rfl := some.inj ht
      simp [CommandThread.settled, Phase.done] at hq
    · obtain ⟨rfl, rfl⟩ : ok' = true ∧ .disabled p = a := by simpa using ha
      exact (hsettled p (by simp [CommandThread.settled, Phase.done])).complete (by simp)
  · obtain rfl := some.inj hstep
    exact h.of_ports rfl (by simp) (by simp)
  · obtain rfl := some.inj hstep
    exact h.of_ports rfl (by simp) (by simp)
  · cases hstep

/-- The thread of a new command is done with no port. -/
theorem Consistent.start (ht : t.phase = .examine)
    (htodo : t.cmd = .loadedToIdle ∨ t.cmd = .idleToLoaded → t.todo = List.finRange n) :
    Consistent decoder { s with thread := some t, announced := none } := by
  refine h.of_ports rfl (fun t' ht' p hsettled => ?_) (by simp)
  obtain rfl := some.inj ht'
  revert hsettled
  simp only [CommandThread.settled, ht]
  cases hcmd : t.cmd <;> simp [hcmd, Phase.done] at htodo ⊢ <;> simp [htodo]

theorem Consistent.othersComplete_examine {todo : List (Fin n)} (ht : s.thread = some t)
    (htodo : t.todo = p :: todo) (hphase : t.phase = .examine) :
    OthersComplete s { t with todo := todo } p := by
  intro q hq hsettled
  refine (h.settled t ht q ?_).complete (by simp [hphase])
  revert hsettled
  simp only [CommandThread.settled, hphase, htodo]
  cases t.cmd <;> simp [hq]

theorem Consistent.othersComplete_awaited (ht : s.thread = some t)
    (hphase : t.phase.awaited = some p) : OthersComplete s t p := by
  have hwaited : ∀ q, t.phase ≠ .waited q true := by
    rintro q hq
    rw [hq] at hphase
    cases hphase
  intro q hq hsettled
  refine (h.settled t ht q ?_).complete (hwaited q)
  revert hsettled
  simp only [CommandThread.settled, hphase]
  cases t.cmd <;> simp +contextual [Ne.symm hq, Phase.done]

/-- Every step that ends a wait by a fresh signal only keeps the ports consistent. -/
theorem Consistent.populationStep {x : PopulationStep n} (hfresh : freshStep decoder s x = true)
    (hstep : populationStep decoder s x = some s') :
    Consistent decoder s' := by
  cases x with
  | useBuffer p =>
    simp only [Omx.populationStep, freshStep] at hstep hfresh
    split at hstep
    · rename_i htakes
      obtain rfl := some.inj hstep
      simp only [htakes, Bool.not_true, Bool.false_or] at hfresh
      refine h.addHeader hfresh fun nr count hle => ?_
      rw [decide_eq_true_iff]
      omega
    · obtain rfl := some.inj hstep
      exact h.of_ports rfl h.settled (by simp)
  | allocateBuffer p =>
    simp only [Omx.populationStep, freshStep] at hstep hfresh
    split at hstep
    · rename_i htakes
      obtain rfl := some.inj hstep
      simp only [htakes, Bool.not_true, Bool.false_or] at hfresh
      exact h.addHeader hfresh fun nr count _ => decide_eq_true_iff
    · obtain rfl := some.inj hstep
      exact h.of_ports rfl h.settled (by simp)
  | freeBuffer p =>
    obtain ⟨hpos, hstep⟩ := ite_none_right_eq_some.mp hstep
    exact some.inj hstep ▸ h.freeBuffer hpos (by simpa [freshStep] using hfresh)
  | setState state =>
    obtain ⟨-, hstep⟩ := ite_none_right_eq_some.mp hstep
    exact some.inj hstep ▸ h.of_ports rfl h.settled (by simp)
  | startIdle =>
    obtain ⟨-, hstep⟩ := ite_none_right_eq_some.mp hstep
    exact some.inj hstep ▸ h.start rfl fun _ => rfl
  | startLoaded =>
    obtain ⟨-, hstep⟩ := ite_none_right_eq_some.mp hstep
    exact some.inj hstep ▸ h.start rfl fun _ => rfl
  | startPorts enable p =>
    obtain ⟨-, hstep⟩ := ite_none_right_eq_some.mp hstep
    refine some.inj hstep ▸ h.start rfl fun hcmd => ?_
    cases enable <;> simp at hcmd
  | examine =>
    obtain ⟨t, ht, hstep⟩ := bind_eq_some_iff.mp hstep
    split at hstep
    · rename_i p todo hphase htodo
      obtain rfl := some.inj hstep
      exact h.examine (h.othersComplete_examine ht htodo hphase) hphase
    · cases hstep
  | enter =>
    obtain ⟨t, ht, hstep⟩ := bind_eq_some_iff.mp hstep
    simp only [freshStep, ht, all_some] at hfresh
    split at hstep
    · rename_i p hphase
      obtain rfl := some.inj hstep
      rw [hphase] at hfresh
      refine h.wait (h.othersComplete_awaited ht (by rw [hphase]; rfl)) fun hflag => ?_
      simpa only [hflag, Bool.not_true, Bool.false_or] using hfresh
    · cases hstep
  | wake =>
    obtain ⟨t, ht, hstep⟩ := bind_eq_some_iff.mp hstep
    simp only [freshStep, ht, all_some] at hfresh
    split at hstep
    · rename_i p hphase
      obtain rfl := some.inj hstep
      rw [hphase] at hfresh
      exact h.endWait (h.othersComplete_awaited ht (by rw [hphase]; rfl)) hfresh
    · cases hstep
  | expire =>
    obtain ⟨t, ht, hstep⟩ := bind_eq_some_iff.mp hstep
    split at hstep
    · obtain rfl := some.inj hstep
      exact h.expire (Or.inl ‹_›)
    · obtain rfl := some.inj hstep
      exact h.expire (Or.inr ‹_›)
    · cases hstep
  | test =>
    obtain ⟨t, ht, hstep⟩ := bind_eq_some_iff.mp hstep
    split at hstep
    · rename_i p ok hcmd hphase
      obtain rfl := some.inj hstep
      exact h.test ht (Or.inl hcmd) hphase
    · rename_i p ok hcmd hphase
      obtain rfl := some.inj hstep
      exact h.test ht (Or.inr hcmd) hphase
    · cases hstep
  | setEnabled =>
    obtain ⟨t, ht, hstep⟩ := bind_eq_some_iff.mp hstep
    split at hstep
    · rename_i p ok hcmd hphase
      obtain rfl := some.inj hstep
      exact h.setEnabled ht (Or.inl hcmd) hphase
    · rename_i p ok hcmd hphase
      obtain rfl := some.inj hstep
      exact h.setEnabled ht (Or.inr hcmd) hphase
    · cases hstep
  | announce hookOk =>
    obtain ⟨t, ht, hstep⟩ := bind_eq_some_iff.mp hstep
    exact h.announce ht hstep

end

end Steps

/-- In every run in which waits end by fresh signals, each announcement of success is right: every
enabled port has all its buffers after Loaded to Idle, and so has a port that was enabled; no port
has a buffer left after Idle to Loaded, nor has a port that was disabled. -/
theorem population_announced {decoder : Bool} {count : Fin n → ℕ} {s : Population n}
    (hrun : Reach (populationStep decoder) (fun s x => freshStep decoder s x = true) (.new count) s)
    {a : Announcement n} (ha : s.announced = some a) : a.Holds s := by
  have hconsistent : Consistent decoder s :=
    hrun.invariant (consistent_new count) fun _ _ _ hs hx hstep => hs.populationStep hx hstep
  exact hconsistent.announced a ha

/-- The client populates the port of an encoder while the component waits for it; it frees and
allocates the buffer again to disable and enable the port. -/
theorem population_announced_encoder :
    ∃ s : Population 1, Reach (populationStep false) (fun s x => freshStep false s x = true)
        (.new fun _ => 1) s ∧ s.announced = some (.enabled 0) ∧
      Announcement.Holds s (.enabled 0) :=
  Reach.exists_of_decide (fun s hrun (h : s.announced = some (.enabled 0)) =>
      ⟨h, population_announced hrun h⟩)
    [.startIdle, .examine, .enter, .allocateBuffer 0, .wake, .announce true,
      .startPorts false (some 0), .examine, .enter, .freeBuffer 0, .wake, .test, .setEnabled,
      .announce true, .announce true, .startPorts true (some 0), .examine, .enter, .useBuffer 0,
      .wake, .test, .setEnabled, .announce true] (by decide)

/-- The client frees the buffer before the command to disable the port is handled. The component
does not wait, and the flag stays raised: the component announces that the port is enabled again
though it has no buffer. -/
theorem stale_completion_enables_port :
    ∃ s : Population 1, Reach (populationStep false) (fun _ _ => True) (.new fun _ => 1) s ∧
      s.announced = some (.enabled 0) ∧ ¬ Announcement.Holds s (.enabled 0) :=
  Reach.exists_of_decide (fun s _ (h : s.announced = some (.enabled 0) ∧
      (s.ports 0).nrBufferHdrs ≠ (s.ports 0).nBufferCountActual) => ⟨h.1, h.2⟩)
    [.startIdle, .examine, .enter, .allocateBuffer 0, .wake, .announce true, .freeBuffer 0,
      .startPorts false (some 0), .examine, .setEnabled, .announce true, .announce true,
      .startPorts true (some 0), .examine, .enter, .test, .setEnabled, .announce true] (by decide)

end HardwareIntel.Omx
