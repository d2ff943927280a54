import HardwareIntel.Mmgr.Answers

/-!
# Requests and their answers on one connection

A client of the library and the daemon, over the two directions of a socket. The library side is
`send_msg` of `libclients/c/utils.c`, in both methods, with the reader thread that takes the
answers from the socket (`ev_ack`); several threads may be in `send_msg` at once. The daemon side
is the event loop of `EventsManager`, with any other clients.

The messages have no number. To say which request an answer belongs to, each call of `send_msg` is
given one here; the program does not see it. Timeouts and spurious wake-ups may happen at any time,
and the mutexes of the library are not modelled, which allows more interleavings than there are.

`answers_agree` says that a call which succeeds has been accepted by the daemon, if no call starts
while an answer to an earlier one may still come. `lock_without_resource` is a run in which the
late answer to a request that has timed out is taken for the answer to `mmgr_cli_lock`.
-/

namespace HardwareIntel.Mmgr

open List Option

/-! ## Calls of `send_msg` -/

/-- The ways to wait for an answer (`e_send_method_t`). -/
inductive SendMethod
  | single | threaded
  deriving DecidableEq

/-- Where a call of `send_msg` is. -/
inductive SendPhase
  /-- It is about to write its request, for the first time or again. -/
  | writing
  /-- It waits for the reader thread, or for a message on the socket. -/
  | waiting
  /-- It is about to look at the answer. -/
  | answered
  deriving DecidableEq

/-- A request with its payload; `call` is the number of the call of `send_msg` that makes it. -/
structure RequestMsg where
  call : ℕ
  request : Request
  ts : ℕ
  data : Bytes

/-- A call of `send_msg` that has not returned. -/
structure SendCall extends RequestMsg where
  method : SendMethod
  phase : SendPhase

/-- The two ends of a connection and what is on its way between them, oldest first. -/
structure Session where
  daemon : MmgrData
  toDaemon : List RequestMsg
  toClient : List Event
  /-- The reader thread has been created. -/
  reader : Bool
  /-- The message that the reader thread has read and not yet dispatched. -/
  handling : Option Event
  /-- The last answer (`p_lib->ack`). -/
  ack : ℕ
  calls : List SendCall
  /-- The number of the next call. -/
  next : ℕ
  /-- The requests for which the daemon has sent `ACK`. -/
  accepted : List (ℕ × Request)
  /-- The requests for which `send_msg` has returned `E_ERR_CLI_SUCCEED`. -/
  succeeded : List (ℕ × Request)
  /-- `mmgr_cli_lock` has succeeded, and no release has been started since. -/
  locked : Bool

/-- A new connection to the daemon. -/
def Session.fresh (daemon : MmgrData) : Session where
  daemon := daemon
  toDaemon := []
  toClient := []
  reader := false
  handling := none
  ack := Request.all.length
  calls := []
  next := 0
  accepted := []
  succeeded := []
  locked := false

namespace Session

/-- The call with the given number, if it is in the given phase. -/
def callIn (s : Session) (call : ℕ) (phase : SendPhase) : Option SendCall :=
  s.calls.find? fun c => c.call == call && c.phase == phase

/-- A call goes on to another phase. -/
def setPhase (call : ℕ) (phase : SendPhase) (s : Session) : Session :=
  { s with calls := s.calls.map fun c => if c.call = call then { c with phase := phase } else c }

/-- A call returns. -/
def finish (call : ℕ) (s : Session) : Session :=
  { s with calls := s.calls.filter fun c => c.call != call }

/-- A call returns `E_ERR_CLI_SUCCEED`. -/
def succeed (c : SendCall) (s : Session) : Session :=
  { s.finish c.call with
    succeeded := (c.call, c.request) :: s.succeeded
    locked := s.locked || c.request == .resourceAcquire }

/-- The start of `send_msg`, with `set_ack (E_MMGR_NUM_EVENTS)`. -/
def start (method : SendMethod) (request : Request) (ts : ℕ) (data : Bytes) (s : Session) :
    Session :=
  { s with
    ack := Event.all.length
    calls := ⟨⟨s.next, request, ts, data⟩, method, .writing⟩ :: s.calls
    next := s.next + 1
    locked := s.locked && request != .resourceRelease }

/-- The request is written. An acknowledgement is not answered. -/
def write (c : SendCall) (s : Session) : Session :=
  let s := { s with toDaemon := s.toDaemon ++ [c.toRequestMsg] }
  if c.request.isAcknowledgement then s.succeed c else s.setPhase c.call .waiting

/-- The call looks at the answer; without `ACK` it sends its request again, if there is time. -/
def check (c : SendCall) (retry : Bool) (s : Session) : Session :=
  if s.ack = Event.ack.toId then s.succeed c
  else if retry then s.setPhase c.call .writing
  else s.finish c.call

/-- The reader thread dispatches a message: only an answer is kept (`ev_ack`). -/
def dispatch (ev : Event) (s : Session) : Session :=
  { s with handling := none, ack := if ev = .ack ∨ ev = .nack then ev.toId else s.ack }

/-- What the daemon has sent to the client behind `fd` on the way from `m` to `m'`, oldest
first. -/
def messages (fd : Int) (m m' : MmgrData) : List Event :=
  (m'.log.take (m'.log.length - m.log.length)).reverse.filterMap fun
    | .sent fd' _ ev _ _ => if fd' = fd then some ev else none
    | _ => none

/-- The daemon goes on to `m'`, and what it sends to the client is on its way. -/
def advance (fd : Int) (m' : MmgrData) (s : Session) : Session :=
  { s with daemon := m', toClient := s.toClient ++ messages fd s.daemon m' }

/-- The daemon has handled the request `q`, and is now in `m'`. -/
def served (fd : Int) (q : RequestMsg) (m' : MmgrData) (s : Session) : Session :=
  { s.advance fd m' with
    accepted := if .ack ∈ messages fd s.daemon m' then (q.call, q.request) :: s.accepted
      else s.accepted }

end Session

/-- What makes a session go on. -/
inductive SessionInput
  /-- A thread calls `send_msg`. -/
  | start (method : SendMethod) (request : Request) (ts : ℕ) (data : Bytes)
  /-- A call writes its request. -/
  | write (call : ℕ)
  /-- A call is woken up by the reader thread, or for no reason. -/
  | wake (call : ℕ)
  /-- A call reads the socket, or fails to. -/
  | receive (call : ℕ) (ok : Bool)
  /-- A call looks at the answer; `retry` says whether there is time for another try. -/
  | check (call : ℕ) (retry : Bool)
  /-- A call cannot write its request, or its time is over. -/
  | giveUp (call : ℕ)
  /-- `mmgr_cli_connect` creates the reader thread. -/
  | createReader
  /-- The reader thread reads a message. -/
  | read
  /-- The reader thread dispatches it. -/
  | dispatch
  /-- The daemon handles the next request of the client. -/
  | serve (env : Env)
  /-- The daemon does anything else. -/
  | daemon (x : Input)

/-- One step of the session of the client behind `fd`. A call uses the reader thread if there is
one, apart from the acknowledgements that this thread makes itself. -/
def sessionStep (fd : Int) (s : Session) : SessionInput → Option Session
  | .start method request ts data =>
    if (method = .threaded ↔ s.reader = true) ∨ request.isAcknowledgement = true then
      some (s.start method request ts data) else none
  | .write call => (s.callIn call .writing).map fun c => s.write c
  | .wake call => (s.callIn call .waiting).bind fun c =>
    if c.method = .threaded then some (s.setPhase call .answered) else none
  | .receive call ok => (s.callIn call .waiting).bind fun c =>
    if c.method = .threaded then none
    else if ok then
      match s.toClient with
      | [] => none
      | ev :: rest =>
        some ({ s with toClient := rest, ack := ev.toId }.setPhase call .answered)
    else some (s.setPhase call .answered)
  | .check call retry => (s.callIn call .answered).map fun c => s.check c retry
  | .giveUp call =>
    if (s.callIn call .writing).isSome || (s.callIn call .waiting).isSome then
      some (s.finish call) else none
  | .createReader =>
    if s.reader = false ∧ s.calls = [] then some { s with reader := true } else none
  | .read =>
    match s.reader, s.handling, s.toClient with
    | true, none, ev :: rest => some { s with toClient := rest, handling := some ev }
    | _, _, _ => none
  | .dispatch => s.handling.map fun ev => s.dispatch ev
  | .serve env =>
    match s.toDaemon with
    | [] => none
    | q :: rest =>
      if (s.daemon.clients.find fd).isSome then
        (step s.daemon (.event env (.client fd (.request q.request.toId q.ts q.data)))).map
          fun m' => { s.served fd q m' with toDaemon := rest }
      else none
  | .daemon x =>
    if x.sender = some fd then none else (step s.daemon x).map fun m' => s.advance fd m'

/-! ## The condition -/

/-- No answer to an earlier call can come any more: every call has returned, every request has been
handled by the daemon, and no `ACK` is left unread. Acknowledgements do not count, since they are
not answered with `ACK`. -/
def Session.settled (s : Session) : Bool :=
  s.calls.all (·.request.isAcknowledgement) && s.toDaemon.all (·.request.isAcknowledgement) &&
    !s.toClient.contains .ack && s.handling != some .ack

/-- A call starts only when the session is settled. -/
def Session.orderly (s : Session) : SessionInput → Bool
  | .start _ request _ _ => request.isAcknowledgement || s.settled
  | _ => true

/-! ## The invariant -/

section Invariant

variable {fd : Int} {t : ℕ} {r : Request} {s : Session} {m' : MmgrData}

/-- The request `r` of the call `t` has been accepted, and the client holds the resource if `r`
asks for it. -/
structure Granted (fd : Int) (t : ℕ) (r : Request) (accepted : List (ℕ × Request))
    (daemon : MmgrData) : Prop where
  accepted : (t, r) ∈ accepted
  holds : r = .resourceAcquire → daemon.clients.holds fd = true

/-- Only the call `t` with its request `r` is under way, and wherever the client may see an `ACK`,
this request has been accepted. -/
structure Agreed (fd : Int) (t : ℕ) (r : Request) (s : Session) : Prop where
  offHandled : OffHandled s.daemon
  calls : ∀ c ∈ s.calls, c.request.isAcknowledgement = false → c.call = t ∧ c.request = r
  toDaemon : ∀ q ∈ s.toDaemon, q.request.isAcknowledgement = false → q.call = t ∧ q.request = r
  toClient : .ack ∈ s.toClient → Granted fd t r s.accepted s.daemon
  handling : s.handling = some .ack → Granted fd t r s.accepted s.daemon
  ack : s.ack = Event.ack.toId → Granted fd t r s.accepted s.daemon
  succeeded : ∀ p ∈ s.succeeded, p.2.isAcknowledgement = false → p ∈ s.accepted
  locked : s.locked = true → r ≠ .resourceRelease ∧ s.daemon.clients.holds fd = true

/-- The messages sent to a client contain `ACK` only if the step accepts a request of it. -/
theorem ack_mem_messages {x : Input} {m : MmgrData} (h : Answers fd x m.log m')
    (hmem : .ack ∈ Session.messages fd m m') : Accepts fd x m' := by
  obtain ⟨new, hlog, hall⟩ := h
  have htake : m'.log.take (m'.log.length - m.log.length) = new := by
    simp [hlog]
  rw [Session.messages, htake, mem_filterMap] at hmem
  obtain ⟨o, ho, hsent⟩ := hmem
  refine hall o (mem_reverse.mp ho) ?_
  cases o with
  | sent fd' answering ev data st =>
    simp only [ite_none_right_eq_some, some.injEq] at hsent
    simp [Obs.acks, hsent]
  | _ => simp at hsent

/-- `ACK` has a number of its own. -/
theorem Event.eq_ack_of_toId {ev : Event} (h : ev.toId = Event.ack.toId) : ev = .ack := by
  cases ev <;> first | rfl | exact absurd h (by decide)

/-- A call found by its number is one of the calls. -/
theorem Session.mem_of_callIn {c : SendCall} {call : ℕ} {phase : SendPhase}
    (h : s.callIn call phase = some c) : c ∈ s.calls :=
  mem_of_find?_eq_some h

end Invariant

namespace Agreed

variable {fd : Int} {t : ℕ} {r : Request} {s : Session} {m' : MmgrData}

section

variable (h : Agreed fd t r s)
include h

/-- Calls may change their phase and return. -/
theorem mono_calls {calls : List SendCall}
    (hcalls : ∀ c ∈ calls, ∃ d ∈ s.calls, c.toRequestMsg = d.toRequestMsg) :
    Agreed fd t r { s with calls := calls } := by
  refine { h with calls := ?_ }
  intro c hc hreq
  obtain ⟨d, hd, heq⟩ := hcalls c hc
  rw [heq] at hreq ⊢
  exact h.calls d hd hreq

theorem setPhase {call : ℕ} {phase : SendPhase} :
    Agreed fd t r (s.setPhase call phase) := by
  refine h.mono_calls fun c hc => ?_
  obtain ⟨d, hd, rfl⟩ := mem_map.mp hc
  refine ⟨d, hd, ?_⟩
  split <;> rfl

theorem finish {call : ℕ} : Agreed fd t r (s.finish call) :=
  h.mono_calls fun c hc => ⟨c, (mem_filter.mp hc).1, rfl⟩

/-- A call that succeeds has been accepted. -/
theorem succeed {c : SendCall} (hc : c ∈ s.calls)
    (hack : c.request.isAcknowledgement = false → Granted fd t r s.accepted s.daemon) :
    Agreed fd t r (s.succeed c) := by
  have hfinish : Agreed fd t r (s.finish c.call) := h.finish
  refine { h with calls := hfinish.calls, succeeded := ?_, locked := ?_ }
  · intro p hp hreq
    rcases mem_cons.mp hp with rfl | hp
    · obtain ⟨hcall, hrequest⟩ := h.calls c hc hreq
      rw [hcall, hrequest]
      exact (hack hreq).accepted
    · exact h.succeeded p hp hreq
  · intro hlocked
    rcases Bool.or_eq_true_iff.mp hlocked with hlocked | hacquire
    · exact h.locked hlocked
    · have hreq : c.request = .resourceAcquire := by simpa using hacquire
      have hnot : c.request.isAcknowledgement = false := by rw [hreq]; rfl
      have hr : r = .resourceAcquire := (h.calls c hc hnot).2.symm.trans hreq
      exact ⟨by rw [hr]; decide, (hack hnot).holds hr⟩

/-- A new call takes the place of the settled one. -/
theorem start {method : SendMethod} {request : Request} {ts : ℕ} {data : Bytes}
    (hok : request.isAcknowledgement = true ∨ s.settled = true) :
    ∃ t r, Agreed fd t r (s.start method request ts data) := by
  have hack : Event.all.length ≠ Event.ack.toId := by decide
  by_cases hreq : request.isAcknowledgement = true
  · -- an acknowledgement leaves the current call alone
    refine ⟨t, r, h.offHandled, ?_, h.toDaemon, h.toClient, h.handling,
      fun heq => absurd heq hack, h.succeeded, ?_⟩
    · intro c hc hnot
      rcases List.mem_cons.mp hc with rfl | hc
      · exact absurd hreq (by simp [hnot])
      · exact h.calls c hc hnot
    · exact fun hlocked => h.locked (Bool.and_eq_true_iff.mp hlocked).1
  · have hsettled := hok.resolve_left hreq
    simp only [Session.settled, Bool.and_eq_true, List.all_eq_true, Bool.not_eq_true',
      List.contains_eq_mem, decide_eq_false_iff_not, bne_iff_ne] at hsettled
    obtain ⟨⟨⟨hcalls, htoDaemon⟩, htoClient⟩, hhandling⟩ := hsettled
    refine ⟨s.next, request, h.offHandled, ?_, ?_, fun hmem => absurd hmem htoClient,
      fun hmem => absurd hmem hhandling, fun heq => absurd heq hack, h.succeeded, ?_⟩
    · intro c hc hnot
      rcases List.mem_cons.mp hc with rfl | hc
      · exact ⟨rfl, rfl⟩
      · exact absurd (hcalls c hc) (by simp [hnot])
    · intro q hq hnot
      exact absurd (htoDaemon q hq) (by simp [hnot])
    · intro hlocked
      obtain ⟨hlocked, hrelease⟩ := Bool.and_eq_true_iff.mp hlocked
      exact ⟨by simpa using hrelease, (h.locked hlocked).2⟩

/-- The request of a call is on its way. -/
theorem write {c : SendCall} (hc : c ∈ s.calls) :
    Agreed fd t r (s.write c) := by
  have hsent : Agreed fd t r { s with toDaemon := s.toDaemon ++ [c.toRequestMsg] } := by
    refine { h with toDaemon := ?_ }
    intro q hq hnot
    rcases mem_append.mp hq with hq | hq
    · exact h.toDaemon q hq hnot
    · obtain rfl := mem_singleton.mp hq
      exact h.calls c hc hnot
  unfold Session.write
  split
  · rename_i hreq
    exact hsent.succeed hc fun hnot => absurd hreq (by simp [hnot])
  · exact hsent.setPhase

theorem check {c : SendCall} {retry : Bool} (hc : c ∈ s.calls) :
    Agreed fd t r (s.check c retry) := by
  unfold Session.check
  split
  · rename_i hack
    exact h.succeed hc fun _ => h.ack hack
  · split
    · exact h.setPhase
    · exact h.finish

theorem dispatch {ev : Event} (hev : s.handling = some ev) :
    Agreed fd t r (s.dispatch ev) := by
  refine { h with handling := (fun hnone => nomatch hnone), ack := ?_ }
  intro hack
  simp only [Session.dispatch] at hack
  split at hack
  · rename_i hanswer
    rcases hanswer with rfl | rfl
    · exact h.handling hev
    · exact absurd hack (by decide)
  · exact h.ack hack

/-- A step of the daemon that accepts nothing of the client and leaves it the resource. -/
theorem advance (hoff : OffHandled m')
    (hholds : s.daemon.clients.holds fd = true → m'.clients.holds fd = true)
    (hack : .ack ∉ Session.messages fd s.daemon m') : Agreed fd t r (s.advance fd m') := by
  have hgranted : ∀ {p : Prop}, (p → Granted fd t r s.accepted s.daemon) →
      p → Granted fd t r s.accepted m' := by
    intro p hp hp'
    exact ⟨(hp hp').accepted, fun hr => hholds ((hp hp').holds hr)⟩
  refine ⟨hoff, h.calls, h.toDaemon, fun hmem => ?_, hgranted h.handling, hgranted h.ack,
    h.succeeded, fun hlocked => (h.locked hlocked).imp_right hholds⟩
  rcases mem_append.mp hmem with hmem | hmem
  · exact hgranted h.toClient hmem
  · exact absurd hmem hack

/-- The daemon handles a request of the client. -/
theorem served {q : RequestMsg} {env : Env} (hq : q ∈ s.toDaemon)
    (hstep : step s.daemon (.event env (.client fd (.request q.request.toId q.ts q.data))) =
      some m') :
    Agreed fd t r (s.served fd q m') := by
  set x : Input := .event env (.client fd (.request q.request.toId q.ts q.data)) with hx
  have hrequest : x.request = some q.request := Request.ofId_toId q.request
  have hattached : x.Attached fd := fun _ => by rw [hrequest]; rfl
  have hheld : r ≠ .resourceRelease → s.daemon.clients.holds fd = true →
      m'.clients.holds fd = true := by
    intro hr
    refine fun hhold => step_holds h.offHandled hattached (fun _ hrel => ?_) hhold hstep
    have hrel : q.request = .resourceRelease := some.inj (hrequest.symm.trans hrel)
    -- a release under way would be the request of the current call
    exact hr ((h.toDaemon q hq (by rw [hrel]; rfl)).2.symm.trans hrel)
  have hgranted : ∀ {p : Prop}, (p → Granted fd t r s.accepted s.daemon) →
      p → Granted fd t r (s.served fd q m').accepted m' := by
    intro p hp hp'
    refine ⟨?_, fun hr => hheld (by rw [hr]; decide) ((hp hp').holds hr)⟩
    simp only [Session.served]
    split
    · exact mem_cons_of_mem _ (hp hp').accepted
    · exact (hp hp').accepted
  have hnew : .ack ∈ Session.messages fd s.daemon m' →
      Granted fd t r (s.served fd q m').accepted m' := by
    intro hmem
    obtain ⟨-, req, hreq, hnot, hacquire⟩ :=
      ack_mem_messages (step_answers h.offHandled hattached hstep) hmem
    obtain rfl : req = q.request := some.inj (hreq.symm.trans hrequest)
    obtain ⟨rfl, rfl⟩ := h.toDaemon q hq hnot
    refine ⟨?_, hacquire⟩
    simp [Session.served, if_pos hmem]
  refine ⟨offHandled_step h.offHandled hstep, h.calls, h.toDaemon, fun hmem => ?_,
    hgranted h.handling, hgranted h.ack, fun p hp hreq => ?_, fun hlocked => ?_⟩
  · rcases mem_append.mp hmem with hmem | hmem
    · exact hgranted h.toClient hmem
    · exact hnew hmem
  · simp only [Session.served]
    split
    · exact mem_cons_of_mem _ (h.succeeded p hp hreq)
    · exact h.succeeded p hp hreq
  · obtain ⟨hr, hhold⟩ := h.locked hlocked
    exact ⟨hr, hheld hr hhold⟩

/-- What is on its way may be taken off. -/
theorem mono_toDaemon {l : List RequestMsg} (hl : l ⊆ s.toDaemon) :
    Agreed fd t r { s with toDaemon := l } :=
  { h with toDaemon := fun q hq => h.toDaemon q (hl hq) }

/-- Every orderly step keeps the agreement. -/
theorem step {x : SessionInput} {s' : Session} (hok : s.orderly x = true)
    (hstep : sessionStep fd s x = some s') : ∃ t r, Agreed fd t r s' := by
  cases x with
  | start method request ts data =>
    obtain ⟨-, hstep⟩ := ite_none_right_eq_some.mp hstep
    exact some.inj hstep ▸ h.start (Bool.or_eq_true_iff.mp hok)
  | write call =>
    obtain ⟨c, hc, rfl⟩ := map_eq_some_iff.mp hstep
    exact ⟨t, r, h.write (Session.mem_of_callIn hc)⟩
  | wake call =>
    obtain ⟨c, -, hrest⟩ := bind_eq_some_iff.mp hstep
    obtain ⟨-, hrest⟩ := ite_none_right_eq_some.mp hrest
    exact ⟨t, r, some.inj hrest ▸ h.setPhase⟩
  | receive call ok =>
    obtain ⟨c, -, hrest⟩ := bind_eq_some_iff.mp hstep
    split at hrest
    · simp at hrest
    split at hrest
    · split at hrest
      · simp at hrest
      · rename_i ev rest htoClient
        rw [some.injEq] at hrest
        have hread : Agreed fd t r { s with toClient := rest, ack := ev.toId } := by
          refine { h with toClient := fun hmem => ?_, ack := fun hack => ?_ }
          · exact h.toClient (by rw [htoClient]; exact mem_cons_of_mem _ hmem)
          · have hev : ev = .ack := Event.eq_ack_of_toId hack
            exact h.toClient (by rw [htoClient, hev]; exact mem_cons_self ..)
        exact ⟨t, r, hrest ▸ hread.setPhase⟩
    · rw [some.injEq] at hrest
      exact ⟨t, r, hrest ▸ h.setPhase⟩
  | check call retry =>
    obtain ⟨c, hc, rfl⟩ := map_eq_some_iff.mp hstep
    exact ⟨t, r, h.check (Session.mem_of_callIn hc)⟩
  | giveUp call =>
    obtain ⟨-, hstep⟩ := ite_none_right_eq_some.mp hstep
    exact ⟨t, r, some.inj hstep ▸ h.finish⟩
  | createReader =>
    obtain ⟨-, hstep⟩ := ite_none_right_eq_some.mp hstep
    exact ⟨t, r, some.inj hstep ▸ { h with }⟩
  | read =>
    simp only [sessionStep] at hstep
    split at hstep
    · rename_i ev rest _ _ htoClient
      rw [some.injEq] at hstep
      subst hstep
      refine ⟨t, r, { h with toClient := fun hmem => ?_, handling := fun hev => ?_ }⟩
      · exact h.toClient (by rw [htoClient]; exact mem_cons_of_mem _ hmem)
      · have hev : ev = .ack := some.inj hev
        exact h.toClient (by rw [htoClient, hev]; exact mem_cons_self ..)
    · simp at hstep
  | dispatch =>
    obtain ⟨ev, hev, rfl⟩ := map_eq_some_iff.mp hstep
    exact ⟨t, r, h.dispatch hev⟩
  | serve env =>
    simp only [sessionStep] at hstep
    split at hstep
    · simp at hstep
    · rename_i q rest htoDaemon
      obtain ⟨-, hstep⟩ := ite_none_right_eq_some.mp hstep
      obtain ⟨m', hm', rfl⟩ := map_eq_some_iff.mp hstep
      have hq : q ∈ s.toDaemon := by rw [htoDaemon]; exact mem_cons_self ..
      refine ⟨t, r, (h.served hq hm').mono_toDaemon ?_⟩
      intro q' hq'
      rw [Session.served, Session.advance, htoDaemon]
      exact mem_cons_of_mem _ hq'
  | daemon x =>
    obtain ⟨hsender, hstep⟩ := ite_none_left_eq_some.mp hstep
    obtain ⟨m', hm', rfl⟩ := map_eq_some_iff.mp hstep
    have hattached : x.Attached fd := fun hfd => absurd hfd hsender
    refine ⟨t, r, h.advance (offHandled_step h.offHandled hm') (fun hheld => ?_) fun hmem => ?_⟩
    · exact step_holds h.offHandled hattached (fun hfd => absurd hfd hsender) hheld hm'
    · exact hsender (ack_mem_messages (step_answers h.offHandled hattached hm') hmem).1

end

end Agreed

/-! ## Whole runs -/

/-- A new connection. -/
theorem agreed_fresh {fd : Int} {m : MmgrData} (hm : OffHandled m) :
    Agreed fd 0 .setName (Session.fresh m) := by
  have hack : (Session.fresh m).ack ≠ Event.ack.toId := by simp [Session.fresh]; decide
  exact ⟨hm, by simp [Session.fresh], by simp [Session.fresh], by simp [Session.fresh],
    by simp [Session.fresh], fun heq => absurd heq hack, by simp [Session.fresh],
    by simp [Session.fresh]⟩

/-- The library and the daemon agree: a request that has succeeded for the client has been accepted
by the daemon, and while the client has locked the modem the daemon takes it for a holder. -/
def Session.Agrees (fd : Int) (s : Session) : Prop :=
  (∀ p ∈ s.succeeded, p.2.isAcknowledgement = false → p ∈ s.accepted) ∧
    (s.locked = true → s.daemon.clients.holds fd = true)

/-- On every connection to a running daemon on which a call only starts when the answers to the
earlier ones are in, the library and the daemon agree. -/
theorem answers_agree {cfg : MmgrCfg} {time reboot : Int} {telephonyDisabled : Bool}
    {m : MmgrData} {fd : Int} {s : Session}
    (hdaemon : Reach step (fun _ _ => True) (mmgrInit cfg time reboot telephonyDisabled) m)
    (hrun : Reach (sessionStep fd) (fun s x => s.orderly x = true) (Session.fresh m) s) :
    s.Agrees fd := by
  have hoff : OffHandled m :=
    hdaemon.invariant offHandled_mmgrInit fun _ _ _ ha _ hstep => offHandled_step ha hstep
  obtain ⟨t, r, hagreed⟩ : ∃ t r, Agreed fd t r s :=
    hrun.invariant (I := fun s => ∃ t r, Agreed fd t r s) ⟨0, .setName, agreed_fresh hoff⟩
      fun _ _ _ ⟨_, _, ha⟩ hok hstep => ha.step hok hstep
  exact ⟨hagreed.succeeded, fun hlocked => (hagreed.locked hlocked).2⟩

/-- A call that reads its answer itself. -/
def singleCall (call : ℕ) (request : Request) (data : Bytes) : List SessionInput :=
  [.start .single request 1000 data, .write call, .daemon (.head (calmEnv 4)),
    .serve (calmEnv 4), .receive call true, .check call true]

/-- The client behind 8 starts the modem, then the client behind 7 connects and registers. -/
def secondClient : List SessionInput :=
  (registration 1 8 0xffff ++ iteration 2 (requestEvent 8 2) ++ iteration 3 ipcReadyEvent ++
      iteration 4 (.newClient 7)).map .daemon ++
    singleCall 0 .setName (bytes "A") ++ singleCall 1 .setEvents (encodeWord 0xffff) ++
    [.createReader, .read, .dispatch]

/-- A thread calls `send_msg`, which writes the request. -/
def threadedCall (call : ℕ) (request : Request) : List SessionInput :=
  [.start .threaded request 1000 [], .write call]

/-- The daemon handles a request, and the reader thread takes its answer. -/
def handleRequest (sec : Int) : List SessionInput :=
  [.daemon (.head (calmEnv sec)), .serve (calmEnv sec), .read, .dispatch]

/-- A run in which the modem is locked. -/
theorem answers_agree_run :
    ∃ s, Reach (sessionStep 7) (fun s x => s.orderly x = true)
        (Session.fresh (mmgrInit hsiPlatform 0 0 false)) s ∧
      s.locked = true ∧ (2, .resourceAcquire) ∈ s.succeeded ∧ s.Agrees 7 :=
  Reach.exists_of_decide (fun s hrun (h : s.locked = true ∧ (2, .resourceAcquire) ∈ s.succeeded) =>
      ⟨h.1, h.2, answers_agree .refl hrun⟩)
    (secondClient ++ threadedCall 2 .resourceAcquire ++ handleRequest 5 ++
      [.wake 2, .check 2 true]) (by simp only [secondClient, registration_eq, bytes_A]; decide)

/-- A recovery is asked for, and its time is over before the daemon has handled it. Its answer is
then taken for the answer to `mmgr_cli_lock`, which succeeds although the daemon has not yet seen
its request and the client has not got the resource. -/
theorem lock_without_resource :
    ∃ s, Reach (sessionStep 7) (fun _ _ => True)
        (Session.fresh (mmgrInit hsiPlatform 0 0 false)) s ∧
      (3, .resourceAcquire) ∈ s.succeeded ∧ (3, .resourceAcquire) ∉ s.accepted ∧
      s.locked = true ∧ s.daemon.clients.holds 7 = false ∧ ¬ s.Agrees 7 :=
  Reach.exists_of_decide (fun s _ (h : (3, .resourceAcquire) ∈ s.succeeded ∧
      (3, .resourceAcquire) ∉ s.accepted ∧ s.locked = true ∧ s.daemon.clients.holds 7 = false) =>
    ⟨h.1, h.2.1, h.2.2.1, h.2.2.2, fun hagrees => h.2.1 (hagrees.1 _ h.1 rfl)⟩)
    (secondClient ++ threadedCall 2 .requestModemRecovery ++
      [.giveUp 2] ++ threadedCall 3 .resourceAcquire ++ handleRequest 30 ++
      [.wake 3, .check 3 true]) (by simp only [secondClient, registration_eq, bytes_A]; decide)

end HardwareIntel.Mmgr
