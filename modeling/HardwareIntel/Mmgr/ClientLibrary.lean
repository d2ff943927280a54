import HardwareIntel.Mmgr.EventsManager
import HardwareIntel.Mmgr.Framing

/-!
# Delivery of the events by the client library

The threads of `libclients/c/utils.c` and `interface.c` that read the socket of a client, as a
state machine: the registration made by `mmgr_cli_connect`, the reader thread, and the
reconnection after the daemon has closed the connection, with the resource acquired again when it
was held. The messages come whole (see `handleCnxEvent_of_whole`); which one comes next is part of
the input, so that the runs cover every sequence the daemon may send.

There are two readers of the socket. The reader thread passes what it reads to
`call_cli_callback`, while `send_msg` with `E_SEND_SINGLE` only keeps the number of the message as
the answer to its request. `events_delivered` says that no event is lost as long as no wanted
event is read there; `event_lost_while_restoring` is a reconnection in which the state of the
modem, which the daemon reports after a registration, is lost that way.
-/

namespace HardwareIntel.Mmgr

open Option

/-! ## The context -/

/-- The states of a connection (`cnx_state_t`). -/
inductive CnxState
  | disconnected | reconnect | connected
  deriving DecidableEq

/-- The requests that the library makes on its own, with `E_SEND_SINGLE`. -/
inductive SingleRequest
  | setName | setEvents | resourceAcquire
  deriving DecidableEq

/-- Who makes them: `mmgr_cli_connect`, or `handle_disconnection`. The latter runs in the reader
thread, or in `mmgr_cli_connect` when its registration finds the connection closed; there is no
reader thread then. -/
inductive Connector
  | connect
  | reconnect (reader : Bool)
  deriving DecidableEq

/-- Where the library is. -/
inductive Phase
  /-- Nothing is read. -/
  | idle
  /-- `send_msg` has written its request and waits for an event on the socket. -/
  | sending (who : Connector) (req : SingleRequest)
  /-- `send_msg` has read, and is about to look at the answer. -/
  | answered (who : Connector) (req : SingleRequest)
  /-- `mmgr_cli_connect` has registered the client, and creates the reader thread. -/
  | registered
  /-- `handle_disconnection` sleeps before its next try to connect. -/
  | reopening (reader : Bool)
  /-- The reader thread waits for an event. -/
  | reading
  deriving DecidableEq

/-- A message taken from the socket; `wanted` says whether a callback was registered for it. -/
structure ReadMsg where
  content : ℕ × Bytes
  wanted : Bool

/-- A call of a callback, for a message or for an event that the library makes up. -/
structure Call where
  content : ℕ × Bytes
  fake : Bool

/-- The context of the library (`mmgr_lib_context_t`), with the history of what was read and of
the calls that were made. -/
structure LibContext where
  func : Event → Bool
  lock : Bool
  connected : CnxState
  ack : ℕ
  phase : Phase
  read : List ReadMsg
  calls : List Call

/-- The context made by `mmgr_cli_create_handle`. -/
def mmgrCliCreateHandle : LibContext where
  func := fun _ => false
  lock := false
  connected := .disconnected
  ack := Request.all.length
  phase := .idle
  read := []
  calls := []

/-- A message with this number is passed to a callback: it is an event other than an answer, and
its callback is registered. -/
def LibContext.wants (s : LibContext) (id : ℕ) : Bool :=
  match Event.ofId id with
  | none => false
  | some ev => ev ≠ .ack && ev ≠ .nack && s.func ev

/-- The messages read for which a callback was registered, in the order they were read. -/
def LibContext.wantedRead (s : LibContext) : List (ℕ × Bytes) :=
  (s.read.filter ReadMsg.wanted).map ReadMsg.content

/-- The messages passed to a callback, in the order of the calls. -/
def LibContext.delivered (s : LibContext) : List (ℕ × Bytes) :=
  (s.calls.filter fun c => !c.fake).map Call.content

/-! ## The steps -/

/-- The outcome of `read_msg`. -/
inductive ReadOutcome
  | msg (content : ℕ × Bytes)
  | closed
  | failed
  deriving DecidableEq

/-- What makes the library go on. -/
inductive LibInput
  /-- The user connects; `opened` says whether the socket could be opened. -/
  | connect (opened : Bool)
  /-- The socket is read by whoever waits for it. -/
  | receive (outcome : ReadOutcome)
  /-- The request cannot be written, or nothing comes before the timeout. -/
  | giveUp
  /-- `send_msg` looks at the answer; `retry` says whether there is time for another try. -/
  | check (retry : Bool)
  /-- The reader thread is created, or cannot be. -/
  | createThread (ok : Bool)
  /-- Another try to connect. -/
  | reopen (opened : Bool)
  /-- The user disconnects: the reader thread finds the pipe readable. -/
  | stop
  /-- Another `send_msg` starts: one of the user, or the acknowledgement of a callback. It does
  not read the socket. -/
  | otherSend
  /-- `mmgr_cli_lock` or `mmgr_cli_unlock` has succeeded. -/
  | setLock (lock : Bool)
  /-- `mmgr_cli_subscribe_event`. -/
  | subscribe (ev : Event)
  /-- `mmgr_cli_unsubscribe_event`. -/
  | unsubscribe (ev : Event)
  deriving DecidableEq

/-- `set_ack (E_MMGR_NUM_EVENTS)` at the start of `send_msg`. -/
def clearAck (s : LibContext) : LibContext := { s with ack := Event.all.length }

/-- The start of `send_msg` for a request of the library. -/
def startSend (who : Connector) (req : SingleRequest) (s : LibContext) : LibContext :=
  { clearAck s with phase := .sending who req }

/-- `read_msg` has returned a message. -/
def noteRead (content : ℕ × Bytes) (s : LibContext) : LibContext :=
  { s with read := s.read ++ [⟨content, s.wants content.1⟩] }

/-- Call the callback of an event. -/
def callFunc (content : ℕ × Bytes) (fake : Bool) (s : LibContext) : LibContext :=
  { s with calls := s.calls ++ [⟨content, fake⟩] }

/-- Notify an event that the daemon has not sent. -/
def fakeEvent (ev : Event) (s : LibContext) : LibContext :=
  if s.func ev then callFunc (ev.toId, []) true s else s

/-- `handle_disconnection`, up to the first try to connect again. -/
def handleDisconnection (reader : Bool) (s : LibContext) : LibContext :=
  if s.connected = .reconnect then
    { fakeEvent .notifyModemColdReset (fakeEvent .eventModemDown s) with
      connected := .disconnected
      phase := .reopening reader }
  else { s with connected := .disconnected, phase := .idle }

/-- The end of a reconnection. -/
def finishReconnection (reader : Bool) (s : LibContext) : LibContext :=
  { s with connected := .connected, phase := if reader then .reading else .idle }

/-- `cli_connect`: the client registers once the socket is open. -/
def cliConnect (who : Connector) (s : LibContext) : LibContext := startSend who .setName s

/-- `cli_connect` has failed. -/
def cliConnectFailed (who : Connector) (s : LibContext) : LibContext :=
  match who with
  | .connect => handleDisconnection false s
  | .reconnect reader => { s with phase := .reopening reader }

/-- `cli_connect` has succeeded. -/
def cliConnectSucceeded (who : Connector) (s : LibContext) : LibContext :=
  match who with
  | .connect => { s with phase := .registered }
  | .reconnect reader =>
    if s.lock then startSend who .resourceAcquire s else finishReconnection reader s

/-- `send_msg` has failed. The resource is asked for again until it is given. -/
def sendFailed (who : Connector) (req : SingleRequest) (s : LibContext) : LibContext :=
  match req with
  | .setName | .setEvents => cliConnectFailed who s
  | .resourceAcquire => startSend who .resourceAcquire s

/-- `send_msg` has succeeded. -/
def sendSucceeded (who : Connector) (req : SingleRequest) (s : LibContext) : LibContext :=
  match req with
  | .setName => startSend who .setEvents s
  | .setEvents => cliConnectSucceeded who s
  | .resourceAcquire => finishReconnection (who == .reconnect true) s

/-- `send_msg` reads the socket: only the number of the message is kept. -/
def receiveSingle (who : Connector) (req : SingleRequest) (outcome : ReadOutcome)
    (s : LibContext) : LibContext :=
  match outcome with
  | .msg content => { noteRead content s with ack := content.1, phase := .answered who req }
  | .closed => { s with connected := .reconnect, phase := .answered who req }
  | .failed => { s with phase := .answered who req }

/-- `call_cli_callback` for a message: an answer is kept, an event is passed to its callback, and
anything else ends the reader thread. -/
def dispatch (content : ℕ × Bytes) (s : LibContext) : LibContext :=
  if s.wants content.1 then callFunc content false s
  else if callCliCallback s.func content.1 = .succeed then { s with ack := content.1 }
  else { s with phase := .idle }

/-- `handle_cnx_event` in the reader thread. -/
def receiveThread (outcome : ReadOutcome) (s : LibContext) : LibContext :=
  match outcome with
  | .msg content => dispatch content (noteRead content s)
  | .closed => handleDisconnection true { s with connected := .reconnect }
  | .failed => { s with phase := .idle }

/-- One step of the library. -/
def libStep (s : LibContext) (x : LibInput) : Option LibContext :=
  match x, s.phase with
  | .connect opened, .idle =>
    if s.connected = .connected then none
    else some (if opened then cliConnect .connect s else cliConnectFailed .connect s)
  | .receive outcome, .sending who req => some (receiveSingle who req outcome s)
  | .receive outcome, .reading => some (receiveThread outcome s)
  | .giveUp, .sending who req => some (sendFailed who req s)
  | .check retry, .answered who req =>
    if s.ack = Event.ack.toId then some (sendSucceeded who req s)
    else if retry then some { s with phase := .sending who req }
    else some (sendFailed who req s)
  | .createThread ok, .registered =>
    if ok then some { s with connected := .connected, phase := .reading }
    else some (handleDisconnection false s)
  | .reopen opened, .reopening reader =>
    some (if opened then cliConnect (.reconnect reader) s
      else cliConnectFailed (.reconnect reader) s)
  | .stop, .reading => some (handleDisconnection true s)
  | .otherSend, _ => some (clearAck s)
  | .setLock lock, _ => some { s with lock := lock }
  | .subscribe ev, _ =>
    if s.connected = .connected ∨ ev = .ack ∨ ev = .nack then none
    else some { s with func := Function.update s.func ev true }
  | .unsubscribe ev, _ =>
    if s.connected = .connected ∨ ev = .ack ∨ ev = .nack then none
    else some { s with func := Function.update s.func ev false }
  | _, _ => none

/-! ## What a step reads and calls -/

/-- The step neither reads a message nor calls a callback for one. -/
def SameHistory (s t : LibContext) : Prop :=
  t.read = s.read ∧ t.delivered = s.delivered

theorem SameHistory.refl (s : LibContext) : SameHistory s s := ⟨rfl, rfl⟩

theorem SameHistory.trans {s t u : LibContext} (hst : SameHistory s t) (htu : SameHistory t u) :
    SameHistory s u :=
  ⟨htu.1.trans hst.1, htu.2.trans hst.2⟩

theorem sameHistory_fakeEvent (ev : Event) (s : LibContext) : SameHistory s (fakeEvent ev s) := by
  unfold fakeEvent
  split
  · exact ⟨rfl, by simp [LibContext.delivered, callFunc]⟩
  · exact .refl s

theorem sameHistory_handleDisconnection (reader : Bool) (s : LibContext) :
    SameHistory s (handleDisconnection reader s) := by
  unfold handleDisconnection
  split
  · have hfake := (sameHistory_fakeEvent .eventModemDown s).trans
      (sameHistory_fakeEvent .notifyModemColdReset _)
    exact ⟨hfake.1, hfake.2⟩
  · exact ⟨rfl, rfl⟩

theorem sameHistory_cliConnectFailed (who : Connector) (s : LibContext) :
    SameHistory s (cliConnectFailed who s) := by
  cases who with
  | connect => exact sameHistory_handleDisconnection false s
  | reconnect reader => exact ⟨rfl, rfl⟩

theorem sameHistory_sendFailed (who : Connector) (req : SingleRequest) (s : LibContext) :
    SameHistory s (sendFailed who req s) := by
  cases req with
  | setName => exact sameHistory_cliConnectFailed who s
  | setEvents => exact sameHistory_cliConnectFailed who s
  | resourceAcquire => exact ⟨rfl, rfl⟩

theorem sameHistory_sendSucceeded (who : Connector) (req : SingleRequest) (s : LibContext) :
    SameHistory s (sendSucceeded who req s) := by
  cases req with
  | setName => exact ⟨rfl, rfl⟩
  | setEvents =>
    cases who with
    | connect => exact ⟨rfl, rfl⟩
    | reconnect reader =>
      simp only [sendSucceeded, cliConnectSucceeded]
      split <;> exact ⟨rfl, rfl⟩
  | resourceAcquire => exact ⟨rfl, rfl⟩

/-- The message that a step takes from the socket. -/
def LibInput.message : LibInput → Option (ℕ × Bytes)
  | .receive (.msg content) => some content
  | _ => none

/-- A step that reads no message leaves the history. -/
theorem sameHistory_libStep {s t : LibContext} {x : LibInput} (hx : x.message = none)
    (h : libStep s x = some t) : SameHistory s t := by
  unfold libStep at h
  split at h
  case h_1 =>
    split at h
    · simp at h
    · rw [some.injEq] at h
      subst h
      split
      · exact ⟨rfl, rfl⟩
      · exact sameHistory_cliConnectFailed .connect s
  case h_2 outcome who req _ =>
    rw [some.injEq] at h
    subst h
    match outcome, hx with
    | .closed, _ => exact ⟨rfl, rfl⟩
    | .failed, _ => exact ⟨rfl, rfl⟩
  case h_3 outcome _ =>
    rw [some.injEq] at h
    subst h
    match outcome, hx with
    | .closed, _ => exact sameHistory_handleDisconnection true { s with connected := .reconnect }
    | .failed, _ => exact ⟨rfl, rfl⟩
  case h_4 who req _ =>
    rw [some.injEq] at h
    exact h ▸ sameHistory_sendFailed who req s
  case h_5 retry who req _ =>
    split at h
    · rw [some.injEq] at h
      exact h ▸ sameHistory_sendSucceeded who req s
    · split at h
      · rw [some.injEq] at h
        exact h ▸ ⟨rfl, rfl⟩
      · rw [some.injEq] at h
        exact h ▸ sameHistory_sendFailed who req s
  case h_6 =>
    split at h
    · rw [some.injEq] at h
      exact h ▸ ⟨rfl, rfl⟩
    · rw [some.injEq] at h
      exact h ▸ sameHistory_handleDisconnection false s
  case h_7 opened reader _ =>
    rw [some.injEq] at h
    subst h
    split <;> exact ⟨rfl, rfl⟩
  case h_8 =>
    rw [some.injEq] at h
    exact h ▸ sameHistory_handleDisconnection true s
  case h_9 =>
    rw [some.injEq] at h
    exact h ▸ ⟨rfl, rfl⟩
  case h_10 =>
    rw [some.injEq] at h
    exact h ▸ ⟨rfl, rfl⟩
  case h_11 =>
    split at h
    · simp at h
    · rw [some.injEq] at h
      exact h ▸ ⟨rfl, rfl⟩
  case h_12 =>
    split at h
    · simp at h
    · rw [some.injEq] at h
      exact h ▸ ⟨rfl, rfl⟩
  case h_13 => simp at h

/-- A message read by the reader thread is passed to its callback, if there is one. -/
theorem receiveThread_history (content : ℕ × Bytes) (s : LibContext) :
    (receiveThread (.msg content) s).read = s.read ++ [⟨content, s.wants content.1⟩] ∧
      (receiveThread (.msg content) s).delivered =
        s.delivered ++ if s.wants content.1 then [content] else [] := by
  have hwants : (noteRead content s).wants content.1 = s.wants content.1 := rfl
  simp only [receiveThread, dispatch, hwants]
  split
  · simp [callFunc, noteRead, LibContext.delivered, *]
  · split <;> simp [noteRead, LibContext.delivered, *]

/-- A message read by `send_msg` is passed to nobody. -/
theorem receiveSingle_history (who : Connector) (req : SingleRequest) (content : ℕ × Bytes)
    (s : LibContext) :
    (receiveSingle who req (.msg content) s).read = s.read ++ [⟨content, s.wants content.1⟩] ∧
      (receiveSingle who req (.msg content) s).delivered = s.delivered :=
  ⟨rfl, rfl⟩

/-- A step that reads a message reads it in `send_msg` or in the reader thread. -/
theorem libStep_message {s t : LibContext} {x : LibInput} {content : ℕ × Bytes}
    (hx : x.message = some content) (h : libStep s x = some t) :
    (∃ who req, s.phase = .sending who req ∧ t = receiveSingle who req (.msg content) s) ∨
      (s.phase = .reading ∧ t = receiveThread (.msg content) s) := by
  match x, hx with
  | .receive (.msg _), rfl =>
    cases hphase : s.phase with
    | sending who req =>
      simp only [libStep, hphase, some.injEq] at h
      exact .inl ⟨who, req, rfl, h.symm⟩
    | reading =>
      simp only [libStep, hphase, some.injEq] at h
      exact .inr ⟨rfl, h.symm⟩
    | idle | answered | registered | reopening => simp [libStep, hphase] at h

/-! ## No event is lost, as long as none is read by `send_msg` -/

/-- Each wanted message that was read has been passed to its callback, once and in order. -/
def LosesNoEvent (s : LibContext) : Prop := s.delivered = s.wantedRead

/-- The step does not make `send_msg` read an event that has a callback. -/
def ReadsNoEventInSend (s : LibContext) (x : LibInput) : Prop :=
  ∀ who req content, s.phase = .sending who req → x.message = some content →
    s.wants content.1 = false

theorem wantedRead_of_read_append {s t : LibContext} {content : ℕ × Bytes}
    (h : t.read = s.read ++ [⟨content, s.wants content.1⟩]) :
    t.wantedRead = s.wantedRead ++ if s.wants content.1 then [content] else [] := by
  simp only [LibContext.wantedRead, h, List.filter_append, List.map_append]
  by_cases hw : s.wants content.1 = true
  · simp [hw]
  · simp [Bool.eq_false_iff.mpr hw]

theorem SameHistory.losesNoEvent {s t : LibContext} (hsame : SameHistory s t)
    (h : LosesNoEvent s) : LosesNoEvent t := by
  unfold LosesNoEvent LibContext.wantedRead
  rw [hsame.2, hsame.1]
  exact h

/-- One step loses no event when it meets the condition. -/
theorem LosesNoEvent.step {s t : LibContext} {x : LibInput} (h : LosesNoEvent s)
    (hcond : ReadsNoEventInSend s x) (hstep : libStep s x = some t) : LosesNoEvent t := by
  cases hx : x.message with
  | none => exact (sameHistory_libStep hx hstep).losesNoEvent h
  | some content =>
    unfold LosesNoEvent at h ⊢
    rcases libStep_message hx hstep with ⟨who, req, hphase, rfl⟩ | ⟨hphase, rfl⟩
    · -- nobody waits for the message that `send_msg` drops
      obtain ⟨hread, hdelivered⟩ := receiveSingle_history who req content s
      have hwants : s.wants content.1 = false := hcond who req content hphase hx
      rw [wantedRead_of_read_append hread, hdelivered, h, hwants]
      simp
    · obtain ⟨hread, hdelivered⟩ := receiveThread_history content s
      rw [wantedRead_of_read_append hread, hdelivered, h]

/-- In every run the messages passed to the callbacks are among the wanted ones, in order. -/
theorem delivered_sublist {C : LibContext → LibInput → Prop} {s : LibContext}
    (hrun : Reach libStep C mmgrCliCreateHandle s) : s.delivered.Sublist s.wantedRead := by
  refine hrun.invariant (I := fun s => s.delivered.Sublist s.wantedRead) List.Sublist.slnil ?_
  intro s x t h _ hstep
  cases hx : x.message with
  | none =>
    have hsame := sameHistory_libStep hx hstep
    rw [LibContext.wantedRead, hsame.1, hsame.2]
    exact h
  | some content =>
    rcases libStep_message hx hstep with ⟨who, req, -, rfl⟩ | ⟨-, rfl⟩
    · obtain ⟨hread, hdelivered⟩ := receiveSingle_history who req content s
      rw [wantedRead_of_read_append hread, hdelivered]
      exact h.trans (List.sublist_append_left ..)
    · obtain ⟨hread, hdelivered⟩ := receiveThread_history content s
      rw [wantedRead_of_read_append hread, hdelivered]
      exact h.append (List.Sublist.refl _)

/-- A step that does not meet the condition loses an event. -/
theorem not_losesNoEvent_of_step {C : LibContext → LibInput → Prop} {s t : LibContext}
    {x : LibInput} (hrun : Reach libStep C mmgrCliCreateHandle s)
    (hcond : ¬ ReadsNoEventInSend s x) (hstep : libStep s x = some t) : ¬ LosesNoEvent t := by
  unfold ReadsNoEventInSend at hcond
  push Not at hcond
  obtain ⟨who, req, content, hphase, hx, hwants⟩ := hcond
  have hwants' : s.wants content.1 = true := Bool.not_eq_false _ ▸ hwants
  rcases libStep_message hx hstep with ⟨who', req', -, rfl⟩ | ⟨hreading, -⟩
  · obtain ⟨hread, hdelivered⟩ := receiveSingle_history who' req' content s
    have hle : s.delivered.length ≤ s.wantedRead.length := (delivered_sublist hrun).length_le
    intro heq
    have hlen := congrArg List.length heq
    rw [hdelivered, wantedRead_of_read_append hread] at hlen
    simp only [hwants', if_true, List.length_append, List.length_singleton] at hlen
    omega
  · rw [hphase] at hreading
    exact absurd hreading (by simp)

/-- In every run in which `send_msg` reads no event that has a callback, every wanted message that
is read is passed to its callback exactly once, in order. -/
theorem events_delivered {s : LibContext}
    (hrun : Reach libStep ReadsNoEventInSend mmgrCliCreateHandle s) : LosesNoEvent s := by
  have hinit : LosesNoEvent mmgrCliCreateHandle := rfl
  exact hrun.invariant hinit fun _ _ _ h hcond hstep => h.step hcond hstep

/-- A test for `ReadsNoEventInSend`. -/
def readsNoEventInSend (s : LibContext) (x : LibInput) : Bool :=
  match s.phase, x.message with
  | .sending _ _, some content => !s.wants content.1
  | _, _ => true

/-- The socket gives an event without payload. -/
def receiveEvent (ev : Event) : LibInput := .receive (.msg (ev.toId, []))

/-- The two requests of a registration are acknowledged. -/
def registerClient : List LibInput :=
  [receiveEvent .ack, .check true, receiveEvent .ack, .check true]

/-- The user subscribes to the state of the modem and connects; the reader thread gets the state
that the daemon reports to a new client. -/
def firstConnection : List LibInput :=
  [.subscribe .eventModemDown, .subscribe .eventModemUp, .connect true] ++ registerClient ++
    [.createThread true, receiveEvent .eventModemDown]

/-- The daemon is restarted and the client registers again; the state of the modem comes when the
reader thread is back. -/
theorem events_delivered_run :
    ∃ s, Reach libStep ReadsNoEventInSend mmgrCliCreateHandle s ∧
      s.wantedRead = [(0, []), (0, []), (1, [])] ∧ LosesNoEvent s := by
  refine Reach.exists_of_check (fun s x (hx : readsNoEventInSend s x = true) => ?_)
    (fun s hrun (hread : s.wantedRead = [(0, []), (0, []), (1, [])]) =>
      ⟨hread, events_delivered hrun⟩)
    (firstConnection ++ [.receive .closed, .reopen true] ++ registerClient ++
      [receiveEvent .eventModemDown, receiveEvent .eventModemUp]) (by decide)
  intro who req content hphase hmessage
  simpa [readsNoEventInSend, hphase, hmessage] using hx

/-- The events sent to the client behind `fd`, oldest first. -/
def sentTo (fd : Int) (m : MmgrData) : List Event :=
  (m.log.filterMap fun
    | .sent fd' _ ev _ _ => if fd' = fd then some ev else none
    | _ => none).reverse

/-- A daemon that has just started acknowledges the registration of a client and then reports the
modem down. A client that held the resource when the daemon was restarted reads this report as the
answer to its request for the resource, and the callback is not called. -/
theorem event_lost_while_restoring :
    (exec step (fun _ _ => true) (mmgrInit hsiPlatform 0 0 false)
        (registration 1 7 0x303)).map (sentTo 7) = some [.ack, .ack, .eventModemDown] ∧
      ∃ s, Reach libStep (fun _ _ => True) mmgrCliCreateHandle s ∧
        s.wantedRead = [(0, []), (0, [])] ∧ s.delivered = [(0, [])] ∧ ¬ LosesNoEvent s := by
  refine ⟨by simp only [registration_eq]; decide, ?_⟩
  refine Reach.exists_of_decide (fun s _ (h : s.wantedRead = [(0, []), (0, [])] ∧
    s.delivered = [(0, [])]) => ⟨h.1, h.2, fun hkept => ?_⟩)
    (firstConnection ++ [.setLock true, .receive .closed, .reopen true] ++ registerClient ++
      [receiveEvent .eventModemDown]) (by decide)
  rw [LosesNoEvent, h.1, h.2] at hkept
  exact absurd hkept (by decide)

/-- The report of a restarted daemon is read while the resource is asked for again. -/
theorem not_losesNoEvent_while_restoring :
    ∃ s t, libStep s (receiveEvent .eventModemDown) = some t ∧ ¬ LosesNoEvent t := by
  obtain ⟨s, hrun, hs⟩ := @Reach.exists_of_exec _ _ libStep (fun _ _ => True) (fun _ _ => true)
    (fun s => !readsNoEventInSend s (receiveEvent .eventModemDown) &&
      (libStep s (receiveEvent .eventModemDown)).isSome) mmgrCliCreateHandle
    (fun _ _ _ => trivial)
    (firstConnection ++ [.setLock true, .receive .closed, .reopen true] ++ registerClient)
    (by decide)
  rw [Bool.and_eq_true, Bool.not_eq_true'] at hs
  obtain ⟨t, hstep⟩ := isSome_iff_exists.mp hs.2
  refine ⟨s, t, hstep, not_losesNoEvent_of_step hrun (fun hcond => ?_) hstep⟩
  have hreads := hs.1
  unfold readsNoEventInSend at hreads
  split at hreads
  · rename_i who req content hphase hmessage
    rw [hcond who req content hphase hmessage] at hreads
    exact absurd hreads (by decide)
  · exact absurd hreads (by decide)

end HardwareIntel.Mmgr
