import HardwareIntel.Mmgr.EventsManager

/-!
# What the handlers leave alone

`Frame ok m m'` says that from `m` to `m'` the clients and the configuration are unchanged, no
shutdown is newly asked for, only entries allowed by `ok` are added to the history, and the state
is unchanged or set to one that `ok` allows. `Quiet` is the frame of the routine handlers: they
enter none of the four states `mdmOos`, `waitColdAck`, `waitShtAck` and `mdmPrepareOff`, do not
announce a modem that is up, and do not move the escalation.
-/

namespace HardwareIntel.Mmgr

open List

/-! ## Frames -/

/-- Only entries allowed by `ok` are added, and the clients are left alone. -/
structure Frame (ok : Obs → Prop) (m m' : MmgrData) : Prop where
  /-- The configuration never changes. -/
  cfg : m'.cfg = m.cfg
  /-- The clients are left alone. -/
  clients : m'.clients = m.clients
  /-- No shutdown is newly asked for. -/
  off : m'.cliReq.off = true → m.cliReq.off = true
  /-- The state is unchanged or allowed. -/
  state : m'.state = m.state ∨ ok (.setState m'.state m.clients.hasResource)
  /-- The history grows by allowed entries. -/
  log : ∃ new, m'.log = new ++ m.log ∧ ∀ o ∈ new, ok o

namespace Frame

variable {ok ok' : Obs → Prop} {m m' m'' : MmgrData}

/-- A change of what the frame does not mention. -/
theorem same (hcfg : m'.cfg = m.cfg) (hclients : m'.clients = m.clients)
    (hoff : m'.cliReq.off = true → m.cliReq.off = true) (hstate : m'.state = m.state)
    (hlog : m'.log = m.log) : Frame ok m m' :=
  ⟨hcfg, hclients, hoff, Or.inl hstate, [], by simpa using hlog, by simp⟩

/-- Nothing changes. -/
theorem refl : Frame ok m m := same rfl rfl id rfl rfl

/-- Frames compose. -/
theorem trans (h : Frame ok m m') (h' : Frame ok m' m'') : Frame ok m m'' := by
  refine ⟨h'.cfg.trans h.cfg, h'.clients.trans h.clients, fun hoff => h.off (h'.off hoff), ?_, ?_⟩
  · rcases h'.state with hsame | hok
    · rw [hsame]
      exact h.state
    · rw [h.clients] at hok
      exact Or.inr hok
  · obtain ⟨new, hnew, hok⟩ := h.log
    obtain ⟨new', hnew', hok'⟩ := h'.log
    refine ⟨new' ++ new, by rw [hnew', hnew, append_assoc], fun o ho => ?_⟩
    rcases mem_append.mp ho with ho | ho
    · exact hok' o ho
    · exact hok o ho

/-- Allowing more entries. -/
theorem mono (hok : ∀ o, ok o → ok' o) (h : Frame ok m m') : Frame ok' m m' := by
  obtain ⟨new, hnew, hall⟩ := h.log
  exact ⟨h.cfg, h.clients, h.off, h.state.imp_right (hok _), new, hnew,
    fun o ho => hok o (hall o ho)⟩

/-- Both branches of a test. -/
theorem ite {c : Prop} [Decidable c] (hpos : c → Frame ok m m') (hneg : ¬ c → Frame ok m m'') :
    Frame ok m (if c then m' else m'') := by
  split
  · exact hpos ‹_›
  · exact hneg ‹_›

end Frame

/-! ## Frames of the operations -/

section Operations

variable {ok : Obs → Prop} {m : MmgrData}

/-- Setting an allowed state. -/
theorem frame_setMmgrState {st : MmgrState} (h : ok (.setState st m.clients.hasResource)) :
    Frame ok m (setMmgrState st m) :=
  ⟨rfl, rfl, id, Or.inr h, [_], rfl, by simpa using h⟩

/-- Adding an allowed entry. -/
theorem frame_observe {o : Obs} (h : ok o) : Frame ok m (observe o m) :=
  ⟨rfl, rfl, id, Or.inl rfl, [o], rfl, by simpa using h⟩

/-- The descriptor belongs to the client of the current request. -/
def MmgrData.requester (m : MmgrData) (fd : Int) : Prop :=
  ∃ c, m.clients.get? m.request.client = some c ∧ c.fd = fd

/-- Sending an allowed event to the client of the request. -/
theorem frame_clientInform {ev : Event}
    (h : ∀ fd, m.requester fd → ok (.sent fd (some m.request.id) ev .null m.state)) :
    Frame ok m (clientInform ev m) := by
  refine ⟨rfl, rfl, id, Or.inl rfl, _, rfl, fun o ho => ?_⟩
  cases hc : m.clients.get? m.request.client with
  | none => simp [hc] at ho
  | some c =>
    rw [hc, Option.elim_some, messageTo] at ho
    split at ho
    · rw [mem_singleton.mp ho]
      exact h _ ⟨c, hc, rfl⟩
    · simp at ho

/-- Sending an allowed event to all clients. -/
theorem frame_clientsInformAll {ev : Event} {data : EventData}
    (h : ∀ fd, ok (.sent fd none ev data m.state)) : Frame ok m (clientsInformAll ev data m) := by
  have hall : ∀ o ∈ messagesToAll ev data m, ok o := by
    intro o ho
    rw [messagesToAll, mem_reverse, mem_flatMap] at ho
    obtain ⟨c, -, hc⟩ := ho
    rw [messageTo] at hc
    split at hc
    · rw [mem_singleton.mp hc]
      exact h _
    · simp at hc
  refine ⟨rfl, rfl, id, Or.inl rfl, ?_⟩
  simp only [clientsInformAll]
  split
  · exact ⟨[], rfl, by simp⟩
  · exact ⟨_, rfl, hall⟩

end Operations

/-! ## Quiet changes -/

/-- The states entered by the routine handlers. -/
def MmgrState.routine : MmgrState → Bool
  | .mdmOos | .waitColdAck | .waitShtAck | .mdmPrepareOff => false
  | _ => true

/-- The entries added by the routine handlers, which send `ACK` only to the clients in `R`. -/
def Obs.routine (R : Int → Prop) : Obs → Prop
  | .setState st _ => st.routine = true
  | .sent fd _ ev _ _ => ev ≠ .eventModemUp ∧ (ev = .ack → R fd)
  | .request _ _ => True
  | _ => False

/-- No client. -/
def nobody : Int → Prop := fun _ => False

/-- The level of the escalation and what it depends on are the same. -/
structure ResetManagement.SameLevel (r r' : ResetManagement) : Prop where
  /-- The level. -/
  level : r'.level = r.level
  /-- The operations counted. -/
  counter : r'.counter = r.counter
  /-- What the levels allow. -/
  recov : r'.recov = r.recov
  /-- The platform reboots made. -/
  reboot : r'.reboot = r.reboot

/-- The change made by a routine handler that sends `ACK` only to the clients in `R`. -/
structure Quiet (R : Int → Prop) (m m' : MmgrData) : Prop extends Frame (Obs.routine R) m m' where
  /-- The escalation does not move. -/
  escalation : m.reset.SameLevel m'.reset

namespace Quiet

variable {R R' : Int → Prop} {m m' m'' : MmgrData}

/-- A change of what is not looked at. -/
theorem same (hcfg : m'.cfg = m.cfg) (hclients : m'.clients = m.clients)
    (hoff : m'.cliReq.off = true → m.cliReq.off = true) (hstate : m'.state = m.state)
    (hlog : m'.log = m.log) (hreset : m.reset.SameLevel m'.reset) : Quiet R m m' :=
  ⟨Frame.same hcfg hclients hoff hstate hlog, hreset⟩

/-- Nothing changes. -/
theorem refl : Quiet R m m := same rfl rfl id rfl rfl ⟨rfl, rfl, rfl, rfl⟩

/-- Quiet changes compose. -/
theorem trans (h : Quiet R m m') (h' : Quiet R m' m'') : Quiet R m m'' :=
  ⟨h.toFrame.trans h'.toFrame,
    h'.escalation.level.trans h.escalation.level, h'.escalation.counter.trans h.escalation.counter,
    h'.escalation.recov.trans h.escalation.recov, h'.escalation.reboot.trans h.escalation.reboot⟩

/-- Allowing more clients. -/
theorem mono (h : Quiet R m m') (hR : ∀ fd, R fd → R' fd) : Quiet R' m m' := by
  refine ⟨h.toFrame.mono fun o ho => ?_, h.escalation⟩
  cases o with
  | sent fd answering ev data st => exact ⟨ho.1, fun hack => hR fd (ho.2 hack)⟩
  | _ => exact ho

/-- Both branches of a test. -/
theorem ite {c : Prop} [Decidable c] (hpos : c → Quiet R m m') (hneg : ¬ c → Quiet R m m'') :
    Quiet R m (if c then m' else m'') := by
  split
  · exact hpos ‹_›
  · exact hneg ‹_›

/-- A quiet change enters none of the four special states. -/
theorem state_eq (h : Quiet R m m') {st : MmgrState} (hst : st.routine = false)
    (hm' : m'.state = st) : m.state = st := by
  rcases h.state with hsame | hroutine
  · rw [← hsame]
    exact hm'
  · rw [hm'] at hroutine
    exact absurd hroutine (by simp [Obs.routine, hst])

end Quiet

section QuietOperations

variable {R : Int → Prop} {m : MmgrData}

/-- Entering a routine state. -/
theorem quiet_setMmgrState {st : MmgrState} (h : st.routine = true) :
    Quiet R m (setMmgrState st m) :=
  ⟨frame_setMmgrState h, rfl, rfl, rfl, rfl⟩

/-- Answering a request. -/
theorem quiet_clientInform {ev : Event} (h : ev ≠ .eventModemUp)
    (hR : ev = .ack → ∀ fd, m.requester fd → R fd) : Quiet R m (clientInform ev m) :=
  ⟨frame_clientInform fun fd hfd => ⟨h, fun hack => hR hack fd hfd⟩, rfl, rfl, rfl, rfl⟩

/-- Sending an event other than modem up and `ACK` to all clients. -/
theorem quiet_clientsInformAll {ev : Event} {data : EventData}
    (h : ev ≠ .eventModemUp ∧ ev ≠ .ack) : Quiet R m (clientsInformAll ev data m) :=
  ⟨frame_clientsInformAll fun _ => ⟨h.1, fun hack => absurd hack h.2⟩, rfl, rfl, rfl, rfl⟩

/-- Sending a telephony event. -/
theorem quiet_informTft {type : EventType} {name : String} {log : Int32} {data : List Bytes} :
    Quiet R m (informTft type name log data m) :=
  quiet_clientsInformAll (by decide)

/-- Forcing the next recovery operation. -/
theorem quiet_recovForce {op : ForceOperation} : Quiet R m (recovForce op m) :=
  .same rfl rfl id rfl rfl ⟨rfl, rfl, rfl, rfl⟩

/-- Setting the state of the recovery operation. -/
theorem quiet_recovSetState {st : ResetOperationState} : Quiet R m (onReset (·.setState st) m) :=
  .same rfl rfl id rfl rfl ⟨rfl, rfl, rfl, rfl⟩

/-- Arming a timer. -/
theorem quiet_timerStart {env : Env} {type : TimerType} : Quiet R m (timerStart env type m) :=
  .same rfl rfl id rfl rfl ⟨rfl, rfl, rfl, rfl⟩

/-- Disarming a timer. -/
theorem quiet_timerStop {type : TimerType} : Quiet R m (timerStop type m) :=
  .same rfl rfl id rfl rfl ⟨rfl, rfl, rfl, rfl⟩

/-- Disarming every timer. -/
theorem quiet_timerStopAll : Quiet R m (timerStopAll m) :=
  .same rfl rfl id rfl rfl ⟨rfl, rfl, rfl, rfl⟩

/-- Changing the driver filter. -/
theorem quiet_mdmMcdRegister {events : List McdCtrlState} {overwrite : Bool} :
    Quiet R m (mdmMcdRegister events overwrite m) :=
  .same rfl rfl id rfl rfl ⟨rfl, rfl, rfl, rfl⟩

/-- Changing the driver filter. -/
theorem quiet_mdmMcdUnregister {event : McdCtrlState} : Quiet R m (mdmMcdUnregister event m) :=
  .same rfl rfl id rfl rfl ⟨rfl, rfl, rfl, rfl⟩

/-- Closing the descriptors. -/
theorem quiet_mdmCloseFds : Quiet R m (mdmCloseFds m) :=
  .same rfl rfl id rfl rfl ⟨rfl, rfl, rfl, rfl⟩

/-- Changing the link state. -/
theorem quiet_setLinkState {f : LinkState → LinkState} : Quiet R m (setLinkState f m) :=
  .same rfl rfl id rfl rfl ⟨rfl, rfl, rfl, rfl⟩

/-- Asking for anything but a shutdown. -/
theorem quiet_setCliReq {f : CliReq → CliReq} (h : ∀ r, (f r).off = true → r.off = true) :
    Quiet R m (setCliReq f m) :=
  .same rfl rfl (h _) rfl rfl ⟨rfl, rfl, rfl, rfl⟩

/-- Starting the core dump thread. -/
theorem quiet_mcdrStart : Quiet R m (mcdrStart m) :=
  .same rfl rfl id rfl rfl ⟨rfl, rfl, rfl, rfl⟩

/-- Joining the core dump thread. -/
theorem quiet_mcdrFinalize : Quiet R m (mcdrFinalize m) :=
  .same rfl rfl id rfl rfl ⟨rfl, rfl, rfl, rfl⟩

/-- Noting that a core dump has been retrieved or not. -/
theorem quiet_cdRetrieved {b : Bool} : Quiet R m { m with cdRetrieved := b } :=
  .same rfl rfl id rfl rfl ⟨rfl, rfl, rfl, rfl⟩

/-- Noting that the modem is on the bus or not. -/
theorem quiet_isMdmBbReady {b : Bool} : Quiet R m { m with isMdmBbReady := b } :=
  .same rfl rfl id rfl rfl ⟨rfl, rfl, rfl, rfl⟩

/-- Changing what the flashing module knows. -/
theorem quiet_flash {flash : MdmFlash} : Quiet R m { m with flash := flash } :=
  .same rfl rfl id rfl rfl ⟨rfl, rfl, rfl, rfl⟩

/-- Noting the current request. -/
theorem quiet_request {r : CurrentRequest} : Quiet R m { m with request := r } :=
  .same rfl rfl id rfl rfl ⟨rfl, rfl, rfl, rfl⟩

/-- Reading a request. -/
theorem quiet_received {i ts : ℕ} {c : Client} {req : Request} {data : Bytes} :
    Quiet R m (received i c req ts data m) :=
  ⟨⟨rfl, rfl, id, Or.inl rfl, [.request c.fd req], rfl, by simp [Obs.routine]⟩,
    rfl, rfl, rfl, rfl⟩

end QuietOperations

end HardwareIntel.Mmgr
