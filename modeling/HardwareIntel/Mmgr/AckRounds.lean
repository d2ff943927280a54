import HardwareIntel.Mmgr.Requests

/-!
# The acknowledgements of a round are given in that round

Before a cold reset and before a shutdown the daemon asks its clients for an acknowledgement, and
goes on when every subscribed client has given it. The acknowledgements are flags of the clients.
They are cleared when a round is concluded, but not on every way out of a waiting state, so a flag
can survive into the next round. As long as no flag is left over when a round is opened, every
conclusion rests on acknowledgements of its own round.
-/

namespace HardwareIntel.Mmgr

open List

/-- The two rounds of acknowledgements. -/
inductive AckRound
  | cold
  | shutdown
  deriving DecidableEq

namespace AckRound

/-- The state in which the acknowledgements of the round are awaited. -/
def waitState : AckRound → MmgrState
  | .cold => .waitColdAck
  | .shutdown => .waitShtAck

/-- The flag of a client that has acknowledged. -/
def flag : AckRound → CnxRequest
  | .cold => .coldReset
  | .shutdown => .modemShutdown

/-- The event by which the clients are asked. -/
def event : AckRound → Event
  | .cold => .notifyModemColdReset
  | .shutdown => .notifyModemShutdown

/-- The request by which a client acknowledges. -/
def ackRequest : AckRound → Request
  | .cold => .ackModemColdReset
  | .shutdown => .ackModemShutdown

/-- The entry by which the daemon begins to wait. -/
def opens (r : AckRound) : Obs → Bool
  | .setState st _ => st == r.waitState
  | _ => false

/-- The client behind `fd` has acknowledged since the round was opened and since it connected. -/
def ackedBy (r : AckRound) (fd : Int) (log : List Obs) : Bool :=
  sinceLast (fun o => r.opens o || o == .connect fd) (fun o => o == .request fd r.ackRequest) log

/-- Each time the clients are found to agree, every subscribed client has acknowledged since the
round was opened. -/
def FreshAgreements (r : AckRound) (log : List Obs) : Prop :=
  ∀ fds old, .agreed r.event fds :: old <:+ log → ∀ fd ∈ fds, r.ackedBy fd old = true

/-- The entries that matter neither for the opening nor for the conclusion of the round. -/
def keeps (r : AckRound) : Obs → Bool
  | .setState st _ => st != r.waitState
  | .connect _ => false
  | .agreed ev _ => ev != r.event
  | _ => true

variable {r : AckRound} {new old : List Obs} {fd : Int}

/-- Entries that are no conclusion. -/
theorem FreshAgreements.append (h : r.FreshAgreements old)
    (hnew : ∀ o ∈ new, ∀ fds, o ≠ .agreed r.event fds) : r.FreshAgreements (new ++ old) := by
  induction new with
  | nil => exact h
  | cons o new ih =>
    have hrest := ih fun p hp => hnew p (mem_cons_of_mem _ hp)
    intro fds old' hsuffix
    rw [cons_append, suffix_cons_iff] at hsuffix
    rcases hsuffix with heq | hsuffix
    · have ho : o = .agreed r.event fds := (List.cons.inj heq).1.symm
      exact absurd ho (hnew o (mem_cons_self ..) fds)
    · exact hrest fds old' hsuffix

/-- A conclusion that rests on acknowledgements of the round. -/
theorem FreshAgreements.conclude (h : r.FreshAgreements old) {fds : List Int}
    (hfds : ∀ fd ∈ fds, r.ackedBy fd old = true) :
    r.FreshAgreements (.agreed r.event fds :: old) := by
  intro fds' old' hsuffix
  rw [suffix_cons_iff] at hsuffix
  rcases hsuffix with heq | hsuffix
  · obtain ⟨hhead, rfl⟩ := List.cons.inj heq
    obtain rfl : fds' = fds := by simpa using hhead
    exact hfds
  · exact h fds' old' hsuffix

/-- An acknowledgement stays one until the next round or the next connection. -/
theorem ackedBy_append (hnew : ∀ o ∈ new, r.keeps o = true) (h : r.ackedBy fd old = true) :
    r.ackedBy fd (new ++ old) = true := by
  refine sinceLast_append (fun o ho => ?_) h
  have hkeeps := hnew o ho
  cases o <;> simp_all [keeps, opens]

end AckRound

/-! ## The invariant -/

/-- While the round is open, the clients with the flag have acknowledged in it; and every
conclusion so far was fresh. -/
structure RoundFresh (r : AckRound) (m : MmgrData) : Prop where
  pending : m.state = r.waitState → ∀ c ∈ m.clients.list, c.isConnected = true →
    c.cnx r.flag = true → r.ackedBy c.fd m.log = true
  log : r.FreshAgreements m.log

namespace RoundFresh

variable {r : AckRound} {env : Env} {m m' : MmgrData} {f : Client → Client}

section

variable (h : RoundFresh r m)
include h

/-- A change that leaves the round alone keeps the invariant. -/
theorem frame (hframe : Frame (fun o => r.keeps o = true) m m') :
    RoundFresh r m' := by
  obtain ⟨new, hnew, hkeeps⟩ := hframe.log
  constructor
  · intro hst c hc hconn hflag
    have hsame : m'.state = m.state := by
      refine hframe.state.resolve_right fun hcon => ?_
      simp [AckRound.keeps, hst] at hcon
    rw [hframe.clients] at hc
    rw [hnew]
    exact AckRound.ackedBy_append hkeeps (h.pending (hsame ▸ hst) c hc hconn hflag)
  · rw [hnew]
    refine h.log.append fun o ho fds heq => ?_
    have hcon := hkeeps o ho
    simp [heq, AckRound.keeps] at hcon

/-- A quiet change keeps the invariant. -/
theorem quiet {R : Int → Prop} (hquiet : Quiet R m m') : RoundFresh r m' := by
  refine h.frame (hquiet.toFrame.mono fun o ho => ?_)
  cases r
  all_goals
    rcases o with ⟨st, _⟩ | _ | _ | _ | _ | _ | _ | _ | _
    · cases st <;> simp_all [Obs.routine, MmgrState.routine, AckRound.keeps, AckRound.waitState]
    all_goals first | rfl | simp [Obs.routine] at ho

/-- Sending events keeps the invariant. -/
theorem informAll {ev : Event} {data : EventData} :
    RoundFresh r (clientsInformAll ev data m) :=
  h.frame (frame_clientsInformAll fun _ => rfl)

/-- A round that is opened while no client has the flag, or that is not open afterwards. -/
theorem reopen
    (hfree : m'.state = r.waitState → ∀ c ∈ m'.clients.list, c.isConnected = true →
      c.cnx r.flag = false)
    (hlog : ∃ new, m'.log = new ++ m.log ∧ ∀ o ∈ new, ∀ fds, o ≠ .agreed r.event fds) :
    RoundFresh r m' := by
  obtain ⟨new, hnew, hagreed⟩ := hlog
  constructor
  · intro hst c hc hconn hflag
    rw [hfree hst c hc hconn] at hflag
    exact absurd hflag (by decide)
  · rw [hnew]
    exact h.log.append hagreed

/-- An update of a client that does not set the flag keeps the invariant. -/
theorem onClient (hfd : ∀ d, (f d).fd = d.fd)
    (hf : ∀ d, (f d).cnx r.flag = true → d.cnx r.flag = true) :
    RoundFresh r (onClient f m) := by
  refine ⟨fun hst => ?_, h.log⟩
  refine ClientList.forall_update (h.pending hst) fun d _ hd hconn hflag => ?_
  rw [Client.isConnected, hfd] at hconn
  rw [hfd]
  exact hd hconn (hf d hflag)

/-- The client whose acknowledgement has just been read gets the flag. -/
theorem acknowledge {c : Client} (hget : m.clients.get? m.request.client = some c)
    (hacked : r.ackedBy c.fd m.log = true) :
    RoundFresh r (acknowledged r.flag m) := by
  refine ⟨fun hst d hd hconn hflag => ?_, h.log⟩
  rcases ClientList.mem_update hd with hold | ⟨e, he, rfl⟩
  · exact h.pending hst d hold hconn hflag
  · obtain rfl : e = c := Option.some.inj (he.symm.trans hget)
    exact hacked

/-- When all subscribed clients have the flag, the conclusion is fresh. -/
theorem conclude (hst : m.state = r.waitState)
    (hall : m.clients.checkAllAck r.flag r.event = true) : RoundFresh r (concluded r.event m) := by
  have hacked : ∀ fd ∈ m.clients.subscribers r.event, r.ackedBy fd m.log = true := by
    intro fd hfd
    obtain ⟨c, hc, hconn, hsub, rfl⟩ := ClientList.mem_subscribers.mp hfd
    exact h.pending hst c hc hconn (ClientList.checkAllAck_iff.mp hall c hc hconn hsub)
  refine ⟨fun hst c hc hconn hflag => ?_, h.log.conclude hacked⟩
  have hpending := h.pending hst c hc hconn hflag
  simpa [concluded, observe, AckRound.ackedBy, sinceLast, AckRound.opens] using hpending

/-- A recovery keeps the invariant, if no client has the flag when it opens a round. -/
theorem reset (hst : m.state ≠ r.waitState)
    (hopen : r = .cold → OpensColdRound env m → ∀ c ∈ m.clients.list, c.isConnected = true →
      c.cnx r.flag = false)
    (heffect : ResetEffect env m m') : RoundFresh r m' := by
  obtain ⟨clients, -, hframe⟩ := heffect.frame
  refine h.reopen (fun hst' => ?_) ?_
  · cases r with
    | cold =>
      rcases heffect.waitColdAck hst' with hcon | ⟨hround, hclients⟩
      · exact absurd hcon hst
      · rw [hclients]
        exact hopen rfl hround
    | shutdown =>
      -- a recovery does not enter the other waiting state
      rcases hframe.state with hsame | hok
      · exact absurd (hsame.symm.trans hst') hst
      · rw [hst'] at hok
        exact absurd hok (by simp [Obs.ofReset, MmgrState.ofReset, AckRound.waitState])
  · obtain ⟨new, hnew, hok⟩ := hframe.log
    refine ⟨new, hnew, fun o ho fds heq => ?_⟩
    have hcon := hok o ho
    simp [heq, Obs.ofReset] at hcon

/-- Switching the modem on opens no round. -/
theorem wakeup (hst : m.state = .mdmOff) (hstep : resourceAcquireWakeupModem env m = some m') :
    RoundFresh r m' := by
  obtain ⟨a, ha, hcases⟩ := resourceAcquireWakeupModem_cases hstep
  have hflag : RoundFresh r (Mmgr.onClient (Client.unsetRequest .resourceReleased) m) :=
    h.onClient (fun _ => rfl) fun d hd => by
      rw [Client.unsetRequest_cnx, Bool.and_eq_true] at hd
      exact hd.2
  have hquiet := hflag.quiet ha
  rcases hcases with rfl | rfl | ⟨-, hoos, heffect⟩
  · exact hquiet
  · exact hquiet.frame (frame_wakeupModem (fun _ => by cases r <;> rfl)
      (fun _ => by cases r <;> rfl) rfl)
  · have hround : a.state ≠ r.waitState := by
      intro hcon
      have hroutine : r.waitState.routine = false := by cases r <;> rfl
      have hoff := ha.state_eq hroutine hcon
      rw [show (Mmgr.onClient _ m).state = m.state from rfl, hst] at hoff
      cases r <;> exact absurd hoff (by decide)
    refine hquiet.reset hround (fun _ hopen => ?_) heffect
    have hlevel := hopen.1
    rw [resetModemStart_level_of_oos hoos] at hlevel
    exact absurd hlevel (by decide)

/-- The configuration of the modem opens no round. -/
theorem configure (hstep : doConfigure env m = some m') : RoundFresh r m' := by
  rcases doConfigure_cases hstep with hquiet | ⟨a, ha, -, rfl⟩
  · exact h.quiet hquiet
  · exact (h.quiet ha).informAll.quiet (quiet_cdRetrieved (R := nobody))

/-- The flag of the round is not the one by which the resource is released. -/
theorem setReleased :
    RoundFresh r (Mmgr.onClient (Client.setRequest .resourceReleased) m) := by
  refine h.onClient (fun _ => rfl) fun d hd => ?_
  cases r <;> simpa [AckRound.flag] using hd

/-- Entering the round of a shutdown when no client has its flag. -/
theorem enterShutdown
    (hfree : ∀ c ∈ m.clients.list, c.isConnected = true → c.cnx .modemShutdown = false) :
    RoundFresh r (setMmgrState .waitShtAck m) := by
  refine h.reopen (fun hst => ?_) ⟨[_], rfl, by simp⟩
  cases r with
  | cold => exact absurd hst (by simp [setMmgrState, AckRound.waitState])
  | shutdown => exact hfree

/-- A release opens the round of a shutdown when it is the last one. -/
theorem release
    (hfree : m.cfg.dsda = false → (m.clients.update m.request.client
      (Client.setRequest .resourceReleased)).hasResource = false →
      ∀ c ∈ m.clients.list, c.isConnected = true → c.cnx .modemShutdown = false) :
    RoundFresh r (requestResourceRelease env m) := by
  rcases @requestResourceRelease_cases env m with hquiet | ⟨hlast, hdsda, a, ha, heq⟩
  · exact h.setReleased.quiet hquiet
  · rw [heq]
    refine (h.setReleased.quiet ha).enterShutdown ?_
    rw [ha.clients]
    refine ClientList.forall_update (hfree hdsda hlast) fun d _ hd hconn => ?_
    simpa using hd hconn

end

/-- An acknowledgement of one of the two rounds. -/
theorem ack (r' : AckRound) {c : Client} (h : RoundFresh r m)
    (hget : m.clients.get? m.request.client = some c)
    (hacked : r' = r → r.ackedBy c.fd m.log = true) : RoundFresh r (acknowledged r'.flag m) := by
  by_cases hr : r' = r
  · subst hr
    exact h.acknowledge hget (hacked rfl)
  · refine h.onClient (fun _ => rfl) fun d hd => ?_
    cases r <;> cases r' <;> first | exact absurd rfl hr | simpa [AckRound.flag] using hd

/-- The conclusion of one of the two rounds. -/
theorem ackConclude (r' : AckRound) (h : RoundFresh r m) (hst : m.state = r'.waitState)
    (hall : m.clients.checkAllAck r'.flag r'.event = true) :
    RoundFresh r (concluded r'.event m) := by
  by_cases hr : r' = r
  · subst hr
    exact h.conclude hst hall
  · refine h.frame (frame_observe ?_)
    cases r <;> cases r' <;> first | exact absurd rfl hr | rfl

/-- A request keeps the invariant, if the acknowledgement it gives has been read, and if no client
has the flag of a shutdown when it opens the round of one. -/
theorem request {req : Request} {c : Client} (h : RoundFresh r m)
    (hget : m.clients.get? m.request.client = some c)
    (hacked : req = r.ackRequest → r.ackedBy c.fd m.log = true)
    (hrelease : req = .resourceRelease → (m.state = .mdmUp ∨ m.state = .waitColdAck) →
      m.cfg.dsda = false →
      (m.clients.update m.request.client (Client.setRequest .resourceReleased)).hasResource = false →
      ∀ c ∈ m.clients.list, c.isConnected = true → c.cnx .modemShutdown = false)
    (hforce : req = .requestForceModemShutdown → m.state = .mdmUp →
      ∀ c ∈ m.clients.list, c.isConnected = true → c.cnx .modemShutdown = false)
    (heffect : HandlerEffect env m.state m req m') : RoundFresh r m' := by
  cases heffect with
  | quiet hquiet => exact h.quiet hquiet
  | setName hstep =>
    have hname : RoundFresh r (Mmgr.onClient (Client.setName m.request.data) m) := by
      refine h.onClient (fun _ => rfl) fun d hd => ?_
      cases r <;> simpa [AckRound.flag] using hd
    exact hname.quiet (quiet_requestSetName hstep)
  | setEvents =>
    rcases @requestSetEvents_cases m with hquiet | ⟨n, a, ha, -, heq⟩
    · exact h.quiet hquiet
    · have hfilter : RoundFresh r (Mmgr.onClient (Client.setFilter n) m) := by
        refine h.onClient (fun _ => rfl) fun d hd => ?_
        cases r <;> simpa [AckRound.flag] using hd
      rw [heq]
      exact (hfilter.quiet ha).frame (frame_clientInform fun _ _ => rfl)
  | wakeup hst hstep => exact h.wakeup hst hstep
  | acquire _ =>
    have hflag : RoundFresh r (Mmgr.onClient (Client.unsetRequest .resourceReleased) m) := by
      refine h.onClient (fun _ => rfl) fun d hd => ?_
      rw [Client.unsetRequest_cnx, Bool.and_eq_true] at hd
      exact hd.2
    exact hflag.quiet quiet_resourceAcquire
  | releaseOff _ => exact h.setReleased.quiet quiet_requestResourceReleaseMdmOff
  | release hst => exact h.release (hrelease rfl hst)
  | forceShutdown hst =>
    obtain ⟨a, ha, heq⟩ := @requestForceModemShutdown_cases env m
    rw [heq]
    refine (h.quiet ha).enterShutdown ?_
    rw [ha.clients]
    exact hforce rfl hst
  | ackCold hst =>
    have hflag : RoundFresh r (acknowledged .coldReset m) :=
      h.ack .cold hget fun hr => hacked (by rw [← hr]; rfl)
    rcases @requestAckColdReset_cases env m with heq | ⟨hall, -, hquiet⟩
    · rw [heq]
      exact hflag
    · have hconcluded : RoundFresh r (concluded .notifyModemColdReset
          (acknowledged .coldReset m)) := hflag.ackConclude .cold hst hall
      exact hconcluded.quiet hquiet
  | ackShutdown hst =>
    have hflag : RoundFresh r (acknowledged .modemShutdown m) :=
      h.ack .shutdown hget fun hr => hacked (by rw [← hr]; rfl)
    rcases @requestAckModemShutdown_cases m with heq | ⟨hall, -, hquiet⟩
    · rw [heq]
      exact hflag
    · have hconcluded : RoundFresh r (concluded .notifyModemShutdown
          (acknowledged .modemShutdown m)) := hflag.ackConclude .shutdown hst hall
      have hasked : RoundFresh r (setCliReq (fun _ => ⟨false, true, false⟩)
          (concluded .notifyModemShutdown (acknowledged .modemShutdown m))) :=
        ⟨hconcluded.pending, hconcluded.log⟩
      exact hasked.quiet hquiet
  | fakeUp _ => exact (h.quiet quiet_clientAck).informAll

/-- Forgetting acknowledgements keeps the invariant. -/
theorem resetAck (h : RoundFresh r m) {flag : CnxRequest} :
    RoundFresh r { m with clients := m.clients.resetAck flag } := by
  refine ⟨fun hst c hc hconn hflag => ?_, h.log⟩
  obtain ⟨d, hd, rfl⟩ := ClientList.mem_resetAck hc hconn
  rw [Client.unsetRequest_cnx, Bool.and_eq_true] at hflag
  exact h.pending hst d hd hconn hflag.2

/-- A new client has acknowledged nothing, and the others keep their descriptors. -/
theorem connect (h : RoundFresh r m) {fd : Int} {clients : ClientList}
    (hnew : ∀ c ∈ m.clients.list, c.fd ≠ fd) (hadd : m.clients.add fd = some clients) :
    RoundFresh r (observe (.connect fd) { m with clients := clients }) := by
  constructor
  · intro hst c hc hconn hflag
    rcases ClientList.mem_add hadd hc with hold | rfl
    · have hacked := h.pending hst c hold hconn hflag
      have hother : (Obs.connect fd == Obs.connect c.fd) = false := by
        simpa using (hnew c hold).symm
      simp only [observe, AckRound.ackedBy, sinceLast, AckRound.opens, hother] at hacked ⊢
      simp [hacked]
    · cases r <;> simp [AckRound.flag] at hflag
  · change r.FreshAgreements ([.connect fd] ++ m.log)
    exact h.log.append (by simp)

end RoundFresh

/-! ## Whole runs -/

/-- The message is a request `req` that is handled. -/
def ClientMsg.Asks (req : Request) (c : Client) : ClientMsg → Prop
  | .request id _ _ => Request.ofId id = some req ∧ c.isRegistered = true
  | _ => False

/-- The step opens a round of acknowledgements: the head of the loop asks for those of a cold
reset, and the last release, by a request or a disconnection, or a forced shutdown asks for those
of a shutdown. -/
def OpensRound : AckRound → MmgrData → Input → Prop
  | .cold, m, .head env => m.cliReq.off = false ∧ m.state = .mdmReset ∧ OpensColdRound env m
  | .shutdown, m, .event _ (.client fd msg) =>
    ∃ i c, m.clients.find fd = some i ∧ m.clients.get? i = some c ∧
      ((msg.Asks .resourceRelease c ∨ msg = .disconnected) ∧
          (m.state = .mdmUp ∨ m.state = .waitColdAck) ∧ m.cfg.dsda = false ∧
          (m.clients.update i (Client.setRequest .resourceReleased)).hasResource = false ∨
        msg.Asks .requestForceModemShutdown c ∧ m.state = .mdmUp)
  | _, _, _ => False

/-- When a round is opened, no connected client has the flag of an earlier one. -/
def NoLeftoverAck (m : MmgrData) (x : Input) : Prop :=
  ∀ r, OpensRound r m x → ∀ c ∈ m.clients.list, c.isConnected = true → c.cnx r.flag = false

/-- Every kind of step keeps the invariant of each round. -/
theorem stepRule_roundFresh (r : AckRound) :
    StepRule NoLeftoverAck (RoundFresh r) (RoundFresh r) where
  phase h := ⟨h.pending, h.log⟩
  quiet h _ hquiet := h.quiet hquiet
  configure h _ _ _ hquiet _ _ hstep := (h.quiet hquiet).configure hstep
  startShutdown {m env} h _ _ := by
    have hforget : RoundFresh r (setCliReq ({ · with off := false })
        { m with clients := clientsResetAckShtdwn m.clients }) :=
      ⟨h.resetAck.pending, h.log⟩
    unfold startShutdown
    dsimp only
    split
    · have htimer : ∀ a, Quiet nobody a (mdmStartShtdwn (timerStart env .fmmo a)) := fun a =>
        quiet_timerStart.trans quiet_mdmMcdRegister
      refine (hforget.quiet (htimer _)).frame (frame_setMmgrState ?_)
      cases r <;> rfl
    · exact hforget
  resetModem {m m' env} h hC hoff hst hstep := by
    have hreset : RoundFresh r m' := by
      refine h.reset ?_ ?_ (resetEffect_resetModem hstep)
      · rw [hst]
        cases r <;> decide
      · rintro rfl hopen
        exact hC .cold ⟨hoff, hst, hopen⟩
    exact ⟨hreset.pending, hreset.log⟩
  shutdownTimeout h _ _ _ hquiet := ⟨(h.quiet hquiet).pending, (h.quiet hquiet).log⟩
  connect h _ hnew hadd := h.connect hnew hadd
  request {m m' env fd i id ts data c req} h hC hoff hreq hfind hget hreg heffect := by
    have hreceived : RoundFresh r (received i c req ts data m) := h.quiet (quiet_received (R := nobody))
    refine hreceived.request hget ?_ ?_ ?_ heffect
    · rintro rfl
      simp [received, observe, AckRound.ackedBy, sinceLast]
    · rintro rfl hst hdsda hlast
      have hreg : c.isRegistered = true := by simpa using hreg
      exact hC .shutdown ⟨i, c, hfind, hget, Or.inl ⟨Or.inl ⟨hreq, hreg⟩, hst, hdsda, hlast⟩⟩
    · rintro rfl hst
      have hreg : c.isRegistered = true := by simpa using hreg
      exact hC .shutdown ⟨i, c, hfind, hget, Or.inr ⟨⟨hreq, hreg⟩, hst⟩⟩
  disconnect {m m' env fd i c} h hC hoff hfind hget heffect := by
    have hcurrent : RoundFresh r { m with request := ⟨i, .resourceRelease, 0, []⟩ } :=
      h.quiet (quiet_request (R := nobody))
    have hreleased : RoundFresh r m' := by
      refine hcurrent.request hget ?_ ?_ ?_ heffect
      · intro hreq
        cases r <;> exact absurd hreq (by decide)
      · intro _ hst hdsda hlast
        exact hC .shutdown ⟨i, c, hfind, hget, Or.inl ⟨Or.inr rfl, hst, hdsda, hlast⟩⟩
      · intro hreq
        exact absurd hreq (by decide)
    refine ⟨fun hst d hd hconn hflag => ?_, hreleased.log⟩
    exact hreleased.pending hst d (ClientList.mem_remove hd hconn) hconn hflag

/-- In every run in which no acknowledgement is left over when a round is opened, the clients are
only found to agree when every subscribed one has acknowledged in the current round. -/
theorem agreements_fresh {cfg : MmgrCfg} {time reboot : Int} {telephonyDisabled : Bool}
    {m : MmgrData}
    (hrun : Reach step NoLeftoverAck (mmgrInit cfg time reboot telephonyDisabled) m)
    (r : AckRound) : r.FreshAgreements m.log := by
  have hinit : RoundFresh r (mmgrInit cfg time reboot telephonyDisabled) := by
    constructor
    · intro hst
      cases r <;> cases telephonyDisabled <;> simp [mmgrInit, AckRound.waitState] at hst
    · intro fds old hsuffix
      simp [mmgrInit] at hsuffix
  exact ((stepRule_roundFresh r).reach hinit offHandled_mmgrInit hrun).log

/-- No client has the flag of a round that is not open: the condition holds then. -/
def noLeftoverAck (m : MmgrData) (_ : Input) : Bool :=
  m.clients.list.all fun c =>
    (m.state == .waitColdAck || !c.cnx .coldReset) &&
      (m.state == .waitShtAck || !c.cnx .modemShutdown)

/-- Two clients register, the first one starts the modem, and the modem gets up. -/
def twoClients : List Input :=
  registration 1 7 0xffff ++ registration 1 8 0xffff ++ iteration 2 (requestEvent 7 2) ++
    iteration 3 ipcReadyEvent

/-- A run in which both clients acknowledge a shutdown. -/
theorem agreements_fresh_run :
    ∃ m, Reach step NoLeftoverAck (mmgrInit hsiPlatform 0 0 false) m ∧
      .agreed .notifyModemShutdown [7, 8] ∈ m.log ∧ ∀ r : AckRound, r.FreshAgreements m.log := by
  refine Reach.exists_of_check (fun m x (hx : noLeftoverAck m x = true) => ?_)
    (fun m hrun (hlog : Obs.agreed .notifyModemShutdown [7, 8] ∈ m.log) =>
      ⟨hlog, agreements_fresh hrun⟩)
    (twoClients ++ iteration 4 (requestEvent 7 3) ++ iteration 4 (requestEvent 7 8) ++
      iteration 4 (requestEvent 8 8)) (by simp only [twoClients, registration_eq]; decide)
  intro r hopen c hc hconn
  have hflags := all_eq_true.mp hx c hc
  rw [Bool.and_eq_true, Bool.or_eq_true, Bool.or_eq_true] at hflags
  cases r with
  | cold =>
    cases x with
    | head env => simpa [hopen.2.1, AckRound.flag] using hflags.1
    | _ => exact hopen.elim
  | shutdown =>
    have hst : m.state ≠ .waitShtAck := by
      unfold OpensRound at hopen
      split at hopen
      · exact absurd ‹AckRound.shutdown = .cold› (by decide)
      · obtain ⟨i, c, -, -, ⟨-, hst | hst, -⟩ | ⟨-, hst⟩⟩ := hopen <;> simp [hst]
      · exact hopen.elim
    simpa [hst, AckRound.flag] using hflags.2

/-- Somewhere in the history the clients are found to agree without an acknowledgement of the
client behind `fd` in the round. -/
def AckRound.concludesWithout (r : AckRound) (fd : Int) : List Obs → Bool
  | [] => false
  | .agreed ev fds :: old =>
    ev == r.event && fds.contains fd && !r.ackedBy fd old || r.concludesWithout fd old
  | _ :: old => r.concludesWithout fd old

/-- Such a history has a conclusion that is not fresh. -/
theorem AckRound.not_freshAgreements {r : AckRound} {fd : Int} : ∀ {log : List Obs},
    r.concludesWithout fd log = true → ¬ r.FreshAgreements log := by
  intro log
  induction log with
  | nil => simp [concludesWithout]
  | cons o old ih =>
    intro h hfresh
    have hrest : r.concludesWithout fd old = false := Bool.eq_false_iff.mpr fun hold =>
      ih hold fun fds old' hsuffix => hfresh fds old' (hsuffix.trans (suffix_cons ..))
    cases o with
    | agreed ev fds =>
      simp only [concludesWithout, hrest, Bool.or_false, Bool.and_eq_true, beq_iff_eq,
        contains_iff_mem] at h
      obtain ⟨⟨rfl, hmem⟩, hacked⟩ := h
      have hcon := hfresh fds old (suffix_refl _) fd hmem
      simp [hcon] at hacked
    | _ => exact absurd h (by simp [concludesWithout, hrest])

/-- With an acknowledgement left over, both rounds can be concluded without one of the clients.
The cold reset of the first run is abandoned by a release, after which the modem is switched off
and on again; the shutdown of the second run is abandoned because the modem hangs up. -/
theorem agreements_not_fresh :
    (∃ m, Reach step (fun _ _ => True) (mmgrInit hsiPlatform 0 0 false) m ∧
      ¬ AckRound.cold.FreshAgreements m.log) ∧
    (∃ m, Reach step (fun _ _ => True) (mmgrInit hsiPlatform 0 0 false) m ∧
      ¬ AckRound.shutdown.FreshAgreements m.log) :=
  ⟨Reach.exists_of_decide (fun m _ (hlog : AckRound.cold.concludesWithout 7 m.log = true) =>
        AckRound.not_freshAgreements hlog) (twoClients ++ iteration 4 (requestEvent 7 4) ++
        iteration 4 (requestEvent 7 7) ++ iteration 5 (requestEvent 7 3) ++
        iteration 5 (requestEvent 7 8) ++ iteration 5 (requestEvent 8 8) ++ iteration 6 .ipc ++
        iteration 7 (requestEvent 7 2) ++ iteration 8 ipcReadyEvent ++
        iteration 9 (requestEvent 7 4) ++ iteration 9 (requestEvent 8 7))
      (by simp only [twoClients, registration_eq]; decide),
    Reach.exists_of_decide (fun m _ (hlog : AckRound.shutdown.concludesWithout 7 m.log = true) =>
        AckRound.not_freshAgreements hlog)
      (twoClients ++ iteration 4 (requestEvent 7 3) ++
        iteration 4 (requestEvent 7 8) ++ iteration 4 .ipc ++ iteration 5 (requestEvent 7 7) ++
        iteration 5 (requestEvent 8 7) ++ iteration 6 (requestEvent 7 2) ++
        iteration 7 ipcReadyEvent ++ iteration 8 (requestEvent 7 3) ++
        iteration 8 (requestEvent 8 8)) (by simp only [twoClients, registration_eq]; decide)⟩

end HardwareIntel.Mmgr
