import HardwareIntel.Mmgr.Requests

/-!
# A shutdown is started when no client holds the resource

The last release starts the round of acknowledgements, and the shutdown itself is started later, by
the last acknowledgement or by the timer of the round. The timer is not stopped when the round is
abandoned, so it can elapse in a later state, while a client holds the resource again. In the runs
where this does not happen no shutdown is started against a client that holds the resource.
-/

namespace HardwareIntel.Mmgr

/-! ## Who holds the resource -/

section Holders

variable {cl cl' : ClientList} {fd : Int} {i : ℕ} {f : Client → Client}

/-- An update that does not give the resource to a client. -/
theorem hasResource_update (hf : ∀ d, d.holdsResource = false → (f d).holdsResource = false)
    (h : cl.hasResource = false) : (cl.update i f).hasResource = false := by
  rw [ClientList.hasResource_eq_false_iff] at h ⊢
  exact ClientList.forall_update h fun d _ => hf d

/-- A fresh client does not hold the resource. -/
theorem hasResource_add (hadd : cl.add fd = some cl') (h : cl.hasResource = false) :
    cl'.hasResource = false := by
  rw [ClientList.hasResource_eq_false_iff] at h ⊢
  intro c hc
  rcases ClientList.mem_add hadd hc with hold | rfl
  · exact h c hold
  · simp [Client.holdsResource]

/-- A client that leaves does not hold the resource. -/
theorem hasResource_remove (h : cl.hasResource = false) : (cl.remove fd).hasResource = false := by
  rw [ClientList.hasResource_eq_false_iff] at h ⊢
  intro c hc
  by_cases hconn : c.isConnected = true
  · exact h c (ClientList.mem_remove hc hconn)
  · simp [Client.holdsResource, hconn]

/-- Forgetting the acknowledgements leaves the resource alone. -/
theorem hasResource_resetAck {flag : CnxRequest} (hflag : flag ≠ .resourceReleased)
    (h : cl.hasResource = false) : (cl.resetAck flag).hasResource = false := by
  rw [ClientList.hasResource_eq_false_iff] at h ⊢
  intro c hc
  by_cases hconn : c.isConnected = true
  · obtain ⟨d, hd, rfl⟩ := ClientList.mem_resetAck hc hconn
    have hold := h d hd
    simp only [Client.holdsResource, Client.isConnected, Client.unsetRequest_fd,
      Client.unsetRequest_cnx, hflag.symm] at hold ⊢
    simpa using hold
  · simp [Client.holdsResource, hconn]

/-- Setting a flag does not give the resource to the client. -/
theorem holdsResource_setRequest {req : CnxRequest} (d : Client)
    (h : d.holdsResource = false) : (d.setRequest req).holdsResource = false := by
  simp only [Client.holdsResource, Client.isConnected, Client.setRequest_fd,
    Client.setRequest_cnx, Bool.and_eq_false_iff, Bool.not_eq_false'] at h ⊢
  exact h.imp_right fun h => by simp [h]

end Holders

/-! ## The invariant -/

/-- The entries of a run that neither enter the round of the shutdown nor start it. -/
def Obs.keepsShutdown : Obs → Bool
  | .setState .waitShtAck _ | .setState .mdmPrepareOff _ => false
  | _ => true

/-- No client holds the resource during the round of a shutdown, when a shutdown is asked for, or
when one was started. -/
structure ShutdownAgreed (m : MmgrData) : Prop where
  waitShtAck : m.state = .waitShtAck → m.clients.hasResource = false
  off : m.cliReq.off = true → m.clients.hasResource = false
  log : .setState .mdmPrepareOff true ∉ m.log

namespace ShutdownAgreed

variable {env : Env} {m m' : MmgrData} {f : Client → Client}

section

variable (h : ShutdownAgreed m)
include h

/-- A change that leaves the shutdown alone keeps the invariant. -/
theorem frame (hframe : Frame (fun o => o.keepsShutdown = true) m m') :
    ShutdownAgreed m' := by
  constructor
  · intro hst
    rw [hframe.clients]
    rcases hframe.state with hsame | hkeeps
    · rw [hsame] at hst
      exact h.waitShtAck hst
    · rw [hst] at hkeeps
      exact absurd hkeeps (by simp [Obs.keepsShutdown])
  · intro hoff
    rw [hframe.clients]
    exact h.off (hframe.off hoff)
  · obtain ⟨new, hnew, hkeeps⟩ := hframe.log
    intro hmem
    rw [hnew, List.mem_append] at hmem
    rcases hmem with hmem | hmem
    · exact absurd (hkeeps _ hmem) (by simp [Obs.keepsShutdown])
    · exact h.log hmem

/-- A quiet change keeps the invariant. -/
theorem quiet {R : Int → Prop} (hquiet : Quiet R m m') :
    ShutdownAgreed m' := by
  refine h.frame (hquiet.toFrame.mono fun o ho => ?_)
  rcases o with ⟨st, _⟩ | _ | _ | _ | _ | _ | _ | _ | _
  · cases st <;> simp_all [Obs.routine, MmgrState.routine, Obs.keepsShutdown]
  all_goals rfl

/-- A recovery keeps the invariant. -/
theorem reset (heffect : ResetEffect env m m') : ShutdownAgreed m' := by
  obtain ⟨clients, hclients, hframe⟩ := heffect.frame
  have hcold : ShutdownAgreed { m with clients := clients } := by
    rcases hclients with rfl | rfl
    · exact h
    · exact ⟨fun hst => hasResource_resetAck (by decide) (h.waitShtAck hst),
        fun hoff => hasResource_resetAck (by decide) (h.off hoff), h.log⟩
  refine hcold.frame (hframe.mono fun o ho => ?_)
  rcases o with ⟨st, _⟩ | _ | _ | _ | _ | _ | _ | _ | _
  · cases st <;> simp_all [Obs.ofReset, MmgrState.ofReset, Obs.keepsShutdown]
  all_goals rfl

/-- An update that does not give the resource to a client keeps the invariant. -/
theorem onClient (hf : ∀ d, d.holdsResource = false → (f d).holdsResource = false) :
    ShutdownAgreed (onClient f m) :=
  ⟨fun hst => hasResource_update hf (h.waitShtAck hst),
    fun hoff => hasResource_update hf (h.off hoff), h.log⟩

/-- Outside the round, and with no shutdown asked for, any update keeps the invariant. -/
theorem onClient_of_idle (hst : m.state ≠ .waitShtAck) (hoff : m.cliReq.off = false) :
    ShutdownAgreed (Mmgr.onClient f m) :=
  ⟨fun hcon => absurd hcon hst, fun hcon => absurd hcon (by simp [Mmgr.onClient, hoff]), h.log⟩

/-- The round may be entered when no client holds the resource. -/
theorem enter (hfree : m.clients.hasResource = false) :
    ShutdownAgreed (setMmgrState .waitShtAck m) :=
  ⟨fun _ => hfree, fun _ => hfree, by simpa [setMmgrState] using h.log⟩

/-- A shutdown may be asked for when no client holds the resource. -/
theorem ask (hfree : m.clients.hasResource = false) (g : CliReq → CliReq) :
    ShutdownAgreed (setCliReq g m) :=
  ⟨h.waitShtAck, fun _ => hfree, h.log⟩

/-- Starting the shutdown keeps the invariant. -/
theorem start (hoff : m.cliReq.off = true) :
    ShutdownAgreed (startShutdown env m) := by
  have hfree : (clientsResetAckShtdwn m.clients).hasResource = false :=
    hasResource_resetAck (by decide) (h.off hoff)
  unfold startShutdown
  dsimp only
  split
  · refine ⟨fun _ => hfree, fun _ => hfree, ?_⟩
    have hentry : (Obs.setState .mdmPrepareOff true) ≠
        .setState .mdmPrepareOff (clientsResetAckShtdwn m.clients).hasResource := by
      rw [hfree]
      decide
    exact fun hmem => (List.mem_cons.mp hmem).elim hentry h.log
  · exact ⟨fun _ => hfree, fun _ => hfree, h.log⟩

/-- Switching the modem on keeps the invariant. -/
theorem wakeup (hst : m.state = .mdmOff) (hoff : m.cliReq.off = false)
    (hstep : resourceAcquireWakeupModem env m = some m') : ShutdownAgreed m' := by
  obtain ⟨a, ha, hcases⟩ := resourceAcquireWakeupModem_cases hstep
  have hflag : ShutdownAgreed (Mmgr.onClient (Client.unsetRequest .resourceReleased) m) :=
    h.onClient_of_idle (by simp [hst]) hoff
  rcases hcases with rfl | rfl | ⟨-, -, heffect⟩
  · exact hflag.quiet ha
  · exact (hflag.quiet ha).frame (frame_wakeupModem (fun _ => rfl) (fun _ => rfl) rfl)
  · exact (hflag.quiet ha).reset heffect

/-- A modem announced as up keeps the invariant. -/
theorem informAll {ev : Event} {data : EventData} :
    ShutdownAgreed (clientsInformAll ev data m) :=
  h.frame (frame_clientsInformAll fun _ => rfl)

/-- The configuration of the modem keeps the invariant. -/
theorem configure (hstep : doConfigure env m = some m') :
    ShutdownAgreed m' := by
  rcases doConfigure_cases hstep with hquiet | ⟨a, ha, -, rfl⟩
  · exact h.quiet hquiet
  · exact (h.quiet ha).informAll.quiet (quiet_cdRetrieved (R := nobody))

/-- A release keeps the invariant, and enters the round when it is the last one. -/
theorem release : ShutdownAgreed (requestResourceRelease env m) := by
  have hflag : ShutdownAgreed (Mmgr.onClient (Client.setRequest .resourceReleased) m) :=
    h.onClient holdsResource_setRequest
  rcases @requestResourceRelease_cases env m with hquiet | ⟨hfree, -, a, ha, heq⟩
  · exact hflag.quiet hquiet
  · rw [heq]
    refine (hflag.quiet ha).enter ?_
    rw [ha.clients]
    exact hfree

/-- The acknowledgement of a shutdown keeps the invariant, and asks for the shutdown when it is
the last one. -/
theorem ackShutdown (hst : m.state = .waitShtAck) :
    ShutdownAgreed (requestAckModemShutdown m) := by
  have hflag : ShutdownAgreed (acknowledged .modemShutdown m) :=
    h.onClient holdsResource_setRequest
  rcases @requestAckModemShutdown_cases m with heq | ⟨-, -, hquiet⟩
  · rw [heq]
    exact hflag
  · have hconcluded : ShutdownAgreed (concluded .notifyModemShutdown
        (acknowledged .modemShutdown m)) := hflag.frame (frame_observe rfl)
    exact (hconcluded.ask (hconcluded.waitShtAck hst) _).quiet hquiet

/-- Every request but a forced shutdown keeps the invariant. -/
theorem request {req : Request} (hoff : m.cliReq.off = false)
    (hforce : req ≠ .requestForceModemShutdown) (heffect : HandlerEffect env m.state m req m') :
    ShutdownAgreed m' := by
  cases heffect with
  | quiet hquiet => exact h.quiet hquiet
  | setName hstep =>
    have hname : ShutdownAgreed (Mmgr.onClient (Client.setName m.request.data) m) :=
      h.onClient fun _ hd => hd
    exact hname.quiet (quiet_requestSetName hstep)
  | setEvents =>
    rcases @requestSetEvents_cases m with hquiet | ⟨n, a, ha, -, heq⟩
    · exact h.quiet hquiet
    · rw [heq]
      have hfilter : ShutdownAgreed (Mmgr.onClient (Client.setFilter n) m) :=
        h.onClient fun _ hd => hd
      exact (hfilter.quiet ha).frame (frame_clientInform fun _ _ => rfl)
  | wakeup hst hstep => exact h.wakeup hst hoff hstep
  | acquire hst =>
    have hround : m.state ≠ .waitShtAck := by
      rcases hst with hst | hst | hst | hst <;> simp [hst]
    exact (h.onClient_of_idle hround hoff).quiet quiet_resourceAcquire
  | releaseOff _ =>
    exact (h.onClient holdsResource_setRequest).quiet quiet_requestResourceReleaseMdmOff
  | release _ => exact h.release
  | forceShutdown _ => exact absurd rfl hforce
  | ackCold _ =>
    have hflag : ShutdownAgreed (acknowledged .coldReset m) := h.onClient holdsResource_setRequest
    rcases @requestAckColdReset_cases env m with heq | ⟨-, -, hquiet⟩
    · rw [heq]
      exact hflag
    · have hconcluded : ShutdownAgreed (concluded .notifyModemColdReset
          (acknowledged .coldReset m)) := hflag.frame (frame_observe rfl)
      exact hconcluded.quiet hquiet
  | ackShutdown hst => exact h.ackShutdown hst
  | fakeUp _ => exact (h.quiet quiet_clientAck).informAll

end

end ShutdownAgreed

/-! ## Whole runs -/

/-- The timer of the shutdown round elapses after the round, while a client holds the resource
again. -/
def StaleShutdownTimer (m : MmgrData) : Input → Prop
  | .event env .timeout => m.timer.isElapsed .modemShutdownAck env.boottime = true ∧
      m.state ≠ .waitShtAck ∧ m.clients.hasResource = true
  | _ => False

/-- No shutdown is forced and no timer of an abandoned round elapses against a client. -/
def OrderlyShutdown (m : MmgrData) (x : Input) : Prop :=
  x.request ≠ some .requestForceModemShutdown ∧ ¬ StaleShutdownTimer m x

/-- Every kind of step keeps the invariant. -/
theorem stepRule_shutdownAgreed : StepRule OrderlyShutdown ShutdownAgreed ShutdownAgreed where
  phase h := { h with }
  quiet h _ hquiet := h.quiet hquiet
  configure h _ _ _ hquiet _ _ hstep := (h.quiet hquiet).configure hstep
  startShutdown h _ hoff := h.start hoff
  resetModem h _ _ _ hstep :=
    (h.reset (resetEffect_resetModem hstep)).quiet (quiet_setCliReq (R := nobody) fun _ hoff => hoff)
  shutdownTimeout h hC _ helapsed hquiet := by
    refine (h.quiet hquiet).ask ?_ _
    rw [hquiet.clients]
    by_contra hheld
    -- the timer is not stale, so the round is still open, and then no client holds the resource
    refine hC.2 ⟨helapsed, fun hst => hheld (h.waitShtAck hst), by simpa using hheld⟩
  connect {m _ clients} h _ _ hadd := by
    have hnew : ShutdownAgreed { m with clients := clients } :=
      ⟨fun hst => hasResource_add hadd (h.waitShtAck hst),
        fun hoff => hasResource_add hadd (h.off hoff), h.log⟩
    exact hnew.frame (frame_observe rfl)
  request h hC hoff hreq _ _ _ heffect := by
    have hforce := hC.1
    simp only [Input.request, hreq] at hforce
    exact (h.quiet (quiet_received (R := nobody))).request hoff (fun heq => hforce (by rw [heq])) heffect
  disconnect {m _ _ _ i _} h _ hoff _ _ heffect := by
    have hforce : Request.resourceRelease ≠ .requestForceModemShutdown := by decide
    have hcurrent : ShutdownAgreed { m with request := ⟨i, .resourceRelease, 0, []⟩ } :=
      h.quiet (quiet_request (R := nobody))
    have hrelease := hcurrent.request hoff hforce heffect
    exact ⟨fun hst => hasResource_remove (hrelease.waitShtAck hst),
      fun hon => hasResource_remove (hrelease.off hon), hrelease.log⟩

/-- Every shutdown was started at a moment when no connected client held the resource. -/
def ShutdownWhenReleased (m : MmgrData) : Prop :=
  ∀ held, .setState .mdmPrepareOff held ∈ m.log → held = false

/-- In every run from `mdmOff` in which no shutdown is forced and no timer of an abandoned round
elapses against a client, every shutdown is started when no client holds the resource. -/
theorem shutdown_started_when_released {cfg : MmgrCfg} {time reboot : Int} {m : MmgrData}
    (hrun : Reach step OrderlyShutdown (mmgrInit cfg time reboot false) m) :
    ShutdownWhenReleased m := by
  have hinit : ShutdownAgreed (mmgrInit cfg time reboot false) := by
    constructor
    · intro hst
      exact absurd hst (by simp [mmgrInit])
    · intro hoff
      exact absurd hoff (by simp [mmgrInit, CliReq.none])
    · simp [mmgrInit]
  have hagreed : ShutdownAgreed m :=
    stepRule_shutdownAgreed.reach hinit offHandled_mmgrInit hrun
  intro held hmem
  cases held with
  | false => rfl
  | true => exact absurd hmem hagreed.log

/-- The test for `OrderlyShutdown`. -/
def orderlyShutdown (m : MmgrData) (x : Input) : Bool :=
  x.request != some .requestForceModemShutdown &&
    match x with
    | .event env .timeout => !(m.timer.isElapsed .modemShutdownAck env.boottime &&
        m.state != .waitShtAck && m.clients.hasResource)
    | _ => true

/-- A client acquires the resource, the modem gets up, and the client releases the resource. -/
def lastRelease : List Input :=
  registration 1 7 0xffff ++ iteration 2 (requestEvent 7 2) ++ iteration 3 ipcReadyEvent ++
    iteration 4 (requestEvent 7 3)

/-- A run in which the timer of the round ends it: the shutdown is started, with the resource
released. -/
theorem shutdown_started_when_released_run :
    ∃ m, Reach step OrderlyShutdown (mmgrInit hsiPlatform 0 0 false) m ∧
      .setState .mdmPrepareOff false ∈ m.log ∧ ShutdownWhenReleased m := by
  refine Reach.exists_of_check (fun m x (hx : orderlyShutdown m x = true) => ?_)
    (fun m hrun (hlog : Obs.setState .mdmPrepareOff false ∈ m.log) =>
      ⟨hlog, shutdown_started_when_released hrun⟩)
    (lastRelease ++ iteration 10 .timeout ++ [.head (calmEnv 11)])
    (by simp only [lastRelease, registration_eq]; decide)
  obtain ⟨hforce, hstale⟩ := Bool.and_eq_true_iff.mp hx
  refine ⟨by simpa using hforce, fun hcon => ?_⟩
  unfold StaleShutdownTimer at hcon
  split at hcon
  · simp [hcon.1, hcon.2.1, hcon.2.2] at hstale
  · exact hcon

/-- Without the condition on the timer this fails: the modem hangs up during the round, the
client acquires the resource again while the modem is restarted, and then the timer elapses. -/
theorem shutdown_started_while_held :
    hsiPlatform.dsda = false ∧
      ∃ m, Reach step (fun _ x => x.request ≠ some .requestForceModemShutdown)
        (mmgrInit hsiPlatform 0 0 false) m ∧ ¬ ShutdownWhenReleased m :=
  ⟨rfl, Reach.exists_of_decide (fun m _ (hlog : Obs.setState .mdmPrepareOff true ∈ m.log)
        hreleased => absurd (hreleased true hlog) (by decide))
    (lastRelease ++ iteration 4 .ipc ++ iteration 4 (requestEvent 7 2) ++ iteration 10 .timeout ++
      [.head (calmEnv 11)]) (by simp only [lastRelease, registration_eq]; decide)⟩

end HardwareIntel.Mmgr
