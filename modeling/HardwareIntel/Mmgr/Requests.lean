import HardwareIntel.Mmgr.Recovery

/-!
# The effect of the requests that are not quiet

Each of these requests changes the flags of its client, and is quiet apart from that and from one
or two things of its own: the state it enters, the announcement it sends, or the recovery it makes.
-/

namespace HardwareIntel.Mmgr

variable {env : Env} {m m' : MmgrData}

/-- A quiet change stays quiet with other clients, as long as it leaves them alone. -/
theorem Quiet.withClients {R : Int → Prop} (h : Quiet R m m') (clients : ClientList) :
    Quiet R { m with clients := clients } { m' with clients := clients } :=
  ⟨h.toFrame.withClients (fun _ _ _ => id) clients, h.escalation⟩

/-- Accepting a request before or after an update of the client makes no difference. -/
theorem quiet_onClient_clientAck (f : Client → Client) :
    Quiet m.requester (onClient f m) (onClient f (clientInform .ack m)) :=
  quiet_clientAck.withClients (m.clients.update m.request.client f)

/-- An update that keeps the descriptor does not change whom the request comes from. -/
theorem requester_of_onClient {f : Client → Client} (hf : ∀ c, (f c).fd = c.fd) {fd : Int}
    (h : (onClient f m).requester fd) : m.requester fd := by
  obtain ⟨c, hc, rfl⟩ := h
  have hget : (m.clients.get? m.request.client).map f = some c := by
    simpa [onClient, ClientList.get?, ClientList.update, List.getElem?_modify] using hc
  obtain ⟨d, hd, rfl⟩ := Option.map_eq_some_iff.mp hget
  exact ⟨d, hd, (hf d).symm⟩

/-- Accepting a request after an update of the client that keeps its descriptor. -/
theorem quiet_clientAck_onClient {f : Client → Client} (hf : ∀ c, (f c).fd = c.fd) :
    Quiet m.requester (onClient f m) (clientInform .ack (onClient f m)) :=
  quiet_clientAck.mono fun _ => requester_of_onClient hf

/-! ## Name, filter and resource -/

/-- Giving a name is quiet apart from the name. -/
theorem quiet_requestSetName (h : requestSetName m = some m') :
    Quiet m.requester (onClient (Client.setName m.request.data) m) m' := by
  obtain ⟨-, h⟩ := Option.ite_none_left_eq_some.mp h
  rw [Option.some.injEq] at h
  exact h ▸ quiet_clientAck_onClient (fun _ => rfl)

/-- A filter is stored and the state is sent, or the request is refused. -/
theorem requestSetEvents_cases :
    Quiet m.requester m (requestSetEvents m) ∨
      ∃ n a, Quiet m.requester (onClient (Client.setFilter n) m) a ∧ a.state = m.state ∧
        requestSetEvents m = clientInform m.state.notification a := by
  unfold requestSetEvents
  split
  · right
    exact ⟨_, _, quiet_clientAck_onClient (fun _ => rfl), rfl, rfl⟩
  · exact Or.inl quiet_clientNack

/-- Acquiring the resource of a modem that is on is quiet apart from the flag. -/
theorem quiet_resourceAcquire :
    Quiet m.requester (onClient (Client.unsetRequest .resourceReleased) m) (resourceAcquire m) :=
  quiet_onClient_clientAck _

/-- What switching the modem on does after the flag: something quiet, the wake-up, or the
declaration that the modem is out of service, because its firmware cannot be prepared. -/
theorem resourceAcquireWakeupModem_cases (h : resourceAcquireWakeupModem env m = some m') :
    ∃ a, Quiet m.requester (onClient (Client.unsetRequest .resourceReleased) m) a ∧
      (m' = a ∨ m' = wakeupModem env a ∨
        env.prepare.success = false ∧ a.reset.op = .oos ∧ ResetEffect env a m') := by
  unfold resourceAcquireWakeupModem at h
  set b := setLinkState (fun _ => LinkState.none) (mdmMcdRegister [.coredump] true
    (onClient (Client.unsetRequest .resourceReleased) (clientInform .ack m))) with hb
  have hquiet : Quiet m.requester (onClient (Client.unsetRequest .resourceReleased) m) b :=
    (quiet_onClient_clientAck _).trans
      (quiet_mdmMcdRegister.trans quiet_setLinkState)
  have hprepare : Quiet m.requester b (mdmFlashPrepare env.prepare b) := quiet_flash
  split at h
  · rw [Option.some.injEq] at h
    have hfilter : ∀ a, Quiet m.requester a (if mdmFlashIsRequired a then
        mdmMcdRegister [.fwDownloadReady] false a
        else if a.cfg.ipcReadyPresent then mdmMcdRegister [.ipcReady] false a else a) := fun a =>
      Quiet.ite (fun _ => quiet_mdmMcdRegister)
        (fun _ => Quiet.ite (fun _ => quiet_mdmMcdRegister) (fun _ => .refl))
    refine ⟨_, hquiet.trans (hprepare.trans (hfilter _)), ?_⟩
    split at h
    · exact Or.inr (Or.inl h.symm)
    · exact Or.inl h.symm
  · rename_i hfailed
    have hfailed : env.prepare.success = false := by simpa using hfailed
    refine ⟨_, hquiet.trans (hprepare.trans quiet_recovForce), Or.inr (Or.inr ⟨hfailed, rfl, ?_⟩)⟩
    exact resetEffect_resetModem h

/-- The wake-up enters one of two states and starts the escalation anew. -/
theorem frame_wakeupModem {ok : Obs → Prop} (hstart : ∀ b, ok (.setState .mdmStart b))
    (hconf : ∀ b, ok (.setState .mdmConfOngoing b)) (hwake : ok .wakeUp) :
    Frame ok m (wakeupModem env m) := by
  have hstate : ∀ p : Prop, ∀ [Decidable p],
      Frame ok m (setMmgrState (if p then .mdmStart else .mdmConfOngoing) m) := by
    intro p _
    apply frame_setMmgrState
    split
    · exact hstart _
    · exact hconf _
  have hreq : ∀ b, Frame ok b (setCliReq (fun _ => .none) b) := fun b =>
    .same rfl rfl (by simp [setCliReq, CliReq.none]) rfl rfl
  have hreinit : ∀ b, Frame ok b (onReset ResetManagement.reinit b) := fun b =>
    .same rfl rfl id rfl rfl
  have htimer : ∀ b t, Frame ok b (timerStart env t b) := fun b t => .same rfl rfl id rfl rfl
  exact (hstate _).trans ((hreq _).trans ((hreinit _).trans ((frame_observe hwake).trans
    ((Frame.ite (fun _ => htimer _ _) (fun _ => .refl)).trans
      (Frame.ite (fun _ => htimer _ _) (fun _ => .refl))))))

/-- Releasing the resource of a modem that is off is quiet apart from the flag. -/
theorem quiet_requestResourceReleaseMdmOff :
    Quiet m.requester (onClient (Client.setRequest .resourceReleased) m) (requestResourceReleaseMdmOff m) :=
  quiet_clientAck_onClient (fun _ => rfl)

/-- After the last release the daemon waits for the acknowledgements of a shutdown. -/
theorem requestResourceRelease_cases :
    Quiet m.requester (onClient (Client.setRequest .resourceReleased) m) (requestResourceRelease env m) ∨
      (onClient (Client.setRequest .resourceReleased) m).clients.hasResource = false ∧
      m.cfg.dsda = false ∧
      ∃ a, Quiet m.requester (onClient (Client.setRequest .resourceReleased) m) a ∧
        requestResourceRelease env m = setMmgrState .waitShtAck a := by
  unfold requestResourceRelease
  dsimp only
  have hrelease : Quiet m.requester (onClient (Client.setRequest .resourceReleased) m)
      (onClient (Client.setRequest .resourceReleased) (clientInform .ack m)) :=
    quiet_onClient_clientAck _
  split
  · rename_i hlast
    exact Or.inr ⟨hlast.1, hlast.2, _, hrelease.trans ((quiet_clientsInformAll (by decide)).trans
      (quiet_timerStopAll.trans quiet_timerStart)), rfl⟩
  · exact Or.inl hrelease

/-- A forced shutdown waits for the acknowledgements, too. -/
theorem requestForceModemShutdown_cases :
    ∃ a, Quiet m.requester m a ∧ requestForceModemShutdown env m = setMmgrState .waitShtAck a := by
  refine ⟨_, ?_, rfl⟩
  exact quiet_clientAck.trans
    ((quiet_clientsInformAll (by decide)).trans quiet_timerStart)

/-! ## Acknowledgements -/

/-- The client of the current request has acknowledged with `flag`. -/
def acknowledged (flag : CnxRequest) (m : MmgrData) : MmgrData := onClient (Client.setRequest flag) m

/-- The daemon notes that the clients that want `ev` agree. -/
def concluded (ev : Event) (m : MmgrData) : MmgrData :=
  observe (.agreed ev (m.clients.subscribers ev)) m

/-- The last acknowledgement of a cold reset makes the reset go on. -/
theorem requestAckColdReset_cases :
    requestAckColdReset env m = acknowledged .coldReset m ∨
      clientsHasAckCold (acknowledged .coldReset m).clients = true ∧
      (requestAckColdReset env m).state = .mdmReset ∧
      Quiet nobody (concluded .notifyModemColdReset (acknowledged .coldReset m))
        (requestAckColdReset env m) := by
  unfold requestAckColdReset
  dsimp only
  split
  · rename_i hall
    refine Or.inr ⟨hall, rfl, ?_⟩
    exact (Quiet.ite (fun _ => quiet_clientsInformAll (by decide)) (fun _ => .refl)).trans
      ((quiet_setCliReq (by simp)).trans (quiet_setMmgrState rfl))
  · exact Or.inl rfl

/-- The last acknowledgement of a shutdown asks for it. -/
theorem requestAckModemShutdown_cases :
    requestAckModemShutdown m = acknowledged .modemShutdown m ∨
      clientsHasAckShtdwn (acknowledged .modemShutdown m).clients = true ∧
      (requestAckModemShutdown m).state = .mdmReset ∧
      Quiet nobody (setCliReq (fun _ => ⟨false, true, false⟩)
        (concluded .notifyModemShutdown (acknowledged .modemShutdown m)))
        (requestAckModemShutdown m) := by
  unfold requestAckModemShutdown
  dsimp only
  split
  · rename_i hall
    exact Or.inr ⟨hall, rfl, quiet_timerStop.trans (quiet_setMmgrState rfl)⟩
  · exact Or.inl rfl

/-! ## Properties that do not depend on the clients -/

/-- A property that outlives all that the requests do by themselves. -/
structure RequestRule (P : MmgrData → Prop) : Prop where
  /-- A quiet change keeps it. -/
  quiet : ∀ {m m' : MmgrData} {R : Int → Prop}, P m → Quiet R m m' → P m'
  /-- The clients and what they have asked for do not matter. -/
  client : ∀ {m : MmgrData} {f : Client → Client}, P m → P (onClient f m)
  setCliReq : ∀ {m : MmgrData} {f : CliReq → CliReq}, P m → P (setCliReq f m)
  /-- The wait for the acknowledgements of a shutdown. -/
  waitShtAck : ∀ {m : MmgrData}, P m → P (setMmgrState .waitShtAck m)
  /-- The end of a round. -/
  conclude : ∀ {m : MmgrData} {ev : Event}, P m → P (concluded ev m)

/-- What is left to show of a request are the answer with the state, the start of the modem and a
modem that is said to be up. -/
theorem RequestRule.request {P : MmgrData → Prop} (rule : RequestRule P) {st : MmgrState}
    {req : Request} (h : P m) (heffect : HandlerEffect env st m req m')
    (hinform : ∀ {a}, P a → a.state = m.state → P (clientInform m.state.notification a))
    (hwakeup : req = .resourceAcquire → st = .mdmOff → resourceAcquireWakeupModem env m = some m' →
      P m')
    (hfake : req = .requestFakeUp → P (requestFakeUp m)) : P m' := by
  have hclient : ∀ f, P (onClient f m) := fun f => rule.client h
  cases heffect with
  | quiet hquiet => exact rule.quiet h hquiet
  | setName hstep => exact rule.quiet (hclient _) (quiet_requestSetName hstep)
  | setEvents =>
    rcases @requestSetEvents_cases m with hquiet | ⟨n, a, ha, hst, heq⟩
    · exact rule.quiet h hquiet
    · rw [heq]
      exact hinform (rule.quiet (hclient _) ha) hst
  | wakeup hst hstep => exact hwakeup rfl hst hstep
  | acquire _ => exact rule.quiet (hclient _) quiet_resourceAcquire
  | releaseOff _ => exact rule.quiet (hclient _) quiet_requestResourceReleaseMdmOff
  | release _ =>
    rcases @requestResourceRelease_cases env m with hquiet | ⟨-, -, a, ha, heq⟩
    · exact rule.quiet (hclient _) hquiet
    · rw [heq]
      exact rule.waitShtAck (rule.quiet (hclient _) ha)
  | forceShutdown _ =>
    obtain ⟨a, ha, heq⟩ := @requestForceModemShutdown_cases env m
    rw [heq]
    exact rule.waitShtAck (rule.quiet h ha)
  | ackCold _ =>
    rcases @requestAckColdReset_cases env m with heq | ⟨-, -, hquiet⟩
    · rw [heq]
      exact hclient _
    · exact rule.quiet (rule.conclude (hclient _)) hquiet
  | ackShutdown _ =>
    rcases @requestAckModemShutdown_cases m with heq | ⟨-, -, hquiet⟩
    · rw [heq]
      exact hclient _
    · exact rule.quiet (rule.setCliReq (rule.conclude (hclient _))) hquiet
  | fakeUp _ => exact hfake rfl

end HardwareIntel.Mmgr
