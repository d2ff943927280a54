import HardwareIntel.Mmgr.StepRule

/-!
# The effect of a recovery and of a configuration

A recovery enters only the states of a recovery, sends neither a modem up nor an `ACK`, and
changes the clients at most by forgetting the acknowledgements of the cold reset. A configuration
is quiet up to the announcement of a modem that is up. `StepRule.reach` is the rule for whole runs.
-/

namespace HardwareIntel.Mmgr

open Option

variable {env : Env} {m m' : MmgrData}

/-! ## Recovery -/

/-- The states entered by a recovery. -/
def MmgrState.ofReset : MmgrState → Bool
  | .waitColdAck | .mdmStart | .mdmConfOngoing | .mdmOos => true
  | _ => false

/-- The entries added by a recovery. -/
def Obs.ofReset : Obs → Bool
  | .setState st _ => st.ofReset
  | .sent _ _ ev _ _ => ev != .eventModemUp && ev != .ack
  | .coldReset _ | .platformReboot | .outOfService => true
  | _ => false

/-- The frame of a recovery. -/
abbrev ResetFrame (m m' : MmgrData) : Prop := Frame (fun o => o.ofReset = true) m m'

/-- Sending an event other than modem up. -/
theorem resetFrame_clientsInformAll {ev : Event} {data : EventData}
    (h : ev ≠ .eventModemUp ∧ ev ≠ .ack) : ResetFrame m (clientsInformAll ev data m) :=
  frame_clientsInformAll fun _ => by simpa [Obs.ofReset] using h

/-- Entering a state of the recovery. -/
theorem resetFrame_setMmgrState {st : MmgrState} (h : st.ofReset = true) :
    ResetFrame m (setMmgrState st m) :=
  frame_setMmgrState h

/-- An operation of the escalation. -/
theorem resetFrame_onReset {f : ResetManagement → ResetManagement} : ResetFrame m (onReset f m) :=
  .same rfl rfl id rfl rfl

/-- The head of `reset_modem`. -/
theorem resetFrame_resetModemStart : ResetFrame m (resetModemStart env m) := by
  have hprepare : ResetFrame m (mdmFlashPrepare env.prepareReset m) := .same rfl rfl id rfl rfl
  have hforce : ∀ a, ResetFrame a
      (if env.prepareReset.success then a else recovForce .oos a) := fun a =>
    Frame.ite (fun _ => .refl) (fun _ => resetFrame_onReset)
  unfold resetModemStart
  exact hprepare.trans ((hforce _).trans resetFrame_onReset)

/-- The entries of the recovery operations themselves. -/
def Obs.isOperation : Obs → Bool
  | .coldReset _ | .platformReboot | .outOfService => true
  | _ => false

/-- The end of a cold reset leaves all of it alone. -/
theorem frame_resetModemDone {ok : Obs → Prop} : Frame ok m (resetModemDone env m) := by
  have hdone : Frame ok m (onReset ResetManagement.done m) := .same rfl rfl id rfl rfl
  have hreg : ∀ (a : MmgrData) (evs : List McdCtrlState),
      Frame ok a (mdmMcdRegister evs true a) := fun a evs => .same rfl rfl id rfl rfl
  have htimer : ∀ (a : MmgrData) (t : TimerType), Frame ok a (timerStart env t a) :=
    fun a t => .same rfl rfl id rfl rfl
  have hlink : ∀ a : MmgrData, Frame ok a (setLinkState (fun _ => .none) a) :=
    fun a => .same rfl rfl id rfl rfl
  exact hdone.trans ((hreg _ _).trans ((Frame.ite (fun _ => htimer _ _) (fun _ => .refl)).trans
      (Frame.ite (fun _ => (htimer _ _).trans (hlink _)) (fun _ => .refl))))

variable {level : EscalationLevel}

/-- The second half of a recovery only makes the operation. -/
theorem frame_resetModemOperate :
    Frame (fun o => o.isOperation = true) m (resetModemOperate env level m) := by
  have hreg : ∀ evs, Frame (fun o => o.isOperation = true) m (mdmMcdRegister evs true m) :=
    fun evs => .same rfl rfl id rfl rfl
  have hstop : ∀ a, Frame (fun o => o.isOperation = true) a (timerStopAll a) :=
    fun a => .same rfl rfl id rfl rfl
  have hclose : ∀ a, Frame (fun o => o.isOperation = true) a (mdmCloseFds a) :=
    fun a => .same rfl rfl id rfl rfl
  have hmdm : ∀ a, Frame (fun o => o.isOperation = true) a (hdlerMdm a) := by
    intro a
    unfold hdlerMdm
    split
    · exact .refl
    all_goals exact frame_observe rfl
  exact (hreg _).trans ((hstop _).trans ((hclose _).trans ((hmdm _).trans
    (Frame.ite (fun _ => .refl) (fun _ => frame_resetModemDone)))))

/-- The second half of a recovery. -/
theorem resetFrame_resetModemOperate : ResetFrame m (resetModemOperate env level m) := by
  refine frame_resetModemOperate.mono fun o ho => ?_
  cases o <;> first | rfl | simp [Obs.isOperation] at ho

/-- The first half of an out-of-service declaration. -/
theorem resetFrame_preModemOutOfService : ResetFrame m (preModemOutOfService env m) := by
  unfold preModemOutOfService
  exact (resetFrame_clientsInformAll (by decide)).trans
    ((resetFrame_setMmgrState rfl).trans resetFrame_onReset)

/-- The first half of a platform reboot. -/
theorem resetFrame_prePlatformReboot : ResetFrame m (prePlatformReboot env m) := by
  exact resetFrame_onReset.trans (Frame.ite
    (fun _ => resetFrame_onReset.trans resetFrame_preModemOutOfService)
    (fun _ => resetFrame_onReset.trans ((resetFrame_clientsInformAll (by decide)).trans
      (resetFrame_setMmgrState rfl))))

/-- Asking the clients to acknowledge the cold reset. -/
def askColdAck (env : Env) (m : MmgrData) : MmgrData :=
  let m := onReset (·.setState .wait) m
  let m := clientsInformAll .eventModemDown .null m
  let m := clientsInformAll .notifyModemColdReset .null m
  let m := setMmgrState .waitColdAck m
  timerStart env .coldResetAck m

/-- Asking the clients only enters the waiting state. -/
theorem resetFrame_askColdAck : ResetFrame m (askColdAck env m) := by
  have htimer : ∀ a, ResetFrame a (timerStart env .coldResetAck a) := fun a =>
    .same rfl rfl id rfl rfl
  exact resetFrame_onReset.trans ((resetFrame_clientsInformAll (by decide)).trans
    ((resetFrame_clientsInformAll (by decide)).trans ((resetFrame_setMmgrState rfl).trans
      (htimer _))))

/-- A frame does not depend on the clients it leaves alone, as far as the allowed entries do not
depend on who holds the resource. -/
theorem Frame.withClients {ok : Obs → Prop} (hok : ∀ st b b', ok (.setState st b) →
    ok (.setState st b')) (h : Frame ok m m') (clients : ClientList) :
    Frame ok { m with clients := clients } { m' with clients := clients } :=
  ⟨h.cfg, rfl, h.off, h.state.imp_right (hok _ _ _), h.log⟩

/-- Going on with the cold reset, without forgetting the acknowledgements. -/
def continueColdReset (m : MmgrData) : MmgrData :=
  let m := onReset (·.setState .continue) m
  setMmgrState
    (if m.cfg.bbType = .usb ∧ mdmFlashIsRequired m then .mdmStart else .mdmConfOngoing) m

/-- Going on with the cold reset enters one of two states. -/
theorem resetFrame_continueColdReset : ResetFrame m (continueColdReset m) := by
  refine resetFrame_onReset.trans (resetFrame_setMmgrState ?_)
  split <;> rfl

/-- What the first half of a cold reset does: it asks the clients, goes on, or does nothing. -/
theorem preMdmColdReset_cases :
    (m.reset.state = .none ∧ m.clients.connected ≠ 0 ∧ preMdmColdReset env m = askColdAck env m) ∨
    (∃ clients a, (clients = m.clients ∨ clients = clientsResetAckCold m.clients) ∧
      (a = continueColdReset m ∨ a = timerStop .coldResetAck (continueColdReset m)) ∧
      preMdmColdReset env m = { a with clients := clients }) ∨
    (m.reset.state = .continue ∧ preMdmColdReset env m = m) := by
  unfold preMdmColdReset
  by_cases hask : m.reset.state = .none ∧ m.clients.connected ≠ 0
  · exact Or.inl ⟨hask.1, hask.2, if_pos hask⟩
  right
  rw [if_neg hask]
  by_cases hgo : m.reset.state = .wait ∨ m.clients.connected = 0
  · left
    rw [if_pos hgo]
    by_cases hconn : m.clients.connected ≠ 0
    · exact ⟨_, _, Or.inr rfl, Or.inr rfl, if_pos hconn⟩
    · exact ⟨_, _, Or.inl rfl, Or.inl rfl, if_neg hconn⟩
  · right
    rw [if_neg hgo]
    refine ⟨?_, rfl⟩
    cases hst : m.reset.state with
    | none => exact absurd ⟨hst, fun hz => hgo (Or.inr hz)⟩ hask
    | wait => exact absurd (Or.inl hst) hgo
    | «continue» => rfl

/-- What a recovery does, once the escalation has been started. -/
inductive ResetEffect (env : Env) (m : MmgrData) : MmgrData → Prop
  /-- The clients are asked to acknowledge a cold reset. -/
  | ask (hlevel : (resetModemStart env m).reset.level = .modemColdReset)
      (hstate : m.reset.state = .none) (hconn : m.clients.connected ≠ 0) :
      ResetEffect env m (askColdAck env (resetModemStart env m))
  /-- The cold reset goes on. -/
  | coldReset {clients : ClientList} {a : MmgrData}
      (hlevel : (resetModemStart env m).reset.level = .modemColdReset)
      (hclients : clients = m.clients ∨ clients = clientsResetAckCold m.clients)
      (ha : a = continueColdReset (resetModemStart env m) ∨
        a = timerStop .coldResetAck (continueColdReset (resetModemStart env m))) :
      ResetEffect env m (resetModemOperate env .modemColdReset { a with clients := clients })
  /-- The cold reset goes on without a word, after an operation that was never ended. -/
  | again (hlevel : (resetModemStart env m).reset.level = .modemColdReset)
      (hstate : m.reset.state = .continue) :
      ResetEffect env m (resetModemOperate env .modemColdReset (resetModemStart env m))
  /-- The platform is rebooted, if this is still allowed. -/
  | reboot (hlevel : (resetModemStart env m).reset.level = .platformReboot) :
      ResetEffect env m
        (resetModemOperate env .platformReboot (prePlatformReboot env (resetModemStart env m)))
  /-- The modem is declared out of service. -/
  | outOfService (hlevel : (resetModemStart env m).reset.level = .modemOutOfService) :
      ResetEffect env m (resetModemOperate env .modemOutOfService
        (preModemOutOfService env (resetModemStart env m)))

/-- Starting the escalation does not change the state of the operation. -/
theorem resetModemStart_state : (resetModemStart env m).reset.state = m.reset.state := by
  have hnext : ∀ r : ResetManagement, r.next.state = r.state := fun r => rfl
  have hreinit : ∀ r : ResetManagement, r.reinit.state = r.state := by
    intro r
    unfold ResetManagement.reinit
    dsimp only
    split
    · exact hnext _
    · rfl
  have hstart : ∀ r : ResetManagement,
      (r.start env.timeofday env.staleTime).state = r.state := by
    intro r
    unfold ResetManagement.start
    split
    · rfl
    · split
      · exact hreinit r
      · rfl
  unfold resetModemStart
  dsimp only [onReset]
  rw [hstart]
  split <;> rfl

/-- The state of the operation after the first half of a platform reboot. -/
theorem prePlatformReboot_state : (prePlatformReboot env m).reset.state = .continue := by
  unfold prePlatformReboot
  dsimp only
  split <;> rfl

/-- What a recovery does. -/
theorem resetEffect_resetModem (h : resetModem env m = some m') : ResetEffect env m m' := by
  obtain ⟨pre, hpre, h⟩ := bind_eq_some_iff.mp h
  cases hlevel : (resetModemStart env m).reset.level with
  | unknown => simp [hlevel, hdlerPreMdm] at hpre
  | modemColdReset =>
    rw [hlevel, hdlerPreMdm, some.injEq] at hpre
    subst hpre
    have hclients := (@resetFrame_resetModemStart env m).clients
    rcases @preMdmColdReset_cases env (resetModemStart env m) with
      ⟨hstate, hconn, heq⟩ | ⟨clients, a, hcl, ha, heq⟩ | ⟨hstate, heq⟩
    · have hwait : (askColdAck env (resetModemStart env m)).reset.state = .wait := rfl
      rw [heq, if_pos hwait, some.injEq] at h
      rw [resetModemStart_state] at hstate
      rw [hclients] at hconn
      exact h ▸ .ask hlevel hstate hconn
    · have hwait : a.reset.state ≠ .wait := by
        rcases ha with rfl | rfl <;> simp [continueColdReset, onReset, setMmgrState, timerStop,
          ResetManagement.setState]
      rw [heq, if_neg hwait, some.injEq, hlevel] at h
      rw [hclients] at hcl
      exact h ▸ .coldReset hlevel hcl ha
    · rw [heq, if_neg (by simp [hstate]), some.injEq, hlevel] at h
      rw [resetModemStart_state] at hstate
      exact h ▸ .again hlevel hstate
  | platformReboot =>
    rw [hlevel, hdlerPreMdm, some.injEq] at hpre
    subst hpre
    rw [if_neg (by rw [prePlatformReboot_state]; decide), some.injEq, hlevel] at h
    exact h ▸ .reboot hlevel
  | modemOutOfService =>
    rw [hlevel, hdlerPreMdm, some.injEq] at hpre
    subst hpre
    rw [if_neg (by simp [preModemOutOfService, onReset, ResetManagement.setState]),
      some.injEq, hlevel] at h
    exact h ▸ .outOfService hlevel

/-! ## The state of the daemon after a recovery -/

/-- The head of a recovery leaves the state alone. -/
theorem resetModemStart_mmgrState : (resetModemStart env m).state = m.state := by
  unfold resetModemStart
  split <;> rfl

/-- The second half of a recovery leaves the state alone. -/
theorem resetModemOperate_mmgrState : (resetModemOperate env level m).state = m.state := by
  exact frame_resetModemOperate.state.resolve_right (by simp [Obs.isOperation])

/-- The first half of a platform reboot pretends that the modem is out of service. -/
theorem prePlatformReboot_mmgrState : (prePlatformReboot env m).state = .mdmOos := by
  unfold prePlatformReboot
  dsimp only
  split <;> rfl

/-- Going on with the cold reset leaves the waiting state. -/
theorem continueColdReset_mmgrState :
    (continueColdReset m).state = .mdmStart ∨ (continueColdReset m).state = .mdmConfOngoing := by
  unfold continueColdReset
  dsimp only [setMmgrState]
  split
  · exact Or.inl rfl
  · exact Or.inr rfl

/-- The head of the loop is about to ask the clients to acknowledge a cold reset. -/
def OpensColdRound (env : Env) (m : MmgrData) : Prop :=
  (resetModemStart env m).reset.level = .modemColdReset ∧ m.reset.state = .none ∧
    m.clients.connected ≠ 0

/-- A forced out-of-service is the level of the operation. -/
theorem resetModemStart_level_of_oos (h : m.reset.op = .oos) :
    (resetModemStart env m).reset.level = .modemOutOfService := by
  have hstart : ∀ r : ResetManagement, r.op = .oos →
      (r.start env.timeofday env.staleTime).level = .modemOutOfService := by
    intro r hr
    rw [ResetManagement.start, if_pos hr]
  unfold resetModemStart
  apply hstart
  split
  · exact h
  · rfl

/-- The waiting state is only entered by a new round. -/
theorem ResetEffect.waitColdAck (h : ResetEffect env m m') (hst : m'.state = .waitColdAck) :
    m.state = .waitColdAck ∨ OpensColdRound env m ∧ m'.clients = m.clients := by
  cases h with
  | ask hlevel hstate hconn =>
    have hclients := (@resetFrame_resetModemStart env m).clients
    exact Or.inr ⟨⟨hlevel, hstate, hconn⟩, resetFrame_askColdAck.clients.trans hclients⟩
  | again _ _ =>
    rw [resetModemOperate_mmgrState, resetModemStart_mmgrState] at hst
    exact Or.inl hst
  | reboot _ =>
    rw [resetModemOperate_mmgrState, prePlatformReboot_mmgrState] at hst
    exact absurd hst (by decide)
  | outOfService _ =>
    rw [resetModemOperate_mmgrState] at hst
    exact absurd hst (by simp [preModemOutOfService, setMmgrState, onReset])
  | @coldReset clients a _ _ ha =>
    rw [resetModemOperate_mmgrState] at hst
    rcases ha with rfl | rfl <;>
      rcases @continueColdReset_mmgrState (resetModemStart env m) with hc | hc <;>
        exact absurd (hc.symm.trans hst) (by decide)

/-- The frame of a recovery: the acknowledgements of the cold reset may be forgotten. -/
theorem ResetEffect.frame (h : ResetEffect env m m') :
    ∃ clients, (clients = m.clients ∨ clients = clientsResetAckCold m.clients) ∧
      ResetFrame { m with clients := clients } m' := by
  have hstart : ResetFrame m (resetModemStart env m) := resetFrame_resetModemStart
  cases h with
  | ask _ _ _ => exact ⟨m.clients, Or.inl rfl, hstart.trans resetFrame_askColdAck⟩
  | again _ _ => exact ⟨m.clients, Or.inl rfl, hstart.trans resetFrame_resetModemOperate⟩
  | reboot _ =>
    exact ⟨m.clients, Or.inl rfl, hstart.trans
      (resetFrame_prePlatformReboot.trans resetFrame_resetModemOperate)⟩
  | outOfService _ =>
    exact ⟨m.clients, Or.inl rfl, hstart.trans
      (resetFrame_preModemOutOfService.trans resetFrame_resetModemOperate)⟩
  | @coldReset clients a _ hclients ha =>
    have hgo : ResetFrame m a := by
      rcases ha with rfl | rfl
      · exact hstart.trans resetFrame_continueColdReset
      · exact (hstart.trans resetFrame_continueColdReset).trans (.same rfl rfl id rfl rfl)
    exact ⟨clients, hclients, (hgo.withClients (fun _ _ _ => id) clients).trans
      resetFrame_resetModemOperate⟩

/-! ## Configuration -/

/-- Opening the tty and switching to multiplexed mode is quiet, and leads to `mdmUp` if it
succeeds. -/
theorem configureModem_cases :
    Quiet nobody m (configureModem env m).2 ∧ (configureModem env m).2.flash = m.flash ∧
      ((configureModem env m).1 = true → m.fdTty = false ∧ env.ttyOpen = true ∧
        env.mux.ok = true ∧ (configureModem env m).2.state = .mdmUp) := by
  have hopen : ∀ (b : Bool) (w : WakeupCfg), Quiet nobody m { m with fdTty := b, wakeupCfg := w } :=
    fun b w => .same rfl rfl id rfl rfl ⟨rfl, rfl, rfl, rfl⟩
  unfold configureModem
  split
  · rename_i htty
    split
    · rename_i hmux
      exact ⟨(hopen _ _).trans ((quiet_setMmgrState rfl).trans quiet_mdmMcdRegister), rfl,
        fun _ => ⟨htty.1, htty.2, hmux, rfl⟩⟩
    · exact ⟨(hopen _ _).trans (quiet_informTft.trans (quiet_setMmgrState rfl)), rfl,
        fun h => nomatch h⟩
  · exact ⟨quiet_setMmgrState rfl, rfl, fun h => nomatch h⟩

/-- Applying the TLV files is quiet, and leaves the state alone unless an update is due and one of
them fails. -/
theorem streamline_cases {updated : Bool} (h : streamline env m = some (updated, m')) :
    Quiet nobody m m' ∧ (m'.state = m.state ∨
      m.flash.update = true ∧ (pushAllTlvs env.pushTlv m.cfg).2 ≠ none) := by
  unfold streamline mdmFlashStreamline at h
  have hinform : ∀ (a : MmgrData) (err : NvmUpdateResult),
      Quiet nobody a (clientsInformAll .responseModemNvmResult (.nvmResult err) a) := fun a err =>
    quiet_clientsInformAll (by decide)
  by_cases hupdate : m.flash.update = true
  · rw [if_pos hupdate] at h
    split at h
    · simp only [bind_eq_bind, bind_some, some.injEq, Prod.mk.injEq] at h
      obtain ⟨-, rfl⟩ := h
      cases hfile : (pushAllTlvs env.pushTlv m.cfg).2 with
      | none => exact ⟨quiet_flash.trans (hinform _ _), Or.inl rfl⟩
      | some filename =>
        refine ⟨?_, Or.inr ⟨hupdate, by simp⟩⟩
        exact quiet_flash.trans ((quiet_informTft.trans
          (quiet_recovForce.trans (quiet_setMmgrState rfl))).trans (hinform _ _))
    · simp at h
  · rw [if_neg hupdate] at h
    obtain ⟨-, rfl⟩ := h
    exact ⟨hinform _ _, Or.inl rfl⟩

/-- The modem can be switched to multiplexed mode, but then one of the TLV files of an update
cannot be applied. -/
def TlvFails (env : Env) (m : MmgrData) : Prop :=
  m.fdTty = false ∧ env.ttyOpen = true ∧ env.mux.ok = true ∧ m.flash.update = true ∧
    (pushAllTlvs env.pushTlv m.cfg).2 ≠ none

/-- What a configuration does: something quiet, possibly followed by the announcement of a modem
that is up, then in state `mdmUp` unless a TLV file could not be applied. -/
theorem doConfigure_cases (h : doConfigure env m = some m') :
    Quiet nobody m m' ∨ ∃ a, Quiet nobody m a ∧ (a.state = .mdmUp ∨ TlvFails env m) ∧
      m' = { clientsInformAll .eventModemUp .null a with cdRetrieved := false } := by
  unfold doConfigure at h
  obtain ⟨hconf, hflash, hup⟩ := @configureModem_cases env m
  dsimp only at h
  split at h
  · rename_i hok
    obtain ⟨⟨updated, b⟩, hb, h⟩ := bind_eq_some_iff.mp h
    obtain ⟨hstream, hstate⟩ := streamline_cases hb
    rw [some.injEq] at h
    split at h
    · left
      subst h
      exact (hconf.trans hstream).trans (((quiet_clientsInformAll (by decide)).trans
        quiet_timerStart).trans quiet_cdRetrieved)
    · right
      have hsecur : Quiet nobody b (launchSecur env b) :=
        .same rfl rfl id rfl rfl ⟨rfl, rfl, rfl, rfl⟩
      refine ⟨launchSecur env b, (hconf.trans hstream).trans hsecur, ?_, h.symm⟩
      obtain ⟨htty, hopen, hmux, hmdmUp⟩ := hup hok
      rcases hstate with hstate | ⟨hupdate, hfail⟩
      · exact Or.inl (hstate.trans hmdmUp)
      · rw [hflash] at hupdate
        rw [hconf.cfg] at hfail
        exact Or.inr ⟨htty, hopen, hmux, hupdate, hfail⟩
  · rw [some.injEq] at h
    exact Or.inl (h ▸ hconf)

/-! ## Whole runs -/

/-- A recovery does not ask for a shutdown. -/
theorem ResetEffect.off (h : ResetEffect env m m') (hoff : m.cliReq.off = false) :
    m'.cliReq.off = false := by
  obtain ⟨clients, -, hframe⟩ := h.frame
  exact Bool.eq_false_iff.mpr fun hon => absurd (hframe.off hon) (by simp [hoff])

/-- The head of the loop answers a request for a shutdown. -/
theorem loopHead_off (h : loopHead env m = some m') : m'.cliReq.off = false := by
  unfold loopHead at h
  split at h
  · rw [some.injEq] at h
    subst h
    unfold startShutdown
    dsimp only
    split <;> rfl
  · rename_i hoff
    have hoff : m.cliReq.off = false := by simpa using hoff
    split at h
    · obtain ⟨a, ha, rfl⟩ := map_eq_some_iff.mp h
      exact (resetEffect_resetModem ha).off hoff
    · rw [some.injEq] at h
      exact h ▸ hoff

/-- While the daemon waits for an event, no shutdown is asked for. -/
theorem offHandled_step {x : Input} (hphase : OffHandled m) (h : step m x = some m') :
    OffHandled m' := by
  cases x with
  | head env =>
    obtain ⟨-, h⟩ := ite_none_left_eq_some.mp h
    obtain ⟨a, ha, rfl⟩ := map_eq_some_iff.mp h
    have hoff : a.cliReq.off = false := loopHead_off ha
    exact fun _ => hoff
  | event env ev =>
    obtain ⟨-, h⟩ := ite_none_right_eq_some.mp h
    obtain ⟨a, ha, rfl⟩ := map_eq_some_iff.mp h
    exact fun hwait => by cases hwait
  | flashPush err =>
    obtain ⟨-, h⟩ := ite_none_right_eq_some.mp h
    rw [some.injEq] at h
    exact h ▸ hphase

/-- An invariant kept by every admitted step holds in every state reached. -/
theorem StepRule.reach {C : MmgrData → Input → Prop} {I : MmgrData → Prop} {s t : MmgrData}
    (rule : StepRule C I I) (hinit : I s) (hphase : OffHandled s) (hrun : Reach Mmgr.step C s t) :
    I t := by
  have hboth : I t ∧ OffHandled t :=
    hrun.invariant (I := fun a => I a ∧ OffHandled a) ⟨hinit, hphase⟩
      fun a x b ha hC hstep => ⟨rule.step ha.1 ha.2 hC hstep, offHandled_step ha.2 hstep⟩
  exact hboth.1

/-- At the start the daemon has not yet waited for an event. -/
theorem offHandled_mmgrInit {cfg : MmgrCfg} {time reboot : Int} {telephonyDisabled : Bool} :
    OffHandled (mmgrInit cfg time reboot telephonyDisabled) :=
  fun hwait => nomatch hwait

end HardwareIntel.Mmgr
