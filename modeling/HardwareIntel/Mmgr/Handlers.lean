import HardwareIntel.Mmgr.Frame

/-!
# The effect of each handler

Most handlers are quiet. For the others the lemmas below say what they do: a modem state or a bus
change may end in `do_configure`, a timeout may ask for a shutdown, and ten requests are handled in
a way of their own.
-/

namespace HardwareIntel.Mmgr

open Option

variable {R : Int → Prop} {env : Env} {m m' : MmgrData}

/-! ## Routine handlers of the modem events -/

/-- `core_dump_prepare` is quiet. -/
theorem quiet_coreDumpPrepare : Quiet R m (coreDumpPrepare env m) := by
  unfold coreDumpPrepare
  refine Quiet.ite (fun _ => ?_) (fun _ => ?_)
  · exact quiet_timerStop.trans (quiet_timerStop.trans
      (quiet_timerStart.trans (quiet_mcdrStart.trans quiet_cdRetrieved)))
  · exact quiet_timerStopAll.trans (quiet_setMmgrState rfl)

/-- `core_dump_finalize` is quiet. -/
theorem quiet_coreDumpFinalize {state : CoreDumpState} :
    Quiet R m (coreDumpFinalize env state m) := by
  have hnotify : Quiet R m (notifyCoreDump env state m) := quiet_clientsInformAll (by decide)
  exact (((hnotify.trans quiet_mdmMcdRegister).trans quiet_mdmMcdUnregister).trans
    quiet_setLinkState).trans (quiet_setMmgrState rfl)

/-- Closing the descriptors, if they are open, is quiet. -/
theorem quiet_closeIfOpen : Quiet R m (closeIfOpen m) := by
  unfold closeIfOpen
  refine Quiet.ite (fun _ => ?_) (fun _ => .refl)
  exact (quiet_clientsInformAll (by decide)).trans quiet_mdmCloseFds

/-- `mdm_finalize_shtdwn` is quiet. -/
theorem quiet_mdmFinalizeShtdwn : Quiet R m (mdmFinalizeShtdwn m) :=
  ((quiet_clientsInformAll (by decide)).trans quiet_recovSetState).trans quiet_mdmCloseFds

/-- The end of a shutdown is quiet. -/
theorem quiet_shutdownDone :
    Quiet R m (setMmgrState .mdmOff (mdmFinalizeShtdwn (timerStop .fmmo m))) :=
  (quiet_timerStop.trans quiet_mdmFinalizeShtdwn).trans (quiet_setMmgrState rfl)

/-- `ipc_event` is quiet. -/
theorem quiet_ipcEvent : Quiet R m (ipcEvent m) := by
  have hclose : Quiet R m (mdmCloseFds (clientsInformAll .eventModemDown .null m)) :=
    (quiet_clientsInformAll (by decide)).trans quiet_mdmCloseFds
  exact hclose.trans (quiet_informTft.trans
    (Quiet.ite (fun _ => quiet_shutdownDone) (fun _ => quiet_setMmgrState rfl)))

/-- Starting the flashing thread is quiet. -/
theorem quiet_startFlashing (h : startFlashing env m = some m') : Quiet R m m' := by
  simp only [startFlashing, mdmFlashStart] at h
  split at h
  · simp only [bind_eq_bind, bind_some, Bool.false_eq_true, if_false, some.injEq] at h
    exact h ▸ quiet_setMmgrState rfl
  · split at h
    · simp only [bind_eq_bind, bind_some, if_true, some.injEq] at h
      subst h
      exact quiet_flash.trans quiet_timerStart
    · simp at h

/-- A core dump is quiet. -/
theorem quiet_mcdCoreDump : Quiet R m (mcdCoreDump env m) := by
  have hclose : Quiet R m (closeIfOpen (timerStopAll (setMmgrState .mdmCoreDump m))) :=
    ((quiet_setMmgrState rfl).trans quiet_timerStopAll).trans quiet_closeIfOpen
  exact hclose.trans (quiet_setLinkState.trans (quiet_mdmMcdUnregister.trans
    (quiet_timerStart.trans (quiet_timerStart.trans ((quiet_clientsInformAll (by decide)).trans
        (Quiet.ite (fun _ => .refl) (fun _ => quiet_coreDumpPrepare)))))))

/-- A self reset is quiet. -/
theorem quiet_mcdSelfReset (h : mcdSelfReset env m = some m') : Quiet R m m' := by
  unfold mcdSelfReset at h
  have hunreg : Quiet R m (mdmMcdUnregister .warmBoot m) := quiet_mdmMcdUnregister
  refine hunreg.trans ?_
  dsimp only at h
  split at h
  · obtain ⟨result, -, hres⟩ := bind_eq_some_iff.mp h
    split at hres
    · rw [some.injEq] at hres
      subst hres
      exact (quiet_mcdrFinalize.trans (quiet_clientsInformAll (by decide))).trans
        (quiet_setMmgrState rfl)
    · rw [some.injEq] at hres
      exact hres ▸ .refl
  · split at h
    · rw [some.injEq] at h
      exact h ▸ quiet_shutdownDone
    · rw [some.injEq] at h
      subst h
      exact ((quiet_clientsInformAll (by decide)).trans (quiet_clientsInformAll (by decide))).trans
        (quiet_setMmgrState rfl)

/-- The modem found in core dump mode is quiet. -/
theorem quiet_busCdReady : Quiet R m (busCdReady env m) := by
  exact quiet_closeIfOpen.trans (quiet_setLinkState.trans
    (Quiet.ite (fun _ => quiet_coreDumpPrepare) (fun _ => .refl)))

/-- The modem found in core dump mode after a disconnection is quiet. -/
theorem quiet_busCdBack : Quiet R m (busCdBack env m) := by
  have hclose : Quiet R m (closeIfOpen (timerStopAll (setMmgrState .mdmCoreDump m))) :=
    ((quiet_setMmgrState rfl).trans quiet_timerStopAll).trans quiet_closeIfOpen
  exact hclose.trans (quiet_timerStart.trans
    ((quiet_clientsInformAll (by decide)).trans (quiet_setLinkState.trans quiet_coreDumpPrepare)))

/-- The modem gone from the bus is quiet. -/
theorem quiet_busBbGone : Quiet R m (busBbGone env m) := by
  have hclose : ∀ a : MmgrData, Quiet R a (if a.fdTty then mdmCloseFds a else a) := fun a =>
    Quiet.ite (fun _ => quiet_mdmCloseFds) (fun _ => .refl)
  exact quiet_isMdmBbReady.trans (Quiet.ite
    (fun _ => (quiet_clientsInformAll (by decide)).trans ((hclose _).trans
      (quiet_timerStop.trans (quiet_timerStart.trans (quiet_setMmgrState rfl)))))
    (fun _ => .refl))

/-! ## Modem states and bus changes -/

/-- What a modem state or a bus change does: something quiet, possibly followed by the
configuration of the modem if it is `ready`. -/
inductive ModemEffect (env : Env) (ready : Prop) (m m' : MmgrData) : Prop
  | quiet (h : Quiet nobody m m')
  | configure (hready : ready) (a : MmgrData) (hquiet : Quiet nobody m a) (hflash : a.flash = m.flash)
      (htty : a.fdTty = m.fdTty) (h : doConfigure env a = some m')

/-- A quiet change may come first. -/
theorem ModemEffect.after {ready ready' : Prop} {a : MmgrData} (himp : ready' → ready)
    (hquiet : Quiet nobody m a) (hflash : a.flash = m.flash) (htty : a.fdTty = m.fdTty)
    (h : ModemEffect env ready' a m') : ModemEffect env ready m m' := by
  cases h with
  | quiet h => exact .quiet (hquiet.trans h)
  | configure hready b hb hbflash hbtty h =>
    exact .configure (himp hready) b (hquiet.trans hb) (hbflash.trans hflash) (hbtty.trans htty) h

/-- The firmware request is quiet. -/
theorem quiet_mcdFwDownloadReady (h : mcdFwDownloadReady env m = some m') : Quiet R m m' := by
  unfold mcdFwDownloadReady at h
  have hlink : ∀ f, Quiet R m (mdmMcdUnregister .fwDownloadReady (setLinkState f m)) := fun f =>
    quiet_setLinkState.trans quiet_mdmMcdUnregister
  dsimp only at h
  split at h
  · exact (hlink _).trans (quiet_startFlashing h)
  · rw [some.injEq] at h
    exact h ▸ hlink _

/-- A ready modem may be configured. -/
theorem modemEffect_mcdIpcReady (h : mcdIpcReady env m = some m') :
    ModemEffect env (m.state = .mdmConfOngoing ∧ (m.cfg.bbType ≠ .usb ∨ m.linkState.bbReady))
      m m' := by
  unfold mcdIpcReady at h
  have hlink : ∀ f, Quiet nobody m (mdmMcdUnregister .ipcReady
      (setLinkState f (timerStop .waitForIpcReady m))) := fun f =>
    quiet_timerStop.trans (quiet_setLinkState.trans quiet_mdmMcdUnregister)
  dsimp only at h
  split at h
  · exact .configure ‹_› _ (hlink _) rfl rfl h
  · rw [some.injEq] at h
    exact .quiet (h ▸ hlink _)

/-- What a modem state reported by the driver does. -/
theorem modemEffect_modemControlEvent {st : McdState}
    (h : modemControlEvent env st m = some m') :
    ModemEffect env ((DaemonEvent.mcd st).configures m = true) m m' := by
  unfold modemControlEvent at h
  split at h
  · exact .quiet (quiet_mcdFwDownloadReady h)
  rename_i hfw
  split at h
  · rename_i hipc
    refine .after (fun hready => ?_) .refl rfl rfl (modemEffect_mcdIpcReady h)
    simpa [DaemonEvent.configures, hfw, hipc] using hready
  split at h
  · rw [some.injEq] at h
    exact .quiet (h ▸ quiet_mcdCoreDump)
  split at h
  · exact .quiet (quiet_mcdSelfReset h)
  · rw [some.injEq] at h
    exact .quiet (h ▸ .refl)

/-- The configuration of a modem found on the bus. -/
theorem modemEffect_configureIfReady (h : configureIfReady env m = some m') :
    ModemEffect env (m.linkState.ipcReady ∨ m.cfg.ipcReadyPresent = false) m m' := by
  unfold configureIfReady at h
  split at h
  · exact .configure ‹_› m .refl rfl rfl h
  · rw [some.injEq] at h
    exact .quiet (h ▸ .refl)

/-- The modem found while it is being configured. -/
theorem modemEffect_busBbReady (h : busBbReady env m = some m') :
    ModemEffect env (m.linkState.ipcReady ∨ m.cfg.ipcReadyPresent = false) m m' := by
  unfold busBbReady at h
  dsimp only at h
  refine .after (fun hready => ?_) ?_ ?_ ?_ (modemEffect_configureIfReady h)
  · exact hready
  · exact quiet_isMdmBbReady.trans (quiet_timerStop.trans quiet_setLinkState)
  · rfl
  · rfl

/-- The modem found after a disconnection. -/
theorem modemEffect_busBbBack (h : busBbBack env m = some m') :
    ModemEffect env (m.linkState.ipcReady ∨ m.cfg.ipcReadyPresent = false) m m' := by
  unfold busBbBack at h
  dsimp only at h
  refine .after (fun hready => ?_) ?_ ?_ ?_ (modemEffect_configureIfReady h)
  · exact hready
  · exact quiet_isMdmBbReady.trans
      (quiet_timerStop.trans (quiet_timerStop.trans quiet_setLinkState))
  · rfl
  · rfl

/-- The modem found in flashing mode is quiet. -/
theorem quiet_busFlashReady (h : busFlashReady env m = some m') : Quiet R m m' := by
  unfold busFlashReady at h
  have hlink : ∀ f, Quiet R m (setLinkState f (timerStop .waitForBusReady m)) := fun f =>
    quiet_timerStop.trans quiet_setLinkState
  dsimp only at h
  split at h
  · exact (hlink _).trans (quiet_startFlashing h)
  · rw [some.injEq] at h
    exact h ▸ hlink _

/-- What a bus change does. -/
theorem modemEffect_busEvents {evs : List BusEvent} (h : busEvents env evs m = some m') :
    ModemEffect env ((DaemonEvent.bus evs).configures m = true) m m' := by
  unfold busEvents at h
  dsimp only at h
  have hbus : Quiet nobody m { m with bus := (m.bus.hdleEvents m.cfg evs).2 } :=
    .same rfl rfl id rfl rfl ⟨rfl, rfl, rfl, rfl⟩
  split at h
  · rw [some.injEq] at h
    exact .quiet (h ▸ hbus)
  rename_i hours
  split at h
  · rename_i hbb
    refine .after (fun hready => ?_) hbus rfl rfl (modemEffect_busBbReady h)
    simpa [DaemonEvent.configures, hours, hbb.1, hbb.2] using hready
  split at h
  · rename_i hbb
    refine .after (fun hready => ?_) hbus rfl rfl (modemEffect_busBbBack h)
    simpa [DaemonEvent.configures, hours, hbb.1, hbb.2] using hready
  split at h
  · exact .quiet (hbus.trans (quiet_busFlashReady h))
  split at h
  · rw [some.injEq] at h
    exact .quiet (h ▸ hbus.trans quiet_busCdReady)
  split at h
  · rw [some.injEq] at h
    exact .quiet (h ▸ hbus.trans quiet_busCdBack)
  split at h
  · rw [some.injEq] at h
    exact .quiet (h ▸ hbus.trans quiet_busBbGone)
  · rw [some.injEq] at h
    exact .quiet (h ▸ hbus)

/-! ## Timeouts -/

section Timeouts

variable {type : TimerType} {ask : TimerAction → TimerAction} {f : MmgrData → MmgrData}
  {p : TimerAction × MmgrData}

/-- One test of `timer_event` is quiet when what it does is. -/
theorem quiet_onElapsed (hf : ∀ a, Quiet R a (f a)) (hp : Quiet R m p.2) :
    Quiet R m (onElapsed env type ask f p).2 := by
  unfold onElapsed
  split
  · exact (hp.trans (hf _)).trans quiet_timerStop
  · exact hp

/-- A test that does not ask for a shutdown. -/
theorem onElapsed_startMdmOff (hask : ∀ a, (ask a).startMdmOff = a.startMdmOff) :
    (onElapsed env type ask f p).1.startMdmOff = p.1.startMdmOff := by
  unfold onElapsed
  split
  · exact hask p.1
  · rfl

/-- A timeout is quiet as far as the timers go. -/
theorem quiet_timerEvent {st : MmgrState} {working : Bool} :
    Quiet R m (timerEvent env st working m).2 := by
  have hid : ∀ a : MmgrData, Quiet R a (id a) := fun a => .refl
  have hipc : ∀ a, Quiet R a (ipcReadyTimeout a) := fun a =>
    (quiet_clientsInformAll (by decide)).trans quiet_informTft
  have hbus : ∀ a, Quiet R a (busReadyTimeout st a) := fun a => quiet_informTft
  have hdump : ∀ a, Quiet R a (coreDumpReadyTimeout working a) := fun a =>
    Quiet.ite (fun _ => quiet_clientsInformAll (by decide)) (fun _ => .refl)
  unfold timerEvent
  apply quiet_onElapsed hid
  apply quiet_onElapsed hid
  apply quiet_onElapsed hid
  apply quiet_onElapsed hdump
  apply quiet_onElapsed hid
  apply quiet_onElapsed hid
  apply quiet_onElapsed hbus
  apply quiet_onElapsed hipc
  apply quiet_onElapsed hid
  exact quiet_onElapsed hid .refl

/-- The first test does not change whether the shutdown timer has elapsed. -/
theorem isElapsed_onElapsed_coldResetAck :
    (onElapsed env .coldResetAck ask id p).2.timer.isElapsed .modemShutdownAck env.boottime =
      p.2.timer.isElapsed .modemShutdownAck env.boottime := by
  unfold onElapsed
  split
  · rfl
  · rfl

/-- A timeout asks for a shutdown exactly when the shutdown timer has elapsed. -/
theorem timerEvent_startMdmOff {st : MmgrState} {working : Bool} :
    (timerEvent env st working m).1.startMdmOff =
      m.timer.isElapsed .modemShutdownAck env.boottime := by
  unfold timerEvent
  dsimp only
  -- the last eight tests ask for nothing, the first one neither
  rw [onElapsed_startMdmOff, onElapsed_startMdmOff, onElapsed_startMdmOff, onElapsed_startMdmOff,
    onElapsed_startMdmOff, onElapsed_startMdmOff, onElapsed_startMdmOff, onElapsed_startMdmOff,
    onElapsed, isElapsed_onElapsed_coldResetAck]
  · split
    · rename_i h
      exact h.symm
    · rename_i h
      rw [onElapsed_startMdmOff]
      · exact (Bool.eq_false_iff.mpr h).symm
      · exact fun _ => rfl
  all_goals exact fun _ => rfl

/-- The recovery asked for by a timeout is quiet. -/
theorem quiet_timeoutReset {action : TimerAction} : Quiet R m (timeoutReset action m) := by
  have hstream : Quiet R m
      (if action.streamline then setMmgrState .mdmReset (recovForce .noCount m) else m) :=
    Quiet.ite (fun _ => quiet_recovForce.trans (quiet_setMmgrState rfl)) (fun _ => .refl)
  exact hstream.trans (Quiet.ite (fun _ => quiet_setMmgrState rfl) (fun _ => .refl))

/-- The end of the core dump asked for by a timeout is quiet. -/
theorem quiet_timeoutMcdr {action : TimerAction} : Quiet R m (timeoutMcdr env action m) := by
  exact Quiet.ite (fun _ => quiet_mcdrFinalize.trans quiet_coreDumpFinalize) (fun _ => .refl)

/-- A timeout is quiet, or it asks for a shutdown because the shutdown timer has elapsed. -/
theorem timeoutEvent_cases (h : timeoutEvent env m = some m') :
    Quiet R m m' ∨ m.timer.isElapsed .modemShutdownAck env.boottime = true ∧
      ∃ a, Quiet R m a ∧ m' = setCliReq (fun _ => ⟨false, true, false⟩) a := by
  unfold timeoutEvent at h
  dsimp only at h
  obtain ⟨-, h⟩ := ite_none_left_eq_some.mp h
  rw [some.injEq] at h
  set p := timerEvent env m.state (m.state != .mdmLinkUsbDisc) m with hp
  have hquiet : Quiet R m (timeoutMcdr env p.1 (timeoutReset p.1 p.2)) :=
    (quiet_timerEvent.trans quiet_timeoutReset).trans quiet_timeoutMcdr
  unfold timeoutOff at h
  split at h
  · rename_i hoff
    rw [hp, timerEvent_startMdmOff] at hoff
    exact Or.inr ⟨hoff, _, hquiet, h.symm⟩
  · split at h
    · left
      subst h
      exact hquiet.trans ((quiet_informTft.trans quiet_mdmFinalizeShtdwn).trans
        (quiet_setMmgrState rfl))
    · exact Or.inl (h ▸ hquiet)

end Timeouts

/-! ## Threads and secured channel -/

/-- The result of the flashing is sent quietly. -/
theorem quiet_informFlashErr {err : ModemFwError} {attempts timer : Int} :
    Quiet R m (informFlashErr err attempts timer m) := by
  have hresult : Quiet R m (clientsInformAll .responseModemFwResult (.fwResult ⟨err⟩) m) :=
    quiet_clientsInformAll (by decide)
  unfold informFlashErr
  cases err with
  | readyTimeout => exact hresult
  | _ => exact hresult.trans quiet_informTft

/-- The end of the flashing is quiet, whatever its result. -/
theorem quiet_flashingEvent : Quiet R m (flashingEvent env m) := by
  have hfin : ∀ a, Quiet R a (mdmFlashFinalize a) := fun a => quiet_flash
  have hupgrade : ∀ a, Quiet R a
      (if a.flash.upgradeErrFlash || a.flash.upgradeErrTlv then informUpgradeErr a else a) :=
    fun a => Quiet.ite (fun _ => quiet_informTft) (fun _ => .refl)
  have hsucceed : ∀ a, Quiet R a (flashingSucceed env a) := by
    intro a
    have hconf : Quiet R a (setMmgrState .mdmConfOngoing (mdmFlashResetAttempts a)) :=
      quiet_flash.trans (quiet_setMmgrState rfl)
    exact hconf.trans ((Quiet.ite (fun _ => quiet_timerStart) (fun _ => .refl)).trans
      (Quiet.ite (fun _ => quiet_timerStart) (fun _ => .refl)))
  have hfailed : ∀ a, Quiet R a (flashingFailed a) := fun a =>
    (Quiet.ite (fun _ => quiet_recovForce) (fun _ => .refl)).trans (quiet_setMmgrState rfl)
  unfold flashingEvent
  exact quiet_timerStop.trans ((hfin _).trans (quiet_mdmMcdRegister.trans ((hupgrade _).trans
    (quiet_informFlashErr.trans (Quiet.ite (fun _ => hsucceed _) (fun _ => hfailed _))))))

/-- The end of the core dump thread is quiet. -/
theorem quiet_mcdrEvent : Quiet R m (mcdrEvent env m) :=
  quiet_timerStop.trans (Quiet.ite
    (fun _ => quiet_mcdrFinalize.trans quiet_coreDumpFinalize) (fun _ => .refl))

/-- An event of the secured channel is quiet. -/
theorem quiet_securityEvent : Quiet R m (securityEvent env m) := by
  unfold securityEvent
  split
  · exact .refl
  · exact quiet_informTft

/-! ## Requests -/

/-- Refusing a request is quiet. -/
theorem quiet_clientNack : Quiet R m (clientNack m) :=
  quiet_clientInform (by decide) (fun hack => absurd hack (by decide))

/-- Accepting a request is quiet. -/
theorem quiet_clientAck : Quiet m.requester m (clientInform .ack m) :=
  quiet_clientInform (by decide) (fun _ _ hfd => hfd)

/-- A recovery request is quiet. -/
theorem quiet_requestModemRecovery : Quiet m.requester m (requestModemRecovery m) := by
  have hnotify : ∀ a, Quiet m.requester a (notifyApReset a) := fun a =>
    quiet_clientsInformAll (by decide)
  exact quiet_clientAck.trans (Quiet.ite
    (fun _ => (quiet_setCliReq (by simp)).trans ((hnotify _).trans (quiet_setMmgrState rfl)))
    (fun _ => .refl))

/-- A restart request is quiet. -/
theorem quiet_requestModemRestart : Quiet m.requester m (requestModemRestart m) := by
  exact quiet_clientAck.trans ((Quiet.ite (fun _ => quiet_recovForce)
    (fun _ => (quiet_setCliReq (by simp)).trans quiet_recovForce)).trans (quiet_setMmgrState rfl))

/-- A backup request is quiet. -/
theorem quiet_requestBkupProd : Quiet m.requester m (requestBkupProd m) := by
  exact quiet_clientAck.trans ((quiet_setCliReq (by simp)).trans
    (quiet_recovForce.trans (quiet_setMmgrState rfl)))

/-- A fake request that does not announce a modem that is up is quiet. -/
theorem quiet_requestFake {ev : Event} {data : EventData} (h : ev ≠ .eventModemUp ∧ ev ≠ .ack) :
    Quiet m.requester m (clientsInformAll ev data (clientInform .ack m)) :=
  quiet_clientAck.trans (quiet_clientsInformAll h)

/-- The requests that a routine handler may accept. -/
def Request.routine : Request → Bool
  | .setName | .setEvents | .resourceAcquire | .resourceRelease | .requestForceModemShutdown
  | .ackModemColdReset | .ackModemShutdown | .requestModemFuseInfo | .requestModemGetHwId
  | .requestFakeUp => false
  | _ => true

/-- The client of the current request, if a routine handler may accept `req`. -/
def MmgrData.accepting (m : MmgrData) (req : Request) (fd : Int) : Prop :=
  req.routine = true ∧ m.requester fd

/-- What the handler of a request does: something quiet, or one of ten things. -/
inductive HandlerEffect (env : Env) (st : MmgrState) (m : MmgrData) : Request → MmgrData → Prop
  /-- A routine request, or one that is refused. -/
  | quiet {req : Request} {m' : MmgrData} (h : Quiet (m.accepting req) m m') :
      HandlerEffect env st m req m'
  /-- The client gives its name. -/
  | setName {m' : MmgrData} (h : requestSetName m = some m') : HandlerEffect env st m .setName m'
  /-- The client gives its filter. -/
  | setEvents : HandlerEffect env st m .setEvents (requestSetEvents m)
  /-- The resource is acquired while the modem is off. -/
  | wakeup {m' : MmgrData} (hst : st = .mdmOff)
      (h : resourceAcquireWakeupModem env m = some m') :
      HandlerEffect env st m .resourceAcquire m'
  /-- The resource is acquired while the modem is on. -/
  | acquire (hst : st = .mdmUp ∨ st = .mdmStart ∨ st = .mdmConfOngoing ∨ st = .waitColdAck) :
      HandlerEffect env st m .resourceAcquire (resourceAcquire m)
  /-- The resource is released while the modem is off or about to be. -/
  | releaseOff (hst : st = .mdmOff ∨ st = .waitShtAck) :
      HandlerEffect env st m .resourceRelease (requestResourceReleaseMdmOff m)
  /-- The resource is released while the modem is on. -/
  | release (hst : st = .mdmUp ∨ st = .waitColdAck) :
      HandlerEffect env st m .resourceRelease (requestResourceRelease env m)
  /-- A shutdown is forced. -/
  | forceShutdown (hst : st = .mdmUp) :
      HandlerEffect env st m .requestForceModemShutdown (requestForceModemShutdown env m)
  /-- A cold reset is acknowledged. -/
  | ackCold (hst : st = .waitColdAck) :
      HandlerEffect env st m .ackModemColdReset (requestAckColdReset env m)
  /-- A shutdown is acknowledged. -/
  | ackShutdown (hst : st = .waitShtAck) :
      HandlerEffect env st m .ackModemShutdown (requestAckModemShutdown m)
  /-- A fake modem up. -/
  | fakeUp (hfake : m.cfg.fakeRequests = true) :
      HandlerEffect env st m .requestFakeUp (requestFakeUp m)

/-- A handler given by a test, quiet in both branches, has a quiet effect. -/
theorem HandlerEffect.ofIte {st : MmgrState} {req : Request} {c : Prop} [Decidable c]
    {a b : MmgrData} (ha : c → HandlerEffect env st m req a)
    (hb : ¬ c → HandlerEffect env st m req b) (h : some (if c then a else b) = some m') :
    HandlerEffect env st m req m' := by
  rw [some.injEq] at h
  subst h
  split
  · exact ha ‹_›
  · exact hb ‹_›

/-- The effect of the handler of a request. -/
theorem handlerEffect_hdlerClient {st : MmgrState} {req : Request}
    (h : hdlerClient env st req m = some m') : HandlerEffect env st m req m' := by
  have hnack : ∀ r, HandlerEffect env st m r (clientNack m) := fun r => .quiet quiet_clientNack
  have hrout : ∀ {r : Request} {a : MmgrData}, r.routine = true → Quiet m.requester m a →
      HandlerEffect env st m r a := fun hr h => .quiet (h.mono fun _ hfd => ⟨hr, hfd⟩)
  cases req with
  | setName => exact .setName h
  | setEvents =>
    rw [hdlerClient, some.injEq] at h
    exact h ▸ .setEvents
  | resourceAcquire =>
    cases st with
    | mdmOff => exact .wakeup rfl h
    | mdmUp => exact some.inj h ▸ .acquire (by simp)
    | mdmStart => exact some.inj h ▸ .acquire (by simp)
    | mdmConfOngoing => exact some.inj h ▸ .acquire (by simp)
    | waitColdAck => exact some.inj h ▸ .acquire (by simp)
    | _ => exact some.inj h ▸ hnack _
  | resourceRelease =>
    cases st with
    | mdmOff => exact some.inj h ▸ .releaseOff (by simp)
    | waitShtAck => exact some.inj h ▸ .releaseOff (by simp)
    | mdmUp => exact some.inj h ▸ .release (by simp)
    | waitColdAck => exact some.inj h ▸ .release (by simp)
    | _ => exact some.inj h ▸ hnack _
  | requestModemRecovery =>
    cases st with
    | mdmUp => exact some.inj h ▸ hrout rfl quiet_requestModemRecovery
    | waitColdAck => exact some.inj h ▸ hrout rfl quiet_clientAck
    | _ => exact some.inj h ▸ hnack _
  | requestModemRestart =>
    exact .ofIte (fun _ => hrout rfl quiet_requestModemRestart) (fun _ => hnack _) h
  | requestForceModemShutdown => exact .ofIte .forceShutdown (fun _ => hnack _) h
  | ackModemColdReset => exact .ofIte .ackCold (fun _ => hnack _) h
  | ackModemShutdown => exact .ofIte .ackShutdown (fun _ => hnack _) h
  | requestModemFuseInfo => exact some.inj h ▸ hnack _
  | requestModemGetHwId => exact some.inj h ▸ hnack _
  | requestModemBackupProduction =>
    exact .ofIte (fun _ => hrout rfl quiet_requestBkupProd) (fun _ => hnack _) h
  | requestFakeUp => exact .ofIte .fakeUp (fun _ => hnack _) h
  | _ => exact .ofIte (fun _ => hrout rfl (quiet_requestFake (by decide))) (fun _ => hnack _) h

end HardwareIntel.Mmgr
