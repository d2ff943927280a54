import HardwareIntel.Mmgr.Requests

/-!
# Out of service is final, unless the flashing thread is running

When the modem is declared out of service every timer is stopped and the modem tty is closed, and
in this state no request, bus change, timeout or end of a core dump has an effect on the state.
Only the end of the flashing thread has: its handler does not look at the state. So the
declaration is final exactly when the flashing thread is not running.
-/

namespace HardwareIntel.Mmgr

open List Option

/-! ## Inert changes -/

/-- A request for the resource is answered with an acknowledgement. -/
def Obs.grantsResource : Obs → Bool
  | .sent _ (some .resourceAcquire) .ack _ _ => true
  | _ => false

/-- The change matters neither for the state nor for what could change it, and the resource is
not granted. -/
structure Inert (m m' : MmgrData) : Prop where
  state : m'.state = m.state
  reset : m'.reset = m.reset
  timer : m.timer.Idle → m'.timer.Idle
  fdTty : m'.fdTty = m.fdTty
  cliReq : m'.cliReq = m.cliReq
  flash : m'.flash = m.flash
  log : ∃ new, m'.log = new ++ m.log ∧ ∀ o ∈ new, o.grantsResource = false

section Inert

variable {env : Env} {m m' m'' : MmgrData}

/-- Nothing changes. -/
theorem Inert.refl : Inert m m := ⟨rfl, rfl, id, rfl, rfl, rfl, [], rfl, by simp⟩

/-- Inert changes compose. -/
theorem Inert.trans (h : Inert m m') (h' : Inert m' m'') : Inert m m'' := by
  obtain ⟨new, hnew, hok⟩ := h.log
  obtain ⟨new', hnew', hok'⟩ := h'.log
  refine ⟨h'.state.trans h.state, h'.reset.trans h.reset, h'.timer ∘ h.timer,
    h'.fdTty.trans h.fdTty, h'.cliReq.trans h.cliReq, h'.flash.trans h.flash, new' ++ new, ?_, ?_⟩
  · rw [hnew', hnew, append_assoc]
  · intro o ho
    rcases mem_append.mp ho with ho | ho
    · exact hok' o ho
    · exact hok o ho

/-- Both branches of a test. -/
theorem Inert.ite {c : Prop} [Decidable c] (hpos : c → Inert m m') (hneg : ¬ c → Inert m m'') :
    Inert m (if c then m' else m'') := by
  split
  · exact hpos ‹_›
  · exact hneg ‹_›

/-- Sending an event to all clients is inert. -/
theorem inert_clientsInformAll {ev : Event} {data : EventData} :
    Inert m (clientsInformAll ev data m) := by
  have hframe : Frame (fun o => o.grantsResource = false) m (clientsInformAll ev data m) :=
    frame_clientsInformAll fun _ => rfl
  exact ⟨rfl, rfl, id, rfl, rfl, rfl, hframe.log⟩

/-- An answer is inert, unless it grants the resource. -/
theorem inert_clientInform {ev : Event} (h : ev ≠ .ack ∨ m.request.id ≠ .resourceAcquire) :
    Inert m (clientInform ev m) := by
  refine ⟨rfl, rfl, id, rfl, rfl, rfl, _, rfl, fun o ho => ?_⟩
  cases hc : m.clients.get? m.request.client with
  | none => simp [hc] at ho
  | some c =>
    rw [hc, elim_some, messageTo] at ho
    split at ho
    · rw [mem_singleton.mp ho]
      unfold Obs.grantsResource
      split
      · rename_i heq
        simp only [Obs.sent.injEq, some.injEq] at heq
        rcases h with h | h
        · exact absurd heq.2.2.1 h
        · exact absurd heq.2.1 h
      · rfl
    · simp at ho

/-- An update of a client is inert. -/
theorem inert_onClient {f : Client → Client} : Inert m (onClient f m) :=
  ⟨rfl, rfl, id, rfl, rfl, rfl, [], rfl, by simp⟩

/-- A fake request is inert. -/
theorem inert_requestFake {ev : Event} {data : EventData} (h : m.request.id ≠ .resourceAcquire) :
    Inert m (clientsInformAll ev data (clientInform .ack m)) :=
  (inert_clientInform (Or.inr h)).trans inert_clientsInformAll

/-- In state `mdmOos` every request is inert. -/
theorem inert_hdlerClient {st : MmgrState} {req : Request} (hst : st = .mdmOos)
    (hid : m.request.id = req) (h : hdlerClient env st req m = some m') : Inert m m' := by
  subst hst
  have hnack : Inert m (clientNack m) := inert_clientInform (Or.inl (by decide))
  have hfake : ∀ {c : Prop} [Decidable c] {ev : Event} {data : EventData},
      m.request.id ≠ .resourceAcquire →
      some (if c then clientsInformAll ev data (clientInform .ack m) else clientNack m) = some m' →
        Inert m m' := by
    intro c _ ev data hne hsome
    rw [← some.inj hsome]
    exact Inert.ite (fun _ => inert_requestFake hne) (fun _ => hnack)
  cases req with
  | setName =>
    obtain ⟨-, h⟩ := ite_none_left_eq_some.mp h
    rw [← some.inj h]
    exact inert_onClient.trans (inert_clientInform (Or.inr (by simp [onClient, hid])))
  | setEvents =>
    rw [hdlerClient, some.injEq] at h
    subst h
    unfold requestSetEvents
    refine Inert.ite (fun _ => ?_) (fun _ => inert_clientInform (Or.inl (by decide)))
    exact (inert_onClient.trans (inert_clientInform (Or.inr (by simp [onClient, hid])))).trans
      (inert_clientInform (Or.inr (by simp [clientInform, onClient, hid])))
  | resourceAcquire => exact some.inj h ▸ hnack
  | resourceRelease => exact some.inj h ▸ hnack
  | requestModemRecovery => exact some.inj h ▸ hnack
  | requestModemRestart => exact some.inj h ▸ hnack
  | requestForceModemShutdown => exact some.inj h ▸ hnack
  | ackModemColdReset => exact some.inj h ▸ hnack
  | ackModemShutdown => exact some.inj h ▸ hnack
  | requestModemFuseInfo => exact some.inj h ▸ hnack
  | requestModemGetHwId => exact some.inj h ▸ hnack
  | requestModemBackupProduction => exact some.inj h ▸ hnack
  | _ => exact hfake (by simp [hid]) h

/-- What a client sends in state `mdmOos` is inert. -/
theorem inert_knownClient {fd : Int} {msg : ClientMsg} (hst : m.state = .mdmOos)
    (h : knownClient env fd msg m = some m') : Inert m m' := by
  have hsame : some m = some m' → Inert m m' := fun h => some.inj h ▸ .refl
  unfold knownClient at h
  split at h
  · exact hsame h
  · rename_i i _
    split at h
    · exact hsame h
    · rename_i c _
      cases msg with
      | incomplete => exact hsame h
      | invalid => exact hsame h
      | request id ts data =>
        dsimp only [clientRequest] at h
        split at h
        · exact hsame h
        · rename_i req _
          have hreceived : Inert m (received i c req ts data m) :=
            ⟨rfl, rfl, fun hidle => hidle, rfl, rfl, rfl, [_], rfl, by simp [Obs.grantsResource]⟩
          refine hreceived.trans ?_
          split at h
          · exact some.inj h ▸ inert_clientInform (Or.inl (by decide))
          · exact inert_hdlerClient hst rfl h
      | disconnected =>
        dsimp only [clientDisconnected] at h
        obtain ⟨a, ha, hrest⟩ := bind_eq_some_iff.mp h
        have hcurrent : Inert m { m with request := ⟨i, .resourceRelease, 0, []⟩ } :=
          ⟨rfl, rfl, id, rfl, rfl, rfl, [], rfl, by simp⟩
        have hremove : ∀ clients, Inert a { a with clients := clients } := fun _ =>
          ⟨rfl, rfl, id, rfl, rfl, rfl, [], rfl, by simp⟩
        rw [← some.inj hrest]
        exact (hcurrent.trans (inert_hdlerClient hst rfl ha)).trans (hremove _)

/-- A new client is inert. -/
theorem inert_newClient {fd : Int} : Inert m (newClient fd m) := by
  unfold newClient
  split
  · split
    · exact .refl
    · exact ⟨rfl, rfl, id, rfl, rfl, rfl, [_], rfl, by simp [Obs.grantsResource]⟩
  · exact .refl

/-- A bus change in state `mdmOos` is inert. -/
theorem inert_busEvents {evs : List BusEvent} (hst : m.state = .mdmOos)
    (h : busEvents env evs m = some m') : Inert m m' := by
  have hbus : ∀ b, Inert m { m with bus := b } := fun b =>
    ⟨rfl, rfl, id, rfl, rfl, rfl, [], rfl, by simp⟩
  have hgone : ∀ a : MmgrData, a.state = .mdmOos → Inert a (busBbGone env a) := by
    intro a ha
    unfold busBbGone
    dsimp only
    rw [if_neg (by simp [ha])]
    exact ⟨rfl, rfl, id, rfl, rfl, rfl, [], rfl, by simp⟩
  have hother : ∀ {p : Prop} {st : MmgrState}, st ≠ .mdmOos → ¬ (p ∧ m.state = st) := by
    rintro p st hne ⟨-, hcon⟩
    exact hne (hcon.symm.trans hst)
  unfold busEvents at h
  dsimp only at h
  split at h
  · exact some.inj h ▸ hbus _
  -- the modem is looked for in five states, none of which is this one
  · rw [if_neg (hother (by decide)), if_neg (hother (by decide)), if_neg (hother (by decide)),
      if_neg (hother (by decide)), if_neg (hother (by decide))] at h
    split at h
    · exact some.inj h ▸ (hbus _).trans (hgone _ hst)
    · exact some.inj h ▸ hbus _

/-- A timeout without armed timer does nothing. -/
theorem timeoutEvent_of_idle (hidle : m.timer.Idle) (h : timeoutEvent env m = some m') :
    m' = m := by
  have htest : ∀ (type : TimerType) (ask : TimerAction → TimerAction) (f : MmgrData → MmgrData),
      onElapsed env type ask f (.none, m) = (.none, m) := by
    intro type ask f
    have helapsed : m.timer.isElapsed type env.boottime = false :=
      MmgrTimer.isElapsed_of_not_armed (hidle type)
    simp [onElapsed, helapsed]
  have hevent : ∀ st working, timerEvent env st working m = (.none, m) := by
    intro st working
    simp only [timerEvent, htest]
  simp only [timeoutEvent, hevent] at h
  exact (some.inj h).symm

/-- The end of the core dump thread in state `mdmOos` is inert. -/
theorem inert_mcdrEvent (hst : m.state = .mdmOos) : Inert m (mcdrEvent env m) := by
  unfold mcdrEvent
  dsimp only
  rw [if_neg (by simp [timerStop, hst])]
  exact ⟨rfl, rfl, fun hidle => hidle.stop, rfl, rfl, rfl, [], rfl, by simp⟩

/-- An event of the secured channel is inert. -/
theorem inert_securityEvent : Inert m (securityEvent env m) := by
  unfold securityEvent
  split
  · exact .refl
  · exact inert_clientsInformAll

end Inert

/-! ## Out of service -/

/-- The modem is declared out of service. -/
def OutOfService (m : MmgrData) : Prop :=
  m.state = .mdmOos ∧ m.reset.level = .modemOutOfService

/-- The modem is out of service, and neither a timer nor the modem can change this. -/
structure Settled (m : MmgrData) : Prop where
  oos : OutOfService m
  idle : m.timer.Idle
  fdTty : m.fdTty = false
  off : m.cliReq.off = false

/-- An inert change leaves a settled daemon settled. -/
theorem Settled.inert {m m' : MmgrData} (h : Settled m) (hinert : Inert m m') : Settled m' where
  oos := ⟨hinert.state.trans h.oos.1, by rw [hinert.reset]; exact h.oos.2⟩
  idle := hinert.timer h.idle
  fdTty := hinert.fdTty.trans h.fdTty
  off := by rw [hinert.cliReq]; exact h.off

/-- The driver does not report modem states of a modem that is out of service. -/
def MasksMcd (m : MmgrData) : Input → Prop
  | .event _ (.mcd _) => ¬ OutOfService m
  | _ => True

/-- A step of a settled daemon is inert, apart from the flashing thread and the phase of the
loop. -/
theorem Settled.step {m m' : MmgrData} {x : Input} (h : Settled m) (hC : MasksMcd m x)
    (hstep : step m x = some m') :
    (∃ a b, Inert m a ∧ m' = { a with waiting := b }) ∨
      (∃ err, m.flash.thread = .running ∧ m' = mdmFlashPush err m) ∨
      (∃ env, m.flash.thread = .ended ∧ m' = { flashingEvent env m with waiting := false }) := by
  have hreset : m.state ≠ .mdmReset := by simp [h.oos.1]
  cases x with
  | head env =>
    simp only [Mmgr.step, loopHead, h.off, hreset, if_false, Bool.false_eq_true] at hstep
    split at hstep
    · simp at hstep
    · exact Or.inl ⟨m, true, .refl, by simpa using hstep.symm⟩
  | flashPush err =>
    simp only [Mmgr.step] at hstep
    split at hstep
    · exact Or.inr (Or.inl ⟨err, ‹_›, (some.inj hstep).symm⟩)
    · simp at hstep
  | event env ev =>
    obtain ⟨hwait, hstep⟩ := ite_none_right_eq_some.mp hstep
    have hen := (Bool.and_eq_true_iff.mp hwait).2
    obtain ⟨a, ha, rfl⟩ := map_eq_some_iff.mp hstep
    cases ev with
    | ipc => exact absurd hen (by simp [DaemonEvent.enabled, h.fdTty])
    | mcd st => exact absurd h.oos hC
    | bus evs => exact Or.inl ⟨a, false, inert_busEvents h.oos.1 ha, rfl⟩
    | newClient fd =>
      exact Or.inl ⟨a, false, some.inj ha ▸ inert_newClient, rfl⟩
    | client fd msg => exact Or.inl ⟨a, false, inert_knownClient h.oos.1 ha, rfl⟩
    | secur => exact Or.inl ⟨a, false, some.inj ha ▸ inert_securityEvent, rfl⟩
    | timeout =>
      have hsame : a = m := timeoutEvent_of_idle h.idle ha
      exact Or.inl ⟨a, false, hsame ▸ .refl, rfl⟩
    | flashing =>
      have hended : m.flash.thread = .ended := by simpa [DaemonEvent.enabled] using hen
      exact Or.inr (Or.inr ⟨env, hended, by rw [← some.inj ha]⟩)
    | mcdr => exact Or.inl ⟨a, false, some.inj ha ▸ inert_mcdrEvent h.oos.1, rfl⟩

/-- After the end of the flashing the daemon is in another state. -/
theorem flashingEvent_state {env : Env} {m : MmgrData} : (flashingEvent env m).state ≠ .mdmOos := by
  have hsucceed : ∀ a, (flashingSucceed env a).state = .mdmConfOngoing := by
    intro a
    unfold flashingSucceed
    dsimp only
    split <;> split <;> rfl
  have hfailed : ∀ a, (flashingFailed a).state = .mdmReset := fun a => rfl
  have hend : ∀ a : MmgrData, (if a.flash.flashErr = .succeed then flashingSucceed env a
      else flashingFailed a).state ≠ .mdmOos := by
    intro a
    split
    · simp [hsucceed]
    · simp [hfailed]
  exact hend _

/-! ## How the modem gets out of service -/

section Entry

variable {env : Env} {m m' : MmgrData}

/-- The last two operations stop the timers and close the modem. -/
theorem resetModemOperate_of_isFinal {level : EscalationLevel}
    (h : m.reset.level.isFinal = true) :
    (resetModemOperate env level m).timer.Idle ∧ (resetModemOperate env level m).fdTty = false := by
  unfold resetModemOperate
  dsimp only
  have hmdm : ∀ a, (hdlerMdm a).reset = a.reset ∧ (hdlerMdm a).timer = a.timer ∧
      (hdlerMdm a).fdTty = a.fdTty := by
    intro a
    unfold hdlerMdm
    split <;> exact ⟨rfl, rfl, rfl⟩
  have hfinal : ∀ evs, (hdlerMdm (mdmCloseFds (timerStopAll
      (mdmMcdRegister evs true m)))).reset.level.isFinal = true := by
    intro evs
    rw [(hmdm _).1]
    exact h
  rw [if_pos (hfinal _), (hmdm _).2.1, (hmdm _).2.2]
  exact ⟨MmgrTimer.idle_stopAll, rfl⟩

/-- The first half of a platform reboot ends on one of the last two levels. -/
theorem prePlatformReboot_isFinal (hlevel : m.reset.level = .platformReboot) :
    (prePlatformReboot env m).reset.level.isFinal = true := by
  unfold prePlatformReboot
  dsimp only
  split
  · have hnext : ((m.reset.setState .continue).next).level = .modemOutOfService :=
      ResetManagement.next_level_of_platform hlevel
    simp only [preModemOutOfService, onReset, setMmgrState, clientsInformAll,
      ResetManagement.setState] at hnext ⊢
    rw [hnext]
    rfl
  · simp only [onReset, setMmgrState, clientsInformAll, ResetManagement.setState,
      ResetManagement.setReboot, hlevel]
    rfl

/-- A recovery that declares the modem out of service leaves a settled daemon. -/
theorem ResetEffect.settled (h : ResetEffect env m m') (hst : m.state ≠ .mdmOos)
    (hoff : m.cliReq.off = false) (hoos : OutOfService m') : Settled m' := by
  have hoff' := h.off hoff
  cases h with
  | ask _ _ _ => exact absurd hoos.1 (by simp [askColdAck, timerStart, setMmgrState])
  | @coldReset clients a _ _ ha =>
    have hstate := hoos.1
    rw [resetModemOperate_mmgrState] at hstate
    rcases ha with rfl | rfl <;>
      rcases @continueColdReset_mmgrState (resetModemStart env m) with hc | hc <;>
        exact absurd (hc.symm.trans hstate) (by decide)
  | again _ _ =>
    have hstate := hoos.1
    rw [resetModemOperate_mmgrState, resetModemStart_mmgrState] at hstate
    exact absurd hstate hst
  | reboot hlevel =>
    obtain ⟨hidle, htty⟩ := resetModemOperate_of_isFinal (prePlatformReboot_isFinal hlevel)
    exact ⟨hoos, hidle, htty, hoff'⟩
  | outOfService hlevel =>
    have hfinal : (preModemOutOfService env (resetModemStart env m)).reset.level.isFinal =
        true := by
      simp [preModemOutOfService, onReset, ResetManagement.setState, setMmgrState,
        clientsInformAll, hlevel, EscalationLevel.isFinal]
    obtain ⟨hidle, htty⟩ := resetModemOperate_of_isFinal hfinal
    exact ⟨hoos, hidle, htty, hoff'⟩

/-- Without a change of the state and of the level the modem does not get out of service. -/
theorem not_outOfService_of_eq (h : ¬ OutOfService m) (hst : m'.state = m.state)
    (hlevel : m'.reset.level = m.reset.level) : ¬ OutOfService m' := by
  rintro ⟨hst', hlevel'⟩
  exact h ⟨hst ▸ hst', hlevel ▸ hlevel'⟩

/-- A quiet change does not put the modem out of service. -/
theorem not_outOfService_quiet (h : ¬ OutOfService m) {R : Int → Prop} (hquiet : Quiet R m m') :
    ¬ OutOfService m' := by
  rintro ⟨hst, hlevel⟩
  exact h ⟨hquiet.state_eq rfl hst, hquiet.escalation.level ▸ hlevel⟩

/-- Switching the modem on leaves a settled daemon, if the modem is declared out of service. -/
theorem settled_wakeup (hst : m.state = .mdmOff) (hoff : m.cliReq.off = false)
    (hstep : resourceAcquireWakeupModem env m = some m') (hoos : OutOfService m') :
    Settled m' := by
  obtain ⟨a, ha, hcases⟩ := resourceAcquireWakeupModem_cases hstep
  have hstate : a.state ≠ .mdmOos := by
    intro hcon
    have hcon' : m.state = .mdmOos := ha.state_eq rfl hcon
    simp [hst] at hcon'
  have hoff' : a.cliReq.off = false := by
    refine Bool.eq_false_iff.mpr fun hon => ?_
    have hcon : m.cliReq.off = true := ha.off hon
    simp [hoff] at hcon
  rcases hcases with rfl | rfl | ⟨-, -, heffect⟩
  · exact absurd hoos.1 hstate
  · have hframe : Frame (fun o => ∀ b, o ≠ .setState .mdmOos b) a (wakeupModem env a) :=
      frame_wakeupModem (by simp) (by simp) (by simp)
    rcases hframe.state with hsame | hok
    · exact absurd (hsame ▸ hoos.1) hstate
    · rw [hoos.1] at hok
      exact absurd rfl (hok _)
  · exact heffect.settled hstate hoff' hoos

/-- The requests by themselves do not put the modem out of service. -/
theorem requestRule_not_outOfService : RequestRule fun m => ¬ OutOfService m where
  quiet h hquiet := not_outOfService_quiet h hquiet
  client h := h
  setCliReq h := h
  waitShtAck _ hcon := absurd hcon.1 (by simp [setMmgrState])
  conclude h := h

/-- A request puts the modem out of service only by leaving a settled daemon. -/
theorem settled_request {req : Request} (h : ¬ OutOfService m) (hoff : m.cliReq.off = false)
    (heffect : HandlerEffect env m.state m req m') (hoos : OutOfService m') : Settled m' := by
  by_contra hnot
  exact requestRule_not_outOfService.request h heffect
    (fun ha _ => not_outOfService_of_eq ha rfl rfl)
    (fun _ hst hstep hoos => hnot (settled_wakeup hst hoff hstep hoos))
    (fun _ => not_outOfService_of_eq h rfl rfl) hoos

end Entry

/-! ## Whole runs -/

/-- A step that puts the modem out of service leaves a settled daemon. -/
theorem stepRule_settled :
    StepRule MasksMcd (fun m => ¬ OutOfService m) (fun m => OutOfService m → Settled m) where
  phase h hoos := ⟨hoos, (h hoos).idle, (h hoos).fdTty, (h hoos).off⟩
  quiet h _ hquiet hoos := absurd hoos (not_outOfService_quiet h hquiet)
  configure h _ _ _ hquiet _ _ hstep hoos := by
    have hnot := not_outOfService_quiet h hquiet
    rcases doConfigure_cases hstep with hquiet' | ⟨b, hb, -, rfl⟩
    · exact absurd hoos (not_outOfService_quiet hnot hquiet')
    · exact absurd hoos (not_outOfService_of_eq (not_outOfService_quiet hnot hb) rfl rfl)
  startShutdown {m env} h _ _ hoos := by
    unfold startShutdown at hoos
    dsimp only at hoos
    split at hoos
    · exact absurd hoos.1 (by simp [setMmgrState])
    · exact absurd hoos h
  resetModem {m m' env} _ _ hoff hst hstep hoos := by
    have hsettled : Settled m' := by
      refine (resetEffect_resetModem hstep).settled ?_ hoff hoos
      simp [hst]
    exact { hsettled with oos := hoos }
  shutdownTimeout h _ _ _ hquiet hoos := by
    have hnot := not_outOfService_quiet h hquiet
    exact absurd hoos hnot
  connect h _ _ _ hoos := absurd hoos h
  request h _ hoff _ _ _ _ heffect hoos :=
    settled_request (not_outOfService_quiet h (quiet_received (R := nobody))) hoff heffect hoos
  disconnect {m m' env fd i c} h _ hoff _ _ heffect hoos := by
    have hcurrent : ¬ OutOfService { m with request := ⟨i, .resourceRelease, 0, []⟩ } := h
    have hsettled : Settled m' := settled_request hcurrent hoff heffect hoos
    exact { hsettled with oos := hoos }

/-- In every run a modem that is out of service leaves a settled daemon. -/
theorem settled_of_reach {cfg : MmgrCfg} {time reboot : Int} {telephonyDisabled : Bool}
    {m : MmgrData} (hrun : Reach step MasksMcd (mmgrInit cfg time reboot telephonyDisabled) m) :
    OutOfService m → Settled m := by
  have hboth : (OutOfService m → Settled m) ∧ OffHandled m := by
    refine hrun.invariant (I := fun a => (OutOfService a → Settled a) ∧ OffHandled a) ?_ ?_
    · refine ⟨fun hoos => absurd hoos.1 ?_, offHandled_mmgrInit⟩
      cases telephonyDisabled <;> simp [mmgrInit]
    · intro a x b ha hC hstep
      refine ⟨?_, offHandled_step ha.2 hstep⟩
      by_cases hoos : OutOfService a
      · rcases (ha.1 hoos).step hC hstep with ⟨c, w, hinert, rfl⟩ | ⟨err, -, rfl⟩ | ⟨env, -, rfl⟩
        · have hsettled := (ha.1 hoos).inert hinert
          exact fun hoos' => { hsettled with oos := hoos' }
        · exact fun hoos' => ⟨hoos', (ha.1 hoos).idle, (ha.1 hoos).fdTty, (ha.1 hoos).off⟩
        · exact fun hoos' => absurd hoos'.1 flashingEvent_state
      · exact stepRule_settled.step hoos ha.2 hC hstep
  exact hboth.1

/-- The end of the flashing thread brings a settled daemon to another state. -/
theorem Settled.leaves_of_ended {m : MmgrData} (h : Settled m)
    (hended : m.flash.thread = .ended) :
    ∃ m', Reach Mmgr.step MasksMcd m m' ∧ m'.state ≠ .mdmOos := by
  obtain ⟨a, ha, hwait, hthread⟩ : ∃ a, Reach Mmgr.step MasksMcd m a ∧ a.waiting = true ∧
      a.flash.thread = .ended := by
    cases hw : m.waiting with
    | true => exact ⟨m, .refl, hw, hended⟩
    | false =>
      refine ⟨{ m with waiting := true }, ?_, rfl, hended⟩
      have hhead : Mmgr.step m (.head (calmEnv 0)) = some { m with waiting := true } := by
        simp [Mmgr.step, hw, loopHead, h.off, h.oos.1]
      have hmask : MasksMcd m (.head (calmEnv 0)) := trivial
      exact Reach.single hmask hhead
  have hevent : Mmgr.step a (.event (calmEnv 0) .flashing) =
      some { flashingEvent (calmEnv 0) a with waiting := false } := by
    simp [Mmgr.step, hwait, DaemonEvent.enabled, hthread, handle]
  have hmask : MasksMcd a (.event (calmEnv 0) .flashing) := trivial
  exact ⟨_, ha.tail hmask hevent, flashingEvent_state⟩

/-- From `m` to `m'` no request for the resource was granted. -/
def NoGrantSince (m m' : MmgrData) : Prop :=
  ∃ new, m'.log = new ++ m.log ∧ ∀ o ∈ new, o.grantsResource = false

/-- In every run, a modem that is out of service stays so and its resource is never granted again,
whatever happens, if and only if the flashing thread is not running. -/
theorem out_of_service_final_iff {cfg : MmgrCfg} {time reboot : Int} {telephonyDisabled : Bool}
    {m : MmgrData} (hrun : Reach step MasksMcd (mmgrInit cfg time reboot telephonyDisabled) m)
    (hoos : OutOfService m) :
    (∀ m', Reach step MasksMcd m m' → m'.state = .mdmOos ∧ NoGrantSince m m') ↔
      m.flash.flashOngoing = false := by
  have hsettled : Settled m := settled_of_reach hrun hoos
  constructor
  · intro hfinal
    cases hthread : m.flash.thread with
    | joined => simp [MdmFlash.flashOngoing, hthread]
    | ended =>
      obtain ⟨m', hrun', hst⟩ := hsettled.leaves_of_ended hthread
      exact absurd (hfinal m' hrun').1 hst
    | running =>
      have hpush : step m (.flashPush .succeed) = some (mdmFlashPush .succeed m) := by
        simp [step, hthread]
      have hpushed : Settled (mdmFlashPush .succeed m) :=
        { hsettled with }
      obtain ⟨m', hrun', hst⟩ := hpushed.leaves_of_ended rfl
      have hmask : MasksMcd m (.flashPush .succeed) := trivial
      exact absurd (hfinal m' ((Reach.single hmask hpush).trans hrun')).1 hst
  · intro hjoined m' hrun'
    have hthread : m.flash.thread = .joined := by
      simpa [MdmFlash.flashOngoing] using hjoined
    have hkept : Settled m' ∧ m'.flash.thread = .joined ∧ NoGrantSince m m' := by
      refine hrun'.invariant
        (I := fun a => Settled a ∧ a.flash.thread = .joined ∧ NoGrantSince m a)
        ⟨hsettled, hthread, [], rfl, by simp⟩ ?_
      rintro a x b ⟨ha, hthread, new, hnew, hnone⟩ hC hstep
      rcases ha.step hC hstep with ⟨c, w, hinert, rfl⟩ | ⟨err, hrunning, -⟩ | ⟨env, hended, -⟩
      · have hc := ha.inert hinert
        obtain ⟨new', hnew', hnone'⟩ := hinert.log
        refine ⟨{ hc with }, ?_, new' ++ new, ?_, ?_⟩
        · rw [← hthread, ← hinert.flash]
        · change c.log = _
          rw [hnew', hnew, append_assoc]
        · intro o ho
          rcases mem_append.mp ho with ho | ho
          · exact hnone' o ho
          · exact hnone o ho
      · simp [hthread] at hrunning
      · simp [hthread] at hended
    exact ⟨hkept.1.oos.1, hkept.2.2⟩

/-- The test for `MasksMcd`. -/
def masksMcd (m : MmgrData) : Input → Bool
  | .event _ (.mcd _) => !(m.state == .mdmOos && m.reset.level == .modemOutOfService)
  | _ => true

/-- The test is right. -/
theorem masksMcd_of_test (m : MmgrData) (x : Input) (h : masksMcd m x = true) : MasksMcd m x := by
  unfold MasksMcd
  split
  · rintro ⟨hst, hlevel⟩
    simp [masksMcd, hst, hlevel] at h
  · trivial

/-- Without telephony the modem is declared out of service at the start, for good. -/
theorem out_of_service_final_without_telephony :
    ∃ m, Reach step MasksMcd (mmgrInit hsiPlatform 0 0 true) m ∧ OutOfService m ∧
      ∀ m', Reach step MasksMcd m m' → m'.state = .mdmOos ∧ NoGrantSince m m' :=
  Reach.exists_of_check masksMcd_of_test (fun m hrun (h : m.state = .mdmOos ∧
      m.reset.level = .modemOutOfService ∧ m.flash.flashOngoing = false) =>
    ⟨⟨h.1, h.2.1⟩, (out_of_service_final_iff hrun ⟨h.1, h.2.1⟩).mpr h.2.2⟩)
    [.head (calmEnv 1)] (by decide)

/-- The firmware cannot be prepared. -/
def lostFirmwareEnv (sec : Int) : Env := { calmEnv sec with prepareReset := ⟨true, false, false⟩ }

/-- A core dump interrupts the flashing of the modem, and then the firmware cannot be prepared. -/
def lostDuringFlashing : List Input :=
  registration 1 7 0xffff ++
    [.head (calmEnv 2), .event { calmEnv 2 with prepare := ⟨true, true, true⟩ }
      (requestEvent 7 2)] ++
    iteration 3 (.mcd ⟨true, false, false, false⟩) ++
    iteration 4 (.mcd ⟨false, false, true, false⟩) ++ iteration 5 .mcdr ++
    [.head (lostFirmwareEnv 6)]

/-- While the flashing thread is running, the modem is declared out of service; then the thread
ends, the daemon goes on with the configuration of the modem and grants its resource. -/
theorem out_of_service_left :
    ∃ m m', Reach step MasksMcd (mmgrInit hsiPlatform 0 0 false) m ∧ OutOfService m ∧
      Reach step MasksMcd m m' ∧ m'.state ≠ .mdmOos ∧ ¬ NoGrantSince m m' := by
  let grants : MmgrData → ℕ := fun m => m.log.countP Obs.grantsResource
  obtain ⟨m, hrun, htest⟩ : ∃ m, Reach step MasksMcd (mmgrInit hsiPlatform 0 0 false) m ∧
      (decide (m.state = .mdmOos ∧ m.reset.level = .modemOutOfService) &&
        (exec step masksMcd m ([.flashPush .succeed, .event (calmEnv 7) .flashing] ++
          iteration 8 (requestEvent 7 2))).any fun m' =>
            decide (m'.state ≠ .mdmOos ∧ grants m < grants m')) = true :=
    Reach.exists_of_exec masksMcd_of_test lostDuringFlashing
      (by simp only [lostDuringFlashing, registration_eq]; decide)
  obtain ⟨hoos, hleave⟩ := Bool.and_eq_true_iff.mp htest
  have hoos := of_decide_eq_true hoos
  obtain ⟨m', hrun', htest'⟩ := Reach.exists_of_exec masksMcd_of_test _ hleave
  obtain ⟨hst, hlt⟩ := of_decide_eq_true htest'
  refine ⟨m, m', hrun, hoos, hrun', hst, ?_⟩
  rintro ⟨new, hnew, hnone⟩
  have hzero : new.countP Obs.grantsResource = 0 :=
    countP_eq_zero.mpr fun o ho => by simp [hnone o ho]
  have hsame : grants m' = grants m := by simp [grants, hnew, countP_append, hzero]
  omega

end HardwareIntel.Mmgr
