import HardwareIntel.Mmgr.OutOfService

/-!
# The escalation is bounded

A boot of the daemon makes the configured number of cold resets, counted from its start or from
the last time the modem was switched on for a client, before it goes on to the platform reboots.
The number of reboots survives the daemon, so it is bounded over all boots, and when it is used up
the modem is declared out of service.
-/

namespace HardwareIntel.Mmgr

open List

/-! ## The escalation after each part of a recovery -/

section Recovery

variable {env : Env} {m m' : MmgrData}

/-- The cold resets counted since the daemon was started or the modem switched on. -/
def coldResets (log : List Obs) : ℕ := countSince (· == .wakeUp) (· == .coldReset true) log

/-- The platform reboots of this boot. -/
def platformReboots (log : List Obs) : ℕ := log.countP (· == .platformReboot)

/-- The entry is not one of the escalation. -/
def Obs.keepsCount : Obs → Bool
  | .wakeUp | .coldReset _ | .platformReboot => false
  | _ => true

/-- The history grows by entries that are not of the escalation. -/
def LogExtends (m m' : MmgrData) : Prop :=
  ∃ new, m'.log = new ++ m.log ∧ ∀ o ∈ new, o.keepsCount = true

/-- Such entries do not count. -/
theorem LogExtends.counts (h : LogExtends m m') :
    coldResets m'.log = coldResets m.log ∧ platformReboots m'.log = platformReboots m.log := by
  obtain ⟨new, hnew, hkeeps⟩ := h
  constructor
  · rw [hnew]
    refine countSince_append fun o ho => ?_
    have hkept := hkeeps o ho
    cases o <;> simp_all [Obs.keepsCount]
  · have hzero : new.countP (· == .platformReboot) = 0 := by
      refine countP_eq_zero.mpr fun o ho => ?_
      have hkept := hkeeps o ho
      cases o <;> simp_all [Obs.keepsCount]
    rw [hnew, platformReboots, countP_append, hzero, Nat.zero_add]
    rfl

/-- Extensions compose. -/
theorem LogExtends.trans {m'' : MmgrData} (h : LogExtends m m') (h' : LogExtends m' m'') :
    LogExtends m m'' := by
  obtain ⟨new, hnew, hkeeps⟩ := h
  obtain ⟨new', hnew', hkeeps'⟩ := h'
  refine ⟨new' ++ new, by rw [hnew', hnew, append_assoc], fun o ho => ?_⟩
  rcases mem_append.mp ho with ho | ho
  · exact hkeeps' o ho
  · exact hkeeps o ho

/-- A frame whose entries are not of the escalation. -/
theorem Frame.logExtends {ok : Obs → Prop} (h : Frame ok m m')
    (hok : ∀ o, ok o → o.keepsCount = true) : LogExtends m m' := by
  obtain ⟨new, hnew, hall⟩ := h.log
  exact ⟨new, hnew, fun o ho => hok o (hall o ho)⟩

/-- A quiet change makes no entry of the escalation. -/
theorem Quiet.logExtends {R : Int → Prop} (h : Quiet R m m') : LogExtends m m' :=
  h.toFrame.logExtends fun o ho => by cases o <;> simp_all [Obs.routine, Obs.keepsCount]

/-- The head of a timely recovery only notes its time. -/
theorem resetModemStart_of_timely (hop : m.reset.op ≠ .oos)
    (hprepare : env.prepareReset.success = true)
    (htime : env.timeofday - m.reset.lastResetTime ≤ m.reset.resetDelay) :
    (resetModemStart env m).reset = { m.reset with lastResetTime := env.timeofday } ∧
      (resetModemStart env m).log = m.log := by
  unfold resetModemStart
  dsimp only
  rw [if_pos hprepare]
  exact ⟨ResetManagement.start_of_timely hop htime, rfl⟩

/-- Asking the clients does not move the escalation. -/
theorem askColdAck_escalation :
    m.reset.SameLevel (askColdAck env m).reset ∧ LogExtends m (askColdAck env m) := by
  refine ⟨⟨rfl, rfl, rfl, rfl⟩, ?_⟩
  have hreset : LogExtends m (onReset (·.setState .wait) m) := ⟨[], rfl, by simp⟩
  have hinform : ∀ (a : MmgrData) (ev : Event), LogExtends a (clientsInformAll ev .null a) :=
    fun a ev => Frame.logExtends (frame_clientsInformAll fun _ => rfl) fun o (ho : o.keepsCount) =>
      ho
  have hstate : ∀ a, LogExtends a (timerStart env .coldResetAck (setMmgrState .waitColdAck a)) :=
    fun a => ⟨[_], rfl, by simp [Obs.keepsCount]⟩
  exact hreset.trans ((hinform _ _).trans ((hinform _ _).trans (hstate _)))

/-- Going on with a cold reset does not move the escalation. -/
theorem continueColdReset_escalation :
    m.reset.SameLevel (continueColdReset m).reset ∧
      (continueColdReset m).reset.op = m.reset.op ∧ LogExtends m (continueColdReset m) :=
  ⟨⟨rfl, rfl, rfl, rfl⟩, rfl, [_], rfl, by simp [Obs.keepsCount]⟩

/-- A cold reset is noted and counted. -/
theorem resetModemOperate_of_cold {level : EscalationLevel}
    (hlevel : m.reset.level = .modemColdReset) :
    (resetModemOperate env level m).reset = m.reset.done ∧
      (resetModemOperate env level m).log = .coldReset (m.reset.op != .noCount) :: m.log := by
  have hdone : ∀ a, (resetModemDone env a).reset = a.reset.done ∧
      (resetModemDone env a).log = a.log := by
    intro a
    have htimer : ∀ (p : Prop) [Decidable p] (b : MmgrData) (t : TimerType),
        (if p then timerStart env t b else b).reset = b.reset ∧
          (if p then timerStart env t b else b).log = b.log := by
      intro p _ b t
      split <;> exact ⟨rfl, rfl⟩
    have hlink : ∀ (p : Prop) [Decidable p] (b : MmgrData),
        (if p then setLinkState (fun _ => .none) (timerStart env .waitForBusReady b)
          else b).reset = b.reset ∧
        (if p then setLinkState (fun _ => .none) (timerStart env .waitForBusReady b)
          else b).log = b.log := by
      intro p _ b
      split <;> exact ⟨rfl, rfl⟩
    unfold resetModemDone
    rw [(hlink _ _).1, (hlink _ _).2, (htimer _ _ _).1, (htimer _ _ _).2]
    exact ⟨rfl, rfl⟩
  have hmdm : ∀ a : MmgrData, a.reset.level = .modemColdReset →
      hdlerMdm a = observe (.coldReset (a.reset.op != .noCount)) a := by
    intro a ha
    unfold hdlerMdm
    split <;> simp_all
  unfold resetModemOperate
  dsimp only
  set a := mdmCloseFds (timerStopAll (mdmMcdRegister
    (if level.isFinal then [] else [.coredump]) true m)) with ha
  have hlevel' : a.reset.level = .modemColdReset := hlevel
  rw [hmdm a hlevel', if_neg (by simp [observe, hlevel', EscalationLevel.isFinal]),
    (hdone _).1, (hdone _).2]
  exact ⟨rfl, rfl⟩

/-- The last two operations are noted and leave the escalation alone. -/
theorem resetModemOperate_of_final {level : EscalationLevel}
    (h : m.reset.level.isFinal = true) :
    (resetModemOperate env level m).reset = m.reset ∧
      (resetModemOperate env level m).log =
        (if m.reset.level = .platformReboot then .platformReboot else .outOfService) :: m.log := by
  have hmdm : ∀ a : MmgrData, a.reset.level.isFinal = true → hdlerMdm a =
      observe (if a.reset.level = .platformReboot then .platformReboot else .outOfService) a := by
    intro a ha
    unfold hdlerMdm
    split <;> simp_all [EscalationLevel.isFinal]
  unfold resetModemOperate
  dsimp only
  set a := mdmCloseFds (timerStopAll (mdmMcdRegister
    (if level.isFinal then [] else [.coredump]) true m)) with ha
  have hfinal : ∀ o, (observe o a).reset.level.isFinal = true := fun _ => h
  rw [hmdm a h, if_pos (hfinal _)]
  exact ⟨rfl, rfl⟩

/-- The first half of a platform reboot counts it, as long as it is allowed. -/
theorem prePlatformReboot_escalation (hlevel : m.reset.level = .platformReboot) :
    (m.reset.getRetryAllowed ≤ m.reset.reboot ∧
      (prePlatformReboot env m).reset.level = .modemOutOfService ∧
      (prePlatformReboot env m).reset.reboot = m.reset.reboot ∨
    m.reset.reboot < m.reset.getRetryAllowed ∧
      (prePlatformReboot env m).reset.level = .platformReboot ∧
      (prePlatformReboot env m).reset.counter = m.reset.counter ∧
      (prePlatformReboot env m).reset.reboot = m.reset.reboot + 1) ∧
    (prePlatformReboot env m).reset.recov = m.reset.recov ∧
    LogExtends m (prePlatformReboot env m) := by
  have hcontinue : LogExtends m (onReset (·.setState .continue) m) := ⟨[], rfl, by simp⟩
  have hreset : ∀ a f, LogExtends a (onReset f a) := fun a f => ⟨[], rfl, by simp⟩
  have hinform : ∀ (a : MmgrData) (ev : Event), LogExtends a (clientsInformAll ev .null a) :=
    fun a ev => Frame.logExtends (frame_clientsInformAll fun _ => rfl) fun o (ho : o.keepsCount) =>
      ho
  have hstate : ∀ a, LogExtends a (setMmgrState .mdmOos a) := fun a =>
    ⟨[_], rfl, by simp [Obs.keepsCount]⟩
  unfold prePlatformReboot
  dsimp only
  split
  · rename_i hused
    have hnext : (m.reset.setState .continue).next.level = .modemOutOfService :=
      ResetManagement.next_level_of_platform hlevel
    refine ⟨Or.inl ⟨hused, hnext, rfl⟩, rfl, ?_⟩
    exact hcontinue.trans ((hreset _ _).trans ((hinform _ _).trans ((hstate _).trans (hreset _ _))))
  · rename_i hleft
    refine ⟨Or.inr ⟨not_le.mp hleft, hlevel, rfl, rfl⟩, rfl, ?_⟩
    exact hcontinue.trans ((hreset _ _).trans ((hinform _ _).trans (hstate _)))

/-- Switching the modem on starts the escalation anew. -/
theorem wakeupModem_escalation :
    (wakeupModem env m).reset = m.reset.reinit ∧
      ∃ st b, (wakeupModem env m).log = .wakeUp :: .setState st b :: m.log := by
  have htimer : ∀ (p : Prop) [Decidable p] (b : MmgrData) (t : TimerType),
      (if p then timerStart env t b else b).reset = b.reset ∧
        (if p then timerStart env t b else b).log = b.log := by
    intro p _ b t
    split <;> exact ⟨rfl, rfl⟩
  unfold wakeupModem
  rw [(htimer _ _ _).1, (htimer _ _ _).2, (htimer _ _ _).1, (htimer _ _ _).2]
  exact ⟨rfl, _, _, rfl⟩

end Recovery

/-! ## The invariant of one boot -/

/-- The state of the escalation in a boot that started with `n` platform reboots. -/
structure EscalationCounts (cfg : MmgrCfg) (n : Int) (m : MmgrData) : Prop where
  /-- The configuration is the one of the boot. -/
  recov : m.reset.recov = cfg.recov
  /-- The level has an operation. -/
  known : m.reset.level ≠ .unknown
  /-- The counter is the number of cold resets, and some are left. -/
  cold : m.reset.level = .modemColdReset →
    m.reset.counter = coldResets m.log ∧ m.reset.counter < cfg.recov.coldReset
  /-- All cold resets have been made. -/
  platform : m.reset.level = .platformReboot → (coldResets m.log : Int) = cfg.recov.coldReset
  /-- Every reboot is counted. -/
  reboot : m.reset.reboot = n + platformReboots m.log
  /-- The reboots are bounded. -/
  bounded : m.reset.reboot ≤ cfg.recov.reboot

namespace EscalationCounts

variable {cfg : MmgrCfg} {n : Int} {env : Env} {m m' : MmgrData}

section

variable (h : EscalationCounts cfg n m)
include h

/-- A change that does not move the escalation. -/
theorem same (hlevel : m.reset.SameLevel m'.reset) (hlog : LogExtends m m') :
    EscalationCounts cfg n m' := by
  obtain ⟨hcold, hreboots⟩ := hlog.counts
  refine ⟨hlevel.recov.trans h.recov, ?_, ?_, ?_, ?_, ?_⟩
  · rw [hlevel.level]
    exact h.known
  · rw [hlevel.level, hlevel.counter, hcold]
    exact h.cold
  · rw [hlevel.level, hcold]
    exact h.platform
  · rw [hlevel.reboot, hreboots]
    exact h.reboot
  · rw [hlevel.reboot]
    exact h.bounded

/-- A quiet change. -/
theorem quiet {R : Int → Prop} (hquiet : Quiet R m m') : EscalationCounts cfg n m' :=
  h.same hquiet.escalation hquiet.logExtends

/-- A change of the rest of the context. -/
theorem of_eq (hreset : m'.reset = m.reset) (hlog : m'.log = m.log) : EscalationCounts cfg n m' :=
  h.same (by rw [hreset]; exact ⟨rfl, rfl, rfl, rfl⟩) ⟨[], by simpa using hlog, by simp⟩

section

variable (henable : cfg.recov.enable = true)
include henable

/-- The levels are those of the configuration. -/
theorem escalates (hc : 0 < cfg.recov.coldReset) (hr : 0 < cfg.recov.reboot) :
    m.reset.Escalates cfg.recov.coldReset cfg.recov.reboot := by
  constructor
  · simp [ResetManagement.process, h.recov, RecoveryCfg.process, henable, hc, hr]
  · simp [ResetManagement.process, h.recov, RecoveryCfg.process, henable, hr]

/-- A cold reset is made: it is counted unless it was asked not to be, and the last one leads to
the platform reboots. -/
theorem coldReset (hc : 0 < cfg.recov.coldReset) (hr : 0 < cfg.recov.reboot)
    (hlevel : m.reset.level = .modemColdReset) (hreset : m'.reset = m.reset.done)
    (hlog : m'.log = .coldReset (m.reset.op != .noCount) :: m.log) :
    EscalationCounts cfg n m' := by
  have hesc := h.escalates henable hc hr
  obtain ⟨hcounter, hlt⟩ := h.cold hlevel
  have hreboots : platformReboots m'.log = platformReboots m.log := by
    simp [hlog, platformReboots]
  by_cases hop : m.reset.op = .noCount
  · have hcold : coldResets m'.log = coldResets m.log := by
      simp [hlog, coldResets, countSince, hop]
    rw [hesc.done_of_noCount hlevel hlt hop] at hreset
    refine ⟨?_, ?_, ?_, ?_, ?_, ?_⟩ <;> simp only [hreset, hcold, hreboots]
    · exact h.recov
    · exact h.known
    · exact h.cold
    · exact h.platform
    · exact h.reboot
    · exact h.bounded
  · have hcold : coldResets m'.log = coldResets m.log + 1 := by
      simp [hlog, coldResets, countSince, hop]
    by_cases hlast : m.reset.counter + 1 = cfg.recov.coldReset
    · rw [hesc.done_of_last hc hr hlevel hlast hop] at hreset
      refine ⟨?_, ?_, ?_, ?_, ?_, ?_⟩ <;> simp only [hreset, hcold, hreboots]
      · exact h.recov
      · decide
      · exact fun hcon => by cases hcon
      · intro _
        omega
      · exact h.reboot
      · exact h.bounded
    · have hnext : m.reset.counter + 1 < cfg.recov.coldReset := by omega
      rw [hesc.done_of_counted hlevel hnext hop] at hreset
      refine ⟨?_, ?_, ?_, ?_, ?_, ?_⟩ <;> simp only [hreset, hcold, hreboots]
      · exact h.recov
      · exact h.known
      · intro _
        omega
      · intro hcon
        rw [hlevel] at hcon
        cases hcon
      · exact h.reboot
      · exact h.bounded

/-- The reboots allowed are those of the configuration. -/
theorem getRetryAllowed (hr : 0 < cfg.recov.reboot) (hlevel : m.reset.level = .platformReboot) :
    m.reset.getRetryAllowed = cfg.recov.reboot := by
  simp [ResetManagement.getRetryAllowed, ResetManagement.process, hlevel, h.recov,
    RecoveryCfg.process, henable, hr]

/-- A platform reboot is made, or the modem is declared out of service instead. -/
theorem reboot_step (hr : 0 < cfg.recov.reboot) (hlevel : m.reset.level = .platformReboot) :
    EscalationCounts cfg n (resetModemOperate env .platformReboot (prePlatformReboot env m)) := by
  have hretry := h.getRetryAllowed henable hr hlevel
  obtain ⟨hcases, hrecov, hextends⟩ := @prePlatformReboot_escalation env m hlevel
  obtain ⟨hreset, hlog⟩ := @resetModemOperate_of_final env (prePlatformReboot env m)
    .platformReboot (prePlatformReboot_isFinal hlevel)
  obtain ⟨hcold, hreboots⟩ := hextends.counts
  rcases hcases with ⟨-, hoos, hsame⟩ | ⟨hlt, hplatform, -, hnext⟩
  · have hcounts : LogExtends (prePlatformReboot env m)
        (resetModemOperate env .platformReboot (prePlatformReboot env m)) :=
      ⟨[_], hlog, by simp [hoos, Obs.keepsCount]⟩
    obtain ⟨hcold', hreboots'⟩ := hcounts.counts
    refine ⟨?_, ?_, ?_, ?_, ?_, ?_⟩ <;> rw [hreset]
    · exact hrecov.trans h.recov
    · simp [hoos]
    · simp [hoos]
    · simp [hoos]
    · rw [hsame, hreboots', hreboots]
      exact h.reboot
    · rw [hsame]
      exact h.bounded
  · rw [if_pos hplatform] at hlog
    refine ⟨?_, ?_, ?_, ?_, ?_, ?_⟩ <;> rw [hreset]
    · exact hrecov.trans h.recov
    · simp [hplatform]
    · simp [hplatform]
    · intro _
      have hkept : coldResets (.platformReboot :: (prePlatformReboot env m).log) =
          coldResets (prePlatformReboot env m).log := by simp [coldResets, countSince]
      rw [hlog, hkept, hcold]
      exact h.platform hlevel
    · have hmore : platformReboots (.platformReboot :: (prePlatformReboot env m).log) =
          platformReboots (prePlatformReboot env m).log + 1 := by simp [platformReboots]
      rw [hnext, hlog, hmore, hreboots, h.reboot]
      omega
    · rw [hnext]
      omega

end

/-- A declaration that the modem is out of service. -/
theorem outOfService_step (hlevel : m.reset.level = .modemOutOfService) :
    EscalationCounts cfg n (resetModemOperate env .modemOutOfService (preModemOutOfService env m)) := by
  have hpre : LogExtends m (preModemOutOfService env m) := by
    have hinform : LogExtends m (clientsInformAll .eventModemOutOfService .null m) :=
      Frame.logExtends (frame_clientsInformAll fun _ => rfl) fun o (ho : o.keepsCount) => ho
    have hstate : ∀ a, LogExtends a (onReset (·.setState .continue) (setMmgrState .mdmOos a)) :=
      fun a => ⟨[_], rfl, by simp [Obs.keepsCount]⟩
    exact hinform.trans (hstate _)
  have hlevel' : (preModemOutOfService env m).reset.level = .modemOutOfService := hlevel
  obtain ⟨hreset, hlog⟩ := @resetModemOperate_of_final env (preModemOutOfService env m)
    .modemOutOfService (by rw [hlevel']; rfl)
  have hpost : LogExtends (preModemOutOfService env m)
      (resetModemOperate env .modemOutOfService (preModemOutOfService env m)) :=
    ⟨[_], hlog, by simp [hlevel', Obs.keepsCount]⟩
  refine h.same ?_ (hpre.trans hpost)
  rw [hreset]
  exact ⟨rfl, rfl, rfl, rfl⟩

/-- A timely recovery. -/
theorem reset (henable : cfg.recov.enable = true) (hc : 0 < cfg.recov.coldReset)
    (hr : 0 < cfg.recov.reboot) (hop : m.reset.op ≠ .oos)
    (hprepare : env.prepareReset.success = true)
    (htime : env.timeofday - m.reset.lastResetTime ≤ m.reset.resetDelay)
    (heffect : ResetEffect env m m') : EscalationCounts cfg n m' := by
  obtain ⟨hreset, hlog⟩ := resetModemStart_of_timely hop hprepare htime
  have hstart : EscalationCounts cfg n (resetModemStart env m) := by
    refine h.same ?_ ⟨[], by simpa using hlog, by simp⟩
    rw [hreset]
    exact ⟨rfl, rfl, rfl, rfl⟩
  cases heffect with
  | ask _ _ _ => exact hstart.same askColdAck_escalation.1 askColdAck_escalation.2
  | again hlevel _ =>
    obtain ⟨hdone, hentry⟩ := @resetModemOperate_of_cold env (resetModemStart env m)
      .modemColdReset hlevel
    exact hstart.coldReset henable hc hr hlevel hdone hentry
  | @coldReset clients a hlevel _ ha =>
    have hgo : EscalationCounts cfg n { a with clients := clients } ∧
        a.reset.level = .modemColdReset := by
      obtain ⟨hsame, -, hextends⟩ := @continueColdReset_escalation (resetModemStart env m)
      have hcontinue := hstart.same hsame hextends
      rcases ha with rfl | rfl
      · exact ⟨hcontinue.of_eq rfl rfl, hsame.level.trans hlevel⟩
      · exact ⟨hcontinue.of_eq rfl rfl, hsame.level.trans hlevel⟩
    obtain ⟨hdone, hentry⟩ := @resetModemOperate_of_cold env { a with clients := clients }
      .modemColdReset hgo.2
    exact hgo.1.coldReset henable hc hr hgo.2 hdone hentry
  | reboot hlevel => exact hstart.reboot_step henable hr hlevel
  | outOfService hlevel => exact hstart.outOfService_step hlevel

/-- The modem is switched on for a client. -/
theorem wakeup (henable : cfg.recov.enable = true) (hc : 0 < cfg.recov.coldReset)
    (hr : 0 < cfg.recov.reboot) :
    EscalationCounts cfg n (wakeupModem env m) := by
  obtain ⟨hreset, st, b, hlog⟩ := @wakeupModem_escalation env m
  have hcold : coldResets (wakeupModem env m).log = 0 := by simp [hlog, coldResets, countSince]
  have hreboots : platformReboots (wakeupModem env m).log = platformReboots m.log := by
    simp [hlog, platformReboots]
  rw [(h.escalates henable hc hr).reinit hc] at hreset
  refine ⟨?_, ?_, ?_, ?_, ?_, ?_⟩ <;> simp only [hreset, hcold, hreboots]
  · exact h.recov
  · decide
  · intro _
    exact ⟨rfl, hc⟩
  · exact fun hcon => by cases hcon
  · exact h.reboot
  · exact h.bounded

/-- Entering a state. -/
theorem setState (st : MmgrState) :
    EscalationCounts cfg n (setMmgrState st m) :=
  h.same ⟨rfl, rfl, rfl, rfl⟩ ⟨[_], rfl, by simp [Obs.keepsCount]⟩

/-- Sending an event. -/
theorem informAll (ev : Event) (data : EventData) :
    EscalationCounts cfg n (clientsInformAll ev data m) :=
  h.same ⟨rfl, rfl, rfl, rfl⟩
    (Frame.logExtends (frame_clientsInformAll fun _ => rfl) fun o (ho : o.keepsCount) => ho)

end

/-- The requests by themselves keep the counts. -/
theorem requestRule : RequestRule (EscalationCounts cfg n) where
  quiet h hquiet := h.quiet hquiet
  client h := h.of_eq rfl rfl
  setCliReq h := h.of_eq rfl rfl
  waitShtAck h := h.setState _
  conclude h := h.same ⟨rfl, rfl, rfl, rfl⟩ ⟨[_], rfl, by simp [Obs.keepsCount]⟩

/-- A request, the firmware being found if it switches the modem on. -/
theorem request (h : EscalationCounts cfg n m) {req : Request} (henable : cfg.recov.enable = true)
    (hc : 0 < cfg.recov.coldReset) (hr : 0 < cfg.recov.reboot)
    (hprepare : req = .resourceAcquire → m.state = .mdmOff → env.prepare.success = true)
    (heffect : HandlerEffect env m.state m req m') : EscalationCounts cfg n m' := by
  refine requestRule.request h heffect (fun ha _ => ha.same ⟨rfl, rfl, rfl, rfl⟩ ?_)
    (fun hreq hst hstep => ?_) fun _ => (h.quiet quiet_clientAck).informAll _ _
  · exact Frame.logExtends (frame_clientInform fun _ _ => rfl) fun o (ho : o.keepsCount) => ho
  · have hflag : EscalationCounts cfg n (onClient (Client.unsetRequest .resourceReleased) m) :=
      h.of_eq rfl rfl
    obtain ⟨a, ha, rfl | rfl | ⟨hfailed, -⟩⟩ := resourceAcquireWakeupModem_cases hstep
    · exact hflag.quiet ha
    · exact (hflag.quiet ha).wakeup henable hc hr
    · rw [hprepare hreq hst] at hfailed
      exact absurd hfailed (by decide)

end EscalationCounts

/-! ## Whole boots -/

/-- The head of the loop is about to make a recovery. -/
def ResetDue (m : MmgrData) : Prop := m.cliReq.off = false ∧ m.state = .mdmReset

/-- Every recovery comes soon enough after the last one, is not forced out of service, and finds
its firmware; so does the start of the modem. -/
def TimelyResets (m : MmgrData) : Input → Prop
  | .head env => ResetDue m → m.reset.op ≠ .oos ∧ env.prepareReset.success = true ∧
      env.timeofday - m.reset.lastResetTime ≤ m.reset.resetDelay
  | .event env (.client _ (.request id _ _)) =>
    Request.ofId id = some .resourceAcquire → m.state = .mdmOff → env.prepare.success = true
  | _ => True

/-- Every kind of step keeps the counts. -/
theorem stepRule_escalationCounts {cfg : MmgrCfg} {n : Int} (henable : cfg.recov.enable = true)
    (hc : 0 < cfg.recov.coldReset) (hr : 0 < cfg.recov.reboot) :
    StepRule TimelyResets (EscalationCounts cfg n) (EscalationCounts cfg n) where
  phase h := h.of_eq rfl rfl
  quiet h _ hquiet := h.quiet hquiet
  configure h _ _ _ hquiet _ _ hstep := by
    rcases doConfigure_cases hstep with hquiet' | ⟨b, hb, -, rfl⟩
    · exact (h.quiet hquiet).quiet hquiet'
    · exact (((h.quiet hquiet).quiet hb).informAll .eventModemUp .null).of_eq rfl rfl
  startShutdown {m env} h _ _ := by
    have hforget : EscalationCounts cfg n (mdmStartShtdwn (timerStart env .fmmo
        (setCliReq ({ · with off := false })
          { m with clients := clientsResetAckShtdwn m.clients }))) := h.of_eq rfl rfl
    unfold startShutdown
    dsimp only
    split
    · exact hforget.setState _
    · exact h.of_eq rfl rfl
  resetModem h hC hoff hst hstep := by
    obtain ⟨hop, hprepare, htime⟩ := hC ⟨hoff, hst⟩
    exact (h.reset henable hc hr hop hprepare htime (resetEffect_resetModem hstep)).of_eq rfl rfl
  shutdownTimeout h _ _ _ hquiet := (h.quiet hquiet).of_eq rfl rfl
  connect h _ _ _ := h.same ⟨rfl, rfl, rfl, rfl⟩ ⟨[_], rfl, by simp [Obs.keepsCount]⟩
  request h hC _ hreq _ _ _ heffect := by
    refine (h.quiet (quiet_received (R := nobody))).request henable hc hr ?_ heffect
    rintro rfl hst
    exact hC hreq hst
  disconnect {m m' env fd i c} h _ _ _ _ heffect := by
    have hcurrent : EscalationCounts cfg n { m with request := ⟨i, .resourceRelease, 0, []⟩ } :=
      h.of_eq rfl rfl
    have hreleased : EscalationCounts cfg n m' := by
      refine hcurrent.request henable hc hr ?_ heffect
      intro hcon
      exact nomatch hcon
    exact hreleased.of_eq rfl rfl

/-- The number of reboots that the next boot finds after the boots `ms`, newest first. -/
def persistedReboot : List MmgrData → Int
  | [] => 0
  | m :: _ => m.reset.reboot

/-- The platform reboots made in the boots `ms`. -/
def totalReboots (ms : List MmgrData) : ℕ := (ms.map fun m => platformReboots m.log).sum

/-- A sequence of boots with timely recoveries: the state reached by each of them, newest first. A
boot starts with the number of reboots that the last one has left. -/
inductive Boots (cfg : MmgrCfg) : List MmgrData → Prop
  | none : Boots cfg []
  | boot {ms : List MmgrData} {m : MmgrData} {time : Int} (earlier : Boots cfg ms)
      (run : Reach step TimelyResets (mmgrInit cfg time (persistedReboot ms) false) m) :
      Boots cfg (m :: ms)

section Boots

variable {cfg : MmgrCfg} {ms : List MmgrData} {n : Int} {env : Env} {m m' : MmgrData}

section

variable (henable : cfg.recov.enable = true) (hc : 0 < cfg.recov.coldReset)
  (hr : 0 < cfg.recov.reboot)
include henable hc hr

/-- A boot keeps the counts from its start on. -/
theorem escalationCounts_of_reach {time : Int} (hn : n ≤ cfg.recov.reboot)
    (hrun : Reach step TimelyResets (mmgrInit cfg time n false) m) : EscalationCounts cfg n m := by
  have hinit : EscalationCounts cfg n (mmgrInit cfg time n false) := by
    refine ⟨rfl, ?_, ?_, ?_, ?_, hn⟩
    · simp [mmgrInit, recovInit, henable]
    · intro _
      exact ⟨rfl, hc⟩
    · simp [mmgrInit, recovInit, henable]
    · simp [mmgrInit, recovInit, platformReboots]
  exact (stepRule_escalationCounts henable hc hr).reach hinit offHandled_mmgrInit hrun

/-- The persisted number is the number of reboots, and it is bounded. -/
theorem persistedReboot_of_boots (h : Boots cfg ms) :
    persistedReboot ms = totalReboots ms ∧ persistedReboot ms ≤ cfg.recov.reboot := by
  induction h with
  | none => exact ⟨rfl, hr.le⟩
  | @boot ms m time _ hrun ih =>
    have hcounts := escalationCounts_of_reach henable hc hr ih.2 hrun
    refine ⟨?_, hcounts.bounded⟩
    rw [persistedReboot, hcounts.reboot, ih.1]
    simp only [totalReboots, map_cons, sum_cons, Nat.cast_add]
    omega

/-- The counts of the last boot. -/
theorem escalationCounts_of_boots (h : Boots cfg (m :: ms)) :
    EscalationCounts cfg (persistedReboot ms) m := by
  cases h with
  | boot earlier hrun =>
    have hbound := (persistedReboot_of_boots henable hc hr earlier).2
    exact escalationCounts_of_reach henable hc hr hbound hrun

end

/-- The head of the loop makes the recovery that is due. -/
theorem resetEffect_of_step (hdue : ResetDue m) (hstep : step m (.head env) = some m') :
    ∃ a, ResetEffect env m a ∧ m'.state = a.state ∧ m'.reset = a.reset ∧ m'.log = a.log := by
  obtain ⟨-, hstep⟩ := Option.ite_none_left_eq_some.mp hstep
  obtain ⟨b, hb, rfl⟩ := Option.map_eq_some_iff.mp hstep
  unfold loopHead at hb
  rw [if_neg (by simp [hdue.1]), if_pos hdue.2] at hb
  obtain ⟨a, ha, rfl⟩ := Option.map_eq_some_iff.mp hb
  exact ⟨a, resetEffect_resetModem ha, rfl, rfl, rfl⟩

/-- The escalation at the head of a timely recovery. -/
theorem start_of_step (hcounts : EscalationCounts cfg n m) (hdue : ResetDue m)
    (htimely : TimelyResets m (.head env)) :
    EscalationCounts cfg n (resetModemStart env m) ∧
      (resetModemStart env m).reset = { m.reset with lastResetTime := env.timeofday } ∧
      (resetModemStart env m).log = m.log := by
  obtain ⟨hop, hprepare, htime⟩ := htimely hdue
  obtain ⟨hreset, hlog⟩ := resetModemStart_of_timely hop hprepare htime
  refine ⟨hcounts.same ?_ ⟨[], by simpa using hlog, by simp⟩, hreset, hlog⟩
  rw [hreset]
  exact ⟨rfl, rfl, rfl, rfl⟩

/-- A timely recovery at the level of the platform reboots makes one, or declares the modem out of
service when they are used up. -/
theorem reboot_of_step (hcounts : EscalationCounts cfg n m) (henable : cfg.recov.enable = true)
    (hr : 0 < cfg.recov.reboot) (hdue : ResetDue m) (htimely : TimelyResets m (.head env))
    (hlevel : m.reset.level = .platformReboot) (hstep : step m (.head env) = some m') :
    (m.reset.reboot < cfg.recov.reboot ∧ m'.reset.level = .platformReboot ∧
      m'.reset.counter = m.reset.counter ∧ platformReboots m'.log = platformReboots m.log + 1) ∨
    (cfg.recov.reboot ≤ m.reset.reboot ∧ OutOfService m') := by
  obtain ⟨hstart, hreset, hlog⟩ := start_of_step hcounts hdue htimely
  obtain ⟨a, heffect, hst', hreset', hlog'⟩ := resetEffect_of_step hdue hstep
  have hlevel' : (resetModemStart env m).reset.level = .platformReboot := by rw [hreset]; exact hlevel
  have ha : a = resetModemOperate env .platformReboot
      (prePlatformReboot env (resetModemStart env m)) := by
    cases heffect with
    | reboot _ => rfl
    | ask hcon _ _ => exact absurd (hlevel'.symm.trans hcon) (by decide)
    | coldReset hcon _ _ => exact absurd (hlevel'.symm.trans hcon) (by decide)
    | again hcon _ => exact absurd (hlevel'.symm.trans hcon) (by decide)
    | outOfService hcon => exact absurd (hlevel'.symm.trans hcon) (by decide)
  obtain ⟨hop, hentry⟩ := @resetModemOperate_of_final env
    (prePlatformReboot env (resetModemStart env m)) .platformReboot
    (prePlatformReboot_isFinal hlevel')
  obtain ⟨hcases, -, hextends⟩ := @prePlatformReboot_escalation env (resetModemStart env m) hlevel'
  rw [hstart.getRetryAllowed henable hr hlevel'] at hcases
  have hreboot : (resetModemStart env m).reset.reboot = m.reset.reboot := by rw [hreset]
  rw [hreset', ha, hop, hlog', ha, hentry]
  rcases hcases with ⟨hused, hoos, -⟩ | ⟨hlt, hplatform, hcounter, -⟩
  · right
    rw [hreboot] at hused
    refine ⟨hused, ?_, ?_⟩
    · rw [hst', ha, resetModemOperate_mmgrState, prePlatformReboot_mmgrState]
    · rw [hreset', ha, hop, hoos]
  · left
    rw [hreboot] at hlt
    refine ⟨hlt, hplatform, ?_, ?_⟩
    · rw [hcounter, hreset]
    · rw [if_pos hplatform, ← hlog, ← hextends.counts.2]
      simp [platformReboots]

/-- A timely recovery that is not counted moves the escalation at most from the platform reboots,
when they are used up. -/
theorem noCount_of_step (hcounts : EscalationCounts cfg n m) (henable : cfg.recov.enable = true)
    (hc : 0 < cfg.recov.coldReset) (hr : 0 < cfg.recov.reboot) (hdue : ResetDue m)
    (htimely : TimelyResets m (.head env)) (hop : m.reset.op = .noCount)
    (hleft : m.reset.level = .platformReboot → m.reset.reboot < cfg.recov.reboot)
    (hstep : step m (.head env) = some m') :
    m'.reset.level = m.reset.level ∧ m'.reset.counter = m.reset.counter := by
  obtain ⟨hstart, hreset, hlog⟩ := start_of_step hcounts hdue htimely
  obtain ⟨a, heffect, hst', hreset', hlog'⟩ := resetEffect_of_step hdue hstep
  have hsame : ∀ b : MmgrData, (resetModemStart env m).reset.SameLevel b.reset →
      b.reset.level = m.reset.level ∧ b.reset.counter = m.reset.counter := by
    intro b hb
    rw [hb.level, hb.counter, hreset]
    exact ⟨rfl, rfl⟩
  have hcold : ∀ b : MmgrData, EscalationCounts cfg n b → b.reset.level = .modemColdReset →
      b.reset.op = .noCount → (resetModemStart env m).reset.SameLevel b.reset →
        (resetModemOperate env .modemColdReset b).reset.level = m.reset.level ∧
          (resetModemOperate env .modemColdReset b).reset.counter = m.reset.counter := by
    intro b hb hlevel hbop hbsame
    rw [(resetModemOperate_of_cold hlevel).1, (hb.escalates henable hc hr).done_of_noCount hlevel
      (hb.cold hlevel).2 hbop]
    exact hsame b hbsame
  have hop' : (resetModemStart env m).reset.op = .noCount := by rw [hreset]; exact hop
  rw [hreset']
  cases heffect with
  | ask _ _ _ => exact hsame _ askColdAck_escalation.1
  | again hlevel _ => exact hcold _ hstart hlevel hop' ⟨rfl, rfl, rfl, rfl⟩
  | @coldReset clients b hlevel _ hb =>
    obtain ⟨hgo, hgoOp, hextends⟩ := @continueColdReset_escalation (resetModemStart env m)
    have hcontinue := hstart.same hgo hextends
    rcases hb with rfl | rfl
    · exact hcold _ (hcontinue.of_eq rfl rfl) (hgo.level.trans hlevel) (hgoOp.trans hop') hgo
    · exact hcold _ (hcontinue.of_eq rfl rfl) (hgo.level.trans hlevel) (hgoOp.trans hop') hgo
  | reboot hlevel =>
    have hlevel' : m.reset.level = .platformReboot := by rw [← hlevel, hreset]
    rcases reboot_of_step hcounts henable hr hdue htimely hlevel' hstep with
      ⟨-, hplatform, hcounter, -⟩ | ⟨hused, -⟩
    · rw [← hreset', hplatform, hcounter, hlevel']
      exact ⟨rfl, rfl⟩
    · exact absurd (hleft hlevel') (not_lt.mpr hused)
  | outOfService hlevel =>
    have hfinal : (preModemOutOfService env (resetModemStart env m)).reset.level.isFinal =
        true := by
      change (resetModemStart env m).reset.level.isFinal = true
      rw [hlevel]
      rfl
    rw [(resetModemOperate_of_final hfinal).1]
    exact hsame _ ⟨rfl, rfl, rfl, rfl⟩

end Boots

/-- Whatever the number of boots: a boot makes exactly the configured number of cold resets since
its start, or since the modem was last switched on, before it goes on to the platform reboots; the
reboots of all boots are bounded by the configured number; a recovery at the level of the platform
reboots makes one more while some are left, and otherwise declares the modem out of service; and a
recovery that is not counted changes the level and the counter only in this last case. -/
theorem escalation_bounded {cfg : MmgrCfg} {ms : List MmgrData} {m : MmgrData}
    (henable : cfg.recov.enable = true) (hc : 0 < cfg.recov.coldReset)
    (hr : 0 < cfg.recov.reboot) (hboots : Boots cfg (m :: ms)) :
    (m.reset.level = .modemColdReset → (coldResets m.log : Int) < cfg.recov.coldReset) ∧
    (m.reset.level = .platformReboot → (coldResets m.log : Int) = cfg.recov.coldReset) ∧
    (totalReboots (m :: ms) : Int) ≤ cfg.recov.reboot ∧
    ∀ env m', ResetDue m → TimelyResets m (.head env) → step m (.head env) = some m' →
      (m.reset.level = .platformReboot → (totalReboots (m :: ms) : Int) < cfg.recov.reboot →
        totalReboots (m' :: ms) = totalReboots (m :: ms) + 1) ∧
      (m.reset.level = .platformReboot → (totalReboots (m :: ms) : Int) = cfg.recov.reboot →
        OutOfService m') ∧
      (m.reset.op = .noCount →
        (m.reset.level = .platformReboot → (totalReboots (m :: ms) : Int) < cfg.recov.reboot) →
        m'.reset.level = m.reset.level ∧ m'.reset.counter = m.reset.counter) := by
  have hcounts := escalationCounts_of_boots henable hc hr hboots
  obtain ⟨htotal, hbounded⟩ := persistedReboot_of_boots henable hc hr hboots
  change m.reset.reboot = _ at htotal
  have htotal' : ∀ a : MmgrData, totalReboots (a :: ms) = platformReboots a.log + totalReboots ms :=
    fun a => by simp [totalReboots]
  refine ⟨fun hlevel => ?_, hcounts.platform, htotal ▸ hbounded, fun env m' hdue htimely hstep => ?_⟩
  · obtain ⟨hcounter, hlt⟩ := hcounts.cold hlevel
    omega
  rw [← htotal]
  refine ⟨fun hlevel hlt => ?_, fun hlevel hused => ?_, fun hop hleft => ?_⟩
  · rcases reboot_of_step hcounts henable hr hdue htimely hlevel hstep with
      ⟨-, -, -, hmore⟩ | ⟨hcon, -⟩
    · rw [htotal', htotal', hmore]
      omega
    · omega
  · rcases reboot_of_step hcounts henable hr hdue htimely hlevel hstep with
      ⟨hcon, -⟩ | ⟨-, hoos⟩
    · omega
    · exact hoos
  · exact noCount_of_step hcounts henable hc hr hdue htimely hop hleft hstep

/-! ## Runs of a small platform -/

/-- A platform that allows two cold resets and one reboot. -/
def smallEscalation : MmgrCfg := { hsiPlatform with recov := ⟨true, 2, 1, 600⟩ }

/-- The test for `TimelyResets`. -/
def timelyResets (m : MmgrData) : Input → Bool
  | .head env => m.cliReq.off || m.state != .mdmReset ||
      (m.reset.op != .oos && env.prepareReset.success &&
        decide (env.timeofday - m.reset.lastResetTime ≤ m.reset.resetDelay))
  | .event env (.client _ (.request id _ _)) =>
    Request.ofId id != some .resourceAcquire || m.state != .mdmOff || env.prepare.success
  | _ => true

/-- The test is right. -/
theorem timelyResets_of_test (m : MmgrData) (x : Input) (h : timelyResets m x = true) :
    TimelyResets m x := by
  unfold TimelyResets
  split
  · rintro ⟨hoff, hst⟩
    simpa [timelyResets, hoff, hst, and_assoc] using h
  · intro hreq hst
    simpa [timelyResets, hreq, hst] using h
  · trivial

/-- The client behind `7` starts the modem at second `sec`. -/
def modemStart (sec : Int) : List Input :=
  iteration sec (requestEvent 7 2) ++ iteration sec ipcReadyEvent

/-- The client asks for a recovery at second `sec`, acknowledges it, and the modem gets up. -/
def modemRecovery (sec : Int) : List Input :=
  iteration sec (requestEvent 7 4) ++ iteration sec (requestEvent 7 7) ++
    iteration sec ipcReadyEvent

/-- The client releases the resource at second `sec`, and the modem is switched off. -/
def modemStop (sec : Int) : List Input :=
  iteration sec (requestEvent 7 3) ++ iteration sec (requestEvent 7 8) ++ iteration sec .ipc

/-- A boot that makes its two cold resets. -/
theorem escalation_bounded_run :
    ∃ m, Boots smallEscalation [m] ∧ m.reset.level = .platformReboot ∧
      (coldResets m.log : Int) = smallEscalation.recov.coldReset := by
  obtain ⟨m, hrun, hlevel⟩ : ∃ m, Reach step TimelyResets (mmgrInit smallEscalation 0 0 false) m ∧
      decide (m.reset.level = .platformReboot) = true :=
    Reach.exists_of_exec timelyResets_of_test (registration 1 7 0xffff ++ modemStart 2 ++
      modemRecovery 3 ++ modemRecovery 4) (by simp only [registration_eq]; decide)
  have hlevel := of_decide_eq_true hlevel
  have hboots : Boots smallEscalation [m] := .boot .none hrun
  exact ⟨m, hboots, hlevel, (escalation_bounded rfl (by decide) (by decide) hboots).2.1 hlevel⟩

/-- A boot can make three cold resets before the reboots although two are configured, because the
modem was switched off and on in between; and a recovery that is not counted changes the level,
because the only reboot was made in an earlier boot. -/
theorem escalation_restarted :
    (∃ m, Reach step (fun m x => TimelyResets m x ∧ m.reset.op = .none)
        (mmgrInit smallEscalation 0 0 false) m ∧ m.reset.level = .platformReboot ∧
      (m.log.countP (· == .coldReset true) : Int) ≠ smallEscalation.recov.coldReset) ∧
    (∃ m m' env, Reach step TimelyResets (mmgrInit smallEscalation 0 1 false) m ∧ ResetDue m ∧
      TimelyResets m (.head env) ∧ m.reset.op = .noCount ∧ step m (.head env) = some m' ∧
      m'.reset.level ≠ m.reset.level) := by
  constructor
  · have hok : ∀ m x, (timelyResets m x && m.reset.op == .none) = true →
        TimelyResets m x ∧ m.reset.op = .none := by
      intro m x h
      obtain ⟨htimely, hop⟩ := Bool.and_eq_true_iff.mp h
      exact ⟨timelyResets_of_test m x htimely, by simpa using hop⟩
    obtain ⟨m, hrun, htest⟩ : ∃ m, Reach step (fun m x => TimelyResets m x ∧ m.reset.op = .none)
        (mmgrInit smallEscalation 0 0 false) m ∧
        decide (m.reset.level = .platformReboot ∧
          (m.log.countP (· == .coldReset true) : Int) ≠ smallEscalation.recov.coldReset) = true :=
      Reach.exists_of_exec hok (registration 1 7 0xffff ++ modemStart 2 ++ modemRecovery 3 ++
        modemStop 4 ++ modemStart 5 ++ modemRecovery 6 ++ modemRecovery 7)
        (by simp only [registration_eq]; decide)
    exact ⟨m, hrun, of_decide_eq_true htest⟩
  · obtain ⟨m, hrun, htest⟩ : ∃ m, Reach step TimelyResets
        (mmgrInit smallEscalation 0 1 false) m ∧
        (decide ((m.cliReq.off = false ∧ m.state = .mdmReset) ∧ m.reset.op = .noCount) &&
          timelyResets m (.head (calmEnv 5)) && (step m (.head (calmEnv 5))).any fun m' =>
            decide (m'.reset.level ≠ m.reset.level)) = true :=
      Reach.exists_of_exec timelyResets_of_test (registration 1 7 0xffff ++ modemStart 2 ++
        modemRecovery 3 ++ modemRecovery 4 ++ iteration 5 (requestEvent 7 5))
        (by simp only [registration_eq]; decide)
    simp only [Bool.and_eq_true] at htest
    obtain ⟨⟨hdue, htimely⟩, hchange⟩ := htest
    obtain ⟨hdue, hop⟩ := of_decide_eq_true hdue
    obtain ⟨m', hstep, hlevel⟩ := (Option.any_eq_true ..).mp hchange
    exact ⟨m, m', _, hrun, hdue, timelyResets_of_test _ _ htimely, hop, hstep,
      of_decide_eq_true hlevel⟩

end HardwareIntel.Mmgr
