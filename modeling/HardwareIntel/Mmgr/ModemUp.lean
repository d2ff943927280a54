import HardwareIntel.Mmgr.Requests

/-!
# The modem is announced when it is up

`E_MMGR_EVENT_MODEM_UP` is sent to a client that registers while the modem is up, and to all
clients at the end of `do_configure`. The latter only looks at the result of the NVM update: when
a TLV file cannot be applied the modem is going to be declared out of service, and is announced
nevertheless. This is the only way to announce a modem that is not up.
-/

namespace HardwareIntel.Mmgr

/-- The entry does not announce a modem that is not up. -/
def Obs.honest : Obs → Bool
  | .sent _ _ .eventModemUp _ st => st == .mdmUp
  | _ => true

/-- Each time the modem was announced as up, the daemon was in state `mdmUp`. -/
def AnnouncedUp (m : MmgrData) : Prop :=
  ∀ fd answering data st, .sent fd answering .eventModemUp data st ∈ m.log → st = .mdmUp

namespace AnnouncedUp

variable {env : Env} {m m' : MmgrData}

/-- A change whose entries are honest. -/
theorem frame (h : AnnouncedUp m) (hframe : Frame (fun o => o.honest = true) m m') :
    AnnouncedUp m' := by
  obtain ⟨new, hnew, hhonest⟩ := hframe.log
  intro fd answering data st hmem
  rw [hnew, List.mem_append] at hmem
  rcases hmem with hmem | hmem
  · simpa [Obs.honest] using hhonest _ hmem
  · exact h fd answering data st hmem

/-- Only the history matters. -/
theorem of_log_eq (h : AnnouncedUp m) (hlog : m'.log = m.log) : AnnouncedUp m' := by
  intro fd answering data st hmem
  rw [hlog] at hmem
  exact h fd answering data st hmem

/-- Entries that do not announce the modem are honest. -/
theorem honest_of_ne {fd : Int} {answering : Option Request} {ev : Event} {data : EventData}
    {st : MmgrState} (h : ev ≠ .eventModemUp) : (Obs.sent fd answering ev data st).honest = true := by
  cases ev <;> first | rfl | exact absurd rfl h

section

variable (h : AnnouncedUp m)
include h

/-- A quiet change announces nothing. -/
theorem quiet {R : Int → Prop} (hquiet : Quiet R m m') : AnnouncedUp m' := by
  refine h.frame (hquiet.toFrame.mono fun o ho => ?_)
  cases o with
  | sent fd answering ev data st => exact honest_of_ne ho.1
  | _ => rfl

/-- A recovery announces nothing. -/
theorem reset (heffect : ResetEffect env m m') : AnnouncedUp m' := by
  obtain ⟨clients, -, hframe⟩ := heffect.frame
  have hclients : AnnouncedUp { m with clients := clients } := h.of_log_eq rfl
  refine hclients.frame (hframe.mono fun o ho => ?_)
  cases o with
  | sent fd answering ev data st =>
    exact honest_of_ne (by simpa [Obs.ofReset] using (Bool.and_eq_true_iff.mp ho).1)
  | _ => rfl

/-- Announcing a modem that is up. -/
theorem announce (hup : m.state = .mdmUp) :
    AnnouncedUp (clientsInformAll .eventModemUp .null m) :=
  h.frame (frame_clientsInformAll fun _ => by simp [Obs.honest, hup])

/-- The configuration announces a modem that is up, unless a TLV file fails. -/
theorem configure (htlv : ¬ TlvFails env m) (hstep : doConfigure env m = some m') :
    AnnouncedUp m' := by
  rcases doConfigure_cases hstep with hquiet | ⟨a, ha, hup | hfail, rfl⟩
  · exact h.quiet hquiet
  · exact ((h.quiet ha).announce hup).of_log_eq rfl
  · exact absurd hfail htlv

end

/-- The requests, apart from fake ones, do not announce a modem that is not up. -/
theorem requestRule : RequestRule AnnouncedUp where
  quiet h hquiet := h.quiet hquiet
  client h := h.of_log_eq rfl
  setCliReq h := h.of_log_eq rfl
  waitShtAck h := h.frame (frame_setMmgrState rfl)
  conclude h := h.frame (frame_observe rfl)

/-- A request that is not a fake one. -/
theorem request (h : AnnouncedUp m) {req : Request} (hfake : req.isFake = false)
    (heffect : HandlerEffect env m.state m req m') : AnnouncedUp m' := by
  refine requestRule.request h heffect (fun ha hst => ha.frame (frame_clientInform fun _ _ => ?_))
    (fun _ _ hstep => ?_) (fun hreq => absurd (hreq ▸ hfake) (by decide))
  · -- the notification is modem up only in the state of that name
    rw [hst]
    cases m.state <;> rfl
  · have hflag : AnnouncedUp (onClient (Client.unsetRequest .resourceReleased) m) := h.of_log_eq rfl
    obtain ⟨a, ha, rfl | rfl | ⟨-, -, heffect⟩⟩ := resourceAcquireWakeupModem_cases hstep
    · exact hflag.quiet ha
    · exact (hflag.quiet ha).frame (frame_wakeupModem (fun _ => rfl) (fun _ => rfl) rfl)
    · exact (hflag.quiet ha).reset heffect

end AnnouncedUp

/-! ## Whole runs -/

/-- The input is not a fake request. -/
def Input.genuine (x : Input) : Bool := x.request.all fun req => !req.isFake

/-- The step configures the modem, and one of the TLV files of an update fails. -/
def ConfiguresWithTlvFailure (m : MmgrData) : Input → Prop
  | .event env ev => ev.configures m = true ∧ TlvFails env m
  | _ => False

/-- No fake request, and no TLV file that fails. -/
def AppliesTlvs (m : MmgrData) (x : Input) : Prop :=
  x.genuine = true ∧ ¬ ConfiguresWithTlvFailure m x

/-- Every kind of step announces the modem only when it is up. -/
theorem stepRule_announcedUp : StepRule AppliesTlvs AnnouncedUp AnnouncedUp where
  phase h := h.of_log_eq rfl
  quiet h _ hquiet := h.quiet hquiet
  configure {m a m' env ev} h hC hready _ hquiet hflash htty hstep := by
    refine (h.quiet hquiet).configure (fun hfail => hC.2 ⟨hready, ?_⟩) hstep
    unfold TlvFails at hfail ⊢
    rwa [hflash, htty, hquiet.cfg] at hfail
  startShutdown {m env} h _ _ := by
    have hclients : AnnouncedUp (setCliReq ({ · with off := false })
        { m with clients := clientsResetAckShtdwn m.clients }) := h.of_log_eq rfl
    unfold startShutdown
    dsimp only
    split
    · have hstart : ∀ a, Quiet nobody a (mdmStartShtdwn (timerStart env .fmmo a)) := fun a =>
        quiet_timerStart.trans quiet_mdmMcdRegister
      exact (hclients.quiet (hstart _)).frame (frame_setMmgrState rfl)
    · exact hclients
  resetModem h _ _ _ hstep := (h.reset (resetEffect_resetModem hstep)).of_log_eq rfl
  shutdownTimeout h _ _ _ hquiet := (h.quiet hquiet).of_log_eq rfl
  connect {m fd clients} h _ _ _ := by
    have hclients : AnnouncedUp { m with clients := clients } := h.of_log_eq rfl
    exact hclients.frame (frame_observe rfl)
  request {m m' env fd i id ts data c req} h hC _ hreq _ _ _ heffect := by
    have hfake : req.isFake = false := by
      simpa [Input.genuine, Input.request, hreq] using hC.1
    exact (h.quiet (quiet_received (R := nobody))).request hfake heffect
  disconnect {m m' env fd i c} h _ _ _ _ heffect := by
    have hcurrent : AnnouncedUp { m with request := ⟨i, .resourceRelease, 0, []⟩ } :=
      h.of_log_eq rfl
    have hfake : Request.resourceRelease.isFake = false := rfl
    exact (hcurrent.request hfake heffect).of_log_eq rfl

/-- In every run without fake requests in which the modem is never configured with a TLV file that
fails, the modem is announced only in state `mdmUp`. -/
theorem modem_up_announced_when_up {cfg : MmgrCfg} {time reboot : Int} {telephonyDisabled : Bool}
    {m : MmgrData}
    (hrun : Reach step AppliesTlvs (mmgrInit cfg time reboot telephonyDisabled) m) :
    AnnouncedUp m := by
  have hinit : AnnouncedUp (mmgrInit cfg time reboot telephonyDisabled) := by
    intro fd answering data st hmem
    simp [mmgrInit] at hmem
  exact stepRule_announcedUp.reach hinit offHandled_mmgrInit hrun

/-- A test for `AppliesTlvs`. -/
def appliesTlvs (m : MmgrData) (x : Input) : Bool :=
  x.genuine &&
    match x with
    | .event env ev => !(ev.configures m && (pushAllTlvs env.pushTlv m.cfg).2.isSome)
    | _ => true

/-- The environment in which a new firmware is found. -/
def newFirmwareEnv (sec : Int) : Env := { calmEnv sec with prepare := ⟨true, true, true⟩ }

/-- A client starts the modem, which has to be flashed first. -/
def flashedStart : List Input :=
  registration 1 7 0xffff ++ [.head (calmEnv 2), .event (newFirmwareEnv 2) (requestEvent 7 2)] ++
    iteration 3 (.mcd ⟨true, false, false, false⟩) ++ [.flashPush .succeed] ++
    iteration 4 .flashing

/-- A run in which the modem is flashed, updated, reset and then announced. -/
theorem modem_up_announced_when_up_run :
    ∃ m, Reach step AppliesTlvs (mmgrInit hsiPlatform 0 0 false) m ∧
      .sent 7 none .eventModemUp .null .mdmUp ∈ m.log ∧ AnnouncedUp m := by
  refine Reach.exists_of_check (fun m x (hx : appliesTlvs m x = true) => ?_)
    (fun m hrun (hlog : Obs.sent 7 none .eventModemUp .null .mdmUp ∈ m.log) =>
      ⟨hlog, modem_up_announced_when_up hrun⟩)
    (flashedStart ++ iteration 5 ipcReadyEvent ++ iteration 10 .timeout ++
      iteration 11 (requestEvent 7 7) ++ iteration 12 ipcReadyEvent)
    (by simp only [flashedStart, registration_eq]; decide)
  obtain ⟨hgenuine, htlv⟩ := Bool.and_eq_true_iff.mp hx
  refine ⟨hgenuine, fun hcon => ?_⟩
  unfold ConfiguresWithTlvFailure at hcon
  split at hcon
  · obtain ⟨hready, -, -, -, -, hfail⟩ := hcon
    simp [hready, hfail] at htlv
  · exact hcon

/-- When the TLV file of an update cannot be applied, the modem is announced in state `mdmReset`,
on its way out of service. -/
theorem modem_up_announced_in_reset :
    ∃ m, Reach step (fun _ x => x.genuine = true) (mmgrInit hsiPlatform 0 0 false) m ∧
      ¬ AnnouncedUp m :=
  Reach.exists_of_decide (fun m _ (hlog : Obs.sent 7 none .eventModemUp .null .mdmReset ∈ m.log)
        hup => absurd (hup 7 none .null .mdmReset hlog) (by decide))
    (flashedStart ++ [.head (calmEnv 5),
      .event { calmEnv 5 with pushTlv := fun _ => ⟨.fail, 1⟩ } ipcReadyEvent])
    (by simp only [flashedStart, registration_eq]; decide)

end HardwareIntel.Mmgr
