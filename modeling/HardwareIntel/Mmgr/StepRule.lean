import HardwareIntel.Mmgr.Handlers

/-!
# One obligation for each kind of step

`StepRule C P Q` collects what has to be shown for every step that meets `C` to lead from `P` to
`Q`: one obligation for the quiet steps, and one for each of the few others. With `P = Q` it is
the rule for an invariant. All of them may use that no shutdown is asked for while the daemon waits
for an event, since the head of the loop has just looked.
-/

namespace HardwareIntel.Mmgr

open Option

/-- What has to be shown for the steps that meet `C` to lead from `P` to `Q`. -/
structure StepRule (C : MmgrData → Input → Prop) (P Q : MmgrData → Prop) : Prop where
  /-- The phase of the loop does not matter. -/
  phase : ∀ {m : MmgrData} {b : Bool}, Q m → Q { m with waiting := b }
  /-- A quiet step that accepts no request. -/
  quiet : ∀ {m m' : MmgrData} {x : Input}, P m → C m x → Quiet nobody m m' → Q m'
  /-- The configuration of the modem. -/
  configure : ∀ {m a m' : MmgrData} {env : Env} {ev : DaemonEvent}, P m →
    C m (.event env ev) → ev.configures m = true → m.cliReq.off = false → Quiet nobody m a →
      a.flash = m.flash → a.fdTty = m.fdTty → doConfigure env a = some m' → Q m'
  /-- The start of a shutdown. -/
  startShutdown : ∀ {m : MmgrData} {env : Env}, P m → C m (.head env) → m.cliReq.off = true →
    Q (startShutdown env m)
  /-- A recovery. -/
  resetModem : ∀ {m m' : MmgrData} {env : Env}, P m → C m (.head env) → m.cliReq.off = false →
    m.state = .mdmReset → resetModem env m = some m' →
      Q (setCliReq ({ · with reset := false }) m')
  /-- The end of the time left to acknowledge a shutdown. -/
  shutdownTimeout : ∀ {m a : MmgrData} {env : Env}, P m → C m (.event env .timeout) →
    m.cliReq.off = false → m.timer.isElapsed .modemShutdownAck env.boottime = true →
      Quiet nobody m a → Q (setCliReq (fun _ => ⟨false, true, false⟩) a)
  /-- The connection of a client. -/
  connect : ∀ {m : MmgrData} {fd : Int} {clients : ClientList}, P m → m.cliReq.off = false →
    (∀ c ∈ m.clients.list, c.fd ≠ fd) → m.clients.add fd = some clients →
      Q (observe (.connect fd) { m with clients := clients })
  /-- A request. -/
  request : ∀ {m m' : MmgrData} {env : Env} {fd : Int} {i id ts : ℕ} {data : Bytes} {c : Client}
    {req : Request}, P m → C m (.event env (.client fd (.request id ts data))) →
      m.cliReq.off = false → Request.ofId id = some req → m.clients.find fd = some i →
        m.clients.get? i = some c → (c.isRegistered = true ∨ req = .setName ∨ req = .setEvents) →
          HandlerEffect env m.state (received i c req ts data m) req m' → Q m'
  /-- The disconnection of a client. -/
  disconnect : ∀ {m m' : MmgrData} {env : Env} {fd : Int} {i : ℕ} {c : Client}, P m →
    C m (.event env (.client fd .disconnected)) → m.cliReq.off = false →
      m.clients.find fd = some i → m.clients.get? i = some c →
        HandlerEffect env m.state { m with request := ⟨i, .resourceRelease, 0, []⟩ }
          .resourceRelease m' → Q { m' with clients := m'.clients.remove fd }

/-- While the daemon waits for an event, no shutdown is asked for. -/
def OffHandled (m : MmgrData) : Prop := m.waiting = true → m.cliReq.off = false

namespace StepRule

variable {C : MmgrData → Input → Prop} {P Q I : MmgrData → Prop} {m m' : MmgrData}

variable {env : Env}

section

variable (rule : StepRule C P Q) (hP : P m)
include rule hP

/-- A modem state or a bus change. -/
theorem modemEffect {ev : DaemonEvent} (hC : C m (.event env ev)) (hoff : m.cliReq.off = false)
    (h : ModemEffect env (ev.configures m = true) m m') : Q m' := by
  cases h with
  | quiet h => exact rule.quiet hP hC h
  | configure hready a hquiet hflash htty h =>
    exact rule.configure hP hC hready hoff hquiet hflash htty h

/-- A message of a client. -/
theorem knownClient {fd : Int} {msg : ClientMsg} (hC : C m (.event env (.client fd msg)))
    (hoff : m.cliReq.off = false) (h : knownClient env fd msg m = some m') : Q m' := by
  have hsame : some m = some m' → Q m' := fun h =>
    some.inj h ▸ rule.quiet hP hC Quiet.refl
  unfold Mmgr.knownClient at h
  split at h
  · exact hsame h
  · rename_i i hfind
    split at h
    · exact hsame h
    · rename_i c hget
      cases msg with
      | incomplete => exact hsame h
      | invalid => exact hsame h
      | request id ts data =>
        dsimp only [clientRequest] at h
        split at h
        · exact hsame h
        · rename_i req hreq
          split at h
          · exact some.inj h ▸ rule.quiet hP hC (quiet_received.trans quiet_clientNack)
          · rename_i hreg
            have hreg : c.isRegistered = true ∨ req = .setName ∨ req = .setEvents := by
              by_contra hcon
              simp only [not_or] at hcon
              exact hreg ⟨by simpa using hcon.1, hcon.2⟩
            exact rule.request hP hC hoff hreq hfind hget hreg (handlerEffect_hdlerClient h)
      | disconnected =>
        dsimp only [clientDisconnected] at h
        obtain ⟨a, ha, hrest⟩ := bind_eq_some_iff.mp h
        exact some.inj hrest ▸
          rule.disconnect hP hC hoff hfind hget (handlerEffect_hdlerClient ha)

/-- The handler of an event. -/
theorem handle {ev : DaemonEvent} (hC : C m (.event env ev)) (hoff : m.cliReq.off = false)
    (hen : ev.enabled m = true) (h : handle env m ev = some m') :
    Q m' := by
  cases ev with
  | ipc => exact some.inj h ▸ rule.quiet hP hC quiet_ipcEvent
  | mcd st => exact rule.modemEffect hP hC hoff (modemEffect_modemControlEvent h)
  | bus evs => exact rule.modemEffect hP hC hoff (modemEffect_busEvents h)
  | client fd msg => exact rule.knownClient hP hC hoff h
  | secur => exact some.inj h ▸ rule.quiet hP hC quiet_securityEvent
  | flashing => exact some.inj h ▸ rule.quiet hP hC quiet_flashingEvent
  | mcdr => exact some.inj h ▸ rule.quiet hP hC quiet_mcdrEvent
  | timeout =>
    rcases timeoutEvent_cases (R := nobody) h with hquiet | ⟨helapsed, a, ha, rfl⟩
    · exact rule.quiet hP hC hquiet
    · exact rule.shutdownTimeout hP hC hoff helapsed ha
  | newClient fd =>
    have h := some.inj h
    subst h
    unfold newClient
    split
    · split
      · exact rule.quiet hP hC Quiet.refl
      · have hnew : ∀ c ∈ m.clients.list, c.fd ≠ fd := by
          intro c hc
          simpa using List.all_eq_true.mp (Bool.and_eq_true_iff.mp hen).2 c hc
        exact rule.connect hP hoff hnew ‹_›
    · exact rule.quiet hP hC Quiet.refl

/-- The head of the loop. -/
theorem loopHead (hC : C m (.head env)) (h : loopHead env m = some m') : Q m' := by
  unfold Mmgr.loopHead at h
  split at h
  · exact some.inj h ▸ rule.startShutdown hP hC ‹_›
  · rename_i hoff
    split at h
    · obtain ⟨a, ha, rfl⟩ := map_eq_some_iff.mp h
      exact rule.resetModem hP hC (by simpa using hoff) ‹_› ha
    · exact some.inj h ▸ rule.quiet hP hC Quiet.refl

/-- A step that meets the condition leads from `P` to `Q`. -/
theorem step {x : Input} (hphase : OffHandled m) (hC : C m x) (h : step m x = some m') : Q m' := by
  cases x with
  | head env =>
    obtain ⟨-, h⟩ := ite_none_left_eq_some.mp h
    obtain ⟨a, ha, rfl⟩ := map_eq_some_iff.mp h
    exact rule.phase (rule.loopHead hP hC ha)
  | event env ev =>
    obtain ⟨hwait, h⟩ := ite_none_right_eq_some.mp h
    obtain ⟨a, ha, rfl⟩ := map_eq_some_iff.mp h
    obtain ⟨hwait, hen⟩ := Bool.and_eq_true_iff.mp hwait
    exact rule.phase (rule.handle hP hC (hphase hwait) hen ha)
  | flashPush err =>
    obtain ⟨-, h⟩ := ite_none_right_eq_some.mp h
    exact some.inj h ▸ rule.quiet hP hC quiet_flash

end

end StepRule

end HardwareIntel.Mmgr
