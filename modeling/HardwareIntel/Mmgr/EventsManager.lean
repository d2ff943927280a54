import HardwareIntel.Library.Runs
import HardwareIntel.Mmgr.ClientEvents

/-!
# The event loop

The loop of `core/events_manager.c` with the timeouts of `core/timer_events.c`, as a step function.
An iteration of the loop is two steps: the head of the loop, which starts a shutdown or a recovery
that is due, and the handling of one event. The end of the flashing thread is a step of its own,
since it can happen between any two others. A step is `none` when its input is not enabled or when
the daemon stops in it (a failed assertion, or the exit of `mdm_flash_cancel`).
-/

namespace HardwareIntel.Mmgr

/-! ## Timeouts -/

/-- What a timeout asks for (`e_timer_mdm_action_t`). -/
structure TimerAction where
  /-- `E_TIMER_RESET`. -/
  reset : Bool
  /-- `E_TIMER_START_MDM_OFF`. -/
  startMdmOff : Bool
  /-- `E_TIMER_FINALIZE_MDM_OFF`. -/
  finalizeMdmOff : Bool
  /-- `E_TIMER_CANCEL_FLASHING`. -/
  cancelFlashing : Bool
  /-- `E_TIMER_STOP_MCDR`. -/
  stopMcdr : Bool
  /-- `E_TIMER_STREAMLINE`. -/
  streamline : Bool

/-- `E_TIMER_NO_ACTION`. -/
def TimerAction.none : TimerAction := ⟨false, false, false, false, false, false⟩

/-- One test of `timer_event`: if the timer has elapsed, do `f`, stop the timer and ask for more. -/
def onElapsed (env : Env) (type : TimerType) (ask : TimerAction → TimerAction)
    (f : MmgrData → MmgrData) (p : TimerAction × MmgrData) : TimerAction × MmgrData :=
  if p.2.timer.isElapsed type env.boottime then (ask p.1, timerStop type (f p.2)) else p

/-- The modem did not get ready in time. -/
def ipcReadyTimeout (m : MmgrData) : MmgrData :=
  let m := clientsInformAll .responseModemFwResult (.fwResult ⟨.readyTimeout⟩) m
  informTft .error "TFT_ERROR_IPC" tftApLogMask [bytes "IPC READY not received"] m

/-- The modem was not found on the bus in time. -/
def busReadyTimeout (st : MmgrState) (m : MmgrData) : MmgrData :=
  informTft .error "TFT_ERROR_USB" tftApLogMask
    [if st = .mdmConfOngoing then bytes "BUS READY (Modem Mode) not received"
      else bytes "BUS READY (Flash Mode) not received"] m

/-- The core dump link was not ready in time; without a core dump signal there was no core dump. -/
def coreDumpReadyTimeout (coreDumpSignalHwWorking : Bool) (m : MmgrData) : MmgrData :=
  if coreDumpSignalHwWorking then
    clientsInformAll .notifyCoreDumpComplete
      (.coreDump ⟨.linkError, [], bytes "modem enumeration failure"⟩) m
  else m

/-- The timers that have elapsed, one after the other (`timer_event`). -/
def timerEvent (env : Env) (st : MmgrState) (coreDumpSignalHwWorking : Bool) (m : MmgrData) :
    TimerAction × MmgrData :=
  let p := (TimerAction.none, m)
  let p := onElapsed env .coldResetAck ({ · with reset := true }) id p
  let p := onElapsed env .modemShutdownAck ({ · with reset := true, startMdmOff := true }) id p
  let p := onElapsed env .waitForIpcReady ({ · with reset := true }) ipcReadyTimeout p
  let p := onElapsed env .waitForBusReady ({ · with reset := true }) (busReadyTimeout st) p
  let p := onElapsed env .rebootModemDelay ({ · with streamline := true }) id p
  let p := onElapsed env .coreDumpIpcReset id id p
  let p := onElapsed env .waitCoreDumpReady ({ · with reset := true })
    (coreDumpReadyTimeout coreDumpSignalHwWorking) p
  let p := onElapsed env .mdmFlashing ({ · with cancelFlashing := true }) id p
  let p := onElapsed env .coreDumpReading ({ · with stopMcdr := true }) id p
  onElapsed env .fmmo ({ · with finalizeMdmOff := true }) id p

/-- The recovery asked for by a timeout. -/
def timeoutReset (action : TimerAction) (m : MmgrData) : MmgrData :=
  let m := if action.streamline then setMmgrState .mdmReset (recovForce .noCount m) else m
  if action.reset then setMmgrState .mdmReset m else m

/-- The end of the core dump retrieval asked for by a timeout. -/
def timeoutMcdr (env : Env) (action : TimerAction) (m : MmgrData) : MmgrData :=
  if action.stopMcdr then coreDumpFinalize env .timeout (mcdrFinalize m) else m

/-- The shutdown asked for by a timeout: its start, or else its end. -/
def timeoutOff (action : TimerAction) (m : MmgrData) : MmgrData :=
  if action.startMdmOff then setCliReq (fun _ => ⟨false, true, false⟩) m
  else if action.finalizeMdmOff then
    let m := informTft .error "TFT_ERROR_MISC" tftApLogMask
      [bytes "Timeout during FMMO. Force modem shutdown"] m
    let m := mdmFinalizeShtdwn m
    setMmgrState .mdmOff m
  else m

/-- `E_EVENT_TIMEOUT`. A flashing that takes too long stops the daemon. -/
def timeoutEvent (env : Env) (m : MmgrData) : Option MmgrData :=
  let (action, m) := timerEvent env m.state (m.state != .mdmLinkUsbDisc) m
  let m := timeoutReset action m
  if action.cancelFlashing then none
  else some (timeoutOff action (timeoutMcdr env action m))

/-! ## Threads and secured channel -/

/-- The flashing has succeeded: the modem is configured next. -/
def flashingSucceed (env : Env) (m : MmgrData) : MmgrData :=
  let m := mdmFlashResetAttempts m
  let m := setMmgrState .mdmConfOngoing m
  let m := if m.cfg.bbType = .usb then timerStart env .waitForBusReady m else m
  if m.cfg.ipcReadyPresent then timerStart env .waitForIpcReady m else m

/-- The flashing has failed: the modem is reset, or declared out of service. -/
def flashingFailed (m : MmgrData) : MmgrData :=
  setMmgrState .mdmReset
    (if m.flash.flashErr ≠ .errorUnspecified then recovForce .oos m else m)

/-- `E_EVENT_FLASHING`: the flashing thread has ended. The elapsed time stands where
`inform_flash_err` expects the attempts, as in the source. -/
def flashingEvent (env : Env) (m : MmgrData) : MmgrData :=
  let m := timerStop .mdmFlashing m
  let m := mdmFlashFinalize m
  let m := mdmMcdRegister [.ipcReady] false m
  let m := if m.flash.upgradeErrFlash || m.flash.upgradeErrTlv then informUpgradeErr m else m
  let m := informFlashErr m.flash.flashErr (m.timer.getValue .mdmFlashing env.boottime)
    m.flash.attempts m
  if m.flash.flashErr = .succeed then flashingSucceed env m else flashingFailed m

/-- `E_EVENT_MCDR`: the core dump thread has ended; it only matters if the daemon still waits for
it. -/
def mcdrEvent (env : Env) (m : MmgrData) : MmgrData :=
  let m := timerStop .coreDumpReading m
  if m.state = .mdmCoreDump then coreDumpFinalize env env.mcdrState.result (mcdrFinalize m) else m

/-- `E_EVENT_SECUR` (`security_event`). -/
def securityEvent (env : Env) (m : MmgrData) : MmgrData :=
  match env.secureError with
  | none => m
  | some msg => informTft .error "TFT_ERROR_MISC" (tftApLogMask ||| tftBpLogMask) [msg] m

/-! ## The loop -/

/-- The head of the loop when a shutdown is asked for; with two modems it is not made. -/
def startShutdown (env : Env) (m : MmgrData) : MmgrData :=
  let m := { m with clients := clientsResetAckShtdwn m.clients }
  let m := setCliReq ({ · with off := false }) m
  if m.cfg.dsda = false then
    let m := timerStart env .fmmo m
    let m := mdmStartShtdwn m
    setMmgrState .mdmPrepareOff m
  else m

/-- The head of the loop: start the shutdown asked for, or else the recovery that is due. -/
def loopHead (env : Env) (m : MmgrData) : Option MmgrData :=
  if m.cliReq.off then some (startShutdown env m)
  else if m.state = .mdmReset then
    (resetModem env m).map (setCliReq ({ · with reset := false }))
  else some m

/-- The events of the daemon (`e_events_type_t`). -/
inductive DaemonEvent
  | ipc
  | mcd (st : McdState)
  | bus (evs : List BusEvent)
  | newClient (fd : Int)
  | client (fd : Int) (msg : ClientMsg)
  | secur
  | timeout
  | flashing
  | mcdr

/-- An event can happen: its descriptor is open, its thread has written to its pipe, or the new
descriptor is not in use. -/
def DaemonEvent.enabled (m : MmgrData) : DaemonEvent → Bool
  | .ipc => m.fdTty
  | .secur => m.fdSecure
  | .flashing => m.flash.thread == .ended
  | .mcdr => m.cfg.mcdrEnabled
  | .newClient fd => decide (0 ≤ fd) && m.clients.list.all fun c => c.fd != fd
  | _ => true

/-- The event makes the daemon configure the modem. -/
def DaemonEvent.configures (m : MmgrData) : DaemonEvent → Bool
  | .mcd st => !st.fwDownloadReady && st.ipcReady && m.state == .mdmConfOngoing &&
      (m.cfg.bbType != .usb || m.linkState.bbReady)
  | .bus evs => (m.bus.hdleEvents m.cfg evs).1 && (m.bus.hdleEvents m.cfg evs).2.bbReady &&
      (m.state == .mdmConfOngoing || m.state == .mdmLinkUsbDisc) &&
      (m.linkState.ipcReady || !m.cfg.ipcReadyPresent)
  | _ => false

/-- The handler of an event. -/
def handle (env : Env) (m : MmgrData) : DaemonEvent → Option MmgrData
  | .ipc => some (ipcEvent m)
  | .mcd st => modemControlEvent env st m
  | .bus evs => busEvents env evs m
  | .newClient fd => some (newClient fd m)
  | .client fd msg => knownClient env fd msg m
  | .secur => some (securityEvent env m)
  | .timeout => timeoutEvent env m
  | .flashing => some (flashingEvent env m)
  | .mcdr => some (mcdrEvent env m)

/-- What makes the daemon go on. -/
inductive Input
  /-- The head of the loop. -/
  | head (env : Env)
  /-- An event. -/
  | event (env : Env) (ev : DaemonEvent)
  /-- The end of the flashing thread. -/
  | flashPush (err : ModemFwError)

/-- The request that an input makes the daemon handle. -/
def Input.request : Input → Option Request
  | .event _ (.client _ (.request id _ _)) => Request.ofId id
  | _ => none

/-- The client whose message an input makes the daemon handle. -/
def Input.sender : Input → Option Int
  | .event _ (.client fd _) => some fd
  | _ => none

/-- One step of the daemon. -/
def step (m : MmgrData) : Input → Option MmgrData
  | .head env =>
    if m.waiting then none else (loopHead env m).map fun m => { m with waiting := true }
  | .event env ev =>
    if m.waiting && ev.enabled m then (handle env m ev).map fun m => { m with waiting := false }
    else none
  | .flashPush err =>
    if m.flash.thread = .running then some (mdmFlashPush err m) else none

/-- The context after `mmgr_init`, `disable_telephony` and `events_start`; `reboot` is the
persisted number of platform reboots. -/
def mmgrInit (cfg : MmgrCfg) (time reboot : Int) (telephonyDisabled : Bool) : MmgrData where
  cfg := cfg
  waiting := false
  state := if telephonyDisabled then .mdmReset else .mdmOff
  fdTty := false
  fdSecure := false
  cdRetrieved := false
  wakeupCfg := .unknown
  reset := { recovInit cfg.recov time reboot with
    op := if telephonyDisabled then .oos else .none }
  clients := clientsInit cfg.cliMax
  timer := timerInit cfg.timings
  cliReq := .none
  linkState := { LinkState.none with bbReady := decide (cfg.bbType ≠ .usb) }
  flash := mdmFlashInit
  mcdFilter := fun s => s == .coredump
  mcdrRunning := false
  bus := ⟨false, false, false, [], [], []⟩
  isMdmBbReady := false
  downState := false
  request := ⟨0, .setName, 0, []⟩
  log := []

/-! ## A platform -/

/-- A platform with an HSI link (`xml/6360/mmgr_6360_conf_1.xml`) and one TLV file. -/
def hsiPlatform : MmgrCfg where
  dsda := false
  recov := ⟨true, 5, 1, 600⟩
  timings := ⟨1, 1, 5, 0, 10, 40, 600, 30⟩
  cliMax := 12
  fakeRequests := false
  flashEblType := .other
  bbType := .other
  cdType := .other
  ipcReadyPresent := true
  flashless := false
  mcdrEnabled := true
  mcdrPath := bytes "/logs/modemcrash"
  secureEnable := false
  flashId := ⟨0x07ef, 0x8087⟩
  bbId := ⟨0x1451, 0x1519⟩
  reconfigId := ⟨0x1452, 0x1519⟩
  cdId := ⟨0xF000, 0x1519⟩
  tlvs := [bytes "modem.tlv"]
  tlvs_ne_nil := List.cons_ne_nil _ _

/-- An environment at second `sec` in which every outside call succeeds and nothing has changed on
the file system. -/
def calmEnv (sec : Int) : Env where
  boottime := ⟨sec, 0⟩
  timeofday := sec
  staleTime := 0
  prepare := ⟨true, false, true⟩
  prepareReset := ⟨true, false, true⟩
  mcdUp := true
  ttyOpen := true
  mux := ⟨true, true, .unknown⟩
  pushTlv := fun _ => ⟨.succeed, 0⟩
  secureOpen := true
  secureError := none
  backupCalib := true
  mcdrState := .succeed
  mcdrFilename := []
  mcdrReason := []

/-- One iteration of the loop at second `sec`: its head, then the event `ev`. -/
def iteration (sec : Int) (ev : DaemonEvent) : List Input :=
  [.head (calmEnv sec), .event (calmEnv sec) ev]

/-- The client behind `fd` connects and registers for the events of `mask`. -/
def registration (sec fd : Int) (mask : ℕ) : List Input :=
  iteration sec (.newClient fd) ++
    iteration sec (.client fd (.request 0 0 (bytes "A"))) ++
    iteration sec (.client fd (.request 1 0 (encodeWord mask)))

/-- The name of the client in its one byte. -/
theorem bytes_A : bytes "A" = [65] := by decide +kernel

theorem registration_eq (sec fd : Int) (mask : ℕ) : registration sec fd mask =
    iteration sec (.newClient fd) ++ iteration sec (.client fd (.request 0 0 [65])) ++
      iteration sec (.client fd (.request 1 0 (encodeWord mask))) := by
  rw [registration, bytes_A]

/-- The client behind `fd` makes the request with number `id`, without payload. -/
def requestEvent (fd : Int) (id : ℕ) : DaemonEvent := .client fd (.request id 1000 [])

/-- The modem reports that it is ready. -/
def ipcReadyEvent : DaemonEvent := .mcd ⟨false, true, false, false⟩

end HardwareIntel.Mmgr
