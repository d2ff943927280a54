import HardwareIntel.Library.Wire
import HardwareIntel.Mmgr.ModemEvents

/-!
# Events of the clients

The handlers of `core/client_events.c`: connection of a client, the requests of a connected client
by state of the daemon, and its disconnection.
-/

namespace HardwareIntel.Mmgr

/-! ## Requests -/

/-- Update the client of the current request. -/
def onClient (f : Client → Client) (m : MmgrData) : MmgrData :=
  { m with clients := m.clients.update m.request.client f }

/-- Refuse a request (`client_nack`). -/
def clientNack (m : MmgrData) : MmgrData := clientInform .nack m

/-- Accept a request without doing anything (`client_ack`). -/
def clientAck (m : MmgrData) : MmgrData := clientInform .ack m

/-- `E_MMGR_SET_NAME`: the source asserts that there is a payload. -/
def requestSetName (m : MmgrData) : Option MmgrData :=
  if m.request.data = [] then none
  else some (clientInform .ack (onClient (Client.setName m.request.data) m))

/-- The event that tells a new client the state of the modem. -/
def MmgrState.notification : MmgrState → Event
  | .mdmOos => .eventModemOutOfService
  | .mdmStart | .mdmConfOngoing | .mdmReset | .mdmOff | .mdmPrepareOff | .mdmLinkUsbDisc =>
    .eventModemDown
  | .mdmUp => .eventModemUp
  | .mdmCoreDump => .notifyCoreDump
  | .waitColdAck => .notifyModemColdReset
  | .waitShtAck => .notifyModemShutdown

/-- `E_MMGR_SET_EVENTS`. -/
def requestSetEvents (m : MmgrData) : MmgrData :=
  if m.request.data.length = 4 then
    let filter := (readWord m.request.data).elim 0 Prod.fst
    let m := onClient (Client.setFilter filter) m
    let m := clientInform .ack m
    clientInform m.state.notification m
  else clientInform .nack m

/-- The modem is switched on, at the end of `resource_acquire_wakeup_modem`. -/
def wakeupModem (env : Env) (m : MmgrData) : MmgrData :=
  let m := setMmgrState
    (if m.cfg.flashEblType = .usb ∧ mdmFlashIsRequired m then .mdmStart else .mdmConfOngoing) m
  let m := setCliReq (fun _ => .none) m
  let m := observe .wakeUp (onReset ResetManagement.reinit m)
  let m := if !mdmFlashIsRequired m && m.cfg.ipcReadyPresent
    then timerStart env .waitForIpcReady m else m
  if m.cfg.flashEblType = .usb then timerStart env .waitForBusReady m else m

/-- `E_MMGR_RESOURCE_ACQUIRE` while the modem is off (`resource_acquire_wakeup_modem`). -/
def resourceAcquireWakeupModem (env : Env) (m : MmgrData) : Option MmgrData :=
  let m := clientInform .ack m
  let m := onClient (Client.unsetRequest .resourceReleased) m
  let m := mdmMcdRegister [.coredump] true m
  let m := setLinkState (fun _ => .none) m
  let m := mdmFlashPrepare env.prepare m
  if env.prepare.success then
    let m := if mdmFlashIsRequired m then mdmMcdRegister [.fwDownloadReady] false m
      else if m.cfg.ipcReadyPresent then mdmMcdRegister [.ipcReady] false m else m
    some (if env.mcdUp then wakeupModem env m else m)
  else resetModem env (recovForce .oos m)

/-- `E_MMGR_RESOURCE_ACQUIRE` while the modem is on (`resource_acquire`). -/
def resourceAcquire (m : MmgrData) : MmgrData :=
  onClient (Client.unsetRequest .resourceReleased) (clientInform .ack m)

/-- `E_MMGR_RESOURCE_RELEASE` while the modem is off or about to be
(`request_resource_release_mdm_off`). -/
def requestResourceReleaseMdmOff (m : MmgrData) : MmgrData :=
  clientInform .ack (onClient (Client.setRequest .resourceReleased) m)

/-- `E_MMGR_RESOURCE_RELEASE` while the modem is on (`request_resource_release`): the last release
starts the shutdown. -/
def requestResourceRelease (env : Env) (m : MmgrData) : MmgrData :=
  let m := clientInform .ack m
  let m := onClient (Client.setRequest .resourceReleased) m
  if m.clients.hasResource = false ∧ m.cfg.dsda = false then
    let m := clientsInformAll .notifyModemShutdown .null m
    let m := timerStopAll m
    let m := timerStart env .modemShutdownAck m
    setMmgrState .waitShtAck m
  else m

/-- Tell the clients who asked for a reset, and why (`notify_ap_reset`). -/
def notifyApReset (m : MmgrData) : MmgrData :=
  clientsInformAll .notifyApReset
    (.apReset
      { name := (m.clients.get? m.request.client).elim [] Client.name
        extraData := if m.request.id = .requestModemRecovery then m.request.data else [] }) m

/-- `E_MMGR_REQUEST_MODEM_RECOVERY` (`request_modem_recovery`): a request older than the last
recovery is skipped. -/
def requestModemRecovery (m : MmgrData) : MmgrData :=
  let m := clientInform .ack m
  if intOfWord m.request.ts > m.reset.lastResetTime then
    let m := setCliReq (fun _ => ⟨true, false, false⟩) m
    let m := notifyApReset m
    setMmgrState .mdmReset m
  else m

/-- The value by which the NVM server declares the modem unrecoverable (`CARE_CENTER`). -/
def careCenter : ℕ := 0xCA2CE7E2

/-- `E_MMGR_REQUEST_MODEM_RESTART` (`request_modem_restart`). -/
def requestModemRestart (m : MmgrData) : MmgrData :=
  let m := clientInform .ack m
  let optional := if m.request.data.length = 4 then
      (readWord m.request.data).elim 0 Prod.fst else 0
  let name := (m.clients.get? m.request.client).elim [] Client.name
  let m := if optional = careCenter ∧ name = bytes "MMB_NVM" then recovForce .oos m
    else recovForce .noCount (setCliReq (fun _ => ⟨true, false, false⟩) m)
  setMmgrState .mdmReset m

/-- `E_MMGR_REQUEST_MODEM_BACKUP_PRODUCTION` (`request_bkup_prod`). -/
def requestBkupProd (m : MmgrData) : MmgrData :=
  let m := clientInform .ack m
  let m := setCliReq (fun r => { r with prod := true }) m
  let m := recovForce .noCount m
  setMmgrState .mdmReset m

/-- `E_MMGR_ACK_MODEM_COLD_RESET` (`request_ack_cold_reset`). -/
def requestAckColdReset (env : Env) (m : MmgrData) : MmgrData :=
  let m := onClient (Client.setRequest .coldReset) m
  if clientsHasAckCold m.clients then
    let m := observe (.agreed .notifyModemColdReset
      (m.clients.subscribers .notifyModemColdReset)) m
    let m := if m.cliReq.prod && env.backupCalib then
      clientsInformAll .responseModemBackupProduction .null m else m
    let m := setCliReq (fun _ => ⟨true, false, false⟩) m
    setMmgrState .mdmReset m
  else m

/-- `E_MMGR_ACK_MODEM_SHUTDOWN` (`request_ack_modem_shutdown`). -/
def requestAckModemShutdown (m : MmgrData) : MmgrData :=
  let m := onClient (Client.setRequest .modemShutdown) m
  if clientsHasAckShtdwn m.clients then
    let m := observe (.agreed .notifyModemShutdown
      (m.clients.subscribers .notifyModemShutdown)) m
    let m := setCliReq (fun _ => ⟨false, true, false⟩) m
    let m := timerStop .modemShutdownAck m
    setMmgrState .mdmReset m
  else m

/-- `E_MMGR_REQUEST_FORCE_MODEM_SHUTDOWN` (`request_force_modem_shutdown`). -/
def requestForceModemShutdown (env : Env) (m : MmgrData) : MmgrData :=
  let m := clientInform .ack m
  let m := clientsInformAll .notifyModemShutdown .null m
  let m := timerStart env .modemShutdownAck m
  setMmgrState .waitShtAck m

/-! ## Fake requests -/

/-- The fake requests that send an event without data. -/
def requestFake (ev : Event) (m : MmgrData) : MmgrData :=
  clientsInformAll ev .null (clientInform .ack m)

/-- `E_MMGR_REQUEST_FAKE_UP`. -/
def requestFakeUp : MmgrData → MmgrData := requestFake .eventModemUp

/-- `E_MMGR_REQUEST_FAKE_DOWN`. -/
def requestFakeDown : MmgrData → MmgrData := requestFake .eventModemDown

/-- `E_MMGR_REQUEST_FAKE_MODEM_SHUTDOWN`. -/
def requestFakeShtdwn : MmgrData → MmgrData := requestFake .notifyModemShutdown

/-- `E_MMGR_REQUEST_FAKE_MODEM_OUT_OF_SERVICE`. -/
def requestFakeOos : MmgrData → MmgrData := requestFake .eventModemOutOfService

/-- `E_MMGR_REQUEST_FAKE_CORE_DUMP`. -/
def requestFakeCdd : MmgrData → MmgrData := requestFake .notifyCoreDump

/-- `E_MMGR_REQUEST_FAKE_PLATFORM_REBOOT`. -/
def requestFakePtfrmreboot : MmgrData → MmgrData := requestFake .notifyPlatformReboot

/-- `E_MMGR_REQUEST_FAKE_SELF_RESET`. -/
def requestFakeSelfReset : MmgrData → MmgrData := requestFake .notifySelfReset

/-- `E_MMGR_REQUEST_FAKE_CORE_DUMP_COMPLETE`. -/
def requestFakeCddComplete (m : MmgrData) : MmgrData :=
  clientsInformAll .notifyCoreDumpComplete
    (.coreDump ⟨.succeed, m.cfg.mcdrPath ++ bytes "/cd_fake_coredump.tgz",
      bytes "(fake reason)"⟩) (clientInform .ack m)

/-- `E_MMGR_REQUEST_FAKE_AP_RESET`. -/
def requestFakeApReset (m : MmgrData) : MmgrData := notifyApReset (clientInform .ack m)

/-- `E_MMGR_REQUEST_FAKE_TFT_EVENT`. -/
def requestFakeTftEvent (m : MmgrData) : MmgrData :=
  informTft .stats "TFT_EVENT_TEST" (tftApLogMask ||| tftBpLogMask)
    ((List.range 6).map fun i => bytes ("Test data " ++ toString i)) (clientInform .ack m)

/-! ## Dispatch -/

/-- The handler of a request, by state of the daemon (`hdler_client`). -/
def hdlerClient (env : Env) (st : MmgrState) (req : Request) (m : MmgrData) : Option MmgrData :=
  match req with
  | .setName => requestSetName m
  | .setEvents => some (requestSetEvents m)
  | .resourceAcquire =>
    match st with
    | .mdmOff => resourceAcquireWakeupModem env m
    | .mdmUp | .mdmStart | .mdmConfOngoing | .waitColdAck => some (resourceAcquire m)
    | _ => some (clientNack m)
  | .resourceRelease =>
    match st with
    | .mdmOff | .waitShtAck => some (requestResourceReleaseMdmOff m)
    | .waitColdAck | .mdmUp => some (requestResourceRelease env m)
    | _ => some (clientNack m)
  | .requestModemRecovery =>
    match st with
    | .mdmUp => some (requestModemRecovery m)
    | .waitColdAck => some (clientAck m)
    | _ => some (clientNack m)
  | .requestModemRestart =>
    some (if st = .mdmUp then requestModemRestart m else clientNack m)
  | .requestForceModemShutdown =>
    some (if st = .mdmUp then requestForceModemShutdown env m else clientNack m)
  | .ackModemColdReset =>
    some (if st = .waitColdAck then requestAckColdReset env m else clientNack m)
  | .ackModemShutdown =>
    some (if st = .waitShtAck then requestAckModemShutdown m else clientNack m)
  -- the two information requests are answered with NACK while the modem is up, too
  | .requestModemFuseInfo | .requestModemGetHwId => some (clientNack m)
  | .requestModemBackupProduction =>
    some (if st = .mdmUp then requestBkupProd m else clientNack m)
  | .requestFakeDown => some (if m.cfg.fakeRequests then requestFakeDown m else clientNack m)
  | .requestFakeUp => some (if m.cfg.fakeRequests then requestFakeUp m else clientNack m)
  | .requestFakeApReset => some (if m.cfg.fakeRequests then requestFakeApReset m else clientNack m)
  | .requestFakeSelfReset =>
    some (if m.cfg.fakeRequests then requestFakeSelfReset m else clientNack m)
  | .requestFakeModemShutdown =>
    some (if m.cfg.fakeRequests then requestFakeShtdwn m else clientNack m)
  | .requestFakeModemOutOfService =>
    some (if m.cfg.fakeRequests then requestFakeOos m else clientNack m)
  | .requestFakeCoreDump => some (if m.cfg.fakeRequests then requestFakeCdd m else clientNack m)
  | .requestFakeCoreDumpComplete =>
    some (if m.cfg.fakeRequests then requestFakeCddComplete m else clientNack m)
  | .requestFakePlatformReboot =>
    some (if m.cfg.fakeRequests then requestFakePtfrmreboot m else clientNack m)
  | .requestFakeTftEvent =>
    some (if m.cfg.fakeRequests then requestFakeTftEvent m else clientNack m)

/-- What is read from the socket of a client. -/
inductive ClientMsg
  /-- A complete message: its number, its time stamp and its payload. -/
  | request (id ts : ℕ) (data : Bytes)
  /-- A header whose payload cannot be read. -/
  | incomplete
  /-- The end of the connection. -/
  | disconnected
  /-- Not a message. -/
  | invalid

/-- A complete message has been read: it becomes the current request. -/
def received (i : ℕ) (c : Client) (req : Request) (ts : ℕ) (data : Bytes) (m : MmgrData) :
    MmgrData :=
  observe (.request c.fd req) { m with request := ⟨i, req, ts, data⟩ }

/-- Handle a complete message (`client_request`). -/
def clientRequest (env : Env) (i : ℕ) (c : Client) (id ts : ℕ) (data : Bytes) (m : MmgrData) :
    Option MmgrData :=
  match Request.ofId id with
  | none => some m
  | some req =>
    let m := received i c req ts data m
    if c.isRegistered = false ∧ req ≠ .setName ∧ req ≠ .setEvents then some (clientNack m)
    else hdlerClient env m.state req m

/-- Handle the end of a connection: the resource is released as the state asks for, then the
client is forgotten. -/
def clientDisconnected (env : Env) (i : ℕ) (fd : Int) (m : MmgrData) : Option MmgrData := do
  let m := { m with request := ⟨i, .resourceRelease, 0, []⟩ }
  let m ← hdlerClient env m.state .resourceRelease m
  some { m with clients := m.clients.remove fd }

/-- Handle what a client sends (`known_client`). -/
def knownClient (env : Env) (fd : Int) (msg : ClientMsg) (m : MmgrData) : Option MmgrData :=
  match m.clients.find fd with
  | none => some m
  | some i =>
    match m.clients.get? i with
    | none => some m
    | some c =>
      match msg with
      | .request id ts data => clientRequest env i c id ts data m
      | .disconnected => clientDisconnected env i fd m
      | .incomplete | .invalid => some m

/-- Handle a new connection (`new_client`). -/
def newClient (fd : Int) (m : MmgrData) : MmgrData :=
  if m.clients.connected ≤ m.clients.getAllowed then
    match m.clients.add fd with
    | none => m
    | some clients => observe (.connect fd) { m with clients := clients }
  else m

end HardwareIntel.Mmgr
