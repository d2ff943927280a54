import HardwareIntel.Mmgr.Client
import HardwareIntel.Mmgr.ResetEscalation
import HardwareIntel.Mmgr.Timer

/-!
# The context of the daemon

The structure `mmgr_data_t` with the modules it points to, the results of the calls that leave the
daemon (clocks, files, driver, modem), and the operations of the small modules: client
notification, timers, driver filter, flashing and core dump threads, USB bus.

A context also carries a history of what can be seen from outside: messages to the clients, state
changes, requests, connections and recovery operations, newest first. No function of the daemon
reads it.
-/

namespace HardwareIntel.Mmgr

/-! ## Configuration -/

/-- A USB device, by product and vendor number. -/
structure UsbId where
  /-- Product number. -/
  pid : ℕ
  /-- Vendor number. -/
  vid : ℕ
  deriving DecidableEq

/-- The configuration read at start. -/
structure MmgrCfg where
  /-- Two modems share the platform. -/
  dsda : Bool
  /-- The recovery configuration. -/
  recov : RecoveryCfg
  /-- The durations of the timers. -/
  timings : Timings
  /-- The number of clients allowed. -/
  cliMax : ℕ
  /-- The build accepts the fake requests. -/
  fakeRequests : Bool
  /-- The link used to push the boot loader. -/
  flashEblType : LinkType
  /-- The link used in normal mode. -/
  bbType : LinkType
  /-- The link used to read a core dump. -/
  cdType : LinkType
  /-- The modem has an IPC ready signal. -/
  ipcReadyPresent : Bool
  /-- The modem has no flash memory. -/
  flashless : Bool
  /-- The core dump reader is available. -/
  mcdrEnabled : Bool
  /-- The folder of the core dumps. -/
  mcdrPath : Bytes
  /-- The secured channel is used. -/
  secureEnable : Bool
  /-- The modem in flashing mode. -/
  flashId : UsbId
  /-- The modem in normal mode. -/
  bbId : UsbId
  /-- The modem in normal mode after its reconfiguration. -/
  reconfigId : UsbId
  /-- The modem in core dump mode. -/
  cdId : UsbId
  /-- The TLV files to apply. -/
  tlvs : List Bytes
  /-- `mmgr_init` refuses a configuration without TLV file. -/
  tlvs_ne_nil : tlvs ≠ []

/-! ## State of the modules -/

/-- The flashing thread: joined or not started, running, or ended after it has written the result
to its pipe. -/
inductive FlashThread
  | joined | running | ended
  deriving DecidableEq

/-- The flashing module (`mdm_flash_ctx_t`). -/
structure MdmFlash where
  /-- The firmware or the configuration has changed. -/
  update : Bool
  /-- The flashing thread. -/
  thread : FlashThread
  /-- The number of flashings tried. -/
  attempts : ℕ
  /-- The result of the last flashing. -/
  flashErr : ModemFwError
  /-- The firmware could not be prepared (`MDM_UPDATE_ERR_FLASH`). -/
  upgradeErrFlash : Bool
  /-- A TLV could not be applied (`MDM_UPDATE_ERR_TLV`). -/
  upgradeErrTlv : Bool
  /-- A firmware file is ready (`fw_file != NULL`). -/
  fwFile : Bool

/-- The thread has been started and not yet joined (`flash_ongoing`). -/
def MdmFlash.flashOngoing (flash : MdmFlash) : Bool := flash.thread != .joined

/-- The USB bus module (`bus_ev_t`). -/
structure BusEv where
  /-- `MDM_FLASH_READY`. -/
  flashReady : Bool
  /-- `MDM_BB_READY`. -/
  bbReady : Bool
  /-- `MDM_CD_READY`. -/
  cdReady : Bool
  /-- The device in flashing mode. -/
  flashPath : Bytes
  /-- The device in normal mode. -/
  bbPath : Bytes
  /-- The device in core dump mode. -/
  cdPath : Bytes

/-- The link state (`e_mdm_link_state_t`). -/
structure LinkState where
  /-- Ready to be configured. -/
  bbReady : Bool
  /-- Ready to be flashed. -/
  flashReady : Bool
  /-- The modem waits for a firmware. -/
  fwDlReady : Bool
  /-- The modem is ready. -/
  ipcReady : Bool
  /-- A core dump is announced. -/
  coreDumpReady : Bool
  /-- A core dump can be read. -/
  coreDumpReadReady : Bool

/-- `E_MDM_LINK_NONE`. -/
def LinkState.none : LinkState := ⟨false, false, false, false, false, false⟩

/-- The operation asked for by the clients (`e_client_req_t`). -/
structure CliReq where
  /-- `E_CLI_REQ_RESET`. -/
  reset : Bool
  /-- `E_CLI_REQ_OFF`. -/
  off : Bool
  /-- `E_CLI_REQ_PROD`. -/
  prod : Bool

/-- `E_CLI_REQ_NONE`. -/
def CliReq.none : CliReq := ⟨false, false, false⟩

/-- The request being handled (`current_request_t`). -/
structure CurrentRequest where
  /-- The entry of the client. -/
  client : ℕ
  /-- The request. -/
  id : Request
  /-- The time stamp of the message. -/
  ts : ℕ
  /-- The payload; its length is the length of the message header. -/
  data : Bytes

/-- What can be seen of the daemon from outside. -/
inductive Obs
  /-- The state is set, while some client holds the resource or none does. -/
  | setState (st : MmgrState) (hasResource : Bool)
  /-- A message is sent, while the daemon is in state `st`; `answering` is the request whose
  handler sends it to its client. -/
  | sent (fd : Int) (answering : Option Request) (ev : Event) (data : EventData) (st : MmgrState)
  /-- A complete request has been read. -/
  | request (fd : Int) (id : Request)
  /-- A client is connected. -/
  | connect (fd : Int)
  /-- The clients subscribed to `ev`, with the given descriptors, are found to agree. -/
  | agreed (ev : Event) (fds : List Int)
  /-- The modem is reset; the operation is counted or not. -/
  | coldReset (counted : Bool)
  /-- The platform is rebooted. -/
  | platformReboot
  /-- The modem is declared out of service. -/
  | outOfService
  /-- The modem is started for a client, and the escalation starts anew. -/
  | wakeUp
  deriving DecidableEq

/-- The context of the daemon (`mmgr_data_t`). -/
structure MmgrData where
  /-- The configuration. -/
  cfg : MmgrCfg
  /-- The daemon is in `wait_for_event`. -/
  waiting : Bool
  /-- The state of the daemon. -/
  state : MmgrState
  /-- The modem tty is open (`fd_tty != CLOSED_FD`). -/
  fdTty : Bool
  /-- The secured channel is open. -/
  fdSecure : Bool
  /-- A core dump has been retrieved. -/
  cdRetrieved : Bool
  /-- The wake-up configuration of the modem. -/
  wakeupCfg : WakeupCfg
  /-- The recovery escalation. -/
  reset : ResetManagement
  /-- The clients. -/
  clients : ClientList
  /-- The timers. -/
  timer : MmgrTimer
  /-- The operation asked for by the clients. -/
  cliReq : CliReq
  /-- The link state. -/
  linkState : LinkState
  /-- The flashing module. -/
  flash : MdmFlash
  /-- The modem states reported by the driver. -/
  mcdFilter : McdCtrlState → Bool
  /-- The core dump thread is running. -/
  mcdrRunning : Bool
  /-- The USB bus. -/
  bus : BusEv
  /-- The static variable of `bus_events`. -/
  isMdmBbReady : Bool
  /-- The static variable of `clients_inform_all`. -/
  downState : Bool
  /-- The request being handled. -/
  request : CurrentRequest
  /-- The history. -/
  log : List Obs

/-! ## Results of the outside calls -/

/-- What `mdm_flash_prepare` finds. -/
structure FlashPrepare where
  /-- A firmware is configured. -/
  fwPath : Bool
  /-- The hash of the firmware or of the configuration has changed. -/
  hashChanged : Bool
  /-- The prepared file exists. -/
  fileExist : Bool

/-- The result of `switch_to_mux`. -/
structure MuxResult where
  /-- The modem is configured. -/
  ok : Bool
  /-- The tty is still open after a failure. -/
  fdOpen : Bool
  /-- The wake-up configuration read. -/
  wakeup : WakeupCfg

/-- The state of the core dump library (`mcdr_status_t`). -/
inductive McdrStatus
  | archiveInProgress | succeed | cleaningUp | fsError | initError | ioError
  | startProtErr | protError | other

/-- The results of the outside calls made while one input is handled. -/
structure Env where
  /-- `CLOCK_BOOTTIME`. -/
  boottime : Timespec
  /-- The seconds of `gettimeofday`. -/
  timeofday : Int
  /-- The uninitialised time of `recov_start`. -/
  staleTime : Int
  /-- `mdm_flash_prepare` called by the handler of a request. -/
  prepare : FlashPrepare
  /-- `mdm_flash_prepare` called by `reset_modem`. -/
  prepareReset : FlashPrepare
  /-- `mdm_mcd_up` succeeds. -/
  mcdUp : Bool
  /-- `tty_open` succeeds. -/
  ttyOpen : Bool
  /-- The result of `switch_to_mux`. -/
  mux : MuxResult
  /-- The result of `mdm_mup_push_tlv` for each TLV. -/
  pushTlv : ℕ → NvmUpdateResult
  /-- The secured channel can be opened. -/
  secureOpen : Bool
  /-- The error of the secured channel. -/
  secureError : Option Bytes
  /-- `mdm_fw_backup_calib` succeeds. -/
  backupCalib : Bool
  /-- The state of the core dump library. -/
  mcdrState : McdrStatus
  /-- The file of the core dump. -/
  mcdrFilename : Bytes
  /-- The error of the core dump library. -/
  mcdrReason : Bytes

/-! ## Notification of the clients -/

/-- Set the state of the daemon (`set_mmgr_state`). -/
def setMmgrState (st : MmgrState) (m : MmgrData) : MmgrData :=
  { m with state := st, log := .setState st m.clients.hasResource :: m.log }

/-- Add an entry to the history. -/
def observe (o : Obs) (m : MmgrData) : MmgrData := { m with log := o :: m.log }

/-- The message sent to one entry of the table, if its client wants it. -/
def messageTo (c : Client) (answering : Option Request) (ev : Event) (data : EventData)
    (st : MmgrState) : List Obs :=
  if c.isSubscribed ev then [.sent c.fd answering ev data st] else []

/-- Send an event to the client of the current request (`client_inform`). -/
def clientInform (ev : Event) (m : MmgrData) : MmgrData :=
  { m with
    log := ((m.clients.get? m.request.client).elim [] fun c =>
      messageTo c (some m.request.id) ev .null m.state) ++ m.log }

/-- The messages of `clients_inform_all`, newest first. -/
def messagesToAll (ev : Event) (data : EventData) (m : MmgrData) : List Obs :=
  ((m.clients.list.filter Client.isConnected).flatMap fun c =>
    messageTo c none ev data m.state).reverse

/-- Send an event to all clients (`clients_inform_all`); a second modem down in a row is not
sent. -/
def clientsInformAll (ev : Event) (data : EventData) (m : MmgrData) : MmgrData :=
  { m with
    downState := if ev = .eventModemDown then true
      else if ev = .eventModemUp then false else m.downState
    log := if ev = .eventModemDown ∧ m.downState = true then m.log
      else messagesToAll ev data m ++ m.log }

/-- Send a telephony event to all clients. -/
def informTft (type : EventType) (name : String) (log : Int32) (data : List Bytes)
    (m : MmgrData) : MmgrData :=
  clientsInformAll .notifyTftEvent (.tft ⟨type, bytes name, log, data⟩) m

/-! ## Timers, driver filter and descriptors -/

/-- Arm a timer of the daemon. -/
def timerStart (env : Env) (type : TimerType) (m : MmgrData) : MmgrData :=
  { m with timer := m.timer.start type env.boottime }

/-- Disarm a timer of the daemon. -/
def timerStop (type : TimerType) (m : MmgrData) : MmgrData :=
  { m with timer := m.timer.stop type }

/-- Disarm every timer of the daemon. -/
def timerStopAll (m : MmgrData) : MmgrData := { m with timer := m.timer.stopAll }

/-- Ask the driver to report more states, or only these (`mdm_mcd_register`). -/
def mdmMcdRegister (events : List McdCtrlState) (overwrite : Bool) (m : MmgrData) : MmgrData :=
  { m with
    mcdFilter := fun s => (!overwrite && m.mcdFilter s) || events.contains s }

/-- Ask the driver not to report a state (`mdm_mcd_unregister`). -/
def mdmMcdUnregister (event : McdCtrlState) (m : MmgrData) : MmgrData :=
  { m with mcdFilter := fun s => m.mcdFilter s && s != event }

/-- Close the modem tty and the secured channel (`mdm_close_fds`). -/
def mdmCloseFds (m : MmgrData) : MmgrData :=
  { m with fdTty := false, fdSecure := !m.cfg.secureEnable && m.fdSecure }

/-- Change the link state. -/
def setLinkState (f : LinkState → LinkState) (m : MmgrData) : MmgrData :=
  { m with linkState := f m.linkState }

/-- Change the operation asked for by the clients. -/
def setCliReq (f : CliReq → CliReq) (m : MmgrData) : MmgrData :=
  { m with cliReq := f m.cliReq }

/-- Apply an operation of the recovery escalation. -/
def onReset (f : ResetManagement → ResetManagement) (m : MmgrData) : MmgrData :=
  { m with reset := f m.reset }

/-- Force the next recovery operation. -/
def recovForce (op : ForceOperation) (m : MmgrData) : MmgrData :=
  onReset (·.force op) m

end HardwareIntel.Mmgr
