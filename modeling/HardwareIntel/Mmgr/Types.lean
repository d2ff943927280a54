import Mathlib.Data.List.Basic

/-!
# Enumerations and payloads of the modem manager

The enumerations of `core/states.h`, `inc/mmgr.h`, `core/timer_events.h`,
`core/reset_escalation.h`, `core/client.h` and `core/events_manager.h`, and the payloads that
accompany some of the events sent to the clients.
-/

namespace HardwareIntel.Mmgr

/-- A C string or a raw buffer, without the terminating NUL. -/
abbrev Bytes := List UInt8

/-- The bytes of a string literal of the source. -/
def bytes (s : String) : Bytes := s.toUTF8.toList

/-- The states of the daemon (`e_mmgr_state_t`). -/
inductive MmgrState
  | mdmOff | mdmReset | mdmStart | mdmConfOngoing | mdmUp | mdmOos
  | waitColdAck | waitShtAck | mdmCoreDump | mdmPrepareOff | mdmLinkUsbDisc
  deriving DecidableEq

/-- The requests of the clients (`e_mmgr_requests_t`), in the order of their numbers. -/
inductive Request
  | setName | setEvents | resourceAcquire | resourceRelease
  | requestModemRecovery | requestModemRestart | requestForceModemShutdown
  | ackModemColdReset | ackModemShutdown
  | requestModemFuseInfo | requestModemGetHwId | requestModemBackupProduction
  | requestFakeDown | requestFakeUp | requestFakeApReset | requestFakeSelfReset
  | requestFakeModemShutdown | requestFakeModemOutOfService | requestFakeCoreDump
  | requestFakeCoreDumpComplete | requestFakePlatformReboot | requestFakeTftEvent
  deriving DecidableEq

/-- The requests by number; `E_MMGR_NUM_REQUESTS` is the length of this list. -/
def Request.all : List Request :=
  [.setName, .setEvents, .resourceAcquire, .resourceRelease, .requestModemRecovery,
    .requestModemRestart, .requestForceModemShutdown, .ackModemColdReset, .ackModemShutdown,
    .requestModemFuseInfo, .requestModemGetHwId, .requestModemBackupProduction,
    .requestFakeDown, .requestFakeUp, .requestFakeApReset, .requestFakeSelfReset,
    .requestFakeModemShutdown, .requestFakeModemOutOfService, .requestFakeCoreDump,
    .requestFakeCoreDumpComplete, .requestFakePlatformReboot, .requestFakeTftEvent]

/-- The request with number `id`, if there is one. -/
def Request.ofId (id : ℕ) : Option Request := Request.all[id]?

/-- The number of a request. -/
def Request.toId (req : Request) : ℕ := Request.all.idxOf req

@[simp] theorem Request.ofId_toId (req : Request) : Request.ofId req.toId = some req := by
  cases req <;> rfl

/-- The requests that only an engineering build accepts. -/
def Request.isFake : Request → Bool
  | .requestFakeDown | .requestFakeUp | .requestFakeApReset | .requestFakeSelfReset
  | .requestFakeModemShutdown | .requestFakeModemOutOfService | .requestFakeCoreDump
  | .requestFakeCoreDumpComplete | .requestFakePlatformReboot | .requestFakeTftEvent => true
  | _ => false

/-- The events sent to the clients (`e_mmgr_events_t`), in the order of their numbers. -/
inductive Event
  | eventModemDown | eventModemUp | eventModemNflush | eventModemOutOfService
  | notifyModemColdReset | notifyModemShutdown | notifyPlatformReboot | notifyCoreDump
  | ack | nack
  | notifyCoreDumpComplete | notifyApReset | notifySelfReset | notifyTftEvent
  | responseModemHwId | responseModemFwResult | responseModemNvmResult | responseFuseInfo
  | responseModemBackupProduction
  deriving DecidableEq

/-- The events by number; `E_MMGR_NUM_EVENTS` is the length of this list. -/
def Event.all : List Event :=
  [.eventModemDown, .eventModemUp, .eventModemNflush, .eventModemOutOfService,
    .notifyModemColdReset, .notifyModemShutdown, .notifyPlatformReboot, .notifyCoreDump,
    .ack, .nack, .notifyCoreDumpComplete, .notifyApReset, .notifySelfReset, .notifyTftEvent,
    .responseModemHwId, .responseModemFwResult, .responseModemNvmResult, .responseFuseInfo,
    .responseModemBackupProduction]

/-- The event with number `id`, if there is one. -/
def Event.ofId (id : ℕ) : Option Event := Event.all[id]?

/-- The number of an event, the bit it uses in a subscription mask. -/
def Event.toId : Event → ℕ
  | .eventModemDown => 0 | .eventModemUp => 1 | .eventModemNflush => 2
  | .eventModemOutOfService => 3 | .notifyModemColdReset => 4 | .notifyModemShutdown => 5
  | .notifyPlatformReboot => 6 | .notifyCoreDump => 7 | .ack => 8 | .nack => 9
  | .notifyCoreDumpComplete => 10 | .notifyApReset => 11 | .notifySelfReset => 12
  | .notifyTftEvent => 13 | .responseModemHwId => 14 | .responseModemFwResult => 15
  | .responseModemNvmResult => 16 | .responseFuseInfo => 17
  | .responseModemBackupProduction => 18

/-- The flags kept for a client (`e_cnx_requests_t`). -/
inductive CnxRequest
  | name | filter | coldReset | modemShutdown | resourceReleased
  deriving DecidableEq

/-- The timers (`e_timer_type_t`). -/
inductive TimerType
  | coldResetAck | modemShutdownAck | waitForIpcReady | waitForBusReady | rebootModemDelay
  | coreDumpIpcReset | waitCoreDumpReady | mdmFlashing | coreDumpReading | fmmo
  deriving DecidableEq

/-- The levels of the escalation (`e_escalation_level_t`). -/
inductive EscalationLevel
  | unknown | modemColdReset | platformReboot | modemOutOfService
  deriving DecidableEq

/-- The states of a reset operation (`e_reset_operation_state_t`). -/
inductive ResetOperationState
  | none | wait | continue
  deriving DecidableEq

/-- The forced operations (`e_force_operation_t`). -/
inductive ForceOperation
  | none | noCount | oos
  deriving DecidableEq

/-- The kind of a link to the modem; only USB is told apart (`e_link_t`). -/
inductive LinkType
  | usb | other
  deriving DecidableEq

/-- The wake-up configuration read from the modem (`e_mdm_wakeup_cfg_t`). -/
inductive WakeupCfg
  | unknown | inband | outband

/-- The modem states the driver can be asked to report (`MDM_CTRL_STATE_*`). -/
inductive McdCtrlState
  | off | coldBoot | warmBoot | coredump | ipcReady | fwDownloadReady
  deriving DecidableEq

/-! ## Payloads -/

/-- The outcome of a core dump retrieval (`e_core_dump_state_t`). -/
inductive CoreDumpState
  | succeed | timeout | linkError | protocolError | selfReset | other
  deriving DecidableEq

/-- The outcome of a firmware flashing (`e_modem_fw_error_t`). -/
inductive ModemFwError
  | succeed | outdated | readyTimeout | securityCorrupted | swCorrupted | badFamily
  | errorUnspecified
  deriving DecidableEq

/-- The outcome of a non-volatile memory update (`e_modem_nvm_error_t`). -/
inductive ModemNvmError
  | succeed | noNvmPatch | errorUnspecified | fail
  deriving DecidableEq

/-- The kind of a telephony event (`e_event_type_t`). -/
inductive EventType
  | error | stats | info
  deriving DecidableEq

/-- A core dump notification (`mmgr_cli_core_dump_t`). -/
structure CoreDump where
  /-- How the retrieval ended. -/
  state : CoreDumpState
  /-- The file written. -/
  path : Bytes
  /-- Why it failed. -/
  reason : Bytes
  deriving DecidableEq

/-- A telephony event (`mmgr_cli_tft_event_t`). -/
structure TftEvent where
  /-- The kind of the event. -/
  type : EventType
  /-- Its name. -/
  name : Bytes
  /-- The mask of the logs to join to it. -/
  log : Int32
  /-- Its data strings. -/
  data : List Bytes
  deriving DecidableEq

/-- The reset notification the daemon relays (`mmgr_cli_internal_ap_reset_t`). -/
structure InternalApReset where
  /-- The name of the requesting client. -/
  name : Bytes
  /-- The raw payload of its request. -/
  extraData : Bytes
  deriving DecidableEq

/-- The result of a firmware update (`mmgr_cli_fw_update_result_t`). -/
structure FwUpdateResult where
  /-- The error number. -/
  id : ModemFwError
  deriving DecidableEq

/-- The result of an NVM update (`mmgr_cli_nvm_update_result_t`). -/
structure NvmUpdateResult where
  /-- The error number. -/
  id : ModemNvmError
  /-- The detailed error. -/
  subErrorCode : Int32
  deriving DecidableEq

/-- The data handed to `client_inform` together with an event. -/
inductive EventData
  | null
  | coreDump (cd : CoreDump)
  | apReset (ap : InternalApReset)
  | tft (ev : TftEvent)
  | fwResult (result : FwUpdateResult)
  | nvmResult (result : NvmUpdateResult)
  deriving DecidableEq

/-- The log mask that asks for the application processor logs. -/
def tftApLogMask : Int32 := 1

/-- The log mask that asks for the modem logs. -/
def tftBpLogMask : Int32 := 2

end HardwareIntel.Mmgr
