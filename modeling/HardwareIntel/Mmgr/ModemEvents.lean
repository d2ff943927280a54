import HardwareIntel.Mmgr.Peripherals

/-!
# Events of the modem

The handlers of `core/modem_events.c`: the recovery operations, the shutdown, the configuration of
the modem, and what the daemon does when the modem tty hangs up, when the driver reports a modem
state, or when the USB bus changes.
-/

namespace HardwareIntel.Mmgr

/-! ## Notifications -/

/-- Tell the clients how the retrieval of a core dump ended, with the file of the core dump
library (`notify_core_dump` with a reader). -/
def notifyCoreDump (env : Env) (state : CoreDumpState) (m : MmgrData) : MmgrData :=
  clientsInformAll .notifyCoreDumpComplete
    (.coreDump
      { state := state
        path := m.cfg.mcdrPath ++ bytes "/" ++ env.mcdrFilename ++ [0]
        reason := if state = .timeout then bytes "Timeout. Operation aborted"
          else if state ≠ .succeed then env.mcdrReason else [] }) m

/-- Tell the clients that the modem reset itself during a core dump (`notify_core_dump` without
reader). -/
def notifyCoreDumpSelfReset (m : MmgrData) : MmgrData :=
  clientsInformAll .notifyCoreDumpComplete (.coreDump ⟨.selfReset, [], []⟩) m

/-- Tell the clients the result of the flashing (`inform_flash_err`). -/
def informFlashErr (err : ModemFwError) (attempts timer : Int) (m : MmgrData) : MmgrData :=
  let m := clientsInformAll .responseModemFwResult (.fwResult ⟨err⟩) m
  match err with
  | .badFamily => informTft .stats "TFT_STAT_FLASH" 0 [bytes "Modem FW bad family"] m
  | .succeed => informTft .stats "TFT_STAT_FLASH" 0
      [bytes "Modem flashing succeed", bytes (toString attempts), bytes (toString timer)] m
  | .swCorrupted => informTft .stats "TFT_STAT_FLASH" 0 [bytes "Modem FW corrupted"] m
  | .errorUnspecified => informTft .stats "TFT_STAT_FLASH" tftApLogMask
      [bytes "Modem FW unspecified error"] m
  | .outdated => informTft .stats "TFT_STAT_FLASH" 0 [bytes "Modem FW outdated"] m
  | .securityCorrupted =>
    informTft .stats "TFT_STAT_FLASH" 0 [bytes "Modem FW security corrupted"] m
  | .readyTimeout => m

/-- Tell the clients that the firmware or a TLV could not be updated (`inform_upgrade_err`). -/
def informUpgradeErr (m : MmgrData) : MmgrData :=
  informTft .error "TFT_MDM_UPDATE" tftApLogMask
    ((if m.flash.upgradeErrFlash then [bytes "FLS UPDATE FAILURE"] else []) ++
      (if m.flash.upgradeErrTlv then [bytes "TLV UPDATE FAILURE"] else [])) m

/-! ## Core dump -/

/-- Start the retrieval of a core dump (`core_dump_prepare`). -/
def coreDumpPrepare (env : Env) (m : MmgrData) : MmgrData :=
  if m.cfg.mcdrEnabled then
    let m := timerStop .coreDumpIpcReset m
    let m := timerStop .waitCoreDumpReady m
    let m := timerStart env .coreDumpReading m
    let m := mcdrStart m
    { m with cdRetrieved := true }
  else
    let m := timerStopAll m
    setMmgrState .mdmReset m

/-- End the retrieval of a core dump (`core_dump_finalize`). -/
def coreDumpFinalize (env : Env) (state : CoreDumpState) (m : MmgrData) : MmgrData :=
  let m := notifyCoreDump env state m
  let m := mdmMcdRegister [.ipcReady] false m
  let m := mdmMcdUnregister .warmBoot m
  let m := setLinkState (fun l => if m.cfg.bbType = .usb then .none else l) m
  setMmgrState .mdmReset m

/-- Tell the clients that the modem is down and close its descriptors, if they are open. -/
def closeIfOpen (m : MmgrData) : MmgrData :=
  if m.fdTty then mdmCloseFds (clientsInformAll .eventModemDown .null m) else m

/-! ## Recovery operations -/

/-- The first half of a cold reset (`pre_mdm_cold_reset`): the clients are asked to acknowledge,
and the reset goes on when they have done so or when there is no client. -/
def preMdmColdReset (env : Env) (m : MmgrData) : MmgrData :=
  if m.reset.state = .none ∧ m.clients.connected ≠ 0 then
    let m := onReset (·.setState .wait) m
    let m := clientsInformAll .eventModemDown .null m
    let m := clientsInformAll .notifyModemColdReset .null m
    let m := setMmgrState .waitColdAck m
    timerStart env .coldResetAck m
  else if m.reset.state = .wait ∨ m.clients.connected = 0 then
    let m := onReset (·.setState .continue) m
    let m := setMmgrState
      (if m.cfg.bbType = .usb ∧ mdmFlashIsRequired m then .mdmStart else .mdmConfOngoing) m
    if m.clients.connected ≠ 0 then
      timerStop .coldResetAck { m with clients := clientsResetAckCold m.clients }
    else m
  else m

/-- The first half of an out-of-service declaration (`pre_modem_out_of_service`). -/
def preModemOutOfService (_env : Env) (m : MmgrData) : MmgrData :=
  let m := clientsInformAll .eventModemOutOfService .null m
  let m := setMmgrState .mdmOos m
  onReset (·.setState .continue) m

/-- The first half of a platform reboot (`pre_platform_reboot`): when the reboots are used up, the
modem is declared out of service instead. -/
def prePlatformReboot (env : Env) (m : MmgrData) : MmgrData :=
  let m := onReset (·.setState .continue) m
  if m.reset.getRetryAllowed ≤ m.reset.reboot then
    preModemOutOfService env (onReset ResetManagement.next m)
  else
    let m := onReset (fun r => r.setReboot (r.reboot + 1)) m
    let m := clientsInformAll .notifyPlatformReboot .null m
    setMmgrState .mdmOos m

/-- The table of the first halves; the unknown level has none. -/
def hdlerPreMdm : EscalationLevel → Option (Env → MmgrData → MmgrData)
  | .unknown => none
  | .modemColdReset => some preMdmColdReset
  | .platformReboot => some prePlatformReboot
  | .modemOutOfService => some preModemOutOfService

/-- The table of the operations: `mdm_mcd_cold_reset`, `platform_reboot` and `mdm_mcd_off`. -/
def hdlerMdm (m : MmgrData) : MmgrData :=
  match m.reset.level with
  | .unknown => m
  | .modemColdReset => observe (.coldReset (m.reset.op != .noCount)) m
  | .platformReboot => observe .platformReboot m
  | .modemOutOfService => observe .outOfService m

/-- The level is one of the last two, after which nothing more is done. -/
def EscalationLevel.isFinal : EscalationLevel → Bool
  | .platformReboot | .modemOutOfService => true
  | _ => false

/-- The end of a cold reset in `reset_modem`: count it, and wait for the modem. -/
def resetModemDone (env : Env) (m : MmgrData) : MmgrData :=
  let m := onReset ResetManagement.done m
  let m := mdmMcdRegister
    [if mdmFlashIsRequired m then .fwDownloadReady else .ipcReady, .coredump] true m
  let m := if !mdmFlashIsRequired m && m.cfg.ipcReadyPresent
    then timerStart env .waitForIpcReady m else m
  if m.cfg.bbType = .usb then
    setLinkState (fun _ => .none) (timerStart env .waitForBusReady m)
  else m

/-- The second half of `reset_modem`, after the first half of the operation of level `level`. -/
def resetModemOperate (env : Env) (level : EscalationLevel) (m : MmgrData) : MmgrData :=
  let m := mdmMcdRegister (if level.isFinal then [] else [.coredump]) true m
  let m := timerStopAll m
  let m := mdmCloseFds m
  let m := hdlerMdm m
  if m.reset.level.isFinal then m else resetModemDone env m

/-- The firmware is prepared and the escalation is started, at the head of `reset_modem`. -/
def resetModemStart (env : Env) (m : MmgrData) : MmgrData :=
  let m := mdmFlashPrepare env.prepareReset m
  let m := if env.prepareReset.success then m else recovForce .oos m
  onReset (·.start env.timeofday env.staleTime) m

/-- Make the next recovery operation (`reset_modem`). A level without operation stops the
daemon. -/
def resetModem (env : Env) (m : MmgrData) : Option MmgrData := do
  let m := resetModemStart env m
  let pre ← hdlerPreMdm m.reset.level
  let level := m.reset.level
  let m := pre env m
  if m.reset.state = .wait then some m else some (resetModemOperate env level m)

/-! ## Shutdown -/

/-- Start the shutdown of the modem (`mdm_start_shtdwn`). -/
def mdmStartShtdwn (m : MmgrData) : MmgrData := mdmMcdRegister [.warmBoot, .coredump] true m

/-- End the shutdown of the modem (`mdm_finalize_shtdwn`). -/
def mdmFinalizeShtdwn (m : MmgrData) : MmgrData :=
  let m := clientsInformAll .eventModemDown .null m
  let m := onReset (·.setState .none) m
  mdmCloseFds m

/-! ## Configuration -/

/-- Open the modem tty and switch to multiplexed mode (`configure_modem`): the flag tells whether
it succeeded. -/
def configureModem (env : Env) (m : MmgrData) : Bool × MmgrData :=
  if m.fdTty = false ∧ env.ttyOpen then
    let m := { m with fdTty := env.mux.ok || env.mux.fdOpen, wakeupCfg := env.mux.wakeup }
    if env.mux.ok then
      let m := setMmgrState .mdmUp m
      (true, mdmMcdRegister [.coredump, .off, .warmBoot, .coldBoot] true m)
    else
      let m := informTft .error "TFT_ERROR_IPC" (tftApLogMask ||| tftBpLogMask)
        [bytes "MUX configuration failed"] m
      (false, setMmgrState .mdmReset m)
  else (false, setMmgrState .mdmReset m)

/-- Apply the TLV files (`streamline`): the flag tells whether an update was applied. -/
def streamline (env : Env) (m : MmgrData) : Option (Bool × MmgrData) := do
  let (err, file, m) ← mdmFlashStreamline env m
  let m := match file with
    | none => m
    | some filename =>
      let m := informTft .error "TFT_ERROR_TLV" (tftApLogMask ||| tftBpLogMask)
        [bytes "TLV failure: failed to apply TLV", filename] m
      let m := recovForce .oos m
      setMmgrState .mdmReset m
  let m := clientsInformAll .responseModemNvmResult (.nvmResult err) m
  some (err.id = .succeed, m)

/-- Configure the modem and tell the clients (`do_configure`). -/
def doConfigure (env : Env) (m : MmgrData) : Option MmgrData :=
  let (ok, m) := configureModem env m
  if ok then do
    let (updated, m) ← streamline env m
    let m := if updated then
        timerStart env .rebootModemDelay (clientsInformAll .eventModemNflush .null m)
      else clientsInformAll .eventModemUp .null (launchSecur env m)
    some { m with cdRetrieved := false }
  else some m

/-! ## Handlers -/

/-- The modem tty hangs up (`ipc_event`). -/
def ipcEvent (m : MmgrData) : MmgrData :=
  let m := clientsInformAll .eventModemDown .null m
  let m := mdmCloseFds m
  let m := informTft .error "TFT_ERROR_IPC" tftApLogMask
    [bytes "IPC hang-up",
      match m.wakeupCfg with
      | .outband => bytes "Streamline OUTBAND"
      | .inband => bytes "Streamline INBAND"
      | .unknown => bytes "Streamline UNKNOWN"] m
  if m.state = .mdmPrepareOff then
    let m := timerStop .fmmo m
    let m := mdmFinalizeShtdwn m
    setMmgrState .mdmOff m
  else setMmgrState .mdmReset m

/-- The modem states read from the driver (`mdm_mcd_get_state`). -/
structure McdState where
  /-- `E_EV_FW_DOWNLOAD_READY`. -/
  fwDownloadReady : Bool
  /-- `E_EV_IPC_READY`. -/
  ipcReady : Bool
  /-- `E_EV_CORE_DUMP`. -/
  coreDump : Bool
  /-- `E_EV_MODEM_SELF_RESET`. -/
  selfReset : Bool

/-- Start the flashing thread and its timer, or reset the modem when it is already running. -/
def startFlashing (env : Env) (m : MmgrData) : Option MmgrData := do
  let (started, m) ← mdmFlashStart m
  some (if started then timerStart env .mdmFlashing m else setMmgrState .mdmReset m)

/-- The driver reports that the modem waits for a firmware. -/
def mcdFwDownloadReady (env : Env) (m : MmgrData) : Option MmgrData :=
  let m := setLinkState (fun l => { l with fwDlReady := true, ipcReady := false }) m
  let m := mdmMcdUnregister .fwDownloadReady m
  if m.cfg.flashEblType ≠ .usb ∨ m.linkState.flashReady then startFlashing env m else some m

/-- The driver reports that the modem is ready. -/
def mcdIpcReady (env : Env) (m : MmgrData) : Option MmgrData :=
  let m := timerStop .waitForIpcReady m
  let m := setLinkState (fun l => { l with ipcReady := true, fwDlReady := false }) m
  let m := mdmMcdUnregister .ipcReady m
  if m.state = .mdmConfOngoing ∧ (m.cfg.bbType ≠ .usb ∨ m.linkState.bbReady) then
    doConfigure env m
  else some m

/-- The driver reports a core dump. -/
def mcdCoreDump (env : Env) (m : MmgrData) : MmgrData :=
  let m := setMmgrState .mdmCoreDump m
  let m := timerStopAll m
  let m := closeIfOpen m
  let m := setLinkState (fun l => { l with coreDumpReady := true }) m
  let m := mdmMcdUnregister .coredump m
  let m := timerStart env .coreDumpIpcReset m
  let m := timerStart env .waitCoreDumpReady m
  let m := clientsInformAll .notifyCoreDump .null m
  if m.cfg.cdType = .usb ∧ m.linkState.coreDumpReadReady = false then m
  else coreDumpPrepare env m

/-- The driver reports that the modem reset itself. -/
def mcdSelfReset (env : Env) (m : MmgrData) : Option MmgrData :=
  let m := mdmMcdUnregister .warmBoot m
  if m.state = .mdmCoreDump then do
    let result ← mcdrGetResult env m
    if result ≠ .succeed then
      let m := mcdrFinalize m
      let m := notifyCoreDumpSelfReset m
      some (setMmgrState .mdmReset m)
    else some m
  else if m.state = .mdmPrepareOff then
    let m := timerStop .fmmo m
    let m := mdmFinalizeShtdwn m
    some (setMmgrState .mdmOff m)
  else
    let m := clientsInformAll .eventModemDown .null m
    let m := clientsInformAll .notifySelfReset .null m
    some (setMmgrState .mdmReset m)

/-- The driver reports a modem state (`modem_control_event`). -/
def modemControlEvent (env : Env) (st : McdState) (m : MmgrData) : Option MmgrData :=
  if st.fwDownloadReady then mcdFwDownloadReady env m
  else if st.ipcReady then mcdIpcReady env m
  else if st.coreDump then some (mcdCoreDump env m)
  else if st.selfReset then mcdSelfReset env m
  else some m

/-- The modem can be configured: the link tells so, or the modem has no ready signal. -/
def configureIfReady (env : Env) (m : MmgrData) : Option MmgrData :=
  if m.linkState.ipcReady ∨ m.cfg.ipcReadyPresent = false then doConfigure env m else some m

/-- The modem is found on the bus while it is being configured. -/
def busBbReady (env : Env) (m : MmgrData) : Option MmgrData :=
  let m := { m with isMdmBbReady := true }
  let m := timerStop .waitForBusReady m
  let m := setLinkState (fun l => { l with flashReady := false, bbReady := true }) m
  configureIfReady env m

/-- The modem is found on the bus after a disconnection. -/
def busBbBack (env : Env) (m : MmgrData) : Option MmgrData :=
  let m := { m with isMdmBbReady := true }
  let m := timerStop .waitForBusReady m
  let m := timerStop .waitCoreDumpReady m
  let m := setLinkState (fun l => { l with bbReady := true }) m
  configureIfReady env m

/-- The modem is found on the bus in flashing mode. -/
def busFlashReady (env : Env) (m : MmgrData) : Option MmgrData :=
  let m := timerStop .waitForBusReady m
  let m := setLinkState (fun l => { l with flashReady := true, bbReady := false }) m
  if m.linkState.fwDlReady ∨ m.cfg.ipcReadyPresent = false then startFlashing env m else some m

/-- The modem is found on the bus in core dump mode during a core dump. -/
def busCdReady (env : Env) (m : MmgrData) : MmgrData :=
  let m := closeIfOpen m
  let m := setLinkState (fun l => { l with coreDumpReadReady := true }) m
  if m.linkState.coreDumpReady then coreDumpPrepare env m else m

/-- The modem is found on the bus in core dump mode after a disconnection. -/
def busCdBack (env : Env) (m : MmgrData) : MmgrData :=
  let m := setMmgrState .mdmCoreDump m
  let m := timerStopAll m
  let m := closeIfOpen m
  let m := timerStart env .coreDumpIpcReset m
  let m := clientsInformAll .notifyCoreDump .null m
  let m := setLinkState (fun l => { l with coreDumpReady := true }) m
  coreDumpPrepare env m

/-- The modem disappears from the bus. -/
def busBbGone (env : Env) (m : MmgrData) : MmgrData :=
  let m := { m with isMdmBbReady := false }
  if m.state = .mdmUp ∨ m.state = .waitColdAck ∨ m.state = .waitShtAck ∨
      m.state = .mdmConfOngoing then
    let m := clientsInformAll .eventModemDown .null m
    let m := if m.fdTty then mdmCloseFds m else m
    let m := timerStop .waitCoreDumpReady m
    let m := timerStart env .waitCoreDumpReady m
    setMmgrState .mdmLinkUsbDisc m
  else m

/-- The USB bus changes (`bus_events`). -/
def busEvents (env : Env) (evs : List BusEvent) (m : MmgrData) : Option MmgrData :=
  let (ours, bus) := m.bus.hdleEvents m.cfg evs
  let m := { m with bus := bus }
  if ours = false then some m
  else if m.bus.bbReady ∧ m.state = .mdmConfOngoing then busBbReady env m
  else if m.bus.bbReady ∧ m.state = .mdmLinkUsbDisc then busBbBack env m
  else if m.bus.flashReady ∧ m.state = .mdmStart then busFlashReady env m
  else if m.bus.cdReady ∧ m.state = .mdmCoreDump then some (busCdReady env m)
  else if m.bus.cdReady ∧ m.state = .mdmLinkUsbDisc then some (busCdBack env m)
  else if m.bus.bbReady = false ∧ m.isMdmBbReady then some (busBbGone env m)
  else some m

end HardwareIntel.Mmgr
