import HardwareIntel.Mmgr.Daemon

/-!
# Flashing, core dump, bus and secured channel

The modules `core/mdm_flash.c`, `core/core_dump.c`, `core/bus_events.c` and `core/security.c`, as
far as the daemon depends on them. The firmware library, the core dump library and the USB stack
are outside; what they answer is part of the environment. A failed assertion of the source stops
the daemon: such functions return an `Option`.
-/

namespace HardwareIntel.Mmgr

/-! ## Flashing -/

/-- The flashing module at start. -/
def mdmFlashInit : MdmFlash where
  update := false
  thread := .joined
  attempts := 0
  flashErr := .errorUnspecified
  upgradeErrFlash := false
  upgradeErrTlv := false
  fwFile := false

/-- The firmware was found and its file exists. -/
def FlashPrepare.success (p : FlashPrepare) : Bool := p.fwPath && p.fileExist

/-- Package the firmware (`mdm_flash_prepare`); the result of the call is `p.success`. -/
def MdmFlash.prepare (p : FlashPrepare) (flash : MdmFlash) : MdmFlash :=
  { flash with
    update := if p.fwPath then p.hashChanged else flash.update
    fwFile := if p.fwPath then p.fileExist else flash.fwFile
    upgradeErrFlash := !p.success
    upgradeErrTlv := false }

/-- `mdm_flash_prepare` on the context. -/
def mdmFlashPrepare (p : FlashPrepare) (m : MmgrData) : MmgrData :=
  { m with flash := m.flash.prepare p }

/-- A firmware has to be uploaded (`mdm_flash_is_required`). -/
def mdmFlashIsRequired (m : MmgrData) : Bool := m.cfg.flashless || m.flash.update

/-- Start the flashing thread (`mdm_flash_start`). The result is `none` when the thread asserts
that there is no firmware, otherwise whether the thread was started. -/
def mdmFlashStart (m : MmgrData) : Option (Bool × MmgrData) :=
  if m.flash.flashOngoing then some (false, m)
  else if m.flash.fwFile then
    some (true, { m with
      flash := { m.flash with
        attempts := m.flash.attempts + 1
        flashErr := .errorUnspecified
        thread := .running } })
  else none

/-- The end of the flashing thread (`mdm_flash_push`): the result is stored and the main thread is
notified. -/
def mdmFlashPush (err : ModemFwError) (m : MmgrData) : MmgrData :=
  { m with flash := { m.flash with flashErr := err, thread := .ended } }

/-- Join the flashing thread (`mdm_flash_finalize`). -/
def mdmFlashFinalize (m : MmgrData) : MmgrData :=
  { m with
    flash := { m.flash with
      thread := .joined
      fwFile := !m.flash.flashOngoing && m.flash.fwFile } }

/-- Forget the attempts (`mdm_flash_reset_attempts`). -/
def mdmFlashResetAttempts (m : MmgrData) : MmgrData :=
  { m with flash := { m.flash with attempts := 0 } }

/-- Apply the TLV files one after the other until one fails: the last result and the file that
failed. `i` is the number of files already applied. -/
def pushTlvs (push : ℕ → NvmUpdateResult) (i : ℕ) (file : Bytes) :
    List Bytes → NvmUpdateResult × Option Bytes
  | [] => if (push i).id = .succeed then (push i, none) else (push i, some file)
  | next :: files =>
    if (push i).id = .succeed then pushTlvs push (i + 1) next files else (push i, some file)

/-- The loop over all TLV files of the configuration. -/
def pushAllTlvs (push : ℕ → NvmUpdateResult) (cfg : MmgrCfg) : NvmUpdateResult × Option Bytes :=
  pushTlvs push 0 (cfg.tlvs.head cfg.tlvs_ne_nil) cfg.tlvs.tail

/-- Apply the TLV files when an update is due (`mdm_flash_streamline`): the result, the file that
failed, and the context. The source asserts that the firmware was flashed before. -/
def mdmFlashStreamline (env : Env) (m : MmgrData) :
    Option (NvmUpdateResult × Option Bytes × MmgrData) :=
  if m.flash.update then
    if m.flash.flashErr = .succeed then
      let (err, file) := pushAllTlvs env.pushTlv m.cfg
      some (err, file, { m with
        flash := { m.flash with
          update := false
          upgradeErrTlv := m.flash.upgradeErrTlv || file.isSome } })
    else none
  else some (⟨.noNvmPatch, 0⟩, none, m)

/-! ## Core dump -/

/-- The outcome reported by the core dump library (`mcdr_get_result`). -/
def McdrStatus.result : McdrStatus → CoreDumpState
  | .archiveInProgress | .succeed => .succeed
  | .cleaningUp | .fsError | .initError | .ioError => .linkError
  | .startProtErr | .protError => .protocolError
  | .other => .other

/-- `mcdr_get_result`: without the library there is no function to call. -/
def mcdrGetResult (env : Env) (m : MmgrData) : Option CoreDumpState :=
  if m.cfg.mcdrEnabled then some env.mcdrState.result else none

/-- Start the core dump thread (`mcdr_start`). -/
def mcdrStart (m : MmgrData) : MmgrData := { m with mcdrRunning := true }

/-- Join the core dump thread (`mcdr_finalize`); `mcdr_cancel` does no more to the context. -/
def mcdrFinalize (m : MmgrData) : MmgrData := { m with mcdrRunning := false }

/-! ## USB bus -/

/-- A change on the bus: a device appears, and may be opened to read its numbers, or disappears. -/
inductive BusEvent
  | added (path : Bytes) (dev : Option UsbId)
  | deleted (path : Bytes)

/-- The changes taken into account at once (`BUS_EV_CAPACITY`). -/
def busEvCapacity : ℕ := 32

/-- One change of the bus; the flag tells whether it concerns the modem. -/
def BusEv.hdleEvent (cfg : MmgrCfg) (bus : BusEv) : BusEvent → Bool × BusEv
  | .added _ none => (false, bus)
  | .added path (some dev) =>
    if dev = cfg.flashId then (true, { bus with flashReady := true, flashPath := path })
    else if dev = cfg.bbId then (true, { bus with bbReady := true, bbPath := path })
    else if dev = cfg.reconfigId then (true, { bus with bbReady := true, bbPath := path })
    else if dev = cfg.cdId then (true, { bus with cdReady := true, cdPath := path })
    else (false, bus)
  | .deleted path =>
    if bus.flashPath = path then (true, { bus with flashReady := false, flashPath := [] })
    else if bus.bbPath = path then (true, { bus with bbReady := false, bbPath := [] })
    else if bus.cdPath = path then (true, { bus with cdReady := false, cdPath := [] })
    else (false, bus)

/-- The changes of the bus (`bus_ev_hdle_events`): the flag tells whether one of them concerns the
modem. -/
def BusEv.hdleEvents (cfg : MmgrCfg) (bus : BusEv) (evs : List BusEvent) : Bool × BusEv :=
  (evs.take busEvCapacity).foldl
    (fun acc ev => ((acc.1 || (acc.2.hdleEvent cfg ev).1), (acc.2.hdleEvent cfg ev).2))
    (false, bus)

/-! ## Secured channel -/

/-- Open the secured channel (`launch_secur`). Whatever the outcome, the handlers that call it go
on. -/
def launchSecur (env : Env) (m : MmgrData) : MmgrData :=
  { m with fdSecure := m.cfg.secureEnable && env.secureOpen }

end HardwareIntel.Mmgr
