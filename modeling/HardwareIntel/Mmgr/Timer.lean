import HardwareIntel.Mmgr.Types
import Mathlib.Algebra.Group.Int.Defs
import Mathlib.Algebra.Group.Nat.Defs
import Mathlib.Logic.Function.Basic

/-!
# The timers of the daemon

The timer table of `core/timer_events.c`. A timer is armed or not, and an armed timer has an end
time on the boot-time clock; its duration comes from the configuration, a null duration meaning
that the timer is never armed.
-/

namespace HardwareIntel.Mmgr

/-- A point in time (`struct timespec`). -/
structure Timespec where
  /-- Seconds. -/
  sec : Int
  /-- Nanoseconds. -/
  nsec : Int

/-- The timer table (`mmgr_timer_t`). -/
structure MmgrTimer where
  /-- The armed timers (the bits of `type`). -/
  armed : TimerType → Bool
  /-- The duration of each timer, in seconds. -/
  timeout : TimerType → Int
  /-- The end time of each timer. -/
  endTime : TimerType → Timespec

/-- A result of the arithmetic of `long`, of 64 bits. -/
def toLong (x : Int) : Int := x.bmod (2 ^ 64)

/-- A `long` that is stored in an `int`. -/
def longToInt (x : Int) : Int := x.bmod (2 ^ 32)

/-- The milliseconds left between `cur` and `endT`, a `long`; the division truncates. -/
def timerGetElapsed (cur endT : Timespec) : Int :=
  toLong ((endT.sec - cur.sec) * 1000 + (endT.nsec - cur.nsec).tdiv 1000000)

namespace MmgrTimer

/-- The timer is armed and its time is over. -/
def isElapsed (t : MmgrTimer) (type : TimerType) (cur : Timespec) : Bool :=
  t.armed type && decide (timerGetElapsed cur (t.endTime type) ≤ 0)

/-- Arm a timer, unless its duration is null. -/
def start (t : MmgrTimer) (type : TimerType) (cur : Timespec) : MmgrTimer :=
  if t.timeout type ≠ 0 then
    { t with
      armed := Function.update t.armed type true
      endTime := Function.update t.endTime type ⟨cur.sec + t.timeout type, cur.nsec⟩ }
  else t

/-- Disarm a timer. -/
def stop (t : MmgrTimer) (type : TimerType) : MmgrTimer :=
  { t with armed := Function.update t.armed type false }

/-- Disarm every timer. -/
def stopAll (t : MmgrTimer) : MmgrTimer := { t with armed := fun _ => false }

/-- The milliseconds since the timer was started; the product is one of `int`. -/
def getValue (t : MmgrTimer) (type : TimerType) (cur : Timespec) : Int :=
  toLong (longToInt (t.timeout type * 1000) - timerGetElapsed cur (t.endTime type))

/-- No timer is armed. -/
def Idle (t : MmgrTimer) : Prop := ∀ type, t.armed type = false

end MmgrTimer

/-- The durations given by the configuration (`mmgr_recovery_t`, `mmgr_timings_t`, `mcdr_info_t`),
in seconds. -/
structure Timings where
  /-- Time left to the clients to acknowledge a cold reset. -/
  coldTimeout : Int
  /-- Time left to the clients to acknowledge a shutdown. -/
  shtdwnTimeout : Int
  /-- Time left to the modem to be ready. -/
  ipcReady : Int
  /-- Time before the core dump link is reset. -/
  cdIpcReset : Int
  /-- Time left to the core dump link to be ready. -/
  cdIpcReady : Int
  /-- Time left to the flashing. -/
  mdmFlash : Int
  /-- Time left to the retrieval of a core dump. -/
  mcdrTimeout : Int
  /-- Time left to the modem to switch itself off. -/
  fmmo : Int

/-- The duration of each timer. -/
def Timings.timeout (cfg : Timings) : TimerType → Int
  | .coldResetAck => cfg.coldTimeout
  | .modemShutdownAck => cfg.shtdwnTimeout
  | .waitForIpcReady => cfg.ipcReady
  | .waitForBusReady => cfg.ipcReady
  | .rebootModemDelay => cfg.ipcReady
  | .coreDumpIpcReset => cfg.cdIpcReset
  | .waitCoreDumpReady => cfg.cdIpcReady
  | .mdmFlashing => cfg.mdmFlash
  | .coreDumpReading => cfg.mcdrTimeout
  | .fmmo => cfg.fmmo

/-- The timer table at start: nothing is armed. -/
def timerInit (cfg : Timings) : MmgrTimer where
  armed := fun _ => false
  timeout := cfg.timeout
  endTime := fun _ => ⟨0, 0⟩

namespace MmgrTimer

variable {t : MmgrTimer} {type other : TimerType} {cur : Timespec}

/-- Stopping every timer leaves none armed. -/
theorem idle_stopAll : t.stopAll.Idle := fun _ => rfl

/-- A timer that is not armed has not elapsed. -/
theorem isElapsed_of_not_armed (h : t.armed type = false) : t.isElapsed type cur = false := by
  simp [isElapsed, h]

/-- Stopping a timer leaves the others alone. -/
@[simp] theorem stop_armed :
    (t.stop type).armed other = (!decide (other = type) && t.armed other) := by
  by_cases h : other = type <;> simp [stop, Function.update, h]

/-- A stopped table stays stopped when one more timer is stopped. -/
theorem Idle.stop (h : t.Idle) : (t.stop type).Idle := by
  intro other
  simp [h other]

end MmgrTimer

end HardwareIntel.Mmgr
