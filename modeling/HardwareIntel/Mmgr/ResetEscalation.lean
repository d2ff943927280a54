import HardwareIntel.Mmgr.Types
import Mathlib.Logic.Function.Basic
import Mathlib.Tactic.Linarith

/-!
# The recovery escalation

The module `core/reset_escalation.c`: the level of the next recovery operation, the number of
operations made at this level, and the rule that moves to the next level. The number of platform
reboots is an Android property, so it survives the daemon; the model keeps it in the field
`reboot`, which `recovInit` takes from the previous boot.
-/

namespace HardwareIntel.Mmgr

/-- What one level allows (`reset_operation_t`). -/
structure ResetOperation where
  /-- The number of operations allowed at the level; a negative number means no limit. -/
  retryAllowed : Int
  /-- The level that follows. -/
  nextLevel : EscalationLevel

/-- The recovery configuration (`mmgr_recovery_t`). -/
structure RecoveryCfg where
  /-- The escalation is used. -/
  enable : Bool
  /-- The cold resets allowed. -/
  coldReset : Int
  /-- The platform reboots allowed. -/
  reboot : Int
  /-- The seconds after which the escalation starts anew. -/
  resetDelay : Int

/-- What the levels allow under a configuration. -/
def RecoveryCfg.process (recov : RecoveryCfg) : EscalationLevel → ResetOperation
  | .unknown => ⟨0, .modemOutOfService⟩
  | .modemColdReset =>
    { retryAllowed := if recov.enable ∧ 0 < recov.coldReset then recov.coldReset else 0
      nextLevel := if recov.enable ∧ 0 < recov.reboot then .platformReboot
        else .modemOutOfService }
  | .platformReboot =>
    { retryAllowed := if recov.enable ∧ 0 < recov.reboot then recov.reboot else 0
      nextLevel := .modemOutOfService }
  | .modemOutOfService => ⟨-1, .modemOutOfService⟩

/-- The state of the escalation (`reset_management_t`). -/
structure ResetManagement where
  /-- The level of the next operation. -/
  level : EscalationLevel
  /-- The operations counted at this level. -/
  counter : Int
  /-- The state of the current operation. -/
  state : ResetOperationState
  /-- The configuration, from which `recov_init` fills `process` and `reset_delay`. -/
  recov : RecoveryCfg
  /-- The seconds of the last operation. -/
  lastResetTime : Int
  /-- The forced operation. -/
  op : ForceOperation
  /-- The persisted number of platform reboots (`key_reboot`). -/
  reboot : Int

/-- What each level allows. -/
def ResetManagement.process (reset : ResetManagement) : EscalationLevel → ResetOperation :=
  reset.recov.process

/-- The seconds after which the modem is considered stable. -/
def ResetManagement.resetDelay (reset : ResetManagement) : Int := reset.recov.resetDelay

/-- The escalation at the start of the daemon, at `time` and with the persisted `reboot`. -/
def recovInit (recov : RecoveryCfg) (time reboot : Int) : ResetManagement where
  level := if recov.enable then .modemColdReset else .unknown
  counter := 0
  state := .none
  recov := recov
  lastResetTime := if recov.enable then time else 0
  op := .none
  reboot := reboot

namespace ResetManagement

/-- The loop of `recov_next`: follow the next levels until one that allows something. Each round
goes to another level, so the number of levels bounds the rounds. -/
def nextLoop (process : EscalationLevel → ResetOperation) :
    ℕ → EscalationLevel → EscalationLevel
  | 0, level => level
  | fuel + 1, level =>
    let level := (process level).nextLevel
    if (process level).retryAllowed ≤ 0 ∧ level ≠ .modemOutOfService
    then nextLoop process fuel level else level

/-- Go to the next level (`recov_next`). -/
def next (reset : ResetManagement) : ResetManagement :=
  { reset with level := nextLoop reset.process 4 reset.level, counter := 0 }

/-- Go back to the first level (`recov_reinit`). -/
def reinit (reset : ResetManagement) : ResetManagement :=
  let reset := { reset with counter := 0, level := .modemColdReset }
  if (reset.process reset.level).retryAllowed ≤ 0 then reset.next else reset

/-- Start a recovery (`recov_start`). The time of a forced out-of-service is not read from the
clock: the source stores an uninitialised value, here `stale`. -/
def start (reset : ResetManagement) (time stale : Int) : ResetManagement :=
  if reset.op = .oos then
    { reset with level := .modemOutOfService, op := .none, lastResetTime := stale }
  else if reset.level ≠ .modemOutOfService ∧ time - reset.lastResetTime > reset.resetDelay then
    { reset.reinit with reboot := 0, lastResetTime := time }
  else { reset with lastResetTime := time }

/-- End a recovery (`recov_done`): count it, and go to the next level when the level is used up. -/
def done (reset : ResetManagement) : ResetManagement :=
  let reset := { reset with state := .none }
  let reset := if reset.op = .noCount then { reset with op := .none }
    else { reset with counter := reset.counter + 1 }
  if 0 ≤ (reset.process reset.level).retryAllowed ∧
      (reset.process reset.level).retryAllowed ≤ reset.counter
  then reset.next else reset

/-- Force the next operation (`recov_force`). -/
def force (reset : ResetManagement) (op : ForceOperation) : ResetManagement :=
  { reset with op := op }

/-- Set the state of the current operation (`recov_set_state`). -/
def setState (reset : ResetManagement) (state : ResetOperationState) : ResetManagement :=
  { reset with state := state }

/-- Store the number of platform reboots (`recov_set_reboot`). -/
def setReboot (reset : ResetManagement) (reboot : Int) : ResetManagement :=
  { reset with reboot := reboot }

/-- The operations allowed at the current level (`recov_get_retry_allowed`). -/
def getRetryAllowed (reset : ResetManagement) : Int := (reset.process reset.level).retryAllowed

end ResetManagement

/-! ## The loop ends on a level that allows something -/

/-! ## The escalation of an enabled configuration -/

/-- The levels are those of an enabled configuration with `c` cold resets and `r` reboots. -/
structure ResetManagement.Escalates (c r : Int) (reset : ResetManagement) : Prop where
  /-- The cold resets allowed, and what follows. -/
  cold : reset.process .modemColdReset = ⟨c, .platformReboot⟩
  /-- The reboots allowed, and what follows. -/
  platform : reset.process .platformReboot = ⟨r, .modemOutOfService⟩

namespace ResetManagement

section Escalates

variable {c r : Int} {reset : ResetManagement}

/-- After the cold resets come the platform reboots. -/
theorem Escalates.next_of_cold (h : reset.Escalates c r) (hr : 0 < r)
    (hlevel : reset.level = .modemColdReset) :
    reset.next = { reset with level := .platformReboot, counter := 0 } := by
  have hloop : nextLoop reset.process 4 .modemColdReset = .platformReboot := by
    simp [nextLoop, h.cold, h.platform, hr]
  simp only [next, hlevel, hloop]

/-- With cold resets allowed, the first level is the cold reset. -/
theorem Escalates.reinit (h : reset.Escalates c r) (hc : 0 < c) :
    reset.reinit = { reset with level := .modemColdReset, counter := 0 } := by
  have hpos : ¬ (reset.process .modemColdReset).retryAllowed ≤ 0 := by
    rw [h.cold]
    exact not_le.mpr hc
  exact if_neg hpos

/-- A recovery started in time, and not forced out of service, keeps the level. -/
theorem start_of_timely {time stale : Int} (hop : reset.op ≠ .oos)
    (htime : time - reset.lastResetTime ≤ reset.resetDelay) :
    reset.start time stale = { reset with lastResetTime := time } := by
  have hlate : ¬ (reset.level ≠ .modemOutOfService ∧
      time - reset.lastResetTime > reset.resetDelay) := fun hcon => absurd htime (not_le.mpr hcon.2)
  simp only [start, if_neg hop, if_neg hlate]

/-- A cold reset that is not counted leaves the level alone. -/
theorem Escalates.done_of_noCount (h : reset.Escalates c r) (hlevel : reset.level = .modemColdReset)
    (hlt : reset.counter < c) (hop : reset.op = .noCount) :
    reset.done = { reset with state := .none, op := .none } := by
  have hretry : (reset.process reset.level).retryAllowed = c := by rw [hlevel, h.cold]
  have hleft : ¬ (0 ≤ (reset.process reset.level).retryAllowed ∧
      (reset.process reset.level).retryAllowed ≤ reset.counter) := by
    omega
  unfold done
  dsimp only
  rw [if_pos hop]
  exact if_neg hleft

/-- A cold reset is counted. -/
theorem Escalates.done_of_counted (h : reset.Escalates c r) (hlevel : reset.level = .modemColdReset)
    (hlt : reset.counter + 1 < c) (hop : reset.op ≠ .noCount) :
    reset.done = { reset with state := .none, counter := reset.counter + 1 } := by
  have hretry : (reset.process reset.level).retryAllowed = c := by rw [hlevel, h.cold]
  have hleft : ¬ (0 ≤ (reset.process reset.level).retryAllowed ∧
      (reset.process reset.level).retryAllowed ≤ reset.counter + 1) := by
    omega
  unfold done
  dsimp only
  rw [if_neg hop]
  exact if_neg hleft

/-- The last cold reset leads to the platform reboots. -/
theorem Escalates.done_of_last (h : reset.Escalates c r) (hc : 0 < c) (hr : 0 < r)
    (hlevel : reset.level = .modemColdReset) (hlast : reset.counter + 1 = c)
    (hop : reset.op ≠ .noCount) :
    reset.done = { reset with state := .none, level := .platformReboot, counter := 0 } := by
  have hretry : (reset.process reset.level).retryAllowed = c := by rw [hlevel, h.cold]
  have hused : 0 ≤ (reset.process reset.level).retryAllowed ∧
      (reset.process reset.level).retryAllowed ≤ reset.counter + 1 := by
    omega
  have hcounted : ({ reset with state := .none, counter := reset.counter + 1 } :
      ResetManagement).Escalates c r := ⟨h.cold, h.platform⟩
  unfold done
  dsimp only
  rw [if_neg hop]
  exact (if_pos hused).trans (hcounted.next_of_cold hr hlevel)

end Escalates

/-- Whatever the configuration, out-of-service follows the platform reboots. -/
theorem next_level_of_platform {reset : ResetManagement} (hlevel : reset.level = .platformReboot) :
    reset.next.level = .modemOutOfService := by
  simp [next, nextLoop, process, hlevel, RecoveryCfg.process]

end ResetManagement

end HardwareIntel.Mmgr
