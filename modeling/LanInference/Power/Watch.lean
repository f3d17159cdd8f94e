/-
# Watching for changes

A watcher samples a source of readings at the times 0, e, 2e, … after its start and reports a
sample that differs from the one before. It stops when it is cancelled.

Key definitions: `Watcher`, `Watcher.sample`, `Watcher.advance`, `Watcher.cancel`.
-/
import LanInference.Power.State

namespace LanInference

/-- A watcher: its period, the last sample, the time until its next sample, and whether it still
runs. -/
structure Watcher where
  period : Nat
  last : PowerState
  untilNext : Nat := 0
  running : Bool := true
  deriving Repr, DecidableEq

namespace Watcher

/-- A watcher that starts now and has not sampled yet. -/
def start (period : Nat) (reading : PowerState) : Watcher := { period, last := reading }

/-- A sample: what it reports, if it differs from the one before. -/
def sample (w : Watcher) (reading : PowerState) : Watcher × Option PowerState :=
  if reading.same w.last then (w, none) else ({ w with last := reading }, some reading)

/-- The watcher after `n` samples of one reading, with their reports. -/
def samples (reading : PowerState) : Nat → Watcher → Watcher × List PowerState
  | 0, w => (w, [])
  | n + 1, w =>
    let (w, report) := w.sample reading
    let (w, reports) := samples reading n w
    (w, report.toList ++ reports)

/-- The number of samples due in the next `time`, the end included. -/
def due (w : Watcher) (time : Nat) : Nat :=
  if time < w.untilNext then 0 else (time - w.untilNext) / w.period + 1

/-- Time passes while the source gives one reading. -/
def advance (w : Watcher) (reading : PowerState) (time : Nat) : Watcher × List PowerState :=
  if w.running then
    let n := w.due time
    let (w', reports) := samples reading n w
    ({ w' with untilNext := w.untilNext + n * w.period - time }, reports)
  else (w, [])

/-- The watcher stops for good. -/
def cancel (w : Watcher) : Watcher := { w with running := false }

end Watcher
end LanInference
