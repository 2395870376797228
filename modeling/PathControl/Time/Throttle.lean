import PathControl.Time.Duration

/-!
# Throttles

A throttle lets one report through per interval and counts the others, so that the next report
can say how many were left out.

The control loop and the pump each ask one before they log a malformed frame or a failed interface.
Log lines are no answer of theirs, and nothing they do depends on one, so `Endpoint` and `Pump` keep
counters only.
-/

namespace PathControl

/-- State of a throttle. -/
structure Throttle where
  /-- Least time between two reports. -/
  interval : Duration
  /-- When the last report went through, on a clock that never goes back. -/
  last : Option Nat
  /-- Reports held back since then. -/
  suppressed : UInt64
  deriving DecidableEq, Repr

namespace Throttle

/-- A throttle that has seen nothing. -/
def new (interval : Duration) : Throttle := ⟨interval, none, 0⟩

/-- Asks at `instant` whether a report may go through. If so the answer is the number of reports
held back since the last one. -/
def check (t : Throttle) (instant : Nat) : Throttle × Option UInt64 :=
  let held : Bool := t.last.any fun last => instant - last < t.interval.nanos
  if held then ({ t with suppressed := t.suppressed + 1 }, none)
  else ({ t with last := some instant, suppressed := 0 }, some t.suppressed)

end Throttle

end PathControl
