import PathControl.Decimal.Fixed
import PathControl.Time.Duration

/-!
# Delays for people

A delay in nanoseconds is shown in the largest of seconds, milliseconds and microseconds that it
reaches, with three, two or one places. The value goes through binary64 seconds, and the rounding
is that of the resulting float.
-/

namespace PathControl

/-- A delay in seconds as a float: the whole seconds plus the rest divided by 10^9. -/
def secondsFloat (nanos : UInt64) : Float :=
  let d : Duration := ⟨nanos.toNat⟩
  (UInt64.ofNat d.seconds).toFloat + (UInt64.ofNat d.subsecond).toFloat / 1000000000

/-- A delay for people. -/
def delayText (nanos : UInt64) : String :=
  let seconds := secondsFloat nanos
  if 1_000_000_000 ≤ nanos.toNat then Decimal.fixed 3 seconds ++ "s"
  else if 1_000_000 ≤ nanos.toNat then Decimal.fixed 2 (seconds * 1000) ++ "ms"
  else Decimal.fixed 1 (seconds * 1000000) ++ "us"

end PathControl
