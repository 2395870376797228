import PathControl.Error
import PathControl.Fault
import PathControl.Decimal.Fixed

/-!
# Switch triggers

Every delay sample of the active path updates a short history and the observed range of delays.
A threshold lies in that range, at a set ratio above its lower end. A sample asks for a switch

* by force, once its delay reaches the threshold;
* as a try, when the delay climbs steeply, or when it has risen three times in a row while already
  near the threshold.

Delays are nanoseconds; gradients are nanoseconds of delay per nanosecond of time, in binary64.
-/

namespace PathControl.Delay

/-- What a sample asks for. -/
inductive Trigger where
  | noAction
  | trySwitch
  | forceSwitch
  deriving DecidableEq, Repr

namespace Trigger

/-- Whether a switch is asked for. -/
def isSwitch : Trigger → Bool
  | .noAction => false
  | _ => true

/-- The name of a trigger in texts. -/
def name : Trigger → String
  | .noAction => "no-action"
  | .trySwitch => "try-switch"
  | .forceSwitch => "force-switch"

end Trigger

/-- Delay history of the active path. The numbers 1 to 3 say how many samples ago. -/
structure PathHealth where
  /-- Samples accepted so far. -/
  samples : UInt64
  /-- Time of the newest sample. -/
  time : UInt64
  /-- Time of the sample before it. -/
  time1 : UInt64
  /-- Time between the two. -/
  elapsed : UInt64
  delay : UInt64
  delay1 : UInt64
  delay2 : UInt64
  delay3 : UInt64
  gradient : Float
  gradient1 : Float
  gradient2 : Float
  gradient3 : Float
  /-- Longest delay so far. -/
  longest : UInt64
  /-- Shortest delay so far. -/
  shortest : UInt64
  /-- Delay from which on a switch is forced. -/
  threshold : UInt64
  deriving Repr

namespace PathHealth

/-- No sample yet. -/
def empty : PathHealth where
  samples := 0
  time := 0
  time1 := 0
  elapsed := 0
  delay := 0
  delay1 := 0
  delay2 := 0
  delay3 := 0
  gradient := 0
  gradient1 := 0
  gradient2 := 0
  gradient3 := 0
  longest := 0
  shortest := 0
  threshold := 0

/-- One line on the newest sample. -/
def summary (h : PathHealth) : String :=
  s!"delay={h.delay.toNat}ns min={h.shortest.toNat}ns max={h.longest.toNat}ns " ++
    s!"threshold={h.threshold.toNat}ns grad=" ++ Decimal.scientific 3 h.gradient

end PathHealth

/-- A factor four units in the last place above 1. Multiplying by it keeps a product that is a
whole number in exact arithmetic from being floored to the number below. -/
def nudge : Float := 1 + 4 * Float.ofBits 0x3CB0000000000000

/-- How far above the shortest delay the threshold lies: the floor of the ratio times the range,
and never more than the range. -/
def thresholdMargin (ratio : Float) (range : UInt64) : UInt64 :=
  min (ratio * range.toFloat * nudge).floor.toUInt64 range

/-- The delay from which on a switch is forced. -/
def threshold (shortest longest : UInt64) (ratio : Float) : Checked UInt64 := do
  let range ← Checked.sub64 longest shortest
  Checked.add64 shortest (thresholdMargin ratio range)

/-- Evaluates delay samples. -/
structure SwitchTrigger where
  /-- Where in the range of delays the threshold lies. -/
  ratio : Float
  health : PathHealth
  deriving Repr

namespace SwitchTrigger

/-- A trigger that has seen no sample. -/
def new (ratio : Float) : SwitchTrigger := ⟨ratio, .empty⟩

/-- The history after the very first sample. -/
def seeded (time delay : UInt64) : PathHealth :=
  { PathHealth.empty with
    samples := 1, time, delay, longest := delay, shortest := delay, threshold := delay }

/-- The history after a sample that moves time forward. -/
def extended (ratio : Float) (h : PathHealth) (time delay : UInt64) : Checked PathHealth := do
  let samples ← Checked.add64 h.samples 1
  let elapsed ← Checked.sub64 time h.time
  let longest := max h.longest delay
  let shortest := min h.shortest delay
  let threshold ← Delay.threshold shortest longest ratio
  return {
    samples, time, time1 := h.time, elapsed
    delay, delay1 := h.delay, delay2 := h.delay1, delay3 := h.delay2
    gradient := (delay.toFloat - h.delay.toFloat) / elapsed.toFloat
    gradient1 := h.gradient, gradient2 := h.gradient1, gradient3 := h.gradient2
    longest, shortest, threshold }

/-- What the newest sample of a history asks for. -/
def verdict (h : PathHealth) : Checked Trigger := do
  let margin ← Checked.sub64 h.threshold h.shortest
  let near : Bool := margin.toNat ≤ 2 * h.delay3.toNat
  let rising : Bool := h.gradient1 > 0 && h.gradient2 > 0 && h.gradient3 > 0
  let steep : Bool := h.gradient ≥ margin.toFloat / (2 * h.elapsed.toFloat)
  if h.threshold ≤ h.delay then return .forceSwitch
  if near && rising || steep then return .trySwitch
  return .noAction

/-- Feeds a sample. A sample that does not move time forward is refused and changes nothing. -/
def observe (t : SwitchTrigger) (time delay : UInt64) :
    Checked (SwitchTrigger × Except Error Trigger) :=
  if t.health.samples = 0 then
    .ok ({ t with health := seeded time delay }, .ok .noAction)
  else if time ≤ t.health.time then
    .ok (t, .error (.clockAnomaly (.notLater time t.health.time)))
  else do
    let health ← extended t.ratio t.health time delay
    let trigger ← verdict health
    return ({ t with health }, .ok trigger)

end SwitchTrigger

end PathControl.Delay
