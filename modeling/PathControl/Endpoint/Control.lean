import PathControl.Delay.Estimator
import PathControl.Delay.Trigger
import PathControl.Endpoint.ActivePath
import PathControl.Endpoint.Event
import PathControl.Negotiation.Coordinator
import PathControl.Settings.Basic
import PathControl.Stats
import PathControl.Wire.ControlFrame

/-!
# Control decisions

The state that decides about paths: the delay table, the trigger history, the negotiations with
their timers, and the active path. A step takes a control packet or a timer tick together with the
clock reading, and returns the next state with its effects in order: counters to move, events to
announce, and packets to send.

No decision reads what becomes of an effect. In particular a packet that cannot be sent, for lack
of a buffer or of room in a queue, leaves every later decision as it is.
-/

namespace PathControl.Endpoint

open PathControl.Delay
open PathControl.Negotiation
open PathControl.Wire

/-- What a step wants done. -/
inductive Effect where
  | count (counter : Counter)
  | announce (event : Event)
  /-- Send a control packet on a path. -/
  | send (header : Header) (path : PathId)
  deriving DecidableEq, Repr

/-- The state that decides about paths. -/
structure Control where
  estimator : Estimator
  trigger : SwitchTrigger
  coordinator : Coordinator
  timers : TimerWheel
  active : ActivePath
  deriving Repr

namespace Control

/-- A state after which some effects are due. -/
abbrev Step : Type := Control × List Effect

/-- The state before any packet, on a given active path. -/
def new (t : Tuning) (active : ActivePath) : Control where
  estimator := .new t.clockBias
  trigger := .new t.thresholdRatio
  coordinator := .new t.repathTimeout t.repathGuard t.maxRetries
  timers := .empty
  active

/-- Moves the active path and announces the switch, if it is one. -/
def switchTo (c : Control) (now : UInt64) (path : PathId) (cause : SwitchCause) :
    Checked Step := do
  let (active, left) ← c.active.moveTo path now
  match left with
  | none => return (c, [])
  | some source =>
    return ({ c with active }, [.count .switches, .announce (.pathSwitched source path cause)])

/-- Carries out one action of the coordinator. -/
def act (c : Control) (now : UInt64) : Action → Checked Step
  | .sendRepath target via sequence attempt =>
    let note : List Effect :=
      if attempt = 1 then [.announce (.negotiationStarted target sequence)]
      else [.count .repathRetries]
    .ok (c, .count .repathsSent :: note ++ [.send (.repath target sequence) via])
  | .sendRepathAck via ack => .ok (c, [.count .acksSent, .send (.repathAck ack) via])
  | .committed path => c.switchTo now path .committed
  | .adopted path => { c with estimator := c.estimator.adopt path }.switchTo now path .adopted
  | .abandoned target attempts =>
    .ok (c, [.count .abandoned, .announce (.negotiationAbandoned target attempts)])

/-- Carries out actions in order. -/
def actAll (c : Control) (now : UInt64) : List Action → Checked Step
  | [] => .ok (c, [])
  | action :: actions => do
    let (c, first) ← c.act now action
    let (c, rest) ← c.actAll now actions
    return (c, first ++ rest)

/-- Takes over what an event left behind in the coordinator, and acts on it. -/
def follow (c : Control) (now : UInt64) (o : Outcome) : Checked Step :=
  { c with coordinator := o.coordinator, timers := o.timers }.actAll now o.actions

/-- Feeds a sample of the active path to the trigger, and the trigger to the coordinator. -/
def evaluate (c : Control) (now sent delay : UInt64) : Checked Step := do
  let (trigger, result) ← c.trigger.observe sent delay
  let c := { c with trigger }
  match result with
  | .error _ => return (c, [.count .clockAnomalies])
  | .ok .noAction => return (c, [])
  | .ok _ =>
    let outcome ← c.coordinator.onTrigger c.timers now c.estimator.best c.active.path
    let (c, effects) ← c.follow now outcome
    return (c, .count .triggers :: effects)

/-- A probe arrived on `path`. It is recorded on every path, and evaluated on the active one. -/
def onProbe (c : Control) (now : UInt64) (path : PathId) (sent : UInt64) : Checked Step := do
  let (estimator, result) := c.estimator.recordProbe path sent now
  match result with
  | .error _ => return (c, [.count .probesReceived, .count .clockAnomalies])
  | .ok delay =>
    let news : List Effect :=
      if estimator.best = c.estimator.best then []
      else [.announce (.bestPathChanged c.estimator.best estimator.best)]
    let c := { c with estimator }
    let (c, effects) ← if path = c.active.path then c.evaluate now sent delay else pure (c, [])
    return (c, .count .probesReceived :: news ++ effects)

/-- A timestamp of user data arrived on `path`. Off the active path it is ignored. -/
def onTimestamp (c : Control) (now : UInt64) (path : PathId) (sent : UInt64) :
    Checked Step := do
  if path ≠ c.active.path then
    return (c, [.count .timestampsReceived])
  match c.estimator.measure sent now with
  | .error _ => return (c, [.count .timestampsReceived, .count .clockAnomalies])
  | .ok delay =>
    let (c, effects) ← c.evaluate now sent delay
    return (c, .count .timestampsReceived :: effects)

/-- The peer proposed a path. -/
def onRepath (c : Control) (now : UInt64) (target : PathId) (sequence : UInt64) :
    Checked Step := do
  let outcome ← c.coordinator.onRepath c.timers now target sequence
  let (c, effects) ← c.follow now outcome
  return (c, .count .repathsReceived :: effects)

/-- The peer confirmed a proposal. -/
def onRepathAck (c : Control) (now ack : UInt64) : Checked Step := do
  let (c, effects) ← c.follow now (c.coordinator.onRepathAck c.timers ack)
  return (c, .count .acksReceived :: effects)

/-- A control packet arrived. A proposal without a target, which `decode` never yields, is
ignored. -/
def onPacket (c : Control) (now : UInt64) (packet : ControlPacket) : Checked Step :=
  let header := packet.header
  match header.kind with
  | .probe => c.onProbe now packet.path header.timestamp
  | .timestamp => c.onTimestamp now packet.path header.timestamp
  | .repath =>
    match header.target with
    | some target => c.onRepath now target header.sequence
    | none => .ok (c, [])
  | .repathAck => c.onRepathAck now header.ack

/-- Timers fired, in this order. Each one sees the best path as the ones before it left it. -/
def onTimers (c : Control) (now : UInt64) : List (TimerHandle × TimerKind) → Checked Step
  | [] => .ok (c, [])
  | (handle, kind) :: fired => do
    let outcome ← c.coordinator.onTimer c.timers now handle kind c.estimator.best
    let (c, first) ← c.follow now outcome
    let (c, rest) ← c.onTimers now fired
    return (c, first ++ rest)

/-- Looks at the timers. The answer counts those that fired. -/
def tick (c : Control) (now : UInt64) : Checked (Step × Nat) := do
  let (timers, fired) := c.timers.pollExpired now
  let step ← { c with timers }.onTimers now fired
  return (step, fired.length)

end Control

end PathControl.Endpoint
