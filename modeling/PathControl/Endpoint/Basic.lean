import PathControl.Endpoint.Control
import PathControl.Endpoint.Emission

/-!
# Endpoints

One side of a link: its settings, what its loops share, its control state, and the events it has
announced. An endpoint is built from validated settings only.

The steps of an endpoint are handling one received frame, a pass of the control loop, and a probe
round. The pass of the pump is a step of a `PathControl.Station`.

Each step takes the clock reading it happens at, one for the whole step. Wherever a step looks at
the clock (for the delay of a packet, for a timer that it arms, for a switch; in a pass, for each
frame of the batch and for the timers), it finds that reading, as if the clock stood still in the
meantime. Where it matters that a clock moves on between a look at the timers and the timers armed
at it, runs of the negotiation keep those readings apart (`Negotiation.ClockedRun`).

Log lines are no part of an endpoint: see `PathControl.Throttle`.
-/

namespace PathControl

open PathControl.Endpoint
open PathControl.Transport
open PathControl.Wire

/-- One side of a link. -/
structure Endpoint where
  settings : Settings
  outlet : Outlet
  control : Control
  /-- Events announced so far, the oldest first. -/
  events : List Event
  /-- Frames taken from the ingress queue and not yet handled. -/
  batch : List Buffer
  /-- When the timers were last looked at. -/
  lastTick : UInt64
  /-- When the counters were last reported. -/
  lastReport : UInt64
  /-- Whether the loops are asked to run. -/
  running : Bool
  deriving Repr

namespace Endpoint

/-- An endpoint at rest. -/
def new (settings : Settings) (now : UInt64) (identification : UInt16) :
    ExceptT Error Checked Endpoint := do
  (settings.validate : Except Error Unit)
  let tuning := settings.tuning
  let pool ← (Pool.forFrames tuning.poolSize : Checked Pool)
  let traffic ← (Traffic.allocate pool tuning.ringSize tuning.ringSize : Checked Traffic)
  return {
    settings
    outlet := { traffic, identification }
    control := .new tuning (.new tuning.initialPath)
    events := []
    batch := []
    lastTick := now
    lastReport := now
    running := false }

/-- A new control loop over the same queues, counters and active path. -/
def restart (e : Endpoint) (now : UInt64) : Endpoint :=
  { e with
    control := .new e.settings.tuning e.control.active
    batch := []
    lastTick := now
    lastReport := now }

/-- The queues, pool and counters. -/
def traffic (e : Endpoint) : Traffic := e.outlet.traffic

/-- Replaces the queues, pool and counters. -/
def withTraffic (e : Endpoint) (traffic : Traffic) : Endpoint :=
  { e with outlet := { e.outlet with traffic } }

/-- Moves a counter a step further. -/
def count (e : Endpoint) (c : Counter) : Endpoint := e.withTraffic (e.traffic.count c)

/-- Asks the loops to run. -/
def start (e : Endpoint) : Endpoint := { e with running := true }

/-- Asks the loops to end. -/
def stop (e : Endpoint) : Endpoint := { e with running := false }

/-- Carries out an effect of a control step. -/
def perform (e : Endpoint) : Effect → Checked Endpoint
  | .count c => .ok (e.count c)
  | .announce event => .ok { e with events := e.events ++ [event] }
  | .send header path => do
    let outlet ← e.outlet.send e.settings.addressing header path
    return { e with outlet }

/-- Carries out effects in order. -/
def performAll (e : Endpoint) (effects : List Effect) : Checked Endpoint :=
  effects.foldlM perform e

/-- Handles one received frame. `now` is the reading at which it arrives, and that of every timer
armed and every switch made for it. -/
def handleFrame (e : Endpoint) (now : UInt64) (frame : Bytes) : Checked Endpoint := do
  match ← (decode e.settings.addressing frame).run with
  | .error _ => return e.count .malformed
  | .ok .notControlTraffic => return e.count .notControl
  | .ok (.control packet) =>
    let (control, effects) ← e.control.onPacket now packet
    { e with control }.performAll effects

/-- Handles the frames of the batch in order and gives each buffer back after its frame. All of them
arrive at the reading `now`. -/
def drainBatch (e : Endpoint) (now : UInt64) : List Buffer → Checked Endpoint
  | [] => .ok { e with batch := [] }
  | frame :: frames => do
    let e ← e.handleFrame now frame.contents
    (e.withTraffic (e.traffic.release [frame])).drainBatch now frames

/-- Looks at the timers if it is time to. The answer counts those that fired. Whether it is time,
which timers have fallen due and when those armed next do is all told by the reading `now`. -/
def tickTimers (e : Endpoint) (now : UInt64) : Checked (Endpoint × Nat) := do
  if e.settings.tuning.timerResolution.word ≤ saturatingSub now e.lastTick then
    let ((control, effects), fired) ← e.control.tick now
    let e ← { e with control, lastTick := now }.performAll effects
    return (e, fired)
  else return (e, 0)

/-- Reports the counters if it is time to. Only the arithmetic of the report is of interest
here. -/
def report (e : Endpoint) (now : UInt64) : Checked Endpoint := do
  if e.settings.tuning.statsInterval.word ≤ saturatingSub now e.lastReport then
    let _ ← e.traffic.stats.summary
    return { e with lastReport := now }
  else return e

/-- One pass of the control loop: a burst of frames, then the timers and the report if they are
due. The answer counts frames and timers handled. The whole pass happens at the reading `now`. A
clock that moves on during a pass comes to its frames handled one by one and a look at the timers,
each at a reading of its own, which is how runs of the control loop are told (`Stimulus`). -/
def poll (e : Endpoint) (now : UInt64) : Checked (Endpoint × Nat) := do
  let (ingress, frames) := e.traffic.ingress.popBurst (max e.settings.tuning.burstSize 1)
  let batch := e.batch ++ frames
  let e ← ({ e with batch }.withTraffic { e.traffic with ingress }).drainBatch now batch
  let (e, fired) ← e.tickTimers now
  let e ← e.report now
  return (e, frames.length + fired)

/-- A probe round, for the role that probes. The answer counts the probes queued. -/
def emitRound (e : Endpoint) (now : UInt64) : Endpoint × Checked (Option Nat) :=
  if e.settings.role.emitsProbes then
    let (outlet, queued) := e.outlet.probeRound e.settings.addressing now
    ({ e with outlet }, queued.map some)
  else (e, .ok none)

/-- Sends a timestamp of user data on a path, and tells what became of it. -/
def sendTimestamp (e : Endpoint) (now : UInt64) (path : PathId) :
    Checked (Endpoint × Except Error Unit) := do
  let encoded :=
    encode e.settings.addressing e.traffic.pool e.outlet.identification (.dataTimestamp now) path
  let traffic := { e.traffic with pool := encoded.pool }
  let sent := fun traffic : Traffic =>
    { e with outlet := { traffic, identification := encoded.identification } }
  match ← encoded.outcome with
  | .error cause => return (sent traffic, .error cause)
  | .ok frame =>
    let (traffic, result) := traffic.pushEgress frame
    return (sent traffic, result)

/-- Puts a raw frame into the ingress queue, as the pump would. -/
def enqueue (e : Endpoint) (frame : Bytes) : Endpoint × Except Error Unit :=
  match e.traffic.pool.get? with
  | none => (e, .error .buffersExhausted)
  | some (buffer, pool) =>
    let (traffic, result) := { e.traffic with pool }.pushIngress (buffer.copyFrom frame)
    (e.withTraffic traffic, result)

/-- Takes every buffer that there is out of the pool. -/
def takeBuffers (e : Endpoint) : Endpoint × List Buffer :=
  let (pool, buffers) := e.traffic.pool.takeAll
  (e.withTraffic { e.traffic with pool }, buffers)

/-- Takes all frames out of the egress queue, and gives their buffers back. -/
def drainEgress (e : Endpoint) : Endpoint × List Bytes :=
  let frames := e.traffic.egress.frames
  let traffic := { e.traffic with egress := { e.traffic.egress with frames := [] } }
  (e.withTraffic (traffic.release frames), frames.map Buffer.contents)

/-- Takes the announced events. -/
def takeEvents (e : Endpoint) : Endpoint × List Event := ({ e with events := [] }, e.events)

end Endpoint

end PathControl
