import PathControl.Stats
import PathControl.Transport.FrameQueue
import PathControl.Transport.Nic

/-!
# The pump

The only loop that touches the wire. A pass moves one burst from the interface into the ingress
queue and one burst from the egress queue onto the wire. It never looks inside a frame. Frames
that the ingress queue or the interface will not take are dropped and counted, and their buffers
go back to the pool.
-/

namespace PathControl.Transport

/-- What the loops of an endpoint share: the pool, the two queues and the counters. -/
structure Traffic where
  pool : Pool
  /-- Received frames on their way to the control loop. -/
  ingress : FrameQueue
  /-- Frames on their way to the wire. -/
  egress : FrameQueue
  stats : Stats
  deriving DecidableEq, Repr

namespace Traffic

/-- Empty queues of given capacities, and counters at zero. -/
def allocate (pool : Pool) (ingress egress : Nat) : Checked Traffic := do
  let ingress ← FrameQueue.allocate "ingress" ingress
  let egress ← FrameQueue.allocate "egress" egress
  return { pool, ingress, egress, stats := .zero }

/-- Moves a counter a step further. -/
def count (t : Traffic) (c : Counter) : Traffic := { t with stats := t.stats.inc c }

/-- Adds to a counter. -/
def countMany (t : Traffic) (c : Counter) (n : Nat) : Traffic :=
  { t with stats := t.stats.add c (UInt64.ofNat n) }

/-- Puts a frame into the ingress queue, or drops it. -/
def pushIngress (t : Traffic) (frame : Buffer) : Traffic × Except Error Unit :=
  let (ingress, pool, result) := t.ingress.pushOrDrop t.pool frame
  ({ t with ingress, pool }, result)

/-- Puts a frame into the egress queue, or drops it. -/
def pushEgress (t : Traffic) (frame : Buffer) : Traffic × Except Error Unit :=
  let (egress, pool, result) := t.egress.pushOrDrop t.pool frame
  ({ t with egress, pool }, result)

/-- Gives the buffers of frames back. -/
def release (t : Traffic) (frames : List Buffer) : Traffic :=
  { t with pool := t.pool.releaseAll frames }

end Traffic

/-- State of a pump between passes. -/
structure Pump where
  /-- Frames moved per burst. -/
  burst : Nat
  /-- Frames received and not yet queued. -/
  received : List Buffer
  /-- Frames taken from the egress queue and not yet sent. -/
  unsent : List Buffer
  deriving DecidableEq, Repr

namespace Pump

/-- A pump at rest. It moves at least one frame per burst. -/
def new (burst : Nat) : Pump := ⟨max burst 1, [], []⟩

/-- Bytes that a place in a burst takes. -/
def slotSize : Nat := 40

/-- A pump at rest, if there can be one for bursts of that length. -/
def allocate (burst : Nat) : Checked Pump := do
  Checked.reserve (max burst 1) slotSize
  return new burst

variable {σ : Type}

/-- A pump with its interface and the traffic it moves, after some part of a pass. -/
structure Moved (σ : Type) where
  pump : Pump
  nic : σ
  traffic : Traffic
  /-- Frames moved. -/
  moved : Nat

/-- Puts received frames into the ingress queue, in order, and counts those it will not take. -/
def enqueueAll (t : Traffic) (frames : List Buffer) : Traffic :=
  frames.foldl (fun t frame =>
    match t.pushIngress frame with
    | (t, .ok ()) => t
    | (t, .error _) => t.count .ingressDropped) t

/-- Counts a failed burst. -/
def countFailure (t : Traffic) (failure : Option Error) : Traffic :=
  match failure with
  | some _ => t.count .nicErrors
  | none => t

/-- One receive burst. Frames that arrive before a failure count like others. -/
def receive (nic : Nic σ) (p : Pump) (s : σ) (t : Traffic) : Moved σ :=
  let burst := nic.rxBurst s t.pool p.burst
  let frames := p.received ++ burst.frames
  let t := countFailure { t with pool := burst.pool } burst.failure
  let t := enqueueAll (t.countMany .framesReceived frames.length) frames
  { pump := { p with received := [] }, nic := burst.nic, traffic := t, moved := frames.length }

/-- Offers frames to the interface up to so many times, until it has taken all. A failed attempt
does not add to the number of frames sent. -/
def offer (nic : Nic σ) : Nat → Moved σ → Moved σ
  | 0, m => m
  | attempts + 1, m =>
    let burst := nic.txBurst m.nic m.pump.unsent
    let taken := m.pump.unsent.take burst.taken
    let left := m.pump.unsent.drop burst.taken
    let m : Moved σ := {
      pump := { m.pump with unsent := left }
      nic := burst.nic
      traffic := countFailure (m.traffic.release taken) burst.failure
      moved := if burst.failure.isSome then m.moved else m.moved + taken.length }
    if left.isEmpty then m else offer nic attempts m

/-- One transmit burst: an attempt, and one more for what the interface did not take. -/
def transmit (nic : Nic σ) (p : Pump) (s : σ) (t : Traffic) : Moved σ :=
  let (egress, frames) := t.egress.popBurst p.burst
  let p := { p with unsent := p.unsent ++ frames }
  let t := { t with egress }
  if p.unsent.isEmpty then { pump := p, nic := s, traffic := t, moved := 0 }
  else
    let m := offer nic 2 { pump := p, nic := s, traffic := t, moved := 0 }
    let unsent := m.pump.unsent
    let t := (m.traffic.countMany .egressDropped unsent.length).release unsent
    { pump := { m.pump with unsent := [] }
      nic := m.nic
      traffic := t.countMany .framesSent m.moved
      moved := m.moved + unsent.length }

/-- One pass: a receive burst, then a transmit burst. -/
def pollOnce (nic : Nic σ) (p : Pump) (s : σ) (t : Traffic) : Moved σ :=
  let r := receive nic p s t
  let m := transmit nic r.pump r.nic r.traffic
  { m with moved := r.moved + m.moved }

end Pump

end PathControl.Transport
