import PathControl.Transport.Pump
import PathControl.Wire.ControlFrame

/-!
# Emission

Sending a control packet takes a buffer from the pool, writes the frame into it and puts it into
the egress queue. An attempt that finds no buffer is counted, and so is a frame that the queue
drops; a frame that cannot be written is given up silently.

A probe round attempts one probe per path.
-/

namespace PathControl.Endpoint

open PathControl.Transport
open PathControl.Wire

/-- What an emission draws from and adds to. -/
structure Outlet where
  traffic : Traffic
  /-- IPv4 identification of the next packet. -/
  identification : UInt16
  deriving DecidableEq, Repr

namespace Outlet

/-- Attempts to send a packet. The answer is whether its frame was queued, or the fault that
stopped the attempt. -/
def offer (o : Outlet) (a : Addressing) (header : Header) (path : PathId) :
    Outlet × Checked Bool :=
  let encoded := encode a o.traffic.pool o.identification header path
  let traffic := { o.traffic with pool := encoded.pool }
  let after := fun traffic : Traffic => (⟨traffic, encoded.identification⟩ : Outlet)
  match encoded.outcome with
  | .error fault => (after traffic, .error fault)
  | .ok (.error .buffersExhausted) => (after (traffic.count .bufferExhausted), .ok false)
  | .ok (.error _) => (after traffic, .ok false)
  | .ok (.ok frame) =>
    match traffic.pushEgress frame with
    | (traffic, .ok ()) => (after traffic, .ok true)
    | (traffic, .error _) => (after (traffic.count .egressDropped), .ok false)

/-- Attempts to send a packet. -/
def send (o : Outlet) (a : Addressing) (header : Header) (path : PathId) : Checked Outlet :=
  match o.offer a header path with
  | (o, .ok _) => .ok o
  | (_, .error fault) => .error fault

/-- Attempts a probe on each of some paths. The answer counts the probes queued, or is the fault
that stopped the round. -/
def probe (o : Outlet) (a : Addressing) (now : UInt64) : List PathId → Outlet × Checked Nat
  | [] => (o, .ok 0)
  | path :: paths =>
    match o.offer a (.probe now) path with
    | (o, .error fault) => (o, .error fault)
    | (o, .ok queued) =>
      let o := if queued then { o with traffic := o.traffic.count .probesSent } else o
      let (o, rest) := o.probe a now paths
      (o, rest.map fun n => if queued then n + 1 else n)

/-- Attempts a probe on every path. -/
def probeRound (o : Outlet) (a : Addressing) (now : UInt64) : Outlet × Checked Nat :=
  o.probe a now PathId.all

end Outlet

end PathControl.Endpoint
