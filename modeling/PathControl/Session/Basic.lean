import PathControl.Endpoint.Basic
import PathControl.Time.Clock
import PathControl.Transport.Filters

/-!
# Sessions

Two endpoints of opposite roles at the ends of a link in memory, each with the pump that serves
it, and the clock that both of them read. A step of a session is a step of one of its stations:
the other one sees nothing of it but frames on the link.
-/

namespace PathControl

open PathControl.Transport
open PathControl.Wire

/-- An endpoint with the pump that serves it. -/
structure Station where
  endpoint : Endpoint
  pump : Pump
  deriving Repr

namespace Station

/-- A station at rest. -/
def new (settings : Settings) (now : UInt64) : ExceptT Error Checked Station := do
  let endpoint ← Endpoint.new settings now 0
  let pump ← (Pump.allocate settings.tuning.burstSize : Checked Pump)
  return { endpoint, pump }

/-- One pass of the pump over an interface. The answer is the interface afterwards and the number
of frames moved. -/
def pumpOnce {σ : Type} (s : Station) (nic : Nic σ) (state : σ) : Station × σ × Nat :=
  let m := s.pump.pollOnce nic state s.endpoint.traffic
  ({ endpoint := s.endpoint.withTraffic m.traffic, pump := m.pump }, m.nic, m.moved)

end Station

/-- Two stations at the ends of a link. -/
structure Session where
  sender : Station
  receiver : Station
  /-- The sender is at end `a`. -/
  link : Link ControlFilter
  clock : Clock
  deriving Repr

namespace Session

/-- The receiver of some settings and the sender of the same deployment, on a link whose rings
hold `capacity` frames. -/
def new (settings : Settings) (capacity : Nat) (now : UInt64) :
    ExceptT Error Checked Session := do
  let receiver ← Station.new settings now
  let sender ← Station.new (settings.reversed .sender) now
  let link ← (Link.allocate capacity : Checked (Link ControlFilter))
  return { sender, receiver, link, clock := ⟨now⟩ }

/-- The end of the link that a station is at. -/
def endOf : Role → LinkEnd
  | .sender => .a
  | .receiver => .b

/-- The station of a side. -/
def station (s : Session) : Role → Station
  | .sender => s.sender
  | .receiver => s.receiver

/-- The endpoint of a side. -/
def endpoint (s : Session) (side : Role) : Endpoint := (s.station side).endpoint

/-- Replaces the station of a side. -/
def setStation (s : Session) (side : Role) (station : Station) : Session :=
  match side with
  | .sender => { s with sender := station }
  | .receiver => { s with receiver := station }

/-- Replaces the endpoint of a side. -/
def setEndpoint (s : Session) (side : Role) (endpoint : Endpoint) : Session :=
  s.setStation side { s.station side with endpoint }

/-- The frames that wait in the receive ring of a side. -/
def pending (s : Session) (side : Role) : Nat := s.link.pending (endOf side)

/-- Moves the clock forward. -/
def advance (s : Session) (d : Duration) : Session := { s with clock := s.clock.advance d }

/-- Installs a filter on what a side transmits, or removes it. -/
def setFilter (s : Session) (side : Role) (filter : Option ControlFilter) : Session :=
  { s with link := s.link.setFilter (endOf side) filter }

/-- Puts a raw frame into the receive ring of a side. The answer is whether it fitted. -/
def inject (s : Session) (side : Role) (frame : Bytes) : Session × Bool :=
  let (link, fitted) := s.link.inject (endOf side) frame
  ({ s with link }, fitted)

/-- A pass of the pump of a side. The answer counts the frames moved. -/
def pumpOnce (s : Session) (side : Role) : Session × Nat :=
  let (station, link, moved) := (s.station side).pumpOnce (Link.nic (endOf side)) s.link
  ({ s with link }.setStation side station, moved)

/-- A pass of the control loop of a side. The answer counts frames and timers handled. -/
def poll (s : Session) (side : Role) : Checked (Session × Nat) := do
  let (endpoint, handled) ← (s.endpoint side).poll s.clock.now
  return (s.setEndpoint side endpoint, handled)

/-- A probe round of a side. The answer counts the probes queued, if the side probes. -/
def emitRound (s : Session) (side : Role) : Session × Checked (Option Nat) :=
  let (endpoint, queued) := (s.endpoint side).emitRound s.clock.now
  (s.setEndpoint side endpoint, queued)

/-- A timestamp of user data from a side. -/
def sendTimestamp (s : Session) (side : Role) (path : PathId) :
    Checked (Session × Except Error Unit) := do
  let (endpoint, result) ← (s.endpoint side).sendTimestamp s.clock.now path
  return (s.setEndpoint side endpoint, result)

/-- Takes the events that a side has announced. -/
def takeEvents (s : Session) (side : Role) : Session × List Endpoint.Event :=
  let (endpoint, events) := (s.endpoint side).takeEvents
  (s.setEndpoint side endpoint, events)

/-- A pass of both pumps, the sender's first, and of both control loops, the receiver's first. The
answer counts all that was moved and handled. -/
def round (s : Session) : Checked (Session × Nat) := do
  let (s, sent) := s.pumpOnce .sender
  let (s, received) := s.pumpOnce .receiver
  let (s, handled) ← s.poll .receiver
  let (s, answered) ← s.poll .sender
  return (s, sent + received + handled + answered)

/-- Rounds until one has nothing to do, at most `limit` of them. The answer lists what the rounds
did. -/
def settle : Nat → Session → Checked (Session × List Nat)
  | 0, s => .ok (s, [])
  | limit + 1, s => do
    let (s, done) ← s.round
    if done = 0 then return (s, [done])
    let (s, more) ← settle limit s
    return (s, done :: more)

end Session

end PathControl
