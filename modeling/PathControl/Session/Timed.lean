import PathControl.Session.Basic
import PathControl.Session.Schedule

/-!
# Timed runs

The loops of an endpoint in time: its pump, its control loop and, if it probes, its probe loop.
Pump and control loop rest for a while after a turn that had nothing to do. Rounds of the probe
loop are due at the multiples of its interval. Whatever is due starts at the first whole
millisecond that is not before its time, and what is due at the end of a run does not start.
-/

namespace PathControl

open PathControl.Endpoint
open PathControl.Transport

/-! ### Probe loops -/

/-- How many rounds of a probe loop start within the first `elapsed` milliseconds. -/
def roundsWithin (interval : Duration) (elapsed : Nat) : Nat :=
  if elapsed = 0 then 0
  else (Duration.ofMillis (elapsed - 1)).nanos / interval.nanos + 1

/-- What an observer of a probe loop notes. -/
structure ProbeLoop where
  outlet : Outlet
  /-- Milliseconds since the start. -/
  elapsed : Nat
  /-- Length of the egress queue after each sleep of the observer. -/
  seen : List Nat
  deriving Repr

namespace ProbeLoop

/-- Before the first round. -/
def start (interval : Duration) (outlet : Outlet) : Checked ProbeLoop :=
  if interval.isZero then .error .zeroInterval else .ok ⟨outlet, 0, []⟩

/-- Some probe rounds in a row. -/
def rounds (a : Addressing) (now : UInt64) : Nat → Outlet → Checked Outlet
  | 0, o => .ok o
  | n + 1, o => do
    let (o, queued) := o.probeRound a now
    let _ ← queued
    rounds a now n o

/-- The observer sleeps for some milliseconds, and looks. -/
def sleep (a : Addressing) (now : UInt64) (interval : Duration) (p : ProbeLoop) (millis : Nat) :
    Checked ProbeLoop := do
  let elapsed := p.elapsed + millis
  let due := roundsWithin interval elapsed - roundsWithin interval p.elapsed
  let outlet ← rounds a now due p.outlet
  return { outlet, elapsed, seen := p.seen ++ [outlet.traffic.egress.length] }

end ProbeLoop

/-! ### The loops of a station -/

/-- A loop of an endpoint. -/
inductive Loop where
  | pump
  | control
  /-- The next probe round is due after `next` nanoseconds. -/
  | probes (next : Nat)
  deriving DecidableEq, Repr

namespace Loop

/-- The loops of an endpoint in some role. -/
def ofRole (role : Role) : List Loop :=
  [pump, control] ++ if role.emitsProbes then [probes 0] else []

/-- The most rounds that a probe loop starts in one turn. -/
def roundLimit : Nat := 128

/-- The most turns of a loop within a millisecond. -/
def turnLimit : Nat := 0x100_0000

end Loop

namespace Station

/-- Some probe rounds in a row. -/
def probeRounds (clock : UInt64) : Nat → Station → Checked Station
  | 0, s => .ok s
  | n + 1, s => do
    let (endpoint, queued) := s.endpoint.emitRound clock
    let _ ← queued
    probeRounds clock n { s with endpoint }

/-- The rest of a loop that had `done` things to do at a millisecond. -/
def restAfter (s : Station) (now done : Nat) : Option Nat :=
  if done = 0 then some (now + s.endpoint.settings.tuning.idleBackoff.wholeMillis) else none

/-- A turn of a loop at a millisecond of a run, over an interface. The clock stands still. -/
def turn {τ : Type} (nic : Nic τ) (clock : UInt64) (now : Nat) (loop : Loop) (s : Station)
    (state : τ) : Checked (Turn (Station × τ) Loop) := do
  match loop with
  | .pump =>
    let (s, state, moved) := s.pumpOnce nic state
    return ⟨(s, state), loop, s.restAfter now moved⟩
  | .control =>
    let (endpoint, handled) ← s.endpoint.poll clock
    return ⟨({ s with endpoint }, state), loop, s.restAfter now handled⟩
  | .probes next =>
    let interval := s.endpoint.settings.tuning.probeInterval.nanos
    let elapsed := (Duration.ofMillis now).nanos
    let due := if next ≤ elapsed then (elapsed - next) / interval + 1 else 0
    let n := min due Loop.roundLimit
    let s ← s.probeRounds clock n
    let next := next + n * interval
    let rest := if due < Loop.roundLimit then some (Duration.mk next).wholeMillis else none
    return ⟨(s, state), .probes next, rest⟩

/-- The loops of a station run for some milliseconds over an interface. -/
def runFor {τ : Type} (nic : Nic τ) (clock : UInt64) (s : Station) (state : τ) (millis : Nat) :
    Checked (Station × τ) := do
  let schedule := Schedule.start (s, state) (Loop.ofRole s.endpoint.settings.role)
  let turn := fun now loop (s, state) => s.turn nic clock now loop state
  return (← schedule.run turn Loop.turnLimit 0 millis).state

end Station

/-! ### Sessions in time -/

namespace Session

/-- Both endpoints are asked to run. -/
def start (s : Session) : Session :=
  (s.setEndpoint .sender (s.endpoint .sender).start).setEndpoint .receiver
    (s.endpoint .receiver).start

/-- Both endpoints are asked to end. -/
def stop (s : Session) : Session :=
  (s.setEndpoint .sender (s.endpoint .sender).stop).setEndpoint .receiver
    (s.endpoint .receiver).stop

/-- The loops of a side. -/
def loops (s : Session) (side : Role) : List (Role × Loop) :=
  (Loop.ofRole (s.endpoint side).settings.role).map fun l => (side, l)

/-- A turn of a loop of a side. -/
def turn (now : Nat) (loop : Role × Loop) (s : Session) :
    Checked (Turn Session (Role × Loop)) := do
  let (side, l) := loop
  let t ← (s.station side).turn (Link.nic (endOf side)) s.clock.now now l s.link
  let (station, link) := t.state
  return ⟨{ s with link }.setStation side station, (side, t.loop), t.rest⟩

/-- The loops of both endpoints, the sender's first, run for some milliseconds while the clock
stands still. -/
def runFor (s : Session) (millis : Nat) : Checked Session := do
  let schedule := Schedule.start s (s.loops .sender ++ s.loops .receiver)
  return (← schedule.run turn Loop.turnLimit 0 millis).state

end Session

end PathControl
