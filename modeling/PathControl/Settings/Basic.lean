import PathControl.Decimal.Shortest
import PathControl.Settings.Addressing
import PathControl.Time.Duration

/-!
# Settings of an endpoint

All that an endpoint is told before it starts: its role, its addressing, how its loops are tuned,
the socket that carries its frames and how it logs. Every part has a standard value.

`Settings.validate` accepts the settings that an endpoint can run with and names the first flaw of
the others; the addressing is examined before the tuning.
-/

namespace PathControl

/-- How the loops of an endpoint are tuned. -/
structure Tuning where
  /-- The path that the data plane starts on. -/
  initialPath : PathId
  /-- Time between probe rounds. -/
  probeInterval : Duration
  /-- Time to wait for a confirmation before a proposal is repeated. -/
  repathTimeout : Duration
  /-- How long copies of an adopted proposal count as duplicates. -/
  repathGuard : Duration
  /-- Repetitions before a negotiation is abandoned. -/
  maxRetries : UInt32
  /-- Where in the range of delays the switch threshold lies. -/
  thresholdRatio : Float
  /-- Added to every one-way delay, to absorb the offset of the clocks. -/
  clockBias : Duration
  /-- Frames moved per burst. -/
  burstSize : Nat
  /-- Capacity of the ingress and egress queues. -/
  ringSize : Nat
  /-- Packet buffers of the endpoint. -/
  poolSize : Nat
  /-- Least time between two looks at the timers. -/
  timerResolution : Duration
  /-- How long a loop sleeps that found nothing to do. -/
  idleBackoff : Duration
  /-- Least time between two reports of the counters. -/
  statsInterval : Duration
  deriving Repr

namespace Tuning

/-- The standard tuning. -/
def standard : Tuning where
  initialPath := .first
  probeInterval := .ofSeconds 2
  repathTimeout := .ofSeconds 2
  repathGuard := .ofSeconds 2
  maxRetries := 3
  thresholdRatio := 0.7
  clockBias := .ofSeconds 1
  burstSize := 32
  ringSize := 1024
  poolSize := 8191
  timerResolution := .ofMillis 10
  idleBackoff := .ofMillis 1
  statsInterval := .ofSeconds 10

/-- Whether a ratio lies in (0, 1]. No comparison holds of a value that is no number. -/
def ratioInRange (ratio : Float) : Bool := 0 < ratio && ratio ≤ 1

/-- Why the tuning is unusable. -/
def flaw? (t : Tuning) : Option SettingsFlaw :=
  if !ratioInRange t.thresholdRatio then
    some (.ratioOutOfRange (Decimal.positional t.thresholdRatio))
  else if t.repathTimeout.isZero || t.timerResolution.isZero then some .zeroTimeout
  else if t.probeInterval.isZero then some .zeroProbeInterval
  else if t.burstSize = 0 ∨ t.ringSize < t.burstSize then
    some (.ringBelowBurst t.ringSize t.burstSize)
  else if t.poolSize < pathCount then some (.poolBelowRound t.poolSize)
  else none

/-- The pool of a usable tuning holds the buffers of a probe round. -/
theorem pathCount_le_poolSize {t : Tuning} (h : t.flaw? = none) : pathCount ≤ t.poolSize := by
  apply Nat.le_of_not_lt
  intro hsmall
  unfold flaw? at h
  rw [if_pos hsmall] at h
  repeat' split at h
  all_goals cases h

end Tuning

/-- The socket that carries the frames of an endpoint. -/
structure SocketSettings where
  /-- Where the socket is bound. -/
  bind : Net.SocketAddress
  /-- Whom it sends to; learned from the first frame if absent. -/
  peer : Option Net.SocketAddress
  deriving DecidableEq, Repr

namespace SocketSettings

/-- A socket on any local address with an unknown peer. -/
def standard : SocketSettings where
  bind := .v4 ⟨0, 0, 0, 0⟩ 9000
  peer := none

end SocketSettings

/-- How an endpoint logs. -/
structure LogSettings where
  level : String
  /-- `text` or `json`. -/
  format : String
  color : Bool
  deriving DecidableEq, Repr

namespace LogSettings

/-- The standard log. -/
def standard : LogSettings where
  level := "info"
  format := "text"
  color := true

end LogSettings

/-- All settings of an endpoint. -/
structure Settings where
  role : Role
  addressing : Addressing
  tuning : Tuning
  socket : SocketSettings
  log : LogSettings
  deriving Repr

namespace Settings

/-- The standard settings. -/
def standard : Settings where
  role := .receiver
  addressing := .standard
  tuning := .standard
  socket := .standard
  log := .standard

/-- The receiver of the reference deployment. -/
def reference : Settings :=
  { standard with
    socket := { SocketSettings.standard with peer := some (.v4 ⟨192, 168, 200, 2⟩ 9000) } }

/-- The same deployment seen from the other endpoint. -/
def reversed (s : Settings) (role : Role) : Settings :=
  { s with role, addressing := s.addressing.reversed }

/-- The first flaw of the settings. -/
def flaw? (s : Settings) : Option SettingsFlaw := s.addressing.flaw?.or s.tuning.flaw?

/-- Accepts settings without a flaw. -/
def validate (s : Settings) : Except Error Unit :=
  match s.flaw? with
  | some flaw => .error (.invalidSettings flaw)
  | none => .ok ()

/-- Settings are valid if neither addressing nor tuning has a flaw. -/
theorem validate_eq_ok_iff (s : Settings) :
    s.validate = .ok () ↔ s.addressing.flaw? = none ∧ s.tuning.flaw? = none := by
  unfold validate flaw?
  cases s.addressing.flaw? <;> cases s.tuning.flaw? <;> simp

/-- Settings reversed for the peer are as valid, and refused for the same cause if not. -/
@[simp] theorem validate_reversed (s : Settings) (role : Role) :
    (s.reversed role).validate = s.validate := rfl

end Settings

end PathControl
