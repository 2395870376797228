import PathControl.Path

/-!
# Events

What the control loop of an endpoint announces: a new best path, a negotiation of its own, a
switch of the active path and its cause, and a negotiation given up.
-/

namespace PathControl.Endpoint

/-- How a switch came about. -/
inductive SwitchCause where
  /-- Our proposal was confirmed. -/
  | committed
  /-- The peer's proposal was taken. -/
  | adopted
  deriving DecidableEq, Repr

/-- What the control loop announces. -/
inductive Event where
  /-- A measurement changed the path of least delay. -/
  | bestPathChanged (source target : PathId)
  /-- A new proposal was sent. -/
  | negotiationStarted (target : PathId) (sequence : UInt64)
  /-- The active path changed. -/
  | pathSwitched (source target : PathId) (cause : SwitchCause)
  /-- A negotiation ended without a confirmation. -/
  | negotiationAbandoned (target : PathId) (attempts : UInt32)
  deriving DecidableEq, Repr

namespace SwitchCause

/-- The name of a cause in texts. -/
def name : SwitchCause → String
  | .committed => "Committed"
  | .adopted => "Adopted"

end SwitchCause

end PathControl.Endpoint
