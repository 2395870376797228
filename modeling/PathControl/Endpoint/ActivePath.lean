import PathControl.Fault
import PathControl.Path

/-!
# The active path

The path that the data plane forwards on, how often it has changed and since when it is the active
one. Moving to the path that is active already is no change.
-/

namespace PathControl.Endpoint

/-- The active path. -/
structure ActivePath where
  path : PathId
  /-- How often the path has changed. -/
  switches : UInt64
  /-- Clock reading of the last change, 0 before the first one. -/
  since : UInt64
  deriving DecidableEq, Repr

namespace ActivePath

/-- The path that a link starts on. -/
def new (initial : PathId) : ActivePath := ⟨initial, 0, 0⟩

/-- Moves to a path. The answer is the path moved away from, if there was a change. -/
def moveTo (a : ActivePath) (path : PathId) (now : UInt64) :
    Checked (ActivePath × Option PathId) :=
  if a.path = path then .ok (a, none)
  else do
    let switches ← Checked.add64 a.switches 1
    return ({ path, switches, since := now }, some a.path)

end ActivePath

end PathControl.Endpoint
