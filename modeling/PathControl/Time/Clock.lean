import PathControl.Time.Duration

/-!
# Clock readings

A clock reading is a 64-bit number of nanoseconds. Moving a clock forward wraps around, and a
clock may be set to any reading, also an earlier one: nothing in the library assumes that
readings grow.
-/

namespace PathControl

/-- A clock that moves only when it is told to. -/
structure Clock where
  /-- The current reading. -/
  now : UInt64
  deriving DecidableEq, Repr, Inhabited

namespace Clock

/-- The clock moved forward, modulo 2^64. -/
def advance (c : Clock) (d : Duration) : Clock := ⟨c.now + UInt64.ofNat d.nanos⟩

/-- The clock at an absolute reading. -/
def set (_ : Clock) (now : UInt64) : Clock := ⟨now⟩

end Clock

end PathControl
