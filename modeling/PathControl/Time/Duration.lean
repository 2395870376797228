import PathControl.Fault

/-!
# Durations

A length of time in whole nanoseconds, below `Duration.bound`: its whole seconds fit a 64-bit
word. `Duration.word` is the number of nanoseconds as a 64-bit word, held at the greatest word
where it does not fit.
-/

namespace PathControl

/-- A length of time. -/
structure Duration where
  /-- Whole nanoseconds. -/
  nanos : Nat
  deriving DecidableEq, Repr, Inhabited

/-- Nanoseconds in a second. -/
def nanosPerSecond : Nat := 1_000_000_000

namespace Duration

/-- One more than the greatest number of nanoseconds of a duration. -/
def bound : Nat := UInt64.size * nanosPerSecond

/-- The empty duration. -/
def zero : Duration := ⟨0⟩

/-- A number of whole seconds. -/
def ofSeconds (s : Nat) : Duration := ⟨s * nanosPerSecond⟩

/-- A number of whole milliseconds. -/
def ofMillis (ms : Nat) : Duration := ⟨ms * 1_000_000⟩

/-- Whole seconds and nanoseconds, whose sum has to be a duration. -/
def ofParts (seconds nanos : Nat) : Checked Duration :=
  let total := seconds * nanosPerSecond + nanos
  if total < bound then .ok ⟨total⟩ else .error .overflow

/-- The whole seconds of a duration. -/
def seconds (d : Duration) : Nat := d.nanos / nanosPerSecond

/-- The nanoseconds of a duration beyond its whole seconds. -/
def subsecond (d : Duration) : Nat := d.nanos % nanosPerSecond

/-- Milliseconds, a part of one counted as a whole one. -/
def wholeMillis (d : Duration) : Nat := (d.nanos + (1_000_000 - 1)) / 1_000_000

/-- Whether a duration is empty. -/
def isZero (d : Duration) : Bool := d.nanos == 0

/-- The nanoseconds as a 64-bit word, the greatest word standing for all that exceed it. -/
def word (d : Duration) : UInt64 := UInt64.ofNat (min d.nanos (UInt64.size - 1))

/-- The word of a duration counts its nanoseconds, as far as they go. -/
theorem toNat_word (d : Duration) : d.word.toNat = min d.nanos (UInt64.size - 1) := by
  simp only [word, UInt64.toNat_ofNat', UInt64.size]
  omega

end Duration

/-- Sum of 64-bit words, held at the greatest word. -/
def saturatingAdd (a b : UInt64) : UInt64 :=
  UInt64.ofNat (min (a.toNat + b.toNat) (UInt64.size - 1))

/-- Difference of 64-bit words, held at zero. -/
def saturatingSub (a b : UInt64) : UInt64 :=
  if b ≤ a then a - b else 0

/-- A saturating sum stops at the greatest word. -/
theorem toNat_saturatingAdd (a b : UInt64) :
    (saturatingAdd a b).toNat = min (a.toNat + b.toNat) (UInt64.size - 1) := by
  simp only [saturatingAdd, UInt64.toNat_ofNat', UInt64.size]
  omega

/-- A reading moved forward by a duration, held at the greatest reading. -/
theorem toNat_saturatingAdd_word (now : UInt64) (d : Duration) :
    (saturatingAdd now d.word).toNat = min (now.toNat + d.nanos) (UInt64.size - 1) := by
  rw [toNat_saturatingAdd, Duration.toNat_word]
  omega

/-- A saturating difference stops at zero, as that of natural numbers does. -/
theorem toNat_saturatingSub (a b : UInt64) :
    (saturatingSub a b).toNat = a.toNat - b.toNat := by
  unfold saturatingSub
  split
  · next h => exact UInt64.toNat_sub_of_le _ _ h
  · next h =>
    have : a.toNat < b.toNat := UInt64.lt_iff_toNat_lt.1 (UInt64.not_le.1 h)
    simp only [UInt64.toNat_zero]
    omega

end PathControl
