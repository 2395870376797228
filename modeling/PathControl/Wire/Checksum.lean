import PathControl.Wire.Bytes

/-!
# The Internet checksum

The one's-complement checksum of RFC 1071: the 16-bit words of the data are summed, a last odd
byte counting as the high half of a word; the carries are folded back into 16 bits; and the result
is complemented. The sum is held in 32 bits and faults when it leaves them.
-/

namespace PathControl.Wire

/-- Adds the 16-bit words of `bs` to a partial sum. -/
def sumWords (sum : Nat) : Bytes → Checked Nat
  | [] => .ok sum
  | [last] => Checked.fit 32 (sum + last.toNat * 256)
  | high :: low :: rest =>
    match Checked.fit 32 (sum + (high.toNat * 256 + low.toNat)) with
    | .ok sum => sumWords sum rest
    | .error fault => .error fault

/-- Folds carries back until the sum fits 16 bits. Each fold takes 65535 away for every carry,
so it ends. -/
def foldCarries (sum : Nat) : Nat :=
  if sum < 0x1_0000 then sum else foldCarries (sum % 0x1_0000 + sum / 0x1_0000)
termination_by sum
decreasing_by omega

/-- The checksum of `bs`, continuing from a partial sum. -/
def internetChecksum (initial : UInt32) (bs : Bytes) : Checked UInt16 := do
  let sum ← sumWords initial.toNat bs
  return UInt16.ofNat (0xFFFF - foldCarries sum)

end PathControl.Wire
