import PathControl.Decimal.Binary64

/-!
# Decimals read as floats

`toFloat` reads a decimal number, a sign, whole digits and a power of ten, as the nearest float.
Numbers beyond the range of floats become infinite or zero without computing the power.
-/

namespace PathControl.Decimal

/-- The float nearest to `digits * 10^exponent`, with a sign. -/
def toFloat (negative : Bool) (digits : Nat) (exponent : Int) : Float :=
  let order := (digitCount digits : Int) + exponent
  let magnitude : UInt64 :=
    if digits = 0 ∨ order < -400 then 0
    else if 400 < order then 0x7FF0000000000000
    else nearestBits (digits * Nat.pow 10 exponent.toNat) (Nat.pow 10 (-exponent).toNat)
  Float.ofBits (if negative then magnitude + 0x8000000000000000 else magnitude)

end PathControl.Decimal
