/-!
# Binary64 values as fractions

A finite binary64 number is a sign and a magnitude `mantissa * 2^exponent`. `Binary64.ofFloat`
takes a float apart exactly, and `nearest` goes back: it rounds a fraction to the nearest float, a
tie going to the even mantissa. `roundDiv` rounds a quotient in the same way, and is what all
decimal texts of this library rest on.
-/

namespace PathControl.Decimal

/-- A binary64 number taken apart. -/
inductive Binary64 where
  /-- Magnitude `mantissa * 2^exponent`. -/
  | finite (negative : Bool) (mantissa : Nat) (exponent : Int)
  | infinite (negative : Bool)
  | nan
  deriving DecidableEq, Repr

namespace Binary64

/-- Bits of a stored mantissa. -/
def fractionBits : Nat := 52

/-- Exponent of the least positive number. -/
def leastExponent : Int := -1074

/-- The number of a bit pattern. -/
def ofBits (bits : UInt64) : Binary64 :=
  let n := bits.toNat
  let negative := 0x8000_0000_0000_0000 ≤ n
  let field : Nat := n / Nat.pow 2 fractionBits % 0x800
  let fraction := n % Nat.pow 2 fractionBits
  if field = 0x7FF then
    if fraction = 0 then .infinite negative else .nan
  else if field = 0 then .finite negative fraction leastExponent
  else .finite negative (Nat.pow 2 fractionBits + fraction) (leastExponent + (field : Int) - 1)

/-- The number of a float. -/
def ofFloat (x : Float) : Binary64 := ofBits x.toBits

end Binary64

/-- A quotient rounded to the nearest whole number, a tie going to the even one. -/
def roundDiv (num den : Nat) : Nat :=
  let q := num / den
  let r := num % den
  if 2 * r < den then q
  else if den < 2 * r then q + 1
  else q + q % 2

/-- Numerator of `a * base^e`. -/
def scaledNum (base a : Nat) (e : Int) : Nat := a * Nat.pow base e.toNat

/-- Denominator of `a * base^e`. -/
def scaledDen (base : Nat) (e : Int) : Nat := Nat.pow base (-e).toNat

/-- How many decimal digits a number has; zero has one. -/
def digitCount (n : Nat) : Nat := (Nat.toDigits 10 n).length

/-- The exponent of the greatest power of ten that is at most the fraction `num / den`, which is
positive. -/
def decimalOrder (num den : Nat) : Int :=
  if den ≤ num then (digitCount (num / den) : Int) - 1
  else -(digitCount ((den + num - 1) / num - 1) : Int)

/-- The bits of the float nearest to a positive fraction, a tie going to the even mantissa. What
exceeds all floats becomes infinite. -/
def nearestBits (num den : Nat) : UInt64 :=
  let guess : Int := (num.log2 : Int) - den.log2 - Binary64.fractionBits
  let quotient := fun e : Int => roundDiv (num * scaledDen 2 e) (den * scaledNum 2 1 e)
  let exact := fun e : Int => num * scaledDen 2 e / (den * scaledNum 2 1 e)
  let e := if exact guess < Nat.pow 2 Binary64.fractionBits then guess - 1 else guess
  let e := max e Binary64.leastExponent
  let bits := (e - Binary64.leastExponent).toNat * Nat.pow 2 Binary64.fractionBits + quotient e
  UInt64.ofNat (min bits (0x7FF * Nat.pow 2 Binary64.fractionBits))

end PathControl.Decimal
