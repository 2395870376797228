import PathControl.Decimal.Binary64
import PathControl.Text.Digits

/-!
# Decimals with a set number of places

`fixed` writes a float with a set number of digits after the point and `scientific` with a set
number after the point of its leading digit. Both round the exact binary value, a tie going to the
even digit. Infinities and the value that is no number have names of their own.
-/

namespace PathControl.Decimal

open PathControl.Text

/-- The text of a value that is not finite. -/
def special? : Binary64 → Option String
  | .finite .. => none
  | .infinite negative => some (if negative then "-inf" else "inf")
  | .nan => some "NaN"

/-- A minus sign where there is one. -/
def signText (negative : Bool) : String := if negative then "-" else ""

/-- A whole number of units of `10^-places` as a decimal. -/
def placed (places units : Nat) : String :=
  let whole := toString (units / Nat.pow 10 places)
  if places = 0 then whole else whole ++ "." ++ padded places (units % Nat.pow 10 places)

/-- A float with `places` digits after the point. -/
def fixed (places : Nat) (x : Float) : String :=
  match Binary64.ofFloat x with
  | .finite negative m e =>
    signText negative ++
      placed places (roundDiv (scaledNum 2 m e * Nat.pow 10 places) (scaledDen 2 e))
  | other => (special? other).getD ""

/-- A float with `places` digits after the point of its leading digit, and a power of ten. -/
def scientific (places : Nat) (x : Float) : String :=
  match Binary64.ofFloat x with
  | .finite negative m e =>
    if m = 0 then signText negative ++ placed places 0 ++ "e0"
    else
      let num := scaledNum 2 m e
      let den := scaledDen 2 e
      let order := decimalOrder num den
      let shift := order - places
      let units := roundDiv (num * scaledDen 10 shift) (den * scaledNum 10 1 shift)
      -- rounding up to the next power of ten moves the point
      let (units, order) :=
        if Nat.pow 10 (places + 1) ≤ units then (units / 10, order + 1) else (units, order)
      signText negative ++ placed places units ++ "e" ++ toString order
  | other => (special? other).getD ""

end PathControl.Decimal
