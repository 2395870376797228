import PathControl.Decimal.Fixed

/-!
# The shortest decimal that reads back

`shortest` finds, for a positive float, the decimal with the fewest digits among those that round
to it, and of these the nearest, a tie going up. A decimal rounds to a float exactly when it lies
between the midpoints to its neighbours, the midpoints included when the mantissa is even. The
search goes through the decimal grids from coarse to fine; on each grid only the two points around
the value need a test. Seventeen digits always suffice.

`positional` writes a float with these digits, without a power of ten.
-/

namespace PathControl.Decimal

/-- A decimal `digits * 10^exponent`. -/
structure ShortDecimal where
  digits : Nat
  exponent : Int
  deriving DecidableEq, Repr

/-- The reals that round to a float, in quarter units of its last place: from `low` to `high`,
ends included if `closed`. The gap below a power of two is half as wide. -/
structure RoundingInterval where
  low : Nat
  high : Nat
  closed : Bool
  deriving DecidableEq, Repr

/-- The rounding interval of `mantissa * 2^exponent`. -/
def roundingInterval (mantissa : Nat) (exponent : Int) : RoundingInterval where
  low :=
    if mantissa = Nat.pow 2 Binary64.fractionBits ∧ Binary64.leastExponent < exponent then
      4 * mantissa - 1
    else 4 * mantissa - 2
  high := 4 * mantissa + 2
  closed := mantissa % 2 = 0

/-- Whether `d * 10^shift` lies in a rounding interval whose unit is `2^exponent`. -/
def RoundingInterval.holds (i : RoundingInterval) (exponent : Int) (d : Nat) (shift : Int) :
    Bool :=
  let value := 4 * (d * (scaledNum 10 1 shift * scaledDen 2 exponent))
  let unit := scaledDen 10 shift * scaledNum 2 1 exponent
  if i.closed then i.low * unit ≤ value && value ≤ i.high * unit
  else i.low * unit < value && value < i.high * unit

/-- The better of the two points of a decimal grid around a value, if one rounds to it. Of two
equally near ones the upper one is better. -/
def onGrid? (mantissa : Nat) (exponent shift : Int) : Option ShortDecimal :=
  let interval := roundingInterval mantissa exponent
  let num := scaledNum 2 mantissa exponent * scaledDen 10 shift
  let den := scaledDen 2 exponent * scaledNum 10 1 shift
  let below := num / den
  let isIn := fun d => d != 0 && interval.holds exponent d shift
  match isIn below, isIn (below + 1) with
  | true, true => some ⟨if 2 * (num % den) < den then below else below + 1, shift⟩
  | true, false => some ⟨below, shift⟩
  | false, true => some ⟨below + 1, shift⟩
  | false, false => none

/-- The decimal with the fewest digits that rounds to `mantissa * 2^exponent`, a positive value. -/
def shortest (mantissa : Nat) (exponent : Int) : ShortDecimal :=
  let order := decimalOrder (scaledNum 2 mantissa exponent) (scaledDen 2 exponent)
  let grids := (List.range 17).map fun n : Nat => order - n
  (grids.findSome? (onGrid? mantissa exponent)).getD ⟨0, 0⟩

/-- A decimal without trailing zeros in its digits. -/
def ShortDecimal.trimmed (d : ShortDecimal) : ShortDecimal :=
  let zeros := ((Nat.toDigits 10 d.digits).reverse.takeWhile (· == '0')).length
  if d.digits = 0 then ⟨0, 0⟩ else ⟨d.digits / Nat.pow 10 zeros, d.exponent + zeros⟩

/-- A decimal written out, without a power of ten. -/
def ShortDecimal.positional (d : ShortDecimal) : String :=
  let d := d.trimmed
  if 0 ≤ d.exponent then toString (d.digits * Nat.pow 10 d.exponent.toNat)
  else placed (-d.exponent).toNat d.digits

/-- A float written out with the fewest digits that read back. -/
def positional (x : Float) : String :=
  match Binary64.ofFloat x with
  | .finite negative m e =>
    signText negative ++ if m = 0 then "0" else (shortest m e).positional
  | other => (special? other).getD ""

end PathControl.Decimal
