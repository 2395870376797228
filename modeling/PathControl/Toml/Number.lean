import PathControl.Decimal.Reading
import PathControl.Decimal.Shortest
import PathControl.Toml.Quoted
import PathControl.Toml.Value

/-!
# Numbers, dates and times

Reading of the TOML values that begin with a sign or a digit, and writing of the numbers. Digits
may be grouped by underscores, each between two digits. Whole numbers are 64-bit and signed, and
may be hexadecimal, octal or binary when they have no sign. A float that exceeds all floats is
refused unless it is negative.
-/

namespace PathControl.Toml

open PathControl.Text

/-! ### Reading -/

/-- Takes a digit. -/
def takeDigit? (radix : Nat) : Taker Char := takeChar? fun c => (digitValue? radix c).isSome

/-- Takes a digit that may have an underscore in front. -/
def takeGroupedDigit? (radix : Nat) : Taker Char :=
  (takeDigit? radix).or fun cs => (skip? ['_'] cs).bind (takeDigit? radix)

/-- Takes a digit and all digits that follow. -/
def takeDigits? (radix : Nat) : Taker (List Char) := fun cs => do
  let (first, rest) ← takeDigit? radix cs
  let (more, rest) := takeMany (takeGroupedDigit? radix) rest
  return (first :: more, rest)

/-- Takes a sign. The answer is whether it is a minus sign; without a sign it is not. -/
def takeSign : List Char → Bool × List Char
  | '-' :: cs => (true, cs)
  | '+' :: cs => (false, cs)
  | cs => (false, cs)

/-- Takes whole digits without a superfluous zero. -/
def takeWhole? : Taker (List Char)
  | '0' :: cs => some (['0'], cs)
  | cs => takeDigits? 10 cs

/-- Takes digits behind a decimal point. -/
def takeDecimals? : Taker (List Char) := fun cs => (skip? ['.'] cs).bind (takeDigits? 10)

/-- Takes a power of ten. -/
def takeExponent? : Taker Int := fun cs => do
  let (_, rest) ← takeChar? (fun c => c = 'e' || c = 'E') cs
  let (negative, rest) := takeSign rest
  let (digits, rest) ← takeDigits? 10 rest
  let magnitude : Int := valueOf 10 digits
  return (if negative then -magnitude else magnitude, rest)

/-- Takes a float written in digits. -/
def takeDecimalFloat? : Taker Float := fun cs => do
  let (negative, rest) := takeSign cs
  let (whole, rest) ← takeWhole? rest
  let (decimals, exponent, rest) ← match takeDecimals? rest, takeExponent? rest with
    | some (decimals, rest), _ =>
      match takeExponent? rest with
      | some (exponent, rest) => some (decimals, exponent, rest)
      | none => some (decimals, 0, rest)
    | none, some (exponent, rest) => some ([], exponent, rest)
    | none, none => none
  let x := Decimal.toFloat negative (valueOf 10 (whole ++ decimals)) (exponent - decimals.length)
  if x.isInf && !negative then none else some (x, rest)

/-- Takes an infinity, or the value that is no number. -/
def takeSpecialFloat? : Taker Float := fun cs =>
  let (negative, rest) := takeSign cs
  match skip? "inf".toList rest, skip? "nan".toList rest with
  | some rest, _ => some (if negative then -1 / 0 else 1 / 0, rest)
  | none, some rest => some (0 / 0, rest)
  | none, none => none

/-- Takes a whole number with a radix in front. -/
def takeRadixInteger? (mark : String) (radix : Nat) : Taker Int := fun cs => do
  let (digits, rest) ← takeDigits? radix (← skip? mark.toList cs)
  let n := valueOf radix digits
  if n < 0x8000_0000_0000_0000 then some (n, rest) else none

/-- Takes a whole number in decimal. -/
def takeDecimalInteger? : Taker Int := fun cs => do
  let (negative, rest) := takeSign cs
  let (digits, rest) ← takeWhole? rest
  let magnitude : Int := valueOf 10 digits
  let n := if negative then -magnitude else magnitude
  if -0x8000_0000_0000_0000 ≤ n ∧ n < 0x8000_0000_0000_0000 then some (n, rest) else none

/-- Takes a whole number. -/
def takeInteger? : Taker Int :=
  (takeRadixInteger? "0x" 16).or
    ((takeRadixInteger? "0o" 8).or ((takeRadixInteger? "0b" 2).or takeDecimalInteger?))

/-- Takes a number of exactly so many digits in a range. -/
def takeField? (digits first last : Nat) : Taker Nat := fun cs =>
  let run := cs.take digits
  let n := valueOf 10 run
  if run.length = digits ∧ run.all isDigit ∧ first ≤ n ∧ n ≤ last then some (n, cs.drop digits)
  else none

/-- Days of a month. -/
def daysIn (year month : Nat) : Nat :=
  let isLeap : Bool := year % 4 = 0 && (year % 100 ≠ 0 || year % 400 = 0)
  if month = 2 then (if isLeap then 29 else 28)
  else if [4, 6, 9, 11].contains month then 30
  else 31

/-- Takes a date: year, month and day. -/
def takeDate? : Taker Unit := fun cs => do
  let (year, rest) ← takeField? 4 0 9999 cs
  let (month, rest) ← takeField? 2 1 12 (← skip? ['-'] rest)
  let (_, rest) ← takeField? 2 1 (daysIn year month) (← skip? ['-'] rest)
  return ((), rest)

/-- Takes a time of day with seconds, and a fraction of a second if there is one. -/
def takeTime? : Taker Unit := fun cs => do
  let (_, rest) ← takeField? 2 0 23 cs
  let (_, rest) ← takeField? 2 0 59 (← skip? [':'] rest)
  let (_, rest) ← takeField? 2 0 60 (← skip? [':'] rest)
  match (skip? ['.'] rest).bind fun cs => let (digits, rest) := takeMany (takeDigit? 10) cs
      if digits.isEmpty then none else some rest with
  | some rest => return ((), rest)
  | none => return ((), rest)

/-- Takes an offset from universal time. -/
def takeOffset? : Taker Unit := fun cs => do
  let (mark, rest) ← takeChar? (fun c => ['Z', 'z', '+', '-'].contains c) cs
  if mark = 'Z' ∨ mark = 'z' then return ((), rest)
  let (_, rest) ← takeField? 2 0 23 rest
  let (_, rest) ← takeField? 2 0 59 (← skip? [':'] rest)
  return ((), rest)

/-- Takes a time of day behind a date, with an offset if there is one. -/
def takeTimeOfDate? : Taker Unit := fun cs => do
  let (_, rest) ← takeChar? (fun c => ['T', 't', ' '].contains c) cs
  let (_, rest) ← takeTime? rest
  return ((), (takeOffset? rest).elim rest Prod.snd)

/-- Takes a date, a time, or both. -/
def takeDateTime? : Taker Unit :=
  Taker.or (fun cs => do
    let (_, rest) ← takeDate? cs
    return ((), (takeTimeOfDate? rest).elim rest Prod.snd)) takeTime?

/-- Changes what a reader takes. -/
def Taker.map {α β : Type} (f : α → β) (item? : Taker α) : Taker β := fun cs =>
  (item? cs).map fun (x, rest) => (f x, rest)

/-- Takes a number, date or time. -/
def takeNumeric? : Taker Value :=
  (takeDateTime?.map fun _ => Value.dateTime).or
    ((takeDecimalFloat?.map Value.float).or
      ((takeSpecialFloat?.map Value.float).or (takeInteger?.map Value.integer)))

/-! ### Writing -/

/-- A float as TOML: written out, with a point. -/
def floatText (x : Float) : String :=
  let text := Decimal.positional x
  if text.toList.all fun c => isDigit c || c = '-' then text ++ ".0" else text

/-- A whole number as TOML, if it fits. -/
def integerText? (n : Int) : Option String :=
  if -0x8000_0000_0000_0000 ≤ n ∧ n < 0x8000_0000_0000_0000 then some (toString n) else none

end PathControl.Toml
