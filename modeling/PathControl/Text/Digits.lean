/-!
# Digit strings

Reading and writing of unsigned numbers in a radix of at most 36. `digits?` reads a whole digit
string below a bound and says why it fails; `takeNumber?` reads the longest run of digits at the
front of a text; `padded` writes a number at a minimum width.
-/

namespace PathControl.Text

/-- The value of a digit, letters of either case counting from 10. -/
def digitValue? (radix : Nat) (c : Char) : Option Nat :=
  let n := c.toNat
  let value? : Option Nat :=
    if 48 ≤ n ∧ n ≤ 57 then some (n - 48)
    else if 97 ≤ n ∧ n ≤ 122 then some (n - 87)
    else if 65 ≤ n ∧ n ≤ 90 then some (n - 55)
    else none
  value?.filter (· < radix)

/-- Whether a character is one of `0` to `9`. -/
def isDigit (c : Char) : Bool := '0' ≤ c && c ≤ '9'

/-- The value of a digit string, the most significant digit first. Characters that are no digits
count as 0. -/
def valueOf (radix : Nat) (cs : List Char) : Nat :=
  cs.foldl (fun acc c => acc * radix + (digitValue? radix c).getD 0) 0

/-- Why a text is no number of a bounded type. -/
inductive NumberError where
  /-- There is no digit at all. -/
  | empty
  /-- A character is not a digit of the radix. -/
  | invalidDigit
  /-- The value reaches the bound. -/
  | tooLarge
  deriving DecidableEq, Repr

/-- The wording of a number error. -/
def NumberError.message : NumberError → String
  | .empty => "cannot parse integer from empty string"
  | .invalidDigit => "invalid digit found in string"
  | .tooLarge => "number too large to fit in target type"

/-- Continues a number with the digits of `cs`. The first character that is no digit, or that
takes the value to `bound`, decides the error. -/
def accumulate (radix bound : Nat) : Nat → List Char → Except NumberError Nat
  | acc, [] => .ok acc
  | acc, c :: cs =>
    match digitValue? radix c with
    | none => .error .invalidDigit
    | some d =>
      if acc * radix + d < bound then accumulate radix bound (acc * radix + d) cs
      else .error .tooLarge

/-- A whole number below `bound`: one optional plus sign, then at least one digit. -/
def number? (radix bound : Nat) : List Char → Except NumberError Nat
  | [] => .error .empty
  | ['+'] => .error .invalidDigit
  | '+' :: cs => accumulate radix bound 0 cs
  | cs => accumulate radix bound 0 cs

/-- The number written by the longest run of digits at the front of a text, with what follows.
There must be a digit, at most `maxDigits` of them if that is given, no superfluous leading zero
unless `zeros` admits them, and a value below `bound`. -/
def takeNumber? (radix : Nat) (maxDigits : Option Nat) (zeros : Bool) (bound : Nat)
    (cs : List Char) : Option (Nat × List Char) :=
  let run := cs.takeWhile fun c => (digitValue? radix c).isSome
  let value := valueOf radix run
  if run.isEmpty then none
  else if maxDigits.any (· < run.length) then none
  else if !zeros && run.head? == some '0' && 1 < run.length then none
  else if value < bound then some (value, cs.drop run.length)
  else none

/-- The digit of a value below 16, letters in lower case. -/
def hexDigit (n : Nat) : Char :=
  if n < 10 then Char.ofNat (48 + n) else Char.ofNat (87 + n)

/-- A byte as two lower-case hexadecimal digits. -/
def hexByte (b : UInt8) : List Char :=
  [hexDigit (b.toNat / 16), hexDigit (b.toNat % 16)]

/-- The bytes written as pairs of hexadecimal digits of either case. An odd digit at the end, or a
character that is no digit, makes it none. -/
def hexBytes? : List Char → Option (List UInt8)
  | [] => some []
  | [_] => none
  | a :: b :: cs => do
    let high ← digitValue? 16 a
    let low ← digitValue? 16 b
    return UInt8.ofNat (high * 16 + low) :: (← hexBytes? cs)

/-- A number in lower-case hexadecimal, without leading zeros. -/
def hexNumber (n : Nat) : String := String.ofList (Nat.toDigits 16 n)

/-- A number in decimal, filled with zeros on the left up to `width` digits. -/
def padded (width n : Nat) : String :=
  let digits := Nat.toDigits 10 n
  String.ofList (List.replicate (width - digits.length) '0' ++ digits)

/-- Parts of a text between separators. There is always at least one part. -/
def splitOn (sep : Char) : List Char → List (List Char)
  | [] => [[]]
  | c :: cs =>
    match splitOn sep cs with
    | [] => [[c]]
    | part :: parts => if c = sep then [] :: part :: parts else (c :: part) :: parts

end PathControl.Text
