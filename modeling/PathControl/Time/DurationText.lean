import PathControl.Fault
import PathControl.Text.Blank
import PathControl.Text.Digits
import PathControl.Time.Duration

/-!
# Durations as text

A duration is written as numbers with units, such as `1h 30m` or `2days 500ms`. `Duration.text`
writes it in descending units, years first. `Duration.ofText` reads any sequence of numbers with
units and adds them up; a number may have a decimal point, provided that it comes to whole
nanoseconds, or to whole seconds for the units from the hour on. The lone text `0` is the empty
duration.

The reader takes one character at a time. Positions in errors are counted in bytes.
-/

namespace PathControl

open PathControl.Text

/-- Why a text is no duration. -/
inductive DurationTextError where
  /-- A character has no place in a duration. -/
  | invalidCharacter (position : Nat)
  /-- Something else stands where a number should begin. -/
  | numberExpected (position : Nat)
  /-- A number has no unit. -/
  | unitNeeded (number : Nat)
  | unknownUnit (unit : String)
  /-- The value is too large, or not a whole number of nanoseconds. -/
  | unrepresentable
  /-- There is no number at all. -/
  | empty
  deriving DecidableEq, Repr

/-- The wording of a duration error. -/
def DurationTextError.message : DurationTextError → String
  | .invalidCharacter position => s!"invalid character at {position}"
  | .numberExpected position => s!"expected number at {position}"
  | .unitNeeded number => s!"time unit needed, for example {number}sec or {number}ms"
  | .unknownUnit unit =>
    "unknown time unit \"" ++ unit ++ "\", supported units: ns, us/µs, ms, sec, min, hours, " ++
      "days, weeks, months, years (and few variations)"
  | .unrepresentable =>
    "number is too large or cannot be represented without a lack of precision " ++
      "(values below 1ns are not supported)"
  | .empty => "value was empty"

/-- A unit of time. -/
inductive TimeUnit where
  | nanosecond
  | microsecond
  | millisecond
  | second
  | minute
  | hour
  | day
  | week
  /-- 30.44 days. -/
  | month
  /-- 365.25 days. -/
  | year
  deriving DecidableEq, Repr

namespace TimeUnit

/-- Whole seconds in a unit, or nanoseconds for the units below a second. -/
def size : TimeUnit → Nat
  | nanosecond => 1
  | microsecond => 1000
  | millisecond => 1_000_000
  | second => 1
  | minute => 60
  | hour => 3600
  | day => 86400
  | week => 7 * 86400
  | month => 2630016
  | year => 31557600

/-- Whether the size of a unit is in nanoseconds. -/
def isSubsecond : TimeUnit → Bool
  | nanosecond | microsecond | millisecond => true
  | _ => false

/-- Names that a unit is read by. -/
def names : TimeUnit → List String
  | nanosecond => ["nanos", "nsec", "ns"]
  | microsecond => ["usec", "us", "µs"]
  | millisecond => ["millis", "msec", "ms"]
  | second => ["seconds", "second", "secs", "sec", "s"]
  | minute => ["minutes", "minute", "min", "mins", "m"]
  | hour => ["hours", "hour", "hrs", "hr", "h"]
  | day => ["days", "day", "d"]
  | week => ["weeks", "week", "wk", "wks", "w"]
  | month => ["months", "month", "M"]
  | year => ["years", "year", "yr", "yrs", "y"]

/-- All units. -/
def all : List TimeUnit :=
  [nanosecond, microsecond, millisecond, second, minute, hour, day, week, month, year]

/-- The unit of a name. -/
def ofName? (s : String) : Option TimeUnit := all.find? fun u => u.names.contains s

end TimeUnit

namespace Duration

/-! ### Reading -/

/-- The part of a number behind its decimal point: `numerator / denominator`. -/
structure Fraction where
  numerator : Nat
  /-- A power of ten. -/
  denominator : Nat
  deriving DecidableEq, Repr

/-- What the reader is in the middle of. -/
inductive Phase where
  /-- Nothing but white space so far. -/
  | start
  /-- White space since a unit, which ended at `mark`. -/
  | between (mark : Nat)
  /-- A number before any decimal point. -/
  | whole (number : Nat)
  /-- Digits behind the point. `mark` is where the last accepted character ended, or where the
  point stands. -/
  | decimals (number : Nat) (fraction : Fraction) (mark : Nat)
  /-- The letters of a unit. -/
  | unit (number : Nat) (fraction : Option Fraction) (letters : List Char)
  deriving DecidableEq, Repr

/-- The reader between two characters. -/
structure Reader where
  /-- Bytes read. -/
  position : Nat
  phase : Phase
  /-- Sum of the items read. -/
  total : Duration
  deriving DecidableEq, Repr

/-- An answer of the reader. -/
abbrev Reading (α : Type) : Type := ExceptT DurationTextError Checked α

/-- Whether a character may be part of a unit. -/
def isUnitLetter (c : Char) : Bool :=
  ('a' ≤ c && c ≤ 'z') || ('A' ≤ c && c ≤ 'Z') || c = 'µ'

/-- A number that must fit a 64-bit word. -/
def word? (n : Nat) : Reading Nat :=
  if n < UInt64.size then return n else throw .unrepresentable

/-- Adds seconds and nanoseconds to a duration. A sum beyond all durations is unrepresentable,
except that one overshooting by the nanoseconds alone, and exactly by completing a second, is a
fault. -/
def addParts (total : Duration) (seconds nanos : Nat) : Reading Duration := do
  let below ← word? (total.subsecond + nanos)
  let sum := total.nanos + seconds * nanosPerSecond + nanos
  if sum < bound then return ⟨sum⟩
  if below = nanosPerSecond ∧ total.seconds + seconds < UInt64.size then
    let _ ← (.error .overflow : Checked Unit)
  throw .unrepresentable

/-- Adds so many units to a duration. -/
def addUnits (total : Duration) (unit : TimeUnit) (n : Nat) : Reading Duration := do
  let amount ← word? (n * unit.size)
  if unit.isSubsecond then addParts total 0 amount else addParts total amount 0

/-- Adds a fraction of a unit to a duration. The fraction has to divide up without a rest: into
nanoseconds for units up to the minute, into seconds above, and not at all for the nanosecond. -/
def addFraction (total : Duration) (unit : TimeUnit) (f : Fraction) : Reading Duration := do
  let perUnit := match unit with
    | .nanosecond => none
    | .second => some nanosPerSecond
    | .minute => some (60 * nanosPerSecond)
    | _ => some unit.size
  let some perUnit := perUnit | throw .unrepresentable
  let scaled ← word? (f.numerator * perUnit)
  if scaled % f.denominator ≠ 0 then throw .unrepresentable
  let amount := scaled / f.denominator
  let isFine := unit.isSubsecond || unit == .second || unit == .minute
  if isFine then addParts total 0 amount else addParts total amount 0

/-- Adds a number with its unit to a duration. -/
def addItem (total : Duration) (number : Nat) (fraction : Option Fraction)
    (letters : List Char) : Reading Duration := do
  let some unit := TimeUnit.ofName? (String.ofList letters)
    | throw (if letters.isEmpty then .unitNeeded number else .unknownUnit (String.ofList letters))
  let total ← addUnits total unit number
  match fraction with
  | some f => addFraction total unit f
  | none => return total

/-- A number with one more digit. -/
def appendDigit (number digit : Nat) : Reading Nat := word? (number * 10 + digit)

/-- Reads one character. -/
def Reader.step (r : Reader) (c : Char) : Reading Reader := do
  let position := r.position + c.utf8Size
  match r.phase with
  | .start | .between _ =>
    if let some d := digitValue? 10 c then return { r with position, phase := .whole d }
    if isBlank c then return { r with position }
    throw (.numberExpected (match r.phase with | .between mark => mark | _ => 0))
  | .whole n =>
    if let some d := digitValue? 10 c then
      return { r with position, phase := .whole (← appendDigit n d) }
    if isBlank c then return { r with position }
    if isUnitLetter c then return { r with position, phase := .unit n none [c] }
    if c = '.' then return { r with position, phase := .decimals n ⟨0, 1⟩ r.position }
    throw (.invalidCharacter r.position)
  | .decimals n f mark =>
    if let some d := digitValue? 10 c then
      let denominator ← word? (f.denominator * 10)
      let numerator ← appendDigit f.numerator d
      return { r with position, phase := .decimals n ⟨numerator, denominator⟩ position }
    if isBlank c then return { r with position, phase := .decimals n f position }
    if isUnitLetter c && f.denominator ≠ 1 then
      return { r with position, phase := .unit n (some f) [c] }
    throw (.invalidCharacter mark)
  | .unit n f letters =>
    if let some d := digitValue? 10 c then
      let total ← addItem r.total n f letters
      return { position, phase := .whole d, total }
    if isBlank c then
      let total ← addItem r.total n f letters
      return { position, phase := .between position, total }
    if isUnitLetter c then return { r with position, phase := .unit n f (letters ++ [c]) }
    throw (.invalidCharacter r.position)

/-- Reads the end of the text. -/
def Reader.finish (r : Reader) : Reading Duration :=
  match r.phase with
  | .start => throw .empty
  | .between _ => return r.total
  | .whole n => addItem r.total n none []
  | .decimals n f mark =>
    if f.denominator = 1 then throw (.invalidCharacter mark) else addItem r.total n (some f) []
  | .unit n f letters => addItem r.total n f letters

/-- The duration of a text. -/
def ofText (s : String) : Reading Duration :=
  if s = "0" then return zero
  else do
    let r ← s.toList.foldlM Reader.step ⟨0, .start, zero⟩
    r.finish

/-! ### Writing -/

/-- A count with its unit, unless it is zero. -/
def item? (count : Nat) (unit : String) : Option String :=
  if count = 0 then none else some (toString count ++ unit)

/-- A count with its unit spelled out, in the plural above one. -/
def pluralItem? (count : Nat) (unit : String) : Option String :=
  if 1 < count then item? count (unit ++ "s") else item? count unit

/-- The text of a duration. -/
def text (d : Duration) : String :=
  let s := d.seconds
  let inYear := s % TimeUnit.year.size
  let inMonth := inYear % TimeUnit.month.size
  let inDay := inMonth % TimeUnit.day.size
  let items :=
    [pluralItem? (s / TimeUnit.year.size) "year",
      pluralItem? (inYear / TimeUnit.month.size) "month",
      pluralItem? (inMonth / TimeUnit.day.size) "day",
      item? (inDay / 3600) "h",
      item? (inDay % 3600 / 60) "m",
      item? (inDay % 60) "s",
      item? (d.subsecond / 1_000_000) "ms",
      item? (d.subsecond / 1000 % 1000) "us",
      item? (d.subsecond % 1000) "ns"]
  if d.isZero then "0s" else " ".intercalate (items.filterMap id)

end Duration

end PathControl
