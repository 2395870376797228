import PathControl.Fault
import PathControl.Text.Digits
import PathControl.Toml.Lexical

/-!
# Quoted strings

Reading and writing of TOML strings. There are four forms: between quotes, with escapes, or
between apostrophes, without; each on one line, or over several lines between three delimiters.

A string is written in the first form that needs no escapes: quotes, apostrophes, three quotes,
three apostrophes. Where all of them do, it is written between quotes with escapes, three of them
if it has line ends.
-/

namespace PathControl.Toml

open PathControl.Text

/-! ### Reading -/

/-- The character of a number of hexadecimal digits. -/
def takeCodePoint? (digits : Nat) : Taker Char := fun cs =>
  let run := cs.take digits
  let code := valueOf 16 run
  if run.length = digits ∧ run.all (fun c => (digitValue? 16 c).isSome) ∧ code.isValidChar then
    some (Char.ofNat code, cs.drop digits)
  else none

/-- Takes an escaped character. -/
def takeEscape? : Taker Char
  | '\\' :: 'b' :: cs => some ('\x08', cs)
  | '\\' :: 't' :: cs => some ('\t', cs)
  | '\\' :: 'n' :: cs => some ('\n', cs)
  | '\\' :: 'f' :: cs => some ('\x0c', cs)
  | '\\' :: 'r' :: cs => some ('\r', cs)
  | '\\' :: '"' :: cs => some ('"', cs)
  | '\\' :: '\\' :: cs => some ('\\', cs)
  | '\\' :: 'u' :: cs => takeCodePoint? 4 cs
  | '\\' :: 'U' :: cs => takeCodePoint? 8 cs
  | _ => none

/-- Takes a character of a given class. -/
def takeChar? (isIn : Char → Bool) : Taker Char
  | c :: cs => if isIn c then some (c, cs) else none
  | [] => none

/-- Whether a character stands for itself between quotes. -/
def isBasic (c : Char) : Bool := isText c && c ≠ '"' && c ≠ '\\'

/-- Whether a character may stand between apostrophes. -/
def isLiteral (c : Char) : Bool := isText c && c ≠ '\''

/-- Takes a string of parts between two delimiters. -/
def takeDelimited? (delimiter : List Char) (part? : Taker (List Char)) :
    Taker String := fun cs => do
  let (parts, rest) := takeMany part? (← skip? delimiter cs)
  return (String.ofList parts.flatten, ← skip? delimiter rest)

/-- Takes what one of two readers takes, the first one if it applies. -/
def Taker.or {α : Type} (first second : Taker α) : Taker α := fun cs =>
  match first cs with
  | some found => some found
  | none => second cs

/-- A single character as a part. -/
def asPart (char? : Taker Char) : Taker (List Char) := fun cs =>
  (char? cs).map fun (c, rest) => ([c], rest)

/-- Takes a line end as a part. -/
def takeLineEnd? : Taker (List Char) := fun cs =>
  (skipLineEnd? cs).map fun rest => (['\n'], rest)

/-- Takes a backslash at the end of a line with all blanks and line ends behind it. It stands for
nothing. -/
def takeContinuation? : Taker (List Char) := fun cs => do
  let rest ← skipLineEnd? (skipSpaces (← skip? ['\\'] cs))
  let blank := (takeChar? isSpace).or fun cs => (takeLineEnd? cs).map fun found => (' ', found.2)
  return ([], (takeMany blank rest).2)

/-- Takes one or two delimiters that do not end a string of several lines: all of a run that other
content follows, or those in front of the three that do end it. -/
def takeInnerQuotes? (delimiter : Char) (content? : Taker (List Char)) :
    Taker (List Char) := fun cs =>
  let run := (cs.takeWhile (· == delimiter)).length
  let inner := if run < 3 then run else if run ≤ 5 then run - 3 else 0
  let rest := cs.drop inner
  if inner = 0 then none
  else if run < 3 && (content? rest).isNone then none
  else some (List.replicate inner delimiter, rest)

/-- Takes a string of several lines. A line end right behind the opening delimiter does not
count. -/
def takeMultiline? (delimiter : Char) (content? : Taker (List Char)) : Taker String := fun cs => do
  let delimiters := List.replicate 3 delimiter
  let body ← skip? delimiters cs
  let body := (skipLineEnd? body).getD body
  let (parts, rest) := takeMany (content?.or (takeInnerQuotes? delimiter content?)) body
  return (String.ofList parts.flatten, ← skip? delimiters rest)

/-- Takes a string on one line. -/
def takeSingleLine? : Taker String :=
  (takeDelimited? ['"'] (asPart ((takeChar? isBasic).or takeEscape?))).or
    (takeDelimited? ['\''] (asPart (takeChar? isLiteral)))

/-- Takes a string of any form. -/
def takeString? : Taker String :=
  let basic := (asPart (takeChar? isBasic)).or
    (takeContinuation?.or ((asPart takeEscape?).or takeLineEnd?))
  let literal := (asPart (takeChar? isLiteral)).or takeLineEnd?
  (takeMultiline? '"' basic).or ((takeMultiline? '\'' literal).or takeSingleLine?)

/-! ### Writing -/

/-- What about a text decides how it is quoted. -/
structure QuotingNeeds where
  /-- A backslash occurs. -/
  backslash : Bool
  /-- A control character occurs that only an escape can show. -/
  control : Bool
  /-- A line end occurs. -/
  lineEnd : Bool
  /-- Length of the longest run of quotes. -/
  quotes : Nat
  /-- Length of the longest run of apostrophes. -/
  apostrophes : Nat
  deriving DecidableEq, Repr

/-- Length of the longest run of a character. -/
def longestRun (c : Char) (cs : List Char) : Nat :=
  (cs.foldl (fun (run, longest) x =>
    let run := if x = c then run + 1 else 0
    (run, max longest run)) (0, 0)).2

/-- Whether a character is a control character. -/
def isControl (c : Char) : Bool := c.toNat < 0x20 || c.toNat = 0x7F

/-- What about a text decides how it is quoted. -/
def quotingNeeds (cs : List Char) : QuotingNeeds where
  backslash := cs.contains '\\'
  control := cs.any fun c => isControl c && c ≠ '\t' && c ≠ '\n'
  lineEnd := cs.contains '\n'
  quotes := longestRun '"' cs
  apostrophes := longestRun '\'' cs

/-- How many bits hold the length of a run of quotes or apostrophes. -/
def runBits : Nat := 8

/-- A character of a string with escapes. -/
def escaped (multiline : Bool) (c : Char) : List Char :=
  if c = '\x08' then ['\\', 'b']
  else if c = '\t' then ['\\', 't']
  else if c = '\n' then (if multiline then [c] else ['\\', 'n'])
  else if c = '\x0c' then ['\\', 'f']
  else if c = '\r' then ['\\', 'r']
  else if c = '\\' then ['\\', '\\']
  else if isControl c then
    ['\\', 'u', '0', '0'] ++ (hexByte (UInt8.ofNat c.toNat)).map Char.toUpper
  else [c]

/-- The body of a string with escapes. A quote is escaped if more than `most` quotes precede it
directly, itself included; the count starts again behind an escaped character. -/
def escapedBody (multiline : Bool) (most : Nat) : Nat → List Char → List Char
  | _, [] => []
  | run, c :: cs =>
    if c = '"' then
      if most < run + 1 then ['\\', '"'] ++ escapedBody multiline most 0 cs
      else c :: escapedBody multiline most (run + 1) cs
    else escaped multiline c ++ escapedBody multiline most 0 cs

/-- A string as TOML. -/
def quote (s : String) : Checked String := do
  let cs := s.toList
  let needs := quotingNeeds cs
  let _ ← Checked.fit runBits (max needs.quotes needs.apostrophes)
  let isPlain := !needs.control && !needs.backslash
  let opening := if needs.lineEnd then ['\n'] else []
  let threeQuotes := List.replicate 3 '"'
  let threeApostrophes := List.replicate 3 '\''
  let inQuotes := ['"'] ++ escapedBody false 0 0 cs ++ ['"']
  let inThreeQuotes := threeQuotes ++ opening ++ escapedBody true 2 0 cs ++ threeQuotes
  return String.ofList <|
    if isPlain && needs.quotes = 0 && !needs.lineEnd then inQuotes
    else if !needs.control && needs.apostrophes = 0 && !needs.lineEnd then ['\''] ++ cs ++ ['\'']
    else if isPlain && needs.quotes ≤ 2 then inThreeQuotes
    else if !needs.control && needs.apostrophes ≤ 2 then
      threeApostrophes ++ opening ++ cs ++ threeApostrophes
    else if needs.lineEnd then inThreeQuotes
    else inQuotes

end PathControl.Toml
