/-!
# Blanks, comments and line ends

The characters between the parts of a TOML text, and the combinators that the readers of this
folder are built from. A reader takes something off the front of a text and returns what follows;
where it does not apply it takes nothing. Since a text is accepted as a whole or not at all, no
reader needs to say why it fails.
-/

namespace PathControl.Toml

/-- Takes something off the front of a text. -/
abbrev Taker (α : Type) : Type := List Char → Option (α × List Char)

/-- What follows a given text, if that is in front. -/
def skip? : List Char → List Char → Option (List Char)
  | [], cs => some cs
  | _ :: _, [] => none
  | x :: xs, c :: cs => if x = c then skip? xs cs else none

/-- Takes as many items as there are, at most `limit`. -/
def takeUpTo {α : Type} (item? : Taker α) : Nat → List Char → List α × List Char
  | 0, cs => ([], cs)
  | limit + 1, cs =>
    match item? cs with
    | none => ([], cs)
    | some (x, rest) =>
      let (xs, rest) := takeUpTo item? limit rest
      (x :: xs, rest)

/-- Takes as many items as there are. An item is never empty, so that the length of the text bounds
their number. -/
def takeMany {α : Type} (item? : Taker α) (cs : List Char) : List α × List Char :=
  takeUpTo item? cs.length cs

/-- Takes at least one item and as many more as follow, each behind a separator. -/
def takeSeparated? {α : Type} (item? : Taker α) (separator : Char) : Taker (List α) := fun cs => do
  let (x, rest) ← item? cs
  let (xs, rest) := takeMany (fun cs => (skip? [separator] cs).bind item?) rest
  return (x :: xs, rest)

/-- Whether a character is a space or a tab. -/
def isSpace (c : Char) : Bool := c = ' ' || c = '\t'

/-- Whether a character may stand in a comment: not a control character, other than a tab. -/
def isText (c : Char) : Bool := c = '\t' || (0x20 ≤ c.toNat && c.toNat ≠ 0x7F)

/-- What follows spaces and tabs. -/
def skipSpaces (cs : List Char) : List Char := cs.dropWhile isSpace

/-- What follows a line end. -/
def skipLineEnd? : List Char → Option (List Char)
  | '\n' :: cs => some cs
  | '\r' :: '\n' :: cs => some cs
  | _ => none

/-- What follows a comment, if there is one. -/
def skipComment : List Char → List Char
  | '#' :: cs => cs.dropWhile isText
  | cs => cs

/-- What follows the rest of a line on which nothing but a comment may stand. -/
def endLine? (cs : List Char) : Option (List Char) :=
  match skipComment (skipSpaces cs) with
  | [] => some []
  | cs => skipLineEnd? cs

/-- Takes an empty line. -/
def takeEmptyLine? : Taker Unit := fun cs => do
  let rest ← skipLineEnd? (skipComment (skipSpaces cs))
  return ((), rest)

/-- What follows spaces, comments and line ends. -/
def skipLines (cs : List Char) : List Char := skipSpaces (takeMany takeEmptyLine? cs).2

end PathControl.Toml
