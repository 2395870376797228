import PathControl.Toml.Number

/-!
# Keys, values and statements

The grammar of TOML documents. A document is a list of statements: headers of tables, headers of
elements of arrays of tables, and keys with values. Arrays and inline tables nest at most
`nestingLimit` levels deep, and a dotted key has at most as many parts.

`Table.insertAt?` is the rule by which keys and headers extend tables; it is common to inline
tables and to documents.
-/

namespace PathControl.Toml

open PathControl.Text

/-- How deep arrays and inline tables may nest. -/
def nestingLimit : Nat := 79

/-- The parts of a dotted key. -/
abbrev Key : Type := List String

/-! ### Extending tables -/

/-- Whether a table of some kind may be entered on the way to an entry. Headers lead through all
tables except inline ones, keys only through those that no header and no braces have closed. -/
def TableKind.admits (byKey : Bool) : TableKind → Bool
  | .header => !byKey
  | .implied => true
  | .dotted => true
  | .inlined => false

/-- The kind of the tables that a path creates on its way. -/
def TableKind.created (byKey : Bool) : TableKind := if byKey then .dotted else .implied

/-- Applies `f` to the table at the end of a path, creating the tables on the way that are missing.
An array of tables is entered through its last element. -/
def Table.modifyAt? (byKey : Bool) (f : Table → Option Table) : Key → Table → Option Table
  | [], t => f t
  | key :: path, t =>
    match t.get? key with
    | none => do
      let child ← Table.modifyAt? byKey f path ⟨.created byKey, []⟩
      return t.append key child.toValue
    | some (.table kind entries) =>
      if kind.admits byKey then do
        let child ← Table.modifyAt? byKey f path ⟨kind, entries⟩
        return t.replace key child.toValue
      else none
    | some (.tables elements) => do
      let child ← Table.modifyAt? byKey f path ⟨.header, ← elements.getLast?⟩
      return t.replace key (.tables (elements.dropLast ++ [child.entries]))
    | some _ => none

/-- Adds an entry that a table does not have yet. Behind dotted keys the table must be one that
dotted keys have created. -/
def Table.insertNew? (isDotted : Bool) (key : String) (value : Value) (t : Table) : Option Table :=
  if isDotted ∧ t.kind ≠ .dotted then none
  else if (t.get? key).isSome then none
  else some (t.append key value)

/-- Adds an entry at a dotted key. -/
def Table.insertAt? (t : Table) (key : Key) (value : Value) : Option Table := do
  let last ← key.getLast?
  t.modifyAt? true (Table.insertNew? (1 < key.length) last value) key.dropLast

/-! ### Keys and values -/

/-- Whether a character may stand in a key without quotes. -/
def isBare (c : Char) : Bool := c.isAlphanum || c = '-' || c = '_'

/-- Takes a part of a key without quotes. -/
def takeBare? : Taker String := fun cs =>
  let run := cs.takeWhile isBare
  if run.isEmpty then none else some (String.ofList run, cs.drop run.length)

/-- Takes a dotted key with the spaces around its parts. -/
def takeKey? : Taker Key := fun cs => do
  let part? : Taker String := fun cs =>
    (takeSingleLine?.or takeBare?) (skipSpaces cs) |>.map fun (part, rest) =>
      (part, skipSpaces rest)
  let (key, rest) ← takeSeparated? part? '.' cs
  if key.length ≤ nestingLimit then some (key, rest) else none

/-- Takes an array, given how to take its items. -/
def takeArray? (item? : Taker Value) : Taker Value := fun cs => do
  let body ← skip? ['['] cs
  let padded? : Taker Value := fun cs =>
    (item? (skipLines cs)).map fun (item, rest) => (item, skipLines rest)
  let (items, rest) := match takeSeparated? padded? ',' body with
    | some (items, rest) => (items, (skip? [','] rest).getD rest)
    | none => ([], body)
  return (.array items, ← skip? [']'] (skipLines rest))

/-- Takes a key with its value, given how to take the value. -/
def takePair? (value? : Taker Value) : Taker (Key × Value) := fun cs => do
  let (key, rest) ← takeKey? cs
  let (value, rest) ← value? (skipSpaces (← skip? ['='] rest))
  return ((key, value), rest)

/-- Takes an inline table, given how to take the values in it. -/
def takeInlineTable? (value? : Taker Value) : Taker Value := fun cs => do
  let body ← skip? ['{'] cs
  let pair? : Taker (Key × Value) := fun cs =>
    (takePair? value? cs).map fun (pair, rest) => (pair, skipSpaces rest)
  let (pairs, rest) := (takeSeparated? pair? ',' body).getD ([], body)
  let table ← pairs.foldlM (fun t (key, value) => Table.insertAt? t key value) ⟨.inlined, []⟩
  return (table.toValue, ← skip? ['}'] (skipSpaces rest))

/-- Takes a truth value. -/
def takeBoolean? : Taker Value := fun cs =>
  match skip? "true".toList cs, skip? "false".toList cs with
  | some rest, _ => some (.boolean true, rest)
  | none, some rest => some (.boolean false, rest)
  | none, none => none

/-- Takes a value in which arrays and inline tables nest at most so many levels deep. -/
def takeValue? : Nat → Taker Value
  | 0 => (takeString?.map Value.string).or (takeBoolean?.or takeNumeric?)
  | depth + 1 =>
    (takeValue? 0).or ((takeArray? (takeValue? depth)).or (takeInlineTable? (takeValue? depth)))

/-! ### Statements -/

/-- A statement of a document. -/
inductive Statement where
  /-- The header of a table. -/
  | table (path : Key)
  /-- The header of a further element of an array of tables. -/
  | element (path : Key)
  | pair (key : Key) (value : Value)
  /-- A line without content. -/
  | blank

/-- Takes a header between delimiters. -/
def takeHeader? (opening closing : String) : Taker Key := fun cs => do
  let (path, rest) ← takeKey? (← skip? opening.toList cs)
  return (path, ← skip? closing.toList rest)

/-- Takes a statement up to the end of its line. -/
def takeStatement? : Taker Statement := fun cs => do
  let content? : Taker Statement :=
    if (skip? ['[', '['] cs).isSome then (takeHeader? "[[" "]]").map .element
    else ((takeHeader? "[" "]").map .table).or
      ((takePair? (takeValue? nestingLimit)).map fun (key, value) => .pair key value)
  let (statement, rest) ← content? cs
  return (statement, ← endLine? rest)

/-- Takes an empty line, or spaces and a comment that end the text. A text without any character is
not taken. -/
def takeBlank? : Taker Statement := fun cs =>
  if cs.isEmpty then none else (endLine? cs).map fun rest => (.blank, rest)

/-- Takes a statement or a blank line, with the spaces in front. -/
def takeLine? : Taker Statement :=
  takeBlank?.or fun cs => takeStatement? (skipSpaces cs)

end PathControl.Toml
