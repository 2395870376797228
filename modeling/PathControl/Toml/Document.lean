import PathControl.Toml.Grammar

/-!
# Documents

A document is read by taking its statements one after the other, and building up the root table:
a header opens a table or a further element of an array of tables, and the keys that follow go
into it. A header may not open a table twice, or one that dotted keys or braces have made.

A document is written section by section: the entries of the root, then a header and the entries
of each table.
-/

namespace PathControl.Toml

/-! ### Reading -/

/-- A document as far as it has been read. -/
structure Draft where
  root : Table
  /-- The path of the table that keys go into. -/
  opened : Key

namespace Draft

/-- An empty document. -/
def empty : Draft := ⟨⟨.header, []⟩, []⟩

/-- Opens the table with a given name in its parent. A table that was only implied moves behind
its siblings. -/
def openTable? (name : String) (parent : Table) : Option Table :=
  match parent.get? name with
  | none => some (parent.append name (.table .header []))
  | some (.table .implied entries) =>
    some ((parent.erase name).append name (.table .header entries))
  | some _ => none

/-- Opens a further element of the array of tables with a given name in its parent. -/
def openElement? (name : String) (parent : Table) : Option Table :=
  match parent.get? name with
  | none => some (parent.append name (.tables [[]]))
  | some (.tables elements) => some (parent.replace name (.tables (elements ++ [[]])))
  | some _ => none

/-- Carries out a header. -/
def openAt? (d : Draft) (open? : String → Table → Option Table) (path : Key) : Option Draft := do
  let name ← path.getLast?
  return ⟨← d.root.modifyAt? false (open? name) path.dropLast, path⟩

/-- Carries out a statement. -/
def perform? (d : Draft) : Statement → Option Draft
  | .blank => some d
  | .table path => d.openAt? openTable? path
  | .element path => d.openAt? openElement? path
  | .pair key value => do
    let root ← d.root.modifyAt? false (fun t => t.insertAt? key value) d.opened
    return { d with root }

end Draft

/-- The root table of a text. A byte order mark in front does not count. -/
def ofChars? (cs : List Char) : Option Table := do
  let body := (skip? ['\uFEFF'] cs).getD cs
  let (statements, rest) := takeMany takeLine? body
  if !(skipSpaces rest).isEmpty then none
  let draft ← statements.foldlM Draft.perform? .empty
  return draft.root

/-! ### Writing -/

/-- A value that can be written. -/
inductive Scalar where
  | string (text : String)
  | integer (n : Int)
  | float (x : Float)
  | boolean (b : Bool)
  deriving Repr

/-- A value as TOML. There is none for a whole number that does not fit 64 bits. -/
def Scalar.text : Scalar → OptionT Checked String
  | .string text => quote text
  | .integer n => OptionT.mk (.ok (integerText? n))
  | .float x => pure (floatText x)
  | .boolean b => pure (toString b)

/-- A table with its header, to be written. -/
structure Section where
  name : String
  entries : List (String × Scalar)
  deriving Repr

/-- Entries, each on a line. -/
def entriesText (entries : List (String × Scalar)) : OptionT Checked String := do
  let lines ← entries.mapM fun (key, value) => do
    return key ++ " = " ++ (← value.text) ++ "\n"
  return String.join lines

/-- A table with its header. -/
def Section.text (s : Section) : OptionT Checked String := do
  return "[" ++ s.name ++ "]\n" ++ (← entriesText s.entries)

/-- A document as text. Blank lines stand between its parts. -/
def documentText (root : List (String × Scalar)) (sections : List Section) :
    OptionT Checked String := do
  let parts ← sections.mapM Section.text
  return "\n".intercalate ((← entriesText root) :: parts)

end PathControl.Toml
