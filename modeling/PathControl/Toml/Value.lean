/-!
# TOML values

A value as a document spells it, and the two views that its users need: a value as named entries
and a value as a row of items.
-/

namespace PathControl.Toml

/-- How a table came to be, which decides how it may be extended. -/
inductive TableKind where
  /-- By a header of its own, or as the root. -/
  | header
  /-- As the parent of a table with a header. -/
  | implied
  /-- By dotted keys. -/
  | dotted
  /-- Between braces. -/
  | inlined
  deriving DecidableEq, Repr

/-- A value of a document. The content of dates and times is not kept. -/
inductive Value where
  | string (text : String)
  | integer (n : Int)
  | float (x : Float)
  | boolean (b : Bool)
  | dateTime
  | array (items : List Value)
  /-- Entries in the order of their first appearance. -/
  | table (kind : TableKind) (entries : List (String × Value))
  /-- The tables of an array of tables. -/
  | tables (elements : List (List (String × Value)))

/-- Keys with their values, in order. No key occurs twice. -/
abbrev Entries : Type := List (String × Value)

/-- A table by its kind and entries. -/
structure Table where
  kind : TableKind
  entries : Entries

namespace Table

/-- A table as a value. -/
def toValue (t : Table) : Value := .table t.kind t.entries

/-- The value of a key. -/
def get? (t : Table) (key : String) : Option Value := t.entries.lookup key

/-- Adds an entry at the end. -/
def append (t : Table) (key : String) (value : Value) : Table :=
  { t with entries := t.entries ++ [(key, value)] }

/-- Replaces the value of a key at its place. -/
def replace (t : Table) (key : String) (value : Value) : Table :=
  { t with entries := t.entries.map fun e => if e.1 = key then (key, value) else e }

/-- Removes an entry. -/
def erase (t : Table) (key : String) : Table :=
  { t with entries := t.entries.filter fun e => e.1 ≠ key }

end Table

/-- A value as the fields of a record: named by a table, or in the order of the record by an
array. -/
inductive Fields where
  | named (entries : Entries)
  | inOrder (items : List Value)

namespace Fields

/-- The fields with their names, given the names of the record in order. Surplus items of an array
have no name and are left out. -/
def withNames (names : List String) : Fields → Entries
  | .named entries => entries
  | .inOrder items => names.zip items

end Fields

/-- A value as the fields of a record. A date or time counts as a table without known names. -/
def Value.fields? : Value → Option Fields
  | .table _ entries => some (.named entries)
  | .array items => some (.inOrder items)
  | .tables elements => some (.inOrder (elements.map (.table .header)))
  | .dateTime => some (.named [])
  | _ => none

/-- Whether a value is an empty table or array. -/
def Value.isEmpty : Value → Bool
  | .table _ entries => entries.isEmpty
  | .array items => items.isEmpty
  | .tables elements => elements.isEmpty
  | _ => false

end PathControl.Toml
