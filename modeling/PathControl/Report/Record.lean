import PathControl.Net.Address
import PathControl.Path
import PathControl.Time.Duration

/-!
# Records

A record lays a value out as named fields, lists and plain values, so that a monitor can write it
in a format of its own. A type with a record form is `Recorded`; one whose record consists of
fields, which can be joined with further ones, `HasFields`.
-/

namespace PathControl

/-- A value laid out for a monitor. -/
inductive Record where
  | absent
  | flag (b : Bool)
  | number (n : Nat)
  | float (x : Float)
  | text (s : String)
  | bytes (bs : List UInt8)
  | list (items : List Record)
  | fields (entries : List (String × Record))

/-- Names with their values, in order. -/
abbrev Fields : Type := List (String × Record)

/-- Types whose values have a record form. -/
class Recorded (α : Type) where
  /-- The record of a value. -/
  record : α → Record

/-- Types whose values are recorded as fields. -/
class HasFields (α : Type) where
  /-- The fields of a value. -/
  fields : α → Fields

export Recorded (record)
export HasFields (fields)

instance {α : Type} [HasFields α] : Recorded α := ⟨fun x => .fields (fields x)⟩

instance : Recorded Record := ⟨id⟩
instance : Recorded Bool := ⟨.flag⟩
instance : Recorded Nat := ⟨.number⟩
instance : Recorded Float := ⟨.float⟩
instance : Recorded String := ⟨.text⟩
instance : Recorded UInt8 := ⟨fun n => .number n.toNat⟩
instance : Recorded UInt16 := ⟨fun n => .number n.toNat⟩
instance : Recorded UInt32 := ⟨fun n => .number n.toNat⟩
instance : Recorded UInt64 := ⟨fun n => .number n.toNat⟩
instance : Recorded PathId := ⟨fun p => .number p.number⟩
instance : Recorded Role := ⟨fun r => .text r.name⟩
instance : Recorded Net.SocketAddress := ⟨fun a => .text a.text⟩

instance {α : Type} [Recorded α] : Recorded (Option α) := ⟨fun x => x.elim .absent record⟩

instance {α : Type} [Recorded α] : Recorded (List α) := ⟨fun xs => .list (xs.map record)⟩

instance {α β : Type} [Recorded α] [Recorded β] : Recorded (α × β) :=
  ⟨fun (x, y) => .list [record x, record y]⟩

/-- Durations are recorded as whole seconds and nanoseconds. -/
instance : Recorded Duration := ⟨fun d => record (d.seconds, d.subsecond)⟩

/-- What went wrong, or the result. -/
instance {ε α : Type} [HasFields ε] [HasFields α] : HasFields (Except ε α) where
  fields
    | .ok x => fields x
    | .error e => fields e

instance : HasFields Unit := ⟨fun _ => []⟩

end PathControl
