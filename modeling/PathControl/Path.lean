/-!
# Paths and roles

Two endpoints are joined by `pathCount` parallel paths, numbered from 1. A `PathId` is a number
in that range, a `PathTable` holds one value per path, and a `Role` says which side of the pair
an endpoint plays.
-/

namespace PathControl

/-- Number of parallel paths between the two endpoints. -/
def pathCount : Nat := 4

/-- One of the paths. The first one has index 0 and number 1. -/
structure PathId where
  /-- Zero-based position in a table. -/
  index : Fin pathCount
  deriving DecidableEq, Repr

namespace PathId

/-- The lowest path: where links start, and the best path before any measurement. -/
def first : PathId := ⟨⟨0, by decide⟩⟩

instance : Inhabited PathId := ⟨first⟩

/-- The number that names a path on the wire and in texts, from 1 to `pathCount`. -/
def number (p : PathId) : Nat := p.index.val + 1

/-- The path of a number, if there is one. -/
def ofNumber? (n : Nat) : Option PathId :=
  if h : 0 < n ∧ n ≤ pathCount then some ⟨⟨n - 1, by omega⟩⟩ else none

/-- All paths in ascending order. -/
def all : List PathId := (List.finRange pathCount).map PathId.mk

/-- The name of a path in texts. -/
def name (p : PathId) : String := "path-" ++ toString p.number

/-- The byte that names a path on the wire. -/
def toByte (p : PathId) : UInt8 := UInt8.ofNat p.number

/-- Numbers start at 1, so that no path is named by a zero byte. -/
theorem number_pos (p : PathId) : 0 < p.number := Nat.succ_pos _

/-- Numbers end at `pathCount`. -/
theorem number_le (p : PathId) : p.number ≤ pathCount := p.index.isLt

/-- A number fits the byte that names it. -/
theorem toNat_toByte (p : PathId) : p.toByte.toNat = p.number :=
  UInt8.toNat_ofNat_of_lt' (Nat.lt_of_le_of_lt p.number_le (by decide))

/-- A path is the one of its number. -/
@[simp] theorem ofNumber?_number (p : PathId) : ofNumber? p.number = some p := by
  have h : 0 < p.number ∧ p.number ≤ pathCount := ⟨p.number_pos, p.number_le⟩
  unfold ofNumber?
  rw [dif_pos h]
  rfl

/-- The path of a number, if there is one, is the path that has it. -/
theorem ofNumber?_eq_some_iff {n : Nat} {p : PathId} : ofNumber? n = some p ↔ p.number = n := by
  constructor
  · intro h
    unfold ofNumber? at h
    split at h
    · cases h
      simp only [number]
      omega
    · simp at h
  · rintro rfl
    exact ofNumber?_number p

/-- There is no path for 0 and for numbers above `pathCount`. -/
theorem ofNumber?_eq_none_iff {n : Nat} : ofNumber? n = none ↔ n = 0 ∨ pathCount < n := by
  unfold ofNumber?
  split <;> simp <;> omega

/-- A pass over all paths misses none. -/
theorem mem_all (p : PathId) : p ∈ all := List.mem_map.2 ⟨p.index, List.mem_finRange _, rfl⟩

end PathId

/-- One value per path. -/
structure PathTable (α : Type) where
  /-- The values in path order. -/
  slots : Vector α pathCount
  deriving DecidableEq, Repr

namespace PathTable

variable {α : Type}

/-- The table that holds `x` for every path. -/
def filled (x : α) : PathTable α := ⟨Vector.replicate pathCount x⟩

/-- The value of a path. -/
def get (t : PathTable α) (p : PathId) : α := t.slots[p.index]

/-- The table with the value of one path replaced. -/
def set (t : PathTable α) (p : PathId) (x : α) : PathTable α := ⟨t.slots.set p.index x⟩

/-- Paths with their values, in ascending path order. -/
def toList (t : PathTable α) : List (PathId × α) := PathId.all.map fun p => (p, t.get p)

/-- A filled table holds its value everywhere. -/
@[simp] theorem get_filled (x : α) (p : PathId) : (filled x).get p = x := by
  simp [filled, get]

/-- A value that was set is found. -/
@[simp] theorem get_set_self (t : PathTable α) (p : PathId) (x : α) : (t.set p x).get p = x := by
  simp [get, set]

/-- Setting the value of one path leaves the others alone. -/
theorem get_set_of_ne (t : PathTable α) {p q : PathId} (x : α) (h : q ≠ p) :
    (t.set p x).get q = t.get q := by
  have hv : p.index.val ≠ q.index.val := fun e => h (by
    cases p; cases q; simp_all [Fin.ext_iff])
  simp [get, set, hv]

/-- Tables with the same values are the same. -/
theorem eq_of_get_eq {t t' : PathTable α} (h : ∀ p, t.get p = t'.get p) : t = t' := by
  obtain ⟨slots⟩ := t
  obtain ⟨slots'⟩ := t'
  congr 1
  exact Vector.ext fun i hi => h ⟨⟨i, hi⟩⟩

end PathTable

/-- Which side of the pair an endpoint plays. -/
inductive Role where
  /-- Emits probes on every path and answers switch proposals. -/
  | sender
  /-- Measures path delays and proposes switches. -/
  | receiver
  deriving DecidableEq, Repr, Inhabited

namespace Role

/-- Whether this side runs the probe loop. -/
def emitsProbes : Role → Bool
  | .sender => true
  | .receiver => false

/-- The lower-case name of a role, as settings and command lines spell it. -/
def name : Role → String
  | .sender => "sender"
  | .receiver => "receiver"

/-- The role of a name. -/
def ofName? (s : String) : Option Role :=
  if s = "sender" then some .sender else if s = "receiver" then some .receiver else none

/-- A role is the one of its name. -/
@[simp] theorem ofName?_name (r : Role) : ofName? r.name = some r := by
  cases r <;> rfl

end Role

end PathControl
