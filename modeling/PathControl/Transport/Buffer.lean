import PathControl.Wire.Bytes

/-!
# Packet buffers

A buffer owns a fixed number of bytes, its capacity, of which a front part is in use. Setting the
length and copying data in never exceed the capacity; clearing forgets the length and keeps the
bytes, so that a recycled buffer holds what its last user left.

A new buffer holds zeros. Only the part that was ever written is stored; `bytes` shows all of it.
-/

namespace PathControl.Transport

open PathControl.Wire

/-- A packet buffer. -/
structure Buffer where
  /-- How many bytes the buffer can hold. -/
  capacity : Nat
  /-- The front part that was ever written. All bytes behind it are zero. -/
  written : Bytes
  /-- How many bytes are in use. -/
  used : Nat
  written_le : written.length ≤ capacity
  used_le : used ≤ capacity
  deriving DecidableEq, Repr

namespace Buffer

/-- An unused buffer of zeros. -/
def blank (capacity : Nat) : Buffer := ⟨capacity, [], 0, Nat.zero_le _, Nat.zero_le _⟩

/-- An unused buffer of zeros, if there can be one of that capacity. -/
def allocate (capacity : Nat) : Checked Buffer := do
  Checked.reserve capacity 1
  return blank capacity

/-- All bytes, in use or not. -/
def bytes (b : Buffer) : Bytes := b.written ++ List.replicate (b.capacity - b.written.length) 0

/-- The bytes in use. -/
def contents (b : Buffer) : Bytes :=
  b.written.take b.used ++ List.replicate (b.used - b.written.length) 0

/-- Sets how many bytes are in use, at most all of them. -/
def setLength (b : Buffer) (n : Nat) : Buffer :=
  { b with used := min n b.capacity, used_le := Nat.min_le_right _ _ }

/-- Puts no byte in use. -/
def clear (b : Buffer) : Buffer := { b with used := 0, used_le := Nat.zero_le _ }

/-- Copies data to the front, as much as fits, and puts exactly that in use. -/
def copyFrom (b : Buffer) (data : Bytes) : Buffer where
  capacity := b.capacity
  written := data.take b.capacity ++ b.written.drop data.length
  used := min data.length b.capacity
  written_le := by
    have := b.written_le
    simp only [List.length_append, List.length_take, List.length_drop]
    omega
  used_le := Nat.min_le_right _ _

/-- Overwrites the bytes from a position on, whether they are in use or not. -/
def writeAt (b : Buffer) (start : Nat) (data : Bytes) : Checked Buffer :=
  if h : start + data.length ≤ b.capacity then
    .ok { b with
      written := b.written.take start ++ List.replicate (start - b.written.length) 0 ++ data ++
        b.written.drop (start + data.length)
      written_le := by
        have := b.written_le
        simp only [List.length_append, List.length_take, List.length_drop, List.length_replicate]
        omega }
  else .error .outOfRange

/-- Overwrites every byte, in use or not. -/
def fillWith (b : Buffer) (byte : UInt8) : Buffer :=
  { b with written := List.replicate b.capacity byte, written_le := by simp }

/-- The bytes of a buffer are as many as it has room for. -/
@[simp] theorem length_bytes (b : Buffer) : b.bytes.length = b.capacity := by
  have := b.written_le
  simp only [bytes, List.length_append, List.length_replicate]
  omega

/-- The bytes in use are the front of all bytes. -/
theorem contents_eq (b : Buffer) : b.contents = b.bytes.take b.used := by
  have := b.used_le
  simp only [contents, bytes, List.take_append, List.take_replicate]
  congr 2
  omega

/-- The contents of a buffer are as long as what is used of it. -/
@[simp] theorem length_contents (b : Buffer) : b.contents.length = b.used := by
  simp [contents_eq, b.used_le]

/-- A blank buffer has the room it was made with. -/
@[simp] theorem capacity_blank (n : Nat) : (blank n).capacity = n := rfl

/-- A blank buffer is all zeros. -/
@[simp] theorem bytes_blank (n : Nat) : (blank n).bytes = List.replicate n 0 := by
  simp [blank, bytes]

/-- Clearing keeps the room. -/
@[simp] theorem capacity_clear (b : Buffer) : b.clear.capacity = b.capacity := rfl

/-- Clearing keeps the bytes; only their use is forgotten. -/
@[simp] theorem bytes_clear (b : Buffer) : b.clear.bytes = b.bytes := rfl

/-- A cleared buffer has no contents. -/
@[simp] theorem used_clear (b : Buffer) : b.clear.used = 0 := rfl

/-- Setting how much is used keeps the room. -/
@[simp] theorem capacity_setLength (b : Buffer) (n : Nat) :
    (b.setLength n).capacity = b.capacity := rfl

/-- Setting how much is used keeps the bytes. -/
@[simp] theorem bytes_setLength (b : Buffer) (n : Nat) : (b.setLength n).bytes = b.bytes := rfl

/-- Copying data in keeps the room. -/
@[simp] theorem capacity_copyFrom (b : Buffer) (data : Bytes) :
    (b.copyFrom data).capacity = b.capacity := rfl

/-- A copy holds the data, cut to the capacity. -/
theorem contents_copyFrom (b : Buffer) (data : Bytes) :
    (b.copyFrom data).contents = data.take b.capacity := by
  simp only [contents, copyFrom]
  rw [List.take_append_of_le_length (by simp [Nat.min_comm])]
  simp [List.take_take, Nat.min_comm]

end Buffer

end PathControl.Transport
