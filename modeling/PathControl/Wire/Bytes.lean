import PathControl.Fault

/-!
# Byte strings with big-endian fields

Frames are lists of bytes. Words are written most significant byte first by `word16Bytes` and
`word64Bytes`, and read at a position by `byteAt`, `word16At`, `word64At` and `slice`, which fault
where the position is not inside the bytes.

Main statements: reading back what was written gives the word again (`joinBytes_word16Bytes`,
`joinBytes_word64Bytes`).
-/

namespace PathControl.Wire

/-- A frame, or a part of one. -/
abbrev Bytes : Type := List UInt8

/-- Bytes of a 16-bit word, the most significant one first. -/
def word16Bytes (w : UInt16) : Bytes :=
  [UInt8.ofNat (w.toNat / 256), UInt8.ofNat w.toNat]

/-- Bytes of a 64-bit word, the most significant one first. -/
def word64Bytes (w : UInt64) : Bytes :=
  [56, 48, 40, 32, 24, 16, 8, 0].map fun shift => UInt8.ofNat (w.toNat >>> shift)

/-- The number whose base-256 digits are the given bytes, the most significant one first. -/
def joinBytes (bs : Bytes) : Nat := bs.foldl (fun acc b => acc * 256 + b.toNat) 0

/-- The `len` bytes from position `start` on. -/
def slice (bs : Bytes) (start len : Nat) : Checked Bytes :=
  if start + len ≤ bs.length then .ok ((bs.drop start).take len) else .error .outOfRange

/-- The bytes from position `start` on. -/
def sliceFrom (bs : Bytes) (start : Nat) : Checked Bytes :=
  if start ≤ bs.length then .ok (bs.drop start) else .error .outOfRange

/-- The byte at a position. -/
def byteAt (bs : Bytes) (i : Nat) : Checked UInt8 :=
  match bs[i]? with
  | some b => .ok b
  | none => .error .outOfRange

/-- The 16-bit word at a position. -/
def word16At (bs : Bytes) (i : Nat) : Checked UInt16 :=
  (slice bs i 2).map fun field => UInt16.ofNat (joinBytes field)

/-- The 64-bit word at a position. -/
def word64At (bs : Bytes) (i : Nat) : Checked UInt64 :=
  (slice bs i 8).map fun field => UInt64.ofNat (joinBytes field)

/-- A word of 16 bits is written as two bytes. -/
@[simp] theorem length_word16Bytes (w : UInt16) : (word16Bytes w).length = 2 := rfl

/-- A word of 64 bits is written as eight bytes. -/
@[simp] theorem length_word64Bytes (w : UInt64) : (word64Bytes w).length = 8 := rfl

/-- A slice within the bytes can be taken. -/
theorem slice_eq_ok {bs : Bytes} {start len : Nat} (h : start + len ≤ bs.length) :
    slice bs start len = .ok ((bs.drop start).take len) := if_pos h

/-- What stands behind a position within the bytes can be taken. -/
theorem sliceFrom_eq_ok {bs : Bytes} {start : Nat} (h : start ≤ bs.length) :
    sliceFrom bs start = .ok (bs.drop start) := if_pos h

/-- A byte within the bytes can be read. -/
theorem byteAt_eq_ok {bs : Bytes} {i : Nat} (h : i < bs.length) : byteAt bs i = .ok bs[i] := by
  simp [byteAt, h]

/-- The bytes of a 16-bit word join to it. -/
theorem joinBytes_word16Bytes (w : UInt16) : UInt16.ofNat (joinBytes (word16Bytes w)) = w := by
  apply UInt16.toNat_inj.1
  have h := w.toNat_lt
  simp only [joinBytes, word16Bytes, List.foldl_cons, List.foldl_nil, UInt8.toNat_ofNat',
    UInt16.toNat_ofNat']
  omega

/-- The bytes of a 64-bit word join to it. -/
theorem joinBytes_word64Bytes (w : UInt64) : UInt64.ofNat (joinBytes (word64Bytes w)) = w := by
  apply UInt64.toNat_inj.1
  have h := w.toNat_lt
  simp only [joinBytes, word64Bytes, List.map_cons, List.map_nil, List.foldl_cons,
    List.foldl_nil, UInt8.toNat_ofNat', UInt64.toNat_ofNat']
  omega

end PathControl.Wire
