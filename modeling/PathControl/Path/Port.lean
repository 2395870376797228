import PathControl.Fault
import PathControl.Error

/-!
# Paths and ports

Path `n` travels on destination port `base - 1 + n`. `PathId.port` computes that port in 16-bit
words and faults where it leaves them; `PathId.ofPort?` inverts it.
-/

namespace PathControl.PathId

/-- The path with the number `id`. -/
def ofByte (id : UInt8) : Except ProtocolError PathId :=
  match ofNumber? id.toNat with
  | some p => .ok p
  | none => .error (.invalidPath id.toUInt16)

/-- The destination port of a path. -/
def port (p : PathId) (base : UInt16) : Checked UInt16 := do
  let before ← Checked.sub16 base 1
  Checked.add16 before p.toByte.toUInt16

/-- The path that a destination port belongs to. -/
def ofPort (port base : UInt16) : Except ProtocolError PathId :=
  match if base ≤ port then ofNumber? (port.toNat - base.toNat + 1) else none with
  | some p => .ok p
  | none => .error (.invalidPath port)

end PathControl.PathId
