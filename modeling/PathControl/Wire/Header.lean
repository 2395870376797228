import PathControl.Path.Port
import PathControl.Wire.Bytes

/-!
# Control headers

The 28-byte header of a control packet: plane and message code, send time, proposed path, sequence
and acknowledgement.

    byte   0      1     2..9       10      11..18    19..26   27
           plane  code  timestamp  target  sequence  ack      zero

A message code has a meaning only within its plane. The target is present on switch proposals
only; other messages write zero there and ignore the byte when read.
-/

namespace PathControl.Wire

/-- Which half of the system produced a packet. -/
inductive Plane where
  /-- Negotiation and probing. -/
  | control
  /-- User data that carries a timestamp. -/
  | data
  deriving DecidableEq, Repr

namespace Plane

/-- The byte of a plane. -/
def code : Plane → UInt8
  | .control => 0
  | .data => 1

/-- The plane of a byte. -/
def ofCode? (b : UInt8) : Option Plane :=
  if b = 0 then some .control else if b = 1 then some .data else none

/-- The code of a plane is read back. -/
@[simp] theorem ofCode?_code (p : Plane) : ofCode? p.code = some p := by
  cases p <;> rfl

end Plane

/-- What a control packet says. -/
inductive MessageKind where
  /-- A delay probe, sent on one path. -/
  | probe
  /-- A proposal to move the active path. -/
  | repath
  /-- The confirmation that a proposal was applied. -/
  | repathAck
  /-- A timestamp of user data on the active path. -/
  | timestamp
  deriving DecidableEq, Repr

namespace MessageKind

/-- The plane that a message belongs to. -/
def plane : MessageKind → Plane
  | .timestamp => .data
  | _ => .control

/-- The byte of a message within its plane. -/
def code : MessageKind → UInt8
  | .probe => 0
  | .repath => 1
  | .repathAck => 2
  | .timestamp => 0

/-- The message of a byte within a plane. -/
def ofCode? : Plane → UInt8 → Option MessageKind
  | .control, b =>
    if b = 0 then some .probe
    else if b = 1 then some .repath
    else if b = 2 then some .repathAck
    else none
  | .data, b => if b = 0 then some .timestamp else none

/-- The code of a kind is read back on its plane. -/
@[simp] theorem ofCode?_code (k : MessageKind) : ofCode? k.plane k.code = some k := by
  cases k <;> rfl

end MessageKind

/-- The header of a control packet. -/
structure Header where
  kind : MessageKind
  /-- When the packet was sent, in nanoseconds. -/
  timestamp : UInt64
  /-- The proposed path of a switch proposal. -/
  target : Option PathId
  /-- Which negotiation a proposal belongs to. -/
  sequence : UInt64
  /-- Which negotiation is confirmed. -/
  ack : UInt64
  deriving DecidableEq, Repr

namespace Header

/-- Length of a header in bytes. -/
def length : Nat := 28

/-- A header with nothing but its kind. -/
def blank (kind : MessageKind) : Header :=
  { kind, timestamp := 0, target := none, sequence := 0, ack := 0 }

/-- A probe sent at a given time. -/
def probe (timestamp : UInt64) : Header := { blank .probe with timestamp }

/-- A proposal to move to `target`. -/
def repath (target : PathId) (sequence : UInt64) : Header :=
  { blank .repath with target := some target, sequence }

/-- The confirmation of the proposal with a given sequence. -/
def repathAck (ack : UInt64) : Header := { blank .repathAck with ack }

/-- A timestamp of user data. -/
def dataTimestamp (timestamp : UInt64) : Header := { blank .timestamp with timestamp }

/-- The bytes of a header. -/
def bytes (h : Header) : Bytes :=
  [h.kind.plane.code, h.kind.code] ++ word64Bytes h.timestamp ++
    [h.target.elim 0 PathId.toByte] ++ word64Bytes h.sequence ++ word64Bytes h.ack ++ [0]

/-- Overwrites the front of a buffer with a header. -/
def encode (h : Header) (buf : Bytes) : Except ProtocolError Bytes :=
  if buf.length < length then .error .malformedHeader else .ok (h.bytes ++ buf.drop length)

/-- Reads the header at the front of a byte string. -/
def decode (bs : Bytes) : ExceptT ProtocolError Checked Header := do
  if bs.length < length then
    throw .malformedHeader
  let planeCode ← byteAt bs 0
  let some plane := Plane.ofCode? planeCode | throw (.invalidPlane planeCode)
  let kindCode ← byteAt bs 1
  let some kind := MessageKind.ofCode? plane kindCode | throw (.invalidMessageType kindCode)
  let targetByte ← byteAt bs 10
  let target ← match kind with
    | .repath => match PathId.ofByte targetByte with
      | .ok p => pure (some p)
      | .error e => throw e
    | _ => pure none
  let timestamp ← word64At bs 2
  let sequence ← word64At bs 11
  let ack ← word64At bs 19
  return { kind, timestamp, target, sequence, ack }

/-- A header always takes the same number of bytes. -/
@[simp] theorem length_bytes (h : Header) : h.bytes.length = length := by
  simp [bytes, length]

end Header

end PathControl.Wire
