import PathControl.Settings.Addressing
import PathControl.Transport.Pool
import PathControl.Wire.Datagram
import PathControl.Wire.Header

/-!
# Control frames

A control frame is an envelope around a control header. The source port marks it as control
traffic and the destination port names the path that it travels on.

`encode` draws a buffer from a pool and writes a frame into it, over whatever the buffer held;
where that fails, the buffer goes back. `decode` inspects a received frame.
-/

namespace PathControl.Wire

open PathControl.Transport

/-- Length of an emitted control frame. -/
def controlFrameLength : Nat := Envelope.length + Header.length

/-- A control packet as received. -/
structure ControlPacket where
  header : Header
  /-- The path that the destination port names. -/
  path : PathId
  deriving DecidableEq, Repr

/-- What a received frame turns out to be. -/
inductive Decoded where
  | control (packet : ControlPacket)
  /-- Not sent from the control port. -/
  | notControlTraffic
  deriving DecidableEq, Repr

/-- Inspects a received frame. -/
def decode (a : Addressing) (frame : Bytes) : ExceptT ProtocolError Checked Decoded := do
  let some datagram ← Datagram.locate frame | return .notControlTraffic
  if datagram.sourcePort ≠ a.controlPort then
    return .notControlTraffic
  let payload ← (datagram.payload : Except ProtocolError Bytes)
  let header ← Header.decode payload
  let path ← (PathId.ofPort datagram.targetPort a.basePort : Except ProtocolError PathId)
  return .control { header, path }

/-- The envelope of a frame that this endpoint emits. -/
def envelopeTo (a : Addressing) (targetPort identification : UInt16) : Envelope where
  sourceMac := a.localMac
  targetMac := a.peerMac
  sourceIp := a.localIp
  targetIp := a.peerIp
  sourcePort := a.controlPort
  targetPort
  identification

/-- Writes a control frame over the front of a buffer. -/
def writeFrame (envelope : Envelope) (header : Header) (buffer : Buffer) :
    ExceptT ProtocolError Checked Buffer := do
  let behind ← sliceFrom buffer.bytes Envelope.length
  let payload ← (header.encode behind : Except ProtocolError Bytes)
  let (length, bytes) ←
    envelope.write (buffer.bytes.take Envelope.length ++ payload) Header.length
  let written ← (buffer.writeAt 0 bytes : Checked Buffer)
  return written.setLength length

/-- A control frame on its own, without a pool. -/
def frameOf (envelope : Envelope) (header : Header) : ExceptT ProtocolError Checked Bytes := do
  let buffer ← writeFrame envelope header (.blank controlFrameLength)
  return buffer.contents

/-- The result of an emission attempt with what it drew from. -/
structure Encoded where
  /-- The frame, the cause that prevented it, or a fault. -/
  outcome : Checked (Except Error Buffer)
  /-- The pool, less the buffer of the frame. -/
  pool : Pool
  /-- The identification of the next packet. -/
  identification : UInt16

/-- Builds the frame that carries `header` on `path`. The identification advances once a buffer
and a destination port are there, modulo 2^16. -/
def encode (a : Addressing) (pool : Pool) (identification : UInt16) (header : Header)
    (path : PathId) : Encoded :=
  match pool.get? with
  | none => ⟨.ok (.error .buffersExhausted), pool, identification⟩
  | some (buffer, rest) =>
    match path.port a.basePort with
    | .error fault => ⟨.error fault, rest.release buffer, identification⟩
    | .ok targetPort =>
      match writeFrame (envelopeTo a targetPort identification) header buffer with
      | .ok (.ok frame) => ⟨.ok (.ok frame), rest, identification + 1⟩
      | .ok (.error cause) =>
        ⟨.ok (.error (.protocol cause)), rest.release buffer, identification + 1⟩
      | .error fault => ⟨.error fault, rest.release buffer, identification + 1⟩

end PathControl.Wire
