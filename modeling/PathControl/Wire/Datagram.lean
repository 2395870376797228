import PathControl.Wire.Envelope

/-!
# Datagrams inside frames

`Datagram.locate` finds the UDP datagram of an Ethernet frame, whatever IPv4 options it carries,
and `Datagram.payload` cuts its payload to the length that the datagram declares. Neither reads
outside the frame.
-/

namespace PathControl.Wire

/-- A UDP datagram found in a frame. -/
structure Datagram where
  sourcePort : UInt16
  targetPort : UInt16
  /-- The length that the datagram declares, its header included. -/
  declared : UInt16
  /-- All that follows the UDP header in the frame. -/
  rest : Bytes
  deriving DecidableEq, Repr

namespace Datagram

/-- The datagram of a frame. There is none unless the frame is Ethernet with IPv4 with UDP and
reaches to the end of the UDP header. -/
def locate (frame : Bytes) : Checked (Option Datagram) := do
  if frame.length < ethernetHeaderLength + ipv4HeaderLength then
    return none
  if (← word16At frame 12) ≠ ipv4EtherType then
    return none
  let packet ← sliceFrom frame ethernetHeaderLength
  let versionAndLength ← byteAt packet 0
  if versionAndLength.toNat / 16 ≠ 4 then
    return none
  if (← byteAt packet 9) ≠ udpProtocol then
    return none
  let headerLength := versionAndLength.toNat % 16 * 4
  if headerLength < ipv4HeaderLength ∨ packet.length < headerLength + udpHeaderLength then
    return none
  let datagram ← sliceFrom packet headerLength
  let sourcePort ← word16At datagram 0
  let targetPort ← word16At datagram 2
  let declared ← word16At datagram 4
  let rest ← sliceFrom datagram udpHeaderLength
  return some { sourcePort, targetPort, declared, rest }

/-- The payload, bounded by the declared length. -/
def payload (d : Datagram) : Except ProtocolError Bytes :=
  let size := d.declared.toNat - udpHeaderLength
  if d.declared.toNat < udpHeaderLength ∨ d.rest.length < size then .error .malformedHeader
  else .ok (d.rest.take size)

end Datagram

end PathControl.Wire
