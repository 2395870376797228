import PathControl.Wire.Checksum
import PathControl.Wire.HardwareAddress

/-!
# Envelopes

The Ethernet, IPv4 and UDP headers around a payload. `Envelope.write` puts them in front of a
payload that already lies in a buffer, with lengths and checksums filled in; it leaves the payload
and everything behind it alone.
-/

namespace PathControl.Wire

/-- Length of an Ethernet header. -/
def ethernetHeaderLength : Nat := 14

/-- Length of an IPv4 header without options. -/
def ipv4HeaderLength : Nat := 20

/-- Length of a UDP header. -/
def udpHeaderLength : Nat := 8

/-- The Ethernet type of IPv4. -/
def ipv4EtherType : UInt16 := 0x0800

/-- The IPv4 protocol number of UDP. -/
def udpProtocol : UInt8 := 17

/-- Hops that an emitted packet may take. -/
def hopLimit : UInt8 := 64

/-- Addressing of one emitted datagram. -/
structure Envelope where
  sourceMac : HardwareAddress
  targetMac : HardwareAddress
  sourceIp : Net.Ipv4
  targetIp : Net.Ipv4
  sourcePort : UInt16
  targetPort : UInt16
  /-- IPv4 identification. -/
  identification : UInt16
  deriving DecidableEq, Repr

namespace Envelope

/-- Bytes of envelope in front of a payload. -/
def length : Nat := ethernetHeaderLength + ipv4HeaderLength + udpHeaderLength

/-- The Ethernet header. -/
def ethernetHeader (e : Envelope) : Bytes :=
  e.targetMac.octets ++ e.sourceMac.octets ++ word16Bytes ipv4EtherType

/-- The IPv4 header of a packet of `size` bytes with a given checksum. -/
def ipv4Header (e : Envelope) (size checksum : UInt16) : Bytes :=
  [0x45, 0] ++ word16Bytes size ++ word16Bytes e.identification ++ word16Bytes 0 ++
    [hopLimit, udpProtocol] ++ word16Bytes checksum ++ e.sourceIp.octets ++ e.targetIp.octets

/-- The UDP header of a datagram of `size` bytes with a given checksum. -/
def udpHeader (e : Envelope) (size checksum : UInt16) : Bytes :=
  word16Bytes e.sourcePort ++ word16Bytes e.targetPort ++ word16Bytes size ++
    word16Bytes checksum

/-- What the UDP checksum covers besides the datagram. -/
def pseudoHeader (e : Envelope) (size : UInt16) : Bytes :=
  e.sourceIp.octets ++ e.targetIp.octets ++ [0, udpProtocol] ++ word16Bytes size

/-- The checksum of the IPv4 header. -/
def ipv4Checksum (e : Envelope) (size : UInt16) : Checked UInt16 :=
  internetChecksum 0 (e.ipv4Header size 0)

/-- The checksum of a datagram with a given payload. A computed zero is stored as all ones,
because a stored zero means that there is no checksum. -/
def udpChecksum (e : Envelope) (size : UInt16) (payload : Bytes) : Checked UInt16 := do
  let partialSum ← sumWords 0 (e.pseudoHeader size)
  let checksum ← internetChecksum (UInt32.ofNat partialSum) (e.udpHeader size 0 ++ payload)
  return if checksum = 0 then 0xffff else checksum

/-- Puts the envelope in front of the `payloadLength` bytes of payload that lie behind it in
`buf`. The answer is the length of the frame and the bytes of the buffer afterwards. -/
def write (e : Envelope) (buf : Bytes) (payloadLength : Nat) :
    ExceptT ProtocolError Checked (Nat × Bytes) := do
  let total ← Checked.fit 64 (length + payloadLength)
  if buf.length < total then
    throw (.malformedPacket (.shortBuffer total buf.length))
  let packetSize := ipv4HeaderLength + udpHeaderLength + payloadLength
  if UInt16.size ≤ packetSize then
    throw (.malformedPacket .oversizedPayload)
  let packetSize := UInt16.ofNat packetSize
  let datagramSize ← Checked.sub16 packetSize (UInt16.ofNat ipv4HeaderLength)
  let payload ← slice buf length payloadLength
  let ipv4Checksum ← e.ipv4Checksum packetSize
  let udpChecksum ← e.udpChecksum datagramSize payload
  let header := e.ethernetHeader ++ e.ipv4Header packetSize ipv4Checksum ++
    e.udpHeader datagramSize udpChecksum
  return (total, header ++ buf.drop length)

/-- The Ethernet header has its fixed length. -/
theorem length_ethernetHeader (e : Envelope) :
    e.ethernetHeader.length = ethernetHeaderLength := rfl

/-- The IPv4 header has its fixed length, as it carries no options. -/
theorem length_ipv4Header (e : Envelope) (size checksum : UInt16) :
    (e.ipv4Header size checksum).length = ipv4HeaderLength := rfl

/-- The UDP header has its fixed length. -/
theorem length_udpHeader (e : Envelope) (size checksum : UInt16) :
    (e.udpHeader size checksum).length = udpHeaderLength := rfl

end Envelope

end PathControl.Wire
