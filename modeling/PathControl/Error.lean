import PathControl.Path
import PathControl.Net.Address

/-!
# Errors

The causes that operations report, each with its wording. `ProtocolError` says what is wrong with
bytes, `TransportError` what failed on the wire, `SettingsFlaw` what makes settings unusable, and
`Error` joins these with the resource, timing and negotiation causes.

Main functions: `Error.message` words a cause, `Error.isRecoverable` says whether it costs only
the current packet or emission, and `Error.isMalformed` whether received bytes caused it.
-/

namespace PathControl

/-- What makes a packet unusable. -/
inductive PacketFlaw where
  /-- A frame needs more bytes than its buffer has. -/
  | shortBuffer (needed available : Nat)
  /-- A payload does not fit the 16-bit length of a datagram. -/
  | oversizedPayload
  /-- A text is not six hexadecimal octets. -/
  | badHardwareAddress (text : String)
  /-- Another flaw, in words. -/
  | described (text : String)
  deriving DecidableEq, Repr

/-- The wording of a packet flaw. -/
def PacketFlaw.message : PacketFlaw → String
  | .shortBuffer needed available =>
    s!"frame needs {needed} bytes, buffer has {available}"
  | .oversizedPayload => "payload too large"
  | .badHardwareAddress text => "bad MAC address: " ++ text
  | .described text => text

/-- What is wrong with the bytes of a control packet. -/
inductive ProtocolError where
  /-- Bytes are missing. -/
  | malformedHeader
  | malformedPacket (flaw : PacketFlaw)
  | invalidPlane (plane : UInt8)
  | invalidMessageType (code : UInt8)
  /-- A path number or a port names no path. -/
  | invalidPath (value : UInt16)
  deriving DecidableEq, Repr

/-- The wording of a protocol error. -/
def ProtocolError.message : ProtocolError → String
  | .malformedHeader => "malformed header"
  | .malformedPacket flaw => "malformed packet: " ++ flaw.message
  | .invalidPlane plane => s!"invalid plane flag: {plane.toNat}"
  | .invalidMessageType code => s!"invalid message type: {code.toNat}"
  | .invalidPath value => s!"path id out of range: {value.toNat}"

/-- What failed on the wire. -/
inductive TransportError where
  | bindFailed (address : Net.SocketAddress) (reason : String)
  | sendFailed (reason : String)
  | receiveFailed (reason : String)
  deriving DecidableEq, Repr

/-- The wording of a transport error. -/
def TransportError.message : TransportError → String
  | .bindFailed address reason => "bind failed on " ++ address.text ++ ": " ++ reason
  | .sendFailed reason => "send failed: " ++ reason
  | .receiveFailed reason => "receive failed: " ++ reason

/-- Why a delay sample is unusable. -/
inductive ClockAnomaly where
  /-- Even with the bias added, the packet arrived before it was sent, or the delay leaves the
  64-bit range. -/
  | delayOutOfRange (sent received : UInt64)
  /-- A sample does not move time forward. -/
  | notLater (sample last : UInt64)
  /-- Another anomaly, in words. -/
  | described (text : String)
  deriving DecidableEq, Repr

/-- The wording of a clock anomaly. -/
def ClockAnomaly.message : ClockAnomaly → String
  | .delayOutOfRange sent received =>
    s!"negative delay: send={sent.toNat} recv={received.toNat}"
  | .notLater sample last => s!"sample at {sample.toNat} does not follow {last.toNat}"
  | .described text => text

/-- What makes settings unusable. Quantities that print in a form of their own come as text. -/
inductive SettingsFlaw where
  /-- The path ports do not fit the port range. -/
  | noRoomForPaths (basePort : UInt16)
  /-- The control port is one of the path ports. -/
  | controlPortCollision (controlPort : UInt16)
  /-- The threshold ratio is not in (0, 1]. -/
  | ratioOutOfRange (ratio : String)
  /-- The retry timeout or the timer resolution is empty. -/
  | zeroTimeout
  /-- The probe interval is empty. -/
  | zeroProbeInterval
  /-- The rings hold less than a burst, or a burst is empty. -/
  | ringBelowBurst (ring burst : Nat)
  /-- The pool holds less than one probe per path. -/
  | poolBelowRound (pool : Nat)
  /-- Another flaw, in words. -/
  | described (text : String)
  deriving DecidableEq, Repr

/-- The wording of a settings flaw. -/
def SettingsFlaw.message : SettingsFlaw → String
  | .noRoomForPaths basePort =>
    s!"base_port {basePort.toNat} leaves no room for {pathCount} path ports"
  | .controlPortCollision controlPort =>
    s!"control_port {controlPort.toNat} collides with path ports"
  | .ratioOutOfRange ratio => "threshold_ratio must be in (0, 1], got " ++ ratio
  | .zeroTimeout => "repath_timeout and timer_resolution must be non-zero"
  | .zeroProbeInterval => "probe_interval must be non-zero"
  | .ringBelowBurst ring burst => s!"ring_size ({ring}) must hold at least one burst ({burst})"
  | .poolBelowRound pool => s!"pool_size ({pool}) cannot hold one probe round"
  | .described text => text

/-- Any cause that an operation reports. -/
inductive Error where
  | protocol (cause : ProtocolError)
  /-- Every packet buffer is in use. -/
  | buffersExhausted
  /-- A frame queue had no room. -/
  | queueFull (queue : String)
  /-- A negotiation ran out of retransmissions. -/
  | negotiationAbandoned (target : PathId) (attempts : UInt32)
  | clockAnomaly (anomaly : ClockAnomaly)
  | transport (cause : TransportError)
  /-- A settings text could not be read or written. -/
  | unreadableSettings (reason : String)
  | invalidSettings (flaw : SettingsFlaw)
  | io (reason : String)
  | other (reason : String)
  deriving DecidableEq, Repr

namespace Error

/-- The wording of a cause. -/
def message : Error → String
  | .protocol cause => "protocol error: " ++ cause.message
  | .buffersExhausted => "packet buffer pool exhausted"
  | .queueFull queue => queue ++ " queue full"
  | .negotiationAbandoned target attempts =>
    "repath to " ++ target.name ++ s!" abandoned after {attempts.toNat} attempts"
  | .clockAnomaly anomaly => "clock anomaly: " ++ anomaly.message
  | .transport cause => "transport error: " ++ cause.message
  | .unreadableSettings reason => "configuration error: " ++ reason
  | .invalidSettings flaw => "invalid configuration: " ++ flaw.message
  | .io reason => "IO error: " ++ reason
  | .other reason => reason

/-- Whether the cause costs only the current packet or emission. All causes that arise while an
endpoint runs are of this kind; those of its start are not. -/
def isRecoverable : Error → Bool
  | .protocol _ | .buffersExhausted | .queueFull _ | .negotiationAbandoned .. | .clockAnomaly _
  | .transport (.sendFailed _) | .transport (.receiveFailed _) => true
  | _ => false

/-- Whether received bytes were garbled. -/
def isMalformed : Error → Bool
  | .protocol _ => true
  | _ => false

end Error

end PathControl
