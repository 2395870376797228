import PathControl.Wire.HardwareAddress

/-!
# Addressing

The addresses and ports that an endpoint puts on its control frames and expects on those of its
peer. The peer's addressing is the same with local and peer addresses exchanged; the ports are
common to both.
-/

namespace PathControl

open PathControl.Wire

/-- Addresses and ports of control traffic. -/
structure Addressing where
  /-- Hardware address that this endpoint sends from. -/
  localMac : HardwareAddress
  /-- Hardware address of the peer. -/
  peerMac : HardwareAddress
  localIp : Net.Ipv4
  peerIp : Net.Ipv4
  /-- Source port that marks control traffic. -/
  controlPort : UInt16
  /-- Destination port of the first path. -/
  basePort : UInt16
  deriving DecidableEq, Repr

namespace Addressing

/-- The reference deployment. -/
def standard : Addressing where
  localMac := ⟨0x08, 0xc0, 0xeb, 0xbf, 0xef, 0x82⟩
  peerMac := ⟨0x08, 0xc0, 0xeb, 0xbf, 0xef, 0x9a⟩
  localIp := ⟨192, 168, 200, 1⟩
  peerIp := ⟨192, 168, 200, 2⟩
  controlPort := 1234
  basePort := 5678

instance : Inhabited Addressing := ⟨standard⟩

/-- The addressing of the peer. -/
def reversed (a : Addressing) : Addressing :=
  { a with localMac := a.peerMac, peerMac := a.localMac, localIp := a.peerIp, peerIp := a.localIp }

/-- The highest destination port of any path. -/
def lastPathPort (a : Addressing) : Nat := a.basePort.toNat + pathCount - 1

/-- Why the addressing is unusable: the path ports must fit the port range, without port 0, and
the control port must not be one of them. -/
def flaw? (a : Addressing) : Option SettingsFlaw :=
  if a.basePort = 0 ∨ UInt16.size ≤ a.lastPathPort then some (.noRoomForPaths a.basePort)
  else if a.basePort.toNat ≤ a.controlPort.toNat ∧ a.controlPort.toNat ≤ a.lastPathPort then
    some (.controlPortCollision a.controlPort)
  else none

/-- Reversing twice gives the addressing back. -/
@[simp] theorem reversed_reversed (a : Addressing) : a.reversed.reversed = a := rfl

/-- Reversed addressing has the same flaw, if any. -/
@[simp] theorem flaw?_reversed (a : Addressing) : a.reversed.flaw? = a.flaw? := rfl

end Addressing

end PathControl
