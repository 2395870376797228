import PathControl.Transport.Link
import PathControl.Wire.ControlFrame

/-!
# Filters for links

Two families of filters. A `FrameFilter` treats frames as opaque bytes; a `ControlFilter` looks at
the control header, to lose messages of chosen kinds, to make chosen paths look slower by moving
the send time back, and to corrupt a byte.
-/

namespace PathControl.Transport

open PathControl.Wire

/-- Filters on opaque frames. -/
inductive FrameFilter where
  /-- Loses every frame. -/
  | dropAll
  /-- Loses the next so many frames. -/
  | dropFirst (count : Nat)
  /-- Loses frames shorter than this. -/
  | minLength (length : Nat)
  /-- Combines every byte with a mask by exclusive or. -/
  | xor (mask : UInt8)
  deriving DecidableEq, Repr

instance : LinkFilter FrameFilter where
  apply
    | .dropAll, _ => (.dropAll, none)
    | .dropFirst 0, frame => (.dropFirst 0, some frame)
    | .dropFirst (n + 1), _ => (.dropFirst n, none)
    | .minLength n, frame => (.minLength n, if frame.length < n then none else some frame)
    | .xor mask, frame => (.xor mask, some (frame.map (· ^^^ mask)))

/-- A filter on control frames. Frames shorter than a control frame pass unchanged. -/
structure ControlFilter where
  /-- Kinds of messages to lose. -/
  drop : List MessageKind
  /-- How many of them to lose; all if absent. -/
  remaining : Option Nat
  /-- What to subtract from the send time, per path. -/
  extra : PathTable UInt64
  /-- Destination port of the first path. -/
  basePort : UInt16
  /-- A byte to corrupt. -/
  corruptAt : Option Nat
  /-- The mask to corrupt it with. -/
  corruptMask : UInt8
  deriving DecidableEq, Repr

namespace ControlFilter

/-- Where the plane and message codes lie in a control frame. -/
def kindOffset : Nat := Envelope.length

/-- Where the send time lies in a control frame. -/
def timestampOffset : Nat := Envelope.length + 2

/-- Where the destination port lies in a control frame. -/
def targetPortOffset : Nat := ethernetHeaderLength + ipv4HeaderLength + 2

/-- Whether a frame carries one of the kinds to lose. -/
def isTargeted (f : ControlFilter) (frame : Bytes) : Bool :=
  f.drop.any fun kind =>
    (frame.drop kindOffset).take 2 == [kind.plane.code, kind.code]

/-- The frame with its send time moved back by the extra delay of its path. A send time of zero
and a frame of no path stay as they are. -/
def delayed (f : ControlFilter) (frame : Bytes) : Bytes :=
  let port := UInt16.ofNat (joinBytes ((frame.drop targetPortOffset).take 2))
  let timestamp := UInt64.ofNat (joinBytes ((frame.drop timestampOffset).take 8))
  match PathId.ofPort port f.basePort with
  | .ok path =>
    if timestamp = 0 then frame
    else
      frame.take timestampOffset ++ word64Bytes (timestamp - f.extra.get path) ++
        frame.drop (timestampOffset + 8)
  | .error _ => frame

/-- The frame with the chosen byte corrupted. -/
def corrupted (f : ControlFilter) (frame : Bytes) : Bytes :=
  match f.corruptAt with
  | some i => frame.modify i (· ^^^ f.corruptMask)
  | none => frame

/-- One frame through the filter. -/
def step (f : ControlFilter) (frame : Bytes) : ControlFilter × Option Bytes :=
  if frame.length < controlFrameLength then (f, some frame)
  else if f.isTargeted frame && f.remaining != some 0 then
    ({ f with remaining := f.remaining.map (· - 1) }, none)
  else (f, some (f.corrupted (f.delayed frame)))

end ControlFilter

instance : LinkFilter ControlFilter where
  apply := ControlFilter.step

end PathControl.Transport
