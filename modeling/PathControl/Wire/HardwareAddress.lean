import PathControl.Error
import PathControl.Text.Digits

/-!
# Hardware addresses

An Ethernet address of six octets. Its text is six parts between colons; a written part is two
lower-case hexadecimal digits, and a part that is read may have a plus sign, letters of either
case and any number of leading zeros, as long as its value is below 256.
-/

namespace PathControl.Wire

open PathControl.Text

/-- An Ethernet address by its octets. -/
structure HardwareAddress where
  (a b c d e f : UInt8)
  deriving DecidableEq, Repr

namespace HardwareAddress

/-- The octets in wire order. -/
def octets (m : HardwareAddress) : List UInt8 := [m.a, m.b, m.c, m.d, m.e, m.f]

/-- The address of six octets. -/
def ofOctets? : List UInt8 → Option HardwareAddress
  | [a, b, c, d, e, f] => some ⟨a, b, c, d, e, f⟩
  | _ => none

/-- Text of an address as characters. -/
def chars (m : HardwareAddress) : List Char :=
  [':'].intercalate (m.octets.map hexByte)

/-- Text of an address. -/
def text (m : HardwareAddress) : String := String.ofList m.chars

/-- The octet of one part of a text. -/
def octetOfPart? (part : List Char) : Option UInt8 :=
  match number? 16 256 part with
  | .ok n => some (UInt8.ofNat n)
  | .error _ => none

/-- The address of a text. -/
def ofChars? (cs : List Char) : Option HardwareAddress :=
  ((splitOn ':' cs).mapM octetOfPart?).bind ofOctets?

/-- Reads an address and reports a bad text. -/
def parse (s : String) : Except ProtocolError HardwareAddress :=
  match ofChars? s.toList with
  | some m => .ok m
  | none => .error (.malformedPacket (.badHardwareAddress s))

/-- The octets of an address make that address. -/
@[simp] theorem ofOctets?_octets (m : HardwareAddress) : ofOctets? m.octets = some m := rfl

/-- An address has six octets. -/
@[simp] theorem length_octets (m : HardwareAddress) : m.octets.length = 6 := rfl

end HardwareAddress

end PathControl.Wire
