import PathControl.Text.Digits

/-!
# Internet addresses

IPv4 and IPv6 addresses and the socket addresses built from them, with their texts. The readers
are strict: an IPv4 part has no superfluous leading zero, an IPv6 address has eight groups or one
`::` that stands for at least one of them, and a port is below 65536. Writing shortens the first
longest run of two or more zero groups of an IPv6 address.
-/

namespace PathControl.Net

open PathControl.Text

/-- An IPv4 address by its octets. -/
structure Ipv4 where
  (a b c d : UInt8)
  deriving DecidableEq, Repr

/-- The octets of an address in wire order. -/
def Ipv4.octets (ip : Ipv4) : List UInt8 := [ip.a, ip.b, ip.c, ip.d]

/-- Dotted decimal text of an address. -/
def Ipv4.text (ip : Ipv4) : String :=
  ".".intercalate (ip.octets.map fun o => toString o.toNat)

/-- An IPv6 address by its eight groups. -/
structure Ipv6 where
  groups : Vector UInt16 8
  deriving DecidableEq, Repr

/-- Where a datagram socket is bound, or whom it talks to. -/
inductive SocketAddress where
  | v4 (ip : Ipv4) (port : UInt16)
  | v6 (ip : Ipv6) (port : UInt16) (scope : UInt32)
  deriving DecidableEq, Repr

/-- Whether every machine may use an address for a socket of its own: the unspecified address, those
of the loopback, the groups, and the broadcast address. -/
def Ipv4.isLocal (ip : Ipv4) : Bool :=
  ip.octets == [0, 0, 0, 0] || ip.a == 127 || (224 ≤ ip.a && ip.a < 240) ||
    ip.octets == [255, 255, 255, 255]

/-- The IPv4 address that an IPv6 address embeds. -/
def Ipv6.embedded? (ip : Ipv6) : Option Ipv4 :=
  match ip.groups.toList with
  | [0, 0, 0, 0, 0, 0xffff, g, h] =>
    some ⟨(g >>> 8).toUInt8, g.toUInt8, (h >>> 8).toUInt8, h.toUInt8⟩
  | _ => none

/-- Whether every machine may use an address for a socket of its own: the unspecified address, the
loopback, and what embeds an IPv4 address of that kind. -/
def Ipv6.isLocal (ip : Ipv6) : Bool :=
  match ip.embedded? with
  | some v4 => v4.isLocal
  | none => ip.groups.toList.take 7 == List.replicate 7 0 && ip.groups[7] ≤ 1

/-- Whether every machine may bind a socket there. -/
def SocketAddress.isLocal : SocketAddress → Bool
  | .v4 ip _ => ip.isLocal
  | .v6 ip _ _ => ip.isLocal

/-! ### Reading

Each reader takes the text in front and returns what follows it. -/

/-- What follows a given character. -/
def expect? (c : Char) : List Char → Option (List Char)
  | [] => none
  | x :: xs => if x = c then some xs else none

/-- An octet: one to three decimal digits without a superfluous zero. -/
def takeOctet? (cs : List Char) : Option (UInt8 × List Char) := do
  let (n, rest) ← takeNumber? 10 (some 3) false 256 cs
  return (UInt8.ofNat n, rest)

/-- Four octets joined by dots. -/
def takeIpv4? (cs : List Char) : Option (Ipv4 × List Char) := do
  let (a, cs) ← takeOctet? cs
  let (b, cs) ← takeOctet? (← expect? '.' cs)
  let (c, cs) ← takeOctet? (← expect? '.' cs)
  let (d, cs) ← takeOctet? (← expect? '.' cs)
  return (⟨a, b, c, d⟩, cs)

/-- The address of a whole text. -/
def Ipv4.ofText? (cs : List Char) : Option Ipv4 :=
  match takeIpv4? cs with
  | some (ip, []) => some ip
  | _ => none

/-- Groups read so far, in order, with the rest of the text and whether they end in an embedded
IPv4 address. -/
structure GroupRun where
  groups : List UInt16
  rest : List Char
  embedded : Bool

/-- An item that is preceded by a colon unless it is the first one. -/
def afterColon? {α : Type} (isFirst : Bool) (item? : List Char → Option (α × List Char))
    (cs : List Char) : Option (α × List Char) :=
  if isFirst then item? cs else (expect? ':' cs).bind item?

/-- At most `room` groups joined by colons. An IPv4 address may stand for the last two groups. -/
def takeGroups (isFirst : Bool) : Nat → List Char → GroupRun
  | 0, cs => ⟨[], cs, false⟩
  | room + 1, cs =>
    match (if room = 0 then none else afterColon? isFirst takeIpv4? cs) with
    | some (ip, rest) =>
      ⟨[UInt16.ofNat (ip.a.toNat * 256 + ip.b.toNat),
        UInt16.ofNat (ip.c.toNat * 256 + ip.d.toNat)], rest, true⟩
    | none =>
      match afterColon? isFirst (takeNumber? 16 (some 4) true 65536) cs with
      | none => ⟨[], cs, false⟩
      | some (g, rest) =>
        let more := takeGroups false room rest
        { more with groups := UInt16.ofNat g :: more.groups }

/-- Eight groups, a `::` standing for the missing ones. -/
def takeIpv6? (cs : List Char) : Option (Ipv6 × List Char) := do
  let head := takeGroups true 8 cs
  if h : head.groups.length = 8 then
    return (⟨⟨head.groups.toArray, by simpa using h⟩⟩, head.rest)
  if head.embedded then none
  let rest ← expect? ':' (← expect? ':' head.rest)
  let tail := takeGroups true (7 - head.groups.length) rest
  let zeros := List.replicate (8 - head.groups.length - tail.groups.length) 0
  let groups := head.groups ++ zeros ++ tail.groups
  if h : groups.length = 8 then
    return (⟨⟨groups.toArray, by simpa using h⟩⟩, tail.rest)
  none

/-- A colon and a port number. -/
def takePort? (cs : List Char) : Option (UInt16 × List Char) := do
  let (n, rest) ← takeNumber? 10 none true 65536 (← expect? ':' cs)
  return (UInt16.ofNat n, rest)

/-- A percent sign and a scope number; no scope reads as 0. -/
def takeScope (cs : List Char) : UInt32 × List Char :=
  match (expect? '%' cs).bind (takeNumber? 10 none true UInt32.size) with
  | some (n, rest) => (UInt32.ofNat n, rest)
  | none => (0, cs)

/-- An IPv4 address with a port. -/
def takeSocketV4? (cs : List Char) : Option (SocketAddress × List Char) := do
  let (ip, cs) ← takeIpv4? cs
  let (port, cs) ← takePort? cs
  return (.v4 ip port, cs)

/-- An IPv6 address in brackets, with an optional scope, and a port. -/
def takeSocketV6? (cs : List Char) : Option (SocketAddress × List Char) := do
  let (ip, cs) ← takeIpv6? (← expect? '[' cs)
  let (scope, cs) := takeScope cs
  let (port, cs) ← takePort? (← expect? ']' cs)
  return (.v6 ip port scope, cs)

/-- The socket address of a whole text. -/
def SocketAddress.ofText? (cs : List Char) : Option SocketAddress :=
  match (takeSocketV4? cs).or (takeSocketV6? cs) with
  | some (address, []) => some address
  | _ => none

/-! ### Writing -/

/-- Start and length of the first longest run of zero groups, from position `at` on. -/
def longestZeroRun (groups : List UInt16) : Nat × Nat :=
  let step := fun (acc : Nat × (Nat × Nat) × (Nat × Nat)) (g : UInt16) =>
    let (i, current, longest) := acc
    if g = 0 then
      let current := if current.2 = 0 then (i, 1) else (current.1, current.2 + 1)
      (i + 1, current, if longest.2 < current.2 then current else longest)
    else (i + 1, (0, 0), longest)
  (groups.foldl step (0, (0, 0), (0, 0))).2.2

/-- Groups in hexadecimal, joined by colons. -/
def groupsText (groups : List UInt16) : String :=
  ":".intercalate (groups.map fun g => hexNumber g.toNat)

/-- Text of an IPv6 address. The addresses that embed an IPv4 one show it in dotted decimal. -/
def Ipv6.text (ip : Ipv6) : String :=
  match ip.embedded? with
  | some v4 => "::ffff:" ++ v4.text
  | none =>
    let groups := ip.groups.toList
    let (start, length) := longestZeroRun groups
    if 1 < length then
      groupsText (groups.take start) ++ "::" ++ groupsText (groups.drop (start + length))
    else groupsText groups

/-- Text of a socket address. A scope of 0 is left out. -/
def SocketAddress.text : SocketAddress → String
  | .v4 ip port => ip.text ++ ":" ++ toString port.toNat
  | .v6 ip port scope =>
    let scopeText := if scope = 0 then "" else "%" ++ toString scope.toNat
    "[" ++ ip.text ++ scopeText ++ "]:" ++ toString port.toNat

end PathControl.Net
