import PathControl.Settings.Basic
import PathControl.Time.DurationText
import PathControl.Toml.Document

/-!
# Settings as text

Settings are kept in TOML: the role at the root, and a section each for the addressing, the tuning,
the socket and the log. What a text leaves out has its standard value, and entries of other names
are ignored. A section may also be an array, which gives its fields in order.

Addresses and durations are strings. Reading checks every value for its type and range, in the
order of the text, and then the settings as a whole.
-/

namespace PathControl

open PathControl.Toml
open PathControl.Wire

namespace Settings

/-- An answer of the reader. -/
abbrev Reading (α : Type) : Type := ExceptT Error Checked α

/-- Why settings could not be read: an entry has no value of its type. -/
def unusable (name : String) : Error := .unreadableSettings ("unusable value of " ++ name)

/-- What a value is read as, if it is of the right type. -/
def require {α : Type} (name : String) (x : Option α) : Reading α :=
  match x with
  | some x => return x
  | none => throw (unusable name)

/-! ### Values -/

/-- A string. -/
def string? : Value → Option String
  | .string text => some text
  | _ => none

/-- A truth value. -/
def boolean? : Value → Option Bool
  | .boolean b => some b
  | _ => none

/-- A whole number that is not negative and less than a bound. -/
def natural? (bound : Nat) : Value → Option Nat
  | .integer n => if 0 ≤ n ∧ n < bound then some n.toNat else none
  | _ => none

/-- A number as a float. -/
def ratio? : Value → Option Float
  | .float x => some x
  | .integer n => some (Decimal.toFloat (n < 0) n.natAbs 0)
  | _ => none

/-- The number of a path. -/
def path? (v : Value) : Option PathId := (natural? 256 v).bind PathId.ofNumber?

/-- A port. -/
def port? (v : Value) : Option UInt16 := (natural? UInt16.size v).map UInt16.ofNat

/-- A size of something in memory. -/
def size? (v : Value) : Option Nat := natural? UInt64.size v

/-- A hardware address. -/
def mac? (v : Value) : Option HardwareAddress :=
  (string? v).bind fun s => HardwareAddress.ofChars? s.toList

/-- An IPv4 address. -/
def ip? (v : Value) : Option Net.Ipv4 := (string? v).bind fun s => Net.Ipv4.ofText? s.toList

/-- A socket address. -/
def socketAddress? (v : Value) : Option Net.SocketAddress :=
  (string? v).bind fun s => Net.SocketAddress.ofText? s.toList

/-- A role, by its name or as a table whose only entry is an empty one of that name. -/
def role? : Value → Option Role
  | .string text => Role.ofName? text
  | .table _ [(name, value)] => if value.isEmpty then Role.ofName? name else none
  | _ => none

/-- A duration. -/
def readDuration (name : String) (v : Value) : Reading Duration := do
  let text ← require name (string? v)
  match ← (Duration.ofText text).run with
  | .ok d => return d
  | .error _ => throw (unusable name)

/-! ### Sections -/

/-- Reads the fields of a section, starting from its standard values. -/
def readSection {α : Type} (name : String) (names : List String)
    (field : α → String × Value → Reading α) (standard : α) (v : Value) : Reading α := do
  let fields ← require name v.fields?
  (fields.withNames names).foldlM field standard

/-- Names of the fields of the addressing, in order. -/
def addressingNames : List String :=
  ["local_mac", "peer_mac", "local_ip", "peer_ip", "control_port", "base_port"]

/-- Reads a field of the addressing. -/
def addressingField (a : Addressing) : String × Value → Reading Addressing
  | (name, v) => do
    match name with
    | "local_mac" => return { a with localMac := ← require name (mac? v) }
    | "peer_mac" => return { a with peerMac := ← require name (mac? v) }
    | "local_ip" => return { a with localIp := ← require name (ip? v) }
    | "peer_ip" => return { a with peerIp := ← require name (ip? v) }
    | "control_port" => return { a with controlPort := ← require name (port? v) }
    | "base_port" => return { a with basePort := ← require name (port? v) }
    | _ => return a

/-- Names of the fields of the tuning, in order. -/
def tuningNames : List String :=
  ["initial_path", "probe_interval", "repath_timeout", "repath_guard", "max_retries",
    "threshold_ratio", "clock_bias", "burst_size", "ring_size", "pool_size", "timer_resolution",
    "idle_backoff", "stats_interval"]

/-- Reads a field of the tuning. -/
def tuningField (t : Tuning) : String × Value → Reading Tuning
  | (name, v) => do
    match name with
    | "initial_path" => return { t with initialPath := ← require name (path? v) }
    | "probe_interval" => return { t with probeInterval := ← readDuration name v }
    | "repath_timeout" => return { t with repathTimeout := ← readDuration name v }
    | "repath_guard" => return { t with repathGuard := ← readDuration name v }
    | "max_retries" =>
      let n ← require name (natural? UInt32.size v)
      return { t with maxRetries := UInt32.ofNat n }
    | "threshold_ratio" => return { t with thresholdRatio := ← require name (ratio? v) }
    | "clock_bias" => return { t with clockBias := ← readDuration name v }
    | "burst_size" => return { t with burstSize := ← require name (size? v) }
    | "ring_size" => return { t with ringSize := ← require name (size? v) }
    | "pool_size" => return { t with poolSize := ← require name (size? v) }
    | "timer_resolution" => return { t with timerResolution := ← readDuration name v }
    | "idle_backoff" => return { t with idleBackoff := ← readDuration name v }
    | "stats_interval" => return { t with statsInterval := ← readDuration name v }
    | _ => return t

/-- Names of the fields of the socket, in order. -/
def socketNames : List String := ["bind", "peer"]

/-- Reads a field of the socket. -/
def socketField (s : SocketSettings) : String × Value → Reading SocketSettings
  | (name, v) => do
    match name with
    | "bind" => return { s with bind := ← require name (socketAddress? v) }
    | "peer" => return { s with peer := some (← require name (socketAddress? v)) }
    | _ => return s

/-- Names of the fields of the log, in order. -/
def logNames : List String := ["level", "format", "color"]

/-- Reads a field of the log. -/
def logField (l : LogSettings) : String × Value → Reading LogSettings
  | (name, v) => do
    match name with
    | "level" => return { l with level := ← require name (string? v) }
    | "format" => return { l with format := ← require name (string? v) }
    | "color" => return { l with color := ← require name (boolean? v) }
    | _ => return l

/-- Reads an entry of the root. -/
def rootField (s : Settings) : String × Value → Reading Settings
  | (name, v) => do
    match name with
    | "role" => return { s with role := ← require name (role? v) }
    | "envelope" =>
      let addressing ← readSection name addressingNames addressingField .standard v
      return { s with addressing }
    | "engine" =>
      let tuning ← readSection name tuningNames tuningField .standard v
      return { s with tuning }
    | "nic" =>
      let socket ← readSection name socketNames socketField .standard v
      return { s with socket }
    | "logging" =>
      let log ← readSection name logNames logField .standard v
      return { s with log }
    | _ => return s

/-- Settings that a text describes. They are valid. -/
def ofText (text : String) : Reading Settings := do
  let some root := Toml.ofChars? text.toList
    | throw (.unreadableSettings "not a TOML document")
  let settings ← root.entries.foldlM rootField standard
  (settings.validate : Except Error Unit)
  return settings

/-- Settings that the bytes of a file describe, if there is such a file. -/
def ofFile (content : Option ByteArray) : Reading Settings := do
  let some bytes := content | throw (.unreadableSettings "no such file")
  let some text := String.fromUTF8? bytes | throw (.unreadableSettings "not UTF-8")
  ofText text

/-! ### Writing -/

/-- A duration as a value. -/
def durationScalar (d : Duration) : Scalar := .string d.text

/-- The section of the addressing. -/
def addressingSection (a : Addressing) : Section where
  name := "envelope"
  entries :=
    [("local_mac", .string a.localMac.text),
      ("peer_mac", .string a.peerMac.text),
      ("local_ip", .string a.localIp.text),
      ("peer_ip", .string a.peerIp.text),
      ("control_port", .integer a.controlPort.toNat),
      ("base_port", .integer a.basePort.toNat)]

/-- The section of the tuning. -/
def tuningSection (t : Tuning) : Section where
  name := "engine"
  entries :=
    [("initial_path", .integer t.initialPath.number),
      ("probe_interval", durationScalar t.probeInterval),
      ("repath_timeout", durationScalar t.repathTimeout),
      ("repath_guard", durationScalar t.repathGuard),
      ("max_retries", .integer t.maxRetries.toNat),
      ("threshold_ratio", .float t.thresholdRatio),
      ("clock_bias", durationScalar t.clockBias),
      ("burst_size", .integer t.burstSize),
      ("ring_size", .integer t.ringSize),
      ("pool_size", .integer t.poolSize),
      ("timer_resolution", durationScalar t.timerResolution),
      ("idle_backoff", durationScalar t.idleBackoff),
      ("stats_interval", durationScalar t.statsInterval)]

/-- The section of the socket. A peer that is not known is left out. -/
def socketSection (s : SocketSettings) : Section where
  name := "nic"
  entries :=
    ("bind", .string s.bind.text) ::
      s.peer.toList.map fun peer => ("peer", .string peer.text)

/-- The section of the log. -/
def logSection (l : LogSettings) : Section where
  name := "logging"
  entries :=
    [("level", .string l.level), ("format", .string l.format), ("color", .boolean l.color)]

/-- Settings as text. Sizes that exceed 63 bits cannot be written. -/
def toText (s : Settings) : ExceptT Error Checked String := do
  let sections := [addressingSection s.addressing, tuningSection s.tuning,
    socketSection s.socket, logSection s.log]
  match ← ((documentText [("role", .string s.role.name)] sections).run : Checked _) with
  | some text => return text
  | none => throw (.unreadableSettings "a number does not fit")

end Settings

end PathControl
