import PathControl.Endpoint.Basic
import PathControl.Report.Record

/-!
# Records of an endpoint

How the parts of an endpoint are recorded: its settings, counters and delays, the packets it
handles, its negotiations and events, and the causes it reports.
-/

namespace PathControl

open PathControl.Delay
open PathControl.Endpoint
open PathControl.Negotiation
open PathControl.Transport
open PathControl.Wire

/-! ### Causes -/

/-- The kind of a protocol error. -/
def ProtocolError.kind : ProtocolError → String
  | .malformedHeader => "MalformedHeader"
  | .malformedPacket _ => "MalformedPacket"
  | .invalidPlane _ => "InvalidPlane"
  | .invalidMessageType _ => "InvalidMessageType"
  | .invalidPath _ => "InvalidPath"

/-- The kind of a transport error. -/
def TransportError.kind : TransportError → String
  | .bindFailed .. => "BindFailed"
  | .sendFailed _ => "SendFailed"
  | .receiveFailed _ => "ReceiveFailed"

/-- The kind of a cause: its family, and within a family its own kind. -/
def Error.kind : Error → List String
  | .protocol cause => ["Protocol", cause.kind]
  | .buffersExhausted => ["BufferExhausted"]
  | .queueFull _ => ["QueueFull"]
  | .negotiationAbandoned .. => ["NegotiationAbandoned"]
  | .clockAnomaly _ => ["ClockAnomaly"]
  | .transport cause => ["Transport", cause.kind]
  | .unreadableSettings _ => ["Config"]
  | .invalidSettings _ => ["InvalidConfig"]
  | .io _ => ["Io"]
  | .other _ => ["Other"]

/-- The kind of a cause in one text. -/
def Error.kindText (e : Error) : String := ".".intercalate e.kind

instance : HasFields ProtocolError where
  fields e := [("error", record e.kind), ("message", record e.message)]

/-- The wording of unreadable settings depends on the reader and is left out. -/
instance : HasFields Error where
  fields e :=
    ("error", record e.kindText) ::
      match e with
      | .unreadableSettings _ => []
      | _ => [("message", record e.message)]

/-! ### Packets -/

/-- The name of a plane. -/
def Wire.Plane.name : Plane → String
  | .control => "Control"
  | .data => "Data"

/-- The name of a kind of messages. -/
def Wire.MessageKind.name : MessageKind → String
  | .probe => "Probe"
  | .repath => "Repath"
  | .repathAck => "RepathAck"
  | .timestamp => "Timestamp"

/-- The kind of messages of a name. -/
def Wire.MessageKind.ofName? (s : String) : Option MessageKind :=
  [MessageKind.probe, .repath, .repathAck, .timestamp].find? fun k => k.name == s

instance : HasFields Header where
  fields h :=
    [("kind", record h.kind.name), ("plane", record h.kind.plane.name),
      ("timestamp", record h.timestamp), ("target", record h.target),
      ("sequence", record h.sequence), ("ack", record h.ack)]

instance : HasFields ControlPacket where
  fields p := fields p.header ++ [("path", record p.path)]

instance : Recorded Decoded where
  record
    | .notControlTraffic => .text "NotControlTraffic"
    | .control packet => record packet

/-- The payload is replaced by what keeps it from being cut out. -/
instance : HasFields Datagram where
  fields d :=
    [("src_port", record d.sourcePort), ("dst_port", record d.targetPort),
      ("payload", match d.payload with
        | .ok bytes => .bytes bytes
        | .error cause => record cause)]

/-! ### Delays and counters -/

/-- All counters by their names. -/
def Stats.all (s : Stats) : Fields := Counter.all.map fun c => (c.name, record (s.get c))

/-- The counters that are not zero. -/
instance : HasFields Stats where
  fields s :=
    (Counter.all.filter fun c => s.get c ≠ 0).map fun c => (c.name, record (s.get c))

instance : HasFields Estimator where
  fields e := [("best", record e.best), ("snapshot", record e.snapshot)]

instance : HasFields Trigger where
  fields t := [("trigger", record t.name), ("switch", record t.isSwitch)]

instance : HasFields PathHealth where
  fields h :=
    [("samples", record h.samples), ("ts", record [h.time, h.time1]),
      ("delta_t", record h.elapsed),
      ("delays", record [h.delay, h.delay1, h.delay2, h.delay3]),
      ("grads", record [h.gradient, h.gradient1, h.gradient2, h.gradient3]),
      ("max", record h.longest), ("min", record h.shortest), ("threshold", record h.threshold)]

/-! ### Negotiations and events -/

/-- The name of a kind of timers. -/
def Negotiation.TimerKind.name : TimerKind → String
  | .repathRetry => "retry"
  | .guard => "guard"

/-- The kind of timers of a name. -/
def Negotiation.TimerKind.ofName? (s : String) : Option TimerKind :=
  [TimerKind.repathRetry, .guard].find? fun k => k.name == s

instance : Recorded TimerKind := ⟨fun k => .text k.name⟩
instance : Recorded TimerHandle := ⟨fun h => record h.id⟩

/-- The timers that are armed, as seen at a reading of the clock. -/
def Negotiation.TimerWheel.view (w : TimerWheel) (now : UInt64) : Fields :=
  [("now", record now), ("pending", record w.pending),
    ("next", record ((w.nextDeadline now).map Duration.nanos))]

instance : Recorded NegotiationState where
  record
    | .idle => .text "Idle"
    | .awaitingAck target sequence timer attempts => .fields
      [("target", record target), ("sequence", record sequence), ("timer", record timer),
        ("attempts", record attempts)]

instance : HasFields Coordinator where
  fields c :=
    [("state", record c.state), ("idle", record c.isIdle), ("outstanding", record c.outstanding)]

instance : HasFields Action where
  fields
    | .sendRepath target via sequence attempt =>
      [("act", record "SendRepath"), ("target", record target), ("via", record via),
        ("sequence", record sequence), ("attempt", record attempt)]
    | .sendRepathAck via ack =>
      [("act", record "SendRepathAck"), ("via", record via), ("ack", record ack)]
    | .committed path => [("act", record "Committed"), ("path", record path)]
    | .adopted path => [("act", record "Adopted"), ("path", record path)]
    | .abandoned target attempts =>
      [("act", record "Abandoned"), ("target", record target), ("attempts", record attempts)]

/-- An event is one field, named for its kind. -/
instance : HasFields Event where
  fields
    | .bestPathChanged source target =>
      [("BestPathChanged", .fields [("from", record source), ("to", record target)])]
    | .negotiationStarted target sequence =>
      [("NegotiationStarted", .fields [("target", record target), ("sequence", record sequence)])]
    | .pathSwitched source target cause =>
      [("PathSwitched", .fields
        [("from", record source), ("to", record target), ("cause", record cause.name)])]
    | .negotiationAbandoned target attempts =>
      [("NegotiationAbandoned", .fields
        [("target", record target), ("attempts", record attempts)])]

instance : HasFields ActivePath where
  fields a :=
    [("path", record a.path), ("switches", record a.switches), ("since_ns", record a.since)]

/-! ### Buffers and queues -/

instance : HasFields Pool where
  fields p :=
    [("available", record p.available), ("allocated", record p.allocated),
      ("max", record p.limit), ("in_use", record p.inUse), ("display", record p.summary)]

instance : HasFields FrameQueue where
  fields q :=
    [("name", record q.name), ("len", record q.length), ("empty", record (q.length == 0)),
      ("capacity", record q.capacity), ("dropped", record q.dropped)]

/-- Length and drops of a queue. -/
def Transport.FrameQueue.load (q : FrameQueue) : Record := record (q.length, q.dropped)

/-- A frame by its bytes. -/
instance : Recorded Buffer := ⟨fun b => .bytes b.contents⟩

/-- How far a buffer is filled. -/
def Transport.Buffer.fill (b : Buffer) : Fields :=
  [("len", record b.used), ("empty", record (b.used == 0))]

/-- Raw frames. -/
def frameList (frames : List Bytes) : Record := .list (frames.map .bytes)

/-- Events that a subscriber still finds: a channel keeps the last 256. -/
def recentEvents (events : List Event) : Record := record (events.drop (events.length - 256))

/-! ### Endpoints -/

/-- The state of an endpoint, apart from its events. -/
instance : HasFields Endpoint where
  fields e :=
    [("best", record e.control.estimator.best), ("active", record e.control.active),
      ("delays", record e.control.estimator.snapshot),
      ("negotiation", record e.control.coordinator.state), ("stats", record e.traffic.stats),
      ("queues", record [e.traffic.ingress.length, e.traffic.egress.length])]

/-! ### Settings -/

instance : HasFields Addressing where
  fields a :=
    [("local_mac", record a.localMac.text), ("peer_mac", record a.peerMac.text),
      ("local_ip", record a.localIp.text), ("peer_ip", record a.peerIp.text),
      ("control_port", record a.controlPort), ("base_port", record a.basePort),
      ("last_path_port", record a.lastPathPort)]

instance : HasFields Tuning where
  fields t :=
    [("initial_path", record t.initialPath), ("probe_interval", record t.probeInterval),
      ("repath_timeout", record t.repathTimeout), ("repath_guard", record t.repathGuard),
      ("max_retries", record t.maxRetries), ("threshold_ratio", record t.thresholdRatio),
      ("clock_bias", record t.clockBias), ("burst_size", record t.burstSize),
      ("ring_size", record t.ringSize), ("pool_size", record t.poolSize),
      ("timer_resolution", record t.timerResolution), ("idle_backoff", record t.idleBackoff),
      ("stats_interval", record t.statsInterval)]

instance : HasFields SocketSettings where
  fields s := [("bind", record s.bind), ("peer", record s.peer)]

instance : HasFields LogSettings where
  fields l := [("level", record l.level), ("format", record l.format), ("color", record l.color)]

instance : HasFields Settings where
  fields s :=
    [("role", record s.role), ("envelope", record s.addressing), ("engine", record s.tuning),
      ("nic", record s.socket), ("logging", record s.log)]

end PathControl
