import PathControl.Fault

/-!
# Counters

What the loops of an endpoint count. Every counter is a 64-bit word that wraps around. Only the
sum of the two drop counters is a checked one, because a report that shows it must not wrap.
-/

namespace PathControl

/-- The things counted. -/
inductive Counter where
  /-- Frames the pump took from the wire. -/
  | framesReceived
  /-- Frames the pump put on the wire. -/
  | framesSent
  /-- Received frames lost to a full ingress queue. -/
  | ingressDropped
  /-- Frames lost to a full egress queue or refused by the wire. -/
  | egressDropped
  /-- Failed bursts. -/
  | nicErrors
  | probesSent
  /-- Emissions skipped for lack of a buffer. -/
  | bufferExhausted
  | probesReceived
  | timestampsReceived
  /-- Received frames that belong to someone else. -/
  | notControl
  | malformed
  | clockAnomalies
  /-- Samples that asked for a switch. -/
  | triggers
  | repathsSent
  | repathRetries
  | repathsReceived
  | acksSent
  | acksReceived
  | switches
  | abandoned
  deriving DecidableEq, Repr

namespace Counter

/-- How many counters there are. -/
def count : Nat := 20

/-- Position of a counter. -/
def index : Counter → Fin count
  | framesReceived => ⟨0, by decide⟩
  | framesSent => ⟨1, by decide⟩
  | ingressDropped => ⟨2, by decide⟩
  | egressDropped => ⟨3, by decide⟩
  | nicErrors => ⟨4, by decide⟩
  | probesSent => ⟨5, by decide⟩
  | bufferExhausted => ⟨6, by decide⟩
  | probesReceived => ⟨7, by decide⟩
  | timestampsReceived => ⟨8, by decide⟩
  | notControl => ⟨9, by decide⟩
  | malformed => ⟨10, by decide⟩
  | clockAnomalies => ⟨11, by decide⟩
  | triggers => ⟨12, by decide⟩
  | repathsSent => ⟨13, by decide⟩
  | repathRetries => ⟨14, by decide⟩
  | repathsReceived => ⟨15, by decide⟩
  | acksSent => ⟨16, by decide⟩
  | acksReceived => ⟨17, by decide⟩
  | switches => ⟨18, by decide⟩
  | abandoned => ⟨19, by decide⟩

/-- Name of a counter in reports. -/
def name : Counter → String
  | framesReceived => "frames_received"
  | framesSent => "frames_sent"
  | ingressDropped => "ingress_dropped"
  | egressDropped => "egress_dropped"
  | nicErrors => "nic_errors"
  | probesSent => "probes_sent"
  | bufferExhausted => "buffer_exhausted"
  | probesReceived => "probes_received"
  | timestampsReceived => "timestamps_received"
  | notControl => "not_control"
  | malformed => "malformed"
  | clockAnomalies => "clock_anomalies"
  | triggers => "triggers"
  | repathsSent => "repaths_sent"
  | repathRetries => "repath_retries"
  | repathsReceived => "repaths_received"
  | acksSent => "acks_sent"
  | acksReceived => "acks_received"
  | switches => "switches"
  | abandoned => "abandoned"

/-- All counters in order. -/
def all : List Counter :=
  [framesReceived, framesSent, ingressDropped, egressDropped, nicErrors, probesSent,
    bufferExhausted, probesReceived, timestampsReceived, notControl, malformed, clockAnomalies,
    triggers, repathsSent, repathRetries, repathsReceived, acksSent, acksReceived, switches,
    abandoned]

/-- The counter of a name. -/
def ofName? (s : String) : Option Counter := all.find? fun c => c.name == s

/-- Each counter has a place of its own. -/
theorem index_injective {c d : Counter} (h : c.index = d.index) : c = d := by
  revert h
  cases c <;> cases d <;> first | exact fun _ => rfl | exact fun h => absurd h (by decide)

end Counter

/-- The values of all counters. -/
structure Stats where
  counts : Vector UInt64 Counter.count
  deriving DecidableEq, Repr

namespace Stats

/-- All counters at zero. -/
def zero : Stats := ⟨Vector.replicate Counter.count 0⟩

/-- The value of a counter. -/
def get (s : Stats) (c : Counter) : UInt64 := s.counts[c.index]

/-- The counters with `n` added to one of them, modulo 2^64. -/
def add (s : Stats) (c : Counter) (n : UInt64) : Stats :=
  ⟨s.counts.set c.index (s.get c + n)⟩

/-- The counters with one of them a step further. -/
def inc (s : Stats) (c : Counter) : Stats := s.add c 1

/-- Frames lost to full queues in either direction. -/
def dropped (s : Stats) : Checked UInt64 :=
  Checked.add64 (s.get .ingressDropped) (s.get .egressDropped)

/-- One line with the main counters. -/
def summary (s : Stats) : Checked String := do
  let dropped ← s.dropped
  let shown := fun c => toString (s.get c).toNat
  let pair := fun sent received => shown sent ++ "/" ++ shown received
  return " ".intercalate
    ["rx=" ++ shown .framesReceived,
      "tx=" ++ shown .framesSent,
      "dropped=" ++ toString dropped.toNat,
      "probes=" ++ pair .probesSent .probesReceived,
      "repath=" ++ pair .repathsSent .repathsReceived,
      "ack=" ++ pair .acksSent .acksReceived,
      "switches=" ++ shown .switches,
      "abandoned=" ++ shown .abandoned,
      "malformed=" ++ shown .malformed]

/-- Fresh counters are zero. -/
@[simp] theorem get_zero (c : Counter) : zero.get c = 0 := by
  simp [zero, get]

/-- Adding to a counter changes that counter and no other. -/
theorem get_add (s : Stats) (c d : Counter) (n : UInt64) :
    (s.add c n).get d = if c = d then s.get d + n else s.get d := by
  by_cases h : c = d
  · subst h
    simp [get, add]
  · have hv : c.index.val ≠ d.index.val := fun e => h (Counter.index_injective (Fin.ext e))
    simp [get, add, h, hv]

/-- A counter that moves a step leaves the others alone. -/
theorem get_inc (s : Stats) (c d : Counter) :
    (s.inc c).get d = if c = d then s.get d + 1 else s.get d :=
  get_add s c d 1

end Stats

end PathControl
