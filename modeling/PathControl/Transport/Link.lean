import PathControl.Transport.Nic

/-!
# Links in memory

A link joins two ends, `a` and `b`, by one bounded ring of frames per direction. A filter may sit
on each direction: it sees every transmitted frame once and in order, may change it, and may lose
it. Receiving copies frames out of the ring into buffers of the receiving end's pool, and leaves
them on the ring while no buffer is free.
-/

namespace PathControl.Transport

open PathControl.Wire

/-- A filter with states in `φ`. For each frame it gives the next state and the frame to pass on,
or none if the frame is lost. -/
class LinkFilter (φ : Type) where
  apply : φ → Bytes → φ × Option Bytes

/-- One end of a link. -/
inductive LinkEnd where
  | a
  | b
  deriving DecidableEq, Repr

namespace LinkEnd

/-- The other end. -/
def other : LinkEnd → LinkEnd
  | .a => .b
  | .b => .a

/-- The other end of the other end is the end itself. -/
@[simp] theorem other_other (e : LinkEnd) : e.other.other = e := by
  cases e <;> rfl

end LinkEnd

/-- A bounded ring of raw frames, the oldest first. -/
structure Ring where
  capacity : Nat
  frames : List Bytes
  deriving DecidableEq, Repr

namespace Ring

/-- An empty ring. It holds at least one frame. -/
def new (capacity : Nat) : Ring := ⟨max capacity 1, []⟩

/-- Whether no further frame fits. -/
def isFull (r : Ring) : Bool := r.capacity ≤ r.frames.length

/-- Appends a frame if it fits. -/
def push (r : Ring) (frame : Bytes) : Ring :=
  if r.isFull then r else { r with frames := r.frames ++ [frame] }

end Ring

/-- One direction of a link. -/
structure Lane (φ : Type) where
  /-- Frames on their way. -/
  ring : Ring
  /-- The filter on this direction, if any. -/
  filter : Option φ
  deriving Repr

namespace Lane

variable {φ : Type} [LinkFilter φ]

/-- What becomes of a transmitted frame: the filter afterwards, and the frame unless it is
lost. -/
def filtered (filter : Option φ) (frame : Bytes) : Option φ × Option Bytes :=
  match filter with
  | none => (none, some frame)
  | some state =>
    let (state, kept) := LinkFilter.apply state frame
    (some state, kept)

/-- Transmits one frame. -/
def send (lane : Lane φ) (frame : Bytes) : Lane φ :=
  let (filter, kept) := filtered lane.filter frame
  { ring := match kept with
      | some frame => lane.ring.push frame
      | none => lane.ring
    filter }

/-- Transmits frames in order until the ring is full. The answer counts the frames sent; a frame
that the filter loses is sent. -/
def sendAll (lane : Lane φ) : List Bytes → Lane φ × Nat
  | [] => (lane, 0)
  | frame :: frames =>
    if lane.ring.isFull then (lane, 0)
    else
      let (lane, sent) := (lane.send frame).sendAll frames
      (lane, sent + 1)

end Lane

/-- Copies frames of a ring into buffers of a pool, at most `room` of them. The answer is what is
left of the ring and the pool, the filled buffers, and whether the pool ran out. -/
def deliver (pool : Pool) : Nat → List Bytes → List Bytes × Pool × List Buffer × Bool
  | 0, ring => (ring, pool, [], false)
  | _ + 1, [] => ([], pool, [], false)
  | room + 1, frame :: ring =>
    match pool.get? with
    | none => (frame :: ring, pool, [], true)
    | some (buffer, pool) =>
      let (ring, pool, buffers, exhausted) := deliver pool room ring
      (ring, pool, buffer.copyFrom frame :: buffers, exhausted)

/-- A link between two ends. -/
structure Link (φ : Type) where
  /-- From `a` to `b`. -/
  aToB : Lane φ
  /-- From `b` to `a`. -/
  bToA : Lane φ
  deriving Repr

namespace Link

variable {φ : Type}

/-- A link whose rings hold `capacity` frames each, without filters. -/
def new (capacity : Nat) : Link φ :=
  ⟨⟨Ring.new capacity, none⟩, ⟨Ring.new capacity, none⟩⟩

/-- Bytes that a place in a ring takes. -/
def slotSize : Nat := 32

/-- A link without filters, if there can be one of that capacity. -/
def allocate (capacity : Nat) : Checked (Link φ) := do
  Checked.reserve (max capacity 1) slotSize
  return new capacity

/-- The direction that an end transmits into. -/
def outbound (l : Link φ) : LinkEnd → Lane φ
  | .a => l.aToB
  | .b => l.bToA

/-- The direction that an end receives from. -/
def inbound (l : Link φ) (e : LinkEnd) : Lane φ := l.outbound e.other

/-- Replaces the direction that an end transmits into. -/
def setOutbound (l : Link φ) (e : LinkEnd) (lane : Lane φ) : Link φ :=
  match e with
  | .a => { l with aToB := lane }
  | .b => { l with bToA := lane }

/-- Replaces the direction that an end receives from. -/
def setInbound (l : Link φ) (e : LinkEnd) (lane : Lane φ) : Link φ := l.setOutbound e.other lane

/-- Installs a filter on what an end transmits, or removes it. -/
def setFilter (l : Link φ) (e : LinkEnd) (filter : Option φ) : Link φ :=
  l.setOutbound e { l.outbound e with filter }

/-- Puts a raw frame into the receive ring of an end, past any filter. The answer is whether it
fitted. -/
def inject (l : Link φ) (e : LinkEnd) (frame : Bytes) : Link φ × Bool :=
  let lane := l.inbound e
  (l.setInbound e { lane with ring := lane.ring.push frame }, !lane.ring.isFull)

/-- Frames waiting in the receive ring of an end. -/
def pending (l : Link φ) (e : LinkEnd) : Nat := (l.inbound e).ring.frames.length

/-- Receives at most `room` frames at an end. Running out of buffers is a failure only if nothing
was received. -/
def rxBurst (e : LinkEnd) (l : Link φ) (pool : Pool) (room : Nat) : RxBurst (Link φ) :=
  let lane := l.inbound e
  let (left, pool, frames, exhausted) := deliver pool room lane.ring.frames
  { nic := l.setInbound e { lane with ring := { lane.ring with frames := left } }
    pool
    frames
    failure := if exhausted && frames.isEmpty then some .buffersExhausted else none }

/-- Transmits frames from an end until the ring is full. -/
def txBurst [LinkFilter φ] (e : LinkEnd) (l : Link φ) (frames : List Buffer) :
    TxBurst (Link φ) :=
  let (lane, taken) := (l.outbound e).sendAll (frames.map Buffer.contents)
  { nic := l.setOutbound e lane, taken, failure := none }

/-- The network interface at an end. -/
def nic [LinkFilter φ] (e : LinkEnd) : Nic (Link φ) where
  rxBurst := rxBurst e
  txBurst := txBurst e

end Link

end PathControl.Transport
