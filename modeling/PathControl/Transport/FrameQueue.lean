import PathControl.Error
import PathControl.Transport.Pool

/-!
# Frame queues

A bounded queue of frames between two loops, first in, first out. A full queue never blocks:
`push` hands the frame back, and `pushOrDrop` tries once more, then gives its buffer back to the
pool and counts it. In between the two tries another loop could make room; where nobody does, the
second try comes to nothing (`pushOrDrop_of_isFull`).
-/

namespace PathControl.Transport

/-- A bounded queue of frames. -/
structure FrameQueue where
  /-- What the queue is called in errors. -/
  name : String
  /-- How many frames fit. -/
  capacity : Nat
  /-- The frames, the oldest first. -/
  frames : List Buffer
  /-- Frames dropped because the queue was full, modulo 2^64. -/
  dropped : UInt64
  deriving DecidableEq, Repr

namespace FrameQueue

/-- An empty queue. It holds at least one frame. -/
def new (name : String) (capacity : Nat) : FrameQueue :=
  { name, capacity := max capacity 1, frames := [], dropped := 0 }

/-- Bytes that a place in the queue takes. -/
def slotSize : Nat := 48

/-- An empty queue, if there can be one of that capacity. -/
def allocate (name : String) (capacity : Nat) : Checked FrameQueue := do
  Checked.reserve (max capacity 1) slotSize
  return new name capacity

/-- How many frames wait. -/
def length (q : FrameQueue) : Nat := q.frames.length

/-- Whether no further frame fits. -/
def isFull (q : FrameQueue) : Bool := q.capacity ≤ q.length

/-- Appends a frame. A frame that does not fit is handed back. -/
def push (q : FrameQueue) (frame : Buffer) : FrameQueue × Option Buffer :=
  if q.isFull then (q, some frame) else ({ q with frames := q.frames ++ [frame] }, none)

/-- Appends a frame. A frame that does not fit is tried once more. If it still does not fit it is
counted, and its buffer goes back to `pool`. -/
def pushOrDrop (q : FrameQueue) (pool : Pool) (frame : Buffer) :
    FrameQueue × Pool × Except Error Unit :=
  match q.push frame with
  | (q, none) => (q, pool, .ok ())
  | (q, some frame) =>
    match q.push frame with
    | (q, none) => (q, pool, .ok ())
    | (q, some frame) =>
      ({ q with dropped := q.dropped + 1 }, pool.release frame, .error (.queueFull q.name))

/-- Takes the oldest frame. -/
def pop (q : FrameQueue) : FrameQueue × Option Buffer :=
  match q.frames with
  | [] => (q, none)
  | frame :: frames => ({ q with frames }, some frame)

/-- Takes at most `max` frames, the oldest first. -/
def popBurst (q : FrameQueue) (max : Nat) : FrameQueue × List Buffer :=
  ({ q with frames := q.frames.drop max }, q.frames.take max)

/-- A burst is the front of the queue, and the rest stays in it. -/
@[simp] theorem popBurst_frames (q : FrameQueue) (max : Nat) :
    (q.popBurst max).2 ++ (q.popBurst max).1.frames = q.frames :=
  List.take_append_drop max q.frames

/-- A frame that fits stands behind the others. -/
theorem push_of_not_isFull {q : FrameQueue} (frame : Buffer) (h : q.isFull = false) :
    q.push frame = ({ q with frames := q.frames ++ [frame] }, none) := by
  simp [push, h]

/-- A frame that does not fit is handed back, and leaves the queue as it is. -/
theorem push_of_isFull {q : FrameQueue} (frame : Buffer) (h : q.isFull = true) :
    q.push frame = (q, some frame) := by
  simp [push, h]

/-- A frame that fits at the first try needs no second one. -/
theorem pushOrDrop_of_not_isFull {q : FrameQueue} (pool : Pool) (frame : Buffer)
    (h : q.isFull = false) :
    q.pushOrDrop pool frame = ({ q with frames := q.frames ++ [frame] }, pool, .ok ()) := by
  rw [pushOrDrop, push_of_not_isFull frame h]

/-- The first try leaves the queue full, so that the second one comes to the same. -/
theorem pushOrDrop_of_isFull {q : FrameQueue} (pool : Pool) (frame : Buffer)
    (h : q.isFull = true) :
    q.pushOrDrop pool frame =
      ({ q with dropped := q.dropped + 1 }, pool.release frame, .error (.queueFull q.name)) := by
  simp only [pushOrDrop, push_of_isFull frame h]

end FrameQueue

end PathControl.Transport
