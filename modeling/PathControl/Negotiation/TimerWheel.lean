import PathControl.Fault
import PathControl.Time.Duration

/-!
# Timers

A set of single-shot timers, polled by its owner. Handles count up from 1 and are never reused.
The wheel keeps two indexes of the same timers: `byDeadline`, in order of deadline and then of
handle, and `deadlines`, by handle. Polling removes and reports every timer whose deadline has
come, in the order of the first index.
-/

namespace PathControl.Negotiation

/-- Identifies an armed timer. -/
structure TimerHandle where
  id : UInt64
  deriving DecidableEq, Repr

/-- What a timer is for. -/
inductive TimerKind where
  /-- A proposal went unanswered. -/
  | repathRetry
  /-- The window ended in which a repeated proposal counts as a duplicate. -/
  | guard
  deriving DecidableEq, Repr

/-- A timer in the order of deadlines. -/
structure TimerEntry where
  deadline : UInt64
  handle : TimerHandle
  kind : TimerKind
  deriving DecidableEq, Repr

namespace TimerEntry

/-- Whether `x` comes before `y`: by deadline, then by handle. -/
def before (x y : TimerEntry) : Bool :=
  x.deadline < y.deadline || (x.deadline == y.deadline && x.handle.id < y.handle.id)

end TimerEntry

/-- Armed timers. -/
structure TimerWheel where
  /-- The last handle number given out. -/
  lastId : UInt64
  /-- Timers in the order in which they fall due. -/
  byDeadline : List TimerEntry
  /-- Deadlines by handle. -/
  deadlines : List (TimerHandle × UInt64)
  deriving DecidableEq, Repr

namespace TimerWheel

/-- No timer. -/
def empty : TimerWheel := ⟨0, [], []⟩

/-- Puts an entry at its place among entries in order. -/
def insert (e : TimerEntry) : List TimerEntry → List TimerEntry
  | [] => [e]
  | x :: xs => if e.before x then e :: x :: xs else x :: insert e xs

/-- Arms a timer that falls due `after` from `now`, at the greatest reading if that is nearer. -/
def arm (w : TimerWheel) (now : UInt64) (kind : TimerKind) (after : Duration) :
    Checked (TimerWheel × TimerHandle) := do
  let id ← Checked.add64 w.lastId 1
  let handle : TimerHandle := ⟨id⟩
  let deadline := saturatingAdd now after.word
  return ({
    lastId := id
    byDeadline := insert { deadline, handle, kind } w.byDeadline
    deadlines := w.deadlines ++ [(handle, deadline)] }, handle)

/-- Cancels a timer. The answer is whether it was armed. -/
def cancel (w : TimerWheel) (handle : TimerHandle) : TimerWheel × Bool :=
  match w.deadlines.lookup handle with
  | none => (w, false)
  | some deadline =>
    let (gone, kept) := w.byDeadline.partition fun e =>
      e.deadline == deadline && e.handle == handle
    ({ w with byDeadline := kept, deadlines := w.deadlines.filter fun d => d.1 != handle },
      !gone.isEmpty)

/-- Whether the timer of an entry has fallen due. -/
def isDue (now : UInt64) (e : TimerEntry) : Bool := e.deadline ≤ now

/-- Removes the timers that have fallen due and reports them, oldest deadline first. -/
def pollExpired (w : TimerWheel) (now : UInt64) : TimerWheel × List (TimerHandle × TimerKind) :=
  let expired := w.byDeadline.takeWhile (isDue now)
  let fired := expired.map (·.handle)
  ({ w with
      byDeadline := w.byDeadline.dropWhile (isDue now)
      deadlines := w.deadlines.filter fun d => !fired.contains d.1 },
    expired.map fun e => (e.handle, e.kind))

/-- How many timers are armed. -/
def pending (w : TimerWheel) : Nat := w.deadlines.length

/-- Time from `now` to the next deadline, zero if that has passed. -/
def nextDeadline (w : TimerWheel) (now : UInt64) : Option Duration :=
  w.byDeadline.head?.map fun e => ⟨(saturatingSub e.deadline now).toNat⟩

end TimerWheel

end PathControl.Negotiation
