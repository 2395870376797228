import PathControl.Negotiation.TimerWheel
import PathControl.Path

/-!
# Negotiations

One side proposes a path and repeats the proposal until the peer confirms it or the retries are
used up; the other side adopts what is proposed to it. At most one negotiation is outstanding. A
proposal of the peer supersedes our own, and for a while after it has been adopted, a guard makes
its copies answered but not applied again.

Every operation takes the timer wheel that the coordinator arms its timers on, the clock reading,
and the event; it returns the actions that the event asks for, in order.
-/

namespace PathControl.Negotiation

/-- The negotiation in progress, if any. -/
inductive NegotiationState where
  | idle
  /-- A proposal is out. `attempts` counts its transmissions, the first included. -/
  | awaitingAck (target : PathId) (sequence : UInt64) (timer : TimerHandle) (attempts : UInt32)
  deriving DecidableEq, Repr

/-- What a coordinator asks for. -/
inductive Action where
  /-- Propose `target`, on path `via`. Attempt 1 is the first transmission. -/
  | sendRepath (target via : PathId) (sequence : UInt64) (attempt : UInt32)
  /-- Confirm the proposal `ack`, on path `via`. -/
  | sendRepathAck (via : PathId) (ack : UInt64)
  /-- Our proposal was confirmed; its path is now the active one. -/
  | committed (path : PathId)
  /-- The peer's proposal was taken; its path is now best and active. -/
  | adopted (path : PathId)
  /-- The retries are used up; nothing changed. -/
  | abandoned (target : PathId) (attempts : UInt32)
  deriving DecidableEq, Repr

/-- The proposal adopted last, while its copies count as duplicates. -/
structure Guard where
  target : PathId
  sequence : UInt64
  timer : TimerHandle
  deriving DecidableEq, Repr

/-- State and parameters of the negotiations of one endpoint. -/
structure Coordinator where
  state : NegotiationState
  guard : Option Guard
  /-- The sequence number of the next negotiation. -/
  nextSequence : UInt64
  /-- Time to wait for a confirmation before the next transmission. -/
  timeout : Duration
  /-- How long copies of an adopted proposal count as duplicates. -/
  guardInterval : Duration
  /-- Transmissions after the first one before a negotiation is abandoned. -/
  maxRetries : UInt32
  deriving DecidableEq, Repr

/-- What an event leaves behind. -/
structure Outcome where
  coordinator : Coordinator
  timers : TimerWheel
  actions : List Action
  deriving DecidableEq, Repr

namespace Coordinator

/-- No negotiation so far. -/
def new (timeout guardInterval : Duration) (maxRetries : UInt32) : Coordinator :=
  { state := .idle, guard := none, nextSequence := 1, timeout, guardInterval, maxRetries }

/-- Whether no negotiation is outstanding. -/
def isIdle (c : Coordinator) : Bool :=
  match c.state with
  | .idle => true
  | .awaitingAck .. => false

/-- The path proposed by the outstanding negotiation. -/
def outstanding (c : Coordinator) : Option PathId :=
  match c.state with
  | .idle => none
  | .awaitingAck target .. => some target

/-- The sequence number after `s`. Zero is skipped when the numbers wrap around. -/
def sequenceAfter (s : UInt64) : UInt64 := max (s + 1) 1

/-- The delay trigger asks for a switch. Ignored while a negotiation is outstanding, and when the
best path is the active one. -/
def onTrigger (c : Coordinator) (timers : TimerWheel) (now : UInt64) (best active : PathId) :
    Checked Outcome :=
  match c.state with
  | .awaitingAck .. => .ok ⟨c, timers, []⟩
  | .idle =>
    if best = active then .ok ⟨c, timers, []⟩
    else do
      let sequence := c.nextSequence
      let (timers, timer) ← timers.arm now .repathRetry c.timeout
      let c := { c with
        nextSequence := sequenceAfter sequence
        state := .awaitingAck best sequence timer 1 }
      return ⟨c, timers, [.sendRepath best best sequence 1]⟩

/-- Whether a proposal is a copy of the one adopted last. -/
def isDuplicate (c : Coordinator) (target : PathId) (sequence : UInt64) : Bool :=
  c.guard.any fun g => g.target == target && g.sequence == sequence

/-- Gives up our own negotiation, if any, without a word. -/
def supersede (c : Coordinator) (timers : TimerWheel) : Coordinator × TimerWheel :=
  match c.state with
  | .awaitingAck _ _ timer _ => ({ c with state := .idle }, (timers.cancel timer).1)
  | .idle => (c, timers)

/-- The timers without that of the guard. -/
def dropGuard (c : Coordinator) (timers : TimerWheel) : TimerWheel :=
  match c.guard with
  | some g => (timers.cancel g.timer).1
  | none => timers

/-- The peer proposes a path. -/
def onRepath (c : Coordinator) (timers : TimerWheel) (now : UInt64) (target : PathId)
    (sequence : UInt64) : Checked Outcome :=
  let ack := Action.sendRepathAck target sequence
  if c.isDuplicate target sequence then .ok ⟨c, timers, [ack]⟩
  else do
    let (c, timers) := c.supersede timers
    let (timers, timer) ← (c.dropGuard timers).arm now .guard c.guardInterval
    return ⟨{ c with guard := some ⟨target, sequence, timer⟩ }, timers, [.adopted target, ack]⟩

/-- The peer confirms a proposal. Ignored unless it is the outstanding one. -/
def onRepathAck (c : Coordinator) (timers : TimerWheel) (ack : UInt64) : Outcome :=
  match c.state with
  | .awaitingAck target sequence timer _ =>
    if sequence = ack then
      ⟨{ c with state := .idle }, (timers.cancel timer).1, [.committed target]⟩
    else ⟨c, timers, []⟩
  | .idle => ⟨c, timers, []⟩

/-- The retry timer `handle` fired. A repeated proposal keeps its target but rides the path that
is best by now. -/
def onRetryTimer (c : Coordinator) (timers : TimerWheel) (now : UInt64) (handle : TimerHandle)
    (best : PathId) : Checked Outcome :=
  match c.state with
  | .idle => .ok ⟨c, timers, []⟩
  | .awaitingAck target sequence timer attempts =>
    if timer ≠ handle then .ok ⟨c, timers, []⟩
    else if c.maxRetries < attempts then
      .ok ⟨{ c with state := .idle }, timers, [.abandoned target attempts]⟩
    else do
      let attempt ← Checked.add32 attempts 1
      let (timers, timer) ← timers.arm now .repathRetry c.timeout
      return ⟨{ c with state := .awaitingAck target sequence timer attempt }, timers,
        [.sendRepath target best sequence attempt]⟩

/-- A timer fired. -/
def onTimer (c : Coordinator) (timers : TimerWheel) (now : UInt64) (handle : TimerHandle)
    (kind : TimerKind) (best : PathId) : Checked Outcome :=
  match kind with
  | .guard =>
    if c.guard.any fun g => g.timer == handle then .ok ⟨{ c with guard := none }, timers, []⟩
    else .ok ⟨c, timers, []⟩
  | .repathRetry => c.onRetryTimer timers now handle best

/-- Timers fired, in this order. -/
def onTimers (c : Coordinator) (timers : TimerWheel) (now : UInt64) (best : PathId) :
    List (TimerHandle × TimerKind) → Checked Outcome
  | [] => .ok ⟨c, timers, []⟩
  | (handle, kind) :: fired => do
    let first ← c.onTimer timers now handle kind best
    let rest ← first.coordinator.onTimers first.timers now best fired
    return { rest with actions := first.actions ++ rest.actions }

/-- Looks at the timers and handles those that have fallen due. The answer lists them. -/
def tick (c : Coordinator) (timers : TimerWheel) (now : UInt64) (best : PathId) :
    Checked (Outcome × List (TimerHandle × TimerKind)) := do
  let (timers, fired) := timers.pollExpired now
  return (← c.onTimers timers now best fired, fired)

end Coordinator

end PathControl.Negotiation
