import PathControl.Endpoint.ActivePath
import PathControl.Proofs.Negotiation.Lifecycle
import PathControl.Settings.Basic

/-!
# Two parties to the handshake

A *party* is a coordinator with its timers and the active path that its decisions move. Two of
them exchange proposals and confirmations; what happens to either is a *turn*, and a history is a
list of turns.

* `Party.handle`: an input at a party. `Party.handle_eq_ok` tells what it does: the input of the
  coordinator, and a switch to the path that was committed or adopted.
* `Turn.messages`, `sentBy`: what a turn, and a side in a history, sends to the peer.
* `recordsOf`: the history of a side as its coordinator records it.
-/

namespace PathControl

/-- The peer of a side. -/
def Role.other : Role → Role
  | .sender => .receiver
  | .receiver => .sender

/-- The peer of the peer is the side itself. -/
@[simp] theorem Role.other_other (r : Role) : r.other.other = r := by
  cases r <;> rfl

/-- No side is its own peer. -/
@[simp] theorem Role.other_ne (r : Role) : r.other ≠ r := by
  cases r <;> simp [Role.other]

/-- There are two sides. -/
theorem Role.eq_or_eq_other (r side : Role) : side = r ∨ side = r.other := by
  cases r <;> cases side <;> simp [Role.other]

end PathControl

namespace PathControl.Handshake

open PathControl.Endpoint
open PathControl.Negotiation

/-- What an endpoint keeps for its negotiations. -/
structure Party where
  coordinator : Coordinator
  timers : TimerWheel
  active : ActivePath
  deriving DecidableEq, Repr

namespace Party

/-- No negotiation so far. -/
def new (t : Tuning) : Party where
  coordinator := .new t.repathTimeout t.repathGuard t.maxRetries
  timers := .empty
  active := .new t.initialPath

/-- Moves the active path as actions say. -/
def follow (active : ActivePath) (now : UInt64) : List Action → Checked ActivePath
  | [] => .ok active
  | .committed path :: actions | .adopted path :: actions => do
    let (active, _) ← active.moveTo path now
    follow active now actions
  | .sendRepath .. :: actions | .sendRepathAck .. :: actions | .abandoned .. :: actions =>
    follow active now actions

/-- Takes an input at a clock reading. -/
def handle (p : Party) (now : UInt64) (i : Input) : Checked (Party × List Action) := do
  let o ← p.coordinator.handle p.timers now i
  let active ← follow p.active now o.actions
  return (⟨o.coordinator, o.timers, active⟩, o.actions)

/-- The path that actions lead to from a path. -/
def destination (path : PathId) : List Action → PathId
  | [] => path
  | .committed next :: actions | .adopted next :: actions => destination next actions
  | .sendRepath .. :: actions | .sendRepathAck .. :: actions | .abandoned .. :: actions =>
    destination path actions

/-- The path moved to is the active one, whether or not it was before. -/
theorem path_of_moveTo {a a' : ActivePath} {path : PathId} {now : UInt64} {left : Option PathId}
    (h : a.moveTo path now = .ok (a', left)) : a'.path = path := by
  unfold ActivePath.moveTo at h
  split at h
  · next he =>
    cases h
    exact he
  · obtain ⟨switches, -, h⟩ := Checked.bind_eq_ok_iff.1 h
    cases h
    rfl

/-- Following actions ends on the path that they lead to. -/
theorem path_of_follow {now : UInt64} {actions : List Action} {a a' : ActivePath}
    (h : follow a now actions = .ok a') : a'.path = destination a.path actions := by
  induction actions generalizing a with
  | nil =>
    cases h
    rfl
  | cons action actions ih =>
    cases action with
    | committed path | adopted path =>
      obtain ⟨⟨a₁, left⟩, hmove, h⟩ := Checked.bind_eq_ok_iff.1 h
      rw [destination, ih h, path_of_moveTo hmove]
    | sendRepath | sendRepathAck | abandoned => exact ih h

variable {p p' : Party} {now : UInt64} {i : Input} {actions : List Action}

/-- What an input at a party does. -/
theorem handle_eq_ok (h : p.handle now i = .ok (p', actions)) :
    p.coordinator.handle p.timers now i = .ok ⟨p'.coordinator, p'.timers, actions⟩ ∧
      p'.active.path = destination p.active.path actions := by
  obtain ⟨o, ho, h⟩ := Checked.bind_eq_ok_iff.1 h
  obtain ⟨a, ha, h⟩ := Checked.bind_eq_ok_iff.1 h
  cases h
  exact ⟨ho, path_of_follow ha⟩

end Party

/-! ### Messages and turns -/

/-- What the parties send each other. -/
inductive Message where
  | repath (target : PathId) (sequence : UInt64)
  | ack (sequence : UInt64)
  deriving DecidableEq, Repr

/-- The message that an action sends. -/
def message? : Action → Option Message
  | .sendRepath target _ sequence _ => some (.repath target sequence)
  | .sendRepathAck _ sequence => some (.ack sequence)
  | .committed _ | .adopted _ | .abandoned .. => none

/-- Only a transmission of a proposal sends the proposal. -/
theorem message?_eq_repath_iff {a : Action} {target : PathId} {sequence : UInt64} :
    message? a = some (.repath target sequence) ↔
      ∃ via attempt, a = .sendRepath target via sequence attempt := by
  cases a <;> simp [message?]

/-- Only an answer to the peer sends a confirmation. -/
theorem message?_eq_ack_iff {a : Action} {sequence : UInt64} :
    message? a = some (.ack sequence) ↔ ∃ via, a = .sendRepathAck via sequence := by
  cases a <;> simp [message?]

/-- An input at one of the parties. -/
structure Turn where
  side : Role
  before : Party
  now : UInt64
  input : Input
  actions : List Action
  after : Party
  deriving DecidableEq, Repr

namespace Turn

/-- The messages sent. -/
def messages (x : Turn) : List Message := x.actions.filterMap message?

/-- What the coordinator records. -/
def record (x : Turn) : Negotiation.Record :=
  ⟨x.now, x.before.coordinator.state, x.input, x.actions⟩

/-- Whether the active path changed. -/
def switches (x : Turn) : Bool := x.before.active.path != x.after.active.path

end Turn

/-- The turns of one side. -/
def turnsOf (side : Role) (turns : List Turn) : List Turn := turns.filter fun x => x.side = side

/-- What the coordinator of a side records. -/
def recordsOf (side : Role) (turns : List Turn) : List Negotiation.Record :=
  (turnsOf side turns).map Turn.record

/-- The messages that a side has sent. -/
def sentBy (side : Role) (turns : List Turn) : List Message :=
  (turnsOf side turns).flatMap Turn.messages

section turns

variable {side : Role} {turns past rest : List Turn} {x : Turn}

/-- The turns of a side are those of the history that it took. -/
theorem mem_turnsOf : x ∈ turnsOf side turns ↔ x ∈ turns ∧ x.side = side := by
  simp [turnsOf]

/-- The turns of a side go on with its turns of the rest. -/
theorem turnsOf_append : turnsOf side (past ++ rest) = turnsOf side past ++ turnsOf side rest :=
  List.filter_append ..

/-- A turn of the side itself comes last among its turns. -/
theorem turnsOf_concat_self (h : x.side = side) :
    turnsOf side (turns ++ [x]) = turnsOf side turns ++ [x] := by
  rw [turnsOf_append, turnsOf, turnsOf, List.filter_singleton, h]
  simp

/-- A turn of the peer is none of the side's. -/
theorem turnsOf_concat_of_ne (h : x.side ≠ side) :
    turnsOf side (turns ++ [x]) = turnsOf side turns := by
  rw [turnsOf_append, turnsOf, turnsOf, List.filter_singleton]
  simp [h]

/-- The records of a side go on with its records of the rest. -/
theorem recordsOf_append :
    recordsOf side (past ++ rest) = recordsOf side past ++ recordsOf side rest := by
  rw [recordsOf, turnsOf_append, List.map_append]
  rfl

/-- What a side has sent goes on with what it sends in the rest. -/
theorem sentBy_append : sentBy side (past ++ rest) = sentBy side past ++ sentBy side rest := by
  rw [sentBy, turnsOf_append, List.flatMap_append]
  rfl

/-- What was sent stays sent. -/
theorem sentBy_subset_append : sentBy side past ⊆ sentBy side (past ++ rest) := by
  rw [sentBy_append]
  exact List.subset_append_left ..

/-- Negotiations begun stay begun, whatever follows. -/
theorem begun_recordsOf_le :
    begun (recordsOf side past) ≤ begun (recordsOf side (past ++ rest)) := by
  rw [recordsOf_append]
  exact begun_le_append ..

/-- A turn of the side is recorded last. -/
theorem recordsOf_concat_self (h : x.side = side) :
    recordsOf side (turns ++ [x]) = recordsOf side turns ++ [x.record] := by
  rw [recordsOf, turnsOf_concat_self h, List.map_append]
  rfl

/-- A turn of the peer leaves the records of the side alone. -/
theorem recordsOf_concat_of_ne (h : x.side ≠ side) :
    recordsOf side (turns ++ [x]) = recordsOf side turns := by
  rw [recordsOf, turnsOf_concat_of_ne h]
  rfl

/-- What a turn of the side sends comes after all that the side has sent. -/
theorem sentBy_concat_self (h : x.side = side) :
    sentBy side (turns ++ [x]) = sentBy side turns ++ x.messages := by
  rw [sentBy, turnsOf_concat_self h, List.flatMap_append, List.flatMap_singleton]
  rfl

/-- A turn of the peer sends nothing for the side. -/
theorem sentBy_concat_of_ne (h : x.side ≠ side) :
    sentBy side (turns ++ [x]) = sentBy side turns := by
  rw [sentBy, turnsOf_concat_of_ne h]
  rfl

/-- A record of a side is that of one of its turns. -/
theorem mem_recordsOf {r : Negotiation.Record} :
    r ∈ recordsOf side turns ↔ ∃ x ∈ turns, x.side = side ∧ x.record = r := by
  simp [recordsOf, mem_turnsOf, and_assoc]

/-- What a side has sent, an action of its coordinator sent. -/
theorem mem_sentBy {m : Message} :
    m ∈ sentBy side turns ↔ ∃ r ∈ recordsOf side turns, ∃ a ∈ r.actions, message? a = some m := by
  simp only [sentBy, recordsOf, List.mem_flatMap, Turn.messages, List.mem_filterMap, List.mem_map,
    exists_exists_and_eq_and]
  rfl

/-- A proposal that was sent is an action of a turn. -/
theorem repath_mem_sentBy {target : PathId} {sequence : UInt64} :
    .repath target sequence ∈ sentBy side turns ↔ ∃ r ∈ recordsOf side turns,
      ∃ via attempt, .sendRepath target via sequence attempt ∈ r.actions := by
  simp only [mem_sentBy, message?_eq_repath_iff]
  exact exists_congr fun r => and_congr_right fun _ =>
    ⟨fun ⟨a, ha, via, attempt, h⟩ => ⟨via, attempt, h ▸ ha⟩,
      fun ⟨via, attempt, ha⟩ => ⟨_, ha, via, attempt, rfl⟩⟩

/-- A confirmation that was sent is an action of a turn. -/
theorem ack_mem_sentBy {sequence : UInt64} :
    .ack sequence ∈ sentBy side turns ↔ ∃ r ∈ recordsOf side turns,
      ∃ via, .sendRepathAck via sequence ∈ r.actions := by
  simp only [mem_sentBy, message?_eq_ack_iff]
  exact exists_congr fun r => and_congr_right fun _ =>
    ⟨fun ⟨a, ha, via, h⟩ => ⟨via, h ▸ ha⟩, fun ⟨via, ha⟩ => ⟨_, ha, via, rfl⟩⟩

end turns

end PathControl.Handshake
