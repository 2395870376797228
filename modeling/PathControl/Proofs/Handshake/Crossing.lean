import Mathlib.Data.List.Chain
import PathControl.Proofs.Handshake.Agreement

/-!
# Proposals that cross

Both sides propose, over channels that deliver every message once, in order, and before a retry
timer falls due. A side gives up its own proposal for one of the peer, so two proposals that cross
are both adopted, each by the side that did not make it.

* `PromptExchange`: the histories over such channels.
* `seen`: the proposals that a side made or handled, in that order. At rest, a side is on the path
  of the last one (`Standing`).
* `PromptExchange.crossed_proposals_diverge`: two proposals that cross leave the sides on different
  paths.
* `PromptExchange.converges`: where both sides rest and nothing is under way, the paths agree unless
  the last proposals have crossed, and then each side is on the path of the other one's.

Each proposal under way is the next one that its receiver handles, and its number is not that of
the one before, so no guard takes it for a copy.
-/

namespace PathControl.Handshake

open PathControl.Negotiation

/-! ### Proposals sent, under way and seen -/

/-- The proposal that a message makes. -/
def Message.proposal? : Message → Option (PathId × UInt64)
  | .repath target sequence => some (target, sequence)
  | .ack _ => none

/-- The proposals among messages. -/
def proposals (messages : List Message) : List (PathId × UInt64) :=
  messages.filterMap Message.proposal?

/-- The proposals that a side has sent. -/
def proposed (side : Role) (turns : List Turn) : List (PathId × UInt64) :=
  proposals (sentBy side turns)

/-- A proposal that a side has made itself or handled. -/
inductive Seen where
  | ours (proposal : PathId × UInt64)
  | theirs (proposal : PathId × UInt64)
  deriving DecidableEq, Repr

namespace Seen

/-- The path proposed. -/
def path : Seen → PathId
  | ours q | theirs q => q.1

/-- The proposal, if it is the side's own. -/
def ours? : Seen → Option (PathId × UInt64)
  | ours q => some q
  | theirs _ => none

/-- The proposal, if it is the peer's. -/
def theirs? : Seen → Option (PathId × UInt64)
  | ours _ => none
  | theirs q => some q

end Seen

/-- What a turn handles and sends. -/
def Turn.seen (x : Turn) : List Seen :=
  x.proposal?.toList.map .theirs ++ (proposals x.messages).map .ours

/-- The proposals that turns of one side made or handled. -/
def seen (turns : List Turn) : List Seen := turns.flatMap Turn.seen

section seen

variable {turns : List Turn} {x : Turn} {side : Role} {q : PathId × UInt64}

/-- A turn adds the proposals that it handles and sends. -/
@[simp] theorem seen_concat : seen (turns ++ [x]) = seen turns ++ x.seen := by
  simp [seen]

/-- The proposals among messages in two parts are those of one part after the other. -/
@[simp] theorem proposals_append (messages messages' : List Message) :
    proposals (messages ++ messages') = proposals messages ++ proposals messages' :=
  List.filterMap_append

/-- Those of its own that a side has seen are the proposals that it sent. -/
theorem filterMap_ours_seen :
    (seen (turnsOf side turns)).filterMap Seen.ours? = proposed side turns := by
  simp [seen, Turn.seen, proposed, sentBy, proposals, List.filterMap_flatMap, Seen.ours?,
    Function.comp_def]

/-- Those of the peer that a side has seen are the proposals that it handled. -/
theorem filterMap_theirs_seen : (seen turns).filterMap Seen.theirs? = handled turns := by
  induction turns using List.reverseRecOn with
  | nil => rfl
  | append_singleton turns x ih =>
    rw [seen_concat, List.filterMap_append, ih, handled_concat]
    simp [Turn.seen, Seen.theirs?, Function.comp_def]

/-- The last of a list is the last of what is kept, if it is kept. -/
theorem getLast?_filterMap {α β : Type} {f : α → Option β} {l : List α} {a : α} {b : β}
    (hl : l.getLast? = some a) (hf : f a = some b) : (l.filterMap f).getLast? = some b := by
  obtain ⟨l, rfl⟩ := List.getLast?_eq_some_iff.1 hl
  simp [hf]

/-- What a side saw last, if it is its own, is what it proposed last. -/
theorem proposed_of_seen (h : (seen (turnsOf side turns)).getLast? = some (.ours q)) :
    (proposed side turns).getLast? = some q :=
  filterMap_ours_seen ▸ getLast?_filterMap h rfl

/-- What a side saw last, if it is the peer's, is what it handled last. -/
theorem handled_of_seen (h : (seen turns).getLast? = some (.theirs q)) :
    (handled turns).getLast? = some q :=
  filterMap_theirs_seen ▸ getLast?_filterMap h rfl

/-- A side that has seen nothing has neither handled nor sent a proposal. -/
theorem seen_eq_nil_iff : seen (turnsOf side turns) = [] ↔
    handled (turnsOf side turns) = [] ∧ proposed side turns = [] := by
  constructor
  · intro hnil
    rw [← filterMap_theirs_seen, ← filterMap_ours_seen, hnil]
    exact ⟨rfl, rfl⟩
  · rintro ⟨hhandled, hproposed⟩
    rw [← List.getLast?_eq_none_iff]
    rcases hlast : (seen (turnsOf side turns)).getLast? with _ | _ | _
    · rfl
    · have hours := proposed_of_seen hlast
      simp [hproposed] at hours
    · have htheirs := handled_of_seen hlast
      simp [hhandled] at htheirs

/-- What reaches a party from its channel is handled. -/
theorem Takes.proposals_eq {p : Party} {inbox rest : List Message}
    (h : Takes p inbox rest x.input) :
    proposals inbox = x.proposal?.toList ++ proposals rest := by
  rcases hi : x.input with _ | _ | _ | _ <;> rw [hi] at h <;> rw [Turn.proposal?, hi]
  · rw [h.2]
    rfl
  · rw [h]
    rfl
  · rw [h]
    rfl
  · rw [show rest = inbox from h]
    rfl

/-- A turn that neither handles nor sends a proposal leaves alone what a side has seen. -/
theorem seen_turnsOf_concat (h : x.seen = []) :
    seen (turnsOf side (turns ++ [x])) = seen (turnsOf side turns) := by
  by_cases hside : x.side = side
  · rw [turnsOf_concat_self hside, seen_concat, h, List.append_nil]
  · rw [turnsOf_concat_of_ne hside]

/-- Such a turn leaves the proposals under way alone as well. -/
theorem Line.proposals_after {l : Line} {rest : List Message}
    (htakes : Takes x.before (l.inbox x.side) rest x.input) (hproposal : x.proposal? = none)
    (hsent : proposals x.messages = []) :
    proposals ((l.after x rest).inbox side) = proposals (l.inbox side) := by
  rcases Role.eq_or_eq_other x.side side with rfl | rfl
  · rw [Line.inbox_after_self rfl, htakes.proposals_eq, hproposal]
    rfl
  · rw [Line.inbox_after_peer rfl, proposals_append, hsent, List.append_nil]

end seen

/-! ### Channels that are in time -/

/-- No retry timer falls due where the timers of a party are looked at. -/
def InTime (p : Party) (now : UInt64) : Input → Prop
  | .tick _ => ∀ e ∈ (p.timers.pollExpired now).2, e.2 = .guard
  | .trigger .. | .repath .. | .ack _ => True

/-- The histories over channels that deliver each message once, in order, and in time. -/
inductive PromptExchange (tuning : Role → Tuning) : List Turn → Line → Prop where
  | start : PromptExchange tuning [] ⟨fun side => .new (tuning side), fun _ => []⟩
  | turn {past : List Turn} {l : Line} {rest : List Message} (x : Turn) :
      PromptExchange tuning past l → x.before = l.parties x.side →
      Takes x.before (l.inbox x.side) rest x.input → InTime x.before x.now x.input →
      x.before.handle x.now x.input = .ok (x.after, x.actions) →
      PromptExchange tuning (past ++ [x]) (l.after x rest)

/-- The last proposals of the two sides have crossed: each side handled that of the other one after
it had sent its own. -/
def Crossed (turns : List Turn) : Prop :=
  ∀ side, ∃ q, (seen (turnsOf side turns)).getLast? = some (.theirs q)

/-- Nothing has crossed as long as a side saw its own proposal last. -/
theorem not_crossed {turns : List Turn} {q : PathId × UInt64} (side : Role)
    (h : (seen (turnsOf side turns)).getLast? = some (.ours q)) : ¬ Crossed turns := by
  intro hcrossed
  obtain ⟨q', hlast⟩ := hcrossed side
  rw [h] at hlast
  cases hlast

/-- How a party stands to the proposal that it saw last: it is on its path, or waits for its
confirmation. -/
structure Standing (initial : PathId) (last : Option Seen) (p : Party) : Prop where
  rests : p.coordinator.state = .idle → p.active.path = last.elim initial Seen.path
  waits : ∀ target sequence timer attempts,
    p.coordinator.state = .awaitingAck target sequence timer attempts →
    last = some (.ours (target, sequence))

/-- A turn that handles no copy and repeats nothing. -/
theorem Standing.turn {initial : PathId} {turns : List Turn} {x : Turn}
    (h : Standing initial (seen turns).getLast? x.before)
    (hmove : x.before.coordinator.Move x.input x.after.coordinator x.actions)
    (hpath : x.after.active.path = Party.destination x.before.active.path x.actions)
    (htick : ∀ best, x.input = .tick best → x.actions = [])
    (hnew : ∀ target sequence, x.input = .repath target sequence →
      x.before.coordinator.isDuplicate target sequence = false) :
    Standing initial (seen (turns ++ [x])).getLast? x.after := by
  rw [seen_concat]
  rcases x with ⟨side, before, now, i, actions, c, timers, active⟩
  simp only at h hmove hpath htick hnew ⊢
  cases hmove with
  | triggerIgnored _ | ackIgnored _ | quiet _ =>
    change Standing initial (seen turns ++ []).getLast? _
    rw [List.append_nil]
    exact ⟨fun hs => hpath.trans (h.rests hs), h.waits⟩
  | @begun best _ timer _ _ =>
    change Standing initial
      (seen turns ++ [Seen.ours (best, before.coordinator.nextSequence)]).getLast? _
    rw [List.getLast?_concat]
    constructor
    · intro hs
      cases hs
    · intro target sequence timer' attempts hs
      cases hs
      rfl
  | repeated hdup => simp [hnew _ _ rfl] at hdup
  | @adopted target sequence _ _ =>
    change Standing initial (seen turns ++ [Seen.theirs (target, sequence)]).getLast? _
    rw [List.getLast?_concat]
    exact ⟨fun _ => hpath, fun _ _ _ _ hs => by cases hs⟩
  | @confirmed target sequence timer attempts hs =>
    -- what was seen last is the proposal that is confirmed
    change Standing initial (seen turns ++ []).getLast? _
    rw [List.append_nil, h.waits target sequence timer attempts hs]
    exact ⟨fun _ => hpath, fun _ _ _ _ hs => by cases hs⟩
  | @resent best _ _ _ _ _ _ _ _ _ _ => cases htick best rfl
  | @abandoned best _ _ _ _ _ _ _ _ => cases htick best rfl

/-- A turn that repeats nothing proposes under the next number, if at all. -/
theorem numbered_turn {x : Turn}
    (hmove : x.before.coordinator.Move x.input x.after.coordinator x.actions)
    (htick : ∀ best, x.input = .tick best → x.actions = []) :
    x.after.coordinator.nextSequence = x.before.coordinator.nextSequence ∧
        proposals x.messages = [] ∨
      ∃ target, x.after.coordinator.nextSequence =
          Coordinator.sequenceAfter x.before.coordinator.nextSequence ∧
        proposals x.messages = [(target, x.before.coordinator.nextSequence)] := by
  rcases x with ⟨side, before, now, i, actions, c, timers, active⟩
  simp only at hmove htick ⊢
  cases hmove with
  | triggerIgnored _ | repeated _ | adopted _ _ | confirmed _ | ackIgnored _ | quiet _ =>
    exact .inl ⟨rfl, rfl⟩
  | begun _ _ _ => exact .inr ⟨_, rfl, rfl⟩
  | @resent best _ _ _ _ _ _ _ _ _ _ => cases htick best rfl
  | @abandoned best _ _ _ _ _ _ _ _ => cases htick best rfl

namespace PromptExchange

variable {tuning : Role → Tuning} {turns : List Turn} {l : Line}

/-- A history goes on with what a side makes of an input. -/
theorem next {p : Party} {actions : List Action} {rest : List Message} (side : Role)
    (now : UInt64) (i : Input) (h : PromptExchange tuning turns l)
    (htakes : Takes (l.parties side) (l.inbox side) rest i)
    (hintime : InTime (l.parties side) now i)
    (hp : (l.parties side).handle now i = .ok (p, actions)) :
    PromptExchange tuning (turns ++ [⟨side, l.parties side, now, i, actions, p⟩])
      (l.after ⟨side, l.parties side, now, i, actions, p⟩ rest) :=
  .turn _ h rfl htakes hintime hp

/-- Such a history is one over channels that may lose messages. -/
theorem fifo (h : PromptExchange tuning turns l) : FifoExchange tuning turns l := by
  induction h with
  | start => exact .start
  | turn x h hbefore htakes hintime hp ih => exact ih.turn x hbefore htakes hp

/-- The proposals of a side are those that the peer has handled and those under way to it. -/
theorem delivered (h : PromptExchange tuning turns l) (side : Role) :
    handled (turnsOf side turns) ++ proposals (l.inbox side) = proposed side.other turns := by
  induction h with
  | start => rfl
  | @turn past l rest x h hbefore htakes hintime hp ih =>
    rcases Role.eq_or_eq_other x.side side with rfl | rfl
    · rw [turnsOf_concat_self rfl, handled_concat, Line.inbox_after_self rfl, List.append_assoc,
        ← htakes.proposals_eq, ih, proposed, proposed, sentBy_concat_of_ne (Role.other_ne _).symm]
    · rw [turnsOf_concat_of_ne (Role.other_ne _).symm, Line.inbox_after_peer rfl, proposals_append,
        ← List.append_assoc, ih, Role.other_other, proposed, proposed, sentBy_concat_self rfl,
        proposals_append]

/-- If each side saw a proposal of its own last, one of the two is still under way. -/
theorem under_way (h : PromptExchange tuning turns l)
    (hours : ∀ side, ∃ q, (seen (turnsOf side turns)).getLast? = some (.ours q)) :
    ∃ side, proposals (l.inbox side) ≠ [] := by
  induction h with
  | start =>
    obtain ⟨q, hq⟩ := hours .sender
    cases hq
  | @turn past l rest x h hbefore htakes hintime hp ih =>
    rcases hsent : proposals x.messages with _ | ⟨q, others⟩
    · rcases hproposal : x.proposal? with _ | q
      · have hnothing : x.seen = [] := by
          rw [Turn.seen, hproposal, hsent]
          rfl
        simp only [seen_turnsOf_concat hnothing] at hours
        obtain ⟨side, hside⟩ := ih hours
        refine ⟨side, ?_⟩
        rwa [Line.proposals_after htakes hproposal hsent]
      · -- a proposal of the peer is what this side saw last
        obtain ⟨q', hq'⟩ := hours x.side
        rw [turnsOf_concat_self rfl, seen_concat, Turn.seen, hproposal, hsent] at hq'
        simp at hq'
    · refine ⟨x.side.other, ?_⟩
      rw [Line.inbox_after_peer rfl, proposals_append, hsent]
      simp

/-- A look at the timers that comes in time asks for nothing. -/
theorem actions_of_tick {past : List Turn} {x : Turn} (h : PromptExchange tuning past l)
    (hbefore : x.before = l.parties x.side) (hintime : InTime x.before x.now x.input)
    (hp : x.before.handle x.now x.input = .ok (x.after, x.actions)) {best : PathId}
    (hi : x.input = .tick best) : x.actions = [] := by
  obtain ⟨hex, -⟩ := h.fifo.exchange
  have hcoupled := (hex.run x.side).coupled
  rw [← hbefore] at hcoupled
  rw [hi] at hintime hp
  obtain ⟨-, deeds, hactions, hhanded⟩ :=
    (hcoupled.pollExpired x.now).onTimers (Coordinator.handle_tick.1 (Party.handle_eq_ok hp).1)
  obtain ⟨-, rfl, -⟩ := hhanded.of_guards (List.forall_mem_map.2 hintime)
  exact hactions

/-- The numbers that a side has proposed, and the next one, follow each other. -/
theorem numbered (h : PromptExchange tuning turns l) (side : Role) :
    ((proposed side turns).map Prod.snd ++ [(l.parties side).coordinator.nextSequence]).IsChain
      fun s s' => s' = Coordinator.sequenceAfter s := by
  induction h with
  | start => exact .singleton _
  | @turn past l rest x h hbefore htakes hintime hp ih =>
    by_cases hside : x.side = side
    · obtain ⟨hex, -⟩ := (h.turn x hbefore htakes hintime hp).fifo.exchange
      obtain ⟨hmove, -⟩ := hex.move List.mem_concat_self
      rw [proposed, sentBy_concat_self hside, proposals_append, Line.parties_after_self hside,
        ← proposed]
      rw [← hside, ← hbefore, hside] at ih
      rcases numbered_turn hmove fun best => h.actions_of_tick hbefore hintime hp with
        ⟨hnext, hsent⟩ | ⟨target, hnext, hsent⟩ <;> rw [hnext, hsent]
      · rwa [List.append_nil]
      · rw [List.map_append, List.append_assoc]
        refine List.isChain_append_cons_cons.2 ⟨ih, rfl, .singleton _⟩
    · rw [proposed, sentBy_concat_of_ne hside, Line.parties_after_of_ne (Ne.symm hside), ← proposed]
      exact ih

/-- No guard takes a proposal for a copy. -/
theorem isDuplicate_eq_false (h : PromptExchange tuning turns l) {side : Role} {rest : List Message}
    {target : PathId} {sequence : UInt64}
    (hbox : l.inbox side = .repath target sequence :: rest) :
    (l.parties side).coordinator.isDuplicate target sequence = false := by
  by_contra hdup
  rw [Bool.not_eq_false] at hdup
  obtain ⟨g, hg, hmatch⟩ := Option.any_eq_true _ _ |>.1 hdup
  simp only [Bool.and_eq_true, beq_iff_eq] at hmatch
  obtain ⟨rfl, rfl⟩ := hmatch
  obtain ⟨hex, -⟩ := h.fifo.exchange
  obtain ⟨older, hhandled⟩ := List.getLast?_eq_some_iff.1 (hex.guarded hg)
  -- the copy would be the next proposal after the one that the guard is for
  have hproposed : proposed side.other turns =
      older ++ (g.target, g.sequence) :: (g.target, g.sequence) :: proposals rest := by
    rw [← h.delivered side, hhandled, hbox, List.append_assoc]
    rfl
  have hnumbered := h.numbered side.other
  rw [hproposed, List.map_append, List.append_assoc] at hnumbered
  obtain ⟨-, hnext, -⟩ := List.isChain_append_cons_cons.1 hnumbered
  exact Coordinator.sequenceAfter_ne g.sequence hnext.symm

/-- A side at rest is on the path of the proposal that it saw last; where it waits for a
confirmation, that is the proposal that it saw last. -/
theorem standing (h : PromptExchange tuning turns l) (side : Role) :
    Standing (tuning side).initialPath (seen (turnsOf side turns)).getLast? (l.parties side) := by
  induction h with
  | start => exact ⟨fun _ => rfl, fun _ _ _ _ hs => by cases hs⟩
  | @turn past l rest x h hbefore htakes hintime hp ih =>
    by_cases hside : x.side = side
    · obtain ⟨hex, -⟩ := (h.turn x hbefore htakes hintime hp).fifo.exchange
      obtain ⟨hmove, hpath⟩ := hex.move List.mem_concat_self
      rw [turnsOf_concat_self hside, Line.parties_after_self hside]
      rw [← hside, ← hbefore, hside] at ih
      refine ih.turn hmove hpath (fun best => h.actions_of_tick hbefore hintime hp) ?_
      intro target sequence hi
      rw [hi] at htakes
      rw [hbefore]
      exact h.isDuplicate_eq_false htakes
    · rw [turnsOf_concat_of_ne hside, Line.parties_after_of_ne (Ne.symm hside)]
      exact ih

/-- A side that nothing is under way to has handled all that the other one proposed. -/
theorem handled_eq (h : PromptExchange tuning turns l) {side : Role} (hempty : l.inbox side = []) :
    handled (turnsOf side turns) = proposed side.other turns := by
  rw [← h.delivered side, hempty]
  exact (List.append_nil _).symm

/-- **Two proposals that cross are adopted on the wrong sides.** Both sides start on the same path
and are triggered before a message arrives. All messages are delivered, in order and in time, and
the sides rest on different paths. -/
theorem crossed_proposals_diverge : ∃ turns l,
    PromptExchange (fun _ => .standard) turns l ∧
      (∀ side, (l.parties side).coordinator.state = .idle) ∧ (∀ side, l.inbox side = []) ∧
      (l.parties .sender).active.path ≠ (l.parties .receiver).active.path := by
  have ours : PromptExchange (fun _ => .standard) _ _ :=
    .next .sender 0 (.trigger ⟨⟨1, by decide⟩⟩ .first) .start ⟨rfl, rfl⟩ trivial rfl
  have theirs := ours.next .receiver 0 (.trigger ⟨⟨2, by decide⟩⟩ .first) ⟨rfl, rfl⟩ trivial rfl
  have crossed := theirs.next .receiver 1 (.repath ⟨⟨1, by decide⟩⟩ 1) rfl trivial rfl
  have crossed' := crossed.next .sender 1 (.repath ⟨⟨2, by decide⟩⟩ 1) rfl trivial rfl
  have ignored := crossed'.next .sender 2 (.ack 1) rfl trivial rfl
  have h := ignored.next .receiver 2 (.ack 1) rfl trivial rfl
  exact ⟨_, _, h, by rintro (_ | _) <;> rfl, by rintro (_ | _) <;> rfl, by decide⟩

/-- A side at rest is on the path of the proposal that it saw last. -/
theorem path_eq (h : PromptExchange tuning turns l) {side : Role} {last : Option Seen}
    (hidle : (l.parties side).coordinator.state = .idle)
    (hlast : (seen (turnsOf side turns)).getLast? = last) :
    (l.parties side).active.path = last.elim (tuning side).initialPath Seen.path := by
  rw [← hlast]
  exact (h.standing side).rests hidle

/-- A side that saw no proposal of the peer last, or none at all, agrees with the peer. -/
theorem path_eq_path_other (h : PromptExchange tuning turns l)
    (same : ∀ side, (tuning side).initialPath = (tuning side.other).initialPath)
    (hidle : ∀ side, (l.parties side).coordinator.state = .idle)
    (hempty : ∀ side, l.inbox side = []) {side : Role}
    (hside : ∀ q, (seen (turnsOf side turns)).getLast? ≠ some (.theirs q)) :
    (l.parties side).active.path = (l.parties side.other).active.path := by
  have hpeer : handled (turnsOf side.other turns) = proposed side turns := by
    rw [h.handled_eq (hempty side.other), Role.other_other]
  rcases hlast : (seen (turnsOf side turns)).getLast? with _ | q | q
  · -- nobody has proposed anything
    obtain ⟨hhandled, hproposed⟩ := seen_eq_nil_iff.1 (List.getLast?_eq_none_iff.1 hlast)
    have hnone : (seen (turnsOf side.other turns)).getLast? = none := by
      rw [List.getLast?_eq_none_iff, seen_eq_nil_iff, hpeer, ← h.handled_eq (hempty side)]
      exact ⟨hproposed, hhandled⟩
    rw [h.path_eq (hidle side) hlast, h.path_eq (hidle side.other) hnone]
    exact same side
  · have hq : (handled (turnsOf side.other turns)).getLast? = some q := by
      rw [hpeer]
      exact proposed_of_seen hlast
    rw [h.path_eq (hidle side) hlast]
    rcases hother : (seen (turnsOf side.other turns)).getLast? with _ | q' | q'
    · obtain ⟨hnil, -⟩ := seen_eq_nil_iff.1 (List.getLast?_eq_none_iff.1 hother)
      simp [hnil] at hq
    · -- then one of the two proposals would be under way
      obtain ⟨side', hbox⟩ := h.under_way fun side' => by
        rcases Role.eq_or_eq_other side side' with rfl | rfl
        · exact ⟨q, hlast⟩
        · exact ⟨q', hother⟩
      rw [hempty side'] at hbox
      exact absurd rfl hbox
    · obtain rfl := Option.some.inj (hq.symm.trans (handled_of_seen hother))
      exact (h.path_eq (hidle side.other) hother).symm
  · exact absurd hlast (hside q)

/-- **Proposals converge unless the last ones cross.** Both sides start on the same path, and the
channels deliver every message once, in order and in time. Wherever both sides rest and nothing is
under way, their paths are equal unless the last proposals have crossed, each handled by a side that
had sent its own before: then each side is on the path that the other one proposed last. -/
theorem converges (h : PromptExchange tuning turns l)
    (same : (tuning .sender).initialPath = (tuning .receiver).initialPath)
    (hidle : ∀ side, (l.parties side).coordinator.state = .idle)
    (hempty : ∀ side, l.inbox side = []) :
    (¬ Crossed turns → (l.parties .sender).active.path = (l.parties .receiver).active.path) ∧
      (Crossed turns → ∀ side, ∃ q, (proposed side.other turns).getLast? = some q ∧
        (l.parties side).active.path = q.1) := by
  constructor
  · intro huncrossed
    obtain ⟨side, hside⟩ := not_forall.1 huncrossed
    have hsame : ∀ side, (tuning side).initialPath = (tuning side.other).initialPath := by
      rintro (_ | _)
      · exact same
      · exact same.symm
    have hagree := h.path_eq_path_other hsame hidle hempty (not_exists.1 hside)
    cases side with
    | sender => exact hagree
    | receiver => exact hagree.symm
  · intro hcrossed side
    obtain ⟨q, hlast⟩ := hcrossed side
    refine ⟨q, ?_, h.path_eq (hidle side) hlast⟩
    rw [← h.handled_eq (hempty side)]
    exact handled_of_seen hlast

/-- Two proposals cross, and a later one takes both sides to its path. -/
theorem later_proposal_converges : ∃ past turns l,
    PromptExchange (fun _ => .standard) turns l ∧ past <+: turns ∧ Crossed past ∧ ¬ Crossed turns ∧
      (∀ side, (l.parties side).coordinator.state = .idle) ∧ (∀ side, l.inbox side = []) ∧
      (l.parties .sender).active.path = (l.parties .receiver).active.path ∧
      (l.parties .receiver).active.path = ⟨⟨3, by decide⟩⟩ := by
  have ours : PromptExchange (fun _ => .standard) _ _ :=
    .next .sender 0 (.trigger ⟨⟨1, by decide⟩⟩ .first) .start ⟨rfl, rfl⟩ trivial rfl
  have theirs := ours.next .receiver 0 (.trigger ⟨⟨2, by decide⟩⟩ .first) ⟨rfl, rfl⟩ trivial rfl
  have crossed := theirs.next .receiver 1 (.repath ⟨⟨1, by decide⟩⟩ 1) rfl trivial rfl
  have crossed' := crossed.next .sender 1 (.repath ⟨⟨2, by decide⟩⟩ 1) rfl trivial rfl
  have ignored := crossed'.next .sender 2 (.ack 1) rfl trivial rfl
  have ignored' := ignored.next .receiver 2 (.ack 1) rfl trivial rfl
  have proposed := ignored'.next .receiver 3 (.trigger ⟨⟨3, by decide⟩⟩ ⟨⟨1, by decide⟩⟩)
    ⟨rfl, rfl⟩ trivial rfl
  have adopted := proposed.next .sender 4 (.repath ⟨⟨3, by decide⟩⟩ 2) rfl trivial rfl
  have h := adopted.next .receiver 5 (.ack 2) rfl trivial rfl
  obtain ⟨hagree, -⟩ := h.converges rfl (by rintro (_ | _) <;> rfl) (by rintro (_ | _) <;> rfl)
  exact ⟨[_, _, _, _], _, _, h, ⟨[_, _, _, _, _], rfl⟩, by rintro (_ | _) <;> exact ⟨_, rfl⟩,
    not_crossed .receiver rfl, by rintro (_ | _) <;> rfl, by rintro (_ | _) <;> rfl,
    hagree (not_crossed .receiver rfl), rfl⟩

end PromptExchange

end PathControl.Handshake
