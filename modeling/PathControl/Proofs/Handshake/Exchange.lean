import Mathlib.Logic.Function.Basic
import PathControl.Proofs.Handshake.Party

/-!
# Networks between the two parties

Either party is triggered, looks at its timers and gets messages at any clock readings. The two
networks differ in what they deliver.

* `Exchange`: any message that was sent, at any time, in any order, again or never.
* `FifoExchange`: the messages of a direction in the order in which they were sent, without those
  that were lost. `FifoExchange.exchange`: it is a case of the first.
* `Exchange.split`: what led to a turn of a history. `Exchange.run`: each side of a history is a
  run of its coordinator.
-/

namespace PathControl.Handshake

open PathControl.Negotiation

/-- What can reach a party from a network that delivers what was sent. -/
def Reaches (p : Party) (sent : List Message) : Input → Prop
  | .trigger _ active => active = p.active.path
  | .repath target sequence => .repath target sequence ∈ sent
  | .ack sequence => .ack sequence ∈ sent
  | .tick _ => True

/-- What reaches a party still does when more was sent. -/
theorem Reaches.mono {p : Party} {sent sent' : List Message} {i : Input} (h : Reaches p sent i)
    (hsub : sent ⊆ sent') : Reaches p sent' i := by
  cases i with
  | trigger | tick => exact h
  | repath | ack => exact hsub h

instance (p : Party) (sent : List Message) : (i : Input) → Decidable (Reaches p sent i)
  | .trigger _ active => inferInstanceAs (Decidable (active = p.active.path))
  | .repath target sequence => inferInstanceAs (Decidable (.repath target sequence ∈ sent))
  | .ack sequence => inferInstanceAs (Decidable (.ack sequence ∈ sent))
  | .tick _ => inferInstanceAs (Decidable True)

/-- The histories over a network that does not forge messages. -/
inductive Exchange (tuning : Role → Tuning) : List Turn → (Role → Party) → Prop where
  | start : Exchange tuning [] fun side => .new (tuning side)
  | turn {past : List Turn} {parties : Role → Party} (x : Turn) :
      Exchange tuning past parties → x.before = parties x.side →
      Reaches x.before (sentBy x.side.other past) x.input →
      x.before.handle x.now x.input = .ok (x.after, x.actions) →
      Exchange tuning (past ++ [x]) (Function.update parties x.side x.after)

namespace Exchange

variable {tuning : Role → Tuning} {turns : List Turn} {parties : Role → Party}

/-- A history goes on with what a side makes of an input. -/
theorem next {p : Party} {actions : List Action} (side : Role) (now : UInt64) (i : Input)
    (h : Exchange tuning turns parties)
    (hreach : Reaches (parties side) (sentBy side.other turns) i)
    (hp : (parties side).handle now i = .ok (p, actions)) :
    Exchange tuning (turns ++ [⟨side, parties side, now, i, actions, p⟩])
      (Function.update parties side p) :=
  .turn _ h rfl hreach hp

/-- What led to a turn. -/
theorem split (h : Exchange tuning turns parties) {past rest : List Turn} {x : Turn}
    (hsplit : turns = past ++ x :: rest) :
    ∃ parties, Exchange tuning past parties ∧ x.before = parties x.side ∧
      Reaches x.before (sentBy x.side.other past) x.input ∧
      x.before.handle x.now x.input = .ok (x.after, x.actions) := by
  induction h generalizing rest with
  | start => simp at hsplit
  | @turn past' parties y h hbefore hreach hp ih =>
    rcases rest.eq_nil_or_concat' with rfl | ⟨rest, last, rfl⟩
    · obtain ⟨rfl, hx⟩ := List.append_inj' hsplit rfl
      obtain rfl := (List.cons.inj hx).1
      exact ⟨parties, h, hbefore, hreach, hp⟩
    · rw [← List.cons_append, ← List.append_assoc] at hsplit
      exact ih (List.append_inj' hsplit rfl).1

/-- Each side is a run of its coordinator. -/
theorem run (h : Exchange tuning turns parties) (side : Role) :
    Run (tuning side).repathTimeout (tuning side).repathGuard (tuning side).maxRetries
      (recordsOf side turns) (parties side).coordinator (parties side).timers := by
  induction h with
  | start => exact .start
  | @turn past parties x h hbefore hreach hp ih =>
    by_cases hside : x.side = side
    · subst hside
      rw [recordsOf_concat_self rfl, Function.update_self]
      rw [← hbefore] at ih
      exact .input x.now x.input ih (Party.handle_eq_ok hp).1
    · rw [recordsOf_concat_of_ne hside, Function.update_of_ne (Ne.symm hside)]
      exact ih

/-- What a turn does to the coordinator and the active path of its party. -/
theorem move (h : Exchange tuning turns parties) {x : Turn} (hx : x ∈ turns) :
    x.before.coordinator.Move x.input x.after.coordinator x.actions ∧
      x.after.active.path = Party.destination x.before.active.path x.actions := by
  obtain ⟨past, rest, hsplit⟩ := List.append_of_mem hx
  obtain ⟨parties, hpast, hbefore, -, hp⟩ := h.split hsplit
  obtain ⟨hc, hpath⟩ := Party.handle_eq_ok hp
  refine ⟨(Coupled.handle ?_ hc).2, hpath⟩
  rw [hbefore]
  exact (hpast.run x.side).coupled

/-- A party proposes one path under each number. -/
theorem target_unique (h : Exchange tuning turns parties) {side : Role}
    (few : begun (recordsOf side turns) < UInt64.size) {target target' : PathId} {sequence : UInt64}
    (hm : .repath target sequence ∈ sentBy side turns)
    (hm' : .repath target' sequence ∈ sentBy side turns) : target = target' := by
  obtain ⟨lives, hlives⟩ := (h.run side).chronicled few
  obtain ⟨r, hr, via, attempt, ha⟩ := repath_mem_sentBy.1 hm
  obtain ⟨r', hr', via', attempt', ha'⟩ := repath_mem_sentBy.1 hm'
  exact hlives.target_unique (Chronicled.sent_of_mem hr ha) (Chronicled.sent_of_mem hr' ha')
    rfl rfl rfl

/-- A proposal under the number of a commitment names the path that was committed. -/
theorem target_of_committed (h : Exchange tuning turns parties) {side : Role}
    (few : begun (recordsOf side turns) < UInt64.size) {target target' : PathId} {sequence : UInt64}
    (hm : .repath target' sequence ∈ sentBy side turns)
    (hcommitted : .committed sequence.toNat target ∈ chronicle (recordsOf side turns)) :
    target' = target := by
  obtain ⟨lives, hlives⟩ := (h.run side).chronicled few
  obtain ⟨r, hr, via, attempt, ha⟩ := repath_mem_sentBy.1 hm
  exact hlives.target_unique (Chronicled.sent_of_mem hr ha) hcommitted rfl rfl rfl

/-- The numbers of proposals count the negotiations begun. -/
theorem number_le_begun (h : Exchange tuning turns parties) {side : Role}
    (few : begun (recordsOf side turns) < UInt64.size) {target : PathId} {sequence : UInt64}
    (hm : .repath target sequence ∈ sentBy side turns) :
    sequence.toNat ≤ begun (recordsOf side turns) := by
  obtain ⟨lives, hlives⟩ := (h.run side).chronicled few
  obtain ⟨r, hr, via, attempt, ha⟩ := repath_mem_sentBy.1 hm
  exact hlives.number_le (Chronicled.sent_of_mem hr ha) rfl

/-- Only the negotiation begun last is proposed. -/
theorem number_of_sent {x : Turn} (h : Exchange tuning (turns ++ [x]) parties)
    (few : begun (recordsOf x.side (turns ++ [x])) < UInt64.size) {target : PathId}
    {sequence : UInt64} (hm : .repath target sequence ∈ x.messages) :
    sequence.toNat = begun (recordsOf x.side (turns ++ [x])) := by
  obtain ⟨parties, hpast, hbefore, hreach, hp⟩ := h.split rfl
  obtain ⟨a, ha, hmessage⟩ := List.mem_filterMap.1 hm
  obtain ⟨via, attempt, rfl⟩ := message?_eq_repath_iff.1 hmessage
  obtain ⟨timer, hs⟩ := (h.move List.mem_concat_self).1.of_sendRepath ha
  have hrun := (hpast.turn x hbefore hreach hp).run x.side
  rw [Function.update_self] at hrun
  obtain ⟨lives, hlives⟩ := hrun.chronicled few
  rw [← hlives.count]
  exact (hlives.getLast?_of_awaitingAck hs).1

/-- The outstanding negotiation was proposed. -/
theorem sent_of_awaitingAck (h : Exchange tuning turns parties) {side : Role}
    (few : begun (recordsOf side turns) < UInt64.size) {target : PathId} {sequence : UInt64}
    {timer : TimerHandle} {attempts : UInt32}
    (hs : (parties side).coordinator.state = .awaitingAck target sequence timer attempts) :
    .repath target sequence ∈ sentBy side turns := by
  obtain ⟨lives, hlives⟩ := (h.run side).chronicled few
  obtain ⟨r, hr, via, sequence', attempt, hseq, ha⟩ :=
    Chronicled.mem_of_sent (hlives.sent_of_awaitingAck hs)
  obtain rfl := UInt64.toNat_inj.1 hseq
  exact repath_mem_sentBy.2 ⟨r, hr, via, attempt, ha⟩

end Exchange

/-! ### Channels that keep the order -/

/-- The parties, and what is under way to each of them, the oldest message first. -/
structure Line where
  parties : Role → Party
  inbox : Role → List Message

/-- What can reach a party from its channel, and what is left of that. -/
def Takes (p : Party) (inbox rest : List Message) : Input → Prop
  | .trigger _ active => active = p.active.path ∧ rest = inbox
  | .repath target sequence => inbox = .repath target sequence :: rest
  | .ack sequence => inbox = .ack sequence :: rest
  | .tick _ => rest = inbox

namespace Line

/-- The line after a turn that left `rest` of the channel to its party. -/
def after (l : Line) (x : Turn) (rest : List Message) : Line where
  parties := Function.update l.parties x.side x.after
  inbox := Function.update (Function.update l.inbox x.side rest) x.side.other
    (l.inbox x.side.other ++ x.messages)

/-- The line on which `rest` is left of what was under way to a side. -/
def leave (l : Line) (side : Role) (rest : List Message) : Line :=
  { l with inbox := Function.update l.inbox side rest }

variable {l : Line} {x : Turn} {side side' : Role} {rest : List Message}

/-- The inbox that was left holds what was left in it. -/
@[simp] theorem inbox_leave_self : (l.leave side rest).inbox side = rest :=
  Function.update_self ..

/-- The inbox of the other side is not touched. -/
theorem inbox_leave_of_ne (h : side' ≠ side) : (l.leave side rest).inbox side' = l.inbox side' :=
  Function.update_of_ne h ..

/-- A turn leaves in the inbox of its side what it did not take. -/
theorem inbox_after_self (h : x.side = side) : (l.after x rest).inbox side = rest := by
  subst h
  exact (Function.update_of_ne (Role.other_ne x.side).symm ..).trans (Function.update_self ..)

/-- A turn puts its messages at the end of the peer's inbox. -/
theorem inbox_after_peer (h : x.side.other = side) :
    (l.after x rest).inbox side = l.inbox side ++ x.messages := by
  subst h
  exact Function.update_self ..

/-- The side of a turn becomes what the turn made of it. -/
theorem parties_after_self (h : x.side = side) : (l.after x rest).parties side = x.after := by
  subst h
  exact Function.update_self ..

/-- The other side stays as it was. -/
theorem parties_after_of_ne (h : side ≠ x.side) :
    (l.after x rest).parties side = l.parties side :=
  Function.update_of_ne h ..

end Line

/-- The histories over channels that keep the order of what they do not lose. -/
inductive FifoExchange (tuning : Role → Tuning) : List Turn → Line → Prop where
  | start : FifoExchange tuning [] ⟨fun side => .new (tuning side), fun _ => []⟩
  | turn {past : List Turn} {l : Line} {rest : List Message} (x : Turn) :
      FifoExchange tuning past l → x.before = l.parties x.side →
      Takes x.before (l.inbox x.side) rest x.input →
      x.before.handle x.now x.input = .ok (x.after, x.actions) →
      FifoExchange tuning (past ++ [x]) (l.after x rest)
  | lose {past : List Turn} {l : Line} {older newer : List Message} {m : Message} (side : Role) :
      FifoExchange tuning past l → l.inbox side = older ++ m :: newer →
      FifoExchange tuning past (l.leave side (older ++ newer))

/-- Taking an input adds nothing to an inbox. -/
theorem Takes.subset {p : Party} {inbox rest : List Message} {i : Input}
    (h : Takes p inbox rest i) : rest ⊆ inbox := by
  cases i with
  | trigger => exact h.2 ▸ List.Subset.refl _
  | repath | ack => exact h ▸ List.subset_cons_self ..
  | tick => exact h ▸ List.Subset.refl _

/-- What is taken from an inbox of messages that were sent can reach the party. -/
theorem Takes.reaches {p : Party} {inbox rest sent : List Message} {i : Input}
    (h : Takes p inbox rest i) (hsent : inbox ⊆ sent) : Reaches p sent i := by
  cases i with
  | trigger => exact h.1
  | repath | ack => exact hsent (h ▸ List.mem_cons_self)
  | tick => exact trivial

namespace FifoExchange

variable {tuning : Role → Tuning} {turns : List Turn} {l : Line}

/-- A history goes on with what a side makes of an input. -/
theorem next {p : Party} {actions : List Action} {rest : List Message} (side : Role)
    (now : UInt64) (i : Input) (h : FifoExchange tuning turns l)
    (htakes : Takes (l.parties side) (l.inbox side) rest i)
    (hp : (l.parties side).handle now i = .ok (p, actions)) :
    FifoExchange tuning (turns ++ [⟨side, l.parties side, now, i, actions, p⟩])
      (l.after ⟨side, l.parties side, now, i, actions, p⟩ rest) :=
  .turn _ h rfl htakes hp

/-- Channels deliver nothing but what was sent. -/
theorem exchange (h : FifoExchange tuning turns l) :
    Exchange tuning turns l.parties ∧ ∀ side, l.inbox side ⊆ sentBy side.other turns := by
  induction h with
  | start => exact ⟨.start, fun _ => List.nil_subset _⟩
  | @turn past l rest x h hbefore htakes hp ih =>
    obtain ⟨hex, hsent⟩ := ih
    refine ⟨.turn x hex hbefore (htakes.reaches (hsent x.side)) hp, fun side => ?_⟩
    rcases Role.eq_or_eq_other x.side side with rfl | rfl
    · rw [Line.inbox_after_self rfl, sentBy_concat_of_ne (Role.other_ne x.side).symm]
      exact List.Subset.trans htakes.subset (hsent x.side)
    · rw [Line.inbox_after_peer rfl, Role.other_other, sentBy_concat_self rfl]
      have hother := hsent x.side.other
      rw [Role.other_other] at hother
      exact List.append_subset.2
        ⟨List.Subset.trans hother (List.subset_append_left ..), List.subset_append_right ..⟩
  | @lose past l older newer m side h hbox ih =>
    refine ⟨ih.1, fun side' => ?_⟩
    by_cases hside : side' = side
    · subst hside
      rw [Line.inbox_leave_self]
      refine List.Subset.trans ?_ (ih.2 side')
      rw [hbox]
      exact (List.sublist_cons_self m newer).append_left older |>.subset
    · rw [Line.inbox_leave_of_ne hside]
      exact ih.2 side'

end FifoExchange

end PathControl.Handshake
