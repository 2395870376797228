import PathControl.Proofs.Handshake.Exchange

/-!
# Agreement with one initiator

The receiver proposes and the sender only answers, over channels that keep the order of what they
do not lose. Proposals of abandoned negotiations may still be under way, but only before newer
ones.

* `Following`: a side that is not triggered is on the path of the proposal that it handled last.
* `Answering`: what the sender has become after the proposals that it handled. It follows the last
  one, their numbers have not gone down, and each number has changed its path at most once.
* `InStep`: the proposals under way to the sender are in the order of their numbers and not older
  than the last one handled, the confirmations under way to the receiver are not newer, and what
  the receiver committed last is not newer either. Every turn and every loss keeps that.
* `FifoExchange.agreement`: the last commitment of a receiver at rest stands on both sides.
-/

namespace PathControl.Handshake

open PathControl.Negotiation

/-- The number that a message is about. -/
def Message.number : Message → Nat
  | .repath _ sequence | .ack sequence => sequence.toNat

/-- The proposal that a turn handles. -/
def Turn.proposal? (x : Turn) : Option (PathId × UInt64) :=
  match x.input with
  | .repath target sequence => some (target, sequence)
  | .trigger .. | .ack _ | .tick _ => none

/-- A turn handles a proposal if that is its input. -/
theorem Turn.proposal?_eq_some_iff {x : Turn} {q : PathId × UInt64} :
    x.proposal? = some q ↔ x.input = .repath q.1 q.2 := by
  unfold Turn.proposal?
  split <;> simp_all [Prod.ext_iff]

/-- The proposals that turns of one side handled. -/
def handled (turns : List Turn) : List (PathId × UInt64) := turns.filterMap Turn.proposal?

/-- The number of the proposal handled last, 0 before the first one. -/
def latest (turns : List Turn) : Nat := (handled turns).getLast?.elim 0 fun p => p.2.toNat

/-- How often the proposals of a number changed the active path in turns of one side. -/
def changes (turns : List Turn) (sequence : UInt64) : Nat :=
  turns.countP fun x => x.switches && x.proposal?.any fun p => p.2 == sequence

section concat

variable {turns : List Turn} {x : Turn} {target : PathId} {sequence : UInt64}

/-- A turn adds the proposal that it handles, if it does. -/
theorem handled_concat : handled (turns ++ [x]) = handled turns ++ x.proposal?.toList := by
  rw [handled, List.filterMap_append, List.filterMap_cons, List.filterMap_nil]
  cases x.proposal? <;> rfl

/-- A proposal that comes in is the last one handled. -/
theorem handled_of_repath (h : x.input = .repath target sequence) :
    handled (turns ++ [x]) = handled turns ++ [(target, sequence)] := by
  rw [handled_concat, Turn.proposal?, h]
  rfl

/-- A look at the timers handles no proposal. -/
theorem handled_of_tick {best : PathId} (h : x.input = .tick best) :
    handled (turns ++ [x]) = handled turns := by
  rw [handled_concat, Turn.proposal?, h]
  exact List.append_nil _

/-- A look at the timers leaves the latest number as it was. -/
theorem latest_of_tick {best : PathId} (h : x.input = .tick best) :
    latest (turns ++ [x]) = latest turns := by
  rw [latest, handled_of_tick h, latest]

/-- The number of a proposal that comes in is the latest. -/
theorem latest_of_repath (h : x.input = .repath target sequence) :
    latest (turns ++ [x]) = sequence.toNat := by
  rw [latest, handled_of_repath h, List.getLast?_concat]
  rfl

/-- A turn adds one change to the number of its proposal if the active path is another one after it.
-/
theorem changes_concat : changes (turns ++ [x]) sequence = changes turns sequence +
    if x.switches && x.proposal?.any (fun p => p.2 == sequence) then 1 else 0 := by
  rw [changes, List.countP_append, List.countP_singleton]
  rfl

/-- The latest number is that of the last proposal, as soon as one was handled. -/
theorem exists_last (h : handled turns ≠ []) :
    ∃ q, (handled turns).getLast? = some q ∧ q.2.toNat = latest turns := by
  have hlast := List.getLast?_eq_some_getLast h
  refine ⟨_, hlast, ?_⟩
  rw [latest, hlast]
  rfl

/-- A number that was not handled has changed nothing. -/
theorem changes_eq_zero (h : ∀ p ∈ handled turns, p.2 ≠ sequence) : changes turns sequence = 0 := by
  rw [changes, List.countP_eq_zero]
  intro x hx
  rcases hp : x.proposal? with _ | p
  · simp
  · have hne := h p (List.mem_filterMap.2 ⟨x, hx, hp⟩)
    simp [hne]

end concat

/-- The guard of a side, while it stands, is for the proposal that it handled last. -/
theorem guarded_concat {turns : List Turn} {x : Turn}
    (h : ∀ g, x.before.coordinator.guard = some g →
      (handled turns).getLast? = some (g.target, g.sequence))
    (hmove : x.before.coordinator.Move x.input x.after.coordinator x.actions) :
    ∀ g, x.after.coordinator.guard = some g →
      (handled (turns ++ [x])).getLast? = some (g.target, g.sequence) := by
  intro g hg
  rcases hproposal : x.proposal? with _ | ⟨target, sequence⟩
  · rw [handled_concat, hproposal, Option.toList_none, List.append_nil]
    have hi : ∀ target sequence, x.input ≠ .repath target sequence := by
      intro target sequence hi
      simp [Turn.proposal?, hi] at hproposal
    rcases hmove.guard_eq hi with hguard | hguard
    · exact h g (hguard ▸ hg)
    · simp [hguard] at hg
  · have hi : x.input = .repath target sequence := Turn.proposal?_eq_some_iff.1 hproposal
    rw [hi] at hmove
    obtain ⟨⟨timer, hguard⟩, -⟩ := hmove.of_repath
    obtain rfl := Option.some.inj (hguard.symm.trans hg)
    rw [handled_of_repath hi, List.getLast?_concat]

/-! ### The side that answers -/

/-- A side that only answers is on the path of the proposal that it handled last, and its guard,
while it stands, is for that proposal. -/
structure Following (turns : List Turn) (p : Party) : Prop where
  idle : p.coordinator.state = .idle
  followed : ∀ q, (handled turns).getLast? = some q → p.active.path = q.1
  guarded : ∀ g, p.coordinator.guard = some g →
    (handled turns).getLast? = some (g.target, g.sequence)

namespace Following

variable {turns : List Turn} {x : Turn} {p : Party}

/-- Before its first turn a side follows nothing. -/
theorem start (tuning : Tuning) : Following [] (.new tuning) where
  idle := rfl
  followed _ hq := by simp [handled] at hq
  guarded _ hg := by simp [Party.new, Coordinator.new] at hg

/-- A confirmation, which belongs to no negotiation, or a look at the timers. -/
theorem undisturbed (h : Following turns x.before) (hquiet : x.input.isTrigger = false)
    (hnone : x.proposal? = none)
    (hmove : x.before.coordinator.Move x.input x.after.coordinator x.actions)
    (hpath : x.after.active.path = Party.destination x.before.active.path x.actions) :
    Following (turns ++ [x]) x.after ∧ x.actions = [] := by
  have hrest : x.actions = [] ∧ x.after.coordinator.state = .idle := by
    rcases hi : x.input with _ | ⟨target, sequence⟩ | sequence | best <;> rw [hi] at hmove
    · simp [hi, Input.isTrigger] at hquiet
    · simp [Turn.proposal?, hi] at hnone
    · obtain ⟨hactions, hc⟩ := hmove.of_ack_idle h.idle
      exact ⟨hactions, hc ▸ h.idle⟩
    · exact hmove.of_tick_idle h.idle
  obtain ⟨hactions, hidle⟩ := hrest
  refine ⟨⟨hidle, ?_, guarded_concat h.guarded hmove⟩, hactions⟩
  rw [hactions] at hpath
  rw [handled_concat, hnone, Option.toList_none, List.append_nil, hpath]
  exact h.followed

/-- A proposal is handled, which may be a copy of the last one. -/
theorem repath (h : Following turns x.before) {target : PathId} {sequence : UInt64}
    (hi : x.input = .repath target sequence)
    (hmove : x.before.coordinator.Move (.repath target sequence) x.after.coordinator x.actions)
    (hpath : x.after.active.path = Party.destination x.before.active.path x.actions) :
    Following (turns ++ [x]) x.after ∧ x.messages = [.ack sequence] := by
  have hguarded := guarded_concat h.guarded (hi ▸ hmove)
  obtain ⟨⟨timer, hguard⟩, hcases⟩ := hmove.of_repath
  have hresult : x.after.coordinator.state = .idle ∧ x.after.active.path = target ∧
      x.messages = [.ack sequence] := by
    rcases hcases with ⟨hc, hactions⟩ | ⟨hs, hactions⟩ <;> rw [Turn.messages, hpath, hactions]
    · -- a copy of the last proposal, which has been followed already
      rw [hc] at hguard ⊢
      exact ⟨h.idle, h.followed _ (h.guarded _ hguard), rfl⟩
    · exact ⟨hs, rfl, rfl⟩
  obtain ⟨hidle, hafter, hmessages⟩ := hresult
  refine ⟨⟨hidle, ?_, hguarded⟩, hmessages⟩
  rw [handled_of_repath hi, List.getLast?_concat]
  intro q hq
  obtain rfl := Option.some.inj hq
  exact hafter

/-- Any turn but a trigger. -/
theorem turn (h : Following turns x.before) (hquiet : x.input.isTrigger = false)
    (hmove : x.before.coordinator.Move x.input x.after.coordinator x.actions)
    (hpath : x.after.active.path = Party.destination x.before.active.path x.actions) :
    Following (turns ++ [x]) x.after := by
  rcases hproposal : x.proposal? with _ | ⟨target, sequence⟩
  · exact (h.undisturbed hquiet hproposal hmove hpath).1
  · have hi : x.input = .repath target sequence := Turn.proposal?_eq_some_iff.1 hproposal
    rw [hi] at hmove
    exact (h.repath hi hmove hpath).1

end Following

/-- What a side that only answers has become after its turns, if no proposal that it handled was
older than the one before. -/
structure Answering (turns : List Turn) (p : Party) : Prop where
  idle : p.coordinator.state = .idle
  bounded : ∀ q ∈ handled turns, q.2.toNat ≤ latest turns
  followed : ∀ q, (handled turns).getLast? = some q → p.active.path = q.1
  guarded : ∀ g, p.coordinator.guard = some g →
    (handled turns).getLast? = some (g.target, g.sequence)
  once : ∀ sequence, changes turns sequence ≤ 1

namespace Answering

variable {turns : List Turn} {x : Turn} {p : Party}

/-- A side that answers follows the last proposal. -/
theorem following (h : Answering turns p) : Following turns p :=
  ⟨h.idle, h.followed, h.guarded⟩

/-- A side that follows the last proposal answers, given that the numbers did not go down and that
each changed the path once at most. -/
theorem of_following (h : Following turns p)
    (hbounded : ∀ q ∈ handled turns, q.2.toNat ≤ latest turns)
    (honce : ∀ sequence, changes turns sequence ≤ 1) : Answering turns p :=
  ⟨h.idle, hbounded, h.followed, h.guarded, honce⟩

/-- Before its first turn a side has nothing to answer. -/
theorem start (tuning : Tuning) : Answering [] (.new tuning) :=
  of_following (.start tuning) (fun _ hq => absurd hq List.not_mem_nil) fun _ => Nat.zero_le 1

/-- The path of a number is the active one if no newer number was handled. -/
theorem path_eq (h : Answering turns p) {q : PathId × UInt64} (hq : q ∈ handled turns)
    {target : PathId} {sequence : UInt64} (heq : q.2 = sequence)
    (hle : latest turns ≤ sequence.toNat)
    (hsame : ∀ q ∈ handled turns, q.2 = sequence → q.1 = target) : p.active.path = target := by
  obtain ⟨last, hlast, hnumber⟩ := exists_last (List.ne_nil_of_mem hq)
  have hbound := h.bounded q hq
  have hsequence : last.2 = sequence := by
    apply UInt64.toNat_inj.1
    rw [heq] at hbound
    omega
  rw [h.followed last hlast, hsame last (List.mem_of_getLast? hlast) hsequence]

/-- The timers are looked at. -/
theorem tick (h : Answering turns x.before) {best : PathId} (hi : x.input = .tick best)
    (hmove : x.before.coordinator.Move (.tick best) x.after.coordinator x.actions)
    (hpath : x.after.active.path = Party.destination x.before.active.path x.actions) :
    Answering (turns ++ [x]) x.after ∧ x.messages = [] := by
  rw [← hi] at hmove
  obtain ⟨hfollowing, hactions⟩ := h.following.undisturbed (by rw [hi]; rfl)
    (by rw [Turn.proposal?, hi]) hmove hpath
  refine ⟨of_following hfollowing ?_ ?_, by rw [Turn.messages, hactions]; rfl⟩
  · rw [handled_of_tick hi, latest_of_tick hi]
    exact h.bounded
  · intro sequence
    rw [changes_concat, Turn.proposal?, hi]
    simpa using h.once sequence

/-- A proposal is handled that is not older than the last one. -/
theorem repath (h : Answering turns x.before) {target : PathId} {sequence : UInt64}
    (hi : x.input = .repath target sequence) (hle : latest turns ≤ sequence.toNat)
    (hsame : ∀ q ∈ handled turns, q.2 = sequence → q.1 = target)
    (hmove : x.before.coordinator.Move (.repath target sequence) x.after.coordinator x.actions)
    (hpath : x.after.active.path = Party.destination x.before.active.path x.actions) :
    Answering (turns ++ [x]) x.after ∧ x.messages = [.ack sequence] := by
  obtain ⟨hfollowing, hmessages⟩ := h.following.repath hi hmove hpath
  have hafter : x.after.active.path = target := by
    apply hfollowing.followed (target, sequence)
    rw [handled_of_repath hi, List.getLast?_concat]
  refine ⟨of_following hfollowing ?_ ?_, hmessages⟩
  · rw [handled_of_repath hi, latest_of_repath hi]
    intro q hq
    rcases List.mem_append.1 hq with hq | hq
    · exact Nat.le_trans (h.bounded q hq) hle
    · obtain rfl := List.mem_singleton.1 hq
      exact Nat.le_refl _
  · intro sequence'
    rw [changes_concat]
    by_cases hchange : x.switches && x.proposal?.any fun p => p.2 == sequence'
    · -- only a proposal that is newer than the last one changes the path
      have hseq : sequence = sequence' := by
        simp only [Turn.proposal?, hi, Option.any_some, Bool.and_eq_true, beq_iff_eq] at hchange
        exact hchange.2
      have hnew : changes turns sequence' = 0 := by
        apply changes_eq_zero
        intro q hq heq
        have hbefore : x.before.active.path = target := by
          apply h.path_eq hq _ hle hsame
          rw [heq, hseq]
        simp [Turn.switches, hbefore, hafter] at hchange
      rw [if_pos hchange]
      omega
    · rw [if_neg hchange]
      exact h.once sequence'

end Answering

/-! ### The side that proposes -/

/-- What an input other than a proposal means for the ends of negotiations: none, with the active
path as it was, an abandonment, or the commitment of the number that is confirmed. -/
theorem ends_of_move {c c' : Coordinator} {i : Input} {actions : List Action} {now : UInt64}
    {path : PathId} (h : c.Move i c' actions)
    (hi : ∀ target sequence, i ≠ .repath target sequence) :
    (∀ history, ends (history ++ [⟨now, c.state, i, actions⟩]) = ends history) ∧
        Party.destination path actions = path ∨
      (∃ number target attempts, ∀ history, ends (history ++ [⟨now, c.state, i, actions⟩]) =
        ends history ++ [.abandoned number target attempts]) ∨
      ∃ sequence target, i = .ack sequence ∧ Party.destination path actions = target ∧
        ∀ history, ends (history ++ [⟨now, c.state, i, actions⟩]) =
          ends history ++ [.committed sequence.toNat target] := by
  simp only [ends_concat]
  cases h with
  | repeated _ | adopted _ _ => exact absurd rfl (hi _ _)
  | triggerIgnored _ | begun _ _ _ | ackIgnored _ | quiet _ | resent _ _ _ _ _ =>
    exact .inl ⟨fun _ => List.append_nil _, rfl⟩
  | @abandoned best target sequence timer attempts guard _ hs _ =>
    refine .inr (.inl ⟨sequence.toNat, target, attempts.toNat, fun _ => ?_⟩)
    simp only [Negotiation.Record.marks, hs]
    rfl
  | confirmed _ => exact .inr (.inr ⟨_, _, rfl, rfl, fun _ => rfl⟩)

/-- The two sides and what is under way between them. -/
structure InStep (turns : List Turn) (l : Line) : Prop where
  answering : Answering (turnsOf .sender turns) (l.parties .sender)
  acks : ∀ m ∈ l.inbox .receiver,
    (∃ sequence, m = .ack sequence) ∧ m.number ≤ latest (turnsOf .sender turns)
  repaths : ∀ m ∈ l.inbox .sender,
    (∃ target sequence, m = .repath target sequence) ∧ latest (turnsOf .sender turns) ≤ m.number
  ordered : (l.inbox .sender).Pairwise fun m m' => m.number ≤ m'.number
  committed : ∀ number target,
    (ends (recordsOf .receiver turns)).getLast? = some (.committed number target) →
    (l.parties .receiver).active.path = target ∧ number ≤ latest (turnsOf .sender turns)

namespace InStep

variable {tuning : Role → Tuning} {turns : List Turn} {l : Line} {x : Turn} {rest : List Message}

/-- At the start nothing is under way. -/
theorem start : InStep [] ⟨fun side => .new (tuning side), fun _ => []⟩ where
  answering := .start _
  acks _ hm := absurd hm List.not_mem_nil
  repaths _ hm := absurd hm List.not_mem_nil
  ordered := .nil
  committed _ _ he := by simp [recordsOf, turnsOf, ends, chronicle] at he

/-- A message is lost. -/
theorem lose (h : InStep turns l) {side : Role} {older newer : List Message} {m : Message}
    (hbox : l.inbox side = older ++ m :: newer) : InStep turns (l.leave side (older ++ newer)) := by
  have hsub : ∀ side', ((l.leave side (older ++ newer)).inbox side').Sublist (l.inbox side') := by
    intro side'
    by_cases hside : side' = side
    · subst hside
      rw [Line.inbox_leave_self, hbox]
      exact (List.sublist_cons_self m newer).append_left older
    · rw [Line.inbox_leave_of_ne hside]
  exact ⟨h.answering, fun m hm => h.acks m ((hsub _).subset hm),
    fun m hm => h.repaths m ((hsub _).subset hm), h.ordered.sublist (hsub _), h.committed⟩

/-- A turn of the side that proposes. What it proposes has the newest number. -/
theorem propose (h : InStep turns l) (hside : x.side = .receiver)
    (hbefore : x.before = l.parties .receiver)
    (htakes : Takes x.before (l.inbox .receiver) rest x.input)
    (hmove : x.before.coordinator.Move x.input x.after.coordinator x.actions)
    (hpath : x.after.active.path = Party.destination x.before.active.path x.actions) (newest : Nat)
    (hsent : ∀ target sequence, .repath target sequence ∈ x.messages → sequence.toNat = newest)
    (hold : ∀ target sequence, .repath target sequence ∈ l.inbox .sender →
      sequence.toNat ≤ newest)
    (hlatest : latest (turnsOf .sender turns) ≤ newest) :
    InStep (turns ++ [x]) (l.after x rest) := by
  have hne : x.side ≠ .sender := by simp [hside]
  have hsender : (l.after x rest).parties .sender = l.parties .sender :=
    Line.parties_after_of_ne hne.symm
  have hreceiver : (l.after x rest).parties .receiver = x.after := Line.parties_after_self hside
  have hinbox : (l.after x rest).inbox .receiver = rest := Line.inbox_after_self hside
  have houtbox : (l.after x rest).inbox .sender = l.inbox .sender ++ x.messages :=
    Line.inbox_after_peer (by rw [hside]; rfl)
  -- the peer never proposes, so whatever the receiver sends is a proposal of its own
  have hinput : ∀ target sequence, x.input ≠ .repath target sequence := by
    intro target sequence hi
    rw [hi] at htakes
    obtain ⟨⟨_, hm⟩, -⟩ := h.acks (.repath target sequence) (htakes ▸ List.mem_cons_self)
    cases hm
  have hnew : ∀ m ∈ x.messages, (∃ target sequence, m = .repath target sequence) ∧
      m.number = newest := by
    intro m hm
    rcases m with ⟨target, sequence⟩ | sequence
    · exact ⟨⟨target, sequence, rfl⟩, hsent target sequence hm⟩
    · obtain ⟨a, ha, hmessage⟩ := List.mem_filterMap.1 hm
      obtain ⟨via, rfl⟩ := message?_eq_ack_iff.1 hmessage
      obtain ⟨target, hi⟩ := hmove.of_sendRepathAck ha
      exact absurd hi (hinput target sequence)
  refine ⟨?answering, ?acks, ?repaths, ?ordered, ?committed⟩
  case answering =>
    rw [turnsOf_concat_of_ne hne, hsender]
    exact h.answering
  case acks =>
    rw [turnsOf_concat_of_ne hne, hinbox]
    intro m hm
    exact h.acks m (htakes.subset hm)
  case repaths =>
    rw [turnsOf_concat_of_ne hne, houtbox]
    intro m hm
    rcases List.mem_append.1 hm with hm | hm
    · exact h.repaths m hm
    · obtain ⟨hrepath, hnumber⟩ := hnew m hm
      exact ⟨hrepath, hnumber ▸ hlatest⟩
  case ordered =>
    rw [houtbox]
    refine List.pairwise_append.2 ⟨h.ordered, ?_, ?_⟩
    · refine List.pairwise_of_forall_mem_list fun m hm m' hm' => ?_
      exact Nat.le_of_eq ((hnew m hm).2.trans (hnew m' hm').2.symm)
    · intro m hm m' hm'
      obtain ⟨⟨target, sequence, rfl⟩, -⟩ := h.repaths m hm
      rw [(hnew m' hm').2]
      exact hold target sequence hm
  case committed =>
    -- only a commitment changes the active path, and it comes with the end that it is told by
    rw [turnsOf_concat_of_ne hne, recordsOf_concat_self hside, hreceiver, hpath]
    rcases ends_of_move hmove hinput with ⟨hends, hsame⟩ | ⟨_, _, _, hends⟩ | ⟨_, _, hi, hto, hends⟩
    · rw [Turn.record, hends, hsame, hbefore]
      exact h.committed
    · intro number target hlast
      rw [Turn.record, hends, List.getLast?_concat] at hlast
      cases hlast
    · intro number target hlast
      rw [Turn.record, hends, List.getLast?_concat] at hlast
      cases hlast
      refine ⟨hto, ?_⟩
      rw [hi] at htakes
      exact (h.acks (.ack _) (htakes ▸ List.mem_cons_self)).2

/-- A turn of the side that answers keeps the two in step if the side still answers, confirms
nothing newer than what it handled last, and leaves nothing older under way. -/
theorem answered (h : InStep turns l) (hside : x.side = .sender)
    (hafter : Answering (turnsOf .sender turns ++ [x]) x.after)
    (hle : latest (turnsOf .sender turns) ≤ latest (turnsOf .sender turns ++ [x]))
    (hsent : ∀ m ∈ x.messages, (∃ sequence, m = .ack sequence) ∧
      m.number ≤ latest (turnsOf .sender turns ++ [x]))
    (hrest : rest.Sublist (l.inbox .sender))
    (hnew : ∀ m ∈ rest, latest (turnsOf .sender turns ++ [x]) ≤ m.number) :
    InStep (turns ++ [x]) (l.after x rest) := by
  have hne : x.side ≠ .receiver := by simp [hside]
  have hsender : (l.after x rest).parties .sender = x.after := Line.parties_after_self hside
  have hreceiver : (l.after x rest).parties .receiver = l.parties .receiver :=
    Line.parties_after_of_ne hne.symm
  have hinbox : (l.after x rest).inbox .sender = rest := Line.inbox_after_self hside
  have houtbox : (l.after x rest).inbox .receiver = l.inbox .receiver ++ x.messages :=
    Line.inbox_after_peer (by rw [hside]; rfl)
  refine ⟨?answering, ?acks, ?repaths, ?ordered, ?committed⟩
  case answering =>
    rw [turnsOf_concat_self hside, hsender]
    exact hafter
  case acks =>
    rw [turnsOf_concat_self hside, houtbox]
    intro m hm
    rcases List.mem_append.1 hm with hm | hm
    · exact ⟨(h.acks m hm).1, Nat.le_trans (h.acks m hm).2 hle⟩
    · exact hsent m hm
  case repaths =>
    rw [turnsOf_concat_self hside, hinbox]
    intro m hm
    exact ⟨(h.repaths m (hrest.subset hm)).1, hnew m hm⟩
  case ordered =>
    rw [hinbox]
    exact h.ordered.sublist hrest
  case committed =>
    rw [turnsOf_concat_self hside, recordsOf_concat_of_ne hne, hreceiver]
    intro number target hlast
    obtain ⟨hpath, hnumber⟩ := h.committed number target hlast
    exact ⟨hpath, Nat.le_trans hnumber hle⟩

/-- A turn of the side that answers. -/
theorem answer (h : InStep turns l) (hside : x.side = .sender)
    (hbefore : x.before = l.parties .sender)
    (htakes : Takes x.before (l.inbox .sender) rest x.input)
    (hmove : x.before.coordinator.Move x.input x.after.coordinator x.actions)
    (hpath : x.after.active.path = Party.destination x.before.active.path x.actions)
    (hquiet : x.input.isTrigger = false)
    (hsame : ∀ target sequence, x.input = .repath target sequence →
      ∀ q ∈ handled (turnsOf .sender turns), q.2 = sequence → q.1 = target) :
    InStep (turns ++ [x]) (l.after x rest) := by
  have hanswering := h.answering
  rw [← hbefore] at hanswering
  rcases hi : x.input with _ | ⟨target, sequence⟩ | sequence | best
  · rw [hi] at hquiet
    cases hquiet
  · -- the proposal was the first one under way, so it is the least of them
    rw [hi] at htakes hmove
    have hhead : .repath target sequence ∈ l.inbox .sender := htakes ▸ List.mem_cons_self
    have hle : latest (turnsOf .sender turns) ≤ sequence.toNat := (h.repaths _ hhead).2
    have hordered := h.ordered
    rw [htakes, List.pairwise_cons] at hordered
    obtain ⟨hafter, hmessages⟩ :=
      hanswering.repath hi hle (hsame target sequence hi) hmove hpath
    have hlatest : latest (turnsOf .sender turns ++ [x]) = sequence.toNat := latest_of_repath hi
    refine h.answered hside hafter (hlatest ▸ hle) ?_ (htakes ▸ List.sublist_cons_self _ _) ?_
    · rw [hlatest, hmessages]
      intro m hm
      obtain rfl := List.mem_singleton.1 hm
      exact ⟨⟨sequence, rfl⟩, Nat.le_refl _⟩
    · rw [hlatest]
      exact hordered.1
  · -- no confirmation is under way to the side that never proposes
    rw [hi] at htakes
    obtain ⟨⟨_, _, hm⟩, -⟩ := h.repaths (.ack sequence) (htakes ▸ List.mem_cons_self)
    cases hm
  · rw [hi] at htakes hmove
    obtain rfl : rest = l.inbox .sender := htakes
    obtain ⟨hafter, hmessages⟩ := hanswering.tick hi hmove hpath
    have hlatest : latest (turnsOf .sender turns ++ [x]) = latest (turnsOf .sender turns) :=
      latest_of_tick hi
    refine h.answered hside hafter (Nat.le_of_eq hlatest.symm) ?_ (List.Sublist.refl _) ?_
    · rw [hmessages]
      exact fun m hm => absurd hm List.not_mem_nil
    · rw [hlatest]
      exact fun m hm => (h.repaths m hm).2

end InStep

/-! ### Agreement -/

namespace Exchange

variable {tuning : Role → Tuning} {turns : List Turn} {parties : Role → Party} {side : Role}

/-- What a side handled was sent by the other one. -/
theorem sent_of_handled (h : Exchange tuning turns parties) {q : PathId × UInt64}
    (hq : q ∈ handled (turnsOf side turns)) : .repath q.1 q.2 ∈ sentBy side.other turns := by
  obtain ⟨x, hx, hproposal⟩ := List.mem_filterMap.1 hq
  obtain ⟨hmem, rfl⟩ := mem_turnsOf.1 hx
  obtain ⟨past, rest, rfl⟩ := List.append_of_mem hmem
  obtain ⟨-, -, -, hreach, -⟩ := h.split rfl
  apply sentBy_subset_append
  rw [Turn.proposal?_eq_some_iff.1 hproposal] at hreach
  exact hreach

/-- A guard that stands is for the proposal handled last. -/
theorem guarded (h : Exchange tuning turns parties) {g : Guard}
    (hg : (parties side).coordinator.guard = some g) :
    (handled (turnsOf side turns)).getLast? = some (g.target, g.sequence) := by
  induction h generalizing g with
  | start => cases hg
  | @turn past parties x h hbefore hreach hp ih =>
    by_cases hside : x.side = side
    · obtain ⟨hmove, -⟩ := (h.turn x hbefore hreach hp).move List.mem_concat_self
      rw [← hside, Function.update_self] at hg
      rw [← hside, ← hbefore] at ih
      rw [turnsOf_concat_self hside, ← hside]
      exact guarded_concat (fun _ => ih) hmove g hg
    · rw [Function.update_of_ne (Ne.symm hside)] at hg
      rw [turnsOf_concat_of_ne hside]
      exact ih hg

/-- The number that a side handled last is that of a negotiation its peer has begun. -/
theorem latest_le_begun (h : Exchange tuning turns parties)
    (few : begun (recordsOf side.other turns) < UInt64.size) :
    latest (turnsOf side turns) ≤ begun (recordsOf side.other turns) := by
  by_cases hnil : handled (turnsOf side turns) = []
  · rw [latest, hnil]
    exact Nat.zero_le _
  · obtain ⟨q, hlast, hnumber⟩ := exists_last hnil
    rw [← hnumber]
    exact h.number_le_begun few (h.sent_of_handled (List.mem_of_getLast? hlast))

end Exchange

namespace FifoExchange

variable {tuning : Role → Tuning} {turns : List Turn} {l : Line}

/-- **Every history with a quiet sender is in step.** The receiver proposes newer numbers only, and
the order of the channel keeps the older ones in front. -/
theorem inStep (h : FifoExchange tuning turns l)
    (quiet : ∀ x ∈ turns, x.side = .sender → x.input.isTrigger = false)
    (few : begun (recordsOf .receiver turns) < UInt64.size) : InStep turns l := by
  induction h with
  | start => exact .start
  | lose side h hbox ih => exact (ih quiet few).lose hbox
  | @turn past l rest x h hbefore htakes hp ih =>
    obtain ⟨hex, -⟩ := (h.turn x hbefore htakes hp).exchange
    obtain ⟨hpast, hinbox⟩ := h.exchange
    obtain ⟨hmove, hpath⟩ := hex.move List.mem_concat_self
    have hin : InStep past l :=
      ih (fun y hy => quiet y (List.mem_append_left _ hy))
        (Nat.lt_of_le_of_lt begun_recordsOf_le few)
    rcases hside : x.side with _ | _ <;> rw [hside] at hbefore htakes
    · refine hin.answer hside hbefore htakes hmove hpath (quiet x List.mem_concat_self hside) ?_
      intro target sequence hi q hq hseq
      -- the proposal was sent, and so was the one handled before under the same number
      rw [hi] at htakes
      have hnew : .repath target sequence ∈ sentBy .receiver (past ++ [x]) :=
        sentBy_subset_append (hinbox .sender (htakes ▸ List.mem_cons_self))
      have hold : .repath q.1 sequence ∈ sentBy .receiver (past ++ [x]) :=
        sentBy_subset_append (hseq ▸ hpast.sent_of_handled hq)
      exact hex.target_unique few hold hnew
    · refine hin.propose hside hbefore htakes hmove hpath
        (begun (recordsOf .receiver (past ++ [x]))) (fun target sequence hm => ?_)
        (fun target sequence hm => ?_) ?_
      · rw [← hside] at few
        have hnumber := hex.number_of_sent few hm
        rwa [hside] at hnumber
      · exact hex.number_le_begun few (sentBy_subset_append (hinbox .sender hm))
      · have hfew : begun (recordsOf .receiver past) < UInt64.size :=
          Nat.lt_of_le_of_lt begun_recordsOf_le few
        exact Nat.le_trans (hpast.latest_le_begun hfew) begun_recordsOf_le

/-- **The last commitment of a receiver at rest stands on both sides.** Only the receiver is
triggered, and it begins fewer than 2^64 negotiations; the sides may start on different paths, and
messages may be lost. Whenever no negotiation of the receiver is outstanding and the last one to
end was committed, its path is the active one of both sides. All transmissions of one negotiation
together change the path of the sender at most once, however often it adopts the proposal. -/
theorem agreement (h : FifoExchange tuning turns l)
    (quiet : ∀ x ∈ turns, x.side = .sender → x.input.isTrigger = false)
    (few : begun (recordsOf .receiver turns) < UInt64.size) :
    (∀ number target, (l.parties .receiver).coordinator.state = .idle →
      (ends (recordsOf .receiver turns)).getLast? = some (.committed number target) →
      (l.parties .sender).active.path = target ∧ (l.parties .receiver).active.path = target) ∧
    ∀ sequence, changes (turnsOf .sender turns) sequence ≤ 1 := by
  have hin := h.inStep quiet few
  refine ⟨?_, hin.answering.once⟩
  intro number target hidle hlast
  obtain ⟨hreceiver, hle⟩ := hin.committed number target hlast
  refine ⟨?_, hreceiver⟩
  obtain ⟨hex, -⟩ := h.exchange
  obtain ⟨lives, hlives⟩ := (hex.run .receiver).chronicled few
  have hcommitted : .committed number target ∈ chronicle (recordsOf .receiver turns) :=
    (List.mem_filter.1 (List.mem_of_getLast? hlast)).1
  -- the negotiation committed is the one begun last, so the sender handled it last
  have hnumber : number = begun (recordsOf .receiver turns) :=
    Option.some.inj (hlives.number_of_last_end hidle hlast)
  have hlatest : latest (turnsOf .sender turns) = number := by
    have hbound : latest (turnsOf .sender turns) ≤ begun (recordsOf .receiver turns) :=
      hex.latest_le_begun few
    omega
  obtain ⟨n, l', hpos, -⟩ := hlives.life_of_mem hcommitted
  have hpos : 0 < number := by
    rw [Option.some.inj hpos]
    exact Nat.succ_pos n
  have hhandled : handled (turnsOf .sender turns) ≠ [] := by
    intro hnil
    rw [latest, hnil] at hlatest
    exact absurd hlatest (Nat.ne_of_lt hpos)
  obtain ⟨q, hq, hqlatest⟩ := exists_last hhandled
  rw [hin.answering.followed q hq]
  obtain ⟨r, hr, via, attempt, ha⟩ :=
    repath_mem_sentBy.1 (hex.sent_of_handled (List.mem_of_getLast? hq))
  apply hlives.target_unique (Chronicled.sent_of_mem hr ha) hcommitted _ rfl rfl
  rw [Mark.number?, Mark.number?, hqlatest, hlatest]

/-- The confirmation of a proposal is lost and the guard lapses, so the second transmission is
adopted once more; its confirmation commits. The sides had started on different paths. -/
theorem adopted_twice_agrees : ∃ tuning turns l target,
    (tuning .sender).initialPath ≠ (tuning .receiver).initialPath ∧
      FifoExchange tuning turns l ∧
      (∀ x ∈ turns, x.side = .sender → x.input.isTrigger = false) ∧
      begun (recordsOf .receiver turns) < UInt64.size ∧
      (turnsOf .sender turns).countP (fun x => .adopted target ∈ x.actions) = 2 ∧
      (l.parties .receiver).coordinator.state = .idle ∧
      (ends (recordsOf .receiver turns)).getLast? = some (.committed 1 target) ∧
      (l.parties .sender).active.path = target ∧ (l.parties .receiver).active.path = target ∧
      changes (turnsOf .sender turns) 1 ≤ 1 := by
  have proposed : FifoExchange (fun side =>
      { Tuning.standard with initialPath := if side = .sender then ⟨⟨3, by decide⟩⟩ else .first })
      _ _ :=
    .next .receiver 0 (.trigger ⟨⟨1, by decide⟩⟩ .first) .start ⟨rfl, rfl⟩ rfl
  have adopted := proposed.next .sender 0 (.repath ⟨⟨1, by decide⟩⟩ 1) rfl rfl
  have lost := @lose _ _ _ [] [] (.ack 1) .receiver adopted rfl
  have resent := lost.next .receiver 3000000000 (.tick .first) rfl rfl
  have lapsed := resent.next .sender 3000000000 (.tick .first) rfl rfl
  have adopted_again := lapsed.next .sender 3000000000 (.repath ⟨⟨1, by decide⟩⟩ 1) rfl rfl
  have h := adopted_again.next .receiver 3000000000 (.ack 1) rfl rfl
  obtain ⟨hagree, honce⟩ := agreement h (by decide) (by decide)
  obtain ⟨hsender, hreceiver⟩ := hagree 1 ⟨⟨1, by decide⟩⟩ rfl rfl
  exact ⟨_, _, _, _, by decide, h, by decide, by decide, by decide, rfl, rfl, hsender, hreceiver,
    honce 1⟩

end FifoExchange

end PathControl.Handshake
