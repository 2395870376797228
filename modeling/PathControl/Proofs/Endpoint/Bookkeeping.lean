import PathControl.Proofs.Endpoint.Stimulus

/-!
# What a response does to the books

A response is a move of the coordinator, or none, and its effects are those of the actions of that
move, after some plain ones. So what counters and events say about negotiations follows from the
moves.

* `Effect.IsPlain`: an effect that has to do with no negotiation.
* `Prompts`, `respond_moves`: the input that a stimulus is for the coordinator, and what becomes of
  it.
* `Booked`: what effects count and announce balances with the negotiation that is unfinished before
  and after. `Move.booked`: the effects of a move are booked.
* `respond_confirms`: a proposal of the peer is answered once, and nothing else is.
* `Trail`: the effects that tell of one negotiation, from its start. `Move.trailing`: a move keeps
  the trail of the unfinished negotiation.
* `Trailed`: each negotiation that is announced as abandoned has its full trail. `Move.trailed`.
* `respond_repeats`: a proposal is sent again at a look at the timers, on the best path.
-/

namespace PathControl

open PathControl.Endpoint
open PathControl.Handshake
open PathControl.Negotiation
open PathControl.Wire

/-! ### Kinds of counters and events -/

/-- Whether a counter has to do with negotiations. -/
def Counter.isNegotiation : Counter → Bool
  | .repathsSent | .repathRetries | .repathsReceived | .acksSent | .abandoned => true
  | .framesReceived | .framesSent | .ingressDropped | .egressDropped | .nicErrors | .probesSent
  | .bufferExhausted | .probesReceived | .timestampsReceived | .notControl | .malformed
  | .clockAnomalies | .triggers | .acksReceived | .switches => false

namespace Endpoint

namespace Event

/-- Whether a negotiation starts. -/
def isStart : Event → Bool
  | .negotiationStarted .. => true
  | .bestPathChanged .. | .pathSwitched .. | .negotiationAbandoned .. => false

/-- Whether a confirmed proposal is taken. -/
def isCommit : Event → Bool
  | .pathSwitched _ _ .committed => true
  | .pathSwitched _ _ .adopted | .bestPathChanged .. | .negotiationStarted ..
  | .negotiationAbandoned .. => false

/-- Whether a negotiation is given up. -/
def isAbandonment : Event → Bool
  | .negotiationAbandoned .. => true
  | .bestPathChanged .. | .pathSwitched .. | .negotiationStarted .. => false

end Event

/-- The path and the sequence number of a confirmation that an effect attempts to send. -/
def Effect.confirmation? : Effect → Option (PathId × UInt64)
  | .send header path =>
    match header.kind with
    | .repathAck => some (path, header.ack)
    | .probe | .timestamp | .repath => none
  | .count _ | .announce _ => none

/-- The confirmations that effects attempt to send. -/
def confirmations (effects : List Effect) : List (PathId × UInt64) :=
  effects.filterMap Effect.confirmation?

variable {effects rest : List Effect}

/-- Confirmations are attempted in order. -/
theorem confirmations_append :
    confirmations (effects ++ rest) = confirmations effects ++ confirmations rest :=
  List.filterMap_append

/-- Whether an effect has to do with no negotiation. -/
def Effect.IsPlain : Effect → Prop
  | .count counter => counter.isNegotiation = false
  | .announce event => event.isStart = false ∧ event.isCommit = false ∧ event.isAbandonment = false
  | .send _ _ => False

/-- Whether all effects are plain. -/
def Plain (effects : List Effect) : Prop := ∀ x ∈ effects, x.IsPlain

namespace Plain

/-- No effects are plain. -/
theorem nil : Plain [] := List.forall_mem_nil _

/-- A count is plain if its counter has to do with no negotiation. -/
theorem count {counter : Counter} (h : counter.isNegotiation = false) : Plain [.count counter] :=
  List.forall_mem_singleton.2 h

/-- Plain effects one after the other are plain. -/
theorem append (h : Plain effects) (h' : Plain rest) : Plain (effects ++ rest) :=
  List.forall_mem_append.2 ⟨h, h'⟩

/-- Remarks on the measurements are plain. -/
theorem of_remarks (h : ∀ x ∈ effects, x.IsRemark) : Plain effects := by
  intro x hx
  cases h x hx with
  | anomaly | trigger => rfl
  | news => exact ⟨rfl, rfl, rfl⟩

/-- Plain effects move no counter of negotiations. -/
theorem counted (h : Plain effects) {counter : Counter} (hc : counter.isNegotiation = true) :
    (counted effects).count counter = 0 := by
  apply List.count_eq_zero.2
  intro hmem
  obtain ⟨x, hx, hcounter⟩ := List.mem_filterMap.1 hmem
  have hplain := h x hx
  cases x with
  | count k =>
    cases hcounter
    rw [show counter.isNegotiation = false from hplain] at hc
    cases hc
  | announce event => cases hcounter
  | send header path => cases hplain

/-- Plain effects announce no start, no commit and no abandonment. -/
theorem announced (h : Plain effects) :
    (announced effects).countP Event.isStart = 0 ∧ (announced effects).countP Event.isCommit = 0 ∧
      (announced effects).countP Event.isAbandonment = 0 := by
  have hkinds : ∀ event ∈ PathControl.Endpoint.announced effects,
      event.isStart = false ∧ event.isCommit = false ∧ event.isAbandonment = false := by
    intro event hmem
    obtain ⟨x, hx, hevent⟩ := List.mem_filterMap.1 hmem
    have hplain := h x hx
    cases x with
    | count k => cases hevent
    | announce event' =>
      cases hevent
      exact hplain
    | send header path => cases hplain
  refine ⟨?_, ?_, ?_⟩
  all_goals
    apply List.countP_eq_zero.2
    intro event hmem
    obtain ⟨hstart, hcommit, habandonment⟩ := hkinds event hmem
    simp [*]

/-- Plain effects send nothing. -/
theorem sends (h : Plain effects) : sends effects = [] := by
  apply List.filterMap_eq_nil_iff.2
  intro x hx
  have hplain := h x hx
  cases x with
  | count _ | announce _ => rfl
  | send _ _ => cases hplain

/-- So they confirm nothing. -/
theorem confirmations (h : Plain effects) : confirmations effects = [] := by
  apply List.filterMap_eq_nil_iff.2
  intro x hx
  have hplain := h x hx
  cases x with
  | count _ | announce _ => rfl
  | send _ _ => cases hplain

end Plain

/-! ### Stimuli as inputs -/

variable {e : Endpoint} {x : Stimulus} {r : Response}

/-- What a stimulus proposes, if anything: a path and a sequence number. -/
def proposal? (e : Endpoint) (x : Stimulus) : Option (PathId × UInt64) :=
  match e.messageOf x with
  | some (.repath target sequence) => some (target, sequence)
  | some (.ack _) | none => none

/-- The input that a stimulus is for the coordinator, and the plain effects that come first. -/
inductive Prompts (e : Endpoint) : Stimulus → UInt64 → Input → List Effect → Prop where
  | triggered {now : UInt64} {bytes : Bytes} {best : PathId} {plain : List Effect} :
      messageIn e.settings.addressing bytes = none → Plain plain →
      Prompts e (.frame now bytes) now (.trigger best e.control.active.path) plain
  | proposed {now : UInt64} {bytes : Bytes} {target : PathId} {sequence : UInt64} :
      messageIn e.settings.addressing bytes = some (.repath target sequence) →
      Prompts e (.frame now bytes) now (.repath target sequence) [.count .repathsReceived]
  | confirmed {now : UInt64} {bytes : Bytes} {sequence : UInt64} :
      messageIn e.settings.addressing bytes = some (.ack sequence) →
      Prompts e (.frame now bytes) now (.ack sequence) [.count .acksReceived]
  | looked {now : UInt64} : Prompts e (.timers now) now (.tick e.control.estimator.best) []

/-- A response that leaves the negotiations alone. -/
structure Idles (e : Endpoint) (x : Stimulus) (r : Response) : Prop where
  party : r.control.party = e.control.party
  plain : Plain r.effects
  unproposed : e.proposal? x = none

/-- A response that carries out what the coordinator makes of an input. -/
structure Moves (e : Endpoint) (x : Stimulus) (now : UInt64) (i : Input) (plain : List Effect)
    (o : Outcome) (r : Response) : Prop where
  prompts : Prompts e x now i plain
  handle : e.control.coordinator.handle e.control.timers now i = .ok o
  coordinator : r.control.coordinator = o.coordinator
  effects : r.effects = plain ++ Control.carriedOut e.control.active.path o.actions

/-- The counter of a packet fits the message that it carries. -/
theorem receipt_of_message {header : Header}
    (h : ¬ (header.kind = .repath ∧ header.target = none)) :
    match Message.ofHeader? header with
    | none => (receipt header.kind).isNegotiation = false
    | some (.repath _ _) => receipt header.kind = .repathsReceived
    | some (.ack _) => receipt header.kind = .acksReceived := by
  unfold Message.ofHeader?
  rcases hkind : header.kind
  · rfl
  · rcases htarget : header.target with _ | target
    · exact absurd ⟨hkind, htarget⟩ h
    · rfl
  · rfl
  · rfl

/-- A packet leaves the negotiations alone, or is an input for the coordinator whose outcome is
carried out. -/
theorem packet_moves {now : UInt64} {bytes : Bytes} {packet : ControlPacket} {c' : Control}
    (lastTick : UInt64)
    (hdecode : (decode e.settings.addressing bytes).run = .ok (.ok (.control packet)))
    (h : e.control.onPacket now packet = .ok (c', effects)) :
    Idles e (.frame now bytes) ⟨c', lastTick, effects⟩ ∨
      ∃ i plain o, Moves e (.frame now bytes) now i plain o ⟨c', lastTick, effects⟩ := by
  have hmessage := messageIn_of_decode hdecode
  -- a proposal that names no path is not even counted
  by_cases hnothing : packet.header.kind = .repath ∧ packet.header.target = none
  · have hnone : Message.ofHeader? packet.header = none := by
      rw [Message.ofHeader?, hnothing.1, hnothing.2]
      rfl
    rw [Control.onPacket, hnothing.1] at h
    simp only [hnothing.2] at h
    cases h
    refine .inl ⟨rfl, .nil, ?_⟩
    simp only [proposal?, messageOf, hmessage, hnone]
  obtain ⟨hkind, htarget, -⟩ | ⟨rest, rfl, htold⟩ := Control.onPacket_told h
  · exact absurd ⟨hkind, htarget⟩ hnothing
  have hreceipt := receipt_of_message hnothing
  rw [← hmessage] at htold hreceipt
  generalize hm : messageIn e.settings.addressing bytes = m at htold hreceipt
  cases htold with
  | noted hparty hremarks =>
    refine .inl ⟨hparty, (Plain.count hreceipt).append (.of_remarks hremarks), ?_⟩
    simp only [proposal?, messageOf, hm]
  | @triggered c₀ _ remarks _ o hparty hremarks ho hfollow =>
    have hcarried := Control.follow_carriesOut hfollow
    have hactive : c₀.active = e.control.active := congrArg Party.active hparty
    have hplain := (Plain.count hreceipt).append (.of_remarks hremarks)
    rw [show c₀.coordinator = _ from congrArg Party.coordinator hparty,
      show c₀.timers = _ from congrArg Party.timers hparty, hactive] at ho
    refine .inr ⟨_, _, o, .triggered hm hplain, ho, hcarried.coordinator, ?_⟩
    rw [hcarried.effects, hactive]
    rfl
  | @heard m _ _ o ho hfollow =>
    have hcarried := Control.follow_carriesOut hfollow
    cases m with
    | repath target sequence =>
      refine .inr ⟨_, _, o, .proposed hm, ho, hcarried.coordinator, ?_⟩
      rw [hcarried.effects, show receipt _ = _ from hreceipt]
      rfl
    | ack sequence =>
      refine .inr ⟨_, _, o, .confirmed hm, ho, hcarried.coordinator, ?_⟩
      rw [hcarried.effects, show receipt _ = _ from hreceipt]
      rfl

/-- A response leaves the negotiations alone, or carries out what the coordinator makes of an
input. -/
theorem respond_moves (h : e.respond x = .ok r) :
    Idles e x r ∨ ∃ now i plain o, Moves e x now i plain o r := by
  obtain ⟨hmessage, hcontrol, -, heffects⟩ | ⟨now, bytes, packet, rfl, hdecode, hpacket, -⟩ |
    ⟨now, fired, rfl, -, htick, -⟩ := respond_eq_ok h
  · refine .inl ⟨congrArg Control.party hcontrol, ?_, ?_⟩
    · rcases heffects with heffects | heffects | heffects
      all_goals rw [heffects]
      · exact .nil
      · exact .count rfl
      · exact .count rfl
    · simp only [proposal?, hmessage]
  · obtain hidle | ⟨i, plain, o, hmoves⟩ := packet_moves r.lastTick hdecode hpacket
    · exact .inl hidle
    · exact .inr ⟨now, i, plain, o, hmoves⟩
  · obtain ⟨o, ho, hcarried⟩ := Control.tick_carriesOut htick
    exact .inr ⟨now, _, [], o, .looked, ho, hcarried.coordinator, hcarried.effects⟩

/-! ### Balance -/

end Endpoint

/-- How many negotiations are unfinished. -/
def Negotiation.Coordinator.unfinished (c : Coordinator) : Nat :=
  match c.state with
  | .idle => 0
  | .awaitingAck .. => 1

/-- What an input asks to be confirmed: the sequence number of a proposal, on its path. -/
def Negotiation.Input.proposed : Input → List (PathId × UInt64)
  | .repath target sequence => [(target, sequence)]
  | .trigger .. | .ack _ | .tick _ => []

/-- Whether an action takes a proposal of the peer. -/
def Negotiation.Action.isAdoption : Action → Bool
  | .adopted _ => true
  | .sendRepath .. | .sendRepathAck .. | .committed _ | .abandoned .. => false

/-- How many negotiations of its own a coordinator gives up for a proposal that it adopts. -/
def Negotiation.Coordinator.superseded (c : Coordinator) (actions : List Action) : Nat :=
  if actions.any Action.isAdoption then c.unfinished else 0

namespace Endpoint

/-- Whether what effects count and announce balances. Proposals are first transmissions, which
start a negotiation, or repetitions. A negotiation that is started, or unfinished `before`, is
committed, abandoned, superseded, or unfinished `after`. No more than `most` proposals are sent, and
no more than `most` negotiations abandoned. -/
structure Booked (most before superseded : Nat) (effects : List Effect) (after : Nat) : Prop where
  sent : (counted effects).count .repathsSent =
    (counted effects).count .repathRetries + (announced effects).countP Event.isStart
  ended : (announced effects).countP Event.isStart + before =
    (announced effects).countP Event.isCommit + (announced effects).countP Event.isAbandonment +
      superseded + after
  abandoned : (counted effects).count .abandoned = (announced effects).countP Event.isAbandonment
  fewSent : (counted effects).count .repathsSent ≤ most
  fewAbandoned : (counted effects).count .abandoned ≤ most

/-- Books of two parts of a run make up books of both: a negotiation that the first part leaves
unfinished is the one that the second part begins with. -/
theorem Booked.append {most most' before between after superseded superseded' : Nat}
    (h : Booked most before superseded effects between)
    (h' : Booked most' between superseded' rest after) :
    Booked (most + most') before (superseded + superseded') (effects ++ rest) after := by
  have hsent := h.sent
  have hsent' := h'.sent
  have hended := h.ended
  have hended' := h'.ended
  constructor
  all_goals simp only [counted_append, announced_append, List.count_append, List.countP_append]
  · omega
  · omega
  · rw [h.abandoned, h'.abandoned]
  · exact Nat.add_le_add h.fewSent h'.fewSent
  · exact Nat.add_le_add h.fewAbandoned h'.fewAbandoned

/-- Whether effects tell of no negotiation of our own: they start and end none, and send nothing. -/
structure Silent (effects : List Effect) : Prop where
  starts : (announced effects).countP Event.isStart = 0
  commits : (announced effects).countP Event.isCommit = 0
  abandonments : (announced effects).countP Event.isAbandonment = 0
  sent : (counted effects).count .repathsSent = 0
  retries : (counted effects).count .repathRetries = 0
  abandoned : (counted effects).count .abandoned = 0
  sends : sends effects = []

/-- Plain effects tell of no negotiation. -/
theorem Plain.silent (h : Plain effects) : Silent effects := by
  obtain ⟨hstart, hcommit, habandonment⟩ := h.announced
  exact ⟨hstart, hcommit, habandonment, h.counted rfl, h.counted rfl, h.counted rfl, h.sends⟩

/-- What comes before an outcome tells of no negotiation of our own. -/
theorem Prompts.silent {now : UInt64} {i : Input} {plain : List Effect}
    (h : Prompts e x now i plain) : Silent plain := by
  cases h with
  | triggered _ hplain => exact hplain.silent
  | proposed _ | confirmed _ | looked => exact ⟨rfl, rfl, rfl, rfl, rfl, rfl, rfl⟩

/-- Effects that tell of no negotiation balance, with any negotiation that is unfinished. -/
theorem Silent.booked (h : Silent effects) (most unfinished : Nat) :
    Booked most unfinished 0 effects unfinished := by
  obtain ⟨hstart, hcommit, habandonment, hsent, hretries, habandoned, -⟩ := h
  constructor
  all_goals omega

end Endpoint

namespace Negotiation.Coordinator

variable {c c' : Coordinator} {i : Input} {actions : List Action} {active : PathId}

/-- What the books presume of a coordinator: it proposes another path than the active one, and an
unfinished proposal has been transmitted. -/
structure Orderly (c : Coordinator) (active : PathId) : Prop where
  aims : ∀ target, c.outstanding = some target → target ≠ active
  begun : ∀ target sequence timer attempts,
    c.state = .awaitingAck target sequence timer attempts → attempts ≠ 0

/-- A coordinator that awaits a confirmation has one negotiation unfinished. -/
theorem unfinished_of_awaitingAck {target : PathId} {sequence : UInt64} {timer : TimerHandle}
    {attempts : UInt32} (h : c.state = .awaitingAck target sequence timer attempts) :
    c.unfinished = 1 := by
  rw [unfinished, h]

/-- An idle coordinator has none. -/
theorem unfinished_of_idle (h : c.state = .idle) : c.unfinished = 0 := by
  rw [unfinished, h]

/-- A repetition is no first transmission. -/
theorem attempts_add_one_ne {attempts : UInt32} (h : attempts ≠ 0)
    (hlt : attempts.toNat + 1 < UInt32.size) : attempts + 1 ≠ 1 := by
  intro heq
  apply h
  have hsum : (attempts + 1).toNat = attempts.toNat + 1 := Checked.toNat_sum32 hlt
  rw [heq] at hsum
  apply UInt32.toNat_inj.1
  exact (Nat.succ.inj hsum).symm

/-- Only a proposal of the peer supersedes a negotiation. -/
theorem Move.superseded_eq_zero (h : c.Move i c' actions) (hproposed : i.proposed = []) :
    c.superseded actions = 0 := by
  cases h with
  | adopted _ _ => cases hproposed
  | _ => rfl

/-- The effects of a move are booked. -/
theorem Move.booked (h : c.Move i c' actions) (horderly : c.Orderly active) :
    Booked 1 c.unfinished (c.superseded actions) (Control.carriedOut active actions)
      c'.unfinished := by
  cases h with
  | triggerIgnored _ | ackIgnored _ | quiet _ => exact Plain.nil.silent.booked 1 _
  | begun timer hs hne =>
    rw [unfinished_of_idle hs]
    exact ⟨rfl, rfl, rfl, Nat.le_refl 1, Nat.zero_le 1⟩
  | repeated _ =>
    refine ⟨rfl, ?_, rfl, Nat.zero_le 1, Nat.zero_le 1⟩
    show 0 + c.unfinished = 0 + 0 + 0 + c.unfinished
    rfl
  | @adopted target sequence timer _ =>
    have hadopts : c.superseded [.adopted target, .sendRepathAck target sequence] = c.unfinished :=
      if_pos rfl
    have hended : 0 + c.unfinished = 0 + 0 + c.unfinished + 0 := by omega
    rw [hadopts]
    unfold Control.carriedOut Control.switched
    split
    · exact ⟨rfl, hended, rfl, Nat.zero_le 1, Nat.zero_le 1⟩
    · exact ⟨rfl, hended, rfl, Nat.zero_le 1, Nat.zero_le 1⟩
  | @confirmed target _ _ _ hs =>
    have hne : active ≠ target := (horderly.aims target (by rw [outstanding, hs])).symm
    rw [unfinished_of_awaitingAck hs]
    unfold Control.carriedOut Control.switched
    rw [if_neg hne]
    exact ⟨rfl, rfl, rfl, Nat.zero_le 1, Nat.zero_le 1⟩
  | resent timer _ hs _ hlt =>
    rw [unfinished_of_awaitingAck hs]
    unfold Control.carriedOut
    rw [if_neg (attempts_add_one_ne (horderly.begun _ _ _ _ hs) hlt)]
    exact ⟨rfl, rfl, rfl, Nat.le_refl 1, Nat.zero_le 1⟩
  | abandoned _ hs _ =>
    rw [unfinished_of_awaitingAck hs]
    exact ⟨rfl, rfl, rfl, Nat.zero_le 1, Nat.le_refl 1⟩

end Negotiation.Coordinator

/-! ### Confirmations -/

/-- What a move asks for confirms the proposal that the input is, if it is one, and counts that
confirmation alone. -/
theorem Negotiation.Coordinator.Move.confirms {c c' : Coordinator} {i : Input}
    {actions : List Action} (h : c.Move i c' actions) (active : PathId) :
    confirmations (Control.carriedOut active actions) = i.proposed ∧
      (counted (Control.carriedOut active actions)).count .acksSent = i.proposed.length ∧
      (counted (Control.carriedOut active actions)).count .repathsReceived = 0 := by
  cases h with
  | triggerIgnored _ | ackIgnored _ | quiet _ | begun _ _ _ | repeated _ | abandoned _ _ _ =>
    exact ⟨rfl, rfl, rfl⟩
  | adopted _ _ | confirmed _ | resent _ _ _ _ _ =>
    unfold Control.carriedOut
    first
    | unfold Control.switched
      split <;> exact ⟨rfl, rfl, rfl⟩
    | split <;> exact ⟨rfl, rfl, rfl⟩

namespace Endpoint

variable {effects rest log : List Effect} {e : Endpoint} {x : Stimulus} {r : Response}

/-- **A proposal is answered once.** A stimulus that proposes leads to one attempt to confirm, with
the sequence number and on the path proposed; no other stimulus leads to any. -/
theorem respond_confirms (hsound : e.control.party.Sound) (h : e.respond x = .ok r) :
    confirmations r.effects = (e.proposal? x).toList ∧
      (counted r.effects).count .acksSent = (counted r.effects).count .repathsReceived := by
  obtain ⟨-, hplain, hproposal⟩ | ⟨now, i, plain, o, hprompts, ho, -, heffects⟩ := respond_moves h
  · rw [hplain.confirmations, hproposal, hplain.counted rfl, hplain.counted rfl]
    exact ⟨rfl, rfl⟩
  · obtain ⟨-, hmove⟩ := hsound.coupled.handle ho
    obtain ⟨hconfirms, hacks, hreceived⟩ := hmove.confirms e.control.active.path
    rw [heffects, confirmations_append, counted_append, List.count_append, List.count_append,
      hconfirms, hacks, hreceived]
    cases hprompts with
    | triggered hm hplain =>
      rw [hplain.confirmations, hplain.counted rfl, hplain.counted rfl]
      simp only [proposal?, messageOf, hm]
      exact ⟨rfl, rfl⟩
    | proposed hm | confirmed hm =>
      simp only [proposal?, messageOf, hm]
      exact ⟨rfl, rfl⟩
    | looked => exact ⟨rfl, rfl⟩

/-! ### Trails -/

/-- Whether effects end with the trail of a negotiation after so many transmissions: its start, and
from there on no other start, so many transmissions, and all but the first of them counted as
repetitions. -/
def Trail (log : List Effect) (target : PathId) (sequence : UInt64) (attempts : Nat) : Prop :=
  ∃ before after, log = before ++ .announce (.negotiationStarted target sequence) :: after ∧
    (announced after).countP Event.isStart = 0 ∧
    (sends after).count (.repath target sequence) = attempts ∧
    (counted after).count .repathRetries + 1 = attempts

/-- A trail goes on through effects that start nothing, by the transmissions among them. -/
theorem Trail.append {target : PathId} {sequence : UInt64} {attempts k : Nat}
    (h : Trail log target sequence attempts)
    (hstart : (announced effects).countP Event.isStart = 0)
    (hsends : (sends effects).count (.repath target sequence) = k)
    (hretries : (counted effects).count .repathRetries = k) :
    Trail (log ++ effects) target sequence (attempts + k) := by
  obtain ⟨before, after, rfl, hstart', hsends', hretries'⟩ := h
  refine ⟨before, after ++ effects, ?_, ?_, ?_, ?_⟩
  · rw [List.append_assoc, List.cons_append]
  · rw [announced_append, List.countP_append, hstart, hstart']
  · rw [sends_append, List.count_append, hsends, hsends']
  · rw [counted_append, List.count_append, hretries]
    omega

/-- Whether the effects so far end with the trail of the negotiation that a coordinator has not
finished. -/
def Trailing (log : List Effect) (c : Coordinator) : Prop :=
  ∀ target sequence timer attempts, c.state = .awaitingAck target sequence timer attempts →
    Trail log target sequence attempts.toNat ∧ attempts.toNat ≤ c.maxRetries.toNat + 1

/-- Effects that tell of no negotiation leave a trail where it was. -/
theorem Trailing.append {c : Coordinator} (h : Trailing log c) (hsilent : Silent effects) :
    Trailing (log ++ effects) c := by
  intro target sequence timer attempts hs
  obtain ⟨htrail, hle⟩ := h target sequence timer attempts hs
  refine ⟨htrail.append hsilent.starts ?_ hsilent.retries, hle⟩
  rw [hsilent.sends]
  rfl

/-- Whether every negotiation that is announced as abandoned has its trail up to there, with all the
transmissions that there may be. -/
def Trailed (maxRetries : Nat) (log : List Effect) : Prop :=
  ∀ past target attempts, past ++ [.announce (.negotiationAbandoned target attempts)] <+: log →
    attempts.toNat = maxRetries + 1 ∧ ∃ sequence, Trail past target sequence (maxRetries + 1)

variable {maxRetries : Nat}

/-- No negotiation has been abandoned at the start. -/
theorem Trailed.nil : Trailed maxRetries [] := by
  intro past target attempts hprefix
  exact absurd (List.prefix_nil.1 hprefix) (by simp)

/-- One more effect keeps all trails, if it announces no abandonment without one. -/
theorem Trailed.concat {effect : Effect} (h : Trailed maxRetries log)
    (heffect : ∀ target attempts, effect = .announce (.negotiationAbandoned target attempts) →
      attempts.toNat = maxRetries + 1 ∧ ∃ sequence, Trail log target sequence (maxRetries + 1)) :
    Trailed maxRetries (log ++ [effect]) := by
  intro past target attempts hprefix
  rcases List.prefix_concat_iff.1 hprefix with heq | hprefix
  · obtain ⟨rfl, hlast⟩ := List.append_inj' heq rfl
    exact heffect target attempts (List.singleton_inj.1 hlast).symm
  · exact h past target attempts hprefix

/-- Effects that abandon nothing have nothing to show. -/
theorem Trailed.append (h : Trailed maxRetries log)
    (hnone : (announced effects).countP Event.isAbandonment = 0) :
    Trailed maxRetries (log ++ effects) := by
  induction effects generalizing log with
  | nil =>
    rw [List.append_nil]
    exact h
  | cons effect effects ih =>
    rw [← List.singleton_append, announced_append, List.countP_append, Nat.add_eq_zero_iff] at hnone
    rw [← List.singleton_append, ← List.append_assoc]
    refine ih (h.concat ?_) hnone.2
    rintro target attempts rfl
    cases hnone.1

end Endpoint

namespace Negotiation.Coordinator

variable {c c' : Coordinator} {i : Input} {actions : List Action} {active : PathId}
  {log : List Effect}

/-- A move keeps the trail of the unfinished negotiation. -/
theorem Move.trailing (h : c.Move i c' actions) (horderly : c.Orderly active)
    (htrailing : Trailing log c) :
    Trailing (log ++ Control.carriedOut active actions) c' := by
  cases h with
  | triggerIgnored _ | ackIgnored _ | quiet _ => exact htrailing.append Plain.nil.silent
  | @begun best _ timer _ _ =>
    rintro target sequence timer attempts ⟨⟩
    refine ⟨⟨log ++ [.count .repathsSent], [.send (.repath best c.nextSequence) best], ?_, rfl, ?_,
      rfl⟩, Nat.le_add_left 1 _⟩
    · rw [List.append_assoc]
      rfl
    · exact List.count_singleton_self
  | repeated _ =>
    intro target sequence timer attempts hs
    obtain ⟨htrail, hle⟩ := htrailing target sequence timer attempts hs
    exact ⟨htrail.append (k := 0) rfl rfl rfl, hle⟩
  | adopted _ _ | confirmed _ | abandoned _ _ _ => nofun
  | resent timer' _ hs hle hlt =>
    obtain ⟨htrail, -⟩ := htrailing _ _ _ _ hs
    rintro target sequence timer attempts ⟨⟩
    have hnext : (_ + 1 : UInt32).toNat = _ + 1 := Checked.toNat_sum32 hlt
    unfold Control.carriedOut
    rw [if_neg (attempts_add_one_ne (horderly.begun _ _ _ _ hs) hlt), hnext]
    refine ⟨htrail.append (k := 1) rfl ?_ rfl, ?_⟩
    · exact List.count_singleton_self
    · exact Nat.succ_le_succ (UInt32.le_iff_toNat_le.1 hle)

/-- A negotiation is abandoned only after all its transmissions. -/
theorem Move.trailed (h : c.Move i c' actions) (horderly : c.Orderly active)
    (htrailing : Trailing log c) (htrailed : Trailed c.maxRetries.toNat log) :
    Trailed c.maxRetries.toNat (log ++ Control.carriedOut active actions) := by
  cases h with
  | triggerIgnored _ | ackIgnored _ | quiet _ | begun _ _ _ | repeated _ =>
    exact htrailed.append rfl
  | adopted _ _ | confirmed _ =>
    apply htrailed.append
    unfold Control.carriedOut Control.switched
    split <;> rfl
  | resent _ _ hs _ hlt =>
    apply htrailed.append
    unfold Control.carriedOut
    rw [if_neg (attempts_add_one_ne (horderly.begun _ _ _ _ hs) hlt)]
    rfl
  | @abandoned _ target sequence timer attempts _ _ hs hlt =>
    obtain ⟨htrail, hle⟩ := htrailing _ _ _ _ hs
    have hall : attempts.toNat = c.maxRetries.toNat + 1 :=
      Nat.le_antisymm hle (UInt32.lt_iff_toNat_lt.1 hlt)
    have hcounted : Trailed c.maxRetries.toNat (log ++ [.count .abandoned]) := htrailed.append rfl
    have hannounced : Trailed c.maxRetries.toNat ((log ++ [.count .abandoned]) ++
        [.announce (.negotiationAbandoned target attempts)]) := by
      apply hcounted.concat
      rintro _ _ ⟨⟩
      rw [hall] at htrail
      exact ⟨hall, sequence, htrail.append (k := 0) rfl rfl rfl⟩
    rw [List.append_assoc] at hannounced
    exact hannounced

end Negotiation.Coordinator

namespace Negotiation.Coordinator

variable {c c' : Coordinator} {i : Input} {actions : List Action} {active target via : PathId}
  {sequence : UInt64}

/-- A switch sends nothing. -/
theorem not_mem_switched {header : Header} {path : PathId} {cause : SwitchCause} :
    .send header via ∉ Control.switched active path cause := by
  unfold Control.switched
  split <;> simp

/-- A proposal is no confirmation. -/
theorem repath_ne_repathAck {ack : UInt64} : Header.repath target sequence ≠ Header.repathAck ack :=
  fun h => nomatch congrArg Header.kind h

/-- A move that sends a proposal and starts no negotiation repeats the unfinished one. -/
theorem Move.repeats (h : c.Move i c' actions) (horderly : c.Orderly active)
    (hsent : .send (.repath target sequence) via ∈ Control.carriedOut active actions)
    (hstarted : .announce (.negotiationStarted target sequence) ∉
      Control.carriedOut active actions) :
    i = .tick via ∧ Control.carriedOut active actions =
      [.count .repathsSent, .count .repathRetries, .send (.repath target sequence) via] := by
  cases h with
  | triggerIgnored _ | ackIgnored _ | quiet _ => nomatch hsent
  | @begun best _ _ _ _ =>
    have hsame : Header.repath target sequence = Header.repath best c.nextSequence ∧
        via = best := by
      simpa [Control.carriedOut] using hsent
    obtain ⟨hheader, -⟩ := hsame
    cases hheader
    exact absurd (by simp [Control.carriedOut]) hstarted
  | @repeated path ack _ =>
    have hsame : Header.repath target sequence = Header.repathAck ack ∧ via = path := by
      simpa [Control.carriedOut] using hsent
    exact absurd hsame.1 repath_ne_repathAck
  | @adopted path ack _ _ =>
    have hsame : Header.repath target sequence = Header.repathAck ack ∧ via = path := by
      simpa [Control.carriedOut, not_mem_switched] using hsent
    exact absurd hsame.1 repath_ne_repathAck
  | confirmed _ => simp [Control.carriedOut, not_mem_switched] at hsent
  | abandoned _ _ _ => simp [Control.carriedOut] at hsent
  | @resent best path number _ _ _ _ _ hs _ hlt =>
    have hrepetition := attempts_add_one_ne (horderly.begun _ _ _ _ hs) hlt
    have hsame : Header.repath target sequence = Header.repath path number ∧ via = best := by
      simpa [Control.carriedOut, hrepetition] using hsent
    obtain ⟨hheader, rfl⟩ := hsame
    cases hheader
    refine ⟨rfl, ?_⟩
    rw [Control.carriedOut, if_neg hrepetition]
    rfl

end Negotiation.Coordinator

namespace Endpoint

/-! ### Repetitions -/

variable {effects : List Effect} {e : Endpoint} {x : Stimulus} {r : Response}

/-- A look at the timers leaves the delays alone. -/
theorem respond_timers_estimator {now : UInt64} (hsound : e.control.party.Sound)
    (h : e.respond (.timers now) = .ok r) : r.control.estimator = e.control.estimator := by
  obtain ⟨-, hcontrol, -⟩ | ⟨_, _, _, hx, -⟩ | ⟨now', fired, -, -, htick, -⟩ := respond_eq_ok h
  · rw [hcontrol]
  · cases hx
  · obtain ⟨o, ho, hcarried⟩ := Control.tick_carriesOut htick
    obtain ⟨-, hmove⟩ := hsound.coupled.handle ho
    exact hcarried.delays fun path =>
      (hmove.still (fun _ _ he => nomatch he) (fun _ he => nomatch he) path).2

/-- A packet to be sent is not among plain effects. -/
theorem Plain.send_not_mem {header : Header} {path : PathId} (h : Plain effects) :
    .send header path ∉ effects :=
  fun hmem => h _ hmem

/-- Nor does it come before an outcome. -/
theorem Prompts.send_not_mem {now : UInt64} {i : Input} {plain : List Effect} {header : Header}
    {path : PathId} (h : Prompts e x now i plain) : .send header path ∉ plain := by
  cases h with
  | triggered _ hplain => exact hplain.send_not_mem
  | proposed _ | confirmed _ | looked => simp

/-- **A repetition rides the best path.** A proposal that is sent without a negotiation being
started is sent at a look at the timers, on the path that is best at that moment. -/
theorem respond_repeats {target via : PathId} {sequence : UInt64}
    (hsound : e.control.party.Sound)
    (horderly : e.control.coordinator.Orderly e.control.active.path) (h : e.respond x = .ok r)
    (hsent : .send (.repath target sequence) via ∈ r.effects)
    (hstarted : .announce (.negotiationStarted target sequence) ∉ r.effects) :
    (∃ now, x = .timers now) ∧ via = e.control.estimator.best ∧
      r.control.estimator = e.control.estimator ∧
      r.effects = [.count .repathsSent, .count .repathRetries,
        .send (.repath target sequence) via] := by
  obtain ⟨-, hplain, -⟩ | ⟨now, i, plain, o, hprompts, ho, -, heffects⟩ := respond_moves h
  · exact absurd hsent hplain.send_not_mem
  · obtain ⟨-, hmove⟩ := hsound.coupled.handle ho
    rw [heffects] at hsent hstarted
    have hcarried := (List.mem_append.1 hsent).resolve_left hprompts.send_not_mem
    obtain ⟨rfl, hrepetition⟩ := hmove.repeats horderly hcarried
      fun hmem => hstarted (List.mem_append_right plain hmem)
    cases hprompts with
    | looked =>
      have hestimator := respond_timers_estimator hsound h
      exact ⟨⟨now, rfl⟩, rfl, hestimator, heffects.trans hrepetition⟩

end Endpoint

end PathControl
