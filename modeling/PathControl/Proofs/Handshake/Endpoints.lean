import PathControl.Endpoint.Control
import PathControl.Proofs.Handshake.Exchange

/-!
# Endpoints as parties

The state that an endpoint decides with holds a party: its coordinator, its timers and its active
path. The delay table, the trigger and the counters beside it only choose when the party is
triggered and which path it takes for the best one.

* `Control.carriedOut`: the effects that the actions of a coordinator are carried out as.
* `Control.Hears`: a step is one input of the party, and the packets that it wants sent carry the
  messages of that turn.
* `Control.Told`, `Control.onPacket_told`: a packet is counted, remarked on, and may lead to a
  trigger, or hands the message that it carries to the coordinator.
* `Control.onPacket_advances`, `Control.tick_hears`: a packet leaves the party alone or is one
  input, its trigger or the message that the packet carries; a look at the timers is one input.
* `Linked.exchange`: two endpoints over a network that does not forge packets are the parties of an
  exchange.
-/

namespace PathControl.Handshake

open PathControl.Endpoint
open PathControl.Negotiation
open PathControl.Wire

/-- The message that a control header carries. -/
def Message.ofHeader? (h : Header) : Option Message :=
  match h.kind with
  | .repath => h.target.map fun target => .repath target h.sequence
  | .repathAck => some (.ack h.ack)
  | .probe | .timestamp => none

/-- The input that a message is. -/
def Message.input : Message → Input
  | .repath target sequence => .repath target sequence
  | .ack sequence => .ack sequence

/-- The message that an effect sends. -/
def sent? : Effect → Option Message
  | .send header _ => Message.ofHeader? header
  | .count _ | .announce _ => none

/-- The messages that effects send. -/
def sends (effects : List Effect) : List Message := effects.filterMap sent?

/-- Actions in two parts are followed one part after the other. -/
theorem Party.follow_append {a : ActivePath} {now : UInt64} {actions rest : List Action} :
    Party.follow a now (actions ++ rest) =
      Party.follow a now actions >>= fun a => Party.follow a now rest := by
  induction actions generalizing a with
  | nil => rfl
  | cons action actions ih =>
    cases action with
    | sendRepath | sendRepathAck | abandoned => exact ih
    | committed path | adopted path =>
      simp only [List.cons_append, Party.follow, bind_assoc, ih]

end PathControl.Handshake

namespace PathControl.Endpoint

open PathControl.Handshake
open PathControl.Wire

/-- The counter of the packets of a kind. -/
def receipt : MessageKind → Counter
  | .probe => .probesReceived
  | .repath => .repathsReceived
  | .repathAck => .acksReceived
  | .timestamp => .timestampsReceived

/-- Effects that only remark on a measurement. -/
inductive Effect.IsRemark : Effect → Prop where
  | anomaly : IsRemark (.count .clockAnomalies)
  | trigger : IsRemark (.count .triggers)
  | news {source target : PathId} : IsRemark (.announce (.bestPathChanged source target))

/-- The messages of effects in two parts are those of one part after the other. -/
theorem sends_append {effects rest : List Effect} :
    sends (effects ++ rest) = sends effects ++ sends rest :=
  List.filterMap_append

/-- Remarks send no message. -/
theorem sends_remarks {remarks : List Effect} (h : ∀ x ∈ remarks, x.IsRemark) :
    sends remarks = [] := by
  apply List.filterMap_eq_nil_iff.2
  intro x hx
  cases h x hx <;> rfl

end PathControl.Endpoint

namespace PathControl.Endpoint.Control

open PathControl.Handshake
open PathControl.Negotiation
open PathControl.Wire

variable {c c' : Control} {now : UInt64} {effects : List Effect}

/-- What of the state negotiates. -/
def party (c : Control) : Party := ⟨c.coordinator, c.timers, c.active⟩

/-- A step is an input of the party, and sends what the party says. -/
def Hears (c : Control) (now : UInt64) (i : Input) (c' : Control) (effects : List Effect) : Prop :=
  ∃ actions, c.party.handle now i = .ok (c'.party, actions) ∧
    sends effects = actions.filterMap message?

/-! ### Carrying out actions -/

/-- The effects of taking a path: a switch, unless it is the active one. -/
def switched (active path : PathId) (cause : SwitchCause) : List Effect :=
  if active = path then []
  else [.count .switches, .announce (.pathSwitched active path cause)]

/-- The effects that actions are carried out as, from an active path on. -/
def carriedOut (active : PathId) : List Action → List Effect
  | [] => []
  | .sendRepath target via sequence attempt :: actions =>
    .count .repathsSent ::
      (if attempt = 1 then .announce (.negotiationStarted target sequence)
        else .count .repathRetries) ::
      .send (.repath target sequence) via :: carriedOut active actions
  | .sendRepathAck via ack :: actions =>
    .count .acksSent :: .send (.repathAck ack) via :: carriedOut active actions
  | .committed path :: actions => switched active path .committed ++ carriedOut path actions
  | .adopted path :: actions => switched active path .adopted ++ carriedOut path actions
  | .abandoned target attempts :: actions =>
    .count .abandoned :: .announce (.negotiationAbandoned target attempts) ::
      carriedOut active actions

/-- Actions in two parts are carried out one part after the other, the second from the path that the
first leads to. -/
theorem carriedOut_append {active : PathId} {actions rest : List Action} :
    carriedOut active (actions ++ rest) =
      carriedOut active actions ++ carriedOut (Party.destination active actions) rest := by
  induction actions generalizing active with
  | nil => rfl
  | cons action actions ih =>
    cases action <;>
      simp only [List.cons_append, List.append_assoc, carriedOut, Party.destination, ih]

/-- A switch sends no message. -/
theorem sends_switched {active path : PathId} {cause : SwitchCause} :
    sends (switched active path cause) = [] := by
  unfold switched
  split <;> rfl

/-- The packets to send are the messages of the actions. -/
theorem sends_carriedOut {active : PathId} {actions : List Action} :
    sends (carriedOut active actions) = actions.filterMap message? := by
  induction actions generalizing active with
  | nil => rfl
  | cons action actions ih =>
    cases action with
    | sendRepath target via sequence attempt =>
      simp only [List.filterMap_cons, message?, carriedOut, ← @ih active]
      split <;> rfl
    | sendRepathAck via ack => exact congrArg (List.cons (.ack ack)) ih
    | abandoned target attempts => exact ih
    | committed path | adopted path =>
      rw [carriedOut, sends_append, sends_switched]
      exact ih

/-- A switch moves the active path and tells of it if it was another one. -/
theorem switchTo_eq_ok {path : PathId} {cause : SwitchCause}
    (h : c.switchTo now path cause = .ok (c', effects)) :
    ∃ active left, c.active.moveTo path now = .ok (active, left) ∧ c' = { c with active } ∧
      effects = switched c.active.path path cause := by
  obtain ⟨⟨active, left⟩, hmove, h⟩ := Checked.bind_eq_ok_iff.1 h
  refine ⟨active, left, hmove, ?_⟩
  unfold ActivePath.moveTo at hmove
  unfold switched
  split at hmove
  · next hpath =>
    cases hmove
    cases h
    exact ⟨rfl, (if_pos hpath).symm⟩
  · next hpath =>
    obtain ⟨switches, -, hmove⟩ := Checked.bind_eq_ok_iff.1 hmove
    cases hmove
    cases h
    exact ⟨rfl, (if_neg hpath).symm⟩

/-- What an outcome of the coordinator is carried out as: the party goes on as it says, the effects
are those of its actions, and the delays stay unless a path is adopted. -/
structure CarriesOut (c : Control) (now : UInt64) (o : Outcome) (c' : Control)
    (effects : List Effect) : Prop where
  follow : Party.follow c.active now o.actions = .ok c'.active
  coordinator : c'.coordinator = o.coordinator
  timers : c'.timers = o.timers
  effects : effects = carriedOut c.active.path o.actions
  delays : (∀ path, .adopted path ∉ o.actions) → c'.estimator = c.estimator

/-- Outcomes carried out one after the other are carried out as one that has the actions of both. -/
theorem CarriesOut.append {o o' : Outcome} {c₁ : Control} {rest : List Effect}
    (h : c.CarriesOut now o c₁ effects) (h' : c₁.CarriesOut now o' c' rest) :
    c.CarriesOut now { o' with actions := o.actions ++ o'.actions } c' (effects ++ rest) where
  follow := by
    rw [Party.follow_append, h.follow]
    exact h'.follow
  coordinator := h'.coordinator
  timers := h'.timers
  effects := by
    rw [carriedOut_append, ← Party.path_of_follow h.follow, ← h.effects, ← h'.effects]
  delays hnone := by
    rw [h'.delays fun path hmem => hnone path (List.mem_append_right _ hmem),
      h.delays fun path hmem => hnone path (List.mem_append_left _ hmem)]

/-- A single action is carried out on the coordinator and the timers as they are. -/
theorem act_carriesOut {action : Action} (h : c.act now action = .ok (c', effects)) :
    c.CarriesOut now ⟨c.coordinator, c.timers, [action]⟩ c' effects := by
  cases action with
  | sendRepath target via sequence attempt =>
    cases h
    refine ⟨rfl, rfl, rfl, ?_, fun _ => rfl⟩
    unfold carriedOut
    split <;> rfl
  | sendRepathAck via ack | abandoned target attempts =>
    cases h
    exact ⟨rfl, rfl, rfl, rfl, fun _ => rfl⟩
  | committed path =>
    obtain ⟨active, left, hmove, rfl, rfl⟩ := switchTo_eq_ok h
    refine ⟨?_, rfl, rfl, (List.append_nil _).symm, fun _ => rfl⟩
    rw [Party.follow, hmove]
    rfl
  | adopted path =>
    obtain ⟨active, left, hmove, rfl, rfl⟩ := switchTo_eq_ok h
    refine ⟨?_, rfl, rfl, (List.append_nil _).symm,
      fun hnone => absurd List.mem_cons_self (hnone path)⟩
    rw [Party.follow]
    rw [hmove]
    rfl

/-- So is a list of actions. -/
theorem actAll_carriesOut {actions : List Action} (h : c.actAll now actions = .ok (c', effects)) :
    c.CarriesOut now ⟨c.coordinator, c.timers, actions⟩ c' effects := by
  induction actions generalizing c c' effects with
  | nil =>
    cases h
    exact ⟨rfl, rfl, rfl, rfl, fun _ => rfl⟩
  | cons action actions ih =>
    obtain ⟨⟨c₁, first⟩, hact, h⟩ := Checked.bind_eq_ok_iff.1 h
    obtain ⟨⟨c₂, rest⟩, hrest, h⟩ := Checked.bind_eq_ok_iff.1 h
    cases h
    have hfirst := act_carriesOut hact
    have hall := hfirst.append (ih hrest)
    rwa [hfirst.coordinator, hfirst.timers] at hall

/-- An endpoint that follows an outcome carries it out. -/
theorem follow_carriesOut {o : Outcome} (h : c.follow now o = .ok (c', effects)) :
    c.CarriesOut now o c' effects := by
  obtain ⟨hfollow, hcoordinator, htimers, heffects, hdelays⟩ := actAll_carriesOut h
  exact ⟨hfollow, hcoordinator, htimers, heffects, hdelays⟩

/-- What the coordinator makes of an input is carried out as the party does it. -/
theorem CarriesOut.hears {i : Input} {o : Outcome} (h : c.CarriesOut now o c' effects)
    (ho : c.coordinator.handle c.timers now i = .ok o) : c.Hears now i c' effects := by
  refine ⟨o.actions, ?_, h.effects ▸ sends_carriedOut⟩
  rw [party, Party.handle, ho, party, h.coordinator, h.timers]
  show (Party.follow c.active now o.actions >>= _) = _
  rw [h.follow]
  rfl

/-! ### Timers -/

/-- A timer asks for nothing, for another transmission, or to tell of an abandonment. -/
theorem actions_of_onTimer {k : Coordinator} {w : TimerWheel} {t : TimerHandle} {kind : TimerKind}
    {best : PathId} {o : Outcome} (ho : k.onTimer w now t kind best = .ok o) :
    o.actions = [] ∨
      (∃ target via sequence attempt, o.actions = [.sendRepath target via sequence attempt]) ∨
      ∃ target attempts, o.actions = [.abandoned target attempts] := by
  cases kind with
  | guard =>
    simp only [Coordinator.onTimer] at ho
    split at ho <;> cases ho <;> exact .inl rfl
  | repathRetry =>
    simp only [Coordinator.onTimer, Coordinator.onRetryTimer] at ho
    split at ho
    · cases ho
      exact .inl rfl
    · split at ho
      · cases ho
        exact .inl rfl
      · split at ho
        · cases ho
          exact .inr (.inr ⟨_, _, rfl⟩)
        · obtain ⟨attempt, -, ho⟩ := Checked.bind_eq_ok_iff.1 ho
          obtain ⟨⟨w', t'⟩, -, ho⟩ := Checked.bind_eq_ok_iff.1 ho
          cases ho
          exact .inr (.inl ⟨_, _, _, _, rfl⟩)

/-- A timer never adopts a path. -/
theorem adopted_not_mem_of_onTimer {k : Coordinator} {w : TimerWheel} {t : TimerHandle}
    {kind : TimerKind} {best : PathId} {o : Outcome} (ho : k.onTimer w now t kind best = .ok o)
    (path : PathId) : .adopted path ∉ o.actions := by
  obtain h | ⟨_, _, _, _, h⟩ | ⟨_, _, h⟩ := actions_of_onTimer ho
  · simp [h]
  · simp [h]
  · simp [h]

/-- The timers of one look see one best path, so that they are one input. -/
theorem onTimers_carriesOut {fired : List (TimerHandle × TimerKind)}
    (h : c.onTimers now fired = .ok (c', effects)) :
    ∃ o, c.coordinator.onTimers c.timers now c.estimator.best fired = .ok o ∧
      c.CarriesOut now o c' effects := by
  induction fired generalizing c c' effects with
  | nil =>
    cases h
    exact ⟨_, rfl, rfl, rfl, rfl, rfl, fun _ => rfl⟩
  | cons x fired ih =>
    obtain ⟨t, kind⟩ := x
    obtain ⟨first, hfirst, h⟩ := Checked.bind_eq_ok_iff.1 h
    obtain ⟨⟨c₁, effects₁⟩, hc₁, h⟩ := Checked.bind_eq_ok_iff.1 h
    obtain ⟨⟨c₂, effects₂⟩, hc₂, h⟩ := Checked.bind_eq_ok_iff.1 h
    cases h
    have hcarried := follow_carriesOut hc₁
    obtain ⟨rest, hrest, hcarried'⟩ := ih hc₂
    rw [hcarried.coordinator, hcarried.timers,
      hcarried.delays (adopted_not_mem_of_onTimer hfirst)] at hrest
    refine ⟨{ rest with actions := first.actions ++ rest.actions }, ?_,
      hcarried.append hcarried'⟩
    simp only [Coordinator.onTimers, Checked.bind_eq_ok_iff]
    exact ⟨first, hfirst, rest, hrest, rfl⟩

/-- A look at the timers is one input of the coordinator, which is carried out. -/
theorem tick_carriesOut {fired : Nat} (h : c.tick now = .ok ((c', effects), fired)) :
    ∃ o, c.coordinator.handle c.timers now (.tick c.estimator.best) = .ok o ∧
      c.CarriesOut now o c' effects := by
  obtain ⟨⟨c₁, effects₁⟩, hstep, h⟩ := Checked.bind_eq_ok_iff.1 h
  cases h
  obtain ⟨o, ho, hcarried⟩ := onTimers_carriesOut hstep
  exact ⟨o, Coordinator.handle_tick.2 ho, hcarried.follow, hcarried.coordinator, hcarried.timers,
    hcarried.effects, hcarried.delays⟩

/-- A look at the timers is an input of the party. -/
theorem tick_hears {fired : Nat} (h : c.tick now = .ok ((c', effects), fired)) :
    c.Hears now (.tick c.estimator.best) c' effects := by
  obtain ⟨o, ho, hcarried⟩ := tick_carriesOut h
  exact hcarried.hears ho

/-! ### Packets -/

/-- What a packet does besides being counted, given the message that it carries. Without a message
it is remarked on, and may lead to a trigger; a message is handed to the coordinator. What the
coordinator makes of either is carried out. -/
inductive Told (c : Control) (now : UInt64) : Option Message → Control → List Effect → Prop where
  | noted {c' : Control} {remarks : List Effect} :
      c'.party = c.party → (∀ x ∈ remarks, x.IsRemark) → Told c now none c' remarks
  | triggered {c₀ c' : Control} {remarks effects : List Effect} {o : Outcome} :
      c₀.party = c.party → (∀ x ∈ remarks, x.IsRemark) →
      c₀.coordinator.handle c₀.timers now (.trigger c₀.estimator.best c₀.active.path) = .ok o →
      c₀.follow now o = .ok (c', effects) → Told c now none c' (remarks ++ effects)
  | heard {m : Message} {c' : Control} {effects : List Effect} {o : Outcome} :
      c.coordinator.handle c.timers now m.input = .ok o → c.follow now o = .ok (c', effects) →
      Told c now (some m) c' effects

/-- Another remark in front does not change what was told. -/
theorem Told.after_remark {remark : Effect} (h : c.Told now none c' effects)
    (hremark : remark.IsRemark) : c.Told now none c' (remark :: effects) := by
  cases h with
  | noted hparty hremarks => exact .noted hparty (List.forall_mem_cons.2 ⟨hremark, hremarks⟩)
  | triggered hparty hremarks ho hfollow =>
    exact .triggered hparty (List.forall_mem_cons.2 ⟨hremark, hremarks⟩) ho hfollow

/-- Only the party of the state before matters. -/
theorem Told.of_party {c₀ : Control} (h : c₀.Told now none c' effects)
    (hparty : c₀.party = c.party) : c.Told now none c' effects := by
  cases h with
  | noted hparty' hremarks => exact .noted (hparty'.trans hparty) hremarks
  | triggered hparty' hremarks ho hfollow =>
    exact .triggered (hparty'.trans hparty) hremarks ho hfollow

/-- A comparison of delays notes an anomaly, leaves it at the measurement, or triggers the
negotiation. -/
theorem evaluate_told {time delay : UInt64} (h : c.evaluate now time delay = .ok (c', effects)) :
    c.Told now none c' effects := by
  obtain ⟨⟨trigger, result⟩, -, h⟩ := Checked.bind_eq_ok_iff.1 h
  simp only at h
  split at h
  · cases h
    exact .noted rfl (List.forall_mem_singleton.2 .anomaly)
  · cases h
    exact .noted rfl (List.forall_mem_nil _)
  · obtain ⟨o, ho, h⟩ := Checked.bind_eq_ok_iff.1 h
    obtain ⟨⟨c₁, effects₁⟩, hfollow, h⟩ := Checked.bind_eq_ok_iff.1 h
    cases h
    have htold : Told { c with trigger } now none _ effects₁ :=
      .triggered rfl (List.forall_mem_nil _) ho hfollow
    exact (htold.after_remark .trigger).of_party rfl

/-- A probe is counted, and tells no message. -/
theorem onProbe_told {path : PathId} {time : UInt64}
    (h : c.onProbe now path time = .ok (c', effects)) :
    ∃ rest, effects = .count .probesReceived :: rest ∧ c.Told now none c' rest := by
  simp only [onProbe] at h
  split at h
  · cases h
    exact ⟨_, rfl, .noted rfl (List.forall_mem_singleton.2 .anomaly)⟩
  · have hnews : ∀ {c₁ : Control} {effects₁ : List Effect} {p : Prop} [Decidable p]
        {source target : PathId}, c.Told now none c₁ effects₁ →
        c.Told now none c₁ ((if p then [] else [.announce (.bestPathChanged source target)]) ++
          effects₁) := by
      intro c₁ effects₁ p _ source target htold
      split
      · exact htold
      · exact htold.after_remark .news
    split at h
    · obtain ⟨⟨c₁, effects₁⟩, hstep, h⟩ := Checked.bind_eq_ok_iff.1 h
      cases h
      exact ⟨_, rfl, hnews ((evaluate_told hstep).of_party rfl)⟩
    · obtain ⟨⟨c₁, effects₁⟩, hstep, h⟩ := Checked.bind_eq_ok_iff.1 h
      cases hstep
      cases h
      exact ⟨_, rfl, hnews (.noted rfl (List.forall_mem_nil _))⟩

/-- A timestamp is counted, and tells no message. -/
theorem onTimestamp_told {path : PathId} {time : UInt64}
    (h : c.onTimestamp now path time = .ok (c', effects)) :
    ∃ rest, effects = .count .timestampsReceived :: rest ∧ c.Told now none c' rest := by
  simp only [onTimestamp] at h
  split at h
  · cases h
    exact ⟨_, rfl, .noted rfl (List.forall_mem_nil _)⟩
  · split at h
    · cases h
      exact ⟨_, rfl, .noted rfl (List.forall_mem_singleton.2 .anomaly)⟩
    · obtain ⟨⟨c₁, effects₁⟩, hstep, h⟩ := Checked.bind_eq_ok_iff.1 h
      cases h
      exact ⟨_, rfl, evaluate_told hstep⟩

/-- A packet is counted by its kind and told, unless it is a proposal of nothing. -/
theorem onPacket_told {packet : ControlPacket} (h : c.onPacket now packet = .ok (c', effects)) :
    packet.header.kind = .repath ∧ packet.header.target = none ∧ c' = c ∧ effects = [] ∨
      ∃ rest, effects = .count (receipt packet.header.kind) :: rest ∧
        c.Told now (Message.ofHeader? packet.header) c' rest := by
  unfold Message.ofHeader?
  simp only [onPacket] at h
  split at h
  · next hkind =>
    rw [hkind]
    exact .inr (onProbe_told h)
  · next hkind =>
    rw [hkind]
    exact .inr (onTimestamp_told h)
  · next hkind =>
    rw [hkind]
    split at h
    · next target htarget =>
      obtain ⟨o, ho, h⟩ := Checked.bind_eq_ok_iff.1 h
      obtain ⟨⟨c₁, effects₁⟩, hfollow, h⟩ := Checked.bind_eq_ok_iff.1 h
      cases h
      rw [htarget]
      exact .inr ⟨_, rfl, .heard ho hfollow⟩
    · next htarget =>
      cases h
      exact .inl ⟨rfl, htarget, rfl, rfl⟩
  · next hkind =>
    rw [hkind]
    obtain ⟨⟨c₁, effects₁⟩, hfollow, h⟩ := Checked.bind_eq_ok_iff.1 h
    cases h
    exact .inr ⟨_, rfl, .heard rfl hfollow⟩

/-- A step that leaves the party alone, or is one input that can reach it. -/
def Advances (c : Control) (now : UInt64) (sent : List Message) (c' : Control)
    (effects : List Effect) : Prop :=
  c'.party = c.party ∧ sends effects = [] ∨
    ∃ i, Reaches c.party sent i ∧ c.Hears now i c' effects

/-- A step stays possible when more was sent. -/
theorem Advances.mono {sent sent' : List Message} (h : c.Advances now sent c' effects)
    (hsub : sent ⊆ sent') : c.Advances now sent' c' effects := by
  rcases h with h | ⟨i, hreach, hhears⟩
  · exact .inl h
  · exact .inr ⟨i, hreach.mono hsub, hhears⟩

/-- What a packet tells leaves the party alone, or is one input that can reach it. -/
theorem Told.advances {m : Option Message} (h : c.Told now m c' effects) :
    c.Advances now m.toList c' effects := by
  cases h with
  | noted hparty hremarks => exact .inl ⟨hparty, sends_remarks hremarks⟩
  | @triggered c₀ _ remarks effects o hparty hremarks ho hfollow =>
    obtain ⟨actions, hhandle, hmessages⟩ := (follow_carriesOut hfollow).hears ho
    refine .inr ⟨.trigger c₀.estimator.best c₀.active.path, ?_, actions, hparty ▸ hhandle, ?_⟩
    · exact (congrArg (fun p => p.active.path) hparty)
    · rw [sends_append, sends_remarks hremarks]
      exact hmessages
  | @heard m _ effects o ho hfollow =>
    refine .inr ⟨m.input, ?_, (follow_carriesOut hfollow).hears ho⟩
    cases m <;> exact List.mem_cons_self

/-- A control packet leaves the party alone, triggers it, or hands it the message carried. -/
theorem onPacket_advances {packet : ControlPacket}
    (h : c.onPacket now packet = .ok (c', effects)) :
    c.Advances now (Message.ofHeader? packet.header).toList c' effects := by
  obtain ⟨-, -, rfl, rfl⟩ | ⟨rest, rfl, htold⟩ := onPacket_told h
  · exact .inl ⟨rfl, rfl⟩
  · exact htold.advances

end PathControl.Endpoint.Control

namespace PathControl.Handshake

open PathControl.Endpoint
open PathControl.Wire

/-- Two endpoints and the messages that each has sent. A control packet arrives at any time if the
message that it carries was sent; probes and timestamps arrive as they like. -/
inductive Linked (tuning : Role → Tuning) : (Role → Control) → (Role → List Message) → Prop where
  | start : Linked tuning (fun side => .new (tuning side) (.new (tuning side).initialPath))
      fun _ => []
  | packet {controls : Role → Control} {sent : Role → List Message} {c : Control}
      {effects : List Effect} (side : Role) (now : UInt64) (packet : ControlPacket) :
      Linked tuning controls sent → (Message.ofHeader? packet.header).toList ⊆ sent side.other →
      (controls side).onPacket now packet = .ok (c, effects) →
      Linked tuning (Function.update controls side c)
        (Function.update sent side (sent side ++ sends effects))
  | tick {controls : Role → Control} {sent : Role → List Message} {c : Control}
      {effects : List Effect} {fired : Nat} (side : Role) (now : UInt64) :
      Linked tuning controls sent → (controls side).tick now = .ok ((c, effects), fired) →
      Linked tuning (Function.update controls side c)
        (Function.update sent side (sent side ++ sends effects))

variable {tuning : Role → Tuning} {controls : Role → Control} {sent : Role → List Message}

/-- A step of an endpoint is a turn of its party, or none. -/
theorem Exchange.advance {turns : List Turn} {side : Role} {now : UInt64} {c : Control}
    {effects : List Effect} (h : Exchange tuning turns fun side => (controls side).party)
    (hsent : ∀ side, sentBy side turns = sent side)
    (hstep : (controls side).Advances now (sent side.other) c effects) :
    ∃ turns, (Exchange tuning turns fun side' => (Function.update controls side c side').party) ∧
      ∀ side', sentBy side' turns =
        Function.update sent side (sent side ++ sends effects) side' := by
  have hparties : (fun side' => (Function.update controls side c side').party) =
      Function.update (fun side => (controls side).party) side c.party :=
    Function.comp_update Control.party controls side c
  rw [hparties]
  rcases hstep with ⟨hparty, hnothing⟩ | ⟨i, hreach, actions, hhandle, hmessages⟩
  · rw [hparty, hnothing, List.append_nil, Function.update_eq_self, Function.update_eq_self]
    exact ⟨turns, h, hsent⟩
  · rw [← hsent] at hreach
    let x : Turn := ⟨side, (controls side).party, now, i, actions, c.party⟩
    refine ⟨turns ++ [x], h.turn x rfl hreach hhandle, fun side' => ?_⟩
    by_cases hside : x.side = side'
    · subst hside
      rw [sentBy_concat_self rfl, Function.update_self, hsent, hmessages]
      rfl
    · rw [sentBy_concat_of_ne hside, Function.update_of_ne (Ne.symm hside), hsent]

/-- **Two endpoints are the parties of an exchange.** Whatever packets and looks at the timers
two endpoints handle, as long as every proposal and every confirmation that arrives was sent, their
coordinators, timers and active paths have a history as an `Exchange`, in which each side has sent
the same messages. -/
theorem Linked.exchange (h : Linked tuning controls sent) :
    ∃ turns, (Exchange tuning turns fun side => (controls side).party) ∧
      ∀ side, sentBy side turns = sent side := by
  induction h with
  | start => exact ⟨[], .start, fun _ => rfl⟩
  | packet side now packet h hcarried hstep ih =>
    obtain ⟨turns, hex, hsent⟩ := ih
    exact hex.advance hsent ((Control.onPacket_advances hstep).mono hcarried)
  | tick side now h hstep ih =>
    obtain ⟨turns, hex, hsent⟩ := ih
    exact hex.advance hsent (.inr ⟨.tick _, trivial, Control.tick_hears hstep⟩)

end PathControl.Handshake
