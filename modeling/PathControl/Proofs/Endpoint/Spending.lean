import PathControl.Proofs.Delay.Trigger
import PathControl.Proofs.Endpoint.Switching
import PathControl.Proofs.Handshake.Spending

/-!
# What a packet and a look at the timers use up

The control state counts samples, switches, timer handles and transmissions in words of a fixed
size. As long as one more of each can be counted, it takes any packet and any look at the timers.

* `Control.Ready.onPacket_succeeds`, `Control.Ready.tick_succeeds`: the step goes through and has
  its `Control.Costs`: at most one more of each count, and at most one message.
* `Control.Spent`: the counts after so many packets and looks, of which so many are looks.
  `Spent.ready`: those counts stay within their words for a long time.
* `Candid`: the effects of a step count no dropped frame, and send nothing but messages.
-/

namespace PathControl.Endpoint

open PathControl.Delay
open PathControl.Handshake
open PathControl.Negotiation
open PathControl.Wire

namespace Control

variable {c c' : Control} {now : UInt64} {effects : List Effect}

/-! ### Carrying out actions -/

/-- A move of the active path that can be counted is a switch that goes through. -/
theorem switchTo_succeeds {path : PathId} {active : ActivePath} {left : Option PathId}
    (h : c.active.moveTo path now = .ok (active, left)) (cause : SwitchCause) :
    ∃ effects, c.switchTo now path cause = .ok ({ c with active }, effects) := by
  unfold switchTo
  rw [h, Checked.ok_bind]
  obtain ⟨-, rfl, rfl⟩ | ⟨-, -, -, rfl⟩ := ActivePath.moveTo_eq_ok h
  · exact ⟨[], rfl⟩
  · exact ⟨_, rfl⟩

/-- Actions are carried out as long as the party can follow them, and the trigger is no affair of
them. -/
theorem actAll_succeeds {actions : List Action} {a : ActivePath}
    (h : Party.follow c.active now actions = .ok a) :
    ∃ c' effects, c.actAll now actions = .ok (c', effects) ∧ c'.trigger = c.trigger := by
  induction actions generalizing c with
  | nil => exact ⟨c, [], rfl, rfl⟩
  | cons action actions ih =>
    suffices hfirst : ∃ c₁ first, c.act now action = .ok (c₁, first) ∧ c₁.trigger = c.trigger ∧
        Party.follow c₁.active now actions = .ok a by
      obtain ⟨c₁, first, hact, htrigger, hrest⟩ := hfirst
      obtain ⟨c', rest, hall, htrigger'⟩ := ih hrest
      refine ⟨c', first ++ rest, ?_, htrigger'.trans htrigger⟩
      rw [actAll, hact, Checked.ok_bind]
      dsimp only
      rw [hall]
      rfl
    cases action with
    | sendRepath target via sequence attempt => exact ⟨c, _, rfl, rfl, h⟩
    | sendRepathAck via ack => exact ⟨c, _, rfl, rfl, h⟩
    | abandoned target attempts => exact ⟨c, _, rfl, rfl, h⟩
    | committed path =>
      obtain ⟨⟨active, left⟩, hmove, hrest⟩ := Checked.bind_eq_ok_iff.1 h
      obtain ⟨effects, hswitch⟩ := switchTo_succeeds hmove .committed
      exact ⟨_, _, hswitch, rfl, hrest⟩
    | adopted path =>
      obtain ⟨⟨active, left⟩, hmove, hrest⟩ := Checked.bind_eq_ok_iff.1 h
      obtain ⟨effects, hswitch⟩ :=
        switchTo_succeeds (c := { c with estimator := c.estimator.adopt path }) hmove .adopted
      exact ⟨_, _, hswitch, rfl, hrest⟩

/-! ### Inputs -/

/-- A step that goes through as one input of the party: what it adds to the counts of the party, and
that it sends at most one message. The trigger is no affair of it. -/
structure Turned (c : Control) (looks : Nat) (c' : Control) (effects : List Effect) : Prop where
  party : c.party.Spends looks c'.party
  trigger : c'.trigger = c.trigger
  sends : (sends effects).length ≤ 1

/-- What the coordinator makes of an input is carried out. -/
theorem input_succeeds (h : c.party.Ready) (now : UInt64) (i : Input) :
    ∃ o c' effects, c.coordinator.handle c.timers now i = .ok o ∧
      c.follow now o = .ok (c', effects) ∧ c.Turned i.looks c' effects := by
  obtain ⟨p, actions, hp⟩ := h.handle_succeeds now i
  obtain ⟨o, ho, hp⟩ := Checked.bind_eq_ok_iff.1 hp
  obtain ⟨active, hactive, -⟩ := Checked.bind_eq_ok_iff.1 hp
  obtain ⟨c', effects, hfollow, htrigger⟩ :=
    actAll_succeeds (c := { c with coordinator := o.coordinator, timers := o.timers }) hactive
  obtain ⟨actions', hhandle, hmessages⟩ := (follow_carriesOut hfollow).hears ho
  obtain ⟨hspends, hsends⟩ := h.handle_spends hhandle
  rw [← hmessages] at hsends
  exact ⟨o, c', effects, ho, hfollow, hspends, htrigger, hsends⟩

/-- The timers of one look ask for no switch, so that all of them are carried out. -/
theorem onTimers_succeeds {fired : List (TimerHandle × TimerKind)} {o : Outcome}
    (h : c.coordinator.onTimers c.timers now c.estimator.best fired = .ok o) :
    ∃ c' effects, c.onTimers now fired = .ok (c', effects) ∧ c'.trigger = c.trigger := by
  induction fired generalizing c o with
  | nil => exact ⟨c, [], rfl, rfl⟩
  | cons x fired ih =>
    obtain ⟨t, kind⟩ := x
    simp only [Coordinator.onTimers, Checked.bind_eq_ok_iff] at h
    obtain ⟨first, hfirst, rest, hrest, -⟩ := h
    have hfollow : Party.follow c.active now first.actions = .ok c.active := by
      obtain hactions | ⟨_, _, _, _, hactions⟩ | ⟨_, _, hactions⟩ := actions_of_onTimer hfirst
      · rw [hactions]
        rfl
      · rw [hactions]
        rfl
      · rw [hactions]
        rfl
    obtain ⟨c₁, effects₁, hcarried, htrigger⟩ := actAll_succeeds
      (c := { c with coordinator := first.coordinator, timers := first.timers }) hfollow
    have hout : c.CarriesOut now first c₁ effects₁ := follow_carriesOut hcarried
    rw [← hout.coordinator, ← hout.timers,
      ← hout.delays (adopted_not_mem_of_onTimer hfirst)] at hrest
    obtain ⟨c₂, effects₂, hothers, htrigger'⟩ := ih hrest
    refine ⟨c₂, effects₁ ++ effects₂, ?_, htrigger'.trans htrigger⟩
    rw [onTimers, hfirst, Checked.ok_bind, follow, hcarried, Checked.ok_bind]
    dsimp only
    rw [hothers]
    rfl

/-! ### Packets and looks -/

/-- Whether one more packet or look at the timers can be counted. -/
structure Ready (c : Control) : Prop where
  party : c.party.Ready
  samples : c.trigger.health.samples.toNat + 1 < UInt64.size

/-- What a step, `looks` looks at the timers, adds to the counts. It sends at most one message. -/
structure Costs (c : Control) (looks : Nat) (c' : Control) (effects : List Effect) : Prop where
  party : c.party.Spends looks c'.party
  samples : c'.trigger.health.samples.toNat ≤ c.trigger.health.samples.toNat + 1
  sends : (sends effects).length ≤ 1

/-- One input costs no sample. -/
theorem Turned.costs {looks : Nat} (h : c.Turned looks c' effects) : c.Costs looks c' effects where
  party := h.party
  samples := by
    rw [h.trigger]
    exact Nat.le_succ _
  sends := h.sends

/-- A step that counts and announces, and leaves the party alone. -/
theorem costs_of_silence (h : c.party.Ready) (hparty : c'.party = c.party)
    (hsamples : c'.trigger.health.samples.toNat ≤ c.trigger.health.samples.toNat + 1)
    (hsends : Handshake.sends effects = []) : c.Costs 0 c' effects where
  party := by
    rw [hparty]
    exact h.spends_nothing 0
  samples := hsamples
  sends := by
    rw [hsends]
    exact Nat.zero_le 1

/-- Effects that send no message cost nothing. -/
theorem Costs.after_silence {silence : List Effect} {looks : Nat} (h : c.Costs looks c' effects)
    (hs : Handshake.sends silence = []) : c.Costs looks c' (silence ++ effects) where
  party := h.party
  samples := h.samples
  sends := by
    have hsplit : Handshake.sends (silence ++ effects) = Handshake.sends effects := by
      rw [Handshake.sends, List.filterMap_append, ← Handshake.sends, hs, List.nil_append]
      rfl
    rw [hsplit]
    exact h.sends

namespace Ready

/-- A sample of the active path goes through, whether it triggers anything or not. -/
theorem evaluate_succeeds (h : c.Ready) (now sent delay : UInt64) :
    ∃ c' effects, c.evaluate now sent delay = .ok (c', effects) ∧ c.Costs 0 c' effects := by
  obtain ⟨trigger, answer, hobserve, hsamples⟩ :=
    c.trigger.observe_eq_ok h.samples sent delay
  unfold evaluate
  rw [hobserve, Checked.ok_bind]
  dsimp only
  split
  · exact ⟨_, _, rfl, costs_of_silence h.party rfl hsamples rfl⟩
  · exact ⟨_, _, rfl, costs_of_silence h.party rfl hsamples rfl⟩
  · obtain ⟨o, c', effects, ho, hfollow, hturned⟩ := input_succeeds (c := { c with trigger })
      h.party now (.trigger c.estimator.best c.active.path)
    have htrigger : c.coordinator.onTrigger c.timers now c.estimator.best c.active.path = .ok o :=
      ho
    rw [htrigger, Checked.ok_bind, hfollow]
    refine ⟨c', _, rfl, hturned.party, ?_, hturned.sends⟩
    rw [hturned.trigger]
    exact hsamples

/-- A probe goes through, on the active path and off it. -/
theorem onProbe_succeeds (h : c.Ready) (now : UInt64) (path : PathId) (sent : UInt64) :
    ∃ c' effects, c.onProbe now path sent = .ok (c', effects) ∧ c.Costs 0 c' effects := by
  unfold onProbe
  rcases c.estimator.recordProbe path sent now with ⟨estimator, cause | delay⟩
  · exact ⟨_, _, rfl, costs_of_silence h.party rfl (Nat.le_succ _) rfl⟩
  · have hnews : ∀ {p : Prop} [Decidable p] {event : Event},
        sends (.count .probesReceived :: if p then [] else [.announce event]) = [] := by
      intro p _ event
      split <;> rfl
    dsimp only
    split
    · have hready : Ready { c with estimator } := ⟨h.party, h.samples⟩
      obtain ⟨c', effects, hstep, hcosts⟩ := hready.evaluate_succeeds now sent delay
      rw [hstep]
      have hcosts' : c.Costs 0 c' effects := ⟨hcosts.party, hcosts.samples, hcosts.sends⟩
      exact ⟨_, _, rfl, hcosts'.after_silence hnews⟩
    · have hstill : c.Costs 0 { c with estimator } [] :=
        costs_of_silence h.party rfl (Nat.le_succ _) rfl
      exact ⟨_, _, rfl, hstill.after_silence hnews⟩

/-- A timestamp of user data goes through, on the active path and off it. -/
theorem onTimestamp_succeeds (h : c.Ready) (now : UInt64) (path : PathId) (sent : UInt64) :
    ∃ c' effects, c.onTimestamp now path sent = .ok (c', effects) ∧ c.Costs 0 c' effects := by
  unfold onTimestamp
  split
  · exact ⟨_, _, rfl, costs_of_silence h.party rfl (Nat.le_succ _) rfl⟩
  · split
    · exact ⟨_, _, rfl, costs_of_silence h.party rfl (Nat.le_succ _) rfl⟩
    · next delay _ =>
      obtain ⟨c', effects, hstep, hcosts⟩ := h.evaluate_succeeds now sent delay
      rw [hstep]
      exact ⟨_, _, rfl, hcosts.party, hcosts.samples, hcosts.sends⟩

/-- Any packet is taken. -/
theorem onPacket_succeeds (h : c.Ready) (now : UInt64) (packet : ControlPacket) :
    ∃ c' effects, c.onPacket now packet = .ok (c', effects) ∧ c.Costs 0 c' effects := by
  unfold onPacket
  dsimp only
  split
  · exact h.onProbe_succeeds now _ _
  · exact h.onTimestamp_succeeds now _ _
  · split
    · next target _ =>
      obtain ⟨o, c', effects, ho, hfollow, hturned⟩ :=
        input_succeeds h.party now (.repath target packet.header.sequence)
      have hrepath : c.coordinator.onRepath c.timers now target packet.header.sequence = .ok o := ho
      rw [onRepath, hrepath, Checked.ok_bind, hfollow]
      exact ⟨_, _, rfl, hturned.costs.party, hturned.costs.samples, hturned.sends⟩
    · exact ⟨_, _, rfl, costs_of_silence h.party rfl (Nat.le_succ _) rfl⟩
  · obtain ⟨o, c', effects, ho, hfollow, hturned⟩ :=
      input_succeeds h.party now (.ack packet.header.ack)
    cases ho
    rw [onRepathAck, hfollow]
    exact ⟨_, _, rfl, hturned.costs.party, hturned.costs.samples, hturned.sends⟩

/-- A look at the timers goes through. -/
theorem tick_succeeds (h : c.Ready) (now : UInt64) :
    ∃ c' effects fired, c.tick now = .ok ((c', effects), fired) ∧ c.Costs 1 c' effects := by
  obtain ⟨o, ho⟩ := h.party.coupled.handle_succeeds_of_countable h.party.handles
    h.party.countable now (.tick c.estimator.best)
  obtain ⟨c', effects, hstep, htrigger⟩ :=
    onTimers_succeeds (c := { c with timers := (c.timers.pollExpired now).1 })
      (Coordinator.handle_tick.1 ho)
  have htick : c.tick now = .ok ((c', effects), (c.timers.pollExpired now).2.length) := by
    unfold tick
    dsimp only
    rw [hstep]
    rfl
  obtain ⟨actions, hhandle, hmessages⟩ := tick_hears htick
  obtain ⟨hspends, hsends⟩ := h.party.handle_spends hhandle
  rw [← hmessages] at hsends
  have hturned : c.Turned 1 c' effects := ⟨hspends, htrigger, hsends⟩
  exact ⟨_, _, _, htick, hturned.costs⟩

end Ready

/-! ### Long runs -/

/-- What the counts have come to at most after `inputs` packets and looks at the timers, of which
`looks` were looks. -/
structure Spent (c : Control) (inputs looks : Nat) : Prop where
  coupled : Coupled c.coordinator c.timers []
  samples : c.trigger.health.samples.toNat ≤ inputs
  handles : c.timers.lastId.toNat ≤ inputs
  switches : c.active.switches.toNat ≤ inputs
  repeats : c.coordinator.state.repeats ≤ looks

variable {inputs looks : Nat}

/-- A fresh control state has spent the switches that it starts with. -/
theorem spent_new (t : Tuning) {active : ActivePath} (h : active.switches.toNat ≤ inputs) :
    (Control.new t active).Spent inputs looks :=
  ⟨.start _ _ _, Nat.zero_le _, Nat.zero_le _, h, Nat.zero_le _⟩

/-- Counts that come to no more than some numbers come to no more than greater ones. -/
theorem Spent.mono {inputs' looks' : Nat} (h : c.Spent inputs looks) (hinputs : inputs ≤ inputs')
    (hlooks : looks ≤ looks') : c.Spent inputs' looks' where
  coupled := h.coupled
  samples := Nat.le_trans h.samples hinputs
  handles := Nat.le_trans h.handles hinputs
  switches := Nat.le_trans h.switches hinputs
  repeats := Nat.le_trans h.repeats hlooks

/-- As long as no count has come to the end of its word, one more of each can be made. -/
theorem Spent.ready_of_countable (h : c.Spent inputs looks) (hinputs : inputs + 1 < UInt64.size)
    (hcount : c.coordinator.Countable) : c.Ready where
  party := ⟨h.coupled, Nat.lt_of_le_of_lt (Nat.succ_le_succ h.handles) hinputs, hcount,
    Nat.lt_of_le_of_lt (Nat.succ_le_succ h.switches) hinputs⟩
  samples := Nat.lt_of_le_of_lt (Nat.succ_le_succ h.samples) hinputs

/-- The counts are far from the ends of their words. -/
theorem Spent.ready (h : c.Spent inputs looks) (hinputs : inputs + 1 < UInt64.size)
    (hlooks : looks + 2 < UInt32.size) : c.Ready := by
  apply h.ready_of_countable hinputs
  apply Coordinator.countable_of_repeats
  exact Nat.lt_of_le_of_lt (Nat.add_le_add_right h.repeats 2) hlooks

/-- A step adds to the counts what it costs. -/
theorem Spent.step {k : Nat} (h : c.Spent inputs looks) (hcosts : c.Costs k c' effects) :
    c'.Spent (inputs + 1) (looks + k) where
  coupled := hcosts.party.coupled
  samples := Nat.le_trans hcosts.samples (Nat.succ_le_succ h.samples)
  handles := Nat.le_trans hcosts.party.handles (Nat.succ_le_succ h.handles)
  switches := Nat.le_trans hcosts.party.switches (Nat.succ_le_succ h.switches)
  repeats := Nat.le_trans hcosts.party.repeats (Nat.add_le_add_right h.repeats k)

end Control

/-! ### Candid effects -/

/-- Whether an effect counts no dropped frame, and sends nothing but a message. -/
def Effect.IsCandid : Effect → Prop
  | .count counter => counter ≠ .ingressDropped ∧ counter ≠ .egressDropped
  | .announce _ => True
  | .send header _ => (Message.ofHeader? header).isSome = true

/-- Whether all effects are candid. -/
def Candid (effects : List Effect) : Prop := ∀ x ∈ effects, x.IsCandid

namespace Candid

variable {effects rest : List Effect}

/-- Candid effects one after the other are candid. -/
theorem append (h : Candid effects) (h' : Candid rest) : Candid (effects ++ rest) :=
  List.forall_mem_append.2 ⟨h, h'⟩

/-- One more candid effect keeps effects candid. -/
theorem cons {effect : Effect} (h : effect.IsCandid) (h' : Candid rest) : Candid (effect :: rest) :=
  List.forall_mem_cons.2 ⟨h, h'⟩

/-- No effects are candid. -/
theorem nil : Candid [] := List.forall_mem_nil _

end Candid

namespace Control

variable {c c' : Control} {now : UInt64} {effects : List Effect}

/-- A switch is candid. -/
theorem switchTo_candid {path : PathId} {cause : SwitchCause}
    (h : c.switchTo now path cause = .ok (c', effects)) : Candid effects := by
  obtain ⟨⟨active, left⟩, -, h⟩ := Checked.bind_eq_ok_iff.1 h
  rcases left with _ | source
  · cases h
    exact .nil
  · cases h
    exact .cons (by constructor <;> decide) (.cons trivial .nil)

/-- Each action is candid: it sends messages only. -/
theorem act_candid {action : Action} (h : c.act now action = .ok (c', effects)) :
    Candid effects := by
  cases action with
  | sendRepath target via sequence attempt =>
    cases h
    refine .cons (by constructor <;> decide) (Candid.append ?_ (.cons rfl .nil))
    split
    · exact .cons trivial .nil
    · exact .cons (by constructor <;> decide) .nil
  | sendRepathAck via ack =>
    cases h
    exact .cons (by constructor <;> decide) (.cons rfl .nil)
  | abandoned target attempts =>
    cases h
    exact .cons (by constructor <;> decide) (.cons trivial .nil)
  | committed path | adopted path => exact switchTo_candid h

/-- A remark on the measurements is candid. -/
theorem candid_remark {remark : Effect} (h : remark.IsRemark) : Candid [remark] := by
  cases h with
  | anomaly | trigger => exact .cons (by constructor <;> decide) .nil
  | news => exact .cons trivial .nil

/-- So whatever is made of actions and remarks is candid. -/
theorem composes_candid : Composes (fun _ effects _ => Candid effects) now where
  still _ := .nil
  remark hremark := candid_remark hremark
  act hact := act_candid hact
  append h h' := h.append h'

/-- What a packet leads to is candid. -/
theorem onPacket_candid {packet : ControlPacket} (h : c.onPacket now packet = .ok (c', effects)) :
    Candid effects := by
  obtain ⟨-, -, -, rfl⟩ | ⟨rest, rfl, htaken⟩ := onPacket_eq_ok h
  · exact .nil
  · refine .cons ?_ (composes_candid.taken htaken)
    cases packet.header.kind <;> constructor <;> decide

end Control

end PathControl.Endpoint
