import PathControl.Proofs.Handshake.Party

/-!
# What an input uses up

Timer handles, transmission counts and switch counts are words of a fixed size. An input at a party
takes at most one of each, and goes through as long as there is one of each left.

* `NegotiationState.repeats`: how often the outstanding proposal was repeated. Only a look at the
  timers adds to it.
* `Coupled.lastId_le`: an input arms at most one timer.
* `Party.Ready`, `Party.Ready.handle_succeeds`: an input goes through as long as it can be counted.
* `Party.Spends`, `Party.Ready.handle_spends`: what an input adds to the counts. It sends one
  message at most.
-/

namespace PathControl.Negotiation

/-- How often the outstanding proposal was repeated. -/
def NegotiationState.repeats : NegotiationState → Nat
  | .idle => 0
  | .awaitingAck _ _ _ attempts => attempts.toNat - 1

/-- How many looks at the timers an input is. -/
def Input.looks : Input → Nat
  | .tick _ => 1
  | .trigger .. | .repath .. | .ack _ => 0

namespace Coordinator

variable {c c' : Coordinator} {i : Input} {actions : List Action}

/-- A proposal that was not repeated too often can be counted once more. -/
theorem countable_of_repeats (h : c.state.repeats + 2 < UInt32.size) : c.Countable := by
  intro target sequence timer attempts hs _
  rw [hs] at h
  unfold NegotiationState.repeats at h
  dsimp only at h
  omega

/-- Only a look at the timers repeats a proposal, and only once. -/
theorem Move.repeats_le (h : c.Move i c' actions) :
    c'.state.repeats ≤ c.state.repeats + i.looks := by
  cases h with
  | triggerIgnored _ | repeated _ | ackIgnored _ | quiet _ => exact Nat.le_add_right _ _
  | begun timer _ _ => exact Nat.zero_le _
  | adopted timer _ | confirmed _ | abandoned _ _ _ => exact Nat.zero_le _
  | @resent best target sequence timer attempts guard timer' _ hs _ hlt =>
    rw [hs]
    have hnext : (attempts + 1).toNat = attempts.toNat + 1 := Checked.toNat_sum32 hlt
    show (attempts + 1).toNat - 1 ≤ attempts.toNat - 1 + 1
    omega

end Coordinator

namespace Coupled

variable {c : Coordinator} {w : TimerWheel} {now : UInt64} {o : Outcome} {i : Input}

/-- An input arms at most one timer. -/
theorem lastId_le (h : Coupled c w []) (ho : c.handle w now i = .ok o) :
    o.timers.lastId.toNat ≤ w.lastId.toNat + 1 := by
  cases i with
  | trigger best active =>
    rcases Coordinator.onTrigger_cases ho with ⟨-, rfl⟩ | ⟨-, -, hid, rfl⟩
    · exact Nat.le_succ _
    · exact Nat.le_of_eq (TimerWheel.lastId_armed hid)
  | repath target sequence =>
    rcases Coordinator.onRepath_cases ho with ⟨-, rfl⟩ | ⟨-, hid, rfl⟩
    · exact Nat.le_succ _
    · have hroom := Coordinator.lastId_takeOver (c := c) (w := w) ▸ hid
      rw [← Coordinator.lastId_takeOver (c := c) (w := w)]
      exact Nat.le_of_eq (TimerWheel.lastId_armed hroom)
  | ack sequence =>
    cases ho
    rcases c.onRepathAck_cases w sequence with ⟨-, ho⟩ | ⟨target, timer, attempts, -, ho⟩
    · rw [ho]
      exact Nat.le_succ _
    · rw [ho]
      dsimp only
      rw [TimerWheel.lastId_cancel]
      exact Nat.le_succ _
  | tick best =>
    obtain ⟨-, deeds, -, hhanded⟩ := (h.pollExpired now).onTimers (Coordinator.handle_tick.1 ho)
    exact hhanded.lastId_le

end Coupled

end PathControl.Negotiation

namespace PathControl.Endpoint.ActivePath

/-- A move goes through as long as it can be counted, and counts as one switch at most. -/
theorem moveTo_succeeds {a : ActivePath} (h : a.switches.toNat + 1 < UInt64.size) (path : PathId)
    (now : UInt64) :
    ∃ a' left, a.moveTo path now = .ok (a', left) ∧ a'.switches.toNat ≤ a.switches.toNat + 1 := by
  unfold moveTo
  split
  · exact ⟨_, _, rfl, Nat.le_succ _⟩
  · rw [Checked.add64_eq_ok_iff.2 ⟨h, rfl⟩]
    exact ⟨_, _, rfl, Nat.le_of_eq (Checked.toNat_sum64 h)⟩

end PathControl.Endpoint.ActivePath

namespace PathControl.Handshake.Party

open PathControl.Endpoint
open PathControl.Negotiation

variable {p p' : Party} {now : UInt64} {i : Input} {actions : List Action}

/-- An input that goes through takes at most one path. -/
theorem follow_succeeds {c c' : Coordinator} {a : ActivePath} (hmove : c.Move i c' actions)
    (h : a.switches.toNat + 1 < UInt64.size) (now : UInt64) :
    ∃ a', follow a now actions = .ok a' ∧ a'.switches.toNat ≤ a.switches.toNat + 1 := by
  cases hmove with
  | triggerIgnored _ | begun _ _ _ | repeated _ | ackIgnored _ | quiet _ | resent _ _ _ _ _
  | abandoned _ _ _ => exact ⟨a, rfl, Nat.le_succ _⟩
  | @adopted path _ _ _ | @confirmed path _ _ _ _ =>
    obtain ⟨a', left, hmoved, hcount⟩ := ActivePath.moveTo_succeeds h path now
    refine ⟨a', ?_, hcount⟩
    unfold follow
    rw [hmoved]
    rfl

/-- A move says one thing to the peer at most. -/
theorem length_messages_le {c c' : Coordinator} (hmove : c.Move i c' actions) :
    (actions.filterMap message?).length ≤ 1 := by
  cases hmove with
  | triggerIgnored _ | ackIgnored _ | quiet _ | confirmed _ | abandoned _ _ _ =>
    exact Nat.zero_le 1
  | begun _ _ _ | repeated _ | adopted _ _ | resent _ _ _ _ _ => exact Nat.le_refl 1

/-- Whether one more input can be counted: there is a timer handle left, the next transmission can
be counted, and so can a switch. -/
structure Ready (p : Party) : Prop where
  coupled : Coupled p.coordinator p.timers []
  handles : p.timers.lastId.toNat + 1 < UInt64.size
  countable : p.coordinator.Countable
  switches : p.active.switches.toNat + 1 < UInt64.size

/-- An input goes through as long as it can be counted. -/
theorem Ready.handle_succeeds (h : p.Ready) (now : UInt64) (i : Input) :
    ∃ p' actions, p.handle now i = .ok (p', actions) := by
  obtain ⟨o, ho⟩ := h.coupled.handle_succeeds_of_countable h.handles h.countable now i
  obtain ⟨-, hmove⟩ := h.coupled.handle ho
  obtain ⟨active, hfollow, -⟩ := follow_succeeds hmove h.switches now
  refine ⟨⟨o.coordinator, o.timers, active⟩, o.actions, ?_⟩
  rw [handle, ho, Checked.ok_bind, hfollow]
  rfl

/-- What an input, `looks` looks at the timers, adds to the counts of a party. The timers are still
those awaited. -/
structure Spends (p : Party) (looks : Nat) (p' : Party) : Prop where
  coupled : Coupled p'.coordinator p'.timers []
  handles : p'.timers.lastId.toNat ≤ p.timers.lastId.toNat + 1
  repeats : p'.coordinator.state.repeats ≤ p.coordinator.state.repeats + looks
  switches : p'.active.switches.toNat ≤ p.active.switches.toNat + 1

/-- A step that leaves a party alone spends nothing. -/
theorem Ready.spends_nothing (h : p.Ready) (looks : Nat) : p.Spends looks p :=
  ⟨h.coupled, Nat.le_succ _, Nat.le_add_right _ _, Nat.le_succ _⟩

/-- An input that goes through counts at most one of each, and sends at most one message. -/
theorem Ready.handle_spends (h : p.Ready) (hp : p.handle now i = .ok (p', actions)) :
    p.Spends i.looks p' ∧ (actions.filterMap message?).length ≤ 1 := by
  obtain ⟨o, ho, hp⟩ := Checked.bind_eq_ok_iff.1 hp
  obtain ⟨active, hactive, hp⟩ := Checked.bind_eq_ok_iff.1 hp
  cases hp
  obtain ⟨hcoupled, hmove⟩ := h.coupled.handle ho
  obtain ⟨active', hfollow, hcount⟩ := follow_succeeds hmove h.switches now
  rw [hactive] at hfollow
  cases hfollow
  exact ⟨⟨hcoupled, h.coupled.lastId_le ho, hmove.repeats_le, hcount⟩, length_messages_le hmove⟩

end PathControl.Handshake.Party
