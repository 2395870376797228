import PathControl.Proofs.Endpoint.Effects
import PathControl.Proofs.Handshake.Endpoints
import PathControl.Proofs.Transport.Flow
import PathControl.Proofs.Wire.RoundTrip

/-!
# Switches of the active path

The events of an endpoint tell the history of its active path, and two counters tell how long that
history is.

* `Leads`: switches that continue one another, each to another path than the one it leaves.
* `Control.Switches`: a step moves the active path along the switches that it announces, and counts
  each of them twice. One lemma per step, up to `onPacket_switches` and `tick_switches`.
* `Party.Sound`: the timers are those awaited, and a negotiation never proposes the active path.
  `Party.Sound.handle`: every input keeps that.
* `Endpoint.Run`: the states of an endpoint between the steps of its control loop.
  `Run.consistent`: in all of them history, counters and active path agree.
-/

namespace PathControl.Endpoint

open PathControl.Delay
open PathControl.Handshake
open PathControl.Negotiation
open PathControl.Wire

/-! ### Histories -/

/-- The paths that a switch leaves and leads to. -/
def Event.switch? : Event → Option (PathId × PathId)
  | .pathSwitched source target _ => some (source, target)
  | .bestPathChanged .. | .negotiationStarted .. | .negotiationAbandoned .. => none

/-- The switches among events. -/
def switchesOf (events : List Event) : List (PathId × PathId) := events.filterMap Event.switch?

/-- Switches that lead from one path to another: each leaves the path that the one before leads to,
and leads to a different one. -/
inductive Leads : PathId → List (PathId × PathId) → PathId → Prop where
  | stay (path : PathId) : Leads path [] path
  | switch {source target finish : PathId} {rest : List (PathId × PathId)} :
      source ≠ target → Leads target rest finish → Leads source ((source, target) :: rest) finish

variable {source target finish : PathId} {events : List Event}

/-- Switches that lead on from where others end make one path of switches. -/
theorem Leads.append {first rest : List (PathId × PathId)} (h : Leads source first target)
    (h' : Leads target rest finish) : Leads source (first ++ rest) finish := by
  induction h with
  | stay => exact h'
  | switch hne _ ih => exact .switch hne (ih h')

/-- Switches are announced in order. -/
theorem switchesOf_append {rest : List Event} :
    switchesOf (events ++ rest) = switchesOf events ++ switchesOf rest :=
  List.filterMap_append

/-- Moving to a path changes nothing if it is the active one, and else is one switch. -/
theorem ActivePath.moveTo_eq_ok {a a' : ActivePath} {path : PathId} {now : UInt64}
    {left : Option PathId} (h : a.moveTo path now = .ok (a', left)) :
    a.path = path ∧ a' = a ∧ left = none ∨
      a.path ≠ path ∧ a'.path = path ∧ a'.switches.toNat = a.switches.toNat + 1 ∧
        left = some a.path := by
  unfold ActivePath.moveTo at h
  split at h
  · next hpath =>
    cases h
    exact .inl ⟨hpath, rfl, rfl⟩
  · next hpath =>
    obtain ⟨switches, hadd, h⟩ := Checked.bind_eq_ok_iff.1 h
    obtain ⟨hroom, rfl⟩ := Checked.add64_eq_ok_iff.1 hadd
    cases h
    exact .inr ⟨hpath, rfl, Checked.toNat_sum64 hroom, rfl⟩

namespace Control

variable {c c₁ c' : Control} {now : UInt64} {effects rest : List Effect}

/-! ### Steps of the control state -/

/-- A step moves the active path along the switches that it announces, and counts each one, both as
an effect and with the active path. -/
structure Switches (c : Control) (effects : List Effect) (c' : Control) : Prop where
  leads : Leads c.active.path (switchesOf (announced effects)) c'.active.path
  counted : (counted effects).count .switches = (switchesOf (announced effects)).length
  total : c'.active.switches.toNat =
    c.active.switches.toNat + (switchesOf (announced effects)).length

/-- Effects without a switch. -/
structure Quiet (effects : List Effect) : Prop where
  announced : switchesOf (announced effects) = []
  counted : (counted effects).count .switches = 0

/-- Effects without a switch, and an active path that stays, are no switch. -/
theorem Switches.of_quiet (hactive : c'.active = c.active) (h : Quiet effects) :
    c.Switches effects c' where
  leads := by
    rw [hactive, h.announced]
    exact .stay _
  counted := by rw [h.announced, h.counted, List.length_nil]
  total := by rw [hactive, h.announced, List.length_nil, Nat.add_zero]

/-- Two steps move the active path along the switches of both. -/
theorem Switches.append (h : c.Switches effects c₁) (h' : c₁.Switches rest c') :
    c.Switches (effects ++ rest) c' where
  leads := by
    rw [announced_append, switchesOf_append]
    exact h.leads.append h'.leads
  counted := by
    rw [counted_append, announced_append, switchesOf_append, List.count_append, List.length_append,
      h.counted, h'.counted]
  total := by
    rw [announced_append, switchesOf_append, List.length_append, h'.total, h.total, Nat.add_assoc]

/-- A switch is announced and counted, unless the path is active already. -/
theorem switchTo_switches {path : PathId} {cause : SwitchCause}
    (h : c.switchTo now path cause = .ok (c', effects)) : c.Switches effects c' := by
  obtain ⟨⟨active, left⟩, hmove, h⟩ := Checked.bind_eq_ok_iff.1 h
  obtain ⟨-, -, rfl⟩ | ⟨hne, hpath, htotal, rfl⟩ := ActivePath.moveTo_eq_ok hmove
  · cases h
    exact .of_quiet rfl ⟨rfl, rfl⟩
  · cases h
    refine ⟨?_, rfl, htotal⟩
    exact .switch hne (by rw [hpath]; exact .stay _)

/-- Each action moves the active path along the switches that it announces. -/
theorem act_switches {action : Action} (h : c.act now action = .ok (c', effects)) :
    c.Switches effects c' := by
  cases action with
  | sendRepath target via sequence attempt =>
    cases h
    apply Switches.of_quiet rfl
    split <;> exact ⟨rfl, rfl⟩
  | sendRepathAck via ack | abandoned target attempts =>
    cases h
    exact .of_quiet rfl ⟨rfl, rfl⟩
  | committed path => exact switchTo_switches h
  | adopted path =>
    obtain ⟨hleads, hcounted, htotal⟩ := switchTo_switches h
    exact ⟨hleads, hcounted, htotal⟩

/-- A remark on the measurements is no switch. -/
theorem quiet_remark {remark : Effect} (h : remark.IsRemark) : Quiet [remark] := by
  cases h <;> exact ⟨rfl, rfl⟩

/-- So the same holds of whatever is made of actions and remarks. -/
theorem composes_switches : Composes (fun c effects c' => c.Switches effects c') now where
  still hactive := .of_quiet hactive ⟨rfl, rfl⟩
  remark hremark := .of_quiet rfl (quiet_remark hremark)
  act hact := act_switches hact
  append h h' := h.append h'

/-- A packet moves the active path along the switches that it announces. -/
theorem onPacket_switches {packet : ControlPacket}
    (h : c.onPacket now packet = .ok (c', effects)) : c.Switches effects c' := by
  obtain ⟨-, -, rfl, rfl⟩ | ⟨rest, rfl, htaken⟩ := onPacket_eq_ok h
  · exact .of_quiet rfl ⟨rfl, rfl⟩
  · have hreceipt : Quiet [.count (receipt packet.header.kind)] := by
      cases packet.header.kind <;> exact ⟨rfl, rfl⟩
    exact (Switches.of_quiet rfl hreceipt).append (composes_switches.taken htaken)

/-- So does a look at the timers, by none. -/
theorem tick_switches {fired : Nat} (h : c.tick now = .ok ((c', effects), fired)) :
    c.Switches effects c' :=
  composes_switches.tick h

end Control

end PathControl.Endpoint

/-! ### Parties -/

namespace PathControl.Negotiation.Coordinator

/-- Only a proposal of the peer or the confirmation of the outstanding negotiation asks for a path
to be taken. -/
theorem Move.still {c c' : Coordinator} {i : Input} {actions : List Action}
    (h : Move c i c' actions) (hrepath : ∀ target sequence, i ≠ .repath target sequence)
    (hack : ∀ sequence, i = .ack sequence →
      ∀ target timer attempts, c.state ≠ .awaitingAck target sequence timer attempts) :
    ∀ path, .committed path ∉ actions ∧ .adopted path ∉ actions := by
  intro path
  cases h with
  | repeated _ | adopted _ _ => exact absurd rfl (hrepath _ _)
  | confirmed hs => exact absurd hs (hack _ rfl _ _ _)
  | _ => simp

end PathControl.Negotiation.Coordinator

namespace PathControl.Handshake.Party

open PathControl.Endpoint
open PathControl.Negotiation

/-- The timers are those that the coordinator waits for, and a negotiation that is outstanding
proposes another path than the active one. -/
structure Sound (p : Party) : Prop where
  coupled : Coupled p.coordinator p.timers []
  aims : ∀ target, p.coordinator.outstanding = some target → target ≠ p.active.path

variable {p p' : Party} {now : UInt64} {i : Input} {actions : List Action}

/-- Actions that take no path leave the active one alone. -/
theorem follow_still {a a' : ActivePath} (h : follow a now actions = .ok a')
    (hstill : ∀ path, .committed path ∉ actions ∧ .adopted path ∉ actions) : a' = a := by
  induction actions with
  | nil =>
    cases h
    rfl
  | cons action actions ih =>
    cases action with
    | committed path => exact absurd List.mem_cons_self (hstill path).1
    | adopted path => exact absurd List.mem_cons_self (hstill path).2
    | sendRepath | sendRepathAck | abandoned =>
      exact ih h fun path => ⟨fun hmem => (hstill path).1 (List.mem_cons_of_mem _ hmem),
        fun hmem => (hstill path).2 (List.mem_cons_of_mem _ hmem)⟩

/-- A fresh party is sound. -/
theorem sound_new (t : Tuning) : (Party.new t).Sound :=
  ⟨.start _ _ _, fun _ h => nomatch h⟩

/-- An input keeps a party sound. A negotiation begins for another path than the active one, and
ends before the active path can change. -/
theorem Sound.handle {sent : List Message} (h : p.Sound) (hreach : Reaches p sent i)
    (hp : p.handle now i = .ok (p', actions)) : p'.Sound := by
  obtain ⟨ho, hpath⟩ := handle_eq_ok hp
  obtain ⟨hcoupled, hmove⟩ := h.coupled.handle ho
  refine ⟨hcoupled, ?_⟩
  intro target htarget
  obtain ⟨coordinator', timers', active'⟩ := p'
  dsimp only at hmove hpath htarget ⊢
  rw [hpath]
  cases hmove with
  | triggerIgnored _ | repeated _ | ackIgnored _ => exact h.aims target htarget
  | begun timer _ hne =>
    cases htarget
    rw [show _ = p.active.path from hreach] at hne
    exact hne
  | adopted _ _ | confirmed _ | abandoned _ _ _ => cases htarget
  | quiet _ => exact h.aims target htarget
  | resent timer _ hs _ _ =>
    cases htarget
    exact h.aims _ (by rw [Coordinator.outstanding, hs])

/-- An input that is neither a proposal nor the confirmation of the outstanding negotiation leaves
the active path alone. -/
theorem Sound.active_eq (h : p.Sound) (hp : p.handle now i = .ok (p', actions))
    (hrepath : ∀ target sequence, i ≠ .repath target sequence)
    (hack : ∀ sequence, i = .ack sequence →
      ∀ target timer attempts, p.coordinator.state ≠ .awaitingAck target sequence timer attempts) :
    p'.active = p.active := by
  obtain ⟨o, ho, hp⟩ := Checked.bind_eq_ok_iff.1 hp
  obtain ⟨active, hfollow, hp⟩ := Checked.bind_eq_ok_iff.1 hp
  cases hp
  exact follow_still hfollow ((h.coupled.handle ho).2.still hrepath hack)

end PathControl.Handshake.Party

/-! ### Packets and looks at the timers -/

namespace PathControl.Endpoint

open PathControl.Handshake
open PathControl.Negotiation
open PathControl.Transport
open PathControl.Wire

namespace Control

variable {c c' : Control} {now : UInt64} {effects : List Effect} {packet : ControlPacket}

/-- Whether a packet can move the active path: it is a proposal, or it confirms the outstanding
negotiation. -/
def CanSwitch (c : Control) (packet : ControlPacket) : Prop :=
  packet.header.kind = .repath ∨
    packet.header.kind = .repathAck ∧ ∃ target timer attempts,
      c.coordinator.state = .awaitingAck target packet.header.ack timer attempts

/-- An input keeps a party sound. -/
theorem Hears.sound {i : Input} {sent : List Message} (h : c.Hears now i c' effects)
    (hsound : c.party.Sound) (hreach : Reaches c.party sent i) : c'.party.Sound := by
  obtain ⟨actions, hhandle, -⟩ := h
  exact hsound.handle hreach hhandle

/-- A packet keeps the party sound. -/
theorem onPacket_sound (h : c.onPacket now packet = .ok (c', effects)) (hsound : c.party.Sound) :
    c'.party.Sound := by
  rcases onPacket_advances h with ⟨hparty, -⟩ | ⟨i, hreach, hhears⟩
  · rw [hparty]
    exact hsound
  · exact hhears.sound hsound hreach

/-- A look at the timers keeps the party sound. -/
theorem tick_sound {fired : Nat} (h : c.tick now = .ok ((c', effects), fired))
    (hsound : c.party.Sound) : c'.party.Sound := by
  have hreach : Reaches c.party [] (.tick c.estimator.best) := trivial
  exact (tick_hears h).sound hsound hreach

/-- A look at the timers leaves the active path alone. -/
theorem tick_active_eq {fired : Nat} (h : c.tick now = .ok ((c', effects), fired))
    (hsound : c.party.Sound) : c'.active = c.active := by
  obtain ⟨actions, hhandle, -⟩ := tick_hears h
  exact hsound.active_eq hhandle (fun _ _ he => nomatch he) (fun _ he => nomatch he)

/-- A packet that cannot move the active path leaves it alone. -/
theorem onPacket_active_eq (h : c.onPacket now packet = .ok (c', effects))
    (hsound : c.party.Sound) (hcannot : ¬ c.CanSwitch packet) : c'.active = c.active := by
  rcases onPacket_advances h with ⟨hparty, -⟩ | ⟨i, hreach, actions, hhandle, -⟩
  · exact congrArg Party.active hparty
  have hmessage : ∀ m, m ∈ (Message.ofHeader? packet.header).toList →
      ∃ sequence, m = .ack sequence ∧
        ∀ target timer attempts,
          c.coordinator.state ≠ .awaitingAck target sequence timer attempts := by
    intro m hm
    rw [Option.mem_toList] at hm
    unfold Message.ofHeader? at hm
    split at hm
    · next hkind => exact absurd (.inl hkind) hcannot
    · next hkind =>
      cases hm
      exact ⟨_, rfl, fun _ _ _ hs => hcannot (.inr ⟨hkind, _, _, _, hs⟩)⟩
    · cases hm
    · cases hm
  apply hsound.active_eq hhandle
  · rintro target sequence rfl
    obtain ⟨_, hm, -⟩ := hmessage _ hreach
    cases hm
  · rintro sequence rfl
    obtain ⟨_, hm, hs⟩ := hmessage _ hreach
    cases hm
    exact hs

/-- Switching to another path makes it the active one, and announces that. -/
theorem switchTo_of_ne {path : PathId} {cause : SwitchCause} (hne : path ≠ c.active.path)
    (h : c.switchTo now path cause = .ok (c', effects)) :
    c'.active.path = path ∧ switchesOf (announced effects) = [(c.active.path, path)] := by
  obtain ⟨⟨active, left⟩, hmove, h⟩ := Checked.bind_eq_ok_iff.1 h
  obtain ⟨heq, -, -⟩ | ⟨-, hpath, -, rfl⟩ := ActivePath.moveTo_eq_ok hmove
  · exact absurd heq.symm hne
  · cases h
    exact ⟨hpath, rfl⟩

/-- A confirmed proposal of another path makes it the active one, and announces that. -/
theorem follow_committed {path : PathId} {o : Outcome} (ho : o.actions = [.committed path])
    (hne : path ≠ c.active.path) (h : c.follow now o = .ok (c', effects)) :
    c'.active.path = path ∧ switchesOf (announced effects) = [(c.active.path, path)] := by
  rw [follow, ho] at h
  obtain ⟨⟨c₁, effects₁⟩, hact, h⟩ := Checked.bind_eq_ok_iff.1 h
  cases h
  rw [List.append_nil]
  exact switchTo_of_ne (c := { c with coordinator := o.coordinator, timers := o.timers }) hne hact

/-- The confirmation of the outstanding negotiation takes its path. -/
theorem onPacket_confirmed {target : PathId} {timer : TimerHandle} {attempts : UInt32}
    (h : c.onPacket now packet = .ok (c', effects)) (hsound : c.party.Sound)
    (hkind : packet.header.kind = .repathAck)
    (hs : c.coordinator.state = .awaitingAck target packet.header.ack timer attempts) :
    c'.active.path = target ∧ switchesOf (announced effects) = [(c.active.path, target)] := by
  have hne : target ≠ c.active.path :=
    hsound.aims target (by rw [party, Coordinator.outstanding, hs])
  have hactions : (c.coordinator.onRepathAck c.timers packet.header.ack).actions =
      [.committed target] := by
    rw [Coordinator.onRepathAck, hs]
    exact congrArg Outcome.actions (if_pos rfl)
  rw [onPacket, hkind] at h
  obtain ⟨⟨c₁, effects₁⟩, hfollow, h⟩ := Checked.bind_eq_ok_iff.1 h
  cases h
  obtain ⟨hpath, hswitch⟩ := follow_committed hactions hne hfollow
  exact ⟨hpath, hswitch⟩

end Control

/-! ### Runs -/

/-- Whether a change leaves the control state, the events and the count of switches alone. Such are
passes of the pump and probe rounds, and what a pass of the control loop does apart from frames
and timers: it moves frames into its batch, gives buffers back and reports. -/
structure Bystanding (e e' : Endpoint) : Prop where
  settings : e'.settings = e.settings
  control : e'.control = e.control
  events : e'.events = e.events
  switches : e'.traffic.stats.get .switches = e.traffic.stats.get .switches

/-- The states of an endpoint between the steps of its control loop, which are the frames that it
handles and its looks at the timers, whatever else happens in between. -/
inductive Run (settings : Settings) : Endpoint → Prop where
  | start {now : UInt64} {identification : UInt16} {e : Endpoint} :
      (Endpoint.new settings now identification).run = .ok (.ok e) → Run settings e
  | frame {e e' : Endpoint} (now : UInt64) (frame : Bytes) :
      Run settings e → e.handleFrame now frame = .ok e' → Run settings e'
  | timers {e e' : Endpoint} {fired : Nat} (now : UInt64) :
      Run settings e → e.tickTimers now = .ok (e', fired) → Run settings e'
  | elsewhere {e e' : Endpoint} : Run settings e → Bystanding e e' → Run settings e'

/-- What holds between steps: the party is sound, and events, counters and active path tell the same
history. -/
structure Consistent (settings : Settings) (e : Endpoint) : Prop where
  sound : e.control.party.Sound
  leads : Leads settings.tuning.initialPath (switchesOf e.events) e.control.active.path
  announced : (switchesOf e.events).length = e.control.active.switches.toNat
  counted : e.traffic.stats.get .switches = e.control.active.switches

variable {settings : Settings} {e e' : Endpoint} {now : UInt64}

/-- A step of the control state whose effects are carried out. -/
theorem Consistent.performed {effects : List Effect} {control : Control} {e₀ : Endpoint}
    (h : Consistent settings e) (hperformed : Performed e₀ effects e')
    (hsound : control.party.Sound) (hswitches : e.control.Switches effects control)
    (hcontrol : e₀.control = control) (hevents : e₀.events = e.events)
    (htraffic : e₀.traffic = e.traffic) : Consistent settings e' := by
  have hcontrol' : e'.control = control := by rw [hperformed.rest, ← hcontrol]
  have hevents' : switchesOf e'.events =
      switchesOf e.events ++ switchesOf (PathControl.Endpoint.announced effects) := by
    rw [hperformed.rest, ← switchesOf_append, ← hevents]
  have hcounts := hperformed.counts .switches (by decide) (by decide)
  rw [htraffic, h.counted, hswitches.counted] at hcounts
  refine ⟨?_, ?_, ?_, ?_⟩
  · rw [hcontrol']
    exact hsound
  · rw [hevents', hcontrol']
    exact h.leads.append hswitches.leads
  · rw [hevents', hcontrol', List.length_append, h.announced, hswitches.total]
  · rw [hcounts, hcontrol', ← UInt64.ofNat_toNat (x := control.active.switches), hswitches.total,
      UInt64.ofNat_add, UInt64.ofNat_toNat]

/-- A bystander keeps the history consistent. -/
theorem Consistent.bystanding (h : Consistent settings e) (hby : Bystanding e e') :
    Consistent settings e' := by
  refine ⟨?_, ?_, ?_, ?_⟩
  · rw [hby.control]
    exact h.sound
  · rw [hby.events, hby.control]
    exact h.leads
  · rw [hby.events, hby.control]
    exact h.announced
  · rw [hby.switches, hby.control]
    exact h.counted

/-- Counting anything but switches is no affair of the control state. -/
theorem bystanding_count {counter : Counter} (hne : counter ≠ .switches) :
    Bystanding e (e.count counter) :=
  ⟨rfl, rfl, rfl, (Stats.get_inc _ _ _).trans (if_neg hne)⟩

/-- A frame keeps the history consistent. -/
theorem Consistent.frame {frame : Bytes} (h : Consistent settings e)
    (hframe : e.handleFrame now frame = .ok e') : Consistent settings e' := by
  obtain ⟨cause, -, rfl⟩ | ⟨-, rfl⟩ | ⟨packet, control, effects, -, hpacket, hperform⟩ :=
    handleFrame_eq_ok hframe
  · exact h.bystanding (bystanding_count (by decide))
  · exact h.bystanding (bystanding_count (by decide))
  · exact h.performed (performAll_performed hperform) (Control.onPacket_sound hpacket h.sound)
      (Control.onPacket_switches hpacket) rfl rfl rfl

/-- A look at the timers keeps the history consistent. -/
theorem Consistent.timers {fired : Nat} (h : Consistent settings e)
    (htimers : e.tickTimers now = .ok (e', fired)) : Consistent settings e' := by
  obtain rfl | ⟨control, effects, htick, hperform⟩ := tickTimers_eq_ok htimers
  · exact h
  · exact h.performed (performAll_performed hperform) (Control.tick_sound htick h.sound)
      (Control.tick_switches htick) rfl rfl rfl

/-- The history is consistent in every run. -/
theorem Run.consistent (run : Run settings e) : Consistent settings e := by
  induction run with
  | start h =>
    obtain ⟨-, rfl⟩ := new_eq_ok h
    exact ⟨Party.sound_new _, .stay _, rfl, Stats.get_zero _⟩
  | frame now frame _ hframe ih => exact ih.frame hframe
  | timers now _ htimers ih => exact ih.timers htimers
  | elsewhere _ hby ih => exact ih.bystanding hby

/-- A pass of the control loop is made of such steps. -/
theorem Run.poll {handled : Nat} (run : Run settings e) (h : e.poll now = .ok (e', handled)) :
    Run settings e' := by
  obtain ⟨e₁, e₂, fired, hdrain, htimers, hreport⟩ := poll_eq_ok h
  have hfetched : Run settings e.fetch := run.elsewhere ⟨rfl, rfl, rfl, rfl⟩
  obtain ⟨e₃, hdrained, rfl⟩ :=
    drainBatch_induction (P := fun _ e => Run settings e)
      (fun frame _ _ _ run hframe => (run.frame now frame.contents hframe).elsewhere
        ⟨rfl, rfl, rfl, rfl⟩) hfetched hdrain
  have hempty : Run settings { e₃ with batch := [] } := hdrained.elsewhere ⟨rfl, rfl, rfl, rfl⟩
  have hlooked : Run settings e₂ := hempty.timers now htimers
  obtain ⟨lastReport, rfl⟩ := report_eq_ok hreport
  exact hlooked.elsewhere ⟨rfl, rfl, rfl, rfl⟩

/-- Probe rounds happen in between. -/
theorem Run.emitRound {queued : Option Nat} (run : Run settings e)
    (h : e.emitRound now = (e', .ok queued)) : Run settings e' := by
  obtain ⟨-, rfl⟩ | ⟨n, outlet, -, rfl, hprobe⟩ := emitRound_eq_ok h
  · exact run
  · exact run.elsewhere
      ⟨rfl, rfl, rfl, Outlet.probe_get hprobe (by decide) (by decide) (by decide)⟩

/-- So do passes of a pump, over any interface. -/
theorem Run.pump {σ : Type} (run : Run settings e) (nic : Nic σ) (p : Pump) (s : σ) :
    Run settings (e.withTraffic (p.pollOnce nic s e.traffic).traffic) :=
  run.elsewhere ⟨rfl, rfl, rfl, Pump.pollOnce_discreet nic p s e.traffic _ (by decide)⟩

/-- A step of the control state that leaves the active path alone announces no switch. -/
theorem Performed.unmoved {effects : List Effect} {control : Control} {e₀ : Endpoint}
    (hperformed : Performed e₀ effects e') (hswitches : e.control.Switches effects control)
    (hactive : control.active = e.control.active) (hcontrol : e₀.control = control)
    (hevents : e₀.events = e.events) :
    e'.control.active = e.control.active ∧ switchesOf e'.events = switchesOf e.events := by
  have htotal := hswitches.total
  rw [hactive] at htotal
  have hnone : switchesOf (announced effects) = [] := List.eq_nil_of_length_eq_zero (by omega)
  constructor
  · rw [hperformed.rest, ← hactive, ← hcontrol]
  · rw [hperformed.rest, switchesOf_append, hnone, List.append_nil, hevents]

/-- **The switches of an endpoint are one history of its active path.** Whatever frames arrive at
whatever times, a negotiation that is outstanding proposes another path than the active one; the
switches announced lead from the initial path to the active one, each from where the one before led
and to another path; and there are as many as both counters say. A confirmation of the outstanding
negotiation is one more switch, to the path proposed. No other frame but a proposal makes one, and
neither does a look at the timers, which repeats proposals or gives them up. Passes of the control
loop are made of such steps. -/
theorem Run.switch_history (run : Run settings e) :
    (∀ target, e.control.coordinator.outstanding = some target →
        target ≠ e.control.active.path) ∧
      Leads settings.tuning.initialPath (switchesOf e.events) e.control.active.path ∧
      (switchesOf e.events).length = e.control.active.switches.toNat ∧
      (switchesOf e.events).length = (e.traffic.stats.get .switches).toNat ∧
      (∀ now frame packet target timer attempts e',
        (decode e.settings.addressing frame).run = .ok (.ok (.control packet)) →
        packet.header.kind = .repathAck →
        e.control.coordinator.state = .awaitingAck target packet.header.ack timer attempts →
        e.handleFrame now frame = .ok e' →
        e'.control.active.path = target ∧
          switchesOf e'.events = switchesOf e.events ++ [(e.control.active.path, target)]) ∧
      (∀ now frame e',
        (∀ packet, (decode e.settings.addressing frame).run = .ok (.ok (.control packet)) →
          ¬ e.control.CanSwitch packet) →
        e.handleFrame now frame = .ok e' →
        e'.control.active = e.control.active ∧ switchesOf e'.events = switchesOf e.events) ∧
      (∀ now e' fired, e.tickTimers now = .ok (e', fired) →
        e'.control.active = e.control.active ∧ switchesOf e'.events = switchesOf e.events) ∧
      ∀ now e' handled, e.poll now = .ok (e', handled) → Run settings e' := by
  have h := run.consistent
  refine ⟨h.sound.aims, h.leads, h.announced, ?_, ?_, ?_, ?_, fun now e' handled => run.poll⟩
  · rw [h.counted]
    exact h.announced
  · intro now frame packet target timer attempts e' hdecode hkind hs hframe
    obtain ⟨cause, hcause, -⟩ | ⟨hforeign, -⟩ |
      ⟨packet', control, effects, hpacket', hpacket, hperform⟩ := handleFrame_eq_ok hframe
    · rw [hdecode] at hcause
      cases hcause
    · rw [hdecode] at hforeign
      cases hforeign
    · rw [hdecode] at hpacket'
      cases hpacket'
      obtain ⟨hpath, hswitch⟩ := Control.onPacket_confirmed hpacket h.sound hkind hs
      have hperformed := performAll_performed hperform
      constructor
      · rw [hperformed.rest]
        exact hpath
      · rw [hperformed.rest, switchesOf_append, hswitch]
  · intro now frame e' hcannot hframe
    obtain ⟨cause, -, rfl⟩ | ⟨-, rfl⟩ | ⟨packet, control, effects, hdecode, hpacket, hperform⟩ :=
      handleFrame_eq_ok hframe
    · exact ⟨rfl, rfl⟩
    · exact ⟨rfl, rfl⟩
    · exact (performAll_performed hperform).unmoved (Control.onPacket_switches hpacket)
        (Control.onPacket_active_eq hpacket h.sound (hcannot packet hdecode)) rfl rfl
  · intro now e' fired htimers
    obtain rfl | ⟨control, effects, htick, hperform⟩ := tickTimers_eq_ok htimers
    · exact ⟨rfl, rfl⟩
    · exact (performAll_performed hperform).unmoved (Control.tick_switches htick)
        (Control.tick_active_eq htick h.sound) rfl rfl

/-- A standard endpoint after its peer has proposed path 3. -/
def proposedTo : Checked Endpoint :=
  (atRest .standard 0 7).handleFrame 5
    (controlFrame Addressing.standard.reversed .first 1 (.repath ⟨⟨2, by decide⟩⟩ 9))

/-- A proposal that is taken is one switch, away from the path of the start. -/
theorem taken_proposal_is_told :
    ∃ e, Run .standard e ∧ e.control.active.path = ⟨⟨2, by decide⟩⟩ ∧
      switchesOf e.events = [(.first, ⟨⟨2, by decide⟩⟩)] ∧
      (e.traffic.stats.get .switches).toNat = 1 := by
  have hstart : (Endpoint.new .standard 0 7).run = .ok (.ok (atRest .standard 0 7)) := rfl
  have heval : proposedTo.toOption.any (fun e => e.control.active.path = ⟨⟨2, by decide⟩⟩ ∧
      switchesOf e.events = [(.first, ⟨⟨2, by decide⟩⟩)]) = true := by
    decide +kernel
  obtain ⟨e, hframe, hholds⟩ := Checked.exists_of_any heval
  obtain ⟨hpath, hswitch⟩ := of_decide_eq_true hholds
  have run : Run .standard e := (Run.start hstart).frame 5 _ hframe
  obtain ⟨-, -, -, hcount, -⟩ := run.switch_history
  rw [hswitch] at hcount
  exact ⟨e, run, hpath, hswitch, hcount.symm⟩

end PathControl.Endpoint
