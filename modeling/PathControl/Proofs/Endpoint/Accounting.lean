import PathControl.Proofs.Endpoint.Effects
import PathControl.Proofs.Transport.Flow
import PathControl.Proofs.Wire.RoundTrip
import PathControl.Session.Basic

/-!
# Accounting for frames

Each frame that an endpoint receives, and each that it attempts to send, is at exactly one counter
or in one queue.

* `Outlet.Offered.shifted`: an attempt to send settles one frame, whatever it meets.
* `Tidy`: effects that count each frame they send as one of a negotiation, and no frame as received.
  Such are those of the control state, but for the receipt of a packet.
* `poll_shifted`, `emitRound_shifted`: a pass of the control loop leaves nothing on its way, and a
  probe round settles one frame per path.
* `Service`: an endpoint with its pump at an end of a link, step by step.
  `Service.frames_accounted`: the balances hold after each step.
-/

namespace PathControl.Endpoint

open PathControl.Handshake
open PathControl.Negotiation
open PathControl.Transport
open PathControl.Wire

/-! ### Attempts to send -/

/-- With usable addressing and buffers that have the room, only the lack of a buffer keeps a frame
from being written. -/
theorem encode_cases {a : Addressing} {pool : Pool} (ha : a.flaw? = none)
    (hpool : pool.Roomy controlFrameLength) (identification : UInt16) (header : Header)
    (path : PathId) :
    encode a pool identification header path =
        ⟨.ok (.error .buffersExhausted), pool, identification⟩ ∨
      ∃ frame rest, encode a pool identification header path =
          ⟨.ok (.ok frame), rest, identification + 1⟩ ∧
        controlFrameLength ≤ frame.capacity ∧ rest.Roomy controlFrameLength := by
  rcases hget : pool.get? with _ | ⟨buffer, rest⟩
  · refine .inl ?_
    unfold encode
    rw [hget]
  · obtain ⟨hbuffer, hrest⟩ := hpool.get? hget
    obtain ⟨frame, hencode, hcapacity, -⟩ :=
      encode_eq ha hget hbuffer identification header path
    exact .inr ⟨frame, rest, hencode, hcapacity ▸ hbuffer, hrest⟩

namespace Outlet

variable {o o' : Outlet} {a : Addressing} {header : Header} {path : PathId} {queued : Bool}

/-- An attempt to send settles one frame: it waits in the egress queue, or it is counted. -/
theorem Offered.shifted (h : Offered o a header path o' queued) (ha : a.flaw? = none)
    (hroomy : o.traffic.Roomy controlFrameLength) :
    Shifted controlFrameLength o.traffic 0 (-1) o'.traffic := by
  have hcases := encode_cases ha hroomy.pool o.identification header path
  cases h with
  | exhausted hencode =>
    rw [hencode] at hcases
    obtain hnone | ⟨frame, rest, hsome, -⟩ := hcases
    · cases hnone
      exact .count hroomy .bufferExhausted (by decide)
    · cases hsome
  | unwritten hencode hcause =>
    rw [hencode] at hcases
    obtain hnone | ⟨frame, rest, hsome, -⟩ := hcases
    · cases hnone
      exact absurd rfl hcause
    · cases hsome
  | queued hencode hfree =>
    rw [hencode] at hcases
    obtain hnone | ⟨frame, rest, hsome, hframe, hrest⟩ := hcases
    · cases hnone
    · cases hsome
      have hdrawn := Shifted.withPool hroomy hrest
      exact hdrawn.trans (.queueEgress hdrawn.roomy hframe)
  | dropped hencode hfull =>
    rw [hencode] at hcases
    obtain hnone | ⟨frame, rest, hsome, hframe, hrest⟩ := hcases
    · cases hnone
    · cases hsome
      have hdrawn := Shifted.withPool hroomy (hrest.release hframe)
      exact hdrawn.trans (.dropEgress hdrawn.roomy _)

end Outlet

/-! ### Effects -/

/-- What an effect says about frames taken from the wire. -/
def Effect.inflow : Effect → UInt64
  | .count counter => counter.inflow
  | .announce _ | .send _ _ => 0

/-- What an effect says about frames that a negotiation tried to send. Each one sent settles a
frame. -/
def Effect.outflow : Effect → UInt64
  | .count counter => counter.outflow
  | .announce _ => 0
  | .send _ _ => -1

/-- What effects say together, each by its weight. -/
def total (weight : Effect → UInt64) (effects : List Effect) : UInt64 :=
  effects.foldr (fun effect n => weight effect + n) 0

/-- What effects say together adds up. -/
theorem total_append (weight : Effect → UInt64) (effects rest : List Effect) :
    total weight (effects ++ rest) = total weight effects + total weight rest := by
  induction effects with
  | nil => exact (UInt64.zero_add _).symm
  | cons effect effects ih => exact (congrArg _ ih).trans (UInt64.add_assoc _ _ _).symm

/-- Effects that bring nothing on its way: each frame that they send is counted as one of a
negotiation, and they count no frame as received, classified or dropped. -/
structure Tidy (effects : List Effect) : Prop where
  inflow : total Effect.inflow effects = 0
  outflow : total Effect.outflow effects = 0
  dropped : .count .ingressDropped ∉ effects

namespace Tidy

variable {counter : Counter} {effects rest note : List Effect}

/-- No effects are tidy. -/
theorem nil : Tidy [] := ⟨rfl, rfl, List.not_mem_nil⟩

/-- Tidy effects one after the other are tidy. -/
theorem append (h : Tidy effects) (h' : Tidy rest) : Tidy (effects ++ rest) where
  inflow := by rw [total_append, h.inflow, h'.inflow, UInt64.add_zero]
  outflow := by rw [total_append, h.outflow, h'.outflow, UInt64.add_zero]
  dropped hmem := (List.mem_append.1 hmem).elim h.dropped h'.dropped

/-- An announcement says nothing about frames. -/
theorem announce (event : Event) : Tidy [.announce event] :=
  ⟨rfl, rfl, fun hmem => nomatch List.mem_singleton.1 hmem⟩

/-- Counting what is no affair of the balances. -/
theorem count (hin : counter.inflow = 0) (hout : counter.outflow = 0) : Tidy [.count counter] where
  inflow := (UInt64.add_zero _).trans hin
  outflow := (UInt64.add_zero _).trans hout
  dropped hmem := by
    cases List.mem_singleton.1 hmem
    exact absurd hin (by decide)

/-- A frame of a negotiation that is counted as such and sent. -/
theorem sent (hin : counter.inflow = 0) (hout : counter.outflow = 1) (hnote : Tidy note)
    (header : Header) (path : PathId) : Tidy (.count counter :: note ++ [.send header path]) where
  inflow := by
    rw [total_append]
    show counter.inflow + total _ note + (0 + 0) = 0
    rw [hin, hnote.inflow]
    rfl
  outflow := by
    rw [total_append]
    show counter.outflow + total _ note + (-1 + 0) = 0
    rw [hout, hnote.outflow]
    rfl
  dropped hmem := by
    obtain (hmem | hmem) | hmem := (List.mem_append.1 hmem).imp_left List.mem_cons.1
    · cases hmem
      exact absurd hin (by decide)
    · exact hnote.dropped hmem
    · cases List.mem_singleton.1 hmem

end Tidy

namespace Control

variable {c c' : Control} {now : UInt64} {effects : List Effect}

/-- A remark on the measurements says nothing about frames. -/
theorem tidy_remark {remark : Effect} (h : remark.IsRemark) : Tidy [remark] := by
  cases h with
  | anomaly | trigger => exact .count rfl rfl
  | news => exact .announce _

/-- A switch says nothing about frames. -/
theorem switchTo_tidy {path : PathId} {cause : SwitchCause}
    (h : c.switchTo now path cause = .ok (c', effects)) : Tidy effects := by
  obtain ⟨⟨active, left⟩, -, h⟩ := Checked.bind_eq_ok_iff.1 h
  rcases left with _ | source
  · cases h
    exact .nil
  · cases h
    exact (Tidy.count rfl rfl).append (.announce _)

/-- A proposal and a confirmation are counted once for the frame that is sent. -/
theorem act_tidy {action : Action} (h : c.act now action = .ok (c', effects)) : Tidy effects := by
  cases action with
  | sendRepath target via sequence attempt =>
    cases h
    apply Tidy.sent rfl rfl
    split
    · exact .announce _
    · exact .count rfl rfl
  | sendRepathAck via ack =>
    cases h
    exact .sent rfl rfl .nil _ _
  | abandoned target attempts =>
    cases h
    exact (Tidy.count rfl rfl).append (.announce _)
  | committed path | adopted path => exact switchTo_tidy h

/-- So whatever is made of actions and remarks is tidy. -/
theorem composes_tidy : Composes (fun _ effects _ => Tidy effects) now where
  still _ := .nil
  remark hremark := tidy_remark hremark
  act hact := act_tidy hact
  append h h' := h.append h'

end Control

variable {e e' : Endpoint} {now : UInt64}

/-! ### Frames, timers and rounds -/

/-- How a step changes an endpoint: its queues and counters are shifted, and it keeps its settings
and the frames in its hands. -/
structure Moved (arrived left : UInt64) (e e' : Endpoint) : Prop where
  shifted : Shifted controlFrameLength e.traffic arrived left e'.traffic
  settings : e'.settings = e.settings
  batch : e'.batch = e.batch

/-- What two steps bring on its way adds up. -/
theorem Moved.trans {e₁ : Endpoint} {arrived arrived' left left' : UInt64}
    (h : Moved arrived left e e₁) (h' : Moved arrived' left' e₁ e') :
    Moved (arrived + arrived') (left + left') e e' where
  shifted := h.shifted.trans h'.shifted
  settings := h'.settings.trans h.settings
  batch := h'.batch.trans h.batch

/-- An effect that is carried out shifts queues and counters by what it says about frames. -/
theorem perform_moved {effect : Effect} (ha : e.settings.addressing.flaw? = none)
    (hroomy : e.traffic.Roomy controlFrameLength) (hdropped : effect ≠ .count .ingressDropped)
    (h : e.perform effect = .ok e') : Moved effect.inflow effect.outflow e e' := by
  cases effect with
  | count counter =>
    cases h
    have hne : counter ≠ .ingressDropped := fun heq => hdropped (congrArg _ heq)
    exact ⟨.count hroomy counter hne, rfl, rfl⟩
  | announce event =>
    cases h
    exact ⟨.refl hroomy, rfl, rfl⟩
  | send header path =>
    obtain ⟨outlet, hsend, h⟩ := Checked.bind_eq_ok_iff.1 h
    cases h
    obtain ⟨queued, hoffered⟩ := Outlet.send_eq_ok hsend
    exact ⟨hoffered.shifted ha hroomy, rfl, rfl⟩

/-- So do effects together. -/
theorem performAll_moved {effects : List Effect} (ha : e.settings.addressing.flaw? = none)
    (hroomy : e.traffic.Roomy controlFrameLength) (hdropped : .count .ingressDropped ∉ effects)
    (h : e.performAll effects = .ok e') :
    Moved (total Effect.inflow effects) (total Effect.outflow effects) e e' := by
  induction effects generalizing e with
  | nil =>
    cases h
    exact ⟨.refl hroomy, rfl, rfl⟩
  | cons effect effects ih =>
    obtain ⟨e₁, heffect, h⟩ := Checked.bind_eq_ok_iff.1 h
    have hne : effect ≠ .count .ingressDropped :=
      fun heq => hdropped (heq ▸ List.mem_cons_self)
    have hfirst := perform_moved ha hroomy hne heffect
    have hrest : Effect.count .ingressDropped ∉ effects :=
      fun hmem => hdropped (List.mem_cons_of_mem _ hmem)
    exact hfirst.trans (ih (hfirst.settings ▸ ha) hfirst.shifted.roomy hrest h)

/-- Tidy effects that are carried out bring nothing on its way. -/
theorem Tidy.moved {effects : List Effect} (htidy : Tidy effects)
    (ha : e.settings.addressing.flaw? = none) (hroomy : e.traffic.Roomy controlFrameLength)
    (h : e.performAll effects = .ok e') : Moved 0 0 e e' := by
  have hmoved := performAll_moved ha hroomy htidy.dropped h
  rw [htidy.inflow, htidy.outflow] at hmoved
  exact hmoved

/-- The receipt of a packet settles one frame taken from the wire. -/
theorem receipt_inflow (kind : MessageKind) : (receipt kind).inflow = -1 := by
  cases kind <;> rfl

/-- It says nothing about frames to be sent. -/
theorem receipt_outflow (kind : MessageKind) : (receipt kind).outflow = 0 := by
  cases kind <;> rfl

/-- It is not the count of dropped frames. -/
theorem receipt_ne (kind : MessageKind) : receipt kind ≠ .ingressDropped := by
  cases kind <;> exact Counter.noConfusion

/-- A frame that is handled is counted once, as what it is. -/
theorem handleFrame_moved {frame : Bytes} (ha : e.settings.addressing.flaw? = none)
    (hroomy : e.traffic.Roomy controlFrameLength) (h : e.handleFrame now frame = .ok e') :
    Moved (-1) 0 e e' := by
  obtain ⟨cause, -, rfl⟩ | ⟨-, rfl⟩ | ⟨packet, control, effects, hdecode, hpacket, hperform⟩ :=
    handleFrame_eq_ok h
  · exact ⟨.count hroomy .malformed (by decide), rfl, rfl⟩
  · exact ⟨.count hroomy .notControl (by decide), rfl, rfl⟩
  · obtain ⟨hkind, hnothing, -, -⟩ | ⟨rest, rfl, htaken⟩ := Control.onPacket_eq_ok hpacket
    · -- A proposal that is decoded names a path.
      rw [decode_eq] at hdecode
      have hheader := headerAt_of_classify (Except.ok.inj hdecode)
      exact absurd hnothing (target_of_headerAt hheader hkind)
    · have htidy := Control.composes_tidy.taken htaken
      obtain ⟨e₁, hreceipt, hrest⟩ := Checked.bind_eq_ok_iff.1 hperform
      cases hreceipt
      have hreceived := (Shifted.count hroomy (receipt packet.header.kind) (receipt_ne _)).of_eq
        (receipt_inflow _) (receipt_outflow _)
      have hcounted : Moved (-1) 0 e
          (Endpoint.count { e with control } (receipt packet.header.kind)) :=
        ⟨hreceived, rfl, rfl⟩
      have hall := hcounted.trans
        (htidy.moved (hcounted.settings ▸ ha) hcounted.shifted.roomy hrest)
      exact ⟨hall.shifted, hall.settings, hall.batch⟩

/-- A look at the timers leaves nothing on its way. -/
theorem tickTimers_moved {fired : Nat} (ha : e.settings.addressing.flaw? = none)
    (hroomy : e.traffic.Roomy controlFrameLength) (h : e.tickTimers now = .ok (e', fired)) :
    Moved 0 0 e e' := by
  obtain rfl | ⟨control, effects, htick, hperform⟩ := tickTimers_eq_ok h
  · exact ⟨.refl hroomy, rfl, rfl⟩
  · have htidy : Tidy effects := Control.composes_tidy.tick htick
    have hmoved := htidy.moved (e := { e with control, lastTick := now }) ha hroomy hperform
    exact ⟨hmoved.shifted, hmoved.settings, hmoved.batch⟩

/-- An endpoint with frames in its hands, compared with the endpoint before it took them: they are
all that is on its way. -/
structure Draining (e : Endpoint) (frames : List Buffer) (e' : Endpoint) : Prop where
  shifted : Shifted controlFrameLength e.traffic (UInt64.ofNat frames.length) 0 e'.traffic
  frames : AllRoomy controlFrameLength frames
  settings : e'.settings = e.settings

/-- A burst that is taken into the batch is all that is on its way. -/
theorem draining_fetch (hroomy : e.traffic.Roomy controlFrameLength) (hbatch : e.batch = []) :
    Draining e e.fetch.batch e.fetch := by
  have hfetched : e.fetch.batch =
      (e.traffic.ingress.popBurst (max e.settings.tuning.burstSize 1)).2 := by
    show e.batch ++ _ = _
    rw [hbatch, List.nil_append]
    rfl
  rw [hfetched]
  exact ⟨.popIngress hroomy _, hroomy.ingress.take _, rfl⟩

/-- A frame that is handled is in no hands any more: it is counted and its buffer given back. -/
theorem Draining.step {e₁ : Endpoint} {frame : Buffer} {frames : List Buffer}
    (h : Draining e (frame :: frames) e₁) (ha : e.settings.addressing.flaw? = none)
    (hframe : e₁.handleFrame now frame.contents = .ok e') :
    Draining e frames (e'.withTraffic (e'.traffic.release [frame])) := by
  obtain ⟨hroom, hrest⟩ := List.forall_mem_cons.1 h.frames
  have hhandled := handleFrame_moved (h.settings ▸ ha) h.shifted.roomy hframe
  have hreleased := Shifted.release hhandled.shifted.roomy (List.forall_mem_singleton.2 hroom)
  refine ⟨?_, hrest, hhandled.settings.trans h.settings⟩
  refine ((h.shifted.trans hhandled.shifted).trans hreleased).of_eq ?_ rfl
  rw [List.length_cons, UInt64.ofNat_add]
  show _ + 1 + -1 + 0 = _
  grind

/-- A pass of the control loop leaves nothing on its way. -/
theorem poll_moved {handled : Nat} (ha : e.settings.addressing.flaw? = none)
    (hroomy : e.traffic.Roomy controlFrameLength) (hbatch : e.batch = [])
    (h : e.poll now = .ok (e', handled)) : Moved 0 0 e e' := by
  obtain ⟨e₁, e₂, fired, hdrain, htimers, hreport⟩ := poll_eq_ok h
  obtain ⟨e₃, hdrained, rfl⟩ :=
    drainBatch_induction (P := Draining e) (fun _ _ _ _ hstep hframe => hstep.step ha hframe)
      (draining_fetch hroomy hbatch) hdrain
  have hempty : Moved 0 0 e { e₃ with batch := [] } :=
    ⟨hdrained.shifted, hdrained.settings, hbatch.symm⟩
  have hlooked := hempty.trans
    (tickTimers_moved (hempty.settings ▸ ha) hempty.shifted.roomy htimers)
  obtain ⟨lastReport, rfl⟩ := report_eq_ok hreport
  exact ⟨hlooked.shifted, hlooked.settings, hlooked.batch⟩

/-- Each probe that is attempted settles a frame. -/
theorem Outlet.probe_shifted {o o' : Outlet} {a : Addressing} {paths : List PathId} {queued : Nat}
    (ha : a.flaw? = none) (hroomy : o.traffic.Roomy controlFrameLength)
    (h : o.probe a now paths = (o', .ok queued)) :
    Shifted controlFrameLength o.traffic 0 (-UInt64.ofNat paths.length) o'.traffic := by
  induction paths generalizing o queued with
  | nil =>
    cases h
    exact .refl hroomy
  | cons path paths ih =>
    obtain ⟨o₁, sent, rest, hoffer, hrest⟩ := probe_cons_eq_ok h
    have hoffered := hoffer.shifted ha hroomy
    have hcounted : Shifted controlFrameLength o₁.traffic 0 0
        (if sent then { o₁ with traffic := o₁.traffic.count .probesSent } else o₁).traffic := by
      split
      · exact .count hoffered.roomy .probesSent (by decide)
      · exact .refl hoffered.roomy
    refine ((hoffered.trans hcounted).trans (ih hcounted.roomy hrest)).of_eq rfl ?_
    rw [List.length_cons, UInt64.ofNat_add]
    show -1 + 0 + -_ = -(_ + 1)
    grind

/-- A probe round settles a frame per path. -/
theorem emitRound_moved {queued : Option Nat} (ha : e.settings.addressing.flaw? = none)
    (hroomy : e.traffic.Roomy controlFrameLength) (h : e.emitRound now = (e', .ok queued)) :
    Moved 0 (if queued.isSome then -4 else 0) e e' := by
  obtain ⟨rfl, rfl⟩ | ⟨n, outlet, rfl, rfl, hprobe⟩ := emitRound_eq_ok h
  · exact ⟨.refl hroomy, rfl, rfl⟩
  · exact ⟨Outlet.probe_shifted ha hroomy hprobe, rfl, rfl⟩

end PathControl.Endpoint

/-! ### Service over a link -/

namespace PathControl

open PathControl.Endpoint
open PathControl.Transport
open PathControl.Wire

/-- The states of an endpoint with its pump at an end of a link, together with the link and the
number of probe rounds so far. What the peer, filters and injected frames do to the link is left
open. A new control loop may take over, and the events may be taken. -/
inductive Service {φ : Type} [LinkFilter φ] (settings : Settings) (side : LinkEnd) :
    Station → Link φ → Nat → Prop where
  | start {now : UInt64} {identification : UInt16} {endpoint : Endpoint} {pump : Pump}
      (l : Link φ) :
      (Endpoint.new settings now identification).run = .ok (.ok endpoint) →
      Pump.allocate settings.tuning.burstSize = .ok pump →
      Service settings side ⟨endpoint, pump⟩ l 0
  | pump {s : Station} {l : Link φ} {rounds : Nat} :
      Service settings side s l rounds →
      Service settings side (s.pumpOnce (Link.nic side) l).1 (s.pumpOnce (Link.nic side) l).2.1
        rounds
  | poll {s : Station} {l : Link φ} {rounds handled : Nat} {endpoint : Endpoint} (now : UInt64) :
      Service settings side s l rounds → s.endpoint.poll now = .ok (endpoint, handled) →
      Service settings side { s with endpoint } l rounds
  | probes {s : Station} {l : Link φ} {rounds : Nat} {endpoint : Endpoint} {queued : Option Nat}
      (now : UInt64) :
      Service settings side s l rounds → s.endpoint.emitRound now = (endpoint, .ok queued) →
      Service settings side { s with endpoint } l (rounds + if queued.isSome then 1 else 0)
  | peer {s : Station} {l : Link φ} {rounds : Nat} (l' : Link φ) :
      Service settings side s l rounds → Service settings side s l' rounds
  | restart {s : Station} {l : Link φ} {rounds : Nat} (now : UInt64) :
      Service settings side s l rounds →
      Service settings side { s with endpoint := s.endpoint.restart now } l rounds
  | takeEvents {s : Station} {l : Link φ} {rounds : Nat} :
      Service settings side s l rounds →
      Service settings side { s with endpoint := s.endpoint.takeEvents.1 } l rounds

namespace Service

/-- Between steps nothing is on its way. -/
structure Balanced (settings : Settings) (s : Station) (rounds : Nat) : Prop where
  usable : settings.addressing.flaw? = none
  settings : s.endpoint.settings = settings
  roomy : s.endpoint.traffic.Roomy controlFrameLength
  batch : s.endpoint.batch = []
  received : s.pump.received = []
  unsent : s.pump.unsent = []
  arriving : s.endpoint.traffic.arriving = 0
  leaving : s.endpoint.traffic.leaving + 4 * UInt64.ofNat rounds = 0
  lapse : s.endpoint.traffic.lapse = 0

variable {settings : Settings} {s : Station} {rounds : Nat}

/-- A fresh endpoint with a fresh pump balances. -/
theorem balanced_start {now : UInt64} {identification : UInt16} {endpoint : Endpoint} {pump : Pump}
    (hnew : (Endpoint.new settings now identification).run = .ok (.ok endpoint))
    (hpump : Pump.allocate settings.tuning.burstSize = .ok pump) :
    Balanced settings ⟨endpoint, pump⟩ 0 := by
  obtain ⟨hvalid, rfl⟩ := new_eq_ok hnew
  obtain ⟨⟨⟩, -, hpump⟩ := Checked.bind_eq_ok_iff.1 hpump
  cases hpump
  have hroom : controlFrameLength ≤ Pool.frameSize := by decide
  have hflaw := (Settings.validate_eq_ok_iff settings).1 hvalid
  refine ⟨hflaw.1, rfl, ⟨.new _ _ hroom, .nil, .nil⟩, rfl, rfl, rfl, ?_, ?_, ?_⟩
  · show Stats.zero.inflow - 0 = 0
    rw [Stats.inflow_zero]
    rfl
  · show Stats.zero.outflow - 0 + 4 * 0 = 0
    rw [Stats.outflow_zero]
    rfl
  · show 0 - Stats.zero.get .ingressDropped = 0
    rw [Stats.get_zero]
    rfl

/-- A step of the endpoint that settles four frames per probe round keeps the balance. -/
theorem Balanced.moved {endpoint : Endpoint} {left : UInt64} {k : Nat}
    (h : Balanced settings s rounds) (hmoved : Moved 0 left s.endpoint endpoint)
    (hleft : left + 4 * UInt64.ofNat k = 0) :
    Balanced settings { s with endpoint } (rounds + k) where
  usable := h.usable
  settings := hmoved.settings.trans h.settings
  roomy := hmoved.shifted.roomy
  batch := hmoved.batch.trans h.batch
  received := h.received
  unsent := h.unsent
  arriving := by rw [hmoved.shifted.arriving, h.arriving, UInt64.add_zero]
  leaving := by
    have hleaving := h.leaving
    rw [hmoved.shifted.leaving, UInt64.ofNat_add]
    grind
  lapse := hmoved.shifted.lapse.trans h.lapse

/-- A pass of the pump over a link keeps the balance. -/
theorem Balanced.pump {φ : Type} [LinkFilter φ] (side : LinkEnd) (l : Link φ)
    (h : Balanced settings s rounds) :
    Balanced settings (s.pumpOnce (Link.nic side) l).1 rounds := by
  obtain ⟨hshifted, hreceived, hunsent⟩ :=
    s.pump.pollOnce_shifted side l h.roomy h.received h.unsent
  have hmoved : Moved 0 0 s.endpoint (s.endpoint.withTraffic _) := ⟨hshifted, rfl, rfl⟩
  have hbalanced := h.moved (k := 0) hmoved rfl
  exact { hbalanced with received := hreceived, unsent := hunsent }

variable {φ : Type} [LinkFilter φ] {side : LinkEnd} {l : Link φ}

/-- The balance holds between all steps of a service. -/
theorem balanced (service : Service settings side s l rounds) : Balanced settings s rounds := by
  induction service with
  | start l hnew hpump => exact balanced_start hnew hpump
  | pump _ ih => exact ih.pump _ _
  | poll now _ hpoll ih =>
    have ha := ih.settings ▸ ih.usable
    exact ih.moved (k := 0) (poll_moved ha ih.roomy ih.batch hpoll) rfl
  | probes now _ hround ih =>
    have ha := ih.settings ▸ ih.usable
    refine ih.moved (emitRound_moved ha ih.roomy hround) ?_
    split <;> rfl
  | peer l' _ ih => exact ih
  | restart now _ ih => exact ⟨ih.usable, ih.settings, ih.roomy, rfl, ih.received, ih.unsent,
      ih.arriving, ih.leaving, ih.lapse⟩
  | takeEvents _ ih => exact ⟨ih.usable, ih.settings, ih.roomy, ih.batch, ih.received, ih.unsent,
      ih.arriving, ih.leaving, ih.lapse⟩

/-- **Every frame is accounted for.** Whatever the peer, filters and injected frames do to the link,
whatever the clock reads, and in whatever order the pump, the control loop and probe rounds run,
after each step and modulo 2^64: the frames received are those of no concern, those malformed, the
packets by kind, those dropped and those that wait; the frames attempted, four per probe round and
one per proposal and confirmation, are those sent, those dropped, those without a buffer and those
that wait; and the counter of the ingress queue agrees with the shared one. -/
theorem frames_accounted (service : Service settings side s l rounds) :
    let t := s.endpoint.traffic
    t.stats.get .framesReceived =
        t.stats.get .notControl + t.stats.get .malformed + t.stats.get .probesReceived +
          t.stats.get .timestampsReceived + t.stats.get .repathsReceived +
          t.stats.get .acksReceived + t.stats.get .ingressDropped +
          UInt64.ofNat t.ingress.length ∧
      4 * UInt64.ofNat rounds + t.stats.get .repathsSent + t.stats.get .acksSent =
        t.stats.get .framesSent + t.stats.get .egressDropped + t.stats.get .bufferExhausted +
          UInt64.ofNat t.egress.length ∧
      t.ingress.dropped = t.stats.get .ingressDropped := by
  intro t
  have h := service.balanced
  have harriving : t.arriving = 0 := h.arriving
  have hleaving : t.leaving + 4 * UInt64.ofNat rounds = 0 := h.leaving
  have hlapse : t.lapse = 0 := h.lapse
  unfold Traffic.arriving Stats.inflow at harriving
  unfold Traffic.leaving Stats.outflow at hleaving
  unfold Traffic.lapse at hlapse
  refine ⟨?_, ?_, ?_⟩
  · grind
  · grind
  · grind

/-- A sender with room for two frames in each queue. -/
def crowded : Settings :=
  { Settings.standard with
    role := .sender
    tuning := { Tuning.standard with burstSize := 2, ringSize := 2, poolSize := 4 } }

/-- The crowded sender after a probe round. -/
def probed : Endpoint := ((atRest crowded 0 7).emitRound 5).1

/-- A link with room for one frame each way, where a foreign frame waits. -/
def narrow : Link FrameFilter := ⟨⟨.new 1, none⟩, ⟨⟨1, [[0]]⟩, none⟩⟩

/-- The crowded sender after a probe round and a pass of its pump over that link. -/
def pumped : Station × Link FrameFilter × Nat :=
  Station.pumpOnce ⟨probed, .new 2⟩ (Link.nic .a) narrow

/-- Of four probes two are dropped by the queue, one by the link, and one is sent. -/
theorem crowded_round_is_accounted :
    ∃ (s : Station) (l : Link FrameFilter), Service crowded .a s l 1 ∧
      s.endpoint.traffic.stats.get .framesSent = 1 ∧ s.endpoint.traffic.egress.length = 0 ∧
      s.endpoint.traffic.stats.get .egressDropped = 3 := by
  have hstart : (Endpoint.new crowded 0 7).run = .ok (.ok (atRest crowded 0 7)) := rfl
  have hqueued : ((atRest crowded 0 7).emitRound 5).2 = .ok (some 2) := by decide +kernel
  have hround : (atRest crowded 0 7).emitRound 5 = (probed, .ok (some 2)) := by
    rw [probed, ← hqueued]
  have heval : (pumped.1.endpoint.poll 6).toOption.any (fun r =>
      r.1.traffic.stats.get .framesSent = 1 ∧ r.1.traffic.egress.length = 0 ∧
        r.1.traffic.stats.get .repathsSent = 0 ∧ r.1.traffic.stats.get .acksSent = 0 ∧
        r.1.traffic.stats.get .bufferExhausted = 0) = true := by
    decide +kernel
  obtain ⟨⟨endpoint, handled⟩, hpoll, hholds⟩ := Checked.exists_of_any heval
  obtain ⟨hsent, hqueue, hrepaths, hacks, hexhausted⟩ := of_decide_eq_true hholds
  have hrested : Service crowded .a ⟨atRest crowded 0 7, .new 2⟩ narrow 0 :=
    .start _ hstart rfl
  have hprobed := hrested.probes 5 hround
  have hpumped : Service crowded .a pumped.1 pumped.2.1 1 := hprobed.pump
  have service : Service crowded .a { pumped.1 with endpoint } pumped.2.1 1 :=
    hpumped.poll 6 hpoll
  obtain ⟨-, hattempted, -⟩ := service.frames_accounted
  dsimp only at hattempted
  rw [hsent, hqueue, hrepaths, hacks, hexhausted] at hattempted
  refine ⟨_, _, service, hsent, hqueue, ?_⟩
  change 4 = 1 + _ + 0 + 0 at hattempted
  grind

end Service

end PathControl
