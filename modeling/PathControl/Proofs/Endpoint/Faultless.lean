import PathControl.Proofs.Endpoint.Accounting
import PathControl.Proofs.Endpoint.Spending
import PathControl.Proofs.Transport.Losses

/-!
# Endpoints do not fault

With valid settings no step of an endpoint faults before the words that it counts in run out, and
that takes more steps and frames than any run has.

* `Outlet.Offered.grown`, `performAll_succeeds`: effects are carried out. Each message that they
  send is one more frame dropped or waiting on its way out.
* `Modest`: what the counts of an endpoint have come to at most, compared with the frames that it
  took, those of them that it handled, and the steps that it made.
* `Modest.handleFrame`, `Modest.drainBatch`, `Modest.tickTimers`, `Modest.report`: while the counts
  are modest, each part of a pass goes through and they stay so; `Modest.poll` puts them together,
  and `Modest.pump` is the pass of the pump.
* `Operation`: an endpoint with its pump at an end of a link, step by step, with the numbers of
  steps and of frames taken. `Operation.never_faults`: no next step faults.
-/

namespace PathControl.Endpoint

open PathControl.Handshake
open PathControl.Negotiation
open PathControl.Transport
open PathControl.Wire

/-! ### Attempts to send -/

namespace Outlet

variable {o o' : Outlet} {a : Addressing} {header : Header} {path : PathId} {queued : Bool}

/-- With usable addressing and buffers that have the room, an attempt to send never faults. -/
theorem offer_succeeds (ha : a.flaw? = none) (hroomy : o.traffic.Roomy controlFrameLength)
    (header : Header) (path : PathId) : ∃ o' queued, o.offer a header path = (o', .ok queued) := by
  unfold offer
  obtain hnone | ⟨frame, rest, hsome, -⟩ :=
    encode_cases ha hroomy.pool o.identification header path
  · rw [hnone]
    exact ⟨_, _, rfl⟩
  · rw [hsome]
    dsimp only
    split
    · exact ⟨_, _, rfl⟩
    · exact ⟨_, _, rfl⟩

/-- An attempt to send is one frame that is dropped or waits, at most. -/
theorem Offered.grown (h : Offered o a header path o' queued) : Grown o.traffic 0 1 o'.traffic := by
  have hless : ∀ {t t' : Traffic}, Grown t 0 0 t' → Grown t 0 1 t' :=
    fun h => ⟨h.inward, Nat.le_succ_of_le h.outward⟩
  cases h with
  | exhausted _ => exact hless ((Grown.withPool _).trans (.count (by decide) (by decide)))
  | unwritten _ _ => exact hless (.withPool _)
  | queued _ _ =>
    refine ⟨Nat.le_refl _, ?_⟩
    show _ + (o.traffic.egress.frames ++ [_]).length ≤ _
    rw [List.length_append, ← Nat.add_assoc]
    exact Nat.le_refl _
  | dropped _ _ =>
    obtain ⟨hin, hout⟩ := Grown.dropEgress (t := o.traffic) 1
    exact ⟨hin, hout⟩

/-- Probes never fault, and each is one frame that is dropped or waits, at most. -/
theorem probe_succeeds (ha : a.flaw? = none) (hroomy : o.traffic.Roomy controlFrameLength)
    (now : UInt64) (paths : List PathId) :
    ∃ o' n, o.probe a now paths = (o', .ok n) ∧ Grown o.traffic 0 paths.length o'.traffic := by
  induction paths generalizing o with
  | nil => exact ⟨o, 0, rfl, .refl⟩
  | cons path paths ih =>
    obtain ⟨o₁, sent, hoffer⟩ := offer_succeeds ha hroomy (.probe now) path
    have hoffered := offer_eq_ok hoffer
    have hfirst := hoffered.grown
    have hcounted : (if sent then { o₁ with traffic := o₁.traffic.count .probesSent }
          else o₁).traffic.Roomy controlFrameLength ∧
        Grown o.traffic 0 1 (if sent then { o₁ with traffic := o₁.traffic.count .probesSent }
          else o₁).traffic := by
      have hroomy₁ := (hoffered.shifted ha hroomy).roomy
      split
      · have hcount := Shifted.count hroomy₁ .probesSent (by decide)
        exact ⟨hcount.roomy, hfirst.trans (.count (by decide) (by decide))⟩
      · exact ⟨hroomy₁, hfirst⟩
    obtain ⟨o', n, hrest, hgrown⟩ := ih hcounted.1
    refine ⟨o', if sent then n + 1 else n, ?_,
      (hcounted.2.trans hgrown).of_eq rfl (Nat.add_comm _ _)⟩
    unfold probe
    rw [hoffer]
    dsimp only
    rw [hrest]
    rfl

end Outlet

/-! ### Effects -/

variable {e e' : Endpoint} {now : UInt64} {effects : List Effect}

/-- Candid effects are carried out, and each message sent is one frame that is dropped or waits, at
most. -/
theorem performAll_succeeds (ha : e.settings.addressing.flaw? = none)
    (hroomy : e.traffic.Roomy controlFrameLength) (hcandid : Candid effects) :
    ∃ e', e.performAll effects = .ok e' ∧ e'.traffic.Roomy controlFrameLength ∧
      Grown e.traffic 0 (sends effects).length e'.traffic := by
  induction effects generalizing e with
  | nil => exact ⟨e, rfl, hroomy, .refl⟩
  | cons effect effects ih =>
    obtain ⟨hfirst, hrest⟩ := List.forall_mem_cons.1 hcandid
    suffices hstep : ∃ e₁, e.perform effect = .ok e₁ ∧ e₁.settings = e.settings ∧
        e₁.traffic.Roomy controlFrameLength ∧
        Grown e.traffic 0 (sends [effect]).length e₁.traffic by
      obtain ⟨e₁, heffect, hsettings, hroomy₁, hgrown⟩ := hstep
      obtain ⟨e', hall, hroomy', hgrown'⟩ := ih (hsettings ▸ ha) hroomy₁ hrest
      refine ⟨e', Checked.bind_eq_ok_iff.2 ⟨e₁, heffect, hall⟩, hroomy',
        (hgrown.trans hgrown').of_eq rfl ?_⟩
      rw [← List.length_append, sends, sends, ← List.filterMap_append]
      rfl
    cases effect with
    | count counter =>
      obtain ⟨hin, hout⟩ := hfirst
      exact ⟨_, rfl, rfl, (Shifted.count hroomy counter hin).roomy, .count hin hout⟩
    | announce event => exact ⟨_, rfl, rfl, hroomy, .refl⟩
    | send header path =>
      obtain ⟨outlet, queued, hoffer⟩ := Outlet.offer_succeeds ha hroomy header path
      have hoffered := Outlet.offer_eq_ok hoffer
      have hone : (sends [.send header path]).length = 1 := by
        obtain ⟨message, hmessage⟩ := Option.isSome_iff_exists.1 hfirst
        rw [sends, List.filterMap_cons, sent?, hmessage]
        rfl
      rw [hone]
      refine ⟨{ e with outlet }, ?_, rfl, (hoffered.shifted ha hroomy).roomy, hoffered.grown⟩
      unfold perform Outlet.send
      dsimp only
      rw [hoffer]
      rfl

/-! ### Modest counts -/

/-- What the counts of an endpoint have come to at most, after `frames` frames were taken from the
wire, of which `handled` were handled and `waiting` are in its hands, and after `steps` steps. -/
structure Modest (e : Endpoint) (frames waiting handled steps : Nat) : Prop where
  usable : e.settings.addressing.flaw? = none
  roomy : e.traffic.Roomy controlFrameLength
  spent : e.control.Spent (handled + steps) steps
  inward : e.traffic.inward + waiting + handled ≤ frames
  outward : e.traffic.outward ≤ handled + 4 * steps

namespace Modest

variable {frames waiting handled steps : Nat}

/-- A new endpoint has counted nothing. -/
theorem start {settings : Settings} {now : UInt64} {identification : UInt16}
    (hnew : (Endpoint.new settings now identification).run = .ok (.ok e)) : Modest e 0 0 0 0 := by
  obtain ⟨hvalid, rfl⟩ := new_eq_ok hnew
  have hflaw := (Settings.validate_eq_ok_iff settings).1 hvalid
  have hroom : controlFrameLength ≤ Pool.frameSize := by decide
  refine ⟨hflaw.1, ⟨.new _ _ hroom, .nil, .nil⟩, Control.spent_new _ (Nat.zero_le _), ?_, ?_⟩
  · show (Stats.zero.get .ingressDropped).toNat + 0 + 0 + 0 ≤ 0
    rw [Stats.get_zero]
    exact Nat.le_refl 0
  · show (Stats.zero.get .egressDropped).toNat + 0 ≤ 0
    rw [Stats.get_zero]
    exact Nat.le_refl 0

/-- A step of the control state, one more frame handled or one more step made, whose effects are
carried out. -/
theorem performAll {control : Control} {e₀ : Endpoint} {waiting' handled' steps' : Nat}
    (h : Modest e frames waiting handled steps) (hcandid : Candid effects)
    (hsends : (sends effects).length ≤ 1) (hcontrol : e₀.control = control)
    (htraffic : e₀.traffic = e.traffic) (hsettings : e₀.settings = e.settings)
    (hspent : control.Spent (handled' + steps') steps')
    (hin : waiting' + handled' = waiting + handled)
    (hout : handled + 4 * steps + 1 ≤ handled' + 4 * steps') :
    ∃ e', e₀.performAll effects = .ok e' ∧ Modest e' frames waiting' handled' steps' := by
  obtain ⟨e', hperform, hroomy, hgrown⟩ := performAll_succeeds (e := e₀)
    (hsettings ▸ h.usable) (htraffic ▸ h.roomy) hcandid
  have hrest := (performAll_performed hperform).rest
  rw [htraffic] at hgrown
  refine ⟨e', hperform, ?_, hroomy, ?_, ?_, ?_⟩
  · rw [hrest]
    exact hsettings ▸ h.usable
  · rw [hrest]
    exact hcontrol ▸ hspent
  · have hbefore := h.inward
    have hafter := hgrown.inward
    omega
  · have hbefore := h.outward
    have hafter := hgrown.outward
    omega

/-- Counting a frame as what it is, and nothing else. -/
theorem count {counter : Counter} (h : Modest e frames (waiting + 1) handled steps)
    (hin : counter ≠ .ingressDropped) (hout : counter ≠ .egressDropped) :
    Modest (e.count counter) frames waiting (handled + 1) steps where
  usable := h.usable
  roomy := (Shifted.count h.roomy counter hin).roomy
  spent := h.spent.mono (by omega) (Nat.le_refl _)
  inward := by
    have hbefore := h.inward
    have hafter := (Grown.count (t := e.traffic) hin hout).inward
    show (e.traffic.count counter).inward + _ + _ ≤ _
    omega
  outward := by
    have hbefore := h.outward
    have hafter := (Grown.count (t := e.traffic) hin hout).outward
    show (e.traffic.count counter).outward ≤ _
    omega

/-- A frame is handled, whatever its bytes. -/
theorem handleFrame (h : Modest e frames (waiting + 1) handled steps)
    (hinputs : handled + steps + 1 < UInt64.size) (hsteps : steps + 2 < UInt32.size)
    (now : UInt64) (frame : Bytes) :
    ∃ e', e.handleFrame now frame = .ok e' ∧ Modest e' frames waiting (handled + 1) steps := by
  unfold Endpoint.handleFrame
  rw [decode_eq, Checked.ok_bind]
  split
  · exact ⟨_, rfl, h.count (by decide) (by decide)⟩
  · exact ⟨_, rfl, h.count (by decide) (by decide)⟩
  · next packet _ =>
    obtain ⟨control, effects, hpacket, hcosts⟩ :=
      (h.spent.ready hinputs hsteps).onPacket_succeeds now packet
    rw [hpacket, Checked.ok_bind]
    have hspent := h.spent.step hcosts
    rw [Nat.add_right_comm] at hspent
    exact h.performAll (Control.onPacket_candid hpacket) hcosts.sends rfl rfl rfl hspent
      (by omega) (by omega)

/-- Giving the buffer of a frame back is no affair of the counts. -/
theorem release (h : Modest e frames waiting handled steps) {frame : Buffer}
    (hframe : controlFrameLength ≤ frame.capacity) :
    Modest (e.withTraffic (e.traffic.release [frame])) frames waiting handled steps where
  usable := h.usable
  roomy := (Shifted.release h.roomy (List.forall_mem_singleton.2 hframe)).roomy
  spent := h.spent
  inward := h.inward
  outward := h.outward

/-- A batch is handled frame by frame. -/
theorem drainBatch {batch : List Buffer} (h : Modest e frames batch.length handled steps)
    (hroomy : AllRoomy controlFrameLength batch) (hframes : frames + steps < UInt64.size)
    (hsteps : steps + 2 < UInt32.size) (now : UInt64) :
    ∃ e', e.drainBatch now batch = .ok e' ∧
      Modest e' frames 0 (handled + batch.length) steps := by
  induction batch generalizing e handled with
  | nil => exact ⟨_, rfl, h.usable, h.roomy, h.spent, h.inward, h.outward⟩
  | cons frame batch ih =>
    obtain ⟨hframe, hbatch⟩ := List.forall_mem_cons.1 hroomy
    have htaken := h.inward
    rw [List.length_cons] at h htaken
    obtain ⟨e₁, hhandled, hmodest⟩ := h.handleFrame (by omega) hsteps now frame.contents
    obtain ⟨e', hdrained, hmodest'⟩ := ih (hmodest.release hframe) hbatch
    refine ⟨e', Checked.bind_eq_ok_iff.2 ⟨e₁, hhandled, hdrained⟩, ?_⟩
    rw [List.length_cons, Nat.add_comm batch.length, ← Nat.add_assoc]
    exact hmodest'

/-- The same counts after one more step. -/
theorem succ (h : Modest e frames waiting handled steps) :
    Modest e frames waiting handled (steps + 1) where
  usable := h.usable
  roomy := h.roomy
  spent := h.spent.mono (by omega) (Nat.le_succ _)
  inward := h.inward
  outward := Nat.le_trans h.outward (by omega)

/-- The timers are looked at, at most once per step. -/
theorem tickTimers (h : Modest e frames 0 handled steps)
    (hframes : frames + steps + 1 < UInt64.size) (hsteps : steps + 2 < UInt32.size)
    (now : UInt64) :
    ∃ e' fired, e.tickTimers now = .ok (e', fired) ∧ Modest e' frames 0 handled (steps + 1) := by
  unfold Endpoint.tickTimers
  split
  · have htaken := h.inward
    obtain ⟨control, effects, fired, htick, hcosts⟩ :=
      (h.spent.ready (by omega) hsteps).tick_succeeds now
    rw [htick, Checked.ok_bind]
    have hcandid : Candid effects := Control.composes_candid.tick htick
    have hperformed : ∃ e', ({ e with control, lastTick := now } : Endpoint).performAll effects =
        .ok e' ∧ Modest e' frames 0 handled (steps + 1) :=
      h.performAll hcandid hcosts.sends rfl rfl rfl (h.spent.step hcosts) rfl (by omega)
    obtain ⟨e', hperform, hmodest⟩ := hperformed
    dsimp only
    rw [hperform]
    exact ⟨e', _, rfl, hmodest⟩
  · exact ⟨e, 0, rfl, h.succ⟩

/-- The sum of the drop counters stays within its word, so that the counters can be reported. -/
theorem report (h : Modest e frames 0 handled steps) (hframes : frames + 4 * steps < UInt64.size)
    (now : UInt64) : ∃ e', e.report now = .ok e' ∧ Modest e' frames 0 handled steps := by
  unfold Endpoint.report
  split
  · have hin := h.inward
    have hout := h.outward
    unfold Traffic.inward at hin
    unfold Traffic.outward at hout
    have hsum : (e.traffic.stats.get .ingressDropped).toNat +
        (e.traffic.stats.get .egressDropped).toNat < UInt64.size := by omega
    have hdropped : e.traffic.stats.dropped = .ok _ := Checked.add64_eq_ok_iff.2 ⟨hsum, rfl⟩
    unfold Stats.summary
    rw [hdropped]
    exact ⟨_, rfl, h.usable, h.roomy, h.spent, h.inward, h.outward⟩
  · exact ⟨e, rfl, h⟩

/-- A burst from the ingress queue is in the hands of the endpoint. -/
theorem fetch (h : Modest e frames 0 handled steps) (hbatch : e.batch = []) :
    Modest e.fetch frames e.fetch.batch.length handled steps ∧
      AllRoomy controlFrameLength e.fetch.batch := by
  have hdraining := draining_fetch h.roomy hbatch
  refine ⟨⟨h.usable, hdraining.shifted.roomy, h.spent, ?_, h.outward⟩, hdraining.frames⟩
  have hsplit := congrArg List.length
    (e.traffic.ingress.popBurst_frames (max e.settings.tuning.burstSize 1))
  rw [List.length_append] at hsplit
  have hfetched : e.fetch.batch.length =
      (e.traffic.ingress.popBurst (max e.settings.tuning.burstSize 1)).2.length := by
    show (e.batch ++ _).length = _
    rw [hbatch, List.nil_append]
    rfl
  have hleft : e.fetch.traffic.inward = (e.traffic.stats.get .ingressDropped).toNat +
      (e.traffic.ingress.popBurst (max e.settings.tuning.burstSize 1)).1.frames.length := rfl
  have hin := h.inward
  unfold Traffic.inward FrameQueue.length at hin
  rw [hfetched, hleft]
  omega

/-- A pass of the control loop goes through. -/
theorem poll (h : Modest e frames 0 handled steps) (hbatch : e.batch = [])
    (hframes : frames + 4 * (steps + 1) < UInt64.size) (hsteps : steps + 2 < UInt32.size)
    (now : UInt64) :
    ∃ e' done handled', e.poll now = .ok (e', done) ∧
      Modest e' frames 0 handled' (steps + 1) := by
  obtain ⟨hfetched, hroomy⟩ := h.fetch hbatch
  obtain ⟨e₁, hdrain, hdrained⟩ := hfetched.drainBatch hroomy (by omega) hsteps now
  obtain ⟨e₂, fired, htimers, hlooked⟩ := hdrained.tickTimers (by omega) hsteps now
  obtain ⟨e₃, hreport, hreported⟩ := hlooked.report hframes now
  refine ⟨e₃, (e.traffic.ingress.popBurst (max e.settings.tuning.burstSize 1)).2.length + fired, _,
    ?_, hreported⟩
  refine Checked.bind_eq_ok_iff.2 ⟨e₁, hdrain, ?_⟩
  refine Checked.bind_eq_ok_iff.2 ⟨(e₂, fired), htimers, ?_⟩
  exact Checked.bind_eq_ok_iff.2 ⟨e₃, hreport, rfl⟩

/-- A probe round goes through. -/
theorem emitRound (h : Modest e frames 0 handled steps) (now : UInt64) :
    ∃ e' queued, e.emitRound now = (e', .ok queued) ∧
      Modest e' frames 0 handled (steps + 1) := by
  unfold Endpoint.emitRound
  split
  · obtain ⟨o, n, hround, hgrown⟩ :=
      Outlet.probe_succeeds h.usable h.roomy now PathId.all
    have hshifted := Outlet.probe_shifted h.usable h.roomy hround
    unfold Outlet.probeRound
    rw [hround]
    refine ⟨_, _, rfl, h.usable, hshifted.roomy, h.succ.spent, ?_, ?_⟩
    · have hbefore := h.inward
      have hafter := hgrown.inward
      exact Nat.le_trans (Nat.add_le_add_right (Nat.add_le_add_right hafter _) _) hbefore
    · have hbefore := h.outward
      have hafter := hgrown.outward
      have hround : PathId.all.length = 4 := rfl
      show o.traffic.outward ≤ _
      have hfrom : e.outlet.traffic.outward = e.traffic.outward := rfl
      omega
  · exact ⟨e, none, rfl, h.succ⟩

/-- A pass of the pump adds the frames that it takes. -/
theorem pump {φ : Type} [LinkFilter φ] (h : Modest e frames 0 handled steps) (side : LinkEnd)
    (l : Link φ) (p : Pump) (hreceived : p.received = []) (hunsent : p.unsent = []) :
    Modest (e.withTraffic (p.pollOnce (Link.nic side) l e.traffic).traffic)
      (frames + (p.receive (Link.nic side) l e.traffic).moved) 0 handled (steps + 1) := by
  obtain ⟨hshifted, -⟩ := p.pollOnce_shifted side l h.roomy hreceived hunsent
  obtain ⟨hin', hout'⟩ := p.pollOnce_grown (Link.nic side) l e.traffic hunsent
  have hin := h.inward
  have hout := h.outward
  refine ⟨h.usable, hshifted.roomy, h.succ.spent, ?_, ?_⟩
  · show (p.pollOnce (Link.nic side) l e.traffic).traffic.inward + _ + _ ≤ _
    omega
  · show (p.pollOnce (Link.nic side) l e.traffic).traffic.outward ≤ _
    omega

end Modest

end PathControl.Endpoint

/-! ### Operation over a link -/

namespace PathControl

open PathControl.Endpoint
open PathControl.Transport
open PathControl.Wire

/-- The states of an endpoint with its pump at an end of a link, together with the link, the number
of passes and probe rounds so far, and the number of frames that the pump has taken. What the peer,
filters and injected frames do to the link is left open. A new control loop may take over, and the
events may be taken. -/
inductive Operation {φ : Type} [LinkFilter φ] (settings : Settings) (side : LinkEnd) :
    Station → Link φ → Nat → Nat → Prop where
  | start {now : UInt64} {identification : UInt16} {endpoint : Endpoint} {pump : Pump}
      (l : Link φ) :
      (Endpoint.new settings now identification).run = .ok (.ok endpoint) →
      Pump.allocate settings.tuning.burstSize = .ok pump →
      Operation settings side ⟨endpoint, pump⟩ l 0 0
  | pump {s : Station} {l : Link φ} {steps frames : Nat} :
      Operation settings side s l steps frames →
      Operation settings side (s.pumpOnce (Link.nic side) l).1 (s.pumpOnce (Link.nic side) l).2.1
        (steps + 1) (frames + (s.pump.receive (Link.nic side) l s.endpoint.traffic).moved)
  | poll {s : Station} {l : Link φ} {steps frames handled : Nat} {endpoint : Endpoint}
      (now : UInt64) :
      Operation settings side s l steps frames → s.endpoint.poll now = .ok (endpoint, handled) →
      Operation settings side { s with endpoint } l (steps + 1) frames
  | probes {s : Station} {l : Link φ} {steps frames : Nat} {endpoint : Endpoint}
      {queued : Option Nat} (now : UInt64) :
      Operation settings side s l steps frames →
      s.endpoint.emitRound now = (endpoint, .ok queued) →
      Operation settings side { s with endpoint } l (steps + 1) frames
  | peer {s : Station} {l : Link φ} {steps frames : Nat} (l' : Link φ) :
      Operation settings side s l steps frames → Operation settings side s l' steps frames
  | restart {s : Station} {l : Link φ} {steps frames : Nat} (now : UInt64) :
      Operation settings side s l steps frames →
      Operation settings side { s with endpoint := s.endpoint.restart now } l steps frames
  | takeEvents {s : Station} {l : Link φ} {steps frames : Nat} :
      Operation settings side s l steps frames →
      Operation settings side { s with endpoint := s.endpoint.takeEvents.1 } l steps frames

namespace Operation

variable {φ : Type} [LinkFilter φ] {settings : Settings} {side : LinkEnd} {s : Station}
  {l : Link φ} {steps frames : Nat}

/-- The frames of an operation are accounted for as those of a service are. -/
theorem service (operation : Operation settings side s l steps frames) :
    ∃ rounds, Service settings side s l rounds := by
  induction operation with
  | start l hnew hpump => exact ⟨0, .start l hnew hpump⟩
  | pump _ ih =>
    obtain ⟨rounds, service⟩ := ih
    exact ⟨rounds, service.pump⟩
  | poll now _ hpoll ih =>
    obtain ⟨rounds, service⟩ := ih
    exact ⟨rounds, service.poll now hpoll⟩
  | probes now _ hround ih =>
    obtain ⟨rounds, service⟩ := ih
    exact ⟨_, service.probes now hround⟩
  | peer l' _ ih =>
    obtain ⟨rounds, service⟩ := ih
    exact ⟨rounds, service.peer l'⟩
  | restart now _ ih =>
    obtain ⟨rounds, service⟩ := ih
    exact ⟨rounds, service.restart now⟩
  | takeEvents _ ih =>
    obtain ⟨rounds, service⟩ := ih
    exact ⟨rounds, service.takeEvents⟩

/-- An operation is a service as far as the balance goes. -/
theorem balanced (operation : Operation settings side s l steps frames) :
    ∃ rounds, Service.Balanced settings s rounds := by
  obtain ⟨rounds, service⟩ := operation.service
  exact ⟨rounds, service.balanced⟩

/-- While steps and frames are few, the counts stay modest. -/
theorem modest (operation : Operation settings side s l steps frames)
    (hsteps : steps ≤ 0x8000_0000) (hframes : frames < 0x8000_0000_0000_0000) :
    ∃ handled, s.endpoint.Modest frames 0 handled steps := by
  have hword : UInt64.size = 0x1_0000_0000_0000_0000 := rfl
  have hcount : UInt32.size = 0x1_0000_0000 := rfl
  induction operation with
  | start l hnew hpump => exact ⟨0, .start hnew⟩
  | @pump s l steps frames operation ih =>
    obtain ⟨handled, hmodest⟩ := ih (by omega) (by omega)
    obtain ⟨rounds, hbalanced⟩ := operation.balanced
    exact ⟨handled, hmodest.pump side l s.pump hbalanced.received hbalanced.unsent⟩
  | @poll s l steps frames handled endpoint now operation hpoll ih =>
    obtain ⟨handled, hmodest⟩ := ih (by omega) hframes
    obtain ⟨rounds, hbalanced⟩ := operation.balanced
    obtain ⟨e', done, handled', hgoes, hafter⟩ :=
      hmodest.poll hbalanced.batch (by omega) (by omega) now
    rw [hpoll] at hgoes
    cases hgoes
    exact ⟨handled', hafter⟩
  | probes now operation hround ih =>
    obtain ⟨handled, hmodest⟩ := ih (by omega) hframes
    obtain ⟨e', queued, hgoes, hafter⟩ := hmodest.emitRound now
    rw [hround] at hgoes
    cases hgoes
    exact ⟨handled, hafter⟩
  | peer l' _ ih => exact ih hsteps hframes
  | restart now _ ih =>
    obtain ⟨handled, hmodest⟩ := ih hsteps hframes
    exact ⟨handled, hmodest.usable, hmodest.roomy,
      Control.spent_new _ hmodest.spent.switches, hmodest.inward, hmodest.outward⟩
  | takeEvents _ ih =>
    obtain ⟨handled, hmodest⟩ := ih hsteps hframes
    exact ⟨handled, hmodest.usable, hmodest.roomy, hmodest.spent, hmodest.inward, hmodest.outward⟩

/-- **An endpoint with valid settings never faults.** Whatever the peer, filters and injected frames
do to the link, whatever the clock reads, and in whatever order the pump, the control loop and probe
rounds have run: before 2^31 steps and 2^63 frames, the next pass of the control loop and the next
probe round go through. No checked sum or difference leaves its word and no read or write leaves its
bytes. A pass of the pump has nothing in it that could fault. -/
theorem never_faults (operation : Operation settings side s l steps frames)
    (hsteps : steps < 0x8000_0000) (hframes : frames < 0x8000_0000_0000_0000) (now : UInt64) :
    (∃ endpoint handled, s.endpoint.poll now = .ok (endpoint, handled)) ∧
      ∃ endpoint queued, s.endpoint.emitRound now = (endpoint, .ok queued) := by
  have hword : UInt64.size = 0x1_0000_0000_0000_0000 := rfl
  have hcount : UInt32.size = 0x1_0000_0000 := rfl
  obtain ⟨handled, hmodest⟩ := operation.modest (Nat.le_of_lt hsteps) hframes
  obtain ⟨rounds, hbalanced⟩ := operation.balanced
  constructor
  · obtain ⟨endpoint, done, -, hpoll, -⟩ :=
      hmodest.poll hbalanced.batch (by omega) (by omega) now
    exact ⟨endpoint, done, hpoll⟩
  · obtain ⟨endpoint, queued, hround, -⟩ := hmodest.emitRound now
    exact ⟨endpoint, queued, hround⟩

open Service (crowded probed narrow pumped)

/-- After a probe round and a pass of the pump that took one frame, the crowded sender handles that
frame whatever the clock reads. -/
theorem pumped_goes_on :
    ∃ (s : Station) (l : Link FrameFilter), Operation crowded .a s l 2 1 ∧
      s.endpoint.traffic.ingress.length = 1 ∧
      ∀ now, ∃ endpoint handled, s.endpoint.poll now = .ok (endpoint, handled) := by
  have hstart : (Endpoint.new crowded 0 7).run = .ok (.ok (atRest crowded 0 7)) := rfl
  have hqueued : ((atRest crowded 0 7).emitRound 5).2 = .ok (some 2) := by decide +kernel
  have hround : (atRest crowded 0 7).emitRound 5 = (probed, .ok (some 2)) := by
    rw [probed, ← hqueued]
  have hsteps : ∀ {e : Endpoint} {n : Nat}, (atRest crowded 0 7).emitRound 5 = (e, .ok (some 2)) →
      (Pump.receive (Link.nic .a) (.new 2) narrow e.traffic).moved = n →
      Operation crowded .a (Station.pumpOnce ⟨e, .new 2⟩ (Link.nic .a) narrow).1
        (Station.pumpOnce ⟨e, .new 2⟩ (Link.nic .a) narrow).2.1 2 (0 + n) := by
    intro e n hround hmoved
    subst hmoved
    exact ((Operation.start narrow hstart rfl).probes 5 hround).pump
  have hmoved : (Pump.receive (Link.nic .a) (.new 2) narrow probed.traffic).moved = 1 := by
    decide +kernel
  have operation : Operation crowded .a pumped.1 pumped.2.1 2 1 := hsteps hround hmoved
  have hwaits : pumped.1.endpoint.traffic.ingress.length = 1 := by decide +kernel
  refine ⟨pumped.1, pumped.2.1, operation, hwaits, fun now => ?_⟩
  exact (operation.never_faults (by decide) (by decide) now).1

end Operation

end PathControl
