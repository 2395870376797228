import PathControl.Proofs.Endpoint.Accounting
import PathControl.Proofs.Transport.Custody

/-!
# Custody of the buffers of an endpoint

Every buffer that the pool of an endpoint has handed out waits in one of its queues or is held by
the host: the loops give back what they take, on every path.

* `encode_lends`: a frame that is written keeps its buffer, and every failure gives it back.
* `Outlet.Offered.lends`, `performAll_lends`, `handleFrame_lends`: no effect keeps a buffer but by
  queueing a frame.
* `poll_lends`, `emitRound_lends`: a pass of the control loop and a probe round end with empty
  hands.
* `Host`: what a host does with the pool and the queues. `Host.lends` counts what it holds.
* `Custody`: an endpoint with its pump at an end of a link and a host that holds buffers, step by
  step. `Custody.buffers_in_custody`: between steps the buffers in use are those that wait and those
  that the host holds.
-/

namespace PathControl.Endpoint

open PathControl.Negotiation
open PathControl.Transport
open PathControl.Wire

variable {most n k : Nat}

/-! ### Attempts to send -/

/-- How many buffers the result of an attempt to encode carries. -/
def carried (outcome : Checked (Except Error Buffer)) : Nat :=
  match outcome with
  | .ok (.ok _) => 1
  | .ok (.error _) | .error _ => 0

/-- Only a frame that was written keeps the buffer that was drawn for it. -/
theorem encode_lends {pool : Pool} (h : pool.Lends most n) (a : Addressing)
    (identification : UInt16) (header : Header) (path : PathId) :
    (encode a pool identification header path).pool.Lends most
      (n + carried (encode a pool identification header path).outcome) := by
  unfold encode
  rcases hget : pool.get? with _ | ⟨buffer, rest⟩
  · exact h
  · have hdrawn := h.get? hget
    have hreturned := hdrawn.release buffer
    dsimp only
    rcases path.port a.basePort with fault | targetPort
    · exact hreturned
    · dsimp only
      rcases writeFrame (envelopeTo a targetPort identification) header buffer with
        fault | cause | frame
      · exact hreturned
      · exact hreturned
      · exact hdrawn

/-- An attempt to send keeps the buffers in custody: its buffer is in the queue, or back in the
pool. -/
theorem Outlet.Offered.lends {o o' : Outlet} {a : Addressing} {header : Header} {path : PathId}
    {queued : Bool} (h : Outlet.Offered o a header path o' queued)
    (hlends : o.traffic.Lends most k) : o'.traffic.Lends most k := by
  have hencoded := encode_lends hlends a o.identification header path
  cases h with
  | exhausted hencode | unwritten hencode _ =>
    rw [hencode] at hencoded
    exact hencoded
  | @queued frame pool identification hencode hfree =>
    rw [hencode] at hencoded
    have hwritten : Traffic.Lends most (k + 1) { o.traffic with pool } := hencoded
    have hpushed := hwritten.pushEgress frame
    simp only [Traffic.pushEgress, FrameQueue.pushOrDrop_of_not_isFull _ _ hfree] at hpushed
    exact hpushed
  | @dropped frame pool identification hencode hfull =>
    rw [hencode] at hencoded
    have hwritten : Traffic.Lends most (k + 1) { o.traffic with pool } := hencoded
    have hpushed := hwritten.pushEgress frame
    simp only [Traffic.pushEgress, FrameQueue.pushOrDrop_of_isFull _ _ hfull] at hpushed
    exact hpushed

/-- So do probes one after the other. -/
theorem Outlet.probe_lends {o o' : Outlet} {a : Addressing} {now : UInt64} {paths : List PathId}
    {queued : Nat} (hlends : o.traffic.Lends most k)
    (h : o.probe a now paths = (o', .ok queued)) : o'.traffic.Lends most k := by
  induction paths generalizing o queued with
  | nil =>
    cases h
    exact hlends
  | cons path paths ih =>
    obtain ⟨o₁, sent, rest, hoffer, hrest⟩ := probe_cons_eq_ok h
    have hoffered := hoffer.lends hlends
    refine ih ?_ hrest
    split
    · exact hoffered
    · exact hoffered

variable {e e' : Endpoint} {now : UInt64}

/-! ### Effects, frames and timers -/

/-- So does carrying out effects. -/
theorem performAll_lends {effects : List Effect} (hlends : e.traffic.Lends most k)
    (h : e.performAll effects = .ok e') : e'.traffic.Lends most k := by
  induction effects generalizing e with
  | nil =>
    cases h
    exact hlends
  | cons effect effects ih =>
    obtain ⟨e₁, heffect, h⟩ := Checked.bind_eq_ok_iff.1 h
    refine ih ?_ h
    cases effect with
    | count counter | announce event =>
      cases heffect
      exact hlends
    | send header path =>
      obtain ⟨outlet, hsend, heffect⟩ := Checked.bind_eq_ok_iff.1 heffect
      cases heffect
      obtain ⟨queued, hoffered⟩ := Outlet.send_eq_ok hsend
      exact hoffered.lends hlends

/-- So does handling a frame. -/
theorem handleFrame_lends {frame : Bytes} (hlends : e.traffic.Lends most k)
    (h : e.handleFrame now frame = .ok e') : e'.traffic.Lends most k := by
  obtain ⟨cause, -, rfl⟩ | ⟨-, rfl⟩ | ⟨packet, control, effects, -, -, hperform⟩ :=
    handleFrame_eq_ok h
  · exact hlends
  · exact hlends
  · exact performAll_lends (e := { e with control }) hlends hperform

/-- A look at the timers takes no buffer and leaves the batch alone. -/
theorem tickTimers_lends {fired : Nat} (hlends : e.traffic.Lends most k)
    (h : e.tickTimers now = .ok (e', fired)) : e'.traffic.Lends most k ∧ e'.batch = e.batch := by
  obtain rfl | ⟨control, effects, -, hperform⟩ := tickTimers_eq_ok h
  · exact ⟨hlends, rfl⟩
  · constructor
    · exact performAll_lends (e := { e with control, lastTick := now }) hlends hperform
    · rw [(performAll_performed hperform).rest]

/-! ### Passes and rounds -/

/-- A pass of the control loop gives back the buffer of every frame that it takes. -/
theorem poll_lends {handled : Nat} (hlends : e.traffic.Lends most k) (hbatch : e.batch = [])
    (h : e.poll now = .ok (e', handled)) : e'.traffic.Lends most k ∧ e'.batch = [] := by
  obtain ⟨e₁, e₂, fired, hdrain, htimers, hreport⟩ := poll_eq_ok h
  have hfetched : e.fetch.traffic.Lends most (k + e.fetch.batch.length) := by
    have htaken : e.fetch.batch =
        (e.traffic.ingress.popBurst (max e.settings.tuning.burstSize 1)).2 := by
      show e.batch ++ _ = _
      rw [hbatch, List.nil_append]
      rfl
    rw [htaken]
    exact hlends.popIngress _
  -- while a batch is drained, the frames that are left are those in the hands of the loop
  obtain ⟨e₃, hdrained, rfl⟩ :=
    drainBatch_induction (P := fun frames e => e.traffic.Lends most (k + frames.length))
      (fun frame frames e e' hheld hframe =>
        (handleFrame_lends (k := k + frames.length + 1) hheld hframe).release) hfetched hdrain
  obtain ⟨hlooked, hkept⟩ := tickTimers_lends (e := { e₃ with batch := [] }) hdrained htimers
  obtain ⟨lastReport, rfl⟩ := report_eq_ok hreport
  exact ⟨hlooked, hkept⟩

/-- So does a probe round, which leaves the batch alone. -/
theorem emitRound_lends {queued : Option Nat} (hlends : e.traffic.Lends most k)
    (h : e.emitRound now = (e', .ok queued)) : e'.traffic.Lends most k ∧ e'.batch = e.batch := by
  obtain ⟨-, rfl⟩ | ⟨n, outlet, -, rfl, hprobe⟩ := emitRound_eq_ok h
  · exact ⟨hlends, rfl⟩
  · exact ⟨Outlet.probe_lends hlends hprobe, rfl⟩

/-! ### Hosts -/

/-- What a host does with the pool and the queues of an endpoint, and how many buffers it holds
before and after. It may write what it likes into a buffer that it holds. -/
inductive Host : Endpoint → Nat → Endpoint → Nat → Prop where
  | borrow {e : Endpoint} {held : Nat} {buffer : Buffer} {pool : Pool} :
      e.traffic.pool.get? = some (buffer, pool) →
      Host e held (e.withTraffic { e.traffic with pool }) (held + 1)
  | takeBuffers {e : Endpoint} {held : Nat} :
      Host e held e.takeBuffers.1 (held + e.takeBuffers.2.length)
  | giveBack {e : Endpoint} {held : Nat} (buffer : Buffer) :
      Host e (held + 1) (e.withTraffic (e.traffic.release [buffer])) held
  | queueIngress {e : Endpoint} {held : Nat} (frame : Buffer) :
      Host e (held + 1) (e.withTraffic (e.traffic.pushIngress frame).1) held
  | queueEgress {e : Endpoint} {held : Nat} (frame : Buffer) :
      Host e (held + 1) (e.withTraffic (e.traffic.pushEgress frame).1) held
  | takeIngress {e : Endpoint} {held : Nat} (room : Nat) :
      Host e held
        (e.withTraffic { e.traffic with ingress := (e.traffic.ingress.popBurst room).1 })
        (held + (e.traffic.ingress.popBurst room).2.length)
  | takeEgress {e : Endpoint} {held : Nat} (room : Nat) :
      Host e held
        (e.withTraffic { e.traffic with egress := (e.traffic.egress.popBurst room).1 })
        (held + (e.traffic.egress.popBurst room).2.length)
  | sendTimestamp {e e' : Endpoint} {held : Nat} {result : Except Error Unit} (now : UInt64)
      (path : PathId) : e.sendTimestamp now path = .ok (e', result) → Host e held e' held

/-- So does a timestamp of user data, which leaves the batch alone. -/
theorem sendTimestamp_lends {path : PathId} {result : Except Error Unit}
    (hlends : e.traffic.Lends most k) (h : e.sendTimestamp now path = .ok (e', result)) :
    e'.traffic.Lends most k ∧ e'.batch = e.batch := by
  have hencoded := encode_lends hlends e.settings.addressing e.outlet.identification
    (.dataTimestamp now) path
  unfold sendTimestamp at h
  generalize encode e.settings.addressing e.traffic.pool e.outlet.identification
    (.dataTimestamp now) path = encoded at h hencoded
  obtain ⟨outcome, pool, identification⟩ := encoded
  obtain ⟨answer, houtcome, h⟩ := Checked.bind_eq_ok_iff.1 h
  dsimp only at houtcome hencoded
  subst houtcome
  rcases answer with cause | frame
  · cases h
    exact ⟨hencoded, rfl⟩
  · cases h
    have hwritten : Traffic.Lends most (k + 1) { e.traffic with pool } := hencoded
    exact ⟨hwritten.pushEgress frame, rfl⟩

/-- What a host holds is handed out, and the batch is no affair of it. -/
theorem Host.lends {held held' : Nat} (h : Host e held e' held')
    (hlends : e.traffic.Lends most held) : e'.traffic.Lends most held' ∧ e'.batch = e.batch := by
  cases h with
  | borrow hget => exact ⟨Pool.Lends.get? hlends hget, rfl⟩
  | takeBuffers => exact ⟨(Pool.Lends.takeAll hlends).of_eq (Nat.add_assoc _ _ _), rfl⟩
  | giveBack buffer => exact ⟨hlends.release, rfl⟩
  | queueIngress frame => exact ⟨hlends.pushIngress frame, rfl⟩
  | queueEgress frame => exact ⟨hlends.pushEgress frame, rfl⟩
  | takeIngress room => exact ⟨hlends.popIngress room, rfl⟩
  | takeEgress room => exact ⟨hlends.popEgress room, rfl⟩
  | sendTimestamp now path hsend => exact sendTimestamp_lends hlends hsend

end PathControl.Endpoint

/-! ### Custody over a link -/

namespace PathControl

open PathControl.Endpoint
open PathControl.Transport
open PathControl.Wire

/-- The states of an endpoint with its pump at an end of a link, together with the link and the
number of buffers that the host holds. What the peer, filters and injected frames do to the link is
left open. A new control loop may take over, and the events may be taken. -/
inductive Custody {φ : Type} [LinkFilter φ] (settings : Settings) (side : LinkEnd) :
    Station → Link φ → Nat → Prop where
  | start {now : UInt64} {identification : UInt16} {endpoint : Endpoint} {pump : Pump}
      (l : Link φ) :
      (Endpoint.new settings now identification).run = .ok (.ok endpoint) →
      Pump.allocate settings.tuning.burstSize = .ok pump →
      Custody settings side ⟨endpoint, pump⟩ l 0
  | pump {s : Station} {l : Link φ} {held : Nat} :
      Custody settings side s l held →
      Custody settings side (s.pumpOnce (Link.nic side) l).1 (s.pumpOnce (Link.nic side) l).2.1 held
  | poll {s : Station} {l : Link φ} {held handled : Nat} {endpoint : Endpoint} (now : UInt64) :
      Custody settings side s l held → s.endpoint.poll now = .ok (endpoint, handled) →
      Custody settings side { s with endpoint } l held
  | probes {s : Station} {l : Link φ} {held : Nat} {endpoint : Endpoint} {queued : Option Nat}
      (now : UInt64) :
      Custody settings side s l held → s.endpoint.emitRound now = (endpoint, .ok queued) →
      Custody settings side { s with endpoint } l held
  | host {s : Station} {l : Link φ} {held held' : Nat} {endpoint : Endpoint} :
      Custody settings side s l held → Host s.endpoint held endpoint held' →
      Custody settings side { s with endpoint } l held'
  | peer {s : Station} {l : Link φ} {held : Nat} (l' : Link φ) :
      Custody settings side s l held → Custody settings side s l' held
  | restart {s : Station} {l : Link φ} {held : Nat} (now : UInt64) :
      Custody settings side s l held →
      Custody settings side { s with endpoint := s.endpoint.restart now } l held
  | takeEvents {s : Station} {l : Link φ} {held : Nat} :
      Custody settings side s l held →
      Custody settings side { s with endpoint := s.endpoint.takeEvents.1 } l held

namespace Custody

/-- Between steps the loops hold no buffer. -/
structure Kept (most : Nat) (s : Station) (held : Nat) : Prop where
  lends : s.endpoint.traffic.Lends most held
  batch : s.endpoint.batch = []
  received : s.pump.received = []
  unsent : s.pump.unsent = []

variable {most held held' : Nat} {settings : Settings} {s : Station}

/-- A step of the endpoint that takes frames into no hands but those of the host. -/
theorem Kept.step {endpoint : Endpoint} (h : Kept most s held)
    (hstep : endpoint.traffic.Lends most held' ∧ endpoint.batch = []) :
    Kept most { s with endpoint } held' :=
  ⟨hstep.1, hstep.2, h.received, h.unsent⟩

/-- A pass of the pump keeps the buffers in custody, if its interface takes one for each frame that
it delivers. -/
theorem Kept.pump {σ : Type} {nic : Nic σ} (h : Kept most s held) (hnic : nic.Draws) (state : σ) :
    Kept most (s.pumpOnce nic state).1 held := by
  obtain ⟨hlends, hreceived, hunsent⟩ :=
    Pump.pollOnce_lends hnic s.pump state h.lends h.received h.unsent
  exact ⟨hlends, h.batch, hreceived, hunsent⟩

/-- A fresh endpoint with a fresh pump has lent nothing. -/
theorem kept_start {now : UInt64} {identification : UInt16} {endpoint : Endpoint} {pump : Pump}
    (hnew : (Endpoint.new settings now identification).run = .ok (.ok endpoint))
    (hpump : Pump.allocate settings.tuning.burstSize = .ok pump) :
    Kept settings.tuning.poolSize ⟨endpoint, pump⟩ 0 := by
  obtain ⟨hvalid, rfl⟩ := new_eq_ok hnew
  obtain ⟨⟨⟩, -, hpump⟩ := Checked.bind_eq_ok_iff.1 hpump
  cases hpump
  have hflaw := ((Settings.validate_eq_ok_iff settings).1 hvalid).2
  have hmost : max settings.tuning.poolSize 1 = settings.tuning.poolSize := by
    have hround := Tuning.pathCount_le_poolSize hflaw
    unfold pathCount at hround
    omega
  have hlends := Pool.Lends.new (min settings.tuning.poolSize 64) settings.tuning.poolSize
    Pool.frameSize
  rw [hmost] at hlends
  exact ⟨hlends, rfl, rfl, rfl⟩

variable {φ : Type} [LinkFilter φ] {side : LinkEnd} {l : Link φ}

/-- The buffers are in custody between all steps. -/
theorem kept (custody : Custody settings side s l held) :
    Kept settings.tuning.poolSize s held := by
  induction custody with
  | start l hnew hpump => exact kept_start hnew hpump
  | pump _ ih => exact ih.pump (Link.nic_draws side) _
  | poll now _ hpoll ih =>
    apply ih.step
    exact poll_lends ih.lends ih.batch hpoll
  | probes now _ hround ih =>
    obtain ⟨hlends, hbatch⟩ := emitRound_lends ih.lends hround
    exact ih.step ⟨hlends, hbatch.trans ih.batch⟩
  | host _ hhost ih =>
    obtain ⟨hlends, hbatch⟩ := hhost.lends ih.lends
    exact ih.step ⟨hlends, hbatch.trans ih.batch⟩
  | peer l' _ ih => exact ih
  | restart now _ ih => exact ih.step ⟨ih.lends, rfl⟩
  | takeEvents _ ih => exact ih.step ⟨ih.lends, ih.batch⟩

/-- **No buffer leaks and none is released twice.** Whatever the peer, filters and injected frames
do to the link, whatever the clock reads, and in whatever order the pump, the control loop, probe
rounds and a host that takes and gives back buffers run, after each step: the buffers in use are
those that wait in the two queues and those that the host holds, every other buffer that was made
is free exactly once, no loop has a frame in its hands, and the pool has not made more buffers than
the settings allow. -/
theorem buffers_in_custody (custody : Custody settings side s l held) :
    let t := s.endpoint.traffic
    t.pool.inUse = t.ingress.length + t.egress.length + held ∧
      t.pool.available + t.pool.inUse = t.pool.allocated ∧
      t.pool.allocated ≤ settings.tuning.poolSize ∧
      s.pump.received = [] ∧ s.pump.unsent = [] ∧ s.endpoint.batch = [] := by
  intro t
  have h := custody.kept
  have hinUse : t.pool.inUse = t.ingress.length + t.egress.length + held := h.lends.inUse
  refine ⟨hinUse, ?_, Pool.Lends.bounded h.lends, h.received, h.unsent, h.batch⟩
  rw [hinUse]
  exact (Pool.Lends.made h.lends).symm

open Service (crowded probed narrow)

/-- The crowded sender with two probes queued, after the host has taken the other two buffers and
another probe round has found none. -/
def starved : Endpoint := (probed.takeBuffers.1.emitRound 6).1

/-- The starved sender after a pass of its pump over the narrow link. -/
def relieved : Station × Link FrameFilter × Nat :=
  Station.pumpOnce ⟨starved, .new 2⟩ (Link.nic .a) narrow

/-- Four probes find no buffer, the frame that waits on the link finds none either, and one of the
two queued probes does not fit onto the link. The two buffers that the host holds are the ones in
use. -/
theorem starved_pass_keeps_custody :
    ∃ (s : Station) (l : Link FrameFilter), Custody crowded .a s l 2 ∧
      s.endpoint.traffic.stats.get .bufferExhausted = 4 ∧
      s.endpoint.traffic.stats.get .nicErrors = 1 ∧
      s.endpoint.traffic.stats.get .egressDropped = 3 ∧ s.endpoint.traffic.pool.inUse = 2 := by
  have hstart : (Endpoint.new crowded 0 7).run = .ok (.ok (atRest crowded 0 7)) := rfl
  have hsteps : ∀ {e₁ e₂ : Endpoint}, (atRest crowded 0 7).emitRound 5 = (e₁, .ok (some 2)) →
      Host e₁ 0 e₁.takeBuffers.1 2 → e₁.takeBuffers.1.emitRound 6 = (e₂, .ok (some 0)) →
      Custody crowded .a ⟨e₂, .new 2⟩ narrow 2 := by
    intro e₁ e₂ hfirst hhost hsecond
    exact (((Custody.start narrow hstart rfl).probes 5 hfirst).host hhost).probes 6 hsecond
  have hqueued : ((atRest crowded 0 7).emitRound 5).2 = .ok (some 2) := by decide +kernel
  have hnone : (probed.takeBuffers.1.emitRound 6).2 = .ok (some 0) := by decide +kernel
  have hheld : 0 + probed.takeBuffers.2.length = 2 := by decide +kernel
  have hhost : Host probed 0 probed.takeBuffers.1 (0 + probed.takeBuffers.2.length) := .takeBuffers
  rw [hheld] at hhost
  have hstarved : Custody crowded .a ⟨starved, .new 2⟩ narrow 2 := by
    apply hsteps _ hhost
    · rw [starved, ← hnone]
    · rw [probed, ← hqueued]
  have custody : Custody crowded .a relieved.1 relieved.2.1 2 := hstarved.pump
  have hqueues : relieved.1.endpoint.traffic.ingress.length +
      relieved.1.endpoint.traffic.egress.length = 0 := by decide +kernel
  obtain ⟨hinUse, -⟩ := custody.buffers_in_custody
  rw [hqueues] at hinUse
  exact ⟨_, _, custody, by decide +kernel, by decide +kernel, by decide +kernel, hinUse⟩

end Custody

end PathControl
