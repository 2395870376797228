import PathControl.Proofs.Transport.Custody
import PathControl.Transport.ScriptedNic

/-!
# The ways through the pump

What becomes of the frames that a pump moves, over any interface.

* `Pump.egress_accounted`: on the way out, each frame is counted as sent, counted as dropped, or was
  taken by an attempt that failed. `Pump.frame_of_failed_burst_uncounted`: those last ones are in no
  counter.
* `Log`: what the interface delivered, what it was offered, and what the consumer of the ingress
  queue took.
* `Intake`: a pump that makes passes while frames are taken from its ingress queue, and anything
  else that happens beside the two.
* `Tallied`: the invariant: log, queue and counters agree. One lemma per step.
* `Intake.nothing_lost_silently`: on the way in, what follows at any time, and for the next pass.
-/

namespace PathControl.Transport

open Transmission

variable {σ : Type}

/-! ### The way out -/

namespace Pump

/-- **Every frame is accounted for, unless an attempt fails.** A pass of the pump, over any
interface, makes at most two attempts to transmit the burst of frames that it takes from the egress
queue, and then gives all their buffers back:

* what the attempts that did not fail took is counted as sent, what all of them left is counted as
  dropped, and both are counted as moved;
* what an attempt took before it failed is in none of the counts. They add up to all the frames
  exactly if no attempt that failed took any. -/
theorem egress_accounted (nic : Nic σ) (p : Pump) (s : σ) (t : Traffic)
    (hreceived : p.received = []) (hunsent : p.unsent = []) :
    let r := receive nic p s t
    let m := pollOnce nic p s t
    let popped := (t.egress.popBurst p.burst).2
    let sends := (pollOnce nic.recorded p (s, []) t).nic.2
    let left := popped.drop (allTaken sends).length
    (pollOnce nic.recorded p (s, []) t = m.noted sends ∧ sends.length ≤ 2 ∧
        Attempts popped sends left) ∧
      (m.traffic.egress = (t.egress.popBurst p.burst).1 ∧ m.pump.unsent = [] ∧
        m.traffic.pool = r.traffic.pool.releaseAll popped ∧
        ∀ most n, r.traffic.pool.Lends most (n + popped.length) → m.traffic.pool.Lends most n) ∧
      m.moved = r.moved + ((acknowledged sends).length + left.length) ∧
      m.traffic.stats.get .framesSent =
        t.stats.get .framesSent + UInt64.ofNat (acknowledged sends).length ∧
      m.traffic.stats.get .egressDropped =
        t.stats.get .egressDropped + UInt64.ofNat left.length ∧
      popped.length =
        (acknowledged sends).length + left.length + (unacknowledged sends).length ∧
      (popped.length = (acknowledged sends).length + left.length ↔
        ∀ a ∈ sends, a.failure.isSome → a.taken = []) := by
  obtain ⟨sends, left, hsent, hrecorded⟩ := pollOnce_recorded nic s t [] hunsent
  have hr := receive_received nic s t hreceived
  -- the receive burst before leaves the egress queue alone
  have hpopped : (receive nic p s t).traffic.egress.popBurst (receive nic p s t).pump.burst =
      t.egress.popBurst p.burst := by rw [hr.egress, hr.pump]
  have hcounted := hr.counted.trans hsent.counted
  have hattempts := hsent.attempts
  have hegress := hsent.egress
  have hpool := hsent.pool
  rw [hpopped] at hattempts hegress hpool
  rw [List.nil_append] at hrecorded
  intro r m popped recorded left'
  -- the record begins empty, so it holds the attempts of this pass and nothing else
  have hsends : recorded = sends := congrArg (fun m => m.nic.2) hrecorded
  have hsplit : popped = allTaken sends ++ left := hattempts.split
  have hleft : left' = left := by
    show popped.drop (allTaken recorded).length = left
    rw [hsends, hsplit, List.drop_left]
  rw [hsends, hleft]
  have hlength : popped.length =
      (acknowledged sends).length + left.length + (unacknowledged sends).length := by
    rw [hsplit, List.length_append, length_allTaken]
    omega
  refine ⟨⟨hrecorded, hsent.twice, hattempts⟩, ⟨hegress, ?_, hpool, fun most n h => ?_⟩,
    congrArg (r.moved + ·) hsent.moved, ?_, ?_, hlength, ?_⟩
  · exact (congrArg Pump.unsent (pollOnce_pump nic s t hreceived hunsent)).trans hunsent
  · rw [show m.traffic.pool = _ from hpool]
    exact h.releaseAll
  · exact (hcounted .framesSent).trans (congrArg (_ + UInt64.ofNat ·) (Nat.zero_add _))
  · exact (hcounted .egressDropped).trans (congrArg (_ + UInt64.ofNat ·) (Nat.zero_add _))
  · rw [hlength, ← unacknowledged_eq_nil_iff, Nat.add_eq_left, List.length_eq_zero_iff]

/-- Of three frames the first is taken by an attempt that fails and the second by one that does not.
One is counted as sent, one as dropped and one not at all. All buffers are free afterwards. -/
theorem one_of_three_frames_uncounted :
    let b := (Buffer.blank 4).copyFrom
    let t : Traffic :=
      ⟨⟨[], 3, 3, 4⟩, .new "ingress" 1, ⟨"egress", 3, [b [1], b [2], b [3]], 0⟩, .zero⟩
    let m := pollOnce ScriptedNic.nic (.new 8) ⟨[], [⟨1, some "x"⟩, ⟨1, none⟩], [], []⟩ t
    m.nic.sent = [[1], [2]] ∧ m.moved = 2 ∧ m.traffic.stats.get .framesSent = 1 ∧
      m.traffic.stats.get .egressDropped = 1 ∧ m.traffic.pool.inUse = 0 := by
  obtain ⟨-, ⟨-, -, -, hpool⟩, hmoved, hsent, hdropped, -, -⟩ :=
    egress_accounted ScriptedNic.nic (.new 8) ⟨[], [⟨1, some "x"⟩, ⟨1, none⟩], [], []⟩
      ⟨⟨[], 3, 3, 4⟩, .new "ingress" 1,
        ⟨"egress", 3, [[1], [2], [3]].map (Buffer.blank 4).copyFrom, 0⟩, .zero⟩ rfl rfl
  refine ⟨?_, hmoved.trans ?_, hsent.trans ?_, hdropped.trans ?_,
    (hpool 3 0 ⟨rfl, rfl, Nat.le_refl 3⟩).inUse⟩ <;> decide

/-- The only frame is taken by an attempt that then fails. The interface has sent it, its buffer is
free again, and no count but that of the failures has it. -/
theorem frame_of_failed_burst_uncounted :
    let t : Traffic := ⟨⟨[], 1, 1, 4⟩, .new "ingress" 1,
      ⟨"egress", 1, [(Buffer.blank 4).copyFrom [1]], 0⟩, .zero⟩
    let m := pollOnce ScriptedNic.nic (.new 32) ⟨[], [⟨1, some "x"⟩], [], []⟩ t
    (t.egress.popBurst 32).2.length = 1 ∧ m.nic.sent = [[1]] ∧ m.traffic.egress.frames = [] ∧
      m.traffic.pool.inUse = 0 ∧ m.moved = 0 ∧ m.traffic.stats.get .framesSent = 0 ∧
      m.traffic.stats.get .egressDropped = 0 ∧ m.traffic.stats.get .nicErrors = 1 := by
  decide

end Pump

/-! ### Logs -/

/-- What has happened to a pump and its ingress queue, in order. -/
structure Log where
  deliveries : List Delivery
  sends : List Transmission
  /-- The frames that the consumer took. -/
  popped : List Buffer
  deriving DecidableEq

namespace Log

/-- Nothing yet. -/
def empty : Log := ⟨[], [], []⟩

/-- The frames that the interface delivered. -/
def arrived (log : Log) : List Buffer := log.deliveries.flatMap Delivery.frames

/-- The delivered frames that were queued. -/
def accepted (log : Log) : List Buffer := log.deliveries.flatMap Delivery.accepted

/-- The delivered frames that were dropped. -/
def refused (log : Log) : List Buffer := log.deliveries.flatMap Delivery.refused

/-- How many receive bursts failed. -/
def failedDeliveries (log : Log) : Nat := log.deliveries.countP fun d => d.failure.isSome

/-- The log after a pass. -/
def pass (log : Log) (d : Delivery) (sends : List Transmission) : Log :=
  { log with deliveries := log.deliveries ++ [d], sends := log.sends ++ sends }

/-- The log after the consumer took frames. -/
def take (log : Log) (frames : List Buffer) : Log := { log with popped := log.popped ++ frames }

/-- What a log says about the counters of the receive side. -/
def gain (log : Log) : Counter → Nat
  | .framesReceived => log.arrived.length
  | .ingressDropped => log.refused.length
  | .nicErrors => log.failedDeliveries + failures log.sends
  | _ => 0

/-- Every frame that was delivered was either queued or dropped. -/
theorem length_arrived (log : Log) :
    log.arrived.length = log.accepted.length + log.refused.length := by
  unfold arrived accepted refused
  induction log.deliveries with
  | nil => rfl
  | cons d deliveries ih =>
    have hd := congrArg List.length d.accepted_append_refused
    rw [List.length_append] at hd
    simp only [List.flatMap_cons, List.length_append]
    omega

/-- The counters of the receive side. -/
def counters : List Counter := [.framesReceived, .ingressDropped, .nicErrors]

/-- An empty log has moved no counter. -/
theorem gain_empty (counter : Counter) : empty.gain counter = 0 := by
  cases counter <;> rfl

/-- One more pass moves each of the counters by what its delivery and its transmissions say. -/
theorem gain_pass (log : Log) (d : Delivery) (sends : List Transmission) (left : List Buffer)
    {counter : Counter} (hcounter : counter ∈ counters) :
    (log.pass d sends).gain counter =
      log.gain counter + (d.gain counter + Pump.transmitGain sends left counter) := by
  -- of these three a transmit burst moves only the count of failures
  simp only [counters, List.mem_cons, List.not_mem_nil, or_false] at hcounter
  rcases hcounter with rfl | rfl | rfl
  · simp [pass, gain, arrived, Delivery.gain, Pump.transmitGain]
  · simp [pass, gain, refused, Delivery.gain, Pump.transmitGain]
  · have hfailures : (log.pass d sends).failedDeliveries =
        log.failedDeliveries + d.failure.toList.length := by
      cases hfailure : d.failure <;>
        simp [pass, failedDeliveries, List.countP_append, hfailure]
    have hsends : failures (log.pass d sends).sends = failures log.sends + failures sends :=
      List.countP_append
    simp only [gain, hfailures, hsends, Delivery.gain, Pump.transmitGain]
    omega

end Log

open Pump

/-- A pump over `nic`, whose interface may be in any state when a pass begins, and a consumer. Both
began with the traffic `first`. Beside them anything may happen that leaves the ingress queue and
the counters of the receive side alone. -/
inductive Intake (nic : Nic σ) (first : Traffic) : Pump → Traffic → Log → Prop where
  | start (burst : Nat) : Intake nic first (.new burst) first .empty
  | poll {p : Pump} {t : Traffic} {log : Log} (s : σ) :
      Intake nic first p t log →
      Intake nic first (pollOnce nic p s t).pump (pollOnce nic p s t).traffic
        (log.pass (deliveryOf nic p s t) (pollOnce nic.recorded p (s, []) t).nic.2)
  | pop {p : Pump} {t : Traffic} {log : Log} :
      Intake nic first p t log →
      Intake nic first p { t with ingress := t.ingress.pop.1 } (log.take t.ingress.pop.2.toList)
  | popBurst {p : Pump} {t : Traffic} {log : Log} (room : Nat) :
      Intake nic first p t log →
      Intake nic first p { t with ingress := (t.ingress.popBurst room).1 }
        (log.take (t.ingress.popBurst room).2)
  | elsewhere {p : Pump} {t t' : Traffic} {log : Log} :
      Intake nic first p t log → t'.ingress = t.ingress →
      (∀ counter ∈ Log.counters, t'.stats.get counter = t.stats.get counter) →
      Intake nic first p t' log

/-! ### Steps -/

/-- Whether log, ingress queue and counters agree. -/
structure Tallied (first t : Traffic) (log : Log) : Prop where
  order : log.popped ++ t.ingress.frames = first.ingress.frames ++ log.accepted
  dropped : t.ingress.dropped = first.ingress.dropped + UInt64.ofNat log.refused.length
  counted : ∀ counter ∈ Log.counters,
    t.stats.get counter = first.stats.get counter + UInt64.ofNat (log.gain counter)

namespace Tallied

variable {first t : Traffic} {log : Log}

/-- At the start nothing has been received, queued or dropped. -/
theorem start (first : Traffic) : Tallied first first .empty where
  order := (List.append_nil _).symm
  dropped := (UInt64.add_zero _).symm
  counted counter _ := by
    rw [Log.gain_empty]
    exact (UInt64.add_zero _).symm

/-- A pass queues the delivered frames behind the others, as long as there is room. -/
theorem pass {p p' : Pump} {pool : Pool} {d : Delivery} {r m : Moved σ} {sends : List Transmission}
    {left : List Buffer} (h : Tallied first t log) (hreceived : Received p pool t d r)
    (hsent : Transmitted p' r.traffic sends left m) :
    Tallied first m.traffic (log.pass d sends) where
  order := by
    have haccepted : (log.pass d sends).accepted = log.accepted ++ d.accepted := by
      unfold Log.accepted Log.pass
      rw [List.flatMap_append, List.flatMap_singleton]
    rw [hsent.ingress, hreceived.ingress, haccepted, ← List.append_assoc, ← h.order,
      List.append_assoc, Delivery.accepted, hreceived.room]
    rfl
  dropped := by
    have hrefused : (log.pass d sends).refused = log.refused ++ d.refused := by
      unfold Log.refused Log.pass
      rw [List.flatMap_append, List.flatMap_singleton]
    rw [hsent.ingress, hreceived.ingress, hrefused, List.length_append, UInt64.ofNat_add,
      ← UInt64.add_assoc, ← h.dropped, Delivery.refused, hreceived.room]
    rfl
  counted counter hcounter := by
    rw [hreceived.counted.trans hsent.counted counter, h.counted counter hcounter,
      log.gain_pass d sends left hcounter, UInt64.ofNat_add (log.gain counter), UInt64.add_assoc]

/-- Frames that the consumer takes are those that waited longest. -/
theorem take (h : Tallied first t log) {q : FrameQueue} {frames : List Buffer}
    (hframes : frames ++ q.frames = t.ingress.frames) (hdropped : q.dropped = t.ingress.dropped) :
    Tallied first { t with ingress := q } (log.take frames) where
  order := by
    show (log.popped ++ frames) ++ q.frames = first.ingress.frames ++ log.accepted
    rw [List.append_assoc, hframes, h.order]
  dropped := hdropped.trans h.dropped
  counted := h.counted

/-- What leaves the ingress queue and these counters alone may happen between passes. -/
theorem elsewhere (h : Tallied first t log) {t' : Traffic} (hingress : t'.ingress = t.ingress)
    (hcounters : ∀ counter ∈ Log.counters, t'.stats.get counter = t.stats.get counter) :
    Tallied first t' log where
  order := hingress ▸ h.order
  dropped := hingress ▸ h.dropped
  counted counter hcounter := (hcounters counter hcounter).trans (h.counted counter hcounter)

end Tallied

namespace Intake

variable {nic : Nic σ} {first : Traffic} {p : Pump} {t : Traffic} {log : Log}

/-- The pump holds no frame between passes. -/
theorem atRest (h : Intake nic first p t log) : p.received = [] ∧ p.unsent = [] := by
  induction h with
  | start burst => exact ⟨rfl, rfl⟩
  | poll s _ ih =>
    obtain ⟨hreceived, hunsent⟩ := ih
    rw [pollOnce_pump nic s _ hreceived hunsent]
    exact ⟨hreceived, hunsent⟩
  | pop _ ih => exact ih
  | popBurst _ _ ih => exact ih
  | elsewhere _ _ _ ih => exact ih

/-- The log of every run tells what was received, queued and dropped. -/
theorem tallied (h : Intake nic first p t log) : Tallied first t log := by
  induction h with
  | start burst => exact .start first
  | poll s h ih =>
    obtain ⟨hreceived, hunsent⟩ := h.atRest
    obtain ⟨sends, left, hsent, hrecorded⟩ := pollOnce_recorded nic s _ [] hunsent
    -- the log takes the sends from the record, which is that of the pass itself
    rw [hrecorded, List.nil_append]
    have hpass := ih.pass (receive_received nic s _ hreceived) hsent
    exact hpass
  | pop _ ih => exact ih.take (FrameQueue.pop_frames _) (FrameQueue.pop_dropped _)
  | popBurst room _ ih => exact ih.take (FrameQueue.popBurst_frames _ room) rfl
  | elsewhere _ hingress hcounters ih => exact ih.elsewhere hingress hcounters

/-- **Nothing is lost silently on the way in.** Let a pump over any interface make passes while
frames are taken from its ingress queue, and let the interface deliver any frames and fail in any
burst. At any time:

* each frame that was delivered was counted once as received, and then either queued or dropped;
  those dropped were counted, once in the counters and once by the queue;
* each failed burst was counted once;
* the frames ever taken from the queue, followed by those in it, are those that were in it first and
  then the queued ones, in the order of their delivery;
* the pump holds no frame.

The next pass, whatever state the interface is in, queues the first of the delivered frames, as
many as there are or as there is room. It gives the buffers of the others back to the pool, with
those of the frames that it took from the egress queue, and there is a place for all of them. -/
theorem nothing_lost_silently (h : Intake nic first p t log) :
    (t.stats.get .framesReceived =
        first.stats.get .framesReceived + UInt64.ofNat log.arrived.length ∧
      t.stats.get .ingressDropped =
        first.stats.get .ingressDropped + UInt64.ofNat log.refused.length ∧
      t.ingress.dropped = first.ingress.dropped + UInt64.ofNat log.refused.length ∧
      (∀ d ∈ log.deliveries, d.accepted ++ d.refused = d.frames) ∧
      log.arrived.length = log.accepted.length + log.refused.length) ∧
    t.stats.get .nicErrors = first.stats.get .nicErrors +
      UInt64.ofNat (log.failedDeliveries + failures log.sends) ∧
    log.popped ++ t.ingress.frames = first.ingress.frames ++ log.accepted ∧
    p.received = [] ∧
    ∀ s, let room := t.ingress.capacity - t.ingress.length
      let burst := nic.rxBurst s t.pool p.burst
      let queued := min burst.frames.length room
      let returned := burst.frames.drop queued ++ (t.egress.popBurst p.burst).2
      let m := pollOnce nic p s t
      m.traffic.ingress.frames = t.ingress.frames ++ burst.frames.take queued ∧
      m.traffic.pool = burst.pool.releaseAll returned ∧
      (∀ most n, burst.pool.Lends most (n + returned.length) → m.traffic.pool.Lends most n) ∧
      m.pump.received = [] := by
  have htallied := h.tallied
  obtain ⟨hreceived, hunsent⟩ := h.atRest
  refine ⟨⟨htallied.counted .framesReceived (by decide),
    htallied.counted .ingressDropped (by decide), htallied.dropped,
    fun d _ => d.accepted_append_refused, log.length_arrived⟩,
    htallied.counted .nicErrors (by decide), htallied.order, hreceived, fun s => ?_⟩
  intro room burst queued returned m
  obtain ⟨sends, left, hsent, -⟩ := pollOnce_recorded nic s t [] hunsent
  have hr := receive_received nic s t hreceived
  have haccepted : (deliveryOf nic p s t).accepted = burst.frames.take queued :=
    Delivery.accepted_eq _
  have hrefused : (deliveryOf nic p s t).refused = burst.frames.drop queued :=
    Delivery.refused_eq _
  have hpool : m.traffic.pool = burst.pool.releaseAll returned := by
    refine hsent.pool.trans ?_
    rw [hr.pool, hr.egress, hr.pump, hrefused, ← Pool.releaseAll_append]
  refine ⟨?_, hpool, fun most n hlends => ?_, ?_⟩
  · refine (congrArg FrameQueue.frames (hsent.ingress.trans hr.ingress)).trans ?_
    rw [← haccepted]
    rfl
  · rw [hpool]
    exact hlends.releaseAll
  · rw [pollOnce_pump nic s t hreceived hunsent]
    exact hreceived

/-- Three frames arrive before a burst fails, for a queue of two. One is taken and another one
arrives. The third frame was dropped and counted, and the others come out in order. -/
theorem third_frame_dropped :
    let first : Traffic := ⟨.new 0 4 4, .new "ingress" 2, .new "egress" 1, .zero⟩
    let m := pollOnce ScriptedNic.nic (.new 8) ⟨[⟨[[1], [2], [3]], some "late"⟩], [], [], []⟩ first
    let t := { m.traffic with ingress := m.traffic.ingress.pop.1 }
    let m' := pollOnce ScriptedNic.nic m.pump ⟨[⟨[[4]], none⟩], [], [], []⟩ t
    m'.traffic.stats.get .framesReceived = 4 ∧ m'.traffic.stats.get .ingressDropped = 1 ∧
      m'.traffic.stats.get .nicErrors = 1 ∧
      (m.traffic.ingress.pop.2.toList ++ m'.traffic.ingress.frames).map Buffer.contents =
        [[1], [2], [4]] ∧
      m'.traffic.pool.inUse = 3 := by
  have start :
      Intake ScriptedNic.nic ⟨.new 0 4 4, .new "ingress" 2, .new "egress" 1, .zero⟩ _ _ _ :=
    .start 8
  have taken := pop (.poll ⟨[⟨[[1], [2], [3]], some "late"⟩], [], [], []⟩ start)
  obtain ⟨⟨harrived, hrefused, -, -, -⟩, hfailed, horder, -, -⟩ :=
    nothing_lost_silently (.poll ⟨[⟨[[4]], none⟩], [], [], []⟩ taken)
  obtain ⟨-, -, -, -, hnext⟩ := nothing_lost_silently taken
  obtain ⟨-, -, hplaces, -⟩ := hnext ⟨[⟨[[4]], none⟩], [], [], []⟩
  have hlends := hplaces 4 3 ⟨by decide, by decide, by decide⟩
  refine ⟨harrived.trans ?_, hrefused.trans ?_, hfailed.trans ?_,
    (congrArg (List.map Buffer.contents) horder).trans ?_, hlends.inUse⟩ <;> decide

end Intake

end PathControl.Transport
