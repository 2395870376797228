import PathControl.Proofs.Transport.Queueing
import PathControl.Transport.Link

/-!
# The flow of frames

Frames enter an endpoint at its pump and at its attempts to send, and leave it at a counter or wait
in a queue. All equations are modulo 2^64, as the counters are.

* `Stats.inflow`, `Stats.outflow`: frames taken from the wire less those that were classified or
  dropped, and frames that a negotiation tried to send less those sent, dropped or given up for lack
  of a buffer.
* `Traffic.arriving`, `Traffic.leaving`: the same less the frames that wait in the queues: what is
  on its way between a queue and a counter.
* `Traffic.Roomy`: every buffer has room for a given number of bytes.
* `Shifted`: how an operation changes what is on its way. One lemma per operation, composed by
  `Shifted.trans`, up to `Pump.pollOnce_shifted`: a pass of the pump over a link leaves nothing on
  its way.
* `Pump.pollOnce_discreet`: a pass of the pump, over any interface, moves no counter but its own.
-/

namespace PathControl

/-! ### Counters -/

/-- What a counter says about frames taken from the wire. -/
def Counter.inflow : Counter → UInt64
  | framesReceived => 1
  | ingressDropped | notControl | malformed | probesReceived | timestampsReceived
  | repathsReceived | acksReceived => -1
  | framesSent | egressDropped | nicErrors | probesSent | bufferExhausted | clockAnomalies
  | triggers | repathsSent | repathRetries | acksSent | switches | abandoned => 0

/-- What a counter says about frames that a negotiation tried to send. -/
def Counter.outflow : Counter → UInt64
  | repathsSent | acksSent => 1
  | framesSent | egressDropped | bufferExhausted => -1
  | framesReceived | ingressDropped | nicErrors | probesSent | probesReceived | timestampsReceived
  | notControl | malformed | clockAnomalies | triggers | repathRetries | repathsReceived
  | acksReceived | switches | abandoned => 0

namespace Stats

/-- Frames taken from the wire that were neither classified nor dropped. -/
def inflow (s : Stats) : UInt64 :=
  s.get .framesReceived -
    (s.get .notControl + s.get .malformed + s.get .probesReceived + s.get .timestampsReceived +
      s.get .repathsReceived + s.get .acksReceived + s.get .ingressDropped)

/-- Frames that a negotiation tried to send, less all that were sent, dropped or given up. -/
def outflow (s : Stats) : UInt64 :=
  s.get .repathsSent + s.get .acksSent -
    (s.get .framesSent + s.get .egressDropped + s.get .bufferExhausted)

/-- Nothing has come in before anything is counted. -/
theorem inflow_zero : Stats.zero.inflow = 0 := by
  simp only [inflow, get_zero]
  rfl

/-- Nothing has gone out before anything is counted. -/
theorem outflow_zero : Stats.zero.outflow = 0 := by
  simp only [outflow, get_zero]
  rfl

/-- A counter moves the inflow by what it says about frames taken from the wire. -/
theorem inflow_add (s : Stats) (c : Counter) (n : UInt64) :
    (s.add c n).inflow = s.inflow + c.inflow * n := by
  unfold inflow
  cases c <;> simp only [get_add, reduceCtorEq, if_true, if_false, Counter.inflow] <;> grind

/-- A counter moves the outflow by what it says about frames to be sent. -/
theorem outflow_add (s : Stats) (c : Counter) (n : UInt64) :
    (s.add c n).outflow = s.outflow + c.outflow * n := by
  unfold outflow
  cases c <;> simp only [get_add, reduceCtorEq, if_true, if_false, Counter.outflow] <;> grind

end Stats

end PathControl

namespace PathControl.Transport

variable {n : Nat}

/-! ### Room in buffers -/

/-- Whether each of some buffers has room for `n` bytes. -/
def AllRoomy (n : Nat) (bs : List Buffer) : Prop := ∀ b ∈ bs, n ≤ b.capacity

namespace AllRoomy

variable {bs cs : List Buffer}

/-- No buffers are roomy. -/
theorem nil : AllRoomy n [] := List.forall_mem_nil _

/-- Two lists of roomy buffers make a roomy one. -/
theorem append (h : AllRoomy n bs) (h' : AllRoomy n cs) : AllRoomy n (bs ++ cs) :=
  List.forall_mem_append.2 ⟨h, h'⟩

/-- The front of a list of roomy buffers is roomy. -/
theorem take (h : AllRoomy n bs) (k : Nat) : AllRoomy n (bs.take k) :=
  fun b hb => h b (List.mem_of_mem_take hb)

/-- So is what stands behind it. -/
theorem drop (h : AllRoomy n bs) (k : Nat) : AllRoomy n (bs.drop k) :=
  fun b hb => h b (List.mem_of_mem_drop hb)

end AllRoomy

/-- Whether the buffers of a pool have room for `n` bytes, those it has yet to make included. -/
structure Pool.Roomy (n : Nat) (p : Pool) : Prop where
  free : AllRoomy n p.free
  made : n ≤ p.bufferSize

namespace Pool.Roomy

variable {p rest : Pool} {b : Buffer} {bs : List Buffer}

/-- A fresh pool is roomy if its buffers are made roomy. -/
theorem new (initial limit : Nat) {size : Nat} (h : n ≤ size) :
    (Pool.new initial limit size).Roomy n where
  free b hb := by
    rw [List.eq_of_mem_replicate hb]
    exact h
  made := h

/-- A buffer from a roomy pool is roomy, and what stays is. -/
theorem get? (h : p.Roomy n) (hget : p.get? = some (b, rest)) :
    n ≤ b.capacity ∧ rest.Roomy n := by
  unfold Pool.get? at hget
  split at hget
  · next hfree =>
    cases hget
    have hroom := h.free
    rw [hfree] at hroom
    obtain ⟨hb, hrest⟩ := List.forall_mem_cons.1 hroom
    exact ⟨hb, hrest, h.made⟩
  · next hfree =>
    split at hget
    · cases hget
      exact ⟨h.made, h.free, h.made⟩
    · cases hget

/-- A pool that gets a roomy buffer back is roomy. -/
theorem release (h : p.Roomy n) (hb : n ≤ b.capacity) : (p.release b).Roomy n := by
  unfold Pool.release
  split
  · exact ⟨h.free.append (List.forall_mem_singleton.2 hb), h.made⟩
  · exact ⟨h.free, h.made⟩

/-- A pool that gets roomy buffers back is roomy. -/
theorem releaseAll (h : p.Roomy n) (hbs : AllRoomy n bs) : (p.releaseAll bs).Roomy n := by
  induction bs generalizing p with
  | nil =>
    rw [releaseAll_nil]
    exact h
  | cons b bs ih =>
    obtain ⟨hb, hbs⟩ := List.forall_mem_cons.1 hbs
    rw [releaseAll_cons]
    exact ih (h.release hb) hbs

/-- Frames of a ring are copied into buffers of the pool. -/
theorem deliver (h : p.Roomy n) (room : Nat) (ring : List Wire.Bytes) :
    (Transport.deliver p room ring).2.1.Roomy n ∧
      AllRoomy n (Transport.deliver p room ring).2.2.1 := by
  induction room generalizing p ring with
  | zero => exact ⟨h, .nil⟩
  | succ room ih =>
    rcases ring with _ | ⟨frame, ring⟩
    · exact ⟨h, .nil⟩
    · unfold Transport.deliver
      split
      · exact ⟨h, .nil⟩
      · next buffer pool hget =>
        obtain ⟨hbuffer, hpool⟩ := h.get? hget
        obtain ⟨hrest, hbuffers⟩ := ih hpool ring
        exact ⟨hrest, List.forall_mem_cons.2 ⟨hbuffer, hbuffers⟩⟩

/-- A receive burst takes its buffers from the pool, so that both stay roomy. -/
theorem rxBurst {φ : Type} [LinkFilter φ] (h : p.Roomy n) (side : LinkEnd) (l : Link φ)
    (room : Nat) :
    ((Link.nic side).rxBurst l p room).pool.Roomy n ∧
      AllRoomy n ((Link.nic side).rxBurst l p room).frames :=
  h.deliver room (l.inbound side).ring.frames

end Pool.Roomy

namespace Traffic

/-- Whether all buffers of an endpoint have room for `n` bytes. -/
structure Roomy (n : Nat) (t : Traffic) : Prop where
  pool : t.pool.Roomy n
  ingress : AllRoomy n t.ingress.frames
  egress : AllRoomy n t.egress.frames

/-! ### What is on its way -/

/-- Frames taken from the wire that are neither at a counter nor in the ingress queue. -/
def arriving (t : Traffic) : UInt64 := t.stats.inflow - UInt64.ofNat t.ingress.length

/-- Frames that a negotiation tried to send, less all those at a counter or in the egress queue. -/
def leaving (t : Traffic) : UInt64 := t.stats.outflow - UInt64.ofNat t.egress.length

/-- Frames that the ingress queue has dropped without a word in the counters. -/
def lapse (t : Traffic) : UInt64 := t.ingress.dropped - t.stats.get .ingressDropped

end Traffic

/-! ### Shifts -/

/-- What an operation on the traffic brings on its way, towards the ingress queue and the
classification and towards the wire. The buffers keep their room, and no drop goes unsaid. -/
structure Shifted (n : Nat) (t : Traffic) (arrived left : UInt64) (t' : Traffic) : Prop where
  roomy : t'.Roomy n
  arriving : t'.arriving = t.arriving + arrived
  leaving : t'.leaving = t.leaving + left
  lapse : t'.lapse = t.lapse

namespace Shifted

variable {t t₁ t' : Traffic} {arrived arrived' left left' : UInt64} {pool : Pool}
  {frames : List Buffer}

/-- Nothing happens, and nothing is on its way. -/
theorem refl (h : t.Roomy n) : Shifted n t 0 0 t :=
  ⟨h, (UInt64.add_zero _).symm, (UInt64.add_zero _).symm, rfl⟩

/-- What is on its way adds up. -/
theorem trans (h : Shifted n t arrived left t₁) (h' : Shifted n t₁ arrived' left' t') :
    Shifted n t (arrived + arrived') (left + left') t' where
  roomy := h'.roomy
  arriving := by rw [h'.arriving, h.arriving, UInt64.add_assoc]
  leaving := by rw [h'.leaving, h.leaving, UInt64.add_assoc]
  lapse := h'.lapse.trans h.lapse

/-- The same shift, counted differently. -/
theorem of_eq (h : Shifted n t arrived left t') (harrived : arrived = arrived')
    (hleft : left = left') : Shifted n t arrived' left' t' :=
  harrived ▸ hleft ▸ h

/-! ### Operations -/

/-- A counter that does not stand for dropped frames of the ingress queue moves what is on its way
by what it says. -/
theorem countMany (h : t.Roomy n) (counter : Counter) (hne : counter ≠ .ingressDropped) (k : Nat) :
    Shifted n t (counter.inflow * UInt64.ofNat k) (counter.outflow * UInt64.ofNat k)
      (t.countMany counter k) where
  roomy := ⟨h.pool, h.ingress, h.egress⟩
  arriving := by
    have hadd := t.stats.inflow_add counter (UInt64.ofNat k)
    unfold Traffic.arriving Traffic.countMany
    grind
  leaving := by
    have hadd := t.stats.outflow_add counter (UInt64.ofNat k)
    unfold Traffic.leaving Traffic.countMany
    grind
  lapse := by
    unfold Traffic.lapse Traffic.countMany
    rw [Stats.get_add, if_neg hne]

/-- The same for one step of a counter. -/
theorem count (h : t.Roomy n) (counter : Counter) (hne : counter ≠ .ingressDropped) :
    Shifted n t counter.inflow counter.outflow (t.count counter) :=
  (countMany h counter hne 1).of_eq (UInt64.mul_one _) (UInt64.mul_one _)

/-- A pool may be replaced by a roomy one. -/
theorem withPool (h : t.Roomy n) (hpool : pool.Roomy n) : Shifted n t 0 0 { t with pool } :=
  ⟨⟨hpool, h.ingress, h.egress⟩, (UInt64.add_zero _).symm, (UInt64.add_zero _).symm, rfl⟩

/-- Giving buffers back moves no frame. -/
theorem release (h : t.Roomy n) (hframes : AllRoomy n frames) :
    Shifted n t 0 0 (t.release frames) :=
  withPool h (h.pool.releaseAll hframes)

/-- A burst takes and leaves, together, as many frames as were queued. -/
theorem length_popBurst (q : FrameQueue) (k : Nat) :
    UInt64.ofNat (q.popBurst k).2.length + UInt64.ofNat (q.popBurst k).1.length =
      UInt64.ofNat q.length := by
  rw [← UInt64.ofNat_add, Nat.add_comm]
  exact congrArg UInt64.ofNat (q.length_popBurst k)

/-- Frames taken out of the ingress queue are on their way to their classification. -/
theorem popIngress (h : t.Roomy n) (k : Nat) :
    Shifted n t (UInt64.ofNat (t.ingress.popBurst k).2.length) 0
      { t with ingress := (t.ingress.popBurst k).1 } where
  roomy := ⟨h.pool, h.ingress.drop k, h.egress⟩
  arriving := by
    have hlength := length_popBurst t.ingress k
    unfold Traffic.arriving
    grind
  leaving := (UInt64.add_zero _).symm
  lapse := rfl

/-- Frames taken out of the egress queue are on their way to the wire. -/
theorem popEgress (h : t.Roomy n) (k : Nat) :
    Shifted n t 0 (UInt64.ofNat (t.egress.popBurst k).2.length)
      { t with egress := (t.egress.popBurst k).1 } where
  roomy := ⟨h.pool, h.ingress, h.egress.drop k⟩
  arriving := (UInt64.add_zero _).symm
  leaving := by
    have hlength := length_popBurst t.egress k
    unfold Traffic.leaving
    grind
  lapse := rfl

/-- A frame that finds room in the egress queue waits there. -/
theorem queueEgress (h : t.Roomy n) {frame : Buffer} (hframe : n ≤ frame.capacity) :
    Shifted n t 0 (-1)
      { t with egress := { t.egress with frames := t.egress.frames ++ [frame] } } where
  roomy := ⟨h.pool, h.ingress, h.egress.append (List.forall_mem_singleton.2 hframe)⟩
  arriving := (UInt64.add_zero _).symm
  leaving := by
    have hlength : UInt64.ofNat (t.egress.frames ++ [frame]).length =
        UInt64.ofNat t.egress.length + 1 := by
      rw [List.length_append, UInt64.ofNat_add]
      rfl
    unfold Traffic.leaving FrameQueue.length at *
    grind
  lapse := rfl

/-- A frame that the egress queue drops is counted. -/
theorem dropEgress (h : t.Roomy n) (dropped : UInt64) :
    Shifted n t 0 (-1)
      { t with
        egress := { t.egress with dropped }
        stats := t.stats.inc .egressDropped } := by
  have hroomy : Traffic.Roomy n { t with egress := { t.egress with dropped } } :=
    ⟨h.pool, h.ingress, h.egress⟩
  obtain ⟨hcounted, harriving, hleaving, hlapse⟩ := count hroomy .egressDropped (by decide)
  exact ⟨hcounted, harriving, hleaving, hlapse⟩

/-! ### The pump -/

/-- A received frame is queued, or dropped and counted. -/
theorem enqueueAll (h : t.Roomy n) (hframes : AllRoomy n frames) :
    Shifted n t (-UInt64.ofNat frames.length) 0 (Pump.enqueueAll t frames) := by
  obtain ⟨hpool, hingress, hegress, hcounted⟩ := Pump.enqueueAll_enqueued t frames
  have hdropped := hcounted .ingressDropped
  rw [Counter.only_self] at hdropped
  have hother : ∀ counter ≠ .ingressDropped,
      (Pump.enqueueAll t frames).stats.get counter = t.stats.get counter :=
    fun counter hne => hcounted.of_gain_eq_zero (Counter.only_of_ne _ hne.symm)
  refine ⟨⟨?_, ?_, ?_⟩, ?_, ?_, ?_⟩
  · rw [hpool]
    exact h.pool.releaseAll (hframes.drop _)
  · rw [hingress]
    exact h.ingress.append (hframes.take _)
  · rw [hegress]
    exact h.egress
  · have hlength := congrArg UInt64.ofNat (t.ingress.length_offerAll frames)
    rw [UInt64.ofNat_add, UInt64.ofNat_add] at hlength
    unfold Traffic.arriving Stats.inflow
    simp only [hother, ne_eq, reduceCtorEq, not_false_eq_true, hdropped, hingress]
    grind
  · unfold Traffic.leaving Stats.outflow
    simp only [hother, ne_eq, reduceCtorEq, not_false_eq_true, hegress]
    exact (UInt64.add_zero _).symm
  · unfold Traffic.lapse
    rw [hdropped, hingress]
    show t.ingress.dropped + _ - _ = _
    grind

/-- A failed burst is counted by a counter that says nothing about frames. -/
theorem countFailure (h : t.Roomy n) (failure : Option Error) :
    Shifted n t 0 0 (Pump.countFailure t failure) := by
  rcases failure with _ | cause
  · exact refl h
  · exact count h .nicErrors (by decide)

end Shifted

namespace Pump

open Shifted

variable {t : Traffic} {φ : Type}

/-- A receive burst counts each frame once, and queues it or counts it as dropped. -/
theorem receive_shifted [LinkFilter φ] (side : LinkEnd) (l : Link φ) (p : Pump) (h : t.Roomy n)
    (hp : p.received = []) : Shifted n t 0 0 (receive (Link.nic side) p l t).traffic := by
  obtain ⟨hpool, hframes⟩ := h.pool.rxBurst side l p.burst
  have hdrawn := withPool h hpool
  have hfailed := hdrawn.trans (Shifted.countFailure hdrawn.roomy
    ((Link.nic side).rxBurst l t.pool p.burst).failure)
  have hcounted := hfailed.trans (countMany hfailed.roomy .framesReceived (by decide)
    ((Link.nic side).rxBurst l t.pool p.burst).frames.length)
  have hqueued := hcounted.trans (Shifted.enqueueAll hcounted.roomy hframes)
  unfold receive
  rw [hp]
  refine hqueued.of_eq ?_ ?_
  · show 0 + 0 + 1 * _ + -_ = _
    grind
  · show 0 + 0 + 0 * _ + 0 = _
    grind

/-- One attempt to hand the frames that are left to the interface. -/
def attempt {σ : Type} (nic : Nic σ) (m : Moved σ) : Moved σ :=
  let burst := nic.txBurst m.nic m.pump.unsent
  let taken := m.pump.unsent.take burst.taken
  { pump := { m.pump with unsent := m.pump.unsent.drop burst.taken }
    nic := burst.nic
    traffic := countFailure (m.traffic.release taken) burst.failure
    moved := if burst.failure.isSome then m.moved else m.moved + taken.length }

/-- Attempts to send go one after the other, and end early once all is taken. -/
theorem offer_succ {σ : Type} (nic : Nic σ) (attempts : Nat) (m : Moved σ) :
    offer nic (attempts + 1) m =
      if (attempt nic m).pump.unsent.isEmpty then attempt nic m
      else offer nic attempts (attempt nic m) := rfl

/-- What attempts to transmit over a link leave: frames that were taken or are still left. -/
structure Offered (n : Nat) (m m' : Moved (Link φ)) : Prop where
  shifted : Shifted n m.traffic 0 0 m'.traffic
  unsent : AllRoomy n m'.pump.unsent
  received : m'.pump.received = m.pump.received
  moved : m'.moved + m'.pump.unsent.length = m.moved + m.pump.unsent.length

/-- Attempts one after the other are attempts. -/
theorem Offered.trans {m m₁ m' : Moved (Link φ)} (h : Offered n m m₁) (h' : Offered n m₁ m') :
    Offered n m m' where
  shifted := h.shifted.trans h'.shifted
  unsent := h'.unsent
  received := h'.received.trans h.received
  moved := h'.moved.trans h.moved

/-- A link never fails to transmit, so an attempt counts what it takes. -/
theorem attempt_offered [LinkFilter φ] (side : LinkEnd) {m : Moved (Link φ)} (h : m.traffic.Roomy n)
    (hunsent : AllRoomy n m.pump.unsent) : Offered n m (attempt (Link.nic side) m) where
  shifted := release h (hunsent.take _)
  unsent := hunsent.drop _
  received := rfl
  moved := by
    have hsplit := congrArg List.length
      (m.pump.unsent.take_append_drop ((Link.nic side).txBurst m.nic m.pump.unsent).taken)
    rw [List.length_append] at hsplit
    show m.moved + _ + _ = _
    rw [Nat.add_assoc]
    exact congrArg (m.moved + ·) hsplit

/-- Any number of attempts over a link is offered frames as one is. -/
theorem offer_offered [LinkFilter φ] (side : LinkEnd) (attempts : Nat) {m : Moved (Link φ)}
    (h : m.traffic.Roomy n) (hunsent : AllRoomy n m.pump.unsent) :
    Offered n m (offer (Link.nic side) attempts m) := by
  induction attempts generalizing m with
  | zero => exact ⟨.refl h, hunsent, rfl, rfl⟩
  | succ attempts ih =>
    have hfirst := attempt_offered side h hunsent
    rw [offer_succ]
    split
    · exact hfirst
    · exact hfirst.trans (ih hfirst.shifted.roomy hfirst.unsent)

/-- A transmit burst leaves no frame behind: what the link has not taken is dropped and counted. -/
theorem transmit_shifted [LinkFilter φ] (side : LinkEnd) (l : Link φ) (p : Pump) (h : t.Roomy n)
    (hp : p.unsent = []) :
    Shifted n t 0 0 (transmit (Link.nic side) p l t).traffic ∧
      (transmit (Link.nic side) p l t).pump.unsent = [] ∧
      (transmit (Link.nic side) p l t).pump.received = p.received := by
  have hpopped := popEgress h p.burst
  have hframes : AllRoomy n (t.egress.popBurst p.burst).2 := h.egress.take p.burst
  unfold transmit
  generalize t.egress.popBurst p.burst = burst at hpopped hframes ⊢
  obtain ⟨egress, frames⟩ := burst
  dsimp only at hpopped hframes ⊢
  rw [hp, List.nil_append]
  split
  · next hempty =>
    have hnil := List.isEmpty_iff.1 hempty
    rw [hnil] at hpopped
    exact ⟨hpopped, hnil, rfl⟩
  · have hoffered := offer_offered side 2
      (m := ⟨{ p with unsent := frames }, l, { t with egress }, 0⟩) hpopped.roomy hframes
    generalize offer (Link.nic side : Nic (Link φ)) 2 _ = m at hoffered ⊢
    refine ⟨?_, rfl, hoffered.received⟩
    have hmoved := congrArg UInt64.ofNat hoffered.moved
    rw [UInt64.ofNat_add, Nat.zero_add] at hmoved
    have hpassed := hpopped.trans hoffered.shifted
    have hdropped := hpassed.trans
      (countMany hpassed.roomy .egressDropped (by decide) m.pump.unsent.length)
    have hreleased := hdropped.trans (release hdropped.roomy hoffered.unsent)
    have hsent := hreleased.trans (countMany hreleased.roomy .framesSent (by decide) m.moved)
    refine hsent.of_eq ?_ ?_
    · show 0 + 0 + 0 * _ + 0 + 0 * _ = _
      grind
    · show UInt64.ofNat frames.length + 0 + -1 * _ + 0 + -1 * _ = _
      grind

/-- A pass of the pump over a link leaves nothing on its way. -/
theorem pollOnce_shifted [LinkFilter φ] (side : LinkEnd) (l : Link φ) (p : Pump) (h : t.Roomy n)
    (hreceived : p.received = []) (hunsent : p.unsent = []) :
    Shifted n t 0 0 (pollOnce (Link.nic side) p l t).traffic ∧
      (pollOnce (Link.nic side) p l t).pump.received = [] ∧
      (pollOnce (Link.nic side) p l t).pump.unsent = [] := by
  have hin := receive_shifted side l p h hreceived
  obtain ⟨hout, hempty, hkept⟩ := transmit_shifted side (receive (Link.nic side) p l t).nic
    (receive (Link.nic side) p l t).pump hin.roomy hunsent
  exact ⟨hin.trans hout, hkept, hempty⟩

/-! ### The counters of the pump -/

/-- The counters that a pump moves. -/
def counters : List Counter :=
  [.framesReceived, .framesSent, .ingressDropped, .egressDropped, .nicErrors]

/-- Whether a change of the traffic leaves the other counters alone. -/
def Discreet (t t' : Traffic) : Prop :=
  ∀ counter ∉ counters, t'.stats.get counter = t.stats.get counter

variable {t₁ t' : Traffic} {σ : Type}

/-- Discreet operations compose. -/
theorem Discreet.trans (h : Discreet t t₁) (h' : Discreet t₁ t') : Discreet t t' :=
  fun counter hcounter => (h' counter hcounter).trans (h counter hcounter)

/-- A gain of one of the pump's own counters. -/
theorem Discreet.of_only {own : Counter} (h : own ∈ counters) {k : Nat}
    (hcounted : Counted t (own.only k) t') : Discreet t t' := by
  intro counter hcounter
  have hne : own ≠ counter := fun heq => hcounter (heq ▸ h)
  exact hcounted.of_gain_eq_zero (Counter.only_of_ne k hne)

/-- A counter of the pump's own may move. -/
theorem countMany_discreet (own : Counter) (h : own ∈ counters) (k : Nat) :
    Discreet t (t.countMany own k) :=
  .of_only h (Counted.countMany t own k)

/-- A failed burst moves a counter of the pump's own. -/
theorem countFailure_discreet (failure : Option Error) : Discreet t (countFailure t failure) :=
  .of_only (by decide) (Counted.countFailure t failure)

/-- Queueing received frames moves a counter of the pump's own, if any. -/
theorem enqueueAll_discreet (frames : List Buffer) : Discreet t (enqueueAll t frames) :=
  .of_only (by decide) (enqueueAll_enqueued t frames).counted

/-- An attempt to transmit gives buffers back, and counts a failure. -/
theorem attempt_discreet (nic : Nic σ) (m : Moved σ) : Discreet m.traffic (attempt nic m).traffic :=
  countFailure_discreet (t := m.traffic.release _) _

/-- Attempts to send are discreet, whatever the interface is. -/
theorem offer_discreet (nic : Nic σ) (attempts : Nat) (m : Moved σ) :
    Discreet m.traffic (offer nic attempts m).traffic := by
  induction attempts generalizing m with
  | zero => exact fun _ _ => rfl
  | succ attempts ih =>
    rw [offer_succ]
    split
    · exact attempt_discreet nic m
    · exact (attempt_discreet nic m).trans (ih _)

/-- A receive burst is discreet. -/
theorem receive_discreet (nic : Nic σ) (p : Pump) (s : σ) (t : Traffic) :
    Discreet t (receive nic p s t).traffic := by
  have hfailed := countFailure_discreet
    (t := { t with pool := (nic.rxBurst s t.pool p.burst).pool })
    (nic.rxBurst s t.pool p.burst).failure
  have hcounted := hfailed.trans (countMany_discreet .framesReceived (by decide)
    (p.received ++ (nic.rxBurst s t.pool p.burst).frames).length)
  exact hcounted.trans (enqueueAll_discreet _)

/-- A transmit burst is discreet. -/
theorem transmit_discreet (nic : Nic σ) (p : Pump) (s : σ) (t : Traffic) :
    Discreet t (transmit nic p s t).traffic := by
  unfold transmit
  dsimp only
  split
  · exact fun _ _ => rfl
  · generalize hoffer : offer nic 2 _ = m
    have hoffered := offer_discreet nic 2
      ⟨{ p with unsent := p.unsent ++ (t.egress.popBurst p.burst).2 }, s,
        { t with egress := (t.egress.popBurst p.burst).1 }, 0⟩
    rw [hoffer] at hoffered
    have hdropped := hoffered.trans
      (countMany_discreet .egressDropped (by decide) m.pump.unsent.length)
    exact hdropped.trans (countMany_discreet .framesSent (by decide) m.moved)

/-- A pass of the pump, over any interface, moves no counter but its own. -/
theorem pollOnce_discreet (nic : Nic σ) (p : Pump) (s : σ) (t : Traffic) :
    Discreet t (pollOnce nic p s t).traffic :=
  (receive_discreet nic p s t).trans (transmit_discreet nic _ _ _)

end Pump

end PathControl.Transport
