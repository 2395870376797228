import PathControl.Proofs.Transport.Recording

/-!
# How far the drop counters can get

The sum of the two drop counters is the one sum of counters that must not leave its word. Each frame
is dropped once at most, and not any more once it was taken out of its queue; so a drop counter
together with the length of its queue grows by the frames that come in, and by nothing else.

* `Traffic.inward`, `Traffic.outward`: frames dropped at a queue or waiting in it.
* `Grown`: by how much an operation lets the two grow at most. One lemma per operation, composed by
  `Grown.trans`, up to `Pump.pollOnce_grown`: over any interface, a pass of the pump adds the frames
  that it receives.
-/

namespace PathControl.Transport

namespace Traffic

/-- Frames that the ingress queue has dropped or holds. -/
def inward (t : Traffic) : Nat := (t.stats.get .ingressDropped).toNat + t.ingress.length

/-- Frames that were dropped on their way out, and those in the egress queue. -/
def outward (t : Traffic) : Nat := (t.stats.get .egressDropped).toNat + t.egress.length

end Traffic

/-- By how much an operation on the traffic lets the frames dropped or waiting grow at most, inward
and outward. -/
structure Grown (t : Traffic) (arrived left : Nat) (t' : Traffic) : Prop where
  inward : t'.inward ≤ t.inward + arrived
  outward : t'.outward ≤ t.outward + left

namespace Grown

variable {t t₁ t' : Traffic} {arrived arrived' left left' : Nat}

/-- Nothing happens, and nothing grows. -/
theorem refl : Grown t 0 0 t := ⟨Nat.le_refl _, Nat.le_refl _⟩

/-- Growth adds up. -/
theorem trans (h : Grown t arrived left t₁) (h' : Grown t₁ arrived' left' t') :
    Grown t (arrived + arrived') (left + left') t' where
  inward := by
    have hfirst := h.inward
    have hsecond := h'.inward
    omega
  outward := by
    have hfirst := h.outward
    have hsecond := h'.outward
    omega

/-- The same growth, counted differently. -/
theorem of_eq (h : Grown t arrived left t') (harrived : arrived = arrived') (hleft : left = left') :
    Grown t arrived' left' t' :=
  harrived ▸ hleft ▸ h

/-! ### Operations -/

/-- A counter that is moved grows by no more, even where it wraps around. -/
theorem toNat_add_le (a : UInt64) (n : Nat) : (a + UInt64.ofNat n).toNat ≤ a.toNat + n := by
  rw [UInt64.toNat_add, UInt64.toNat_ofNat']
  have hword := Nat.mod_le n (Nat.pow 2 64)
  exact Nat.le_trans (Nat.mod_le _ _) (Nat.add_le_add_left hword _)

/-- Counters that do not stand for drops may move. -/
theorem countMany (counter : Counter) (hin : counter ≠ .ingressDropped)
    (hout : counter ≠ .egressDropped) (n : Nat) : Grown t 0 0 (t.countMany counter n) where
  inward := by
    unfold Traffic.inward Traffic.countMany
    rw [Stats.get_add, if_neg hin]
    exact Nat.le_refl _
  outward := by
    unfold Traffic.outward Traffic.countMany
    rw [Stats.get_add, if_neg hout]
    exact Nat.le_refl _

/-- The same for one step of such a counter. -/
theorem count {counter : Counter} (hin : counter ≠ .ingressDropped)
    (hout : counter ≠ .egressDropped) : Grown t 0 0 (t.count counter) :=
  countMany counter hin hout 1

/-- The pool may be replaced: no frame waits in it. -/
theorem withPool (pool : Pool) : Grown t 0 0 { t with pool } := ⟨Nat.le_refl _, Nat.le_refl _⟩

/-- Counting a failure drops nothing. -/
theorem countFailure (failure : Option Error) : Grown t 0 0 (Pump.countFailure t failure) := by
  rcases failure with _ | cause
  · exact refl
  · exact count (by decide) (by decide)

/-- Frames in no queue that are dropped on their way out. -/
theorem dropEgress (n : Nat) : Grown t 0 n (t.countMany .egressDropped n) where
  inward := by
    unfold Traffic.inward Traffic.countMany
    rw [Stats.get_add, if_neg (by decide)]
    exact Nat.le_refl _
  outward := by
    have hcount := toNat_add_le (t.stats.get .egressDropped) n
    unfold Traffic.outward Traffic.countMany
    rw [Stats.get_add, if_pos rfl, Nat.add_right_comm]
    exact Nat.add_le_add_right hcount _

/-- Received frames are queued or dropped. -/
theorem enqueueAll (frames : List Buffer) :
    Grown t frames.length 0 (Pump.enqueueAll t frames) := by
  obtain ⟨-, hingress, hegress, hcounted⟩ := Pump.enqueueAll_enqueued t frames
  refine ⟨?_, ?_⟩
  · have hlength := t.ingress.length_offerAll frames
    have hcount := toNat_add_le (t.stats.get .ingressDropped) (frames.drop t.ingress.room).length
    unfold Traffic.inward
    rw [hcounted .ingressDropped, Counter.only_self, hingress]
    omega
  · unfold Traffic.outward
    rw [hcounted.of_gain_eq_zero (Counter.only_of_ne _ (by decide)), hegress]
    exact Nat.le_refl _

end Grown

namespace Pump

variable {t : Traffic} {σ : Type}

/-- A receive burst adds the frames that it moves. -/
theorem receive_grown (nic : Nic σ) (p : Pump) (s : σ) (t : Traffic) :
    Grown t (receive nic p s t).moved 0 (receive nic p s t).traffic := by
  have hdrawn : Grown t 0 0 _ := .withPool (nic.rxBurst s t.pool p.burst).pool
  have hfailed := hdrawn.trans (.countFailure (nic.rxBurst s t.pool p.burst).failure)
  have hcounted := hfailed.trans (.countMany .framesReceived (by decide) (by decide)
    (p.received ++ (nic.rxBurst s t.pool p.burst).frames).length)
  have hqueued := hcounted.trans (.enqueueAll (p.received ++ (nic.rxBurst s t.pool p.burst).frames))
  exact hqueued.of_eq (Nat.zero_add _) rfl

/-- A transmit burst drops no frame that was not in the egress queue. -/
theorem transmit_grown (nic : Nic σ) (p : Pump) (s : σ) (t : Traffic) (hp : p.unsent = []) :
    Grown t 0 0 (transmit nic p s t).traffic := by
  obtain ⟨sends, left, hsent, -⟩ := transmit_recorded nic s t [] hp
  refine ⟨?_, ?_⟩
  · unfold Traffic.inward
    rw [hsent.counted.of_gain_eq_zero rfl, hsent.ingress]
    exact Nat.le_refl _
  · have hcount := Grown.toNat_add_le (t.stats.get .egressDropped) left.length
    -- what the attempts left was in the egress queue before
    have htaken := congrArg List.length hsent.attempts.split
    have hpopped := t.egress.length_popBurst p.burst
    rw [List.length_append] at htaken
    unfold Traffic.outward
    rw [hsent.counted .egressDropped, hsent.egress]
    show (t.stats.get .egressDropped + UInt64.ofNat left.length).toNat + _ ≤ _
    omega

/-- A pass of the pump adds the frames that it receives, and nothing else. -/
theorem pollOnce_grown (nic : Nic σ) (p : Pump) (s : σ) (t : Traffic) (hp : p.unsent = []) :
    Grown t (receive nic p s t).moved 0 (pollOnce nic p s t).traffic := by
  have hreceived : (receive nic p s t).pump.unsent = [] := hp
  exact (receive_grown nic p s t).trans (transmit_grown nic _ (receive nic p s t).nic _ hreceived)

end Pump

end PathControl.Transport
