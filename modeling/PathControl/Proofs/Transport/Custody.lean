import PathControl.Proofs.Transport.Recording

/-!
# Custody of buffers

A pool knows how many buffers it has made and which of them are free. The others wait in a queue,
are in the hands of a loop, or are held by the host.

* `Pool.Lends`: a pool that has handed out so many buffers. One lemma per operation of a pool. The
  main one is `Pool.Lends.release`: there is always a place for a buffer that was handed out.
* `Traffic.Lends`: the buffers handed out are those in the two queues and so many more.
* `Nic.Draws`: a receive burst draws one buffer per frame from the pool. `Link.nic_draws`: over a
  link it does.
* `Pump.pollOnce_lends`: over any such interface, whatever fails, a pass of the pump gives back
  every buffer that it does not put into the ingress queue.
-/

namespace PathControl.Transport

variable {most n k : Nat}

/-! ### Pools -/

/-- Whether a pool of at most `most` buffers has handed out `n` of them. -/
structure Pool.Lends (most n : Nat) (p : Pool) : Prop where
  limit : p.limit = most
  made : p.allocated = p.free.length + n
  bounded : p.allocated ≤ most

namespace Pool.Lends

variable {p rest : Pool} {b : Buffer}

/-- A fresh pool has handed nothing out. -/
theorem new (initial limit size : Nat) : (Pool.new initial limit size).Lends (max limit 1) 0 where
  limit := rfl
  made := List.length_replicate.symm
  bounded := Nat.min_le_right _ _

/-- The same loans, counted differently. -/
theorem of_eq {m : Nat} (h : p.Lends most n) (hcount : n = m) : p.Lends most m := hcount ▸ h

/-- As many buffers are in use as were handed out. -/
theorem inUse (h : p.Lends most n) : p.inUse = n := by
  unfold Pool.inUse Pool.available
  rw [h.made]
  exact Nat.add_sub_cancel_left _ _

/-- A buffer that is taken is handed out. -/
theorem get? (h : p.Lends most n) (hget : p.get? = some (b, rest)) : rest.Lends most (n + 1) := by
  have hmade := h.made
  unfold Pool.get? at hget
  split at hget
  · next hfree =>
    cases hget
    rw [hfree, List.length_cons, Nat.succ_add_eq_add_succ] at hmade
    exact ⟨h.limit, hmade, h.bounded⟩
  · next hfree =>
    split at hget
    · next hroom =>
      cases hget
      refine ⟨h.limit, congrArg Nat.succ hmade, ?_⟩
      exact h.limit ▸ hroom
    · cases hget

/-- What was handed out fits: a pool never drops a buffer that comes back. -/
theorem release (h : p.Lends most (n + 1)) (b : Buffer) : (p.release b).Lends most n := by
  have hmade := h.made
  have hbounded := h.bounded
  have hplace : p.free.length < p.limit := by
    rw [h.limit]
    omega
  unfold Pool.release
  rw [if_pos hplace]
  refine ⟨h.limit, ?_, hbounded⟩
  rw [List.length_append, List.length_singleton, Nat.add_right_comm]
  exact hmade

/-- Buffers that are given back are handed out no longer. -/
theorem releaseAll {bs : List Buffer} (h : p.Lends most (n + bs.length)) :
    (p.releaseAll bs).Lends most n := by
  induction bs generalizing p with
  | nil =>
    rw [releaseAll_nil]
    exact h
  | cons b bs ih =>
    rw [releaseAll_cons]
    apply ih
    exact h.release b

/-- Who takes all buffers holds them all. -/
theorem takeAll (h : p.Lends most n) : p.takeAll.1.Lends most (n + p.takeAll.2.length) := by
  have hmade := h.made
  have hbounded := h.bounded
  have hlimit := h.limit
  unfold Pool.takeAll
  refine ⟨hlimit, ?_, ?_⟩
  · simp only [List.length_append, List.length_replicate, List.length_nil]
    omega
  · show p.allocated + (p.limit - p.allocated) ≤ most
    omega

/-- Each frame that is copied out of a ring takes one buffer. -/
theorem deliver (h : p.Lends most n) (room : Nat) (ring : List Wire.Bytes) :
    (Transport.deliver p room ring).2.1.Lends most
      (n + (Transport.deliver p room ring).2.2.1.length) := by
  induction room generalizing p n ring with
  | zero => exact h
  | succ room ih =>
    rcases ring with _ | ⟨frame, ring⟩
    · exact h
    · unfold Transport.deliver
      split
      · exact h
      · next buffer rest hget =>
        have hrest := ih (h.get? hget) ring
        rw [Nat.add_right_comm] at hrest
        exact hrest

end Pool.Lends

/-- A frame that a queue takes or drops leaves the hands that it was in. -/
theorem FrameQueue.pushOrDrop_lends {q : FrameQueue} {p : Pool} (frame : Buffer)
    (h : p.Lends most (q.length + n + 1)) :
    (q.pushOrDrop p frame).2.1.Lends most ((q.pushOrDrop p frame).1.length + n) := by
  by_cases hfull : q.isFull = true
  · rw [q.pushOrDrop_of_isFull p frame hfull]
    exact h.release frame
  · rw [q.pushOrDrop_of_not_isFull p frame (by simpa using hfull)]
    unfold FrameQueue.length at h ⊢
    rw [List.length_append, List.length_singleton, Nat.add_right_comm]
    exact h

/-! ### Traffic -/

/-- Whether the buffers handed out are those in the two queues and `k` more. -/
def Traffic.Lends (most k : Nat) (t : Traffic) : Prop :=
  t.pool.Lends most (t.ingress.length + t.egress.length + k)

namespace Traffic.Lends

variable {t : Traffic} {frames : List Buffer}

/-- The buffers in use are those in the queues and those in other hands. -/
theorem inUse (h : t.Lends most k) :
    t.pool.inUse = t.ingress.length + t.egress.length + k :=
  Pool.Lends.inUse h

/-- Buffers in other hands may be given back. -/
theorem release (h : t.Lends most (k + frames.length)) : (t.release frames).Lends most k := by
  apply Pool.Lends.releaseAll
  exact Pool.Lends.of_eq h (Nat.add_assoc _ _ _).symm

/-- Frames taken out of the ingress queue are in the hands of the one who takes them. -/
theorem popIngress (h : t.Lends most k) (room : Nat) :
    Traffic.Lends most (k + (t.ingress.popBurst room).2.length)
      { t with ingress := (t.ingress.popBurst room).1 } := by
  apply Pool.Lends.of_eq h
  rw [← t.ingress.length_popBurst room]
  show _ = (t.ingress.popBurst room).1.length + t.egress.length + _
  omega

/-- Frames taken out of the egress queue are in the hands of the one who takes them. -/
theorem popEgress (h : t.Lends most k) (room : Nat) :
    Traffic.Lends most (k + (t.egress.popBurst room).2.length)
      { t with egress := (t.egress.popBurst room).1 } := by
  apply Pool.Lends.of_eq h
  rw [← t.egress.length_popBurst room]
  show _ = t.ingress.length + (t.egress.popBurst room).1.length + _
  omega

/-- A frame that is offered to the ingress queue is in no hands any more, whether it fits or not. -/
theorem pushIngress (h : t.Lends most (k + 1)) (frame : Buffer) :
    (t.pushIngress frame).1.Lends most k := by
  have hheld : t.pool.Lends most (t.ingress.length + (t.egress.length + k) + 1) :=
    Pool.Lends.of_eq h (by omega)
  apply (t.ingress.pushOrDrop_lends frame hheld).of_eq
  show (t.pushIngress frame).1.ingress.length + _ = _ + t.egress.length + k
  omega

/-- A frame that is offered to the egress queue is in no hands any more, whether it fits or not. -/
theorem pushEgress (h : t.Lends most (k + 1)) (frame : Buffer) :
    (t.pushEgress frame).1.Lends most k := by
  have hheld : t.pool.Lends most (t.egress.length + (t.ingress.length + k) + 1) :=
    Pool.Lends.of_eq h (by omega)
  apply (t.egress.pushOrDrop_lends frame hheld).of_eq
  show (t.pushEgress frame).1.egress.length + _ = t.ingress.length + _ + k
  omega

end Traffic.Lends

/-! ### Interfaces -/

/-- Whether a receive burst draws one buffer per frame from the pool, and nothing else. -/
def Nic.Draws {σ : Type} (nic : Nic σ) : Prop :=
  ∀ {most n : Nat} {p : Pool} (s : σ) (room : Nat), p.Lends most n →
    (nic.rxBurst s p room).pool.Lends most (n + (nic.rxBurst s p room).frames.length)

/-- The interface of a link takes one buffer from the pool for each frame that it delivers. -/
theorem Link.nic_draws {φ : Type} [LinkFilter φ] (side : LinkEnd) :
    (Link.nic side : Nic (Link φ)).Draws :=
  fun l room h => h.deliver room (l.inbound side).ring.frames

/-! ### The pump -/

namespace Pump

variable {t : Traffic} {σ : Type} {nic : Nic σ}

/-- A receive burst leaves no buffer in the hands of the pump, even if it ends early. -/
theorem receive_lends (hnic : nic.Draws) (p : Pump) (s : σ) (h : t.Lends most k)
    (hp : p.received = []) : (receive nic p s t).traffic.Lends most k := by
  have hr := receive_received nic s t hp
  have hdrawn := hnic s p.burst h
  have hlength := t.ingress.length_offerAll (deliveryOf nic p s t).frames
  unfold Traffic.Lends
  rw [hr.pool, hr.ingress, hr.egress, Delivery.refused, hr.room]
  apply Pool.Lends.releaseAll
  apply hdrawn.of_eq
  show t.ingress.length + t.egress.length + k + (deliveryOf nic p s t).frames.length = _
  omega

/-- A transmit burst leaves no buffer in the hands of the pump, whether the interface took its
frames or not. -/
theorem transmit_lends (nic : Nic σ) (p : Pump) (s : σ) (h : t.Lends most k)
    (hp : p.unsent = []) :
    (transmit nic p s t).traffic.Lends most k ∧ (transmit nic p s t).pump.received = p.received ∧
      (transmit nic p s t).pump.unsent = [] := by
  obtain ⟨sends, left, hsent, -⟩ := transmit_recorded nic s t [] hp
  rw [hsent.pump]
  refine ⟨?_, rfl, rfl⟩
  unfold Traffic.Lends
  rw [hsent.pool, hsent.ingress, hsent.egress]
  apply Pool.Lends.releaseAll
  exact Pool.Lends.of_eq (h.popEgress p.burst) (Nat.add_assoc _ _ _).symm

/-- A pass of the pump leaves no buffer in its hands. -/
theorem pollOnce_lends (hnic : nic.Draws) (p : Pump) (s : σ) (h : t.Lends most k)
    (hreceived : p.received = []) (hunsent : p.unsent = []) :
    (pollOnce nic p s t).traffic.Lends most k ∧ (pollOnce nic p s t).pump.received = [] ∧
      (pollOnce nic p s t).pump.unsent = [] :=
  transmit_lends nic _ _ (receive_lends hnic p s h hreceived) hunsent

end Pump

end PathControl.Transport
