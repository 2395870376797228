import PathControl.Transport.Pump

/-!
# Counters and queued frames

What it does to the counters and to the ingress queue if the pump queues the frames of a receive
burst.

* `Counted`: by how much an operation moves each counter. It composes by addition.
* `FrameQueue.offerAll`: the queue after frames were offered to it, all at once.
* `Pump.Enqueued`: what it comes to if received frames are queued one by one. They are queued as
  long as there is room, and the others are dropped.
-/

namespace PathControl

namespace Counter

/-- A gain of one counter alone. -/
def only (own : Counter) (n : Nat) : Counter → Nat :=
  fun counter => if own = counter then n else 0

variable (own counter : Counter) (n : Nat)

/-- A counter that moves by nothing stays. -/
theorem only_zero : own.only 0 counter = 0 := ite_self 0

/-- A counter moves by what it is moved by. -/
theorem only_self : own.only n own = n := if_pos rfl

/-- No other counter moves with it. -/
theorem only_of_ne {own counter : Counter} (h : own ≠ counter) : own.only n counter = 0 := if_neg h

end Counter

end PathControl

namespace PathControl.Transport

/-! ### Counters -/

/-- Whether an operation on the traffic moves each counter by a given number, modulo 2^64. -/
def Counted (t : Traffic) (gain : Counter → Nat) (t' : Traffic) : Prop :=
  ∀ counter, t'.stats.get counter = t.stats.get counter + UInt64.ofNat (gain counter)

namespace Counted

variable {t t₁ t' : Traffic} {gain gain' : Counter → Nat}

/-- The same gain, written differently. -/
theorem of_eq (h : Counted t gain t') (hgain : ∀ counter, gain counter = gain' counter) :
    Counted t gain' t' :=
  fun counter => hgain counter ▸ h counter

/-- Where the counters are the same, nothing was counted. -/
theorem of_stats_eq (h : t'.stats = t.stats) : Counted t (fun _ => 0) t' := by
  intro counter
  rw [h]
  exact (UInt64.add_zero _).symm

/-- Nothing happens, and nothing is counted. -/
theorem refl (t : Traffic) : Counted t (fun _ => 0) t := of_stats_eq rfl

/-- A counter that was moved by nothing has its value. -/
theorem of_gain_eq_zero (h : Counted t gain t') {counter : Counter} (hgain : gain counter = 0) :
    t'.stats.get counter = t.stats.get counter := by
  rw [h counter, hgain]
  exact UInt64.add_zero _

/-- What is counted adds up. -/
theorem trans (h : Counted t gain t₁) (h' : Counted t₁ gain' t') :
    Counted t (fun counter => gain counter + gain' counter) t' := by
  intro counter
  rw [h' counter, h counter, UInt64.ofNat_add, UInt64.add_assoc]

/-- Adding to a counter moves this one only. -/
theorem countMany (t : Traffic) (own : Counter) (n : Nat) :
    Counted t (own.only n) (t.countMany own n) := by
  intro counter
  refine (Stats.get_add _ _ _ _).trans ?_
  unfold Counter.only
  split
  · rfl
  · exact (UInt64.add_zero _).symm

/-- A failure moves the counter of failures by one, and a success does not. -/
theorem countFailure (t : Traffic) (failure : Option Error) :
    Counted t (Counter.nicErrors.only failure.toList.length) (Pump.countFailure t failure) := by
  rcases failure with _ | cause
  · exact (refl t).of_eq fun counter => (Counter.only_zero _ counter).symm
  · exact countMany t .nicErrors 1

end Counted

namespace Pump

variable (t : Traffic) (failure : Option Error)

/-- Counting a failure leaves the pool alone. -/
@[simp] theorem countFailure_pool : (countFailure t failure).pool = t.pool := by
  cases failure <;> rfl

/-- Counting a failure leaves the ingress queue alone. -/
@[simp] theorem countFailure_ingress : (countFailure t failure).ingress = t.ingress := by
  cases failure <;> rfl

/-- Counting a failure leaves the egress queue alone. -/
@[simp] theorem countFailure_egress : (countFailure t failure).egress = t.egress := by
  cases failure <;> rfl

end Pump

/-! ### Queues -/

namespace FrameQueue

/-- A frame that is popped stood at the front. -/
theorem pop_frames (q : FrameQueue) : q.pop.2.toList ++ q.pop.1.frames = q.frames := by
  unfold pop
  split
  · rfl
  · next hframes => exact hframes.symm

/-- Popping drops nothing. -/
theorem pop_dropped (q : FrameQueue) : q.pop.1.dropped = q.dropped := by
  unfold pop
  split <;> rfl

/-- A burst and what it leaves are as long as the queue was. -/
theorem length_popBurst (q : FrameQueue) (room : Nat) :
    (q.popBurst room).1.length + (q.popBurst room).2.length = q.length := by
  have hsplit := congrArg List.length (q.popBurst_frames room)
  rw [List.length_append, Nat.add_comm] at hsplit
  exact hsplit

/-- How many more frames fit. -/
def room (q : FrameQueue) : Nat := q.capacity - q.length

/-- The queue after frames were offered to it, in order: it takes them as long as there is room, and
counts the others as dropped. -/
def offerAll (q : FrameQueue) (frames : List Buffer) : FrameQueue where
  name := q.name
  capacity := q.capacity
  frames := q.frames ++ frames.take q.room
  dropped := q.dropped + UInt64.ofNat (frames.drop q.room).length

/-- A full queue has no room. -/
theorem room_eq_zero {q : FrameQueue} (h : q.isFull = true) : q.room = 0 :=
  Nat.sub_eq_zero_of_le (of_decide_eq_true h)

/-- A queue that is not full has room for one more. -/
theorem room_eq_add_one {q : FrameQueue} (h : ¬ q.isFull = true) : ∃ room, q.room = room + 1 :=
  Nat.exists_eq_add_one.2 (Nat.sub_pos_of_lt (Nat.lt_of_not_le fun hle => h (decide_eq_true hle)))

/-- Each frame that is offered is taken or dropped. -/
theorem length_offerAll (q : FrameQueue) (frames : List Buffer) :
    (q.offerAll frames).length + (frames.drop q.room).length = q.length + frames.length := by
  show (q.frames ++ frames.take q.room).length + (frames.drop q.room).length =
    q.frames.length + frames.length
  rw [List.length_append, Nat.add_assoc, ← List.length_append, List.take_append_drop]

/-- Frames that are offered fill the room, and no more than that. -/
theorem room_offerAll (q : FrameQueue) (frames : List Buffer) :
    (q.offerAll frames).room = q.room - frames.length := by
  show q.capacity - (q.frames ++ frames.take q.room).length = _
  rw [List.length_append, List.length_take]
  unfold room length
  omega

/-- Offering no frames changes nothing. -/
theorem offerAll_nil (q : FrameQueue) : q.offerAll [] = q := by
  unfold offerAll
  rw [List.take_nil, List.drop_nil, List.append_nil]
  exact congrArg _ (UInt64.add_zero _)

/-- Frames may be offered in two goes. -/
theorem offerAll_append (q : FrameQueue) (frames later : List Buffer) :
    q.offerAll (frames ++ later) = (q.offerAll frames).offerAll later := by
  rw [offerAll, offerAll, room_offerAll, List.take_append, List.drop_append, List.length_append,
    UInt64.ofNat_add]
  unfold offerAll
  rw [List.append_assoc, UInt64.add_assoc]

end FrameQueue

/-! ### Frames that are received -/

namespace Pump

/-- A received frame that finds no room is counted twice, by the queue and by the pump, and its
buffer goes back. -/
theorem enqueue_of_isFull {t : Traffic} (frame : Buffer) (hfull : t.ingress.isFull = true) :
    enqueueAll t [frame] =
      { t with
        ingress := { t.ingress with dropped := t.ingress.dropped + 1 }
        pool := t.pool.release frame }.count .ingressDropped := by
  simp only [enqueueAll, List.foldl_cons, List.foldl_nil, Traffic.pushIngress,
    FrameQueue.pushOrDrop_of_isFull _ _ hfull]

/-- A received frame that finds room is queued, and that is all. -/
theorem enqueue_of_not_isFull {t : Traffic} (frame : Buffer)
    (hfull : ¬ t.ingress.isFull = true) :
    enqueueAll t [frame] =
      { t with ingress := { t.ingress with frames := t.ingress.frames ++ [frame] } } := by
  simp only [enqueueAll, List.foldl_cons, List.foldl_nil, Traffic.pushIngress,
    FrameQueue.pushOrDrop_of_not_isFull _ _ (Bool.not_eq_true _ ▸ hfull)]

/-- What it comes to if received frames are queued. The buffers of those that find no room are given
back. -/
structure Enqueued (t : Traffic) (frames : List Buffer) (t' : Traffic) : Prop where
  pool : t'.pool = t.pool.releaseAll (frames.drop t.ingress.room)
  ingress : t'.ingress = t.ingress.offerAll frames
  egress : t'.egress = t.egress
  counted : Counted t (Counter.ingressDropped.only (frames.drop t.ingress.room).length) t'

namespace Enqueued

variable {t₁ t' : Traffic} {frames later : List Buffer}

/-- No received frames, and nothing to queue. -/
theorem nil (t : Traffic) : Enqueued t [] t where
  pool := by rw [List.drop_nil, Pool.releaseAll_nil]
  ingress := t.ingress.offerAll_nil.symm
  egress := rfl
  counted := (Counted.refl t).of_eq fun counter => by
    rw [List.drop_nil, List.length_nil, Counter.only_zero]

/-- Received frames may be queued in two goes. -/
theorem append {t : Traffic} (h : Enqueued t frames t₁) (h' : Enqueued t₁ later t') :
    Enqueued t (frames ++ later) t' where
  pool := by
    rw [h'.pool, h.pool, h.ingress, FrameQueue.room_offerAll, List.drop_append,
      Pool.releaseAll_append]
  ingress := by rw [h'.ingress, h.ingress, FrameQueue.offerAll_append]
  egress := h'.egress.trans h.egress
  counted := (h.counted.trans h'.counted).of_eq fun counter => by
    unfold Counter.only
    rw [h.ingress, FrameQueue.room_offerAll, List.drop_append, List.length_append]
    split <;> rfl

end Enqueued

/-- One received frame is queued or dropped. -/
theorem enqueue_enqueued (t : Traffic) (frame : Buffer) :
    Enqueued t [frame] (enqueueAll t [frame]) := by
  by_cases hfull : t.ingress.isFull = true
  · rw [enqueue_of_isFull frame hfull]
    have hroom := FrameQueue.room_eq_zero hfull
    refine ⟨?_, ?_, rfl, ?_⟩
    · rw [hroom, List.drop_zero, Pool.releaseAll_cons, Pool.releaseAll_nil]
      rfl
    · rw [FrameQueue.offerAll, hroom, List.take_zero, List.append_nil]
      rfl
    · rw [hroom]
      exact Counted.countMany _ .ingressDropped 1
  · rw [enqueue_of_not_isFull frame hfull]
    -- one frame fits, so none is left to drop
    obtain ⟨room, hroom⟩ := FrameQueue.room_eq_add_one hfull
    refine ⟨?_, ?_, rfl, ?_⟩
    · rw [hroom, List.drop_succ_cons, List.drop_nil, Pool.releaseAll_nil]
    · rw [FrameQueue.offerAll, hroom, List.take_succ_cons, List.take_nil, List.drop_succ_cons,
        List.drop_nil]
      exact congrArg _ (UInt64.add_zero _).symm
    · exact (Counted.of_stats_eq rfl).of_eq fun counter => by
        rw [hroom, List.drop_succ_cons, List.drop_nil, List.length_nil, Counter.only_zero]

/-- So are any number of them, each with the room that the ones before it left. -/
theorem enqueueAll_enqueued (t : Traffic) (frames : List Buffer) :
    Enqueued t frames (enqueueAll t frames) := by
  induction frames generalizing t with
  | nil => exact .nil t
  | cons frame frames ih => exact (enqueue_enqueued t frame).append (ih _)

end Pump

end PathControl.Transport
