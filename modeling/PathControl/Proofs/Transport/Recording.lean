import PathControl.Proofs.Transport.Flow

/-!
# Bursts on record

What the two bursts of a pass come to, over any interface, in terms of what the interface delivered
and took. What it is offered and takes is put on record by an interface around it.

* `Delivery`, `Pump.Received`: a receive burst, and what it comes to. Frames are queued as long as
  there is room, and the others are dropped.
* `Transmission`, `Nic.recorded`: a transmit burst, and an interface with a record of its own. The
  pump does the same over it (`Pump.pollOnce_recorded`).
* `Attempts`: bursts that are each offered what the one before has left.
* `Pump.Tried`, `Pump.Transmitted`: what some attempts, and a whole transmit burst, come to. An
  attempt that failed does not add to the frames that count as sent.
-/

namespace PathControl.Transport

variable {σ : Type}

/-! ### Receive bursts -/

/-- A receive burst, as the interface answered, and the room that it found in the ingress queue. -/
structure Delivery where
  frames : List Buffer
  failure : Option Error
  room : Nat
  deriving DecidableEq

namespace Delivery

/-- The frames that were queued. -/
def accepted (d : Delivery) : List Buffer := d.frames.take d.room

/-- The frames that were dropped. -/
def refused (d : Delivery) : List Buffer := d.frames.drop d.room

/-- A frame that was delivered was queued or dropped. -/
theorem accepted_append_refused (d : Delivery) : d.accepted ++ d.refused = d.frames :=
  List.take_append_drop _ _

/-- The frames that were queued are as many from the front as there was room for. -/
theorem accepted_eq (d : Delivery) : d.accepted = d.frames.take (min d.frames.length d.room) := by
  rw [accepted, List.take_eq_take_iff]
  omega

/-- The frames that were dropped are those behind them. -/
theorem refused_eq (d : Delivery) : d.refused = d.frames.drop (min d.frames.length d.room) := by
  have hsplit := d.accepted_append_refused
  rw [accepted_eq] at hsplit
  exact List.append_cancel_left (hsplit.trans (List.take_append_drop _ _).symm)

/-- By how much a delivery moves each counter. -/
def gain (d : Delivery) : Counter → Nat
  | .framesReceived => d.frames.length
  | .ingressDropped => d.refused.length
  | .nicErrors => d.failure.toList.length
  | _ => 0

end Delivery

namespace Pump

variable (nic : Nic σ)

/-- The receive burst of a pass. -/
def deliveryOf (p : Pump) (s : σ) (t : Traffic) : Delivery :=
  let burst := nic.rxBurst s t.pool p.burst
  ⟨burst.frames, burst.failure, t.ingress.room⟩

/-- What a receive burst comes to, if the interface leaves `pool` of the pool. -/
structure Received (p : Pump) (pool : Pool) (t : Traffic) (d : Delivery) (m : Moved σ) : Prop where
  room : d.room = t.ingress.room
  pump : m.pump = { p with received := [] }
  moved : m.moved = d.frames.length
  pool : m.traffic.pool = pool.releaseAll d.refused
  ingress : m.traffic.ingress = t.ingress.offerAll d.frames
  egress : m.traffic.egress = t.egress
  counted : Counted t d.gain m.traffic

/-- A receive burst comes to its delivery, whatever the interface is. -/
theorem receive_received {p : Pump} (s : σ) (t : Traffic) (hp : p.received = []) :
    Received p (nic.rxBurst s t.pool p.burst).pool t (deliveryOf nic p s t)
      (receive nic p s t) := by
  unfold receive deliveryOf
  dsimp only
  rw [hp, List.nil_append]
  generalize nic.rxBurst s t.pool p.burst = burst
  have hfailed := Counted.countFailure { t with pool := burst.pool } burst.failure
  have hcounted := hfailed.trans (Counted.countMany _ .framesReceived burst.frames.length)
  have henqueued := enqueueAll_enqueued
    ((countFailure { t with pool := burst.pool } burst.failure).countMany .framesReceived
      burst.frames.length) burst.frames
  have hroom : ((countFailure { t with pool := burst.pool } burst.failure).countMany .framesReceived
      burst.frames.length).ingress = t.ingress := countFailure_ingress _ _
  refine ⟨rfl, rfl, rfl, ?_, ?_, ?_, ?_⟩
  · rw [henqueued.pool, hroom]
    exact congrArg (Pool.releaseAll · _) (countFailure_pool _ _)
  · rw [henqueued.ingress, hroom]
  · exact henqueued.egress.trans (countFailure_egress _ _)
  · refine (hcounted.trans henqueued.counted).of_eq fun counter => ?_
    rw [hroom]
    cases counter <;> simp [Counter.only, Delivery.gain, Delivery.refused]

end Pump

/-! ### Transmit bursts -/

/-- A transmit burst, as the interface was asked and answered. -/
structure Transmission where
  offered : List Buffer
  /-- The frames that the interface took. -/
  taken : List Buffer
  failure : Option Error
  deriving DecidableEq

namespace Transmission

/-- The frames that were taken in some bursts. -/
def allTaken (sends : List Transmission) : List Buffer := sends.flatMap taken

/-- The frames that were taken in those bursts that did not fail. -/
def acknowledged (sends : List Transmission) : List Buffer :=
  allTaken (sends.filter fun a => a.failure.isNone)

/-- The frames that were taken in those bursts that failed. -/
def unacknowledged (sends : List Transmission) : List Buffer :=
  allTaken (sends.filter fun a => a.failure.isSome)

/-- How many of some bursts failed. -/
def failures (sends : List Transmission) : Nat := sends.countP fun a => a.failure.isSome

variable {sends : List Transmission}

/-- What was taken in two lists of bursts is what was taken in each. -/
theorem allTaken_append (sends later : List Transmission) :
    allTaken (sends ++ later) = allTaken sends ++ allTaken later :=
  List.flatMap_append

/-- What was taken without a failure in two lists of bursts is what was so taken in each. -/
theorem acknowledged_append (sends later : List Transmission) :
    acknowledged (sends ++ later) = acknowledged sends ++ acknowledged later := by
  rw [acknowledged, List.filter_append, allTaken_append]
  rfl

/-- A single burst took what it took. -/
@[simp] theorem allTaken_singleton (a : Transmission) : allTaken [a] = a.taken :=
  List.flatMap_singleton _ _

/-- What a single burst took counts as sent unless it failed. -/
theorem acknowledged_singleton (a : Transmission) :
    acknowledged [a] = if a.failure.isSome then [] else a.taken := by
  unfold acknowledged
  cases hfailure : a.failure <;> simp [hfailure]
  rfl

/-- A single burst failed or not. -/
theorem failures_singleton (a : Transmission) : failures [a] = a.failure.toList.length := by
  unfold failures
  cases hfailure : a.failure <;> simp [hfailure]

/-- A frame that was taken was taken in a burst that failed or in one that did not. -/
theorem length_allTaken (sends : List Transmission) :
    (allTaken sends).length = (acknowledged sends).length + (unacknowledged sends).length := by
  induction sends with
  | nil => rfl
  | cons a sends ih =>
    simp only [allTaken, acknowledged, unacknowledged] at ih ⊢
    rcases hfailure : a.failure with _ | cause <;>
      simp only [List.filter_cons, hfailure, Option.isNone_none, Option.isNone_some,
        Option.isSome_none, Option.isSome_some, if_true, if_false, Bool.false_eq_true,
        List.flatMap_cons, List.length_append, ih] <;> omega

/-- Nothing was taken in failing bursts if each burst that failed took nothing. -/
theorem unacknowledged_eq_nil_iff :
    unacknowledged sends = [] ↔ ∀ a ∈ sends, a.failure.isSome → a.taken = [] := by
  simp [unacknowledged, allTaken, List.flatMap_eq_nil_iff]

end Transmission

open Transmission

/-- Whether some transmit bursts are attempts to transmit `frames` that leave `left`: each is
offered what the one before has left, and takes frames from the front. -/
inductive Attempts : List Buffer → List Transmission → List Buffer → Prop where
  | nil (frames : List Buffer) : Attempts frames [] frames
  | cons {a : Transmission} {frames rest left : List Buffer} {sends : List Transmission}
    (hoffered : a.offered = frames) (htaken : frames = a.taken ++ rest)
    (h : Attempts rest sends left) : Attempts frames (a :: sends) left

namespace Attempts

variable {frames rest left : List Buffer} {sends later : List Transmission}

/-- Attempts at what earlier attempts have left are attempts. -/
theorem trans (h : Attempts frames sends rest) (h' : Attempts rest later left) :
    Attempts frames (sends ++ later) left := by
  induction h with
  | nil frames => exact h'
  | cons hoffered htaken _ ih => exact .cons hoffered htaken (ih h')

/-- Attempts take frames from the front and leave the rest. -/
theorem split (h : Attempts frames sends left) : frames = allTaken sends ++ left := by
  induction h with
  | nil frames => rfl
  | cons _ htaken _ ih =>
    rw [htaken, ih, ← List.append_assoc]
    rfl

end Attempts

/-- The interface with a record of its transmit bursts. -/
def Nic.recorded (nic : Nic σ) : Nic (σ × List Transmission) where
  rxBurst s pool room :=
    let burst := nic.rxBurst s.1 pool room
    { nic := (burst.nic, s.2)
      pool := burst.pool
      frames := burst.frames
      failure := burst.failure }
  txBurst s frames :=
    let burst := nic.txBurst s.1 frames
    { nic := (burst.nic, s.2 ++ [⟨frames, frames.take burst.taken, burst.failure⟩])
      taken := burst.taken
      failure := burst.failure }

namespace Pump

/-- A state of the pump with a record of its interface. -/
def Moved.noted (m : Moved σ) (sends : List Transmission) : Moved (σ × List Transmission) where
  pump := m.pump
  nic := (m.nic, sends)
  traffic := m.traffic
  moved := m.moved

/-- A record leaves the pump alone. -/
@[simp] theorem Moved.noted_pump (m : Moved σ) (sends : List Transmission) :
    (m.noted sends).pump = m.pump := rfl

/-! ### Attempts -/

/-- What attempts to transmit come to. An attempt that failed does not add to the frames moved. -/
structure Tried (m : Moved σ) (sends : List Transmission) (m' : Moved σ) : Prop where
  attempts : Attempts m.pump.unsent sends m'.pump.unsent
  pump : m'.pump = { m.pump with unsent := m'.pump.unsent }
  moved : m'.moved = m.moved + (acknowledged sends).length
  pool : m'.traffic.pool = m.traffic.pool.releaseAll (allTaken sends)
  ingress : m'.traffic.ingress = m.traffic.ingress
  egress : m'.traffic.egress = m.traffic.egress
  counted : Counted m.traffic (Counter.nicErrors.only (failures sends)) m'.traffic

namespace Tried

variable {m m₁ m' : Moved σ} {sends later : List Transmission}

/-- No attempt, and nothing moved. -/
theorem refl (m : Moved σ) : Tried m [] m where
  attempts := .nil _
  pump := rfl
  moved := rfl
  pool := (Pool.releaseAll_nil _).symm
  ingress := rfl
  egress := rfl
  counted := (Counted.refl _).of_eq fun counter => (Counter.only_zero _ counter).symm

/-- What attempts come to adds up. -/
theorem trans (h : Tried m sends m₁) (h' : Tried m₁ later m') : Tried m (sends ++ later) m' where
  attempts := h.attempts.trans h'.attempts
  pump := by rw [h'.pump, h.pump]
  moved := by rw [h'.moved, h.moved, acknowledged_append, List.length_append, Nat.add_assoc]
  pool := by rw [h'.pool, h.pool, allTaken_append, Pool.releaseAll_append]
  ingress := h'.ingress.trans h.ingress
  egress := h'.egress.trans h.egress
  counted := (h.counted.trans h'.counted).of_eq fun counter => by
    unfold Counter.only failures
    rw [List.countP_append]
    split <;> rfl

end Tried

variable (nic : Nic σ)

/-- The burst of an attempt. -/
def burstOf (m : Moved σ) : Transmission :=
  let burst := nic.txBurst m.nic m.pump.unsent
  ⟨m.pump.unsent, m.pump.unsent.take burst.taken, burst.failure⟩

/-- An attempt adds what it took to the frames moved, unless it failed. -/
theorem attempt_moved (m : Moved σ) :
    (attempt nic m).moved = if (burstOf nic m).failure.isSome then m.moved
      else m.moved + (burstOf nic m).taken.length := rfl

/-- A recorded attempt is the attempt, with one more burst in the record. -/
theorem attempt_recorded (m : Moved σ) (earlier : List Transmission) :
    attempt nic.recorded (m.noted earlier) =
      (attempt nic m).noted (earlier ++ [burstOf nic m]) := rfl

/-- One attempt comes to its burst. -/
theorem attempt_tried (m : Moved σ) : Tried m [burstOf nic m] (attempt nic m) where
  attempts := .cons rfl (List.take_append_drop _ _).symm (.nil _)
  pump := rfl
  moved := by
    rw [attempt_moved, acknowledged_singleton]
    by_cases hfailed : (burstOf nic m).failure.isSome = true
    · rw [if_pos hfailed, if_pos hfailed]
      rfl
    · rw [if_neg hfailed, if_neg hfailed]
  pool := by
    rw [allTaken_singleton]
    exact countFailure_pool _ _
  ingress := countFailure_ingress _ _
  egress := countFailure_egress _ _
  counted := by
    rw [failures_singleton]
    exact Counted.countFailure (m.traffic.release _) _

/-- Several attempts over an interface with a record are the attempts over the interface, and they
are on record. -/
theorem offer_recorded (attempts : Nat) (m : Moved σ) (earlier : List Transmission) :
    ∃ sends, sends.length ≤ attempts ∧ Tried m sends (offer nic attempts m) ∧
      offer nic.recorded attempts (m.noted earlier) =
        (offer nic attempts m).noted (earlier ++ sends) := by
  induction attempts generalizing m earlier with
  | zero =>
    refine ⟨[], Nat.le_refl 0, .refl m, ?_⟩
    rw [List.append_nil]
    rfl
  | succ attempts ih =>
    rw [offer_succ, offer_succ, attempt_recorded, Moved.noted_pump]
    split
    · exact ⟨[burstOf nic m], Nat.le_add_left 1 _, attempt_tried nic m, rfl⟩
    · obtain ⟨later, hlater, htried, hrecorded⟩ :=
        ih (attempt nic m) (earlier ++ [burstOf nic m])
      have hboth := (attempt_tried nic m).trans htried
      refine ⟨burstOf nic m :: later, Nat.succ_le_succ hlater, hboth, ?_⟩
      rw [hrecorded, List.append_assoc]
      rfl

/-! ### Whole bursts and passes -/

/-- The end of a transmit burst: what the attempts left is dropped, and both parts are counted. -/
def settle (m : Moved σ) : Moved σ where
  pump := { m.pump with unsent := [] }
  nic := m.nic
  traffic := ((m.traffic.countMany .egressDropped m.pump.unsent.length).release
    m.pump.unsent).countMany .framesSent m.moved
  moved := m.moved + m.pump.unsent.length

/-- The start of a transmit burst: a burst of frames is taken from the egress queue. -/
def takeUp (p : Pump) (s : σ) (t : Traffic) : Moved σ where
  pump := { p with unsent := p.unsent ++ (t.egress.popBurst p.burst).2 }
  nic := s
  traffic := { t with egress := (t.egress.popBurst p.burst).1 }
  moved := 0

/-- A transmit burst takes frames up, makes up to two attempts and settles what is left; without
frames there is no attempt. -/
theorem transmit_eq (p : Pump) (s : σ) (t : Traffic) :
    transmit nic p s t =
      if (takeUp p s t).pump.unsent.isEmpty then takeUp p s t
      else settle (offer nic 2 (takeUp p s t)) := rfl

/-- By how much a transmit burst that leaves `left` moves each counter. -/
def transmitGain (sends : List Transmission) (left : List Buffer) : Counter → Nat
  | .framesSent => (acknowledged sends).length
  | .egressDropped => left.length
  | .nicErrors => failures sends
  | _ => 0

/-- What a transmit burst comes to. -/
structure Transmitted (p : Pump) (t : Traffic) (sends : List Transmission) (left : List Buffer)
    (m : Moved σ) : Prop where
  twice : sends.length ≤ 2
  attempts : Attempts (t.egress.popBurst p.burst).2 sends left
  pump : m.pump = { p with unsent := [] }
  moved : m.moved = (acknowledged sends).length + left.length
  pool : m.traffic.pool = t.pool.releaseAll (t.egress.popBurst p.burst).2
  ingress : m.traffic.ingress = t.ingress
  egress : m.traffic.egress = (t.egress.popBurst p.burst).1
  counted : Counted t (transmitGain sends left) m.traffic

namespace Transmitted

variable {p : Pump} {s : σ} {t : Traffic} {sends : List Transmission} {m : Moved σ}

/-- Without frames there is no attempt. -/
theorem idle (hempty : (takeUp p s t).pump.unsent = []) :
    Transmitted p t [] [] (takeUp p s t) := by
  have hpopped : (t.egress.popBurst p.burst).2 = [] := (List.append_eq_nil_iff.1 hempty).2
  refine ⟨Nat.zero_le 2, hpopped ▸ .nil _, ?_, rfl, ?_, rfl, rfl, ?_⟩
  · rw [← hempty]
    rfl
  · rw [hpopped, Pool.releaseAll_nil]
    rfl
  · exact (Counted.of_stats_eq rfl).of_eq fun counter => by cases counter <;> rfl

/-- What the attempts leave is counted as dropped, and what they moved as sent. -/
theorem settle (hp : p.unsent = []) (htwice : sends.length ≤ 2)
    (h : Tried (takeUp p s t) sends m) :
    Transmitted p t sends m.pump.unsent (Pump.settle m) := by
  have hpopped : (takeUp p s t).pump.unsent = (t.egress.popBurst p.burst).2 := by
    unfold takeUp
    rw [hp, List.nil_append]
  have hattempts := h.attempts
  rw [hpopped] at hattempts
  have hmoved : m.moved = (acknowledged sends).length := h.moved.trans (Nat.zero_add _)
  refine ⟨htwice, hattempts, ?_, ?_, ?_, h.ingress, h.egress, ?_⟩
  · unfold Pump.settle
    rw [h.pump]
    rfl
  · exact congrArg (· + _) hmoved
  · show m.traffic.pool.releaseAll m.pump.unsent = _
    rw [h.pool, ← Pool.releaseAll_append, ← hattempts.split]
    rfl
  · -- three different counters: failures during the attempts, then drops, then frames sent
    have hdropped := Counted.countMany m.traffic .egressDropped m.pump.unsent.length
    have hsent := Counted.countMany
      ((m.traffic.countMany .egressDropped m.pump.unsent.length).release m.pump.unsent)
      .framesSent m.moved
    refine ((h.counted.trans hdropped).trans hsent).of_eq fun counter => ?_
    rw [hmoved]
    cases counter <;> simp [Counter.only, transmitGain]

end Transmitted

variable {p : Pump} (s : σ) (t : Traffic) (earlier : List Transmission)

/-- A transmit burst over an interface with a record is the transmit burst over the interface, and
its attempts are on record. -/
theorem transmit_recorded (hp : p.unsent = []) :
    ∃ sends left, Transmitted p t sends left (transmit nic p s t) ∧
      transmit nic.recorded p (s, earlier) t = (transmit nic p s t).noted (earlier ++ sends) := by
  have hstart : takeUp p (s, earlier) t = (takeUp p s t).noted earlier := rfl
  rw [transmit_eq, transmit_eq, hstart, Moved.noted_pump]
  split
  · next hempty =>
    refine ⟨[], [], .idle (List.isEmpty_iff.1 hempty), ?_⟩
    rw [List.append_nil]
  · obtain ⟨sends, htwice, htried, hrecorded⟩ := offer_recorded nic 2 (takeUp p s t) earlier
    refine ⟨sends, _, .settle hp htwice htried, ?_⟩
    rw [hrecorded]
    rfl

/-- So is a whole pass. -/
theorem pollOnce_recorded (hp : p.unsent = []) :
    ∃ sends left,
      Transmitted (receive nic p s t).pump (receive nic p s t).traffic sends left
        (transmit nic (receive nic p s t).pump (receive nic p s t).nic
          (receive nic p s t).traffic) ∧
      pollOnce nic.recorded p (s, earlier) t = (pollOnce nic p s t).noted (earlier ++ sends) := by
  obtain ⟨sends, left, hsent, hrecorded⟩ :=
    transmit_recorded nic (receive nic p s t).nic (receive nic p s t).traffic earlier
      (p := (receive nic p s t).pump) hp
  refine ⟨sends, left, hsent, ?_⟩
  exact congrArg
    (fun m : Moved (σ × List Transmission) =>
      { m with moved := (receive nic p s t).moved + m.moved })
    hrecorded

/-- A pump that holds no frame is the same after a pass. -/
theorem pollOnce_pump (hreceived : p.received = []) (hunsent : p.unsent = []) :
    (pollOnce nic p s t).pump = p := by
  obtain ⟨sends, left, hsent, -⟩ := pollOnce_recorded nic s t [] hunsent
  have hpump : (pollOnce nic p s t).pump = { (receive nic p s t).pump with unsent := [] } :=
    hsent.pump
  rw [hpump, (receive_received nic s t hreceived).pump]
  cases p
  cases hreceived
  cases hunsent
  rfl

end Pump

end PathControl.Transport
