import PathControl.Negotiation.Coordinator
import PathControl.Proofs.Negotiation.Wheel

/-!
# What an input does to a coordinator and its timers

* `Coordinator.handle`: the inputs of a coordinator in one type, a look at the timers included.
* `Coordinator.awaited`: the timers that a coordinator waits for, that of the outstanding
  negotiation and that of the guard.
* `Coupled c w batch`: the timers of the wheel, and those of a batch that was taken from it and is
  not yet handed over, are the awaited ones. Between inputs the batch is empty.
* `Coordinator.handOver`: a batch handed over timer by timer, each at a clock reading of its own.
  `Coordinator.HandedOver` is all that this can do, and `Coupled.handOver` says so.
* `Coordinator.Move`: all that an input can do to a coordinator and what it asks for, timers apart.
  `Coupled.handle`: every input keeps the coupling and is such a move; `Coupled.handle_succeeds`:
  it goes through as long as there are handles and transmission counts left.

A timer that falls due while its batch is handed over can only be a retry timer that was armed
again, and it waits for the next look: `Coupled` counts it with the wheel.
-/

namespace PathControl.Negotiation

/-- What reaches a coordinator. -/
inductive Input where
  /-- The delay trigger asks for a switch from the active path to the best one. -/
  | trigger (best active : PathId)
  /-- The peer proposes a path. -/
  | repath (target : PathId) (sequence : UInt64)
  /-- The peer confirms a proposal. -/
  | ack (sequence : UInt64)
  /-- The timers are looked at. -/
  | tick (best : PathId)
  deriving DecidableEq, Repr

/-- Whether the delay trigger asks. -/
def Input.isTrigger : Input → Bool
  | .trigger .. => true
  | .repath .. | .ack _ | .tick _ => false

/-- The timer of the outstanding negotiation. -/
def NegotiationState.timer? : NegotiationState → Option TimerHandle
  | .idle => none
  | .awaitingAck _ _ timer _ => some timer

/-- What was done, and the clock reading at which it was done. -/
structure Deed where
  now : UInt64
  action : Action
  deriving DecidableEq, Repr

namespace Coordinator

/-- Takes an input at a clock reading. -/
def handle (c : Coordinator) (timers : TimerWheel) (now : UInt64) : Input → Checked Outcome
  | .trigger best active => c.onTrigger timers now best active
  | .repath target sequence => c.onRepath timers now target sequence
  | .ack sequence => .ok (c.onRepathAck timers sequence)
  | .tick best => (c.tick timers now best).map Prod.fst

/-- Sequence numbers go up by one until they wrap around. -/
theorem toNat_sequenceAfter {s : UInt64} (h : s.toNat + 1 < UInt64.size) :
    (sequenceAfter s).toNat = s.toNat + 1 := by
  have hadd : (s + 1).toNat = s.toNat + 1 := Checked.toNat_sum64 h
  have hle : ¬ s + 1 ≤ 1 ∨ s + 1 = 1 := by
    simp only [UInt64.le_iff_toNat_le, ← UInt64.toNat_inj, hadd, UInt64.reduceToNat]
    omega
  unfold sequenceAfter
  rcases hle with hle | hle
  · show (if s + 1 ≤ 1 then 1 else s + 1).toNat = _
    rw [if_neg hle, hadd]
  · rw [← hadd, hle]
    rfl

/-- No number follows itself. -/
theorem sequenceAfter_ne (s : UInt64) : sequenceAfter s ≠ s := by
  intro h
  by_cases hlt : s.toNat + 1 < UInt64.size
  · have hnext := toNat_sequenceAfter hlt
    rw [h] at hnext
    omega
  · have hlast : s = UInt64.ofNat (UInt64.size - 1) := by
      have hbound := s.toNat_lt
      apply UInt64.toNat_inj.1
      simp [UInt64.size] at *
      omega
    rw [hlast] at h
    revert h
    decide

/-- A look at the timers hands those that have fallen due to the coordinator, in order. -/
theorem handle_tick {c : Coordinator} {w : TimerWheel} {now : UInt64} {best : PathId}
    {o : Outcome} :
    c.handle w now (.tick best) = .ok o ↔
      c.onTimers (w.pollExpired now).1 now best (w.pollExpired now).2 = .ok o := by
  simp only [handle, tick]
  rcases c.onTimers (w.pollExpired now).1 now best (w.pollExpired now).2 with _ | o' <;>
    simp [bind, Except.bind, pure, Except.pure, Except.map]

/-- Timers fired, in this order, and each is handed over at a clock reading of its own. -/
def handOver (c : Coordinator) (timers : TimerWheel) (best : PathId) :
    List (UInt64 × TimerHandle × TimerKind) → Checked (Coordinator × TimerWheel × List Deed)
  | [] => .ok (c, timers, [])
  | (now, handle, kind) :: fired => do
    let first ← c.onTimer timers now handle kind best
    let (c, timers, deeds) ← first.coordinator.handOver first.timers best fired
    return (c, timers, first.actions.map (Deed.mk now) ++ deeds)

/-- Timers are not changed by the reading at which they are handed over. -/
theorem map_snd_at (now : UInt64) (fired : List (TimerHandle × TimerKind)) :
    (fired.map fun x => (now, x)).map Prod.snd = fired := by
  simp only [List.map_map, Function.comp_def, List.map_id']

/-- Handing timers over at one reading is a case of it. -/
theorem onTimers_eq_handOver (c : Coordinator) (w : TimerWheel) (now : UInt64) (best : PathId)
    (fired : List (TimerHandle × TimerKind)) :
    c.onTimers w now best fired =
      (c.handOver w best (fired.map fun x => (now, x))).map fun (c, w, deeds) =>
        ⟨c, w, deeds.map (·.action)⟩ := by
  induction fired generalizing c w with
  | nil => rfl
  | cons x fired ih =>
    simp only [onTimers, handOver, List.map_cons]
    rcases c.onTimer w now x.1 x.2 best with fault | first
    · rfl
    · rw [Checked.ok_bind, Checked.ok_bind, ih]
      rcases first.coordinator.handOver first.timers best _ with fault | ⟨c', w', deeds⟩
      · rfl
      · simp [Except.map, bind, Except.bind, pure, Except.pure, Function.comp_def]

/-- Timers that are handed over at one reading are handed over in the sense of `handOver`. -/
theorem handOver_of_onTimers {c : Coordinator} {w : TimerWheel} {now : UInt64} {best : PathId}
    {fired : List (TimerHandle × TimerKind)} {o : Outcome}
    (ho : c.onTimers w now best fired = .ok o) :
    ∃ deeds, c.handOver w best (fired.map fun x => (now, x)) =
        .ok (o.coordinator, o.timers, deeds) ∧ o.actions = deeds.map (·.action) := by
  rw [onTimers_eq_handOver] at ho
  rcases hover : c.handOver w best (fired.map fun x => (now, x)) with _ | ⟨c', w', deeds⟩ <;>
    rw [hover] at ho <;> cases ho
  exact ⟨deeds, rfl, rfl⟩

/-- The timers that a coordinator waits for. -/
def awaited (c : Coordinator) : List (TimerHandle × TimerKind) :=
  (c.state.timer?.map fun t => (t, TimerKind.repathRetry)).toList ++
    (c.guard.map fun g => (g.timer, TimerKind.guard)).toList

variable {c : Coordinator} {t : TimerHandle}

/-- An idle coordinator is not changed by setting it idle. -/
theorem with_idle (h : c.state = .idle) : { c with state := .idle } = c := by
  cases c
  cases h
  rfl

/-- A coordinator without a guard is not changed by dropping its guard. -/
theorem with_no_guard (h : c.guard = none) : { c with guard := none } = c := by
  cases c
  cases h
  rfl

/-- An idle coordinator waits for its guard at most. -/
theorem awaited_of_idle (h : c.state = .idle) :
    c.awaited = (c.guard.map fun g => (g.timer, TimerKind.guard)).toList := by
  simp [awaited, h, NegotiationState.timer?]

/-- During a negotiation, its timer comes first among the awaited ones. -/
theorem awaited_of_awaitingAck {target : PathId} {sequence : UInt64} {attempts : UInt32}
    (h : c.state = .awaitingAck target sequence t attempts) :
    c.awaited = (t, .repathRetry) :: { c with state := .idle }.awaited := by
  simp [awaited, h, NegotiationState.timer?]

/-- A guard has its timer among the awaited ones. -/
theorem perm_awaited_of_guard {g : Guard} (h : c.guard = some g) :
    c.awaited.Perm ((g.timer, .guard) :: { c with guard := none }.awaited) := by
  simp only [awaited, h, Option.map_some, Option.map_none, Option.toList_some, Option.toList_none,
    List.append_nil]
  exact List.perm_append_comm

/-- An awaited guard timer is that of the guard. -/
theorem mem_awaited_guard (h : (t, .guard) ∈ c.awaited) : ∃ g, c.guard = some g ∧ g.timer = t := by
  simpa [awaited] using h

/-- An awaited retry timer is that of the outstanding negotiation. -/
theorem mem_awaited_retry (h : (t, .repathRetry) ∈ c.awaited) :
    ∃ target sequence attempts, c.state = .awaitingAck target sequence t attempts := by
  rcases hs : c.state with _ | ⟨target, sequence, timer, attempts⟩
  · simp [awaited, hs, NegotiationState.timer?] at h
  · have ht : t = timer := by simpa [awaited, hs, NegotiationState.timer?] using h
    exact ⟨target, sequence, attempts, by rw [ht]⟩

/-- A negotiation and a guard: there are no more timers to wait for. -/
theorem length_awaited_le : c.awaited.length ≤ 2 := by
  unfold awaited
  rw [List.length_append]
  have h1 := Option.length_toList_le (o := c.state.timer?.map fun t => (t, TimerKind.repathRetry))
  have h2 := Option.length_toList_le (o := c.guard.map fun g => (g.timer, TimerKind.guard))
  omega

/-- Whether one more transmission of the outstanding negotiation can be counted, if it may be
repeated at all. -/
def Countable (c : Coordinator) : Prop :=
  ∀ target sequence timer attempts, c.state = .awaitingAck target sequence timer attempts →
    attempts ≤ c.maxRetries → attempts.toNat + 1 < UInt32.size

/-- Transmissions can be counted if one more than there may be retries can. -/
theorem countable_of_maxRetries (h : c.maxRetries.toNat + 1 < UInt32.size) : c.Countable := by
  intro target sequence timer attempts _ hle
  exact Nat.lt_of_le_of_lt (Nat.succ_le_succ (UInt32.le_iff_toNat_le.1 hle)) h

/-- All that an input can do to a coordinator, and what it asks for. -/
inductive Move (c : Coordinator) : Input → Coordinator → List Action → Prop where
  /-- A negotiation is outstanding already, or the best path is the active one. -/
  | triggerIgnored {best active : PathId} :
      c.state ≠ .idle ∨ best = active → Move c (.trigger best active) c []
  | begun {best active : PathId} (timer : TimerHandle) :
      c.state = .idle → best ≠ active →
      Move c (.trigger best active)
        { c with
          nextSequence := sequenceAfter c.nextSequence
          state := .awaitingAck best c.nextSequence timer 1 }
        [.sendRepath best best c.nextSequence 1]
  /-- A copy of the proposal adopted last is answered only. -/
  | repeated {target : PathId} {sequence : UInt64} :
      c.isDuplicate target sequence = true →
      Move c (.repath target sequence) c [.sendRepathAck target sequence]
  | adopted {target : PathId} {sequence : UInt64} (timer : TimerHandle) :
      c.isDuplicate target sequence = false →
      Move c (.repath target sequence)
        { c with state := .idle, guard := some ⟨target, sequence, timer⟩ }
        [.adopted target, .sendRepathAck target sequence]
  | confirmed {target : PathId} {sequence : UInt64} {timer : TimerHandle} {attempts : UInt32} :
      c.state = .awaitingAck target sequence timer attempts →
      Move c (.ack sequence) { c with state := .idle } [.committed target]
  | ackIgnored {sequence : UInt64} :
      (∀ target timer attempts, c.state ≠ .awaitingAck target sequence timer attempts) →
      Move c (.ack sequence) c []
  /-- At most the guard lapses. -/
  | quiet {best : PathId} {guard : Option Guard} :
      guard = c.guard ∨ guard = none → Move c (.tick best) { c with guard } []
  | resent {best target : PathId} {sequence : UInt64} {timer : TimerHandle} {attempts : UInt32}
      {guard : Option Guard} (timer' : TimerHandle) :
      guard = c.guard ∨ guard = none → c.state = .awaitingAck target sequence timer attempts →
      attempts ≤ c.maxRetries → attempts.toNat + 1 < UInt32.size →
      Move c (.tick best)
        { c with guard, state := .awaitingAck target sequence timer' (attempts + 1) }
        [.sendRepath target best sequence (attempts + 1)]
  | abandoned {best target : PathId} {sequence : UInt64} {timer : TimerHandle} {attempts : UInt32}
      {guard : Option Guard} :
      guard = c.guard ∨ guard = none → c.state = .awaitingAck target sequence timer attempts →
      c.maxRetries < attempts →
      Move c (.tick best) { c with guard, state := .idle } [.abandoned target attempts]

namespace Move

variable {c' : Coordinator} {best : PathId} {actions : List Action} {guard : Option Guard}

/-- No move changes how many retries there may be. -/
theorem maxRetries_eq {i : Input} (h : Move c i c' actions) : c'.maxRetries = c.maxRetries := by
  cases h <;> rfl

/-- No move changes the timeout of a negotiation. -/
theorem timeout_eq {i : Input} (h : Move c i c' actions) : c'.timeout = c.timeout := by
  cases h <;> rfl

/-- Only the outstanding negotiation is proposed. -/
theorem of_sendRepath {i : Input} {target via : PathId} {sequence : UInt64} {attempt : UInt32}
    (h : Move c i c' actions) (ha : .sendRepath target via sequence attempt ∈ actions) :
    ∃ timer, c'.state = .awaitingAck target sequence timer attempt := by
  cases h with
  | begun timer _ _ =>
    obtain ⟨rfl, -, rfl, rfl⟩ := by simpa using ha
    exact ⟨timer, rfl⟩
  | resent timer _ _ _ _ =>
    obtain ⟨rfl, -, rfl, rfl⟩ := by simpa using ha
    exact ⟨timer, rfl⟩
  | _ => simp at ha

/-- Only a proposal of the peer is confirmed. -/
theorem of_sendRepathAck {i : Input} {via : PathId} {sequence : UInt64} (h : Move c i c' actions)
    (ha : .sendRepathAck via sequence ∈ actions) : ∃ target, i = .repath target sequence := by
  cases h with
  | @repeated target _ _ | @adopted target _ _ _ =>
    obtain ⟨-, rfl⟩ := by simpa using ha
    exact ⟨target, rfl⟩
  | _ => simp at ha

/-- After a proposal of the peer the guard stands for it, whether it is a copy or adopted. -/
theorem of_repath {target : PathId} {sequence : UInt64}
    (h : Move c (.repath target sequence) c' actions) :
    (∃ timer, c'.guard = some ⟨target, sequence, timer⟩) ∧
      (c' = c ∧ actions = [.sendRepathAck target sequence] ∨
        c'.state = .idle ∧ actions = [.adopted target, .sendRepathAck target sequence]) := by
  cases h with
  | repeated hdup =>
    obtain ⟨⟨target', sequence', timer⟩, hg, hmatch⟩ := Option.any_eq_true _ _ |>.1 hdup
    simp only [Bool.and_eq_true, beq_iff_eq] at hmatch
    obtain ⟨rfl, rfl⟩ := hmatch
    exact ⟨⟨timer, hg⟩, .inl ⟨rfl, rfl⟩⟩
  | adopted timer _ => exact ⟨⟨timer, rfl⟩, .inr ⟨rfl, rfl⟩⟩

/-- Nothing but a proposal of the peer sets the guard. -/
theorem guard_eq {i : Input} (h : Move c i c' actions)
    (hi : ∀ target sequence, i ≠ .repath target sequence) :
    c'.guard = c.guard ∨ c'.guard = none := by
  cases h with
  | repeated _ | adopted _ _ => exact absurd rfl (hi _ _)
  | quiet hg | resent _ hg _ _ _ | abandoned hg _ _ => exact hg
  | _ => exact .inl rfl

/-- A look at the timers without a negotiation outstanding. -/
theorem of_tick_idle (h : Move c (.tick best) c' actions) (hs : c.state = .idle) :
    actions = [] ∧ c'.state = .idle := by
  cases h with
  | quiet _ => exact ⟨rfl, hs⟩
  | resent _ _ hs' _ _ | abandoned _ hs' _ => simp [hs] at hs'

/-- A confirmation without a negotiation outstanding. -/
theorem of_ack_idle {sequence : UInt64} (h : Move c (.ack sequence) c' actions)
    (hs : c.state = .idle) : actions = [] ∧ c' = c := by
  cases h with
  | ackIgnored _ => exact ⟨rfl, rfl⟩
  | confirmed hs' => simp [hs] at hs'

/-- Only a confirmation of the outstanding negotiation commits its path. -/
theorem of_committed {i : Input} {target : PathId} (h : Move c i c' actions)
    (ha : .committed target ∈ actions) :
    ∃ sequence timer attempts, i = .ack sequence ∧
      c.state = .awaitingAck target sequence timer attempts := by
  cases h with
  | @confirmed target' sequence timer attempts hs =>
    obtain rfl : target = target' := by simpa using ha
    exact ⟨sequence, timer, attempts, rfl, hs⟩
  | _ => simp at ha

end Move

/-- All that handing over a batch of timers can do to a coordinator and its wheel. -/
inductive HandedOver (c : Coordinator) (w : TimerWheel) (best : PathId)
    (batch : List (UInt64 × TimerHandle × TimerKind)) :
    Coordinator → TimerWheel → List Deed → Prop where
  /-- At most the guard lapses. -/
  | quiet {guard : Option Guard} :
      guard = c.guard ∨ guard = none → (∀ x ∈ batch, x.2.2 = .guard) →
      HandedOver c w best batch { c with guard } w []
  | resent {target : PathId} {sequence : UInt64} {timer : TimerHandle} {attempts : UInt32}
      {now : UInt64} {guard : Option Guard} :
      guard = c.guard ∨ guard = none → c.state = .awaitingAck target sequence timer attempts →
      (now, timer, .repathRetry) ∈ batch → attempts ≤ c.maxRetries →
      attempts.toNat + 1 < UInt32.size → w.lastId.toNat + 1 < UInt64.size →
      HandedOver c w best batch
        { c with guard, state := .awaitingAck target sequence ⟨w.lastId + 1⟩ (attempts + 1) }
        (w.armed now .repathRetry c.timeout)
        [⟨now, .sendRepath target best sequence (attempts + 1)⟩]
  | abandoned {target : PathId} {sequence : UInt64} {timer : TimerHandle} {attempts : UInt32}
      {now : UInt64} {guard : Option Guard} :
      guard = c.guard ∨ guard = none → c.state = .awaitingAck target sequence timer attempts →
      (now, timer, .repathRetry) ∈ batch → c.maxRetries < attempts →
      HandedOver c w best batch { c with guard, state := .idle } w
        [⟨now, .abandoned target attempts⟩]

namespace HandedOver

variable {c' : Coordinator} {w w' : TimerWheel} {best : PathId} {deeds : List Deed}
  {batch : List (UInt64 × TimerHandle × TimerKind)} {x : UInt64 × TimerHandle × TimerKind}

/-- The guard may lapse before the rest is handed over. -/
theorem of_lapsed (h : HandedOver { c with guard := none } w best batch c' w' deeds)
    (hx : x.2.2 = .guard) : HandedOver c w best (x :: batch) c' w' deeds := by
  cases h with
  | quiet hg hguards =>
    exact .quiet (.inr (hg.elim id id)) (List.forall_mem_cons.2 ⟨hx, hguards⟩)
  | resent hg hs hmem hle hlt hid =>
    exact .resent (.inr (hg.elim id id)) hs (List.mem_cons_of_mem _ hmem) hle hlt hid
  | abandoned hg hs hmem hlt =>
    exact .abandoned (.inr (hg.elim id id)) hs (List.mem_cons_of_mem _ hmem) hlt

/-- Timers of the guard ask for nothing. -/
theorem of_guards (h : HandedOver c w best batch c' w' deeds)
    (hguards : ∀ x ∈ batch, x.2.2 = .guard) :
    w' = w ∧ deeds = [] ∧ ∃ guard, (guard = c.guard ∨ guard = none) ∧ c' = { c with guard } := by
  cases h with
  | quiet hg _ => exact ⟨rfl, rfl, _, hg, rfl⟩
  | resent _ _ hmem _ _ _ | abandoned _ _ hmem _ => exact nomatch hguards _ hmem

/-- A batch that was handed over is a look at the timers. -/
theorem move (h : HandedOver c w best batch c' w' deeds) :
    c.Move (.tick best) c' (deeds.map (·.action)) := by
  cases h with
  | quiet hg _ => exact .quiet hg
  | resent hg hs _ hle hlt _ => exact .resent _ hg hs hle hlt
  | abandoned hg hs _ hlt => exact .abandoned hg hs hlt

/-- A batch takes one new handle at most, for the retry timer that is armed again. -/
theorem lastId_le (h : HandedOver c w best batch c' w' deeds) :
    w'.lastId.toNat ≤ w.lastId.toNat + 1 := by
  cases h with
  | quiet _ _ | abandoned _ _ _ _ => exact Nat.le_succ _
  | resent _ _ _ _ _ hid => exact Nat.le_of_eq (TimerWheel.lastId_armed hid)

end HandedOver

/-! ### What the single inputs can do -/

variable {w : TimerWheel} {now : UInt64} {best : PathId} {o : Outcome}

/-- A trigger that goes through starts a negotiation with a timer of its own, or asks for nothing
because one is outstanding or the best path is active already. -/
theorem onTrigger_cases {active : PathId} (ho : c.onTrigger w now best active = .ok o) :
    (c.state ≠ .idle ∨ best = active) ∧ o = ⟨c, w, []⟩ ∨
      c.state = .idle ∧ best ≠ active ∧ w.lastId.toNat + 1 < UInt64.size ∧
        o = ⟨{ c with
            nextSequence := sequenceAfter c.nextSequence
            state := .awaitingAck best c.nextSequence ⟨w.lastId + 1⟩ 1 },
          w.armed now .repathRetry c.timeout, [.sendRepath best best c.nextSequence 1]⟩ := by
  unfold onTrigger at ho
  rcases hs : c.state with _ | ⟨target, sequence, timer, attempts⟩
  · rw [hs] at ho
    by_cases hba : best = active
    · simp only [hba, if_true, Except.ok.injEq] at ho
      exact .inl ⟨.inr hba, ho.symm⟩
    · simp only [hba, if_false, Checked.bind_eq_ok_iff] at ho
      obtain ⟨⟨w', t⟩, harm, ho⟩ := ho
      obtain ⟨hid, rfl, rfl⟩ := TimerWheel.arm_eq_ok_iff.1 harm
      cases ho
      exact .inr ⟨rfl, hba, hid, rfl⟩
  · rw [hs] at ho
    simp only [Except.ok.injEq] at ho
    exact .inl ⟨.inl (by simp), ho.symm⟩

/-- A negotiation of ours that is superseded leaves the coordinator idle. -/
theorem supersede_fst : (c.supersede w).1 = { c with state := .idle } := by
  unfold supersede
  rcases hs : c.state with _ | ⟨target, sequence, timer, attempts⟩
  · exact (with_idle hs).symm
  · rfl

/-- Superseding takes no new handle. -/
theorem lastId_supersede : (c.supersede w).2.lastId = w.lastId := by
  unfold supersede
  split
  · exact TimerWheel.lastId_cancel
  · rfl

/-- Dropping a guard takes no new handle. -/
theorem lastId_dropGuard : (c.dropGuard w).lastId = w.lastId := by
  unfold dropGuard
  split
  · exact TimerWheel.lastId_cancel
  · rfl

/-- So neither does making room for a proposal of the peer. -/
theorem lastId_takeOver :
    (Coordinator.dropGuard { c with state := .idle } (c.supersede w).2).lastId = w.lastId := by
  rw [lastId_dropGuard, lastId_supersede]

/-- A proposal that goes through is confirmed as a copy, or adopted with a guard and a timer of its
own in place of those before. -/
theorem onRepath_cases {target : PathId} {sequence : UInt64}
    (ho : c.onRepath w now target sequence = .ok o) :
    c.isDuplicate target sequence = true ∧ o = ⟨c, w, [.sendRepathAck target sequence]⟩ ∨
      c.isDuplicate target sequence = false ∧ w.lastId.toNat + 1 < UInt64.size ∧
        o = ⟨{ c with state := .idle, guard := some ⟨target, sequence, ⟨w.lastId + 1⟩⟩ },
          (Coordinator.dropGuard { c with state := .idle } (c.supersede w).2).armed now .guard
            c.guardInterval, [.adopted target, .sendRepathAck target sequence]⟩ := by
  unfold onRepath at ho
  by_cases hd : c.isDuplicate target sequence = true
  · simp only [hd, if_true, Except.ok.injEq] at ho
    exact .inl ⟨hd, ho.symm⟩
  · simp only [hd, Bool.false_eq_true, if_false, supersede_fst, Checked.bind_eq_ok_iff] at ho
    obtain ⟨⟨w', t⟩, harm, ho⟩ := ho
    obtain ⟨hid, rfl, rfl⟩ := TimerWheel.arm_eq_ok_iff.1 harm
    rw [lastId_takeOver] at hid ho
    cases ho
    exact .inr ⟨by simpa using hd, hid, rfl⟩

/-- A confirmation ends the negotiation that it names, and is of no interest otherwise. -/
theorem onRepathAck_cases (c : Coordinator) (w : TimerWheel) (sequence : UInt64) :
    (∀ target timer attempts, c.state ≠ .awaitingAck target sequence timer attempts) ∧
        c.onRepathAck w sequence = ⟨c, w, []⟩ ∨
      ∃ target timer attempts, c.state = .awaitingAck target sequence timer attempts ∧
        c.onRepathAck w sequence =
          ⟨{ c with state := .idle }, (w.cancel timer).1, [.committed target]⟩ := by
  unfold onRepathAck
  rcases hs : c.state with _ | ⟨target, sequence', timer, attempts⟩
  · exact .inl ⟨by simp, rfl⟩
  · by_cases he : sequence' = sequence
    · exact .inr ⟨target, timer, attempts, by rw [he], if_pos he⟩
    · exact .inl ⟨by simp [he], if_neg he⟩

/-- The timer of the outstanding negotiation is handed over. -/
theorem onRetryTimer_cases {target : PathId} {sequence : UInt64} {timer : TimerHandle}
    {attempts : UInt32} (hs : c.state = .awaitingAck target sequence timer attempts)
    (ho : c.onRetryTimer w now timer best = .ok o) :
    c.maxRetries < attempts ∧ o = ⟨{ c with state := .idle }, w, [.abandoned target attempts]⟩ ∨
      attempts ≤ c.maxRetries ∧ attempts.toNat + 1 < UInt32.size ∧
        w.lastId.toNat + 1 < UInt64.size ∧
        o = ⟨{ c with state := .awaitingAck target sequence ⟨w.lastId + 1⟩ (attempts + 1) },
          w.armed now .repathRetry c.timeout,
          [.sendRepath target best sequence (attempts + 1)]⟩ := by
  simp only [onRetryTimer, hs, ne_eq, not_true_eq_false, if_false] at ho
  by_cases hmax : c.maxRetries < attempts
  · simp only [hmax, if_true, Except.ok.injEq] at ho
    exact .inl ⟨hmax, ho.symm⟩
  · simp only [hmax, if_false, Checked.bind_eq_ok_iff] at ho
    obtain ⟨attempt, hadd, ⟨w', t'⟩, harm, ho⟩ := ho
    obtain ⟨hlt, rfl⟩ := Checked.add32_eq_ok_iff.1 hadd
    obtain ⟨hid, rfl, rfl⟩ := TimerWheel.arm_eq_ok_iff.1 harm
    cases ho
    exact .inr ⟨UInt32.not_lt.1 hmax, hlt, hid, rfl⟩

/-- Each timer of a batch is awaited at the moment when it is handed over. -/
def AwaitsAll (c : Coordinator) (w : TimerWheel) (now : UInt64) (best : PathId) :
    List (TimerHandle × TimerKind) → Prop
  | [] => True
  | (t, kind) :: batch => (t, kind) ∈ c.awaited ∧
      ∀ o, c.onTimer w now t kind best = .ok o → o.coordinator.AwaitsAll o.timers now best batch

end Coordinator

/-- The timers of a wheel, and those of a batch that was taken from it and is not yet handed
over, are the ones that a coordinator waits for. -/
structure Coupled (c : Coordinator) (w : TimerWheel) (batch : List (TimerHandle × TimerKind)) :
    Prop where
  sound : w.Sound
  perm : (batch ++ w.timers).Perm c.awaited

namespace Coupled

variable {c c' : Coordinator} {w w' : TimerWheel} {batch : List (TimerHandle × TimerKind)}
  {t : TimerHandle} {kind : TimerKind} {now : UInt64} {best : PathId} {o : Outcome}

/-- A fresh coordinator waits for nothing, and a fresh wheel holds nothing. -/
theorem start (timeout guardInterval : Duration) (maxRetries : UInt32) :
    Coupled (.new timeout guardInterval maxRetries) .empty [] :=
  ⟨TimerWheel.sound_empty, .refl _⟩

/-- The awaited timers are told apart by their handles. -/
theorem distinct (h : Coupled c w []) : (c.awaited.map Prod.fst).Nodup := by
  rw [← (h.perm.map Prod.fst).nodup_iff]
  have hd := h.sound.distinct
  simpa [TimerWheel.timers, Function.comp_def] using hd

/-- Arming a timer that is awaited from then on keeps the coupling. -/
theorem armed {after : Duration} (h : Coupled c w batch) (ht : w.lastId.toNat + 1 < UInt64.size)
    (hc : c'.awaited.Perm ((⟨w.lastId + 1⟩, kind) :: c.awaited)) :
    Coupled c' (w.armed now kind after) batch := by
  refine ⟨h.sound.armed ht, ?_⟩
  refine ((TimerWheel.perm_timers_armed).append_left batch).trans ?_
  exact List.perm_middle.trans ((h.perm.cons _).trans hc.symm)

/-- Cancelling a timer that is no longer awaited keeps the coupling. -/
theorem cancelled (h : Coupled c w []) (hc : c'.awaited = c.awaited.filter fun x => x.1 != t) :
    Coupled c' (w.cancel t).1 [] := by
  rw [h.sound.cancel_eq]
  refine ⟨h.sound.without t, ?_⟩
  rw [hc, List.nil_append, TimerWheel.timers_without]
  exact h.perm.filter _

/-- Giving a negotiation up takes its timer along. -/
theorem supersede (h : Coupled c w []) :
    Coupled { c with state := .idle } (c.supersede w).2 [] := by
  unfold Coordinator.supersede
  rcases hs : c.state with _ | ⟨target, sequence, timer, attempts⟩
  · rw [Coordinator.with_idle hs]
    exact h
  · refine h.cancelled ?_
    have hd := h.distinct
    rw [Coordinator.awaited_of_awaitingAck hs] at hd ⊢
    rw [List.map_cons, List.nodup_cons] at hd
    rw [List.filter_cons_of_neg (by simp)]
    refine (List.filter_eq_self.2 fun x hx => ?_).symm
    exact bne_iff_ne.2 fun e => hd.1 (List.mem_map.2 ⟨x, hx, e⟩)

/-- Dropping the guard takes its timer along. -/
theorem dropGuard (h : Coupled c w []) : Coupled { c with guard := none } (c.dropGuard w) [] := by
  unfold Coordinator.dropGuard
  rcases hg : c.guard with _ | g
  · rw [Coordinator.with_no_guard hg]
    exact h
  · have hperm := Coordinator.perm_awaited_of_guard hg
    have hd := (hperm.map Prod.fst).nodup_iff.1 h.distinct
    rw [List.map_cons, List.nodup_cons] at hd
    simp only [h.sound.cancel_eq]
    refine ⟨h.sound.without _, ?_⟩
    rw [List.nil_append, TimerWheel.timers_without]
    refine ((h.perm.trans hperm).filter _).trans ?_
    rw [List.filter_cons_of_neg (by simp)]
    refine .of_eq (List.filter_eq_self.2 fun x hx => ?_)
    exact bne_iff_ne.2 fun e => hd.1 (List.mem_map.2 ⟨x, hx, e⟩)

/-! ### The single inputs -/

/-- A trigger keeps the coupling, and is a move. -/
theorem onTrigger {active : PathId} (h : Coupled c w [])
    (ho : c.onTrigger w now best active = .ok o) :
    Coupled o.coordinator o.timers [] ∧
      c.Move (.trigger best active) o.coordinator o.actions := by
  rcases Coordinator.onTrigger_cases ho with ⟨hignored, rfl⟩ | ⟨hs, hne, hid, rfl⟩
  · exact ⟨h, .triggerIgnored hignored⟩
  · refine ⟨h.armed hid ?_, .begun _ hs hne⟩
    rw [Coordinator.awaited_of_awaitingAck rfl, Coordinator.awaited_of_idle hs]
    exact .of_eq rfl

/-- A proposal keeps the coupling, and is a move. -/
theorem onRepath {target : PathId} {sequence : UInt64} (h : Coupled c w [])
    (ho : c.onRepath w now target sequence = .ok o) :
    Coupled o.coordinator o.timers [] ∧
      c.Move (.repath target sequence) o.coordinator o.actions := by
  rcases Coordinator.onRepath_cases ho with ⟨hd, rfl⟩ | ⟨hd, hid, rfl⟩
  · exact ⟨h, .repeated hd⟩
  · refine ⟨h.supersede.dropGuard.armed (by rwa [Coordinator.lastId_takeOver]) ?_, .adopted _ hd⟩
    rw [Coordinator.lastId_takeOver]
    exact .of_eq rfl

/-- A confirmation keeps the coupling, and is a move. -/
theorem onRepathAck {sequence : UInt64} (h : Coupled c w []) :
    Coupled (c.onRepathAck w sequence).coordinator (c.onRepathAck w sequence).timers [] ∧
      c.Move (.ack sequence) (c.onRepathAck w sequence).coordinator
        (c.onRepathAck w sequence).actions := by
  rcases c.onRepathAck_cases w sequence with ⟨hother, ho⟩ | ⟨target, timer, attempts, hs, ho⟩
  · rw [ho]
    exact ⟨h, .ackIgnored hother⟩
  · rw [ho]
    have hsup := h.supersede
    rw [Coordinator.supersede, hs] at hsup
    exact ⟨hsup, .confirmed hs⟩

/-! ### Timers -/

/-- A guard timer of the batch is that of the current guard, which lapses. -/
theorem onTimer_guard (h : Coupled c w ((t, .guard) :: batch)) (now : UInt64) (best : PathId) :
    c.onTimer w now t .guard best = .ok ⟨{ c with guard := none }, w, []⟩ ∧
      Coupled { c with guard := none } w batch := by
  have hmem : (t, TimerKind.guard) ∈ c.awaited := h.perm.subset (by simp)
  obtain ⟨g, hg, rfl⟩ := Coordinator.mem_awaited_guard hmem
  refine ⟨by simp [Coordinator.onTimer, hg], h.sound, ?_⟩
  exact (h.perm.trans (Coordinator.perm_awaited_of_guard hg)).cons_inv

/-- A retry timer of the batch is that of the outstanding negotiation, which loses it. -/
theorem retry (h : Coupled c w ((t, .repathRetry) :: batch)) :
    (∃ target sequence attempts, c.state = .awaitingAck target sequence t attempts) ∧
      Coupled { c with state := .idle } w batch := by
  have hmem : (t, TimerKind.repathRetry) ∈ c.awaited := h.perm.subset (by simp)
  obtain ⟨target, sequence, attempts, hs⟩ := Coordinator.mem_awaited_retry hmem
  refine ⟨⟨target, sequence, attempts, hs⟩, h.sound, ?_⟩
  exact (h.perm.trans (.of_eq (Coordinator.awaited_of_awaitingAck hs))).cons_inv

/-- Another transmission has a timer armed for it, and an abandoned negotiation has none. -/
theorem onTimer_retry (h : Coupled c w ((t, .repathRetry) :: batch))
    (ho : c.onTimer w now t .repathRetry best = .ok o) :
    Coupled o.coordinator o.timers batch := by
  obtain ⟨⟨target, sequence, attempts, hs⟩, hidle⟩ := h.retry
  rcases Coordinator.onRetryTimer_cases hs ho with ⟨-, rfl⟩ | ⟨-, -, hid, rfl⟩
  · exact hidle
  · exact hidle.armed hid (.of_eq rfl)

/-- A retry timer that is reported goes through, as long as there are handles and counts left. -/
theorem onTimer_retry_succeeds (h : Coupled c w ((t, .repathRetry) :: batch))
    (hid : w.lastId.toNat + 1 < UInt64.size) (hcount : c.Countable) (now : UInt64)
    (best : PathId) : ∃ o, c.onTimer w now t .repathRetry best = .ok o := by
  obtain ⟨⟨target, sequence, attempts, hs⟩, -⟩ := h.retry
  simp only [Coordinator.onTimer, Coordinator.onRetryTimer, hs, ne_eq, not_true_eq_false, if_false]
  by_cases hle : c.maxRetries < attempts
  · exact ⟨_, if_pos hle⟩
  · have hadd := hcount target sequence t attempts hs (UInt32.not_lt.1 hle)
    rw [if_neg hle, Checked.add32_eq_ok_iff.2 ⟨hadd, rfl⟩]
    exact ⟨_, by rw [TimerWheel.arm_eq_ok hid]; rfl⟩

/-- Without a negotiation, only the guard has a timer. -/
theorem guard_of_mem (h : Coupled { c with state := .idle } w batch) {x : TimerHandle × TimerKind}
    (hx : x ∈ batch) : x.2 = .guard := by
  have hmem := h.perm.subset (List.mem_append_left _ hx)
  rw [Coordinator.awaited_of_idle rfl, Option.mem_toList, Option.map_eq_some_iff] at hmem
  obtain ⟨g, -, rfl⟩ := hmem
  rfl

/-- A batch is handed over as `Coordinator.HandedOver` says, and the coupling is kept. -/
theorem handOver {batch : List (UInt64 × TimerHandle × TimerKind)} {deeds : List Deed}
    (h : Coupled c w (batch.map Prod.snd)) (ho : c.handOver w best batch = .ok (c', w', deeds)) :
    Coupled c' w' [] ∧ c.HandedOver w best batch c' w' deeds := by
  induction batch generalizing c w c' w' deeds with
  | nil =>
    cases ho
    exact ⟨h, .quiet (.inl rfl) (by simp)⟩
  | cons x batch ih =>
    obtain ⟨now, t, kind⟩ := x
    simp only [Coordinator.handOver, Checked.bind_eq_ok_iff] at ho
    obtain ⟨first, hfirst, ⟨c'', w'', rest⟩, hrest, ho⟩ := ho
    cases ho
    cases kind with
    | guard =>
      obtain ⟨hlapse, hcoupled⟩ := h.onTimer_guard now best
      rw [hlapse, Except.ok.injEq] at hfirst
      subst hfirst
      obtain ⟨hc, hhanded⟩ := ih hcoupled hrest
      exact ⟨hc, hhanded.of_lapsed rfl⟩
    | repathRetry =>
      obtain ⟨⟨target, sequence, attempts, hs⟩, hidle⟩ := h.retry
      -- one negotiation has one timer, so the others of the batch are timers of the guard
      have hguards : ∀ x ∈ batch, x.2.2 = .guard := fun x hx =>
        hidle.guard_of_mem (List.mem_map_of_mem hx)
      obtain ⟨hc, hhanded⟩ := ih (h.onTimer_retry hfirst) hrest
      obtain ⟨rfl, rfl, guard, hg, rfl⟩ := hhanded.of_guards hguards
      refine ⟨hc, ?_⟩
      rw [List.append_nil]
      rcases Coordinator.onRetryTimer_cases hs hfirst with ⟨hlt, rfl⟩ | ⟨hle, hlt, hid, rfl⟩
      · exact .abandoned hg hs List.mem_cons_self hlt
      · exact .resent hg hs List.mem_cons_self hle hlt hid

/-- Timers of the guard are always handed over. -/
theorem handOver_guards {batch : List (UInt64 × TimerHandle × TimerKind)}
    (h : Coupled c w (batch.map Prod.snd)) (hguards : ∀ x ∈ batch, x.2.2 = .guard)
    (best : PathId) : ∃ handed, c.handOver w best batch = .ok handed := by
  induction batch generalizing c with
  | nil => exact ⟨_, rfl⟩
  | cons x batch ih =>
    obtain ⟨now, t, kind⟩ := x
    obtain ⟨hkind, hrest⟩ := List.forall_mem_cons.1 hguards
    cases hkind
    obtain ⟨hlapse, hcoupled⟩ := h.onTimer_guard now best
    obtain ⟨handed, hhanded⟩ := ih hcoupled hrest
    simp only [Coordinator.handOver, Checked.bind_eq_ok_iff]
    exact ⟨_, _, hlapse, handed, hhanded, rfl⟩

/-- So does a whole batch: it takes one handle at most. -/
theorem handOver_succeeds {batch : List (UInt64 × TimerHandle × TimerKind)}
    (h : Coupled c w (batch.map Prod.snd)) (hid : w.lastId.toNat + 1 < UInt64.size)
    (hcount : c.Countable) (best : PathId) : ∃ handed, c.handOver w best batch = .ok handed := by
  induction batch generalizing c with
  | nil => exact ⟨_, rfl⟩
  | cons x batch ih =>
    obtain ⟨now, t, kind⟩ := x
    suffices hboth : ∃ first, c.onTimer w now t kind best = .ok first ∧
        ∃ handed, first.coordinator.handOver first.timers best batch = .ok handed by
      obtain ⟨first, hfirst, handed, hhanded⟩ := hboth
      simp only [Coordinator.handOver, Checked.bind_eq_ok_iff]
      exact ⟨_, first, hfirst, handed, hhanded, rfl⟩
    cases kind with
    | guard =>
      obtain ⟨hlapse, hcoupled⟩ := h.onTimer_guard now best
      exact ⟨_, hlapse, ih hcoupled hcount⟩
    | repathRetry =>
      obtain ⟨first, hfirst⟩ := h.onTimer_retry_succeeds hid hcount now best
      -- one negotiation has one timer, so the others of the batch are timers of the guard
      exact ⟨first, hfirst, (h.onTimer_retry hfirst).handOver_guards
        (fun x hx => h.retry.2.guard_of_mem (List.mem_map_of_mem hx)) best⟩

/-- The same for a batch that is handed over at one reading. -/
theorem onTimers (h : Coupled c w batch) (ho : c.onTimers w now best batch = .ok o) :
    Coupled o.coordinator o.timers [] ∧ ∃ deeds, o.actions = deeds.map (·.action) ∧
      c.HandedOver w best (batch.map fun x => (now, x)) o.coordinator o.timers deeds := by
  obtain ⟨deeds, hover, hactions⟩ := Coordinator.handOver_of_onTimers ho
  rw [← Coordinator.map_snd_at now batch] at h
  obtain ⟨hc, hhanded⟩ := h.handOver hover
  exact ⟨hc, deeds, hactions, hhanded⟩

/-- Each timer of a batch is still awaited when its turn comes. -/
theorem awaitsAll (h : Coupled c w batch) : c.AwaitsAll w now best batch := by
  induction batch generalizing c w with
  | nil => exact trivial
  | cons x batch ih =>
    obtain ⟨t, kind⟩ := x
    refine ⟨h.perm.subset (by simp), fun o ho => ih ?_⟩
    cases kind with
    | guard =>
      obtain ⟨hlapse, hcoupled⟩ := h.onTimer_guard now best
      rw [hlapse, Except.ok.injEq] at ho
      subst ho
      exact hcoupled
    | repathRetry => exact h.onTimer_retry ho

/-! ### All inputs -/

/-- A look moves the timers that have fallen due from the wheel to the batch. -/
theorem pollExpired (h : Coupled c w []) (now : UInt64) :
    Coupled c (w.pollExpired now).1 (w.pollExpired now).2 where
  sound := h.sound.pollExpired
  perm := by
    rw [TimerWheel.pollExpired_append]
    exact h.perm

/-- A look whose timers are handed over at readings of their own. -/
theorem look {batch : List (UInt64 × TimerHandle × TimerKind)} {deeds : List Deed}
    (h : Coupled c w []) (hbatch : batch.map Prod.snd = (w.pollExpired now).2)
    (ho : c.handOver (w.pollExpired now).1 best batch = .ok (c', w', deeds)) :
    Coupled c' w' [] ∧ c.HandedOver (w.pollExpired now).1 best batch c' w' deeds :=
  (hbatch ▸ h.pollExpired now).handOver ho

/-- An input keeps the coupling, and moves the coordinator as `Coordinator.Move` says. -/
theorem handle {i : Input} (h : Coupled c w []) (ho : c.handle w now i = .ok o) :
    Coupled o.coordinator o.timers [] ∧ c.Move i o.coordinator o.actions := by
  cases i with
  | trigger best active => exact h.onTrigger ho
  | repath target sequence => exact h.onRepath ho
  | ack sequence =>
    simp only [Coordinator.handle, Except.ok.injEq] at ho
    subst ho
    exact h.onRepathAck
  | tick best =>
    obtain ⟨hc, deeds, hactions, hhanded⟩ :=
      (h.pollExpired now).onTimers (Coordinator.handle_tick.1 ho)
    rw [hactions]
    exact ⟨hc, hhanded.move⟩

/-- An input goes through as long as one more handle can be given out and one more transmission can
be counted. -/
theorem handle_succeeds_of_countable (h : Coupled c w []) (hid : w.lastId.toNat + 1 < UInt64.size)
    (hcount : c.Countable) (now : UInt64) (i : Input) : ∃ o, c.handle w now i = .ok o := by
  cases i with
  | trigger best active =>
    simp only [Coordinator.handle, Coordinator.onTrigger]
    split
    · exact ⟨_, rfl⟩
    · split
      · exact ⟨_, rfl⟩
      · exact ⟨_, by rw [TimerWheel.arm_eq_ok hid]; rfl⟩
  | repath target sequence =>
    simp only [Coordinator.handle, Coordinator.onRepath]
    split
    · exact ⟨_, rfl⟩
    · rw [Coordinator.supersede_fst, TimerWheel.arm_eq_ok (by rwa [Coordinator.lastId_takeOver])]
      exact ⟨_, rfl⟩
  | ack sequence => exact ⟨_, rfl⟩
  | tick best =>
    have hlooked := h.pollExpired now
    rw [← Coordinator.map_snd_at now (w.pollExpired now).2] at hlooked
    obtain ⟨handed, hhanded⟩ := hlooked.handOver_succeeds hid hcount best
    simp only [Coordinator.handle_tick, Coordinator.onTimers_eq_handOver, hhanded]
    exact ⟨_, rfl⟩

/-- Every input goes through, as long as there are handles and counts left. -/
theorem handle_succeeds (h : Coupled c w []) (hid : w.lastId.toNat + 1 < UInt64.size)
    (hmax : c.maxRetries.toNat + 1 < UInt32.size) (i : Input) : ∃ o, c.handle w now i = .ok o :=
  h.handle_succeeds_of_countable hid (Coordinator.countable_of_maxRetries hmax) now i

end Coupled

end PathControl.Negotiation
