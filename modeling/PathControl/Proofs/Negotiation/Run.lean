import PathControl.Proofs.Negotiation.Coupling

/-!
# Runs of a coordinator

A run takes one input after the other, each at a clock reading of its own: readings may go back.
Every input is recorded with the negotiation that it found and the actions that it led to.

* `Run.coupled`: after every input the timers of the wheel are the awaited ones.
* `Run.pending_are_awaited`: what that means for the pending timers, for the timers that a look at
  the wheel reports, and for the next input.
* `Run.adopted_of_acked`: only an adopted proposal is ever confirmed to the peer, whether it is
  confirmed along with its adoption or later, for a copy that the guard recognises.
-/

namespace PathControl.Negotiation

/-- What is recorded of an input. -/
structure Record where
  now : UInt64
  /-- The negotiation that the input found. -/
  before : NegotiationState
  input : Input
  actions : List Action
  deriving DecidableEq, Repr

/-- The runs of a coordinator on a wheel of its own, from the first input on. -/
inductive Run (timeout guardInterval : Duration) (maxRetries : UInt32) :
    List Record → Coordinator → TimerWheel → Prop where
  | start : Run timeout guardInterval maxRetries [] (.new timeout guardInterval maxRetries) .empty
  | input {past : List Record} {c : Coordinator} {w : TimerWheel} {o : Outcome} (now : UInt64)
      (i : Input) :
      Run timeout guardInterval maxRetries past c w → c.handle w now i = .ok o →
      Run timeout guardInterval maxRetries (past ++ [⟨now, c.state, i, o.actions⟩])
        o.coordinator o.timers

namespace Run

variable {timeout guardInterval : Duration} {maxRetries : UInt32} {history : List Record}
  {c : Coordinator} {w : TimerWheel}

/-- After every input the timers of the wheel are those awaited. -/
theorem coupled (run : Run timeout guardInterval maxRetries history c w) : Coupled c w [] := by
  induction run with
  | start => exact .start timeout guardInterval maxRetries
  | input now i _ ho ih => exact (ih.handle ho).1

/-- A run keeps its budget of repetitions. -/
theorem maxRetries_eq (run : Run timeout guardInterval maxRetries history c w) :
    c.maxRetries = maxRetries := by
  induction run with
  | start => rfl
  | input now i run ho ih => rw [(run.coupled.handle ho).2.maxRetries_eq, ih]

end Run

namespace Coupled

variable {c : Coordinator} {w : TimerWheel}

/-- Two timers at most are pending, for the negotiation and for the guard. -/
theorem pending_le (h : Coupled c w []) : w.pending ≤ 2 := by
  have hlen : w.pending = w.timers.length := by
    rw [TimerWheel.pending, h.sound.agree.length_eq, TimerWheel.dated, TimerWheel.timers,
      List.length_map, List.length_map]
  rw [hlen, ← List.nil_append w.timers, h.perm.length_eq]
  exact Coordinator.length_awaited_le

/-- The timer of an outstanding negotiation is pending, and is reported once it has fallen due. -/
theorem retry_pending {target : PathId} {sequence : UInt64} {timer : TimerHandle}
    {attempts : UInt32} (h : Coupled c w [])
    (hs : c.state = .awaitingAck target sequence timer attempts) :
    ∃ deadline, ⟨deadline, timer, .repathRetry⟩ ∈ w.byDeadline ∧
      ∀ now, deadline ≤ now → (timer, .repathRetry) ∈ (w.pollExpired now).2 := by
  have hmem : (timer, TimerKind.repathRetry) ∈ w.timers := by
    refine h.perm.mem_iff.2 ?_
    rw [Coordinator.awaited_of_awaitingAck hs]
    exact List.mem_cons_self
  obtain ⟨e, he, heq⟩ := List.mem_map.1 hmem
  obtain ⟨rfl, hkind⟩ := Prod.mk.inj heq
  refine ⟨e.deadline, hkind ▸ he, fun now hdue => ?_⟩
  rw [h.sound.pollExpired_eq]
  exact List.mem_map.2 ⟨e, List.mem_filter.2 ⟨he, by simpa [TimerWheel.isDue] using hdue⟩, heq⟩

/-- An idle coordinator waits for nothing but its guard. -/
theorem guard_of_idle (h : Coupled c w []) (hs : c.state = .idle) :
    ∀ x ∈ w.timers, x.2 = .guard := by
  intro x hx
  have hmem := h.perm.subset hx
  rw [Coordinator.awaited_of_idle hs, Option.mem_toList, Option.map_eq_some_iff] at hmem
  obtain ⟨g, -, rfl⟩ := hmem
  rfl

end Coupled

namespace Run

variable {timeout guardInterval : Duration} {maxRetries : UInt32} {history : List Record}
  {c : Coordinator} {w : TimerWheel}

/-- **The timers of a wheel are those that its coordinator waits for.** After any inputs at any
clock readings, both indexes of the wheel hold exactly the awaited timers, each for its purpose.
So at most two are pending, an outstanding negotiation has one that is reported as soon as a look
at the wheel finds it due, an idle coordinator has none but that of its guard, and each timer that
a look reports is awaited at the moment when it is handed over. Handles are numbered, so
`lastId` counts the timers armed: no input fails before they or the transmissions run out. -/
theorem pending_are_awaited (run : Run timeout guardInterval maxRetries history c w) :
    w.timers.Perm c.awaited ∧ w.deadlines.Perm w.dated ∧ w.pending ≤ 2 ∧
      (∀ target sequence timer attempts, c.state = .awaitingAck target sequence timer attempts →
        ∃ deadline, ⟨deadline, timer, .repathRetry⟩ ∈ w.byDeadline ∧
          ∀ now, deadline ≤ now → (timer, .repathRetry) ∈ (w.pollExpired now).2) ∧
      (c.state = .idle → ∀ x ∈ w.timers, x.2 = .guard) ∧
      (∀ now best, c.AwaitsAll (w.pollExpired now).1 now best (w.pollExpired now).2) ∧
      (w.lastId.toNat + 1 < UInt64.size → maxRetries.toNat + 1 < UInt32.size →
        ∀ now i, ∃ o, c.handle w now i = .ok o) := by
  have h := run.coupled
  refine ⟨h.perm, h.sound.agree, h.pending_le, fun _ _ _ _ hs => h.retry_pending hs,
    h.guard_of_idle, fun now best => (h.pollExpired now).awaitsAll, ?_⟩
  intro hid hmax now i
  exact h.handle_succeeds hid (run.maxRetries_eq ▸ hmax) i

/-- Our proposal is superseded and another one follows: the timers of both the guard and the second
negotiation are pending, and one look reports them. -/
theorem both_timers_pending : ∃ history c w,
    Run (.ofSeconds 2) (.ofSeconds 2) 3 history c w ∧ w.pending = 2 ∧ w.timers.Perm c.awaited ∧
      (w.pollExpired 3000000000).2 = [(⟨2⟩, .guard), (⟨3⟩, .repathRetry)] ∧
      c.AwaitsAll (w.pollExpired 3000000000).1 3000000000 .first (w.pollExpired 3000000000).2 ∧
      ∃ o, c.handle w 3000000000 (.tick .first) = .ok o := by
  have run : Run (.ofSeconds 2) (.ofSeconds 2) 3 _ _ _ :=
    .input 9 (.trigger ⟨⟨1, by decide⟩⟩ ⟨⟨2, by decide⟩⟩)
      (.input 5 (.repath ⟨⟨2, by decide⟩⟩ 9)
        (.input 0 (.trigger ⟨⟨1, by decide⟩⟩ .first) .start rfl) rfl) rfl
  have h := pending_are_awaited run
  exact ⟨_, _, _, run, rfl, h.1, rfl, h.2.2.2.2.2.1 _ _,
    h.2.2.2.2.2.2 (by decide) (by decide) _ _⟩

end Run

/-! ### Confirmations -/

/-- A proposal of the peer was adopted. -/
def Record.Adopts (r : Record) (target : PathId) (sequence : UInt64) : Prop :=
  r.input = .repath target sequence ∧ .adopted target ∈ r.actions

/-- What is confirmed to the peer, and what the guard stands for, was adopted. -/
structure Answered (history : List Record) (c : Coordinator) : Prop where
  acked : ∀ r ∈ history, ∀ via sequence, .sendRepathAck via sequence ∈ r.actions →
    ∃ r' ∈ history, ∃ target, r'.Adopts target sequence
  guarded : ∀ g, c.guard = some g → ∃ r' ∈ history, r'.Adopts g.target g.sequence

namespace Answered

variable {history : List Record} {c c' : Coordinator} {r : Record}

/-- An input that confirms nothing and sets no guard. -/
theorem silent (h : Answered history c)
    (hr : ∀ via sequence, .sendRepathAck via sequence ∉ r.actions)
    (hg : ∀ g, c'.guard = some g → c.guard = some g) : Answered (history ++ [r]) c' := by
  refine ⟨fun r' hr' via sequence ha => ?_, fun g hg' => ?_⟩
  · rcases List.mem_append.1 hr' with hr' | hr'
    · obtain ⟨r'', hr'', hadopts⟩ := h.acked r' hr' via sequence ha
      exact ⟨r'', List.mem_append_left _ hr'', hadopts⟩
    · obtain rfl := List.mem_singleton.1 hr'
      exact absurd ha (hr via sequence)
  · obtain ⟨r', hr', hadopts⟩ := h.guarded g (hg g hg')
    exact ⟨r', List.mem_append_left _ hr', hadopts⟩

/-- An input that confirms one proposal, which was adopted. -/
theorem confirming {target : PathId} {sequence : UInt64} (h : Answered history c)
    (hr : ∀ via sequence', .sendRepathAck via sequence' ∈ r.actions → sequence' = sequence)
    (hadopts : ∃ r' ∈ history ++ [r], r'.Adopts target sequence)
    (hg : ∀ g, c'.guard = some g →
      c.guard = some g ∨ g.target = target ∧ g.sequence = sequence) :
    Answered (history ++ [r]) c' := by
  refine ⟨fun r' hr' via sequence' ha => ?_, fun g hg' => ?_⟩
  · rcases List.mem_append.1 hr' with hr' | hr'
    · obtain ⟨r'', hr'', hadopts⟩ := h.acked r' hr' via sequence' ha
      exact ⟨r'', List.mem_append_left _ hr'', hadopts⟩
    · obtain rfl := List.mem_singleton.1 hr'
      obtain rfl := hr via sequence' ha
      obtain ⟨r'', hr'', hadopts⟩ := hadopts
      exact ⟨r'', hr'', target, hadopts⟩
  · rcases hg g hg' with hg | ⟨rfl, rfl⟩
    · obtain ⟨r', hr', hadopts⟩ := h.guarded g hg
      exact ⟨r', List.mem_append_left _ hr', hadopts⟩
    · exact hadopts

/-- Every move keeps to confirming what was adopted. -/
theorem move {i : Input} {actions : List Action} {now : UInt64} {before : NegotiationState}
    (h : Answered history c) (hmove : c.Move i c' actions) :
    Answered (history ++ [⟨now, before, i, actions⟩]) c' := by
  cases hmove with
  | triggerIgnored _ => exact h.silent (by simp) fun _ => id
  | begun timer _ _ => exact h.silent (by simp) fun _ => id
  | @repeated target sequence hdup =>
    obtain ⟨g, hg, hmatch⟩ := Option.any_eq_true _ _ |>.1 hdup
    simp only [Bool.and_eq_true, beq_iff_eq] at hmatch
    obtain ⟨rfl, rfl⟩ := hmatch
    obtain ⟨r', hr', hadopts⟩ := h.guarded g hg
    exact h.confirming (by simp) ⟨r', List.mem_append_left _ hr', hadopts⟩ fun _ => .inl
  | @adopted target sequence timer _ =>
    have hadopts : Record.Adopts ⟨now, before, .repath target sequence,
        [.adopted target, .sendRepathAck target sequence]⟩ target sequence :=
      ⟨rfl, List.mem_cons_self⟩
    refine h.confirming (by simp) ⟨_, List.mem_concat_self, hadopts⟩ fun g hg => ?_
    obtain rfl := Option.some.inj hg
    exact .inr ⟨rfl, rfl⟩
  | confirmed _ => exact h.silent (by simp) fun _ => id
  | ackIgnored _ => exact h.silent (by simp) fun _ => id
  | quiet hg => exact h.silent (by simp) fun _ hg' => by rcases hg with rfl | rfl <;> simp_all
  | resent timer hg _ _ _ =>
    exact h.silent (by simp) fun _ hg' => by rcases hg with rfl | rfl <;> simp_all
  | abandoned hg _ _ =>
    exact h.silent (by simp) fun _ hg' => by rcases hg with rfl | rfl <;> simp_all

end Answered

namespace Run

variable {timeout guardInterval : Duration} {maxRetries : UInt32} {history : List Record}
  {c : Coordinator} {w : TimerWheel}

/-- What a run confirms, and what its guard stands for, was adopted. -/
theorem answered (run : Run timeout guardInterval maxRetries history c w) :
    Answered history c := by
  induction run with
  | start =>
    exact ⟨fun _ hr => absurd hr List.not_mem_nil,
      fun _ hg => absurd hg (by simp [Coordinator.new])⟩
  | input now i run ho ih => exact ih.move (run.coupled.handle ho).2

/-- A proposal that was confirmed to the peer had been adopted. -/
theorem adopted_of_acked (run : Run timeout guardInterval maxRetries history c w) {r : Record}
    {via : PathId} {sequence : UInt64} (hr : r ∈ history)
    (ha : .sendRepathAck via sequence ∈ r.actions) :
    ∃ r' ∈ history, ∃ target, r'.Adopts target sequence :=
  run.answered.acked r hr via sequence ha

end Run

end PathControl.Negotiation
