import Mathlib.Data.List.Nodup
import Mathlib.Data.List.Pairwise
import PathControl.Proofs.Negotiation.Lifecycle

/-!
# The pace of retransmissions

A clocked run hands each timer that a look reports over at a clock reading of its own, so the
reading of the look and the one at which the next timer is armed may differ, either way. What each
record of such a run did is kept with the reading at which it did it.

* `Run.clocked`: a look at one reading is a case of this.
* `Paced`: the timer of the outstanding negotiation falls due a timeout after its last transmission,
  and whatever a look has asked for came after such a timeout.
* `ClockedRun.transmissions_spaced`: so two transmissions of a negotiation that follow each other
  are a timeout apart, and so are the last one and the report that it was abandoned.

A run never begins 2^64 negotiations, since each of them takes a handle (`ClockedRun.begun_le`).
-/

namespace PathControl.Negotiation

/-- What is recorded of an input. -/
structure ClockedRecord where
  /-- The reading at which the input came; for a look at the timers, that of the look. -/
  now : UInt64
  /-- The negotiation that the input found. -/
  before : NegotiationState
  input : Input
  deeds : List Deed
  deriving DecidableEq, Repr

/-- The record without the readings of what was done. -/
def ClockedRecord.record (r : ClockedRecord) : Record :=
  ⟨r.now, r.before, r.input, r.deeds.map (·.action)⟩

/-- The runs of a coordinator on a wheel of its own, in which the clock may move between a look and
what it leads to. -/
inductive ClockedRun (timeout guardInterval : Duration) (maxRetries : UInt32) :
    List ClockedRecord → Coordinator → TimerWheel → Prop where
  | start :
      ClockedRun timeout guardInterval maxRetries [] (.new timeout guardInterval maxRetries) .empty
  | input {past : List ClockedRecord} {c : Coordinator} {w : TimerWheel} {o : Outcome}
      (now : UInt64) (i : Input) :
      ClockedRun timeout guardInterval maxRetries past c w → (∀ best, i ≠ .tick best) →
      c.handle w now i = .ok o →
      ClockedRun timeout guardInterval maxRetries
        (past ++ [⟨now, c.state, i, o.actions.map (Deed.mk now)⟩]) o.coordinator o.timers
  | look {past : List ClockedRecord} {c c' : Coordinator} {w w' : TimerWheel} {deeds : List Deed}
      (now : UInt64) (best : PathId) (batch : List (UInt64 × TimerHandle × TimerKind)) :
      ClockedRun timeout guardInterval maxRetries past c w →
      batch.map Prod.snd = (w.pollExpired now).2 →
      c.handOver (w.pollExpired now).1 best batch = .ok (c', w', deeds) →
      ClockedRun timeout guardInterval maxRetries
        (past ++ [⟨now, c.state, .tick best, deeds⟩]) c' w'

/-- Whether this is the given transmission of a proposal. -/
def Deed.Proposes (d : Deed) (sequence : UInt64) (attempt : UInt32) : Prop :=
  ∃ target via, d.action = .sendRepath target via sequence attempt

/-- A transmission was made, and a timeout later is not after `now`. -/
def Overdue (timeout : Duration) (history : List ClockedRecord) (now sequence : UInt64)
    (attempt : UInt32) : Prop :=
  ∃ r ∈ history, ∃ d ∈ r.deeds, d.Proposes sequence attempt ∧
    min (d.now.toNat + timeout.nanos) (UInt64.size - 1) ≤ now.toNat

/-- What a record asks for is in time: only a look repeats or abandons a proposal, when its last
transmission is overdue, and it does so once at most. -/
structure Punctual (timeout : Duration) (history : List ClockedRecord) (r : ClockedRecord) :
    Prop where
  resent : ∀ d ∈ r.deeds, ∀ sequence attempt, d.Proposes sequence attempt →
    attempt = 1 ∨ (∃ best, r.input = .tick best) ∧ ∃ last : UInt32,
      attempt.toNat = last.toNat + 1 ∧ Overdue timeout history r.now sequence last
  abandoned : ∀ d ∈ r.deeds, ∀ target attempts, d.action = .abandoned target attempts →
    (∃ best, r.input = .tick best) ∧ ∃ sequence timer,
      r.before = .awaitingAck target sequence timer attempts ∧
        Overdue timeout history r.now sequence attempts
  once : ∀ best, r.input = .tick best → r.deeds.length ≤ 1

/-- The timer of the outstanding negotiation falls due a timeout after its last transmission, and
all records are punctual. -/
structure Paced (timeout : Duration) (history : List ClockedRecord) (c : Coordinator)
    (w : TimerWheel) : Prop where
  waits : ∀ target sequence timer attempts, c.state = .awaitingAck target sequence timer attempts →
    ∃ r ∈ history, ∃ d ∈ r.deeds, d.Proposes sequence attempts ∧
      ⟨saturatingAdd d.now timeout.word, timer, .repathRetry⟩ ∈ w.byDeadline
  punctual : ∀ r ∈ history, Punctual timeout history r

section Append

variable {timeout : Duration} {history : List ClockedRecord} {r : ClockedRecord}
  {now sequence : UInt64} {attempt : UInt32}

/-- What is overdue stays so in a longer history. -/
theorem Overdue.append (h : Overdue timeout history now sequence attempt)
    (rest : List ClockedRecord) : Overdue timeout (history ++ rest) now sequence attempt := by
  obtain ⟨r, hr, hdeed⟩ := h
  exact ⟨r, List.mem_append_left _ hr, hdeed⟩

/-- A punctual record stays so in a longer history. -/
theorem Punctual.append (h : Punctual timeout history r) (rest : List ClockedRecord) :
    Punctual timeout (history ++ rest) r where
  resent d hd sequence attempt hproposes :=
    (h.resent d hd sequence attempt hproposes).imp_right fun ⟨htick, last, heq, hoverdue⟩ =>
      ⟨htick, last, heq, hoverdue.append rest⟩
  abandoned d hd target attempts haction :=
    let ⟨htick, sequence, timer, hbefore, hoverdue⟩ := h.abandoned d hd target attempts haction
    ⟨htick, sequence, timer, hbefore, hoverdue.append rest⟩
  once := h.once

/-- An input other than a look is punctual if it proposes for the first time only. -/
theorem Punctual.of_input (hi : ∀ best, r.input ≠ .tick best)
    (hfirst : ∀ d ∈ r.deeds, ∀ sequence attempt, d.Proposes sequence attempt → attempt = 1)
    (hends : ∀ d ∈ r.deeds, ∀ target attempts, d.action ≠ .abandoned target attempts) :
    Punctual timeout history r where
  resent d hd sequence attempt hproposes := .inl (hfirst d hd sequence attempt hproposes)
  abandoned d hd target attempts haction := absurd haction (hends d hd target attempts)
  once best htick := absurd htick (hi best)

end Append

namespace Paced

variable {timeout : Duration} {history : List ClockedRecord} {c c' : Coordinator}
  {w w' : TimerWheel} {now : UInt64} {best : PathId} {r : ClockedRecord}

/-- Before the first input nothing waits. -/
theorem start (timeout guardInterval : Duration) (maxRetries : UInt32) :
    Paced timeout [] (.new timeout guardInterval maxRetries) .empty where
  waits _ _ _ _ hs := nomatch hs
  punctual _ hr := absurd hr List.not_mem_nil

/-- A punctual record keeps the pace if what waits after it was transmitted and has its timer. -/
theorem concat (h : Paced timeout history c w) (hr : Punctual timeout history r)
    (hwaits : ∀ target sequence timer attempts,
      c'.state = .awaitingAck target sequence timer attempts →
      ∃ r' ∈ history ++ [r], ∃ d ∈ r'.deeds, d.Proposes sequence attempts ∧
        ⟨saturatingAdd d.now timeout.word, timer, .repathRetry⟩ ∈ w'.byDeadline) :
    Paced timeout (history ++ [r]) c' w' := by
  refine ⟨hwaits, fun r' hr' => ?_⟩
  rcases List.mem_append.1 hr' with hr' | hr'
  · exact (h.punctual r' hr').append [r]
  · obtain rfl := List.mem_singleton.1 hr'
    exact hr.append [r']

/-- The outstanding negotiation goes on as it was. -/
theorem waiting (h : Paced timeout history c w) (hr : Punctual timeout history r)
    (hstate : c'.state = c.state)
    (hw : ∀ e ∈ w.byDeadline, e.kind = .repathRetry → e ∈ w'.byDeadline) :
    Paced timeout (history ++ [r]) c' w' := by
  refine h.concat hr fun target sequence timer attempts hs => ?_
  obtain ⟨r', hr', d, hd, hproposes, hentry⟩ := h.waits _ _ _ _ (hstate ▸ hs)
  exact ⟨r', List.mem_append_left _ hr', d, hd, hproposes, hw _ hentry rfl⟩

/-- No negotiation is outstanding afterwards. -/
theorem resting (h : Paced timeout history c w) (hr : Punctual timeout history r)
    (hstate : c'.state = .idle) : Paced timeout (history ++ [r]) c' w' :=
  h.concat hr fun _ _ _ _ hs => nomatch hstate.symm.trans hs

/-- A proposal is transmitted, and its timer armed. -/
theorem transmitted (h : Paced timeout history c w) (hr : Punctual timeout history r)
    {target via : PathId} {sequence : UInt64} {attempts : UInt32}
    (hdeeds : r.deeds = [⟨now, .sendRepath target via sequence attempts⟩])
    (hstate : c'.state = .awaitingAck target sequence ⟨w'.lastId + 1⟩ attempts) :
    Paced timeout (history ++ [r]) c' (w'.armed now .repathRetry timeout) := by
  refine h.concat hr fun _ _ _ _ hs => ?_
  cases hstate.symm.trans hs
  refine ⟨r, List.mem_concat_self, _, hdeeds ▸ List.mem_singleton_self _, ⟨target, via, rfl⟩, ?_⟩
  exact TimerWheel.mem_byDeadline_armed

/-- A negotiation whose timer a look reports is overdue. -/
theorem overdue (h : Paced timeout history c w) (hw : w.Sound) {target : PathId}
    {sequence : UInt64} {timer : TimerHandle} {attempts : UInt32}
    (hs : c.state = .awaitingAck target sequence timer attempts)
    (hfired : (timer, .repathRetry) ∈ (w.pollExpired now).2) :
    Overdue timeout history now sequence attempts := by
  obtain ⟨r, hr, d, hd, hproposes, hentry⟩ := h.waits _ _ _ _ hs
  refine ⟨r, hr, d, hd, hproposes, ?_⟩
  rw [← toNat_saturatingAdd_word]
  exact UInt64.le_iff_toNat_le.1 (hw.due_of_fired hentry hfired)

/-! ### The single steps -/

/-- An input other than a look proposes for the first time, if at all. -/
theorem input {i : Input} {o : Outcome} (h : Paced timeout history c w)
    (htimeout : c.timeout = timeout) (hi : ∀ best, i ≠ .tick best)
    (ho : c.handle w now i = .ok o) :
    Paced timeout (history ++ [⟨now, c.state, i, o.actions.map (Deed.mk now)⟩])
      o.coordinator o.timers := by
  cases i with
  | trigger best active =>
    rcases Coordinator.onTrigger_cases ho with ⟨-, rfl⟩ | ⟨-, -, -, rfl⟩
    · exact h.waiting (.of_input hi (by simp [Deed.Proposes]) (by simp)) rfl fun _ he _ => he
    · rw [htimeout]
      exact h.transmitted (.of_input hi (by simp [Deed.Proposes]) (by simp)) rfl rfl
  | repath target sequence =>
    rcases Coordinator.onRepath_cases ho with ⟨-, rfl⟩ | ⟨-, -, rfl⟩
    · exact h.waiting (.of_input hi (by simp [Deed.Proposes]) (by simp)) rfl fun _ he _ => he
    · exact h.resting (.of_input hi (by simp [Deed.Proposes]) (by simp)) rfl
  | ack sequence =>
    cases ho
    rcases c.onRepathAck_cases w sequence with ⟨-, ho⟩ | ⟨target, timer, attempts, -, ho⟩
    · rw [ho]
      exact h.waiting (.of_input hi (by simp [Deed.Proposes]) (by simp)) rfl fun _ he _ => he
    · rw [ho]
      exact h.resting (.of_input hi (by simp [Deed.Proposes]) (by simp)) rfl
  | tick best => exact absurd rfl (hi best)

/-- A look proposes again or abandons what is overdue. -/
theorem look {batch : List (UInt64 × TimerHandle × TimerKind)} {deeds : List Deed}
    (h : Paced timeout history c w) (htimeout : c.timeout = timeout) (hw : w.Sound)
    (hbatch : batch.map Prod.snd = (w.pollExpired now).2)
    (hhanded : c.HandedOver (w.pollExpired now).1 best batch c' w' deeds) :
    Paced timeout (history ++ [⟨now, c.state, .tick best, deeds⟩]) c' w' := by
  have hfired {x : UInt64 × TimerHandle × TimerKind} (hx : x ∈ batch) :
      x.2 ∈ (w.pollExpired now).2 := hbatch ▸ List.mem_map_of_mem hx
  cases hhanded with
  | quiet _ hguards =>
    refine h.waiting ⟨by simp, by simp, fun _ _ => Nat.zero_le _⟩ rfl fun e he hkind => ?_
    refine TimerWheel.stays_of_not_fired he fun hmem => ?_
    rw [← hbatch] at hmem
    obtain ⟨x, hx, heq⟩ := List.mem_map.1 hmem
    have hguard := hguards x hx
    rw [heq, hkind] at hguard
    cases hguard
  | @resent target sequence timer attempts now' guard _ hs hmem _ hlt hid =>
    have hoverdue := h.overdue hw hs (hfired hmem)
    have hsucc : (attempts + 1).toNat = attempts.toNat + 1 := Checked.toNat_sum32 hlt
    rw [htimeout]
    refine h.transmitted ⟨?_, by simp, fun _ _ => Nat.le_refl _⟩ rfl rfl
    intro d hd _ _ hproposes
    obtain rfl := List.mem_singleton.1 hd
    obtain ⟨_, _, haction⟩ := hproposes
    cases haction
    exact .inr ⟨⟨best, rfl⟩, attempts, hsucc, hoverdue⟩
  | @abandoned target sequence timer attempts now' guard _ hs hmem _ =>
    have hoverdue := h.overdue hw hs (hfired hmem)
    refine h.resting ⟨by simp [Deed.Proposes], ?_, fun _ _ => Nat.le_refl _⟩ rfl
    intro d hd _ _ haction
    obtain rfl := List.mem_singleton.1 hd
    cases haction
    exact ⟨⟨best, rfl⟩, sequence, timer, hs, hoverdue⟩

end Paced

/-! ### Clocked runs -/

/-- Each negotiation takes a handle. -/
theorem Coordinator.begins_le {c : Coordinator} {w : TimerWheel} {now : UInt64} {i : Input}
    {o : Outcome} (hi : ∀ best, i ≠ .tick best) (ho : c.handle w now i = .ok o) :
    w.lastId.toNat + o.actions.countP Action.begins ≤ o.timers.lastId.toNat := by
  cases i with
  | trigger best active =>
    rcases Coordinator.onTrigger_cases ho with ⟨-, rfl⟩ | ⟨-, -, hid, rfl⟩
    · exact Nat.le_refl _
    · exact Nat.le_of_eq (TimerWheel.lastId_armed hid).symm
  | repath target sequence =>
    rcases Coordinator.onRepath_cases ho with ⟨-, rfl⟩ | ⟨-, hid, rfl⟩
    · exact Nat.le_refl _
    · rw [TimerWheel.lastId_armed (by rwa [Coordinator.lastId_takeOver]),
        Coordinator.lastId_takeOver]
      exact Nat.le_succ _
  | ack sequence =>
    cases ho
    rcases c.onRepathAck_cases w sequence with ⟨-, ho⟩ | ⟨target, timer, attempts, -, ho⟩
    · rw [ho]
      exact Nat.le_refl _
    · rw [ho, TimerWheel.lastId_cancel]
      exact Nat.le_refl _
  | tick best => exact absurd rfl (hi best)

/-- Each negotiation takes a handle, also in a batch of timers. -/
theorem Coordinator.HandedOver.begins_le {c c' : Coordinator} {w w' : TimerWheel} {best : PathId}
    {batch : List (UInt64 × TimerHandle × TimerKind)} {deeds : List Deed}
    (h : c.HandedOver w best batch c' w' deeds) :
    w.lastId.toNat + (deeds.map (·.action)).countP Action.begins ≤ w'.lastId.toNat := by
  cases h with
  | quiet _ _ | abandoned _ _ _ _ => exact Nat.le_refl _
  | resent _ _ _ _ _ hid =>
    rw [TimerWheel.lastId_armed hid]
    exact Nat.add_le_add_left List.countP_le_length _

/-- Deeds at one reading are recorded as their actions. -/
theorem ClockedRecord.record_at (now : UInt64) (before : NegotiationState) (i : Input)
    (actions : List Action) :
    (⟨now, before, i, actions.map (Deed.mk now)⟩ : ClockedRecord).record =
      ⟨now, before, i, actions⟩ := by
  simp [ClockedRecord.record, Function.comp_def]

namespace ClockedRun

variable {timeout guardInterval : Duration} {maxRetries : UInt32} {history : List ClockedRecord}
  {c : Coordinator} {w : TimerWheel}

/-- Both indexes of the wheel hold the awaited timers. -/
theorem coupled (run : ClockedRun timeout guardInterval maxRetries history c w) :
    Coupled c w [] := by
  induction run with
  | start => exact .start timeout guardInterval maxRetries
  | input now i _ _ ho ih => exact (ih.handle ho).1
  | look now best batch _ hbatch ho ih => exact (ih.look hbatch ho).1

/-- A run keeps its timeout and its budget. -/
theorem settings (run : ClockedRun timeout guardInterval maxRetries history c w) :
    c.timeout = timeout ∧ c.maxRetries = maxRetries := by
  induction run with
  | start => exact ⟨rfl, rfl⟩
  | input now i run _ ho ih =>
    have hmove := (run.coupled.handle ho).2
    rwa [hmove.timeout_eq, hmove.maxRetries_eq]
  | look now best batch run hbatch ho ih =>
    have hmove := (run.coupled.look hbatch ho).2.move
    rwa [hmove.timeout_eq, hmove.maxRetries_eq]

/-- Each negotiation of a run took a handle. -/
theorem begun_le (run : ClockedRun timeout guardInterval maxRetries history c w) :
    begun (history.map (·.record)) ≤ w.lastId.toNat := by
  induction run with
  | start => exact Nat.le_refl _
  | input now i _ hi ho ih =>
    rw [List.map_append, List.map_singleton, ClockedRecord.record_at, begun_concat]
    exact Nat.le_trans (Nat.add_le_add_right ih _) (Coordinator.begins_le hi ho)
  | look now best batch run hbatch ho ih =>
    rw [List.map_append, List.map_singleton, begun_concat]
    exact Nat.le_trans (Nat.add_le_add_right ih _) (run.coupled.look hbatch ho).2.begins_le

/-- A run does not begin as many negotiations as there are numbers. -/
theorem few (run : ClockedRun timeout guardInterval maxRetries history c w) :
    begun (history.map (·.record)) < UInt64.size :=
  Nat.lt_of_le_of_lt run.begun_le w.lastId.toNat_lt

/-- The chronicle of a clocked run is its lives. -/
theorem chronicled (run : ClockedRun timeout guardInterval maxRetries history c w) :
    ∃ lives, Chronicled maxRetries (history.map (·.record)) c lives := by
  induction run with
  | start => exact ⟨[], .start timeout guardInterval maxRetries⟩
  | input now i run hi ho ih =>
    have few := (run.input now i hi ho).few
    rw [List.map_append, List.map_singleton, ClockedRecord.record_at] at few ⊢
    obtain ⟨lives, h⟩ := ih
    exact h.move run.settings.2 (run.coupled.handle ho).2 few
  | look now best batch run hbatch ho ih =>
    have few := (run.look now best batch hbatch ho).few
    rw [List.map_append, List.map_singleton] at few ⊢
    obtain ⟨lives, h⟩ := ih
    exact h.move run.settings.2 (run.coupled.look hbatch ho).2.move few

/-- Every clocked run keeps the pace, by induction on its inputs and looks. -/
theorem paced (run : ClockedRun timeout guardInterval maxRetries history c w) :
    Paced timeout history c w := by
  induction run with
  | start => exact .start timeout guardInterval maxRetries
  | input now i run hi ho ih => exact ih.input run.settings.1 hi ho
  | look now best batch run hbatch ho ih =>
    exact ih.look run.settings.1 run.coupled.sound hbatch (run.coupled.look hbatch ho).2

end ClockedRun

/-- A run that hands timers over at the reading of the look is a clocked run. -/
theorem Run.clocked {timeout guardInterval : Duration} {maxRetries : UInt32}
    {history : List Record} {c : Coordinator} {w : TimerWheel}
    (run : Run timeout guardInterval maxRetries history c w) :
    ∃ clocked, ClockedRun timeout guardInterval maxRetries clocked c w ∧
      clocked.map (·.record) = history := by
  induction run with
  | start => exact ⟨[], .start, rfl⟩
  | @input past c w o now i run ho ih =>
    obtain ⟨clocked, hclocked, heq⟩ := ih
    by_cases hi : ∀ best, i ≠ .tick best
    · refine ⟨_, hclocked.input now i hi ho, ?_⟩
      rw [List.map_append, List.map_singleton, ClockedRecord.record_at, heq]
    · push Not at hi
      obtain ⟨best, rfl⟩ := hi
      obtain ⟨deeds, hhanded, hactions⟩ :=
        Coordinator.handOver_of_onTimers (Coordinator.handle_tick.1 ho)
      refine ⟨_, hclocked.look now best _ (Coordinator.map_snd_at now _) hhanded, ?_⟩
      rw [List.map_append, List.map_singleton, heq, hactions]
      rfl

/-! ### Transmissions are told apart by the chronicle -/

/-- Two members of a list with a value in common are one if no value occurs twice. -/
theorem eq_of_mem_of_nodup_flatMap {α β : Type} {l : List α} {f : α → List β} {a a' : α} {b : β}
    (hl : (l.flatMap f).Nodup) (ha : a ∈ l) (ha' : a' ∈ l) (hb : b ∈ f a) (hb' : b ∈ f a') :
    a = a' := by
  have : Std.Symm (Function.onFun List.Disjoint f) := ⟨fun _ _ h _ hb hb' => h hb' hb⟩
  by_contra hne
  exact (List.nodup_flatMap.1 hl).2.forall ha ha' hne hb hb'

/-- A record is told of deed by deed. -/
theorem ClockedRecord.marks_eq (r : ClockedRecord) :
    r.record.marks = r.deeds.flatMap fun d => r.record.marksOf d.action := by
  simp [Record.marks, ClockedRecord.record, List.flatMap_map]

/-- A clocked history is told of record by record. -/
theorem chronicle_record (history : List ClockedRecord) :
    chronicle (history.map (·.record)) = history.flatMap fun r => r.record.marks := by
  rw [chronicle, List.flatMap_map]

/-- A transmission is marked under its number and attempt. -/
theorem Deed.Proposes.mark {d : Deed} {sequence : UInt64} {attempt : UInt32}
    (h : d.Proposes sequence attempt) (r : Record) :
    ∃ target, .sent sequence.toNat target attempt.toNat ∈ r.marksOf d.action := by
  obtain ⟨target, via, haction⟩ := h
  rw [haction]
  exact ⟨target, List.mem_singleton_self _⟩

namespace ClockedRun

variable {timeout guardInterval : Duration} {maxRetries : UInt32} {history : List ClockedRecord}
  {c : Coordinator} {w : TimerWheel} {r r' : ClockedRecord} {d d' : Deed} {sequence : UInt64}
  {attempt attempt' : UInt32}

/-- What a deed of the history says is in the chronicle. -/
theorem mem_chronicle {m : Mark} (hr : r ∈ history) (hd : d ∈ r.deeds)
    (hm : m ∈ r.record.marksOf d.action) : m ∈ chronicle (history.map (·.record)) := by
  rw [chronicle_record]
  refine List.mem_flatMap.2 ⟨r, hr, ?_⟩
  rw [ClockedRecord.marks_eq]
  exact List.mem_flatMap.2 ⟨d, hd, hm⟩

/-- A transmission of a negotiation is made once. -/
theorem same_deed (run : ClockedRun timeout guardInterval maxRetries history c w)
    (hr : r ∈ history) (hd : d ∈ r.deeds) (h : d.Proposes sequence attempt)
    (hr' : r' ∈ history) (hd' : d' ∈ r'.deeds) (h' : d'.Proposes sequence attempt) : d = d' := by
  obtain ⟨lives, hlives⟩ := run.chronicled
  obtain ⟨target, hm⟩ := h.mark r.record
  obtain ⟨target', hm'⟩ := h'.mark r'.record
  obtain rfl : target = target' :=
    hlives.target_unique (mem_chronicle hr hd hm) (mem_chronicle hr' hd' hm') rfl rfl rfl
  have hnodup : (chronicle (history.map (·.record))).Nodup := hlives.told ▸ nodup_annals lives
  rw [chronicle_record] at hnodup
  simp only [ClockedRecord.marks_eq] at hnodup
  obtain rfl := eq_of_mem_of_nodup_flatMap hnodup hr hr' (List.mem_flatMap.2 ⟨d, hd, hm⟩)
    (List.mem_flatMap.2 ⟨d', hd', hm'⟩)
  exact eq_of_mem_of_nodup_flatMap ((List.nodup_flatMap.1 hnodup).1 r hr) hd hd' hm hm'

/-- Transmissions are counted from 1 on. -/
theorem attempt_pos (run : ClockedRun timeout guardInterval maxRetries history c w)
    (hr : r ∈ history) (hd : d ∈ r.deeds) (h : d.Proposes sequence attempt) :
    1 ≤ attempt.toNat := by
  obtain ⟨lives, hlives⟩ := run.chronicled
  obtain ⟨target, hm⟩ := h.mark r.record
  have hmem := mem_chronicle hr hd hm
  rw [hlives.told] at hmem
  obtain ⟨n, l, -, hmem⟩ := mem_annals.1 hmem
  exact (Life.attempt_of_mem hmem).1

/-- What is overdue by one transmission is overdue by each of that count. -/
theorem spaced (run : ClockedRun timeout guardInterval maxRetries history c w)
    (hr : r ∈ history) (hd : d ∈ r.deeds) (h : d.Proposes sequence attempt) {now : UInt64}
    (hoverdue : Overdue timeout history now sequence attempt) :
    min (d.now.toNat + timeout.nanos) (UInt64.size - 1) ≤ now.toNat := by
  obtain ⟨r', hr', d', hd', h', hle⟩ := hoverdue
  rwa [run.same_deed hr hd h hr' hd' h']

/-- The last transmission before a negotiation is abandoned is the one that the report counts. -/
theorem attempt_le (run : ClockedRun timeout guardInterval maxRetries history c w)
    {target : PathId} {timer : TimerHandle} {attempts : UInt32} {best : PathId}
    (hr' : r' ∈ history) (hd' : d' ∈ r'.deeds) (haction : d'.action = .abandoned target attempts)
    (htick : r'.input = .tick best)
    (hbefore : r'.before = .awaitingAck target sequence timer attempts)
    (hr : r ∈ history) (hd : d ∈ r.deeds) (h : d.Proposes sequence attempt) :
    attempt ≤ attempts := by
  obtain ⟨lives, hlives⟩ := run.chronicled
  obtain ⟨target', hm⟩ := h.mark r.record
  have habandoned : .abandoned sequence.toNat target attempts.toNat ∈
      r'.record.marksOf d'.action := by
    simp [Record.marksOf, ClockedRecord.record, haction, htick, hbefore]
  exact UInt32.le_iff_toNat_le.2 (hlives.attempt_le_of_abandoned (mem_chronicle hr hd hm)
    (mem_chronicle hr' hd' habandoned))

/-- **Transmissions of a negotiation are spaced by the timeout.** Whatever comes at whatever clock
readings, only a look at the timers repeats a proposal or reports it abandoned, one of them at most,
and the look comes no earlier than the timeout after the reading at which the transmission before
it armed its timer, or at the greatest reading. An abandoned negotiation is not transmitted more
often than its report says. Every input goes through while there is a handle left and the
repetitions can be counted. -/
theorem transmissions_spaced (run : ClockedRun timeout guardInterval maxRetries history c w) :
    (∀ r ∈ history, ∀ d ∈ r.deeds, ∀ r' ∈ history, ∀ d' ∈ r'.deeds,
      ∀ (sequence : UInt64) (k k' : UInt32), d.Proposes sequence k → d'.Proposes sequence k' →
        k'.toNat = k.toNat + 1 →
        (∃ best, r'.input = .tick best) ∧
          min (d.now.toNat + timeout.nanos) (UInt64.size - 1) ≤ r'.now.toNat) ∧
      (∀ r' ∈ history, ∀ d' ∈ r'.deeds, ∀ target last, d'.action = .abandoned target last →
        (∃ best, r'.input = .tick best) ∧ ∃ sequence timer,
          r'.before = .awaitingAck target sequence timer last ∧
          (∃ r ∈ history, ∃ d ∈ r.deeds, d.Proposes sequence last) ∧
          ∀ r ∈ history, ∀ d ∈ r.deeds, ∀ k, d.Proposes sequence k → k ≤ last ∧
            (k = last →
              min (d.now.toNat + timeout.nanos) (UInt64.size - 1) ≤ r'.now.toNat)) ∧
      (∀ r ∈ history, ∀ best, r.input = .tick best → r.deeds.length ≤ 1) ∧
      (w.lastId.toNat + 1 < UInt64.size → maxRetries.toNat + 1 < UInt32.size →
        (∀ now i, ∃ o, c.handle w now i = .ok o) ∧
        ∀ now best batch, batch.map Prod.snd = (w.pollExpired now).2 →
          ∃ handed, c.handOver (w.pollExpired now).1 best batch = .ok handed) := by
  have h := run.paced
  refine ⟨?_, ?_, fun r hr => (h.punctual r hr).once, fun hid hmax => ⟨?_, ?_⟩⟩
  · intro r hr d hd r' hr' d' hd' sequence k k' hk hk' hsucc
    rcases (h.punctual r' hr').resent d' hd' sequence k' hk' with rfl | ⟨htick, last, heq, hoverdue⟩
    · have hpos := run.attempt_pos hr hd hk
      simp only [UInt32.reduceToNat] at hsucc
      omega
    · obtain rfl : last = k := UInt32.toNat_inj.1 (by omega)
      exact ⟨htick, run.spaced hr hd hk hoverdue⟩
  · intro r' hr' d' hd' target last haction
    obtain ⟨⟨best, htick⟩, sequence, timer, hbefore, hoverdue⟩ :=
      (h.punctual r' hr').abandoned d' hd' target last haction
    refine ⟨⟨best, htick⟩, sequence, timer, hbefore, ?_, fun r hr d hd k hk => ⟨?_, ?_⟩⟩
    · obtain ⟨r, hr, d, hd, hproposes, -⟩ := hoverdue
      exact ⟨r, hr, d, hd, hproposes⟩
    · exact run.attempt_le hr' hd' haction htick hbefore hr hd hk
    · rintro rfl
      exact run.spaced hr hd hk hoverdue
  · exact fun now i => run.coupled.handle_succeeds hid (run.settings.2 ▸ hmax) i
  · intro now best batch hbatch
    have hpolled := run.coupled.pollExpired now
    rw [← hbatch] at hpolled
    exact hpolled.handOver_succeeds hid
      (Coordinator.countable_of_maxRetries (run.settings.2 ▸ hmax)) best

/-- The clock jumps back while a look repeats a proposal: the next one may come as soon as a
timeout after the earlier reading has passed, and it finds the repetitions used up. -/
theorem jump_back_is_spaced : ∃ history c w,
    ClockedRun (.ofSeconds 2) (.ofSeconds 2) 1 history c w ∧
      history.map (fun r => (r.now, r.deeds)) =
        [(10, [⟨10, .sendRepath ⟨⟨1, by decide⟩⟩ ⟨⟨1, by decide⟩⟩ 1 1⟩]),
          (2000000010, [⟨5, .sendRepath ⟨⟨1, by decide⟩⟩ .first 1 2⟩]),
          (2000000005, [⟨2000000007, .abandoned ⟨⟨1, by decide⟩⟩ 2⟩])] ∧
      (∀ r ∈ history, ∀ best, r.input = .tick best → r.deeds.length ≤ 1) ∧
      ∃ o, c.handle w 3 (.trigger ⟨⟨1, by decide⟩⟩ .first) = .ok o := by
  have run : ClockedRun (.ofSeconds 2) (.ofSeconds 2) 1 _ _ _ :=
    .look 2000000005 .first [(2000000007, ⟨2⟩, .repathRetry)]
      (.look 2000000010 .first [(5, ⟨1⟩, .repathRetry)]
        (.input 10 (.trigger ⟨⟨1, by decide⟩⟩ .first) .start nofun rfl) rfl rfl) rfl rfl
  have h := transmissions_spaced run
  exact ⟨_, _, _, run, rfl, h.2.2.1, (h.2.2.2 (by decide) (by decide)).1 _ _⟩

end ClockedRun

end PathControl.Negotiation
