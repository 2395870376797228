import Mathlib.Data.List.Induction
import Mathlib.Data.List.MinMax
import PathControl.Delay.Estimator

/-!
# What the calls to an estimator come to

An estimator is a function of the calls made to it, and of few of them: the last recorded probe of
each path, and the last call that had a say in the best path.

* `measured?_eq_some_iff`, `measured?_eq_none_iff`: words stand for delays, but for the one that
  marks unmeasured paths. `measured?_injective`: so tables can be told from the delays they show.
* `delay?`: the biased delay over the integers, where it is taken.
* `lastRecorded`, `lastDecision`: what counts of a list of calls.
* `lowest_mem_argmin`: the scan for the best path finds the first of those with the least delay.
* `Tracks`: an estimator is what its calls come to; `Tracks.after` for one more call.
* `Estimator.answers_from_calls`: so probes of different paths may arrive in any order.

A delay is refused where it is negative, but also where the bias takes it past the 64-bit numbers:
the largest recorded delay does not stand for those (`over_long_delay_refused`).
-/

namespace PathControl.Delay

namespace Estimator

/-- A call to an estimator. -/
inductive Call where
  | probe (path : PathId) (sent received : UInt64)
  | measure (sent received : UInt64)
  | adopt (path : PathId)
  deriving DecidableEq, Repr

/-- The estimator after a call. -/
def after (e : Estimator) : Call → Estimator
  | .probe path sent received => (e.recordProbe path sent received).1
  | .measure _ _ => e
  | .adopt path => e.adopt path

/-- An estimator after calls to it. -/
def afterAll (bias : Duration) (calls : List Call) : Estimator := calls.foldl after (.new bias)

/-- The biased delay of a packet over the integers. -/
def biased (bias sent received : UInt64) : Int := received.toNat - sent.toNat + bias.toNat

/-- What is taken for the delay of a packet. -/
def delay? (bias sent received : UInt64) : Option UInt64 :=
  if 0 ≤ biased bias sent received ∧ biased bias sent received < UInt64.size then
    some (.ofNat (min (biased bias sent received).toNat longest))
  else none

/-- What a call records. -/
def Call.recorded? (bias : UInt64) : Call → Option (PathId × UInt64)
  | .probe path sent received => (delay? bias sent received).map fun d => (path, d)
  | .measure _ _ | .adopt _ => none

/-- Whether a call has a say in the best path. -/
def Call.decides (bias : UInt64) : Call → Bool
  | .probe _ sent received => (delay? bias sent received).isSome
  | .measure _ _ => false
  | .adopt _ => true

/-- The delay recorded last for a path. -/
def lastRecorded (bias : UInt64) (calls : List Call) (p : PathId) : Option UInt64 :=
  (calls.filterMap (Call.recorded? bias)).reverse.lookup p

/-- The last call that had a say in the best path. -/
def lastDecision (bias : UInt64) (calls : List Call) : Option Call :=
  calls.reverse.find? (Call.decides bias)

/-- The best path by the call that decided it last. -/
def preferred (delays : PathTable UInt64) : Option Call → PathId
  | none => .first
  | some (.adopt p) => p
  | some _ => lowest delays

/-! ### Words of the table -/

/-- A word shows no delay exactly if it marks an unmeasured path. -/
theorem measured?_eq_none_iff {word : UInt64} : measured? word = none ↔ word = unmeasured := by
  simp [measured?]

/-- A word shows itself, unless it marks an unmeasured path. -/
theorem measured?_eq_some_iff {word d : UInt64} :
    measured? word = some d ↔ word = d ∧ d ≠ unmeasured := by
  unfold measured?
  rw [Option.filter_eq_some_iff, Option.some.injEq, decide_eq_true_iff]

/-- The word that marks unmeasured paths is the largest one. -/
theorem lt_unmeasured_iff {d : UInt64} : d < unmeasured ↔ d ≠ unmeasured := by
  have hd := d.toNat_lt
  have hlargest : unmeasured.toNat = UInt64.size - 1 := rfl
  rw [UInt64.lt_iff_toNat_lt, Ne, ← UInt64.toNat_inj, hlargest]
  simp only [UInt64.size]
  omega

/-- A delay that is no longer than the longest one is shown as it was recorded. -/
theorem measured?_of_le {d : UInt64} (h : d.toNat ≤ longest) : measured? d = some d := by
  refine measured?_eq_some_iff.2 ⟨rfl, lt_unmeasured_iff.1 (UInt64.lt_iff_toNat_lt.2 ?_)⟩
  exact Nat.lt_of_le_of_lt h (by decide)

/-- What is shown is no longer than the longest delay. -/
theorem le_of_measured? {word d : UInt64} (h : measured? word = some d) : d.toNat ≤ longest := by
  have hlt := lt_unmeasured_iff.2 (measured?_eq_some_iff.1 h).2
  exact Nat.le_sub_one_of_lt (UInt64.lt_iff_toNat_lt.1 hlt)

/-- Words that show the same are the same. -/
theorem measured?_injective : Function.Injective measured? := by
  intro word word' h
  rcases hword : measured? word with _ | d
  · rw [hword] at h
    rw [measured?_eq_none_iff.1 hword, measured?_eq_none_iff.1 h.symm]
  · rw [hword] at h
    rw [(measured?_eq_some_iff.1 hword).1, (measured?_eq_some_iff.1 h.symm).1]

/-! ### Single measurements -/

variable {bias sent received d : UInt64}

/-- A delay is refused where it is negative or past the 64-bit numbers. -/
theorem delay?_eq_none_iff :
    delay? bias sent received = none ↔
      biased bias sent received < 0 ∨ UInt64.size ≤ biased bias sent received := by
  unfold delay?
  split
  · next hraw => exact iff_of_false nofun (by omega)
  · next hraw => exact iff_of_true rfl (by omega)

/-- A delay that is taken is the biased one, or the longest. -/
theorem toNat_of_delay? (h : delay? bias sent received = some d) :
    (d.toNat : Int) = min (biased bias sent received) (UInt64.size - 2) := by
  unfold delay? at h
  split at h
  · next hraw =>
    cases h
    have hlt : min (biased bias sent received).toNat longest < UInt64.size :=
      Nat.lt_of_le_of_lt (Nat.min_le_right _ _) (by decide)
    have hlongest : longest = UInt64.size - 2 := rfl
    rw [UInt64.toNat_ofNat_of_lt' hlt, hlongest]
    simp only [UInt64.size] at hraw ⊢
    omega
  · cases h

/-- A delay that is taken is no longer than the longest. -/
theorem toNat_le_of_delay? (h : delay? bias sent received = some d) : d.toNat ≤ longest := by
  have hvalue := toNat_of_delay? h
  have hlongest : longest = UInt64.size - 2 := rfl
  rw [hlongest]
  simp only [UInt64.size] at hvalue ⊢
  omega

variable {e : Estimator} {path : PathId}

/-- A measurement answers with the delay that is taken, or with the reason why none is. -/
theorem measure_eq (e : Estimator) (sent received : UInt64) :
    e.measure sent received = (delay? e.bias sent received).elim
      (.error (.clockAnomaly (.delayOutOfRange sent received))) .ok := by
  unfold measure delay?
  show (if 0 ≤ biased e.bias sent received ∧ biased e.bias sent received < UInt64.size then _
    else _) = _
  split <;> rfl

/-- A refused probe changes nothing. -/
theorem recordProbe_of_none (h : delay? e.bias sent received = none) :
    e.recordProbe path sent received =
      (e, .error (.clockAnomaly (.delayOutOfRange sent received))) := by
  unfold recordProbe
  rw [measure_eq, h]
  rfl

/-- A recorded probe replaces the word of its path, and the best path is found anew. -/
theorem recordProbe_of_some (h : delay? e.bias sent received = some d) :
    e.recordProbe path sent received =
      ({ e with
        delays := e.delays.set path d, best := lowest (e.delays.set path d) },
        .ok d) := by
  unfold recordProbe
  rw [measure_eq, h]
  rfl

/-! ### Delays and bias -/

/-- No call changes the bias. -/
theorem bias_after (e : Estimator) (c : Call) : (e.after c).bias = e.bias := by
  cases c with
  | probe path sent received =>
    show (e.recordProbe path sent received).1.bias = e.bias
    rcases hd : delay? e.bias sent received with _ | d
    · rw [recordProbe_of_none hd]
    · rw [recordProbe_of_some hd]
  | measure _ _ | adopt _ => rfl

/-- A call changes the delays by what it records, if anything. -/
theorem delays_after (e : Estimator) (c : Call) :
    (e.after c).delays =
      (c.recorded? e.bias).elim e.delays fun x => e.delays.set x.1 x.2 := by
  cases c with
  | probe path sent received =>
    show (e.recordProbe path sent received).1.delays = _
    rcases hd : delay? e.bias sent received with _ | d
    · rw [recordProbe_of_none hd, Call.recorded?, hd]
      rfl
    · rw [recordProbe_of_some hd, Call.recorded?, hd]
      rfl
  | measure _ _ | adopt _ => rfl

/-- Nor do any number of calls. -/
theorem bias_foldl (e : Estimator) (calls : List Call) :
    (calls.foldl after e).bias = e.bias := by
  induction calls generalizing e with
  | nil => rfl
  | cons c calls ih => exact (ih _).trans (e.bias_after c)

/-- Whatever the best paths, delays go on from the same delays in the same way. -/
theorem delays_foldl_congr {e' : Estimator} (hdelays : e.delays = e'.delays)
    (hbias : e.bias = e'.bias) (calls : List Call) :
    (calls.foldl after e).delays = (calls.foldl after e').delays := by
  induction calls generalizing e e' with
  | nil => exact hdelays
  | cons c calls ih =>
    apply ih
    · rw [delays_after, delays_after, hdelays, hbias]
    · rw [bias_after, bias_after, hbias]

/-! ### The scan for the best path -/

/-- A scan that moves on to smaller values only ends at the first one of the least. -/
theorem foldl_eq_argmin {α β : Type} [LinearOrder β] (f : α → β) (b : α) (l : List α) :
    some (l.foldl (fun best p => if f p < f best then p else best) b) = (b :: l).argmin f := by
  show _ = l.foldl _ (some b)
  induction l generalizing b with
  | nil => rfl
  | cons p l ih =>
    simp only [List.foldl_cons, List.argAux]
    rw [ih]
    split <;> rfl

/-- The scan starts at the first path, which it does not prefer to itself. -/
theorem lowest_mem_argmin (delays : PathTable UInt64) :
    lowest delays ∈ PathId.all.argmin fun p => (delays.get p).toNat := by
  have hall : PathId.all = .first :: PathId.all.tail := rfl
  simp only [lowest, UInt64.lt_iff_toNat_lt]
  rw [hall, Option.mem_def, ← foldl_eq_argmin, List.foldl_cons, if_neg (Nat.lt_irrefl _)]

/-- Paths stand in order of their indices. -/
theorem idxOf_all (p : PathId) : PathId.all.idxOf p = p.index := by
  obtain ⟨i⟩ := p
  revert i
  decide

/-- Once a path is measured, the scan finds the lowest of the paths with the least delay. -/
theorem lowest_of_measured {delays : PathTable UInt64} {p : PathId}
    (hp : measured? (delays.get p) = some d) :
    ∃ least, measured? (delays.get (lowest delays)) = some least ∧
      ∀ q d', measured? (delays.get q) = some d' →
        least < d' ∨ least = d' ∧ (lowest delays).number ≤ q.number := by
  obtain ⟨-, hle, hfirst⟩ := List.mem_argmin_iff.1 (lowest_mem_argmin delays)
  -- the word of the path found is no larger than that of `p`, which is not the largest one
  obtain ⟨hword, hmeasured⟩ := measured?_eq_some_iff.1 hp
  have hlt : delays.get (lowest delays) < unmeasured :=
    UInt64.lt_iff_toNat_lt.2 (Nat.lt_of_le_of_lt (hle p p.mem_all)
      (UInt64.lt_iff_toNat_lt.1 (hword ▸ lt_unmeasured_iff.2 hmeasured)))
  refine ⟨_, measured?_eq_some_iff.2 ⟨rfl, lt_unmeasured_iff.1 hlt⟩, fun q d' hq => ?_⟩
  obtain ⟨rfl, -⟩ := measured?_eq_some_iff.1 hq
  have hqfirst := hfirst q q.mem_all
  rw [idxOf_all, idxOf_all] at hqfirst
  rcases Nat.lt_or_eq_of_le (hle q q.mem_all) with hless | heq
  · exact .inl (UInt64.lt_iff_toNat_lt.2 hless)
  · exact .inr ⟨UInt64.toNat_inj.1 heq, Nat.succ_le_succ (hqfirst (Nat.le_of_eq heq.symm))⟩

/-! ### The calls of a run -/

variable {calls : List Call} {c : Call}

/-- A call that records nothing leaves all recorded delays alone. -/
theorem lastRecorded_concat_of_none (h : c.recorded? bias = none) (p : PathId) :
    lastRecorded bias (calls ++ [c]) p = lastRecorded bias calls p := by
  simp [lastRecorded, h]

/-- A call that records a delay replaces that of its path. -/
theorem lastRecorded_concat_of_some (h : c.recorded? bias = some (path, d)) (p : PathId) :
    lastRecorded bias (calls ++ [c]) p =
      if p = path then some d else lastRecorded bias calls p := by
  simp only [lastRecorded, List.filterMap_append, List.filterMap_cons_some h, List.filterMap_nil,
    List.reverse_append, List.reverse_cons, List.reverse_nil, List.nil_append, List.cons_append,
    List.lookup_cons]
  by_cases hp : p = path
  · rw [if_pos hp, hp, beq_self_eq_true]
  · rw [if_neg hp, beq_eq_false_iff_ne.2 hp]

/-- A call that has a say in the best path is the last decision. -/
theorem lastDecision_concat_of_decides (h : c.decides bias = true) :
    lastDecision bias (calls ++ [c]) = some c := by
  simp [lastDecision, h]

/-- A call that has none leaves the last decision alone. -/
theorem lastDecision_concat_of_not (h : c.decides bias = false) :
    lastDecision bias (calls ++ [c]) = lastDecision bias calls := by
  simp [lastDecision, h]

/-- A probe records its delay, if that is taken. -/
theorem recorded?_probe (path : PathId) (h : delay? bias sent received = some d) :
    (Call.probe path sent received).recorded? bias = some (path, d) := by
  rw [Call.recorded?, h]
  rfl

/-- What is recorded has a say in the best path. -/
theorem recorded?_of_not_decides (h : c.decides bias = false) : c.recorded? bias = none := by
  cases c with
  | probe path sent received =>
    rw [Call.decides, Option.isSome_eq_false_iff, Option.isNone_iff_eq_none] at h
    rw [Call.recorded?, h]
    rfl
  | measure _ _ | adopt _ => rfl

/-- A probe that decided was recorded, so there is a measured path. -/
theorem measured_of_lastDecision
    (h : lastDecision bias calls = some (.probe path sent received)) :
    ∃ d, lastRecorded bias calls path = some d := by
  induction calls using List.reverseRecOn with
  | nil => cases h
  | append_singleton calls c ih =>
    by_cases hdecides : c.decides bias = true
    · rw [lastDecision_concat_of_decides hdecides, Option.some.injEq] at h
      subst h
      obtain ⟨d, hd⟩ := Option.isSome_iff_exists.1 hdecides
      exact ⟨d, (lastRecorded_concat_of_some (recorded?_probe path hd) path).trans (if_pos rfl)⟩
    · rw [Bool.not_eq_true] at hdecides
      rw [lastDecision_concat_of_not hdecides] at h
      rw [lastRecorded_concat_of_none (recorded?_of_not_decides hdecides)]
      exact ih h

/-- An estimator is what the calls to it come to. -/
structure Tracks (bias : UInt64) (calls : List Call) (e : Estimator) : Prop where
  bias_eq : e.bias = bias
  delays : ∀ p, e.delay p = lastRecorded bias calls p
  best : e.best = preferred e.delays (lastDecision bias calls)

namespace Tracks

/-- An estimator that was not called has measured nothing and prefers the first path. -/
theorem new (bias : Duration) : Tracks bias.word [] (.new bias) where
  bias_eq := rfl
  delays p := by
    show measured? ((PathTable.filled unmeasured).get p) = none
    rw [PathTable.get_filled, measured?_eq_none_iff]
  best := rfl

/-- A call that has no say in the best path changes nothing. -/
theorem idle (h : Tracks bias calls e) (hdecides : c.decides bias = false) :
    Tracks bias (calls ++ [c]) e where
  bias_eq := h.bias_eq
  delays p := by rw [lastRecorded_concat_of_none (recorded?_of_not_decides hdecides), h.delays]
  best := by rw [lastDecision_concat_of_not hdecides, h.best]

/-- An adoption decides about the best path and records nothing. -/
theorem adopt (h : Tracks bias calls e) (path : PathId) :
    Tracks bias (calls ++ [.adopt path]) (e.adopt path) where
  bias_eq := h.bias_eq
  delays p := by rw [lastRecorded_concat_of_none rfl, ← h.delays]; rfl
  best := by rw [lastDecision_concat_of_decides rfl]; rfl

/-- A recorded probe decides about the best path, and records a word that marks no unmeasured path.
-/
theorem recorded (h : Tracks bias calls e) (path : PathId)
    (hd : delay? bias sent received = some d) :
    Tracks bias (calls ++ [.probe path sent received]) (e.recordProbe path sent received).1 := by
  have hdecides : (Call.probe path sent received).decides bias = true := by
    rw [Call.decides, hd]
    rfl
  rw [recordProbe_of_some (h.bias_eq ▸ hd)]
  refine ⟨h.bias_eq, fun p => ?_, ?_⟩
  · rw [lastRecorded_concat_of_some (recorded?_probe path hd), delay]
    split
    · next heq => rw [heq, PathTable.get_set_self, measured?_of_le (toNat_le_of_delay? hd)]
    · next hne => rw [PathTable.get_set_of_ne _ _ hne, ← h.delays, delay]
  · rw [lastDecision_concat_of_decides hdecides]
    rfl

/-- Every call is tracked. -/
theorem after (h : Tracks bias calls e) (c : Call) : Tracks bias (calls ++ [c]) (e.after c) := by
  cases c with
  | probe path sent received =>
    show Tracks bias _ (e.recordProbe path sent received).1
    rcases hd : delay? bias sent received with _ | d
    · rw [recordProbe_of_none (h.bias_eq ▸ hd)]
      exact h.idle (by rw [Call.decides, hd]; rfl)
    · exact h.recorded path hd
  | measure sent received => exact h.idle rfl
  | adopt path => exact h.adopt path

end Tracks

/-- So are any number of calls. -/
theorem tracks (bias : Duration) (calls : List Call) :
    Tracks bias.word calls (afterAll bias calls) := by
  induction calls using List.reverseRecOn with
  | nil => exact .new bias
  | append_singleton calls c ih =>
    rw [afterAll, List.foldl_append]
    exact ih.after c

/-- After recorded probes, an estimator is determined by the delays recorded last. -/
theorem Tracks.eq_of_same {calls' : List Call} {e' : Estimator} {path' : PathId}
    {sent' received' : UInt64} (h : Tracks bias calls e) (h' : Tracks bias calls' e')
    (hprobe : lastDecision bias calls = some (.probe path sent received))
    (hprobe' : lastDecision bias calls' = some (.probe path' sent' received'))
    (hsame : ∀ p, lastRecorded bias calls p = lastRecorded bias calls' p) : e = e' := by
  have hdelays : e.delays = e'.delays :=
    PathTable.eq_of_get_eq fun p =>
      measured?_injective ((h.delays p).trans ((hsame p).trans (h'.delays p).symm))
  have hbest : e.best = e'.best := by
    rw [h.best, h'.best, hprobe, hprobe', hdelays]
    rfl
  have hbias : e.bias = e'.bias := h.bias_eq.trans h'.bias_eq.symm
  calc e = ⟨e.delays, e.best, e.bias⟩ := rfl
    _ = ⟨e'.delays, e'.best, e'.bias⟩ := by rw [hdelays, hbest, hbias]

/-- **The answers of an estimator are those of the calls to it.** A packet is refused, and nothing
changes, exactly where its biased delay is negative or past the 64-bit numbers; otherwise it is that
delay, or the largest one recorded. Each path has the delay recorded last for it, if any. The best
path is the first one until a call has a say in it; an adopted path from its adoption on; and after
a recorded probe the lowest of the paths with the least delay, whatever is not measured. So two
lists of calls that both end with a recorded probe, as far as such calls go, and leave the same
delays lead to the same estimator: no measured path has the word of an unmeasured one. -/
theorem answers_from_calls (bias : Duration) (calls : List Call) :
    (∀ path sent received,
      (biased bias.word sent received < 0 ∨ UInt64.size ≤ biased bias.word sent received →
        (afterAll bias calls).measure sent received =
            .error (.clockAnomaly (.delayOutOfRange sent received)) ∧
          (afterAll bias calls).recordProbe path sent received =
            (afterAll bias calls, .error (.clockAnomaly (.delayOutOfRange sent received)))) ∧
      (0 ≤ biased bias.word sent received → biased bias.word sent received < UInt64.size →
        ∃ d : UInt64, (d.toNat : Int) = min (biased bias.word sent received) (UInt64.size - 2) ∧
          (afterAll bias calls).measure sent received = .ok d ∧
          ((afterAll bias calls).recordProbe path sent received).2 = .ok d)) ∧
      (∀ p, (afterAll bias calls).delay p = lastRecorded bias.word calls p) ∧
      (∀ p d, (afterAll bias calls).delay p = some d → d.toNat ≤ UInt64.size - 2) ∧
      (lastDecision bias.word calls = none → (afterAll bias calls).best = .first) ∧
      (∀ p, lastDecision bias.word calls = some (.adopt p) → (afterAll bias calls).best = p) ∧
      (∀ path sent received,
        lastDecision bias.word calls = some (.probe path sent received) →
        ∃ least, (afterAll bias calls).delay (afterAll bias calls).best = some least ∧
          ∀ q d, (afterAll bias calls).delay q = some d →
            least < d ∨ least = d ∧ (afterAll bias calls).best.number ≤ q.number) ∧
      ∀ calls' path sent received path' sent' received',
        lastDecision bias.word calls = some (.probe path sent received) →
        lastDecision bias.word calls' = some (.probe path' sent' received') →
        (∀ p, lastRecorded bias.word calls p = lastRecorded bias.word calls' p) →
        afterAll bias calls = afterAll bias calls' := by
  have h := tracks bias calls
  refine ⟨fun path sent received => ⟨fun hout => ?_, fun hlow hhigh => ?_⟩, h.delays,
    fun _ _ => le_of_measured?, fun hnone => ?_, fun p hadopt => ?_,
    fun path sent received hprobe => ?_, ?_⟩
  · have hd : delay? (afterAll bias calls).bias sent received = none := by
      rw [h.bias_eq]
      exact delay?_eq_none_iff.2 hout
    exact ⟨by rw [measure_eq, hd]; rfl, recordProbe_of_none hd⟩
  · rcases hd : delay? bias.word sent received with _ | d
    · have hout := delay?_eq_none_iff.1 hd
      omega
    · refine ⟨d, toNat_of_delay? hd, ?_⟩
      rw [← h.bias_eq] at hd
      exact ⟨by rw [measure_eq, hd]; rfl, by rw [recordProbe_of_some hd]⟩
  · rw [h.best, hnone]
    rfl
  · rw [h.best, hadopt]
    rfl
  · obtain ⟨d, hd⟩ := measured_of_lastDecision hprobe
    rw [h.best, hprobe]
    exact lowest_of_measured ((h.delays path).trans hd)
  · intro calls' path sent received path' sent' received' hprobe hprobe' hsame
    exact h.eq_of_same (tracks bias calls') hprobe hprobe' hsame

/-- Two paths are probed in either order, with an adoption and a refused probe in between. -/
theorem swapped_probes_agree :
    let second : PathId := ⟨⟨1, by decide⟩⟩
    let third : PathId := ⟨⟨2, by decide⟩⟩
    let calls := [Call.probe third 10 4, .adopt .first, .probe second 0 5, .measure 3 3]
    let calls' := [Call.probe second 0 5, .probe third 10 4, .probe .first 20 4]
    afterAll ⟨11⟩ calls = afterAll ⟨11⟩ calls' ∧ (afterAll ⟨11⟩ calls).best = third ∧
      (afterAll ⟨11⟩ calls).delay second = some 16 ∧
      (afterAll ⟨11⟩ calls).measure 20 4 = .error (.clockAnomaly (.delayOutOfRange 20 4)) := by
  intro second third calls calls'
  obtain ⟨hmeasure, hdelay, -, -, -, -, hsame⟩ := answers_from_calls ⟨11⟩ calls
  refine ⟨hsame calls' second 0 5 third 10 4 (by decide) (by decide) (fun p => ?_), by decide, ?_,
    ((hmeasure .first 20 4).1 (.inl (by decide))).1⟩
  · obtain ⟨i⟩ := p
    revert i
    decide
  · rw [hdelay]
    decide

/-- A delay of 2^64 is not recorded as the largest one but refused, although it is not negative. -/
theorem over_long_delay_refused :
    0 ≤ biased 1 0 (.ofNat (UInt64.size - 1)) ∧
      (afterAll ⟨1⟩ []).recordProbe .first 0 (.ofNat (UInt64.size - 1)) =
        (afterAll ⟨1⟩ [],
          .error (.clockAnomaly (.delayOutOfRange 0 (.ofNat (UInt64.size - 1))))) := by
  decide

end Estimator

end PathControl.Delay
