import Mathlib.Data.List.Forall2
import PathControl.Proofs.Delay.Estimator

/-!
# Clocks that disagree

The delays that an estimator records depend on its bias and on how far apart the clocks of the two
hosts are. Its preferences do not: another bias or another offset of the clocks moves all recorded
delays by the same amount, as long as every measurement is recorded as it is.

* `Call.IsExact`: a measurement that is not refused and not cut to the largest delay.
* `Call.Shifted`: the same call under clocks that are further apart.
* `WordMoved`: words that show such delays. `WordMoved.lt_iff_lt`: they compare alike.
* `lowest_eq_of_moved`: tables that differ by one amount in all delays are scanned for the same
  path, because the order is the same and paths that are not measured come last in both.
* `Offset`: two estimators with such tables. `Offset.after`: a call keeps the amount.
* `best_of_shifted_clocks`: so two runs prefer the same path after every call.
-/

namespace PathControl.Delay

namespace Estimator

/-- Whether a measurement is taken, and for the biased delay itself. -/
def Call.IsExact (bias : Duration) : Call → Prop
  | .probe _ sent received | .measure sent received =>
    ∃ d : UInt64, (Estimator.new bias).measure sent received = .ok d ∧
      (d.toNat : Int) = biased bias.word sent received
  | .adopt _ => True

/-- The same call, received `shift` later as measured against when the packet was sent. -/
inductive Call.Shifted (shift : Int) : Call → Call → Prop where
  | probe {path : PathId} {sent received sent' received' : UInt64} :
      (received'.toNat - sent'.toNat : Int) = received.toNat - sent.toNat + shift →
      Shifted shift (.probe path sent received) (.probe path sent' received')
  | measure {sent received sent' received' : UInt64} :
      (received'.toNat - sent'.toNat : Int) = received.toNat - sent.toNat + shift →
      Shifted shift (.measure sent received) (.measure sent' received')
  | adopt {path : PathId} : Shifted shift (.adopt path) (.adopt path)

/-- Whether a delay is another one moved by `offset`. -/
def MovedBy (offset : Int) (d d' : UInt64) : Prop := (d'.toNat : Int) = d.toNat + offset

/-- Whether words of two tables show delays of which the second is the first one moved by `offset`,
or both mark unmeasured paths. -/
def WordMoved (offset : Int) (word word' : UInt64) : Prop :=
  Option.Rel (MovedBy offset) (measured? word) (measured? word')

/-- Whether two estimators differ by one amount in all recorded delays, and in their biases only
besides. -/
structure Offset (bias bias' : Duration) (offset : Int) (e e' : Estimator) : Prop where
  bias_eq : e.bias = bias.word
  bias_eq' : e'.bias = bias'.word
  best : e'.best = e.best
  delays : ∀ p, WordMoved offset (e.delays.get p) (e'.delays.get p)

variable {bias bias' : Duration} {offset shift : Int} {e e' : Estimator} {c c' : Call}
  {calls calls' : List Call} {sent received sent' received' : UInt64}

/-- An exact probe is taken for the biased delay itself. -/
theorem delay?_of_isExact {path : PathId} (h : (Call.probe path sent received).IsExact bias) :
    ∃ d, delay? bias.word sent received = some d ∧
      (d.toNat : Int) = biased bias.word sent received := by
  obtain ⟨d, hmeasure, hvalue⟩ := h
  rw [measure_eq, show (Estimator.new bias).bias = bias.word from rfl] at hmeasure
  rcases hd : delay? bias.word sent received with _ | d' <;>
    rw [hd] at hmeasure <;>
    cases hmeasure
  exact ⟨d, rfl, hvalue⟩

/-- Words either mark unmeasured paths in both tables, or are delays in both. -/
theorem wordMoved_iff {word word' : UInt64} :
    WordMoved offset word word' ↔ word = unmeasured ∧ word' = unmeasured ∨
      word < unmeasured ∧ word' < unmeasured ∧ MovedBy offset word word' := by
  unfold WordMoved
  rw [lt_unmeasured_iff, lt_unmeasured_iff]
  constructor
  · intro h
    rcases hword : measured? word with _ | d <;> rcases hword' : measured? word' with _ | d' <;>
      rw [hword, hword'] at h <;> cases h
    · exact .inl ⟨measured?_eq_none_iff.1 hword, measured?_eq_none_iff.1 hword'⟩
    · next hmoved =>
      obtain ⟨rfl, hd⟩ := measured?_eq_some_iff.1 hword
      obtain ⟨rfl, hd'⟩ := measured?_eq_some_iff.1 hword'
      exact .inr ⟨hd, hd', hmoved⟩
  · rintro (⟨hword, hword'⟩ | ⟨hword, hword', hmoved⟩)
    · rw [measured?_eq_none_iff.2 hword, measured?_eq_none_iff.2 hword']
      exact .none
    · rw [measured?_eq_some_iff.2 ⟨rfl, hword⟩, measured?_eq_some_iff.2 ⟨rfl, hword'⟩]
      exact .some hmoved

/-- Moving all delays keeps their order, and paths that are not measured stay behind. -/
theorem WordMoved.lt_iff_lt {a a' b b' : UInt64} (ha : WordMoved offset a a')
    (hb : WordMoved offset b b') : a' < b' ↔ a < b := by
  obtain ⟨rfl, rfl⟩ | ⟨hless, hless', hmoved⟩ := wordMoved_iff.1 ha
  · obtain ⟨rfl, rfl⟩ | ⟨hbless, hbless', -⟩ := wordMoved_iff.1 hb
    · exact Iff.rfl
    · exact iff_of_false (UInt64.lt_asymm hbless') (UInt64.lt_asymm hbless)
  · obtain ⟨rfl, rfl⟩ | ⟨-, -, hbmoved⟩ := wordMoved_iff.1 hb
    · exact iff_of_true hless' hless
    · rw [UInt64.lt_iff_toNat_lt, UInt64.lt_iff_toNat_lt]
      unfold MovedBy at hmoved hbmoved
      omega

/-- The scan compares words only, so that moving all delays changes nothing. -/
theorem lowest_eq_of_moved {delays delays' : PathTable UInt64}
    (h : ∀ p, WordMoved offset (delays.get p) (delays'.get p)) :
    lowest delays' = lowest delays := by
  have hless : ∀ p q, delays'.get p < delays'.get q ↔ delays.get p < delays.get q := fun p q =>
    (h p).lt_iff_lt (h q)
  unfold lowest
  simp only [hless]

namespace Offset

/-- Before any call there are no delays to compare. -/
theorem new (bias bias' : Duration) (offset : Int) :
    Offset bias bias' offset (.new bias) (.new bias') where
  bias_eq := rfl
  bias_eq' := rfl
  best := rfl
  delays p := by
    rw [wordMoved_iff]
    exact .inl ⟨PathTable.get_filled unmeasured p, PathTable.get_filled unmeasured p⟩

/-- A probe is recorded on both sides, so the best path is found anew on both. -/
theorem recorded {path : PathId} {d d' : UInt64} (h : Offset bias bias' offset e e')
    (hd : delay? bias.word sent received = some d)
    (hd' : delay? bias'.word sent' received' = some d') (hmoved : MovedBy offset d d') :
    Offset bias bias' offset (e.recordProbe path sent received).1
      (e'.recordProbe path sent' received').1 := by
  rw [recordProbe_of_some (h.bias_eq ▸ hd), recordProbe_of_some (h.bias_eq' ▸ hd')]
  have hrecorded : WordMoved offset d d' := by
    unfold WordMoved
    rw [measured?_of_le (toNat_le_of_delay? hd), measured?_of_le (toNat_le_of_delay? hd')]
    exact .some hmoved
  have hdelays : ∀ p,
      WordMoved offset ((e.delays.set path d).get p) ((e'.delays.set path d').get p) := by
    intro p
    by_cases hp : p = path
    · rw [hp, PathTable.get_set_self, PathTable.get_set_self]
      exact hrecorded
    · rw [PathTable.get_set_of_ne _ _ hp, PathTable.get_set_of_ne _ _ hp]
      exact h.delays p
  exact ⟨h.bias_eq, h.bias_eq', lowest_eq_of_moved hdelays, hdelays⟩

/-- A call keeps the offset, which is the difference of the biases and the shift together. -/
theorem after (h : Offset bias bias' (bias'.word.toNat - bias.word.toNat + shift) e e')
    (hc : Call.Shifted shift c c') (hexact : c.IsExact bias) (hexact' : c'.IsExact bias') :
    Offset bias bias' (bias'.word.toNat - bias.word.toNat + shift) (e.after c) (e'.after c') := by
  cases hc with
  | probe hshift =>
    obtain ⟨d, hd, hvalue⟩ := delay?_of_isExact hexact
    obtain ⟨d', hd', hvalue'⟩ := delay?_of_isExact hexact'
    refine h.recorded hd hd' ?_
    unfold MovedBy
    unfold biased at hvalue hvalue'
    omega
  | measure _ => exact h
  | adopt => exact ⟨h.bias_eq, h.bias_eq', rfl, h.delays⟩

/-- Calls one after the other keep the offset. -/
theorem foldl (h : Offset bias bias' (bias'.word.toNat - bias.word.toNat + shift) e e')
    (hcalls : List.Forall₂ (Call.Shifted shift) calls calls')
    (hexact : ∀ c ∈ calls, c.IsExact bias) (hexact' : ∀ c ∈ calls', c.IsExact bias') :
    Offset bias bias' (bias'.word.toNat - bias.word.toNat + shift)
      (calls.foldl Estimator.after e) (calls'.foldl Estimator.after e') := by
  induction hcalls generalizing e e' with
  | nil => exact h
  | cons hc _ ih =>
    obtain ⟨hfirst, hrest⟩ := List.forall_mem_cons.1 hexact
    obtain ⟨hfirst', hrest'⟩ := List.forall_mem_cons.1 hexact'
    exact ih (h.after hc hfirst hfirst') hrest hrest'

/-- What is recorded on one side is recorded on the other. -/
theorem delay_eq_some (h : Offset bias bias' offset e e') {p : PathId} {d : UInt64}
    (hd : e.delay p = some d) : ∃ d', e'.delay p = some d' ∧ MovedBy offset d d' := by
  have hp : Option.Rel (MovedBy offset) (e.delay p) (e'.delay p) := h.delays p
  rw [hd] at hp
  generalize hd' : e'.delay p = x at hp
  cases hp with
  | some hmoved => exact ⟨_, rfl, hmoved⟩

/-- Both have measured the same paths. -/
theorem isSome_delay (h : Offset bias bias' offset e e') (p : PathId) :
    (e'.delay p).isSome = (e.delay p).isSome := by
  have hp : Option.Rel (MovedBy offset) (e.delay p) (e'.delay p) := h.delays p
  generalize e.delay p = x, e'.delay p = x' at hp ⊢
  cases hp <;> rfl

end Offset

/-- **Preferences do not depend on clocks.** Two estimators with any biases are called in the same
way, but for the second one all packets are received later or earlier by one amount, measured
against when they were sent. If both record every measurement as it is, then after every call both
prefer the same path, have recorded delays for the same paths, and any two recorded delays differ
by the same amount in both. -/
theorem best_of_shifted_clocks (bias bias' : Duration) (shift : Int)
    (hcalls : List.Forall₂ (Call.Shifted shift) calls calls')
    (hexact : ∀ c ∈ calls, c.IsExact bias) (hexact' : ∀ c ∈ calls', c.IsExact bias') (n : Nat) :
    let e := afterAll bias (calls.take n)
    let e' := afterAll bias' (calls'.take n)
    e'.best = e.best ∧ (∀ p, (e'.delay p).isSome = (e.delay p).isSome) ∧
      ∀ p q x y, e.delay p = some x → e.delay q = some y →
        ∃ x' y', e'.delay p = some x' ∧ e'.delay q = some y' ∧
          (x'.toNat - y'.toNat : Int) = x.toNat - y.toNat := by
  intro e e'
  have h : Offset bias bias' (bias'.word.toNat - bias.word.toNat + shift) e e' :=
    (Offset.new bias bias' _).foldl (List.forall₂_take n hcalls)
      (fun c hc => hexact c (List.mem_of_mem_take hc))
      fun c hc => hexact' c (List.mem_of_mem_take hc)
  refine ⟨h.best, h.isSome_delay, fun p q x y hx hy => ?_⟩
  obtain ⟨x', hx', hmoved⟩ := h.delay_eq_some hx
  obtain ⟨y', hy', hmoved'⟩ := h.delay_eq_some hy
  refine ⟨x', y', hx', hy', ?_⟩
  unfold MovedBy at hmoved hmoved'
  omega

/-- A smaller bias and clocks that are five further apart: delays of 5 and 9 become 2 and 6. An
adoption in between has its say in both runs. -/
theorem later_clock_prefers_same :
    let second : PathId := ⟨⟨1, by decide⟩⟩
    let third : PathId := ⟨⟨2, by decide⟩⟩
    let calls := [Call.probe third 10 4, .adopt second, .probe second 4 2]
    let calls' := [Call.probe third 10 9, .adopt second, .probe second 6 9]
    List.Forall₂ (Call.Shifted 5) calls calls' ∧
      (afterAll ⟨3⟩ (calls'.take 2)).best = (afterAll ⟨11⟩ (calls.take 2)).best ∧
      (afterAll ⟨3⟩ calls').best = (afterAll ⟨11⟩ calls).best ∧
      (afterAll ⟨11⟩ calls).best = third ∧ (afterAll ⟨11⟩ calls).delay second = some 9 ∧
      (afterAll ⟨3⟩ calls').delay second = some 6 := by
  intro second third calls calls'
  have hcalls : List.Forall₂ (Call.Shifted 5) calls calls' :=
    .cons (.probe (by decide)) (.cons .adopt (.cons (.probe (by decide)) .nil))
  have hexact : ∀ c ∈ calls, c.IsExact ⟨11⟩ := by
    refine List.forall_mem_cons.2 ⟨⟨5, rfl, by decide⟩, List.forall_mem_cons.2 ⟨trivial, ?_⟩⟩
    exact List.forall_mem_singleton.2 ⟨9, rfl, by decide⟩
  have hexact' : ∀ c ∈ calls', c.IsExact ⟨3⟩ := by
    refine List.forall_mem_cons.2 ⟨⟨2, rfl, by decide⟩, List.forall_mem_cons.2 ⟨trivial, ?_⟩⟩
    exact List.forall_mem_singleton.2 ⟨6, rfl, by decide⟩
  have hruns := best_of_shifted_clocks ⟨11⟩ ⟨3⟩ 5 hcalls hexact hexact'
  exact ⟨hcalls, (hruns 2).1, (hruns 3).1, by decide, by decide, by decide⟩

end Estimator

end PathControl.Delay
