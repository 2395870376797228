import Mathlib.Data.List.Chain
import PathControl.Time.Throttle

/-!
# What a throttle lets through

A throttle that is asked again and again: how many reports go through, how far apart they are, and
what they say about those held back.

* `Throttle.asked`: a throttle after some questions, with its answers.
* `Throttle.passed`: the instants at which reports go through.
* `Throttle.asked_accounts`: every question is a report that went through, or was told of by the
  next one, or is still to be told of.
* `Throttle.passed_isChain`: reports that follow each other are an interval apart.
-/

namespace PathControl.Throttle

variable {t : Throttle} {instant : Nat} {instants : List Nat}

/-! ### Questions -/

/-- Asks at one instant after the other. -/
def asked (t : Throttle) : List Nat → Throttle × List (Option UInt64)
  | [] => (t, [])
  | instant :: instants =>
    let (t, answer) := t.check instant
    let (t, answers) := t.asked instants
    (t, answer :: answers)

/-- What an answer speaks for: a report for itself and for those that it says were held back. -/
def spokenFor : Option UInt64 → UInt64
  | none => 0
  | some suppressed => suppressed + 1

/-- What some answers speak for together, modulo 2^64. -/
def allSpokenFor : List (Option UInt64) → UInt64
  | [] => 0
  | answer :: answers => spokenFor answer + allSpokenFor answers

/-- The instants at which reports go through. -/
def passed (t : Throttle) : List Nat → List Nat
  | [] => []
  | instant :: instants =>
    match t.check instant with
    | (t, some _) => instant :: t.passed instants
    | (t, none) => t.passed instants

/-- Whether the last report is at least an interval ago. -/
def Ready (t : Throttle) (instant : Nat) : Prop :=
  ∀ last, t.last = some last → t.interval.nanos ≤ instant - last

/-- A report goes through once the last one is an interval ago. It tells of those held back. -/
theorem check_of_ready (h : t.Ready instant) :
    t.check instant = ({ t with last := some instant, suppressed := 0 }, some t.suppressed) := by
  have hfree : (t.last.any fun last => instant - last < t.interval.nanos) = false := by
    rw [Option.any_eq_false]
    intro last hlast
    exact decide_eq_false (Nat.not_lt.2 (h last hlast))
  simp only [check, hfree]
  rfl

/-- Otherwise it is held back and counted. -/
theorem check_of_not_ready (h : ¬ t.Ready instant) :
    t.check instant = ({ t with suppressed := t.suppressed + 1 }, none) := by
  have hheld : (t.last.any fun last => instant - last < t.interval.nanos) = true := by
    by_contra hfree
    refine h fun last hlast => Nat.not_lt.1 fun hless => hfree ?_
    rw [hlast, Option.any_some]
    exact decide_eq_true hless
  simp only [check, hheld]
  rfl

/-! ### Reports and those held back -/

/-- A question is told of by its own answer, or by the throttle. -/
theorem check_accounts (t : Throttle) (instant : Nat) :
    spokenFor (t.check instant).2 + (t.check instant).1.suppressed = t.suppressed + 1 := by
  by_cases h : t.Ready instant
  · rw [check_of_ready h]
    exact UInt64.add_zero _
  · rw [check_of_not_ready h]
    exact UInt64.zero_add _

/-- **Nothing is left out silently.** The reports that went through, those they told of and those
still to be told of are as many as the questions, modulo 2^64. -/
theorem asked_accounts (t : Throttle) (instants : List Nat) :
    allSpokenFor (t.asked instants).2 + (t.asked instants).1.suppressed =
      t.suppressed + UInt64.ofNat instants.length := by
  induction instants generalizing t with
  | nil =>
    show 0 + t.suppressed = t.suppressed + 0
    rw [UInt64.zero_add, UInt64.add_zero]
  | cons instant instants ih =>
    show spokenFor (t.check instant).2 + allSpokenFor ((t.check instant).1.asked instants).2 +
      ((t.check instant).1.asked instants).1.suppressed = _
    rw [UInt64.add_assoc, ih, ← UInt64.add_assoc, check_accounts, List.length_cons,
      UInt64.ofNat_add, UInt64.add_assoc, UInt64.add_comm 1]
    rfl

/-! ### Intervals -/

/-- Where a throttle is ready, a report goes through. -/
theorem passed_cons_of_ready (h : t.Ready instant) (instants : List Nat) :
    t.passed (instant :: instants) =
      instant :: passed { t with last := some instant, suppressed := 0 } instants := by
  rw [passed, check_of_ready h]

/-- Where it is not, none does. -/
theorem passed_cons_of_not_ready (h : ¬ t.Ready instant) (instants : List Nat) :
    t.passed (instant :: instants) =
      passed { t with suppressed := t.suppressed + 1 } instants := by
  rw [passed, check_of_not_ready h]

/-- The next report that goes through is an interval after the last one. -/
theorem le_of_mem_head?_passed (hinterval : 0 < t.interval.nanos) {last next : Nat}
    (hlast : t.last = some last) (hnext : next ∈ (t.passed instants).head?) :
    last + t.interval.nanos ≤ next := by
  induction instants generalizing t with
  | nil => cases hnext
  | cons instant instants ih =>
    by_cases h : t.Ready instant
    · rw [passed_cons_of_ready h] at hnext
      cases hnext
      have hready := h last hlast
      omega
    · rw [passed_cons_of_not_ready h] at hnext
      let counted : Throttle := { t with suppressed := t.suppressed + 1 }
      exact ih (t := counted) hinterval hlast hnext

/-- **Reports are spaced.** Unless the interval is empty, two reports that go through one after the
other are at least an interval apart, whichever way the instants go. -/
theorem passed_isChain (hinterval : 0 < t.interval.nanos) (instants : List Nat) :
    (t.passed instants).IsChain fun last next => last + t.interval.nanos ≤ next := by
  induction instants generalizing t with
  | nil => exact .nil
  | cons instant instants ih =>
    by_cases h : t.Ready instant
    · rw [passed_cons_of_ready h, List.isChain_cons]
      let reported : Throttle := { t with last := some instant, suppressed := 0 }
      exact ⟨fun next hnext => le_of_mem_head?_passed (t := reported) hinterval rfl hnext,
        ih (t := reported) hinterval⟩
    · rw [passed_cons_of_not_ready h]
      let counted : Throttle := { t with suppressed := t.suppressed + 1 }
      exact ih (t := counted) hinterval

/-- Five questions to a throttle of a second: the last two reports go through, of which the first
one tells of two that were held back. -/
example :
    (asked (.new (.ofSeconds 1)) [0, 10, 500_000_000, 1_000_000_000, 3_000_000_000]).2 =
      [some 0, none, none, some 2, some 0] := by
  decide

end PathControl.Throttle
