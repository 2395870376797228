/-!
# Faults and checked words

A *fault* stops an operation outright: an unsigned sum or difference that leaves its word, a read
beyond the end of a byte string, a block of memory that no address space holds, or a loop without
an interval. Faults are kept apart from the errors of
`PathControl.Error`, which are answers that callers act on.

An operation that could fault returns `Checked α`; it is faultless exactly when the answer is
`.ok`. Counters that are meant to wrap are plain `UInt64` sums and never appear here.
-/

namespace PathControl

/-- What stops an operation outright. -/
inductive Fault where
  /-- An unsigned sum or difference left its word. -/
  | overflow
  /-- A read or a slice went past the end of its bytes. -/
  | outOfRange
  /-- A block of memory was asked for that exceeds the address space. -/
  | unaddressable
  /-- A periodic loop was started without time between its rounds. -/
  | zeroInterval
  deriving DecidableEq, Repr

/-- A result, or the fault that prevented it. -/
abbrev Checked (α : Type) : Type := Except Fault α

namespace Checked

/-- The natural number `n`, provided that it fits a word of `bits` bits. -/
def fit (bits n : Nat) : Checked Nat :=
  if n < Nat.pow 2 bits then .ok n else .error .overflow

/-- Sum of 16-bit words. -/
def add16 (a b : UInt16) : Checked UInt16 :=
  if a.toNat + b.toNat < UInt16.size then .ok (a + b) else .error .overflow

/-- Difference of 16-bit words. -/
def sub16 (a b : UInt16) : Checked UInt16 :=
  if b ≤ a then .ok (a - b) else .error .overflow

/-- Sum of 32-bit words. -/
def add32 (a b : UInt32) : Checked UInt32 :=
  if a.toNat + b.toNat < UInt32.size then .ok (a + b) else .error .overflow

/-- Sum of 64-bit words. -/
def add64 (a b : UInt64) : Checked UInt64 :=
  if a.toNat + b.toNat < UInt64.size then .ok (a + b) else .error .overflow

/-- Difference of 64-bit words. -/
def sub64 (a b : UInt64) : Checked UInt64 :=
  if b ≤ a then .ok (a - b) else .error .overflow

/-- Memory for `count` items of `size` bytes each. One block has less than 2^63 bytes. -/
def reserve (count size : Nat) : Checked Unit :=
  if count * size < 0x8000_0000_0000_0000 then .ok () else .error .unaddressable

/-- A sequence ends well if its first part does and the rest does from there. -/
theorem bind_eq_ok_iff {α β : Type} {x : Checked α} {f : α → Checked β} {b : β} :
    x >>= f = .ok b ↔ ∃ a, x = .ok a ∧ f a = .ok b := by
  cases x <;> simp [bind, Except.bind]

/-- A first part that ends well hands its value on. -/
theorem ok_bind {α β : Type} {a : α} {f : α → Checked β} : (.ok a : Checked α) >>= f = f a := rfl

/-- A result that can be examined is there. -/
theorem exists_of_any {α : Type} {x : Checked α} {p : α → Bool} (h : x.toOption.any p = true) :
    ∃ a, x = .ok a ∧ p a = true := by
  rcases x with fault | a
  · cases h
  · exact ⟨a, rfl, h⟩

/-- A faultless step among steps that may also fail. -/
theorem lift_ok_bind {ε α β : Type} {a : α} {f : α → ExceptT ε Checked β} :
    (liftM (.ok a : Checked α) : ExceptT ε Checked α) >>= f = f a := rfl

/-- The same for a sequence whose first part has no causes of failure, only faults. -/
theorem lift_bind_eq_ok_iff {ε α β : Type} {x : Checked α} {f : α → ExceptT ε Checked β} {b : β} :
    ((liftM x : ExceptT ε Checked α) >>= f).run = .ok (.ok b) ↔
      ∃ a, x = .ok a ∧ (f a).run = .ok (.ok b) := by
  rcases x with fault | a
  · exact ⟨fun h => (nomatch h), fun ⟨_, h, _⟩ => (nomatch h)⟩
  · exact ⟨fun h => ⟨a, rfl, h⟩, fun ⟨_, h, h'⟩ => Except.ok.inj h ▸ h'⟩

/-- A number within the word is left as it is. -/
theorem fit_eq_ok {bits n : Nat} (h : n < Nat.pow 2 bits) : fit bits n = .ok n := if_pos h

/-- What fits a word is any number within it, and stays the same. -/
theorem fit_eq_ok_iff {bits n m : Nat} : fit bits n = .ok m ↔ n < Nat.pow 2 bits ∧ n = m := by
  unfold fit
  split
  · simp_all
  · simp only [reduceCtorEq, false_iff, not_and]
    omega

/-- A sum that fits its word is the sum of the numbers. -/
theorem toNat_sum64 {a b : UInt64} (h : a.toNat + b.toNat < UInt64.size) :
    (a + b).toNat = a.toNat + b.toNat :=
  (UInt64.toNat_add a b).trans (Nat.mod_eq_of_lt h)

/-- A sum that fits its word is the sum of the numbers. -/
theorem toNat_sum32 {a b : UInt32} (h : a.toNat + b.toNat < UInt32.size) :
    (a + b).toNat = a.toNat + b.toNat :=
  (UInt32.toNat_add a b).trans (Nat.mod_eq_of_lt h)

/-- A checked sum ends well exactly where the sum of the numbers fits 64 bits. -/
theorem add64_eq_ok_iff {a b c : UInt64} :
    add64 a b = .ok c ↔ a.toNat + b.toNat < UInt64.size ∧ c = a + b := by
  unfold add64
  by_cases h : a.toNat + b.toNat < UInt64.size
  · rw [if_pos h, Except.ok.injEq]
    exact ⟨fun hc => ⟨h, hc.symm⟩, fun hc => hc.2.symm⟩
  · rw [if_neg h]
    exact ⟨fun hc => (nomatch hc), fun hc => absurd hc.1 h⟩

/-- A checked sum ends well exactly where the sum of the numbers fits 32 bits. -/
theorem add32_eq_ok_iff {a b c : UInt32} :
    add32 a b = .ok c ↔ a.toNat + b.toNat < UInt32.size ∧ c = a + b := by
  unfold add32
  by_cases h : a.toNat + b.toNat < UInt32.size
  · rw [if_pos h, Except.ok.injEq]
    exact ⟨fun hc => ⟨h, hc.symm⟩, fun hc => hc.2.symm⟩
  · rw [if_neg h]
    exact ⟨fun hc => (nomatch hc), fun hc => absurd hc.1 h⟩

end Checked

end PathControl
