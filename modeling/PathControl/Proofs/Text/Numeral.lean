import Mathlib.Data.List.Forall2
import Mathlib.Data.Nat.Digits.Defs
import PathControl.Text.Digits

/-!
# Numerals

What the readers of numbers accept, said without them.

* `HexDigit`: the sixteen digits, of either case. `digitValue?_eq_some_iff_hexDigit`: they are the
  digits in radix 16.
* `Numeral`: a string of digits with the number that it writes, which is `Nat.ofDigits` of the
  values of the digits. `Continues` is the same behind digits that were read already, and goes digit
  by digit as `accumulate` does.
* `number?_eq_ok_iff`: the numbers that are read are the numerals below the bound, with one plus
  sign in front of them or none.
* `hexByte_mem`, `exists_hexByte`, `number?_hexByte`: bytes are written as two of the digits in
  lower case, any two of them write a byte, and a written byte is read back.
* `splitOn_eq`: the parts of a text are those of `List.splitOn`.
-/

namespace PathControl.Text

variable {radix bound acc n : Nat} {c : Char} {cs : List Char}

/-! ### Digits -/

/-- The digits of hexadecimal numbers in order, letters in lower case. -/
def hexDigits : List Char :=
  ['0', '1', '2', '3', '4', '5', '6', '7', '8', '9', 'a', 'b', 'c', 'd', 'e', 'f']

/-- Whether a character is the hexadecimal digit of a value, letters being of either case. -/
def HexDigit (c : Char) (value : Nat) : Prop :=
  ∃ digit, hexDigits[value]? = some digit ∧ (c = digit ∨ c = digit.toUpper)

/-- A digit is less than the radix. -/
theorem digitValue?_lt {d : Nat} (h : digitValue? radix c = some d) : d < radix :=
  of_decide_eq_true (Option.filter_eq_some_iff.1 h).2

/-- The plus sign is no digit. -/
theorem digitValue?_plus (radix : Nat) : digitValue? radix '+' = none := rfl

/-- The list of digits has each digit at the place of its value. -/
theorem hexDigits_getElem? {value : Nat} (h : value < 16) :
    hexDigits[value]? = some (hexDigit value) := by
  have hall : ∀ value < 16, hexDigits[value]? = some (hexDigit value) := by decide
  exact hall value h

/-- A hexadecimal digit is the one that is written for its value, or that one in upper case. -/
theorem hexDigit_iff {value : Nat} :
    HexDigit c value ↔ value < 16 ∧ (c = hexDigit value ∨ c = (hexDigit value).toUpper) := by
  constructor
  · rintro ⟨digit, hdigit, hc⟩
    have hvalue : value < 16 := (List.getElem?_eq_some_iff.1 hdigit).1
    rw [hexDigits_getElem? hvalue] at hdigit
    cases hdigit
    exact ⟨hvalue, hc⟩
  · rintro ⟨hvalue, hc⟩
    exact ⟨_, hexDigits_getElem? hvalue, hc⟩

/-- The digits in radix 16 are the hexadecimal digits. -/
theorem digitValue?_eq_some_iff_hexDigit {value : Nat} :
    digitValue? 16 c = some value ↔ HexDigit c value := by
  rw [hexDigit_iff]
  constructor
  · intro h
    have hvalue := digitValue?_lt h
    refine ⟨hvalue, ?_⟩
    -- a digit is known by its code point, which its value gives back in each of the three ranges
    rw [← Char.ofNat_toNat c]
    have hall : ∀ value < 16, (value < 10 → Char.ofNat (48 + value) = hexDigit value) ∧
        (10 ≤ value → Char.ofNat (87 + value) = hexDigit value ∧
          Char.ofNat (55 + value) = (hexDigit value).toUpper) := by decide
    obtain ⟨hdecimal, hletter⟩ := hall value hvalue
    obtain ⟨hrange, -⟩ := Option.filter_eq_some_iff.1 h
    split at hrange
    · cases hrange
      rw [← hdecimal (by omega)]
      left
      congr 1
      omega
    · split at hrange
      · cases hrange
        rw [← (hletter (by omega)).1]
        left
        congr 1
        omega
      · split at hrange
        · cases hrange
          rw [← (hletter (by omega)).2]
          right
          congr 1
          omega
        · cases hrange
  · rintro ⟨hvalue, hc⟩
    have hall : ∀ value < 16, digitValue? 16 (hexDigit value) = some value ∧
        digitValue? 16 (hexDigit value).toUpper = some value := by decide
    obtain ⟨hlower, hupper⟩ := hall value hvalue
    rcases hc with rfl | rfl
    · exact hlower
    · exact hupper

instance (c : Char) (value : Nat) : Decidable (HexDigit c value) :=
  decidable_of_iff _ digitValue?_eq_some_iff_hexDigit

/-! ### Numbers -/

/-- Whether `cs` are digits that continue the number `acc` to the number `n`. -/
def Continues (radix acc : Nat) (cs : List Char) (n : Nat) : Prop :=
  ∃ digits, List.Forall₂ (fun c d => digitValue? radix c = some d) cs digits ∧
    acc * radix ^ digits.length + Nat.ofDigits radix digits.reverse = n

/-- Whether `cs` are digits that write the number `n`, the most significant one first. -/
def Numeral (radix : Nat) (cs : List Char) (n : Nat) : Prop :=
  ∃ digits, List.Forall₂ (fun c d => digitValue? radix c = some d) cs digits ∧
    Nat.ofDigits radix digits.reverse = n

/-- A number is continued from nothing if its digits write it. -/
theorem continues_zero_iff : Continues radix 0 cs n ↔ Numeral radix cs n := by
  unfold Continues Numeral
  simp only [Nat.zero_mul, Nat.zero_add]

/-- Without more digits a number stays as it is. -/
theorem continues_nil_iff : Continues radix acc [] n ↔ acc = n := by
  simp [Continues]

/-- One more digit shifts what was read so far by one place. -/
theorem continues_cons_iff :
    Continues radix acc (c :: cs) n ↔
      ∃ d, digitValue? radix c = some d ∧ Continues radix (acc * radix + d) cs n := by
  have hshift : ∀ d (digits : List Nat),
      acc * radix ^ (d :: digits).length + Nat.ofDigits radix (d :: digits).reverse =
        (acc * radix + d) * radix ^ digits.length + Nat.ofDigits radix digits.reverse := by
    intro d digits
    rw [List.reverse_cons, Nat.ofDigits_append, Nat.ofDigits_singleton, List.length_cons,
      List.length_reverse, Nat.pow_succ]
    ring
  constructor
  · rintro ⟨values, hvalues, hn⟩
    obtain ⟨d, digits, hd, hdigits, rfl⟩ := List.forall₂_cons_left_iff.1 hvalues
    exact ⟨d, hd, digits, hdigits, (hshift d digits).symm.trans hn⟩
  · rintro ⟨d, hd, digits, hdigits, hn⟩
    exact ⟨d :: digits, .cons hd hdigits, (hshift d digits).trans hn⟩

/-- More digits never make a number smaller. -/
theorem Continues.le (h : Continues radix acc cs n) (hradix : 0 < radix) : acc ≤ n := by
  obtain ⟨digits, -, rfl⟩ := h
  have hplaces : 0 < radix ^ digits.length := Nat.pow_pos hradix
  exact Nat.le_trans (Nat.le_mul_of_pos_right acc hplaces) (Nat.le_add_right _ _)

/-- The bound is watched digit by digit, which comes to watching it at the end. -/
theorem accumulate_eq_ok_iff (hacc : acc < bound) :
    accumulate radix bound acc cs = .ok n ↔ Continues radix acc cs n ∧ n < bound := by
  induction cs generalizing acc with
  | nil =>
    rw [accumulate, continues_nil_iff, Except.ok.injEq]
    exact ⟨fun h => ⟨h, h ▸ hacc⟩, fun h => h.1⟩
  | cons c cs ih =>
    rw [accumulate, continues_cons_iff]
    rcases hc : digitValue? radix c with _ | d
    · simp
    · simp only [Option.some.injEq, exists_eq_left']
      split
      · next hroom => exact ih hroom
      · next hroom =>
        have hradix : 0 < radix := Nat.zero_lt_of_lt (digitValue?_lt hc)
        refine iff_of_false (fun h => nomatch h) fun ⟨hrest, hn⟩ => ?_
        exact hroom (Nat.lt_of_le_of_lt (hrest.le hradix) hn)

/-- What begins with a plus sign is no numeral. -/
theorem not_numeral_plus : ¬Numeral radix ('+' :: cs) n := by
  rw [← continues_zero_iff, continues_cons_iff, digitValue?_plus]
  rintro ⟨d, hd, -⟩
  cases hd

/-- **The numbers that are read.** They are the numerals below the bound that have at least one
digit, with one plus sign in front of them or none. -/
theorem number?_eq_ok_iff (hbound : 0 < bound) :
    number? radix bound cs = .ok n ↔
      ∃ digits, (cs = digits ∨ cs = '+' :: digits) ∧ digits ≠ [] ∧ Numeral radix digits n ∧
        n < bound := by
  have hread : ∀ digits, accumulate radix bound 0 digits = .ok n ↔
      Numeral radix digits n ∧ n < bound := fun digits => by
    rw [accumulate_eq_ok_iff hbound, continues_zero_iff]
  fun_cases number? radix bound cs with
  | case1 => simp
  | case2 =>
    refine iff_of_false (fun h => nomatch h) ?_
    rintro ⟨digits, rfl | hdigits, hsome, hnumeral, -⟩
    · exact not_numeral_plus hnumeral
    · cases hdigits
      exact hsome rfl
  | case3 cs hsome =>
    rw [hread]
    constructor
    · exact fun h => ⟨cs, .inr rfl, hsome, h⟩
    · rintro ⟨digits, rfl | hdigits, -, hnumeral⟩
      · exact absurd hnumeral.1 not_numeral_plus
      · cases hdigits
        exact hnumeral
  | case4 cs hsome hlone hplus =>
    rw [hread]
    constructor
    · exact fun h => ⟨cs, .inl rfl, hsome, h⟩
    · rintro ⟨digits, rfl | rfl, -, hnumeral⟩
      · exact hnumeral
      · exact absurd rfl (hplus digits)

/-! ### Bytes -/

/-- Each digit that is written is one of the list. -/
theorem hexDigit_mem {value : Nat} (h : value < 16) : hexDigit value ∈ hexDigits :=
  List.mem_of_getElem? (hexDigits_getElem? h)

/-- A byte is written with two of the digits, letters in lower case. -/
theorem hexByte_mem (byte : UInt8) :
    ∃ high ∈ hexDigits, ∃ low ∈ hexDigits, hexByte byte = [high, low] := by
  have hbyte := byte.toNat_lt
  exact ⟨_, hexDigit_mem (by omega), _, hexDigit_mem (by omega), rfl⟩

/-- Each two of the digits write a byte. -/
theorem exists_hexByte {high low : Char} (hhigh : high ∈ hexDigits) (hlow : low ∈ hexDigits) :
    ∃ byte, hexByte byte = [high, low] := by
  obtain ⟨x, hx, rfl⟩ := List.mem_iff_getElem.1 hhigh
  obtain ⟨y, hy, rfl⟩ := List.mem_iff_getElem.1 hlow
  have hdigit : ∀ (i : Nat) (h : i < hexDigits.length), hexDigits[i] = hexDigit i := fun i h =>
    (List.getElem?_eq_some_iff.1 (hexDigits_getElem? h)).2
  have hlength : hexDigits.length = 16 := rfl
  refine ⟨UInt8.ofNat (16 * x + y), ?_⟩
  rw [hexByte, hdigit x hx, hdigit y hy, UInt8.toNat_ofNat_of_lt' (by show _ < 256; omega)]
  congr 2
  · omega
  · congr 1
    omega

/-- A written byte is read back. -/
theorem number?_hexByte (byte : UInt8) : number? 16 256 (hexByte byte) = .ok byte.toNat := by
  have hbyte := byte.toNat_lt
  have hdigit : ∀ value < 16, digitValue? 16 (hexDigit value) = some value := fun value h =>
    digitValue?_eq_some_iff_hexDigit.2 (hexDigit_iff.2 ⟨h, .inl rfl⟩)
  rw [number?_eq_ok_iff (by decide)]
  refine ⟨_, .inl rfl, by simp [hexByte], ⟨[byte.toNat / 16, byte.toNat % 16],
    .cons (hdigit _ (by omega)) (.cons (hdigit _ (by omega)) .nil), ?_⟩, hbyte⟩
  simp only [List.reverse_cons, List.reverse_nil, List.nil_append, List.cons_append,
    Nat.ofDigits_cons, Nat.ofDigits_nil]
  omega

/-! ### Parts -/

/-- The parts of a text are those of the library. -/
theorem splitOn_eq (sep : Char) (cs : List Char) : splitOn sep cs = cs.splitOn sep := by
  induction cs with
  | nil => rfl
  | cons c cs ih =>
    have hsome := List.splitOn_ne_nil sep cs
    rw [splitOn, ih]
    unfold List.splitOn at hsome ⊢
    rw [List.splitOnP_cons_eq_if_modifyHead]
    obtain ⟨part, parts, hparts⟩ := List.exists_cons_of_ne_nil hsome
    rw [hparts]
    simp only [beq_iff_eq, List.modifyHead_cons]

end PathControl.Text
