import PathControl.Proofs.Wire.Checksum

/-!
# The checksum as a residue

An Internet checksum depends on its data only through the total of their 16-bit words, and on the
total only through its residue modulo 65535, with zero kept apart from the other multiples.

* `words`, `total`: the words of some bytes, and what they sum up to behind an initial value.
* `Folds`: the loop that folds carries back, in words of 32 bits. `exists_folds`: it ends without a
  fault, with what `foldCarries` leaves. `internetChecksum_eq_complement`: the checksum is the
  complement of that.
* `residue_eq_iff`: which totals have the same checksum.
* `internetChecksum_closed_form`: the checksum by its residue, and what follows for data that are
  continued, permuted or changed in a word. `internetChecksum_of_overflow`: a larger total faults.
-/

namespace PathControl.Wire

variable {initial : UInt32} {bs cs : Bytes}

/-! ### Words -/

/-- The 16-bit words of `bs`, the more significant byte first. Behind a last odd byte stands a
zero. -/
def words : Bytes → List UInt16
  | [] => []
  | [last] => [UInt16.ofNat (last.toNat * 256)]
  | high :: low :: rest => UInt16.ofNat (high.toNat * 256 + low.toNat) :: words rest

/-- What some words sum up to. -/
def sumOf : List UInt16 → Nat
  | [] => 0
  | w :: ws => w.toNat + sumOf ws

/-- What a checksum is made of: the initial value and all words. -/
def total (initial : UInt32) (bs : Bytes) : Nat := initial.toNat + sumOf (words bs)

/-- A number that fits 16 bits is that of its word. The bound is written out, as `omega` does not
look into `UInt16.size`. -/
theorem toNat_wordOf {n : Nat} (h : n < 0x1_0000) : (UInt16.ofNat n).toNat = n :=
  UInt16.toNat_ofNat_of_lt' h

/-- The sum over bytes is the one over their words. -/
theorem wordSum_eq_sumOf (bs : Bytes) : wordSum bs = sumOf (words bs) := by
  fun_induction wordSum bs with
  | case1 => rfl
  | case2 last =>
    have hlast := last.toNat_lt
    rw [words, sumOf, sumOf, toNat_wordOf (by omega), Nat.add_zero]
  | case3 high low rest ih =>
    have hhigh := high.toNat_lt
    have hlow := low.toNat_lt
    rw [words, sumOf, toNat_wordOf (by omega), ih]

/-- So the total is what the checksum sums up. -/
theorem total_eq (initial : UInt32) (bs : Bytes) :
    total initial bs = initial.toNat + wordSum bs := by
  rw [total, wordSum_eq_sumOf]

/-- Words in another order sum up to the same. -/
theorem sumOf_eq_of_perm {ws ws' : List UInt16} (h : ws.Perm ws') : sumOf ws = sumOf ws' := by
  induction h with
  | nil => rfl
  | cons w _ ih => rw [sumOf, sumOf, ih]
  | swap v w ws => exact Nat.add_left_comm _ _ _
  | trans _ _ ih ih' => exact ih.trans ih'

/-- The order of the words does not matter. -/
theorem total_eq_of_perm (initial : UInt32) (h : (words cs).Perm (words bs)) :
    total initial cs = total initial bs := by
  rw [total, sumOf_eq_of_perm h, total]

/-- Replacing a word moves the sum by the difference of the two. -/
theorem sumOf_set {ws : List UInt16} {i : Nat} (hi : i < ws.length) (w : UInt16) :
    sumOf (ws.set i w) + ws[i].toNat = sumOf ws + w.toNat := by
  induction ws generalizing i with
  | nil => cases hi
  | cons first ws ih =>
    cases i with
    | zero =>
      rw [List.set_cons_zero, List.getElem_cons_zero, sumOf, sumOf]
      omega
    | succ i =>
      have hrest := ih (Nat.lt_of_succ_lt_succ hi)
      rw [List.set_cons_succ, List.getElem_cons_succ, sumOf, sumOf]
      omega

/-- A word that stands in for another one moves the total by their difference. -/
theorem total_of_set {i : Nat} (hi : i < (words bs).length) {w : UInt16}
    (h : words cs = (words bs).set i w) :
    total initial cs + (words bs)[i].toNat = total initial bs + w.toNat := by
  have hset := sumOf_set hi w
  unfold total
  rw [h]
  omega

/-! ### Sums in 32 bits -/

/-- A sum that leaves its word faults, wherever on the way that happens. -/
theorem sumWords_of_overflow {sum : Nat} (hsum : sum < UInt32.size)
    (h : UInt32.size ≤ sum + wordSum bs) : sumWords sum bs = .error .overflow := by
  fun_induction sumWords sum bs with
  | case1 sum =>
    rw [wordSum] at h
    omega
  | case2 sum last =>
    rw [wordSum] at h
    exact if_neg (Nat.not_lt.2 h)
  | case3 sum high low rest next hfit ih =>
    obtain ⟨hnext, rfl⟩ := Checked.fit_eq_ok_iff.1 hfit
    rw [wordSum] at h
    exact ih hnext (by omega)
  | case4 sum high low rest fault hfit =>
    unfold Checked.fit at hfit
    split at hfit
    · cases hfit
    · exact hfit.symm

/-- A total that does not fit 32 bits faults. -/
theorem internetChecksum_of_overflow (h : UInt32.size ≤ total initial bs) :
    internetChecksum initial bs = .error .overflow := by
  rw [total_eq] at h
  rw [internetChecksum, sumWords_of_overflow initial.toNat_lt h]
  rfl

/-! ### Carries in 32 bits -/

/-- One round of folding: the carries, which are the upper half of the sum, are added to its lower
half. -/
def foldOnce (sum : UInt32) : Checked UInt32 := Checked.add32 (sum &&& 0xFFFF) (sum >>> 16)

/-- The loop that folds carries back until there are none: from a first sum it comes to a last one,
with no fault on the way. -/
inductive Folds : UInt32 → UInt32 → Prop where
  | done {sum : UInt32} : sum >>> 16 = 0 → Folds sum sum
  | round {sum next folded : UInt32} :
      sum >>> 16 ≠ 0 → foldOnce sum = .ok next → Folds next folded → Folds sum folded

/-- The upper half of a sum is its quotient by 65536. -/
theorem toNat_carries (sum : UInt32) : (sum >>> 16).toNat = sum.toNat / 0x1_0000 := by
  rw [UInt32.toNat_shiftRight, Nat.shiftRight_eq_div_pow]
  rfl

/-- The lower half of a sum is its remainder modulo 65536. -/
theorem toNat_lower (sum : UInt32) : (sum &&& 0xFFFF).toNat = sum.toNat % 0x1_0000 := by
  rw [UInt32.toNat_and]
  exact Nat.and_two_pow_sub_one_eq_mod sum.toNat 16

/-- There are no carries exactly if the sum fits 16 bits. -/
theorem carries_eq_zero_iff {sum : UInt32} : sum >>> 16 = 0 ↔ sum.toNat < 0x1_0000 := by
  rw [← UInt32.toNat_inj, toNat_carries]
  show _ = 0 ↔ _
  omega

/-- A round never faults: two halves fit the word. -/
theorem foldOnce_succeeds (sum : UInt32) :
    ∃ next, foldOnce sum = .ok next ∧
      next.toNat = sum.toNat % 0x1_0000 + sum.toNat / 0x1_0000 := by
  have hsum := sum.toNat_lt
  have hfits : (sum &&& 0xFFFF).toNat + (sum >>> 16).toNat < UInt32.size := by
    rw [toNat_lower, toNat_carries]
    show _ < 0x1_0000_0000
    omega
  refine ⟨_, if_pos hfits, ?_⟩
  rw [Checked.toNat_sum32 hfits, toNat_lower, toNat_carries]

/-- The loop ends, and leaves what folding leaves of a natural number. -/
theorem exists_folds (sum : UInt32) :
    ∃ folded, Folds sum folded ∧ folded.toNat = foldCarries sum.toNat := by
  generalize hn : sum.toNat = n
  fun_induction foldCarries n generalizing sum with
  | case1 n h => exact ⟨sum, .done (carries_eq_zero_iff.2 (hn ▸ h)), hn⟩
  | case2 n h ih =>
    obtain ⟨next, hnext, htoNat⟩ := foldOnce_succeeds sum
    rw [hn] at htoNat
    obtain ⟨folded, hfolds, hfolded⟩ := ih next htoNat
    exact ⟨folded, .round (mt carries_eq_zero_iff.1 (hn ▸ h)) hnext hfolds, hfolded⟩

/-- The complement of what the loop leaves is what is missing to all ones. -/
theorem toNat_complement {folded : UInt32} (h : folded.toNat < 0x1_0000) :
    (~~~folded.toUInt16).toNat = 0xFFFF - folded.toNat := by
  rw [UInt16.toNat_not, UInt32.toNat_toUInt16, Nat.mod_eq_of_lt h]
  rfl

/-! ### Residues -/

/-- What is left of a total modulo 65535. For the multiples of 65535 that is 65535, and 0 only for
0. -/
def residue (sum : Nat) : Nat := if sum = 0 then 0 else (sum - 1) % 0xFFFF + 1

/-- Folding all carries leaves the residue. -/
theorem foldCarries_eq_residue (sum : Nat) : foldCarries sum = residue sum := foldCarries_eq sum

/-- A residue fits 16 bits. -/
theorem residue_le (sum : Nat) : residue sum ≤ 0xFFFF := by
  unfold residue
  split <;> omega

/-- Two totals have the same residue exactly if they are congruent and only both zero if at all. -/
theorem residue_eq_iff {m n : Nat} :
    residue m = residue n ↔ m % 0xFFFF = n % 0xFFFF ∧ (m ≠ 0 ∧ n ≠ 0 ∨ m = n) := by
  unfold residue
  split <;> split <;> omega

/-- The checksum of a total that fits is what is missing from its residue to all ones. -/
theorem internetChecksum_eq_residue (h : total initial bs < UInt32.size) :
    internetChecksum initial bs = .ok (UInt16.ofNat (0xFFFF - residue (total initial bs))) := by
  rw [total_eq] at h ⊢
  rw [internetChecksum_eq h, checksum, foldCarries_eq_residue]

/-- The checksum in words: the carries of the total are folded back, and the lower half of what is
left is complemented. -/
theorem internetChecksum_eq_complement (h : total initial bs < UInt32.size) :
    ∃ folded, Folds (.ofNat (total initial bs)) folded ∧
      folded.toNat = residue (total initial bs) ∧
      internetChecksum initial bs = .ok (~~~folded.toUInt16) := by
  obtain ⟨folded, hfolds, hfolded⟩ := exists_folds (.ofNat (total initial bs))
  rw [UInt32.toNat_ofNat_of_lt' h, foldCarries_eq_residue] at hfolded
  have hle := residue_le (total initial bs)
  refine ⟨folded, hfolds, hfolded, ?_⟩
  rw [internetChecksum_eq_residue h, Except.ok.injEq, ← UInt16.toNat_inj,
    toNat_complement (by omega), hfolded]
  exact toNat_wordOf (by omega)

/-- Other bytes have the checksum of bytes whose total fits exactly if their total fits as well and
has the same residue. -/
theorem internetChecksum_eq_iff (h : total initial bs < UInt32.size) :
    internetChecksum initial cs = internetChecksum initial bs ↔
      total initial cs < UInt32.size ∧ residue (total initial cs) = residue (total initial bs) := by
  rw [internetChecksum_eq_residue h]
  by_cases h' : total initial cs < UInt32.size
  · have hle := residue_le (total initial bs)
    have hle' := residue_le (total initial cs)
    rw [and_iff_right h', internetChecksum_eq_residue h', Except.ok.injEq, ← UInt16.toNat_inj,
      toNat_wordOf (by omega), toNat_wordOf (by omega)]
    omega
  · rw [internetChecksum_of_overflow (Nat.le_of_not_lt h')]
    exact iff_of_false (fun hfault => nomatch hfault) fun hfit => h' hfit.1

/-- Behind an even number of bytes a checksum goes on from their partial sum. -/
theorem internetChecksum_append {front : Bytes} (back : Bytes) (hfront : front.length % 2 = 0)
    (h : total initial (front ++ back) < UInt32.size) :
    ∃ part : UInt32, sumWords initial.toNat front = .ok part.toNat ∧
      internetChecksum part back = internetChecksum initial (front ++ back) := by
  rw [total_eq, wordSum_append hfront] at h
  have hpart : initial.toNat + wordSum front < UInt32.size := by omega
  have htoNat := UInt32.toNat_ofNat_of_lt' hpart
  refine ⟨.ofNat (initial.toNat + wordSum front), ?_, ?_⟩
  · rw [htoNat, sumWords_eq hpart]
  · rw [internetChecksum_eq (by rw [htoNat]; omega),
      internetChecksum_eq (by rw [wordSum_append hfront]; exact h), htoNat, checksum_append hfront]

/-- **The checksum in closed form.** Let an initial value and all words of some bytes have a total
that fits 32 bits. The carries of the total can be folded back without a fault, and leave its
residue; the checksum is what is missing from that to all ones.

* The bytes behind a front part of even length can be summed on from the partial sum of that part.
* Bytes with the same words in another order have the same checksum.
* If one word is replaced, the total moves by the difference. The checksum stays the same exactly if
  the new total fits as well and both totals are congruent modulo 65535 and not zero, or equal. -/
theorem internetChecksum_closed_form (initial : UInt32) (bs : Bytes)
    (h : total initial bs < UInt32.size) :
    (∃ folded, Folds (.ofNat (total initial bs)) folded ∧
        folded.toNat = residue (total initial bs) ∧
        internetChecksum initial bs = .ok (~~~folded.toUInt16) ∧
        (~~~folded.toUInt16).toNat = 65535 - residue (total initial bs)) ∧
      (∀ front back, bs = front ++ back → front.length % 2 = 0 →
        ∃ part : UInt32, sumWords initial.toNat front = .ok part.toNat ∧
          internetChecksum part back = internetChecksum initial bs) ∧
      (∀ cs, (words cs).Perm (words bs) →
        internetChecksum initial cs = internetChecksum initial bs) ∧
      ∀ i w cs, (hi : i < (words bs).length) → words cs = (words bs).set i w →
        total initial cs + (words bs)[i].toNat = total initial bs + w.toNat ∧
          (internetChecksum initial cs = internetChecksum initial bs ↔
            total initial cs < UInt32.size ∧
              total initial cs % 65535 = total initial bs % 65535 ∧
              (total initial cs ≠ 0 ∧ total initial bs ≠ 0 ∨
                total initial cs = total initial bs)) := by
  refine ⟨?_, ?_, fun cs hperm => ?_, fun i w cs hi hset => ⟨total_of_set hi hset, ?_⟩⟩
  · obtain ⟨folded, hfolds, hfolded, hchecksum⟩ := internetChecksum_eq_complement h
    have hle := residue_le (total initial bs)
    exact ⟨folded, hfolds, hfolded, hchecksum, hfolded ▸ toNat_complement (by omega)⟩
  · rintro front back rfl hfront
    exact internetChecksum_append back hfront h
  · have htotal := total_eq_of_perm initial hperm
    rw [internetChecksum_eq_iff h, htotal]
    exact ⟨h, rfl⟩
  · rw [internetChecksum_eq_iff h, residue_eq_iff]

/-- Five bytes behind a large initial value, whose carries take two rounds. Going on behind the
first word gives the same checksum, and so do the words in another order, the last one with its
zero. A word that is larger by one gives another checksum. -/
theorem folded_in_two_rounds :
    let bs : Bytes := [0x00, 0x01, 0xf2, 0x03, 0xf4]
    total 0xfffe0000 bs = 0xffffe604 ∧ internetChecksum 0xfffe0000 bs = .ok 0x19fb ∧
      (∃ part : UInt32, sumWords 0xfffe0000 [0x00, 0x01] = .ok part.toNat ∧
        internetChecksum part [0xf2, 0x03, 0xf4] = .ok 0x19fb) ∧
      internetChecksum 0xfffe0000 [0xf4, 0x00, 0xf2, 0x03, 0x00, 0x01] = .ok 0x19fb ∧
      internetChecksum 0xfffe0000 [0x00, 0x01, 0xf2, 0x04, 0xf4] ≠ .ok 0x19fb := by
  intro bs
  obtain ⟨⟨folded, -, -, hcomplement, hvalue⟩, hfront, hperm, hset⟩ :=
    internetChecksum_closed_form 0xfffe0000 bs (by decide)
  have hchecksum : internetChecksum 0xfffe0000 bs = .ok 0x19fb := by
    rw [hcomplement, UInt16.toNat_inj.1 (hvalue.trans (by decide) : _ = (0x19fb : UInt16).toNat)]
  obtain ⟨part, hpart, hback⟩ := hfront [0x00, 0x01] [0xf2, 0x03, 0xf4] rfl rfl
  obtain ⟨-, hsame⟩ := hset 1 0xf204 [0x00, 0x01, 0xf2, 0x04, 0xf4] (by decide) rfl
  refine ⟨by decide, hchecksum, ⟨part, hpart, hback.trans hchecksum⟩,
    (hperm _ (by decide)).trans hchecksum, fun h => ?_⟩
  exact absurd (hsame.1 (h.trans hchecksum.symm)) (by decide)

end PathControl.Wire
