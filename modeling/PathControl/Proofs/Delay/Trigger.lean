import PathControl.Delay.Trigger

/-!
# Delay samples are always judged

The differences that a sample is judged by never leave their words, whatever delays and times come
in and whatever the ratio makes of them in floating point.

* `threshold_eq_ok`: the threshold lies in the range of delays.
* `SwitchTrigger.extended_eq_ok`, `SwitchTrigger.verdict_eq_ok`: a sample that moves time forward
  goes into the history, and the margin below the new threshold can be formed.
* `SwitchTrigger.observe_eq_ok`: so a sample is judged as long as samples can be counted.
-/

namespace PathControl.Delay

instance lawfulOrderLeftLeaningMax : Std.LawfulOrderLeftLeaningMax UInt64 where
  max_eq_left a b h := by
    show (if a ≤ b then b else a) = a
    split
    · next h' => exact UInt64.le_antisymm h h'
    · rfl
  max_eq_right a b h := if_pos (UInt64.le_of_lt (UInt64.not_le.1 h))

/-- The margin of the threshold never exceeds the range of the delays. -/
theorem thresholdMargin_le (ratio : Float) (range : UInt64) :
    thresholdMargin ratio range ≤ range :=
  Std.min_le_right

/-- The threshold lies in the range of delays. -/
theorem threshold_eq_ok {shortest longest : UInt64} (h : shortest ≤ longest) (ratio : Float) :
    ∃ x, threshold shortest longest ratio = .ok x ∧ shortest ≤ x ∧ x ≤ longest := by
  have hmargin := UInt64.le_iff_toNat_le.1 (thresholdMargin_le ratio (longest - shortest))
  rw [UInt64.toNat_sub_of_le _ _ h] at hmargin
  have hle := UInt64.le_iff_toNat_le.1 h
  have hroom : shortest.toNat + (thresholdMargin ratio (longest - shortest)).toNat <
      UInt64.size := by
    have hlongest := longest.toNat_lt_size
    omega
  have hsum := Checked.toNat_sum64 hroom
  refine ⟨shortest + thresholdMargin ratio (longest - shortest), ?_, ?_, ?_⟩
  · unfold threshold Checked.sub64
    rw [if_pos h, Checked.ok_bind]
    exact Checked.add64_eq_ok_iff.2 ⟨hroom, rfl⟩
  · rw [UInt64.le_iff_toNat_le, hsum]
    exact Nat.le_add_right _ _
  · rw [UInt64.le_iff_toNat_le, hsum]
    omega

namespace SwitchTrigger

variable {h : PathHealth} {time delay : UInt64}

/-- A sample that moves time forward goes into the history. -/
theorem extended_eq (hsamples : h.samples.toNat + 1 < UInt64.size) (htime : h.time ≤ time)
    {ratio : Float} {delay x : UInt64}
    (hthreshold : threshold (min h.shortest delay) (max h.longest delay) ratio = .ok x) :
    extended ratio h time delay = .ok {
      samples := h.samples + 1, time, time1 := h.time, elapsed := time - h.time
      delay, delay1 := h.delay, delay2 := h.delay1, delay3 := h.delay2
      gradient := (delay.toFloat - h.delay.toFloat) / (time - h.time).toFloat
      gradient1 := h.gradient, gradient2 := h.gradient1, gradient3 := h.gradient2
      longest := max h.longest delay, shortest := min h.shortest delay, threshold := x } := by
  have hcount : Checked.add64 h.samples 1 = .ok (h.samples + 1) :=
    Checked.add64_eq_ok_iff.2 ⟨hsamples, rfl⟩
  have helapsed : Checked.sub64 time h.time = .ok (time - h.time) := if_pos htime
  unfold extended
  rw [hcount, Checked.ok_bind, helapsed, Checked.ok_bind]
  dsimp only
  rw [hthreshold, Checked.ok_bind]
  rfl

/-- The new threshold lies in the new range of delays. -/
theorem extended_eq_ok (hsamples : h.samples.toNat + 1 < UInt64.size) (htime : h.time < time)
    (ratio : Float) (delay : UInt64) :
    ∃ h', extended ratio h time delay = .ok h' ∧ h'.samples.toNat = h.samples.toNat + 1 ∧
      h'.shortest ≤ h'.threshold ∧ h'.threshold ≤ h'.longest := by
  have hrange : min h.shortest delay ≤ max h.longest delay :=
    Std.le_trans Std.min_le_right Std.right_le_max
  obtain ⟨x, hthreshold, hlow, hhigh⟩ := threshold_eq_ok hrange ratio
  exact ⟨_, extended_eq hsamples (UInt64.le_of_lt htime) hthreshold, Checked.toNat_sum64 hsamples,
    hlow, hhigh⟩

/-- The newest sample is judged once the threshold is no less than the shortest delay, and forces a
switch if it reaches the threshold. -/
theorem verdict_eq_ok (hrange : h.shortest ≤ h.threshold) :
    ∃ trigger, verdict h = .ok trigger ∧ (trigger = .forceSwitch ↔ h.threshold ≤ h.delay) := by
  have hmargin : Checked.sub64 h.threshold h.shortest = .ok (h.threshold - h.shortest) :=
    if_pos hrange
  unfold verdict
  rw [hmargin, Checked.ok_bind]
  dsimp only
  split
  · next hreached => exact ⟨_, rfl, iff_of_true rfl hreached⟩
  · next hbelow =>
    split
    · exact ⟨_, rfl, iff_of_false nofun hbelow⟩
    · exact ⟨_, rfl, iff_of_false nofun hbelow⟩

/-- A sample is judged or refused, and counted at most once. -/
theorem observe_eq_ok (t : SwitchTrigger) (hsamples : t.health.samples.toNat + 1 < UInt64.size)
    (time delay : UInt64) :
    ∃ t' answer, t.observe time delay = .ok (t', answer) ∧
      t'.health.samples.toNat ≤ t.health.samples.toNat + 1 := by
  unfold observe
  split
  · exact ⟨_, _, rfl, Nat.le_add_left _ _⟩
  · split
    · exact ⟨_, _, rfl, Nat.le_succ _⟩
    · next hlate =>
      obtain ⟨health, hextended, hcount, hrange, -⟩ :=
        extended_eq_ok hsamples (UInt64.not_le.1 hlate) t.ratio delay
      obtain ⟨trigger, hverdict, -⟩ := verdict_eq_ok hrange
      rw [hextended, Checked.ok_bind, hverdict]
      exact ⟨_, _, rfl, Nat.le_of_eq hcount⟩

end SwitchTrigger

end PathControl.Delay
