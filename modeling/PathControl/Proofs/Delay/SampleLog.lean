import Mathlib.Data.List.Induction
import PathControl.Proofs.Delay.Trigger

/-!
# What a log of delay samples comes to

A sample is accepted when it is the first one or later than the one accepted last. The history of a
trigger is a function of the accepted samples, which are listed newest first here, so that a place
in a list says how many samples ago.

* `Charts ratio h taken`: all that the history `h` shows of the accepted samples `taken`.
* `Charts.extended`: a sample that follows goes on top, and shifts the rest by one place.
* `SwitchTrigger.feed_charts`: every sample that is fed is accepted or refused.
* `SwitchTrigger.observe_matches_log`: so an incoming sample is refused, or judged by what the log
  and the sample come to.

The ratio is any binary64 number: whatever the product with the range is converted to, the
threshold stays between the shortest and the longest delay (`threshold_eq_ok`).
-/

namespace PathControl.Delay

/-- A delay sample. -/
structure Sample where
  time : UInt64
  delay : UInt64
  deriving DecidableEq, Repr

/-- Whether a sample is accepted after the given ones, newest first. -/
def Sample.follows (s : Sample) (taken : List Sample) : Bool :=
  taken.head?.all fun last => last.time < s.time

/-- The accepted samples, newest first, after one more has come in. -/
def accept (taken : List Sample) (s : Sample) : List Sample :=
  if s.follows taken then s :: taken else taken

/-- The accepted samples of a log, newest first. -/
def accepted (log : List Sample) : List Sample := log.foldl accept []

/-- The gradient from one sample to the next. -/
def slope (before newest : Sample) : Float :=
  (newest.delay.toFloat - before.delay.toFloat) / (newest.time - before.time).toFloat

/-- The gradients that samples come to, newest first. -/
def gradients : List Sample → List Float
  | newest :: before :: older => slope before newest :: gradients (before :: older)
  | [_] | [] => []

/-- The time between the last two samples. -/
def lastInterval : List Sample → Int
  | newest :: before :: _ => newest.time.toNat - before.time.toNat
  | [_] | [] => 0

/-- What a history shows of its samples, newest first. Where there are too few, it shows zeros. -/
structure Charts (ratio : Float) (h : PathHealth) (taken : List Sample) : Prop where
  samples : h.samples.toNat = taken.length
  times : [h.time, h.time1] = (taken.map (·.time)).takeD 2 0
  elapsed : h.elapsed.toNat = lastInterval taken
  delays : [h.delay, h.delay1, h.delay2, h.delay3] = (taken.map (·.delay)).takeD 4 0
  slopes : [h.gradient, h.gradient1, h.gradient2, h.gradient3] = (gradients taken).takeD 4 0
  bounds : ∀ s ∈ taken, h.shortest ≤ s.delay ∧ s.delay ≤ h.longest
  attained : taken ≠ [] →
    (∃ s ∈ taken, s.delay = h.shortest) ∧ ∃ s ∈ taken, s.delay = h.longest
  threshold : Delay.threshold h.shortest h.longest ratio = .ok h.threshold

/-- A sample follows another one if it was sent later. -/
theorem Sample.follows_cons {s last : Sample} {older : List Sample} :
    s.follows (last :: older) = true ↔ last.time < s.time :=
  decide_eq_true_iff

/-- One more sample is accepted or not, by those accepted so far. -/
theorem accepted_concat (log : List Sample) (s : Sample) :
    accepted (log ++ [s]) = accept (accepted log) s := by
  simp [accepted]

/-- No sample that was accepted is forgotten. -/
theorem length_le_accept (taken : List Sample) (s : Sample) :
    taken.length ≤ (accept taken s).length := by
  unfold accept
  split
  · exact Nat.le_succ _
  · exact Nat.le_refl _

/-- If all delays are the same, this is the threshold. -/
theorem threshold_self (x : UInt64) (ratio : Float) : threshold x x ratio = .ok x := by
  obtain ⟨y, hy, hlow, hhigh⟩ := threshold_eq_ok (UInt64.le_refl x) ratio
  rw [hy, UInt64.le_antisymm hhigh hlow]

/-- Filling up a list to one place less drops its last place. -/
theorem dropLast_takeD {α : Type} (n : Nat) (l : List α) (missing : α) :
    (l.takeD (n + 1) missing).dropLast = l.takeD n missing := by
  induction n generalizing l with
  | zero => rfl
  | succ n ih =>
    show (l.headD missing :: l.tail.takeD (n + 1) missing).dropLast = l.headD missing :: _
    rw [← ih l.tail]
    rfl

/-- A value on top shifts the others by one place. -/
theorem shifted {α : Type} {n : Nat} {l values : List α} {missing oldest : α}
    (h : values ++ [oldest] = l.takeD (n + 1) missing) (newest : α) :
    newest :: values = (newest :: l).takeD (n + 1) missing := by
  have hvalues : values = l.takeD n missing := by
    rw [← dropLast_takeD, ← h, List.dropLast_concat]
  rw [hvalues]
  rfl

namespace Charts

variable {ratio : Float} {h : PathHealth} {taken older : List Sample} {last s : Sample}

/-- A trigger without samples charts none. -/
theorem empty (ratio : Float) : Charts ratio .empty [] where
  samples := rfl
  times := rfl
  elapsed := rfl
  delays := rfl
  slopes := rfl
  bounds _ hs := absurd hs List.not_mem_nil
  attained hne := absurd rfl hne
  threshold := threshold_self 0 ratio

/-- The first sample is all that there is to chart. -/
theorem seeded (ratio : Float) (s : Sample) :
    Charts ratio (SwitchTrigger.seeded s.time s.delay) [s] where
  samples := rfl
  times := rfl
  elapsed := rfl
  delays := rfl
  slopes := rfl
  bounds s' hs' := by
    obtain rfl := List.mem_singleton.1 hs'
    exact ⟨UInt64.le_refl _, UInt64.le_refl _⟩
  attained _ := ⟨⟨s, List.mem_singleton_self s, rfl⟩, s, List.mem_singleton_self s, rfl⟩
  threshold := threshold_self s.delay ratio

/-- The last time is that of the last sample. -/
theorem time_eq (h' : Charts ratio h (last :: older)) : h.time = last.time :=
  (List.cons.inj h'.times).1

/-- The last delay is that of the last sample. -/
theorem delay_eq (h' : Charts ratio h (last :: older)) : h.delay = last.delay :=
  (List.cons.inj h'.delays).1

/-- Once there is a sample, the threshold lies between the shortest and the longest delay. -/
theorem threshold_mem (h' : Charts ratio h taken) (hne : taken ≠ []) :
    h.shortest ≤ h.threshold ∧ h.threshold ≤ h.longest := by
  obtain ⟨s, hs⟩ := List.exists_mem_of_ne_nil taken hne
  obtain ⟨hlow, hhigh⟩ := h'.bounds s hs
  obtain ⟨x, hx, hrange⟩ := threshold_eq_ok (UInt64.le_trans hlow hhigh) ratio
  rw [h'.threshold, Except.ok.injEq] at hx
  rwa [hx]

/-- Once there is a sample, the count is not zero. -/
theorem samples_ne_zero (h' : Charts ratio h (last :: older)) : h.samples ≠ 0 := by
  intro hzero
  have hcount := h'.samples
  rw [hzero] at hcount
  exact absurd hcount.symm (Nat.succ_ne_zero _)

/-- A later sample goes on top. -/
theorem extended (h' : Charts ratio h (last :: older))
    (few : (last :: older).length + 1 < UInt64.size) (hlater : last.time < s.time) :
    ∃ health, SwitchTrigger.extended ratio h s.time s.delay = .ok health ∧
      Charts ratio health (s :: last :: older) := by
  have hle : h.time ≤ s.time := h'.time_eq ▸ UInt64.le_of_lt hlater
  have hsamples : h.samples.toNat + 1 < UInt64.size := by rwa [h'.samples]
  have hrange : min h.shortest s.delay ≤ max h.longest s.delay :=
    Std.le_trans Std.min_le_right Std.right_le_max
  obtain ⟨x, hthreshold, -⟩ := threshold_eq_ok hrange ratio
  obtain ⟨⟨a, ha, hshortest⟩, b, hb, hlongest⟩ := h'.attained (List.cons_ne_nil _ _)
  refine ⟨_, SwitchTrigger.extended_eq hsamples hle hthreshold, ?_⟩
  refine ⟨?_, shifted h'.times _, ?_, shifted h'.delays _, ?_, ?_, fun _ => ⟨?_, ?_⟩, hthreshold⟩
  · exact (Checked.toNat_sum64 hsamples).trans (congrArg (· + 1) h'.samples)
  · rw [UInt64.toNat_sub_of_le _ _ hle, h'.time_eq]
    exact Int.ofNat_sub (UInt64.le_iff_toNat_le.1 (UInt64.le_of_lt hlater))
  · rw [h'.time_eq, h'.delay_eq]
    exact shifted h'.slopes (slope last s)
  · rintro s' (_ | ⟨_, hs'⟩)
    · exact ⟨Std.min_le_right, Std.right_le_max⟩
    · obtain ⟨hlow, hhigh⟩ := h'.bounds s' hs'
      exact ⟨Std.le_trans Std.min_le_left hlow, Std.le_trans hhigh Std.left_le_max⟩
  · rcases Std.min_eq_or (a := h.shortest) (b := s.delay) with heq | heq
    · exact ⟨a, List.mem_cons_of_mem _ ha, hshortest.trans heq.symm⟩
    · exact ⟨s, List.mem_cons_self, heq.symm⟩
  · rcases Std.max_eq_or (a := h.longest) (b := s.delay) with heq | heq
    · exact ⟨b, List.mem_cons_of_mem _ hb, hlongest.trans heq.symm⟩
    · exact ⟨s, List.mem_cons_self, heq.symm⟩

end Charts

namespace SwitchTrigger

/-- The trigger after a log of samples, whether they were judged or refused. -/
def replay (ratio : Float) (log : List Sample) : Checked SwitchTrigger :=
  log.foldlM (fun t s => (t.observe s.time s.delay).map Prod.fst) (.new ratio)

/-- Replaying one more sample is replaying the others and observing it. -/
theorem replay_concat (ratio : Float) (log : List Sample) (s : Sample) :
    replay ratio (log ++ [s]) =
      replay ratio log >>= fun t => (t.observe s.time s.delay).map Prod.fst := by
  simp [replay]

variable {t : SwitchTrigger} {taken : List Sample} {s : Sample}

/-- A sample that is not later is refused. -/
theorem observe_of_not_follows (h : Charts t.ratio t.health taken)
    (hs : s.follows taken = false) :
    t.observe s.time s.delay =
      .ok (t, .error (.clockAnomaly (.notLater s.time t.health.time))) := by
  rcases taken with _ | ⟨last, older⟩
  · cases hs
  · have hlate : s.time ≤ t.health.time := by
      rw [h.time_eq, ← UInt64.not_lt]
      intro hlater
      rw [Sample.follows_cons.2 hlater] at hs
      cases hs
    unfold observe
    rw [if_neg h.samples_ne_zero, if_pos hlate]

/-- A sample that follows is judged, by force if it reaches the new threshold. -/
theorem observe_of_follows (h : Charts t.ratio t.health taken)
    (few : taken.length + 1 < UInt64.size) (hs : s.follows taken = true) :
    ∃ health trigger, t.observe s.time s.delay = .ok ({ t with health }, .ok trigger) ∧
      Charts t.ratio health (s :: taken) ∧ (taken = [] → trigger = .noAction) ∧
      (taken ≠ [] → (trigger = .forceSwitch ↔ health.threshold ≤ s.delay)) := by
  rcases taken with _ | ⟨last, older⟩
  · have hzero : t.health.samples = 0 := UInt64.toNat_inj.1 h.samples
    refine ⟨_, _, if_pos hzero, .seeded t.ratio s, fun _ => rfl, fun hne => absurd rfl hne⟩
  · have hlater := Sample.follows_cons.1 hs
    have hnot : ¬ s.time ≤ t.health.time := by rwa [h.time_eq, UInt64.not_le]
    obtain ⟨health, hextended, hcharts⟩ := h.extended few hlater
    obtain ⟨hlow, -⟩ := hcharts.threshold_mem (List.cons_ne_nil _ _)
    obtain ⟨trigger, hverdict, hforce⟩ := verdict_eq_ok hlow
    rw [hcharts.delay_eq] at hforce
    refine ⟨health, trigger, ?_, hcharts, nofun, fun _ => hforce⟩
    unfold observe
    rw [if_neg h.samples_ne_zero, if_neg hnot, hextended, Checked.ok_bind, hverdict]
    rfl

/-- The trigger after a log has seen what was accepted of it. -/
theorem replay_charts (ratio : Float) (log : List Sample)
    (few : (accepted log).length < UInt64.size) :
    ∃ t, replay ratio log = .ok t ∧ t.ratio = ratio ∧ Charts ratio t.health (accepted log) := by
  induction log using List.reverseRecOn with
  | nil => exact ⟨_, rfl, rfl, .empty ratio⟩
  | append_singleton log s ih =>
    rw [accepted_concat] at few ⊢
    obtain ⟨t, hreplay, rfl, hcharts⟩ := ih (Nat.lt_of_le_of_lt (length_le_accept _ s) few)
    rw [replay_concat, hreplay, Checked.ok_bind]
    unfold accept at few ⊢
    cases hs : s.follows (accepted log)
    · rw [observe_of_not_follows hcharts hs]
      exact ⟨t, rfl, rfl, hcharts⟩
    · rw [hs, if_pos rfl] at few
      obtain ⟨health, trigger, hobserve, hnext, -⟩ := observe_of_follows hcharts few hs
      rw [hobserve]
      exact ⟨_, rfl, rfl, hnext⟩

/-- One for a sample that is refused. -/
def refusal : Except Error Trigger → Nat
  | .ok _ => 0
  | .error _ => 1

/-- Feeds samples one by one. The answer counts those that are refused. -/
def feed (t : SwitchTrigger) : List Sample → Checked (SwitchTrigger × Nat)
  | [] => .ok (t, 0)
  | s :: log => do
    let (t, answer) ← t.observe s.time s.delay
    let (t, refused) ← t.feed log
    return (t, refusal answer + refused)

/-- Samples may be fed in two goes, whose refusals add up. -/
theorem feed_append {t₁ t₂ : SwitchTrigger} {log later : List Sample} {n m : Nat}
    (h : t.feed log = .ok (t₁, n)) (h' : t₁.feed later = .ok (t₂, m)) :
    t.feed (log ++ later) = .ok (t₂, n + m) := by
  induction log generalizing t n with
  | nil =>
    cases h
    rw [List.nil_append, h', Nat.zero_add]
  | cons s log ih =>
    obtain ⟨⟨t', answer⟩, hobserve, h⟩ := Checked.bind_eq_ok_iff.1 h
    obtain ⟨⟨t'', refused⟩, hlog, h⟩ := Checked.bind_eq_ok_iff.1 h
    cases h
    rw [List.cons_append, feed, hobserve, Checked.ok_bind]
    dsimp only
    rw [ih hlog, Checked.ok_bind, Nat.add_assoc]
    rfl

/-- A sample that follows is judged only if it can be counted. -/
theorem few_of_observe {t' : SwitchTrigger} {answer : Except Error Trigger}
    (h : Charts t.ratio t.health taken) (hs : s.follows taken = true)
    (hobserve : t.observe s.time s.delay = .ok (t', answer)) :
    taken.length + 1 < UInt64.size := by
  rcases taken with _ | ⟨last, older⟩
  · decide
  · have hnot : ¬ s.time ≤ t.health.time := by
      rw [h.time_eq, UInt64.not_le]
      exact Sample.follows_cons.1 hs
    unfold observe at hobserve
    rw [if_neg h.samples_ne_zero, if_neg hnot] at hobserve
    obtain ⟨health, hextended, -⟩ := Checked.bind_eq_ok_iff.1 hobserve
    obtain ⟨samples, hsamples, -⟩ := Checked.bind_eq_ok_iff.1 hextended
    have few := (Checked.add64_eq_ok_iff.1 hsamples).1
    rwa [h.samples] at few

/-- Every sample that is fed is accepted or refused. -/
theorem feed_charts {t' : SwitchTrigger} {log : List Sample} {refused : Nat}
    (h : Charts t.ratio t.health taken) (hfeed : t.feed log = .ok (t', refused)) :
    t'.ratio = t.ratio ∧ Charts t'.ratio t'.health (log.foldl accept taken) ∧
      refused + (log.foldl accept taken).length = taken.length + log.length := by
  induction log generalizing t taken refused with
  | nil =>
    cases hfeed
    exact ⟨rfl, h, Nat.zero_add _⟩
  | cons s log ih =>
    obtain ⟨⟨t₁, answer⟩, hobserve, hfeed⟩ := Checked.bind_eq_ok_iff.1 hfeed
    obtain ⟨⟨t₂, later⟩, hlater, hfeed⟩ := Checked.bind_eq_ok_iff.1 hfeed
    cases hfeed
    rw [List.foldl_cons, List.length_cons]
    cases hs : s.follows taken
    · have hkept : accept taken s = taken := if_neg (by simp [hs])
      rw [observe_of_not_follows h hs] at hobserve
      cases hobserve
      obtain ⟨hratio, hcharts, hcount⟩ := ih h hlater
      rw [hkept]
      refine ⟨hratio, hcharts, ?_⟩
      simp only [refusal]
      omega
    · have htaken : accept taken s = s :: taken := if_pos hs
      obtain ⟨health, trigger, hjudged, hnext, -⟩ :=
        observe_of_follows h (few_of_observe h hs hobserve) hs
      rw [hjudged] at hobserve
      cases hobserve
      obtain ⟨hratio, hcharts, hcount⟩ := ih hnext hlater
      rw [htaken]
      refine ⟨hratio, hcharts, ?_⟩
      rw [List.length_cons] at hcount
      simp only [refusal]
      omega

/-- **A trigger judges by its log of samples.** Whatever the ratio and the samples, the history
shows the accepted ones as `Charts` says. A sample that is not later than the one accepted last is
refused, and changes nothing. One that is later goes on top, with a threshold between the shortest
and the longest delay: the very first sample asks for nothing, and after that a switch is forced
exactly by a delay that reaches the new threshold, and so by one that no accepted delay exceeds. -/
theorem observe_matches_log (ratio : Float) (log : List Sample) (s : Sample)
    (few : (accepted log).length + 1 < UInt64.size) :
    ∃ t, replay ratio log = .ok t ∧ Charts ratio t.health (accepted log) ∧
      (s.follows (accepted log) = false →
        t.observe s.time s.delay =
          .ok (t, .error (.clockAnomaly (.notLater s.time t.health.time)))) ∧
      (s.follows (accepted log) = true →
        ∃ t' trigger, t.observe s.time s.delay = .ok (t', .ok trigger) ∧
          Charts ratio t'.health (s :: accepted log) ∧
          t'.health.shortest ≤ t'.health.threshold ∧ t'.health.threshold ≤ t'.health.longest ∧
          (accepted log = [] → trigger = .noAction) ∧
          (accepted log ≠ [] → (trigger = .forceSwitch ↔ t'.health.threshold ≤ s.delay) ∧
            ((∀ a ∈ accepted log, a.delay ≤ s.delay) → trigger = .forceSwitch))) := by
  obtain ⟨t, hreplay, rfl, hcharts⟩ := replay_charts ratio log (Nat.lt_of_succ_lt few)
  refine ⟨t, hreplay, hcharts, observe_of_not_follows hcharts, fun hs => ?_⟩
  obtain ⟨health, trigger, hobserve, hnext, hfirst, hforce⟩ := observe_of_follows hcharts few hs
  obtain ⟨hlow, hhigh⟩ := hnext.threshold_mem (List.cons_ne_nil _ _)
  refine ⟨_, trigger, hobserve, hnext, hlow, hhigh, hfirst, fun hne => ⟨hforce hne, ?_⟩⟩
  intro hmax
  obtain ⟨b, hb, hlongest⟩ := (hnext.attained (List.cons_ne_nil _ _)).2
  have hb : b.delay ≤ s.delay := by
    rcases List.mem_cons.1 hb with rfl | hb
    · exact UInt64.le_refl _
    · exact hmax b hb
  exact (hforce hne).2 (UInt64.le_trans hhigh (hlongest ▸ hb))

/-- A ratio that is not a number: a sample at the time of the one before it is refused, and one that
equals the longest delay forces a switch. -/
theorem longest_delay_forces :
    (accepted [⟨10, 5⟩, ⟨10, 7⟩, ⟨20, 9⟩]).length + 1 < UInt64.size ∧
      ∃ t t', replay (0 / 0) [⟨10, 5⟩, ⟨10, 7⟩, ⟨20, 9⟩] = .ok t ∧
        t.observe 20 9 = .ok (t, .error (.clockAnomaly (.notLater 20 t.health.time))) ∧
        t.observe 30 9 = .ok (t', .ok .forceSwitch) ∧ t'.health.samples.toNat = 3 ∧
        [t'.health.delay, t'.health.delay1, t'.health.delay2, t'.health.delay3] = [9, 9, 5, 0] ∧
        t'.health.elapsed.toNat = 10 := by
  have few : (accepted [⟨10, 5⟩, ⟨10, 7⟩, ⟨20, 9⟩]).length + 1 < UInt64.size := by decide
  obtain ⟨t, hreplay, -, hrefused, -⟩ := observe_matches_log (0 / 0) _ ⟨20, 9⟩ few
  obtain ⟨t₂, hreplay₂, -, -, hjudged⟩ := observe_matches_log (0 / 0) _ ⟨30, 9⟩ few
  obtain rfl : t = t₂ := Except.ok.inj (hreplay.symm.trans hreplay₂)
  obtain ⟨t', trigger, hobserve, hcharts, -, -, -, hforce⟩ := hjudged (by decide)
  obtain rfl := (hforce (by decide)).2 (by decide)
  exact ⟨few, t, t', hreplay, hrefused (by decide), hobserve, hcharts.samples, hcharts.delays,
    Int.ofNat_inj.1 hcharts.elapsed⟩

end SwitchTrigger

end PathControl.Delay
