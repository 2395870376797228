import Mathlib.Data.List.Nodup
import PathControl.Negotiation.TimerWheel

/-!
# The two indexes of a timer wheel

* `TimerWheel.Sound`: both indexes of a wheel hold the same timers, no handle twice and none that
  was not given out, and the first index is in order of deadlines.
* `sound_empty`, `Sound.armed`, `Sound.without`, `Sound.pollExpired`: every wheel is sound.
* `TimerWheel.timers` is the view that the operations are described by: `perm_timers_armed`,
  `timers_without` and `pollExpired_append` say what each of them does to it, and
  `Sound.pollExpired_eq` that polling reports the timers whose deadline has come.
-/

namespace PathControl.Negotiation

namespace TimerEntry

/-- Timers are in the order of their deadlines, and in the order of their handles where those agree.
-/
theorem before_iff {x y : TimerEntry} :
    x.before y = true ↔
      x.deadline < y.deadline ∨ x.deadline = y.deadline ∧ x.handle.id < y.handle.id := by
  simp [before]

/-- The order of timers is transitive. -/
theorem before_trans {x y z : TimerEntry} (hxy : x.before y = true) (hyz : y.before z = true) :
    x.before z = true := by
  rw [before_iff] at *
  simp only [UInt64.lt_iff_toNat_lt, ← UInt64.toNat_inj] at *
  omega

/-- Entries of different handles are comparable. -/
theorem before_of_not_before {x y : TimerEntry} (hne : x.handle ≠ y.handle)
    (h : ¬ x.before y = true) : y.before x = true := by
  have hid : x.handle.id ≠ y.handle.id := fun e => hne (congrArg TimerHandle.mk e)
  rw [before_iff] at *
  simp only [UInt64.lt_iff_toNat_lt, ← UInt64.toNat_inj, ne_eq] at *
  omega

/-- A timer that comes before another one falls due no later. -/
theorem deadline_le_of_before {x y : TimerEntry} (h : x.before y = true) :
    x.deadline ≤ y.deadline := by
  rw [before_iff] at h
  rw [UInt64.le_iff_toNat_le]
  simp only [UInt64.lt_iff_toNat_lt, ← UInt64.toNat_inj] at h
  omega

end TimerEntry

namespace TimerWheel

/-- The timers of a wheel in the order in which they fall due, with what they are for. -/
def timers (w : TimerWheel) : List (TimerHandle × TimerKind) :=
  w.byDeadline.map fun e => (e.handle, e.kind)

/-- The timers of a wheel with their deadlines, as the first index has them. -/
def dated (w : TimerWheel) : List (TimerHandle × UInt64) :=
  w.byDeadline.map fun e => (e.handle, e.deadline)

/-- The two indexes agree, and the first one is in order. -/
structure Sound (w : TimerWheel) : Prop where
  agree : w.deadlines.Perm w.dated
  distinct : (w.byDeadline.map (·.handle)).Nodup
  /-- Handles are numbered up to the last one given out. -/
  issued : ∀ e ∈ w.byDeadline, e.handle.id ≤ w.lastId
  ordered : w.byDeadline.Pairwise fun x y => x.before y = true

/-- The empty wheel is sound. -/
theorem sound_empty : empty.Sound := by
  refine ⟨?_, ?_, ?_, ?_⟩ <;> simp [empty, dated]

/-! ### Arming -/

/-- Inserting a timer adds it and nothing else. -/
theorem perm_insert (e : TimerEntry) (entries : List TimerEntry) :
    (insert e entries).Perm (e :: entries) := by
  induction entries with
  | nil => exact .refl _
  | cons x xs ih =>
    simp only [insert]
    split
    · exact .refl _
    · exact (ih.cons x).trans (.swap e x xs)

/-- Inserting a timer with a new handle keeps the order. -/
theorem ordered_insert {e : TimerEntry} {entries : List TimerEntry}
    (fresh : ∀ x ∈ entries, x.handle ≠ e.handle)
    (h : entries.Pairwise fun x y => x.before y = true) :
    (insert e entries).Pairwise fun x y => x.before y = true := by
  induction entries with
  | nil => exact List.pairwise_singleton _ _
  | cons x xs ih =>
    obtain ⟨hx, hxs⟩ := List.pairwise_cons.1 h
    simp only [insert]
    split
    · next hex =>
      refine List.pairwise_cons.2 ⟨fun y hy => ?_, h⟩
      rcases List.mem_cons.1 hy with rfl | hy
      · exact hex
      · exact TimerEntry.before_trans hex (hx y hy)
    · next hex =>
      refine List.pairwise_cons.2 ⟨fun y hy => ?_, ih (fun y hy => fresh y (by simp [hy])) hxs⟩
      rcases List.mem_cons.1 ((perm_insert e xs).mem_iff.1 hy) with rfl | hy
      · exact TimerEntry.before_of_not_before (fresh x (by simp)).symm hex
      · exact hx y hy

/-- The entry of the next timer to be armed. -/
def nextEntry (w : TimerWheel) (now : UInt64) (kind : TimerKind) (after : Duration) :
    TimerEntry :=
  ⟨saturatingAdd now after.word, ⟨w.lastId + 1⟩, kind⟩

/-- The wheel with one more timer. -/
def armed (w : TimerWheel) (now : UInt64) (kind : TimerKind) (after : Duration) : TimerWheel :=
  let e := w.nextEntry now kind after
  ⟨w.lastId + 1, insert e w.byDeadline, w.deadlines ++ [(e.handle, e.deadline)]⟩

variable {w w' : TimerWheel} {now : UInt64} {kind : TimerKind} {after : Duration}
  {t : TimerHandle}

/-- Arming succeeds as long as there are handles left, and nothing else can stop it. -/
theorem arm_eq_ok_iff :
    w.arm now kind after = .ok (w', t) ↔
      w.lastId.toNat + 1 < UInt64.size ∧ w' = w.armed now kind after ∧ t = ⟨w.lastId + 1⟩ := by
  unfold arm
  rw [Checked.bind_eq_ok_iff]
  constructor
  · rintro ⟨id, hid, hw⟩
    obtain ⟨hlt, rfl⟩ := Checked.add64_eq_ok_iff.1 hid
    cases hw
    exact ⟨hlt, rfl, rfl⟩
  · rintro ⟨hlt, rfl, rfl⟩
    exact ⟨_, Checked.add64_eq_ok_iff.2 ⟨hlt, rfl⟩, rfl⟩

/-- Arming goes through as long as there is a handle left. -/
theorem arm_eq_ok (h : w.lastId.toNat + 1 < UInt64.size) :
    w.arm now kind after = .ok (w.armed now kind after, ⟨w.lastId + 1⟩) :=
  arm_eq_ok_iff.2 ⟨h, rfl, rfl⟩

/-- Arming takes the next handle. -/
theorem lastId_armed (h : w.lastId.toNat + 1 < UInt64.size) :
    (w.armed now kind after).lastId.toNat = w.lastId.toNat + 1 :=
  Checked.toNat_sum64 h

/-- Arming adds a timer with the next handle and nothing else. -/
theorem perm_timers_armed :
    (w.armed now kind after).timers.Perm ((⟨w.lastId + 1⟩, kind) :: w.timers) :=
  (perm_insert _ w.byDeadline).map _

/-- The new timer stands in the first index with its deadline, which saturates. -/
theorem mem_byDeadline_armed :
    ⟨saturatingAdd now after.word, ⟨w.lastId + 1⟩, kind⟩ ∈ (w.armed now kind after).byDeadline :=
  (perm_insert _ _).mem_iff.2 List.mem_cons_self

/-- No timer of a sound wheel has the handle that is given out next. -/
theorem Sound.handle_ne_next (hw : w.Sound) (h : w.lastId.toNat + 1 < UInt64.size) {e : TimerEntry}
    (he : e ∈ w.byDeadline) : e.handle ≠ ⟨w.lastId + 1⟩ := by
  intro heq
  have hle : (w.lastId + 1).toNat ≤ w.lastId.toNat := by
    have hissued := UInt64.le_iff_toNat_le.1 (hw.issued e he)
    rwa [heq] at hissued
  have hnext : (w.lastId + 1).toNat = w.lastId.toNat + 1 := Checked.toNat_sum64 h
  omega

/-- Arming keeps a wheel sound. -/
theorem Sound.armed (hw : w.Sound) (h : w.lastId.toNat + 1 < UInt64.size) :
    (w.armed now kind after).Sound := by
  have hperm := perm_insert (w.nextEntry now kind after) w.byDeadline
  refine ⟨?_, ?_, fun e he => ?_, ?_⟩
  · refine (hw.agree.append_right _).trans (List.perm_append_comm.trans ?_)
    exact (hperm.map fun e => (e.handle, e.deadline)).symm
  · refine (hperm.map (·.handle)).nodup_iff.2 ?_
    rw [List.map_cons, List.nodup_cons]
    refine ⟨fun hmem => ?_, hw.distinct⟩
    obtain ⟨e, he, heq⟩ := List.mem_map.1 hmem
    exact hw.handle_ne_next h he heq
  · rcases List.mem_cons.1 (hperm.mem_iff.1 he) with rfl | he
    · exact UInt64.le_refl _
    · rw [UInt64.le_iff_toNat_le, lastId_armed h]
      exact Nat.le_succ_of_le (UInt64.le_iff_toNat_le.1 (hw.issued e he))
  · exact ordered_insert (fun e he => hw.handle_ne_next h he) hw.ordered

/-! ### Cancelling -/

/-- Cancelling takes no handle back. -/
theorem lastId_cancel : (w.cancel t).1.lastId = w.lastId := by
  unfold cancel
  split <;> rfl

/-- The wheel without the timer of a handle. -/
def without (w : TimerWheel) (t : TimerHandle) : TimerWheel where
  lastId := w.lastId
  byDeadline := w.byDeadline.filter fun e => e.handle != t
  deadlines := w.deadlines.filter fun d => d.1 != t

/-- Without a handle, the timers are the others. -/
theorem timers_without : (w.without t).timers = w.timers.filter fun x => x.1 != t := by
  simp only [timers, without, List.filter_map, Function.comp_def]

/-- Without a handle, the dated timers are the others. -/
theorem dated_without : (w.without t).dated = w.dated.filter fun x => x.1 != t := by
  simp only [dated, without, List.filter_map, Function.comp_def]

/-- A handle names one timer of the first index. -/
theorem Sound.eq_of_handle_eq (hw : w.Sound) {x y : TimerEntry} (hx : x ∈ w.byDeadline)
    (hy : y ∈ w.byDeadline) (h : x.handle = y.handle) : x = y :=
  List.inj_on_of_nodup_map hw.distinct hx hy h

/-- The second index holds the handles of the first one with their deadlines. -/
theorem Sound.mem_deadlines (hw : w.Sound) {d : TimerHandle × UInt64} :
    d ∈ w.deadlines ↔ ∃ e ∈ w.byDeadline, (e.handle, e.deadline) = d := by
  rw [hw.agree.mem_iff, dated, List.mem_map]

/-- The second index knows no timer that the first does not. -/
theorem Sound.lookup_eq_none (hw : w.Sound) (h : w.deadlines.lookup t = none) :
    ∀ e ∈ w.byDeadline, e.handle ≠ t := by
  rw [List.lookup_eq_none_iff] at h
  intro e he heq
  simpa [heq] using h _ (hw.mem_deadlines.2 ⟨e, he, rfl⟩)

/-- A handle that the second index knows is that of a timer in the first one. -/
theorem Sound.lookup_eq_some (hw : w.Sound) {deadline : UInt64}
    (h : w.deadlines.lookup t = some deadline) :
    ∃ e ∈ w.byDeadline, e.handle = t ∧ e.deadline = deadline := by
  obtain ⟨before, after, heq, -⟩ := List.lookup_eq_some_iff.1 h
  have hmem : (t, deadline) ∈ w.deadlines := by simp [heq]
  obtain ⟨e, he, heq⟩ := hw.mem_deadlines.1 hmem
  exact ⟨e, he, Prod.mk.inj heq⟩

/-- Cancelling takes a timer out of both indexes. -/
theorem Sound.cancel_eq (hw : w.Sound) : (w.cancel t).1 = w.without t := by
  unfold cancel without
  rcases hl : w.deadlines.lookup t with _ | deadline
  · have hne := hw.lookup_eq_none hl
    have hd : w.deadlines.filter (fun d => d.1 != t) = w.deadlines := by
      refine List.filter_eq_self.2 fun d hd => ?_
      obtain ⟨e, he, rfl⟩ := hw.mem_deadlines.1 hd
      exact bne_iff_ne.2 (hne e he)
    have he : w.byDeadline.filter (fun e => e.handle != t) = w.byDeadline :=
      List.filter_eq_self.2 fun e he => bne_iff_ne.2 (hne e he)
    simp only [hd, he]
  · obtain ⟨x, hx, hhandle, hdeadline⟩ := hw.lookup_eq_some hl
    have hkept : w.byDeadline.filter (fun e => !(e.deadline == deadline && e.handle == t)) =
        w.byDeadline.filter fun e => e.handle != t := by
      refine List.filter_congr fun e he => ?_
      by_cases h : e.handle = t
      · rw [hw.eq_of_handle_eq he hx (h.trans hhandle.symm)]
        simp [hhandle, hdeadline]
      · have hne : (e.handle == t) = false := beq_eq_false_iff_ne.2 h
        simp [bne, hne]
    simp only [List.partition_eq_filter_filter, Function.comp_def, hkept]

/-- Cancelling succeeds for the handles of armed timers. -/
theorem Sound.cancel_snd (hw : w.Sound) :
    (w.cancel t).2 = true ↔ ∃ e ∈ w.byDeadline, e.handle = t := by
  unfold cancel
  rcases hl : w.deadlines.lookup t with _ | deadline
  · exact iff_of_false Bool.false_ne_true fun ⟨e, he, heq⟩ => hw.lookup_eq_none hl e he heq
  · obtain ⟨x, hx, hhandle, hdeadline⟩ := hw.lookup_eq_some hl
    refine iff_of_true ?_ ⟨x, hx, hhandle⟩
    simpa [List.partition_eq_filter_filter] using ⟨x, hx, hdeadline, hhandle⟩

/-- Taking a timer out of both indexes keeps the wheel sound. -/
theorem Sound.without (hw : w.Sound) (t : TimerHandle) : (w.without t).Sound where
  agree := by
    rw [dated_without]
    exact hw.agree.filter _
  distinct := hw.distinct.sublist (List.filter_sublist.map _)
  issued e he := hw.issued e (List.mem_filter.1 he).1
  ordered := hw.ordered.sublist List.filter_sublist

/-! ### Polling -/

/-- What is reported was armed, and the rest stays. -/
theorem pollExpired_append :
    (w.pollExpired now).2 ++ (w.pollExpired now).1.timers = w.timers := by
  simp only [pollExpired, timers, ← List.map_append, List.takeWhile_append_dropWhile]

/-- Reporting timers keeps the wheel sound. -/
theorem Sound.pollExpired (hw : w.Sound) : (w.pollExpired now).1.Sound := by
  have hdrop : (w.byDeadline.dropWhile (isDue now)).Sublist w.byDeadline :=
    List.dropWhile_sublist _
  refine ⟨?_, hw.distinct.sublist (hdrop.map _), fun e he => hw.issued e (hdrop.subset he),
    hw.ordered.sublist hdrop⟩
  have hsplit := List.takeWhile_append_dropWhile (p := isDue now) (l := w.byDeadline)
  have hdisj := hw.distinct
  rw [← hsplit, List.map_append, List.nodup_append'] at hdisj
  refine (hw.agree.filter _).trans (List.Perm.of_eq ?_)
  have hgone : (w.byDeadline.takeWhile (isDue now)).filter (fun e =>
      !((w.byDeadline.takeWhile (isDue now)).map (·.handle)).contains e.handle) = [] := by
    refine List.filter_eq_nil_iff.2 fun e he => ?_
    simpa using ⟨e, he, rfl⟩
  have hkept : (w.byDeadline.dropWhile (isDue now)).filter (fun e =>
      !((w.byDeadline.takeWhile (isDue now)).map (·.handle)).contains e.handle) =
        w.byDeadline.dropWhile (isDue now) := by
    refine List.filter_eq_self.2 fun e he => ?_
    simpa using fun x hx heq =>
      hdisj.2.2 (List.mem_map.2 ⟨x, hx, heq⟩) (List.mem_map.2 ⟨e, he, rfl⟩)
  simp only [dated, List.filter_map, Function.comp_def]
  conv_lhs => rw [← hsplit, List.filter_append]
  rw [hsplit, hgone, hkept]
  rfl

/-- Among entries in order, those that have fallen due come first. -/
theorem takeWhile_isDue {entries : List TimerEntry}
    (h : entries.Pairwise fun x y => x.before y = true) :
    entries.takeWhile (isDue now) = entries.filter (isDue now) := by
  induction entries with
  | nil => rfl
  | cons x xs ih =>
    obtain ⟨hx, hxs⟩ := List.pairwise_cons.1 h
    by_cases hdue : isDue now x = true
    · rw [List.takeWhile_cons_of_pos hdue, List.filter_cons_of_pos hdue, ih hxs]
    · rw [List.takeWhile_cons_of_neg hdue, List.filter_cons_of_neg hdue]
      refine (List.filter_eq_nil_iff.2 fun y hy hy' => hdue ?_).symm
      simp only [isDue, decide_eq_true_eq] at hy' ⊢
      exact UInt64.le_trans (TimerEntry.deadline_le_of_before (hx y hy)) hy'

/-- The rest are those that have not fallen due. -/
theorem dropWhile_isDue {entries : List TimerEntry}
    (h : entries.Pairwise fun x y => x.before y = true) :
    entries.dropWhile (isDue now) = entries.filter fun e => !isDue now e := by
  have hsplit := List.takeWhile_append_dropWhile (p := isDue now) (l := entries)
  have hdue : (entries.takeWhile (isDue now)).filter (isDue now) = entries.takeWhile (isDue now) :=
    List.filter_eq_self.2 (List.all_eq_true.1 List.all_takeWhile)
  have hnone : (entries.dropWhile (isDue now)).filter (isDue now) = [] := by
    have hfilter := congrArg (List.filter (isDue now)) hsplit
    rwa [List.filter_append, hdue, ← takeWhile_isDue h, List.append_right_eq_self] at hfilter
  rw [List.filter_eq_nil_iff] at hnone
  conv_rhs => rw [← hsplit, List.filter_append]
  rw [List.filter_eq_nil_iff.2 fun e he => by simp [List.filter_eq_self.1 hdue e he],
    List.nil_append, List.filter_eq_self.2 fun e he => by simp [hnone e he]]

/-- Polling reports the timers whose deadline has come, and no other. -/
theorem Sound.pollExpired_eq (hw : w.Sound) :
    (w.pollExpired now).2 = (w.byDeadline.filter (isDue now)).map fun e => (e.handle, e.kind) := by
  rw [← takeWhile_isDue hw.ordered]
  rfl

/-- A timer that a look does not report stays. -/
theorem stays_of_not_fired {e : TimerEntry} (he : e ∈ w.byDeadline)
    (hfired : (e.handle, e.kind) ∉ (w.pollExpired now).2) :
    e ∈ (w.pollExpired now).1.byDeadline := by
  rw [← List.takeWhile_append_dropWhile (p := isDue now) (l := w.byDeadline)] at he
  rcases List.mem_append.1 he with he | he
  · exact absurd (List.mem_map_of_mem (f := fun e => (e.handle, e.kind)) he) hfired
  · exact he

/-- A timer that a look reports has fallen due. -/
theorem Sound.due_of_fired (hw : w.Sound) {e : TimerEntry} (he : e ∈ w.byDeadline)
    {kind : TimerKind} (hfired : (e.handle, kind) ∈ (w.pollExpired now).2) :
    e.deadline ≤ now := by
  rw [hw.pollExpired_eq] at hfired
  obtain ⟨x, hx, heq⟩ := List.mem_map.1 hfired
  obtain ⟨hmem, hdue⟩ := List.mem_filter.1 hx
  rw [hw.eq_of_handle_eq he hmem (Prod.mk.inj heq).1.symm]
  exact of_decide_eq_true hdue

end TimerWheel

end PathControl.Negotiation
