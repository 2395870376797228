import PathControl.Proofs.Negotiation.Wheel

/-!
# Histories of a timer wheel

A wheel is armed, cancelled and polled, each time at a clock reading of its own: readings may go
back. What it was asked and what it answered is recorded, and the *standing* timers of a history
are read off that record alone: those that were armed, less those that were reported and those
that were cancelled.

* `Tracked`, `WheelRun.tracked`: the wheel holds exactly the standing timers, handles count up in
  the order of arming, and each timer leaves at most once.
* `WheelRun.reported_due`: a timer is reported while it stands, and not before its deadline.
* `WheelRun.answers_from_history`: so all that a wheel answers is determined by its history, as if
  it kept a finite map of the standing timers.
-/

namespace PathControl.Negotiation

/-- What a wheel was asked, and what it answered. -/
inductive WheelEvent where
  | armed (kind : TimerKind) (after : Duration) (handle : TimerHandle)
  | cancelled (handle : TimerHandle) (wasArmed : Bool)
  | polled (fired : List (TimerHandle × TimerKind))
  deriving DecidableEq, Repr

/-- An event at a clock reading. -/
structure WheelRecord where
  now : UInt64
  event : WheelEvent
  deriving DecidableEq, Repr

namespace WheelRecord

/-- The timer that a record arms. It falls due after its duration, or at the greatest reading if
that is nearer. -/
def armed? (r : WheelRecord) : Option TimerEntry :=
  match r.event with
  | .armed kind after handle =>
    some ⟨UInt64.ofNat (min (r.now.toNat + after.nanos) (UInt64.size - 1)), handle, kind⟩
  | _ => none

/-- The handle that a record cancels with success. -/
def cancelled? (r : WheelRecord) : Option TimerHandle :=
  match r.event with
  | .cancelled handle true => some handle
  | _ => none

/-- The timers that a record reports. -/
def fired (r : WheelRecord) : List (TimerHandle × TimerKind) :=
  match r.event with
  | .polled fired => fired
  | _ => []

end WheelRecord

/-- The timers that were armed, in the order of arming. -/
def armedIn (history : List WheelRecord) : List TimerEntry := history.filterMap (·.armed?)

/-- The handles that were cancelled with success. -/
def cancelledIn (history : List WheelRecord) : List TimerHandle := history.filterMap (·.cancelled?)

/-- The timers that were reported. -/
def firedIn (history : List WheelRecord) : List (TimerHandle × TimerKind) :=
  history.flatMap (·.fired)

/-- The handles of the timers that have left, for either reason. -/
def goneIn (history : List WheelRecord) : List TimerHandle :=
  (firedIn history).map Prod.fst ++ cancelledIn history

/-- The timers that were armed and have not left, in the order of arming. -/
def standing (history : List WheelRecord) : List TimerEntry :=
  (armedIn history).filter fun e => e.handle ∉ goneIn history

/-- Whether `x` is to be reported before `y`: by deadline, then by the order of arming. -/
def Sooner (history : List WheelRecord) (x y : TimerEntry) : Prop :=
  x.deadline < y.deadline ∨ x.deadline = y.deadline ∧ [x, y].Sublist (armedIn history)

/-- The runs of a wheel, from the empty one on. -/
inductive WheelRun : List WheelRecord → TimerWheel → Prop where
  | start : WheelRun [] .empty
  | arm {past : List WheelRecord} {w w' : TimerWheel} {t : TimerHandle} (now : UInt64)
      (kind : TimerKind) (after : Duration) :
      WheelRun past w → w.arm now kind after = .ok (w', t) →
      WheelRun (past ++ [⟨now, .armed kind after t⟩]) w'
  | cancel {past : List WheelRecord} {w : TimerWheel} (now : UInt64) (t : TimerHandle) :
      WheelRun past w → WheelRun (past ++ [⟨now, .cancelled t (w.cancel t).2⟩]) (w.cancel t).1
  | poll {past : List WheelRecord} {w : TimerWheel} (now : UInt64) :
      WheelRun past w →
      WheelRun (past ++ [⟨now, .polled (w.pollExpired now).2⟩]) (w.pollExpired now).1

/-! ### What one more record adds -/

section Concat

variable {past : List WheelRecord} {r : WheelRecord}

/-- What was armed grows by what the last record armed. -/
theorem armedIn_concat : armedIn (past ++ [r]) = armedIn past ++ r.armed?.toList := by
  rcases h : r.armed? with _ | e <;> simp [armedIn, h]

/-- What was reported grows by what the last record reported. -/
theorem firedIn_concat : firedIn (past ++ [r]) = firedIn past ++ r.fired := by
  simp [firedIn]

/-- What was cancelled grows by what the last record cancelled. -/
theorem cancelledIn_concat :
    cancelledIn (past ++ [r]) = cancelledIn past ++ r.cancelled?.toList := by
  rcases h : r.cancelled? with _ | t <;> simp [cancelledIn, h]

/-- What is gone grows by what the last record reported or cancelled. -/
theorem goneIn_concat_perm :
    (goneIn (past ++ [r])).Perm (goneIn past ++ (r.fired.map Prod.fst ++ r.cancelled?.toList)) := by
  simp only [goneIn, firedIn_concat, cancelledIn_concat, List.map_append, List.append_assoc]
  refine List.Perm.append_left _ ?_
  rw [← List.append_assoc, ← List.append_assoc]
  exact List.perm_append_comm.append_right _

/-- A record that arms nothing leaves those timers standing that it does not take away. -/
theorem standing_concat_of_not_arming (h : r.armed? = none) :
    standing (past ++ [r]) = (standing past).filter fun e =>
      e.handle ∉ r.fired.map Prod.fst ++ r.cancelled?.toList := by
  simp only [standing, armedIn_concat, h, Option.toList_none, List.append_nil, List.filter_filter]
  refine List.filter_congr fun e _ => ?_
  simp only [goneIn_concat_perm.mem_iff, List.mem_append, not_or, Bool.decide_and]
  exact Bool.and_comm _ _

/-- A timer that was never armed before stands next to the others. -/
theorem standing_concat_of_arming {e : TimerEntry} (h : r.armed? = some e) (hfired : r.fired = [])
    (hcancelled : r.cancelled? = none) (hnew : e.handle ∉ goneIn past) :
    standing (past ++ [r]) = standing past ++ [e] := by
  have hgone (t : TimerHandle) : t ∈ goneIn (past ++ [r]) ↔ t ∈ goneIn past := by
    simp [goneIn_concat_perm.mem_iff, hfired, hcancelled]
  simp only [standing, armedIn_concat, h, Option.toList_some, List.filter_append, hgone]
  rw [List.filter_singleton, decide_eq_true hnew, cond_true]

end Concat

/-- In a list on which a key grows, entries stand in the order of their keys. -/
theorem pair_sublist_of_lt {α : Type} {key : α → Nat} {l : List α} {x y : α}
    (h : l.Pairwise fun a b => key a < key b) (hx : x ∈ l) (hy : y ∈ l) (hlt : key x < key y) :
    [x, y].Sublist l := by
  induction l with
  | nil => exact absurd hx List.not_mem_nil
  | cons a l ih =>
    obtain ⟨ha, hl⟩ := List.pairwise_cons.1 h
    rcases List.mem_cons.1 hx with hx | hx <;> rcases List.mem_cons.1 hy with hy | hy
    · exact absurd hlt (by rw [hx, hy]; exact Nat.lt_irrefl _)
    · rw [hx]
      exact (List.singleton_sublist.2 hy).cons_cons a
    · -- nothing stands before the first entry
      exact absurd hlt (by rw [hy]; exact Nat.lt_asymm (ha x hx))
    · exact (ih hl hx hy).cons a

/-! ### The indexes of a wheel and its history -/

/-- The wheel holds the standing timers, its handles are numbered in the order of arming, and what
has left was armed, and left once. -/
structure Tracked (history : List WheelRecord) (w : TimerWheel) : Prop where
  sound : w.Sound
  stands : w.byDeadline.Perm (standing history)
  numbered : (armedIn history).map (·.handle.id.toNat) = List.range' 1 w.lastId.toNat
  once : (goneIn history).Nodup
  left : ∀ t ∈ goneIn history, ∃ e ∈ armedIn history, e.handle = t

namespace Tracked

variable {history : List WheelRecord} {w w' : TimerWheel} {now : UInt64} {kind : TimerKind}
  {after : Duration} {t : TimerHandle} {e : TimerEntry}

/-- Before anything is recorded, the wheel is empty. -/
theorem start : Tracked [] .empty where
  sound := TimerWheel.sound_empty
  stands := .refl _
  numbered := rfl
  once := .nil
  left _ ht := absurd ht List.not_mem_nil

/-- As many timers were armed as handles were taken. -/
theorem length_armedIn (h : Tracked history w) : (armedIn history).length = w.lastId.toNat := by
  rw [← List.length_map (·.handle.id.toNat), h.numbered, List.length_range']

/-- Later timers have greater handles. -/
theorem handles_grow (h : Tracked history w) :
    (armedIn history).Pairwise fun x y => x.handle.id.toNat < y.handle.id.toNat := by
  rw [← List.pairwise_map, h.numbered]
  exact List.pairwise_lt_range'

/-- No handle was given twice. -/
theorem distinct (h : Tracked history w) : ((armedIn history).map (·.handle)).Nodup := by
  rw [List.Nodup, List.pairwise_map]
  exact h.handles_grow.imp fun hlt heq => absurd (heq ▸ hlt) (Nat.lt_irrefl _)

/-- No timer of the history has the handle that is given out next. -/
theorem handle_ne_next (h : Tracked history w) (hid : w.lastId.toNat + 1 < UInt64.size)
    (he : e ∈ armedIn history) : e.handle ≠ ⟨w.lastId + 1⟩ := by
  intro heq
  have hmem : e.handle.id.toNat ∈ List.range' 1 w.lastId.toNat :=
    h.numbered ▸ List.mem_map_of_mem he
  have hnext : (w.lastId + 1).toNat = w.lastId.toNat + 1 := Checked.toNat_sum64 hid
  rw [heq, List.mem_range'_1, hnext] at hmem
  omega

/-- The first index holds the timers that were armed and are not gone. -/
theorem mem_byDeadline (h : Tracked history w) :
    e ∈ w.byDeadline ↔ e ∈ armedIn history ∧ e.handle ∉ goneIn history := by
  rw [h.stands.mem_iff, standing, List.mem_filter, decide_eq_true_eq]

/-- Arming keeps track, under the handle that was given. -/
theorem arm (h : Tracked history w) (harm : w.arm now kind after = .ok (w', t)) :
    Tracked (history ++ [⟨now, .armed kind after t⟩]) w' := by
  obtain ⟨hid, rfl, rfl⟩ := TimerWheel.arm_eq_ok_iff.1 harm
  have hentry : WheelRecord.armed? ⟨now, .armed kind after ⟨w.lastId + 1⟩⟩ =
      some (w.nextEntry now kind after) := by
    have hsum : (saturatingAdd now after.word).toNat =
        (UInt64.ofNat (min (now.toNat + after.nanos) (UInt64.size - 1))).toNat := by
      rw [toNat_saturatingAdd_word, UInt64.toNat_ofNat', UInt64.size]
      omega
    rw [TimerWheel.nextEntry, UInt64.toNat_inj.1 hsum]
    rfl
  have hnew : (w.nextEntry now kind after).handle ∉ goneIn history := by
    intro hgone
    obtain ⟨e, he, heq⟩ := h.left _ hgone
    exact h.handle_ne_next hid he heq
  have hgone : (goneIn (history ++ [⟨now, .armed kind after ⟨w.lastId + 1⟩⟩])).Perm
      (goneIn history) := goneIn_concat_perm.trans (.of_eq (List.append_nil _))
  refine ⟨h.sound.armed hid, ?_, ?_, hgone.nodup_iff.2 h.once, fun t ht => ?_⟩
  · rw [standing_concat_of_arming hentry rfl rfl hnew]
    refine (TimerWheel.perm_insert _ _).trans ?_
    exact (h.stands.cons _).trans (List.perm_append_singleton _ _).symm
  · rw [armedIn_concat, hentry, List.map_append, h.numbered, TimerWheel.lastId_armed hid,
      List.range'_1_concat, Nat.add_comm 1]
    exact congrArg (_ ++ [·]) (Checked.toNat_sum64 hid)
  · obtain ⟨e, he, heq⟩ := h.left t (hgone.mem_iff.1 ht)
    exact ⟨e, by rw [armedIn_concat]; exact List.mem_append_left _ he, heq⟩

/-- Timers of the wheel leave. -/
theorem leave {r : WheelRecord} (h : Tracked history w) (gone : List TimerHandle)
    (harms : r.armed? = none) (hgone : r.fired.map Prod.fst ++ r.cancelled?.toList = gone)
    (honce : gone.Nodup) (hleave : ∀ t ∈ gone, ∃ e ∈ w.byDeadline, e.handle = t)
    (hsound : w'.Sound) (hlast : w'.lastId = w.lastId)
    (hrest : w'.byDeadline = w.byDeadline.filter fun e => e.handle ∉ gone) :
    Tracked (history ++ [r]) w' := by
  have harmed : armedIn (history ++ [r]) = armedIn history := by
    rw [armedIn_concat, harms, Option.toList_none, List.append_nil]
  have hall : (goneIn (history ++ [r])).Perm (goneIn history ++ gone) := hgone ▸ goneIn_concat_perm
  refine ⟨hsound, ?_, by rw [harmed, hlast, h.numbered], ?_, fun t ht => ?_⟩
  · rw [hrest, standing_concat_of_not_arming harms, hgone]
    exact h.stands.filter _
  · rw [hall.nodup_iff, List.nodup_append']
    refine ⟨h.once, honce, fun t ht ht' => ?_⟩
    obtain ⟨e, he, rfl⟩ := hleave t ht'
    exact (h.mem_byDeadline.1 he).2 ht
  · rw [harmed]
    rcases List.mem_append.1 (hall.mem_iff.1 ht) with ht | ht
    · exact h.left t ht
    · obtain ⟨e, he, rfl⟩ := hleave t ht
      exact ⟨e, (h.mem_byDeadline.1 he).1, rfl⟩

/-- Cancelling keeps track, whether the timer was standing or not. -/
theorem cancel (h : Tracked history w) (now : UInt64) (t : TimerHandle) :
    Tracked (history ++ [⟨now, .cancelled t (w.cancel t).2⟩]) (w.cancel t).1 := by
  have hrest : (w.cancel t).1.byDeadline = w.byDeadline.filter fun e => e.handle != t := by
    rw [h.sound.cancel_eq]
    rfl
  have hsound : (w.cancel t).1.Sound := h.sound.cancel_eq ▸ h.sound.without t
  rcases hc : (w.cancel t).2 with _ | _
  · have hnone : ∀ e ∈ w.byDeadline, e.handle ≠ t := fun e he heq => by
      simpa [hc] using h.sound.cancel_snd.2 ⟨e, he, heq⟩
    refine h.leave [] rfl rfl .nil (by simp) hsound TimerWheel.lastId_cancel ?_
    rw [hrest]
    exact List.filter_congr fun e he => by simpa using hnone e he
  · refine h.leave [t] rfl rfl (List.nodup_singleton t) (fun t' ht' => ?_) hsound
      TimerWheel.lastId_cancel ?_
    · rw [List.mem_singleton.1 ht']
      exact h.sound.cancel_snd.1 hc
    · rw [hrest]
      exact List.filter_congr fun e _ => by simp [bne, beq_eq_decide]

/-- What is left after a look is what has not fallen due. -/
theorem poll (h : Tracked history w) (now : UInt64) :
    Tracked (history ++ [⟨now, .polled (w.pollExpired now).2⟩]) (w.pollExpired now).1 := by
  have hfired : (w.pollExpired now).2.map Prod.fst =
      (w.byDeadline.filter (TimerWheel.isDue now)).map (·.handle) := by
    rw [h.sound.pollExpired_eq, List.map_map]
    rfl
  refine h.leave ((w.byDeadline.filter (TimerWheel.isDue now)).map (·.handle)) rfl
    (by rw [← hfired]; exact List.append_nil _) ?_ (fun t ht => ?_) h.sound.pollExpired rfl ?_
  · exact h.sound.distinct.sublist (List.filter_sublist.map _)
  · obtain ⟨e, he, rfl⟩ := List.mem_map.1 ht
    exact ⟨e, (List.mem_filter.1 he).1, rfl⟩
  · refine (TimerWheel.dropWhile_isDue h.sound.ordered).trans (List.filter_congr fun e he => ?_)
    have hdue : e.handle ∈ (w.byDeadline.filter (TimerWheel.isDue now)).map (·.handle) ↔
        TimerWheel.isDue now e = true := by
      refine ⟨fun hmem => ?_, fun hdue =>
        List.mem_map_of_mem (List.mem_filter.2 ⟨he, hdue⟩)⟩
      obtain ⟨x, hx, heq⟩ := List.mem_map.1 hmem
      obtain ⟨hx, hdue⟩ := List.mem_filter.1 hx
      rwa [h.sound.eq_of_handle_eq he hx heq.symm]
    rcases hd : TimerWheel.isDue now e with _ | _ <;> simp [hdue, hd]

/-! ### What follows for the answers -/

/-- The order of the first index is that of deadlines, then that of arming. -/
theorem sooner_of_before (h : Tracked history w) {x y : TimerEntry} (hx : x ∈ w.byDeadline)
    (hy : y ∈ w.byDeadline) (hxy : x.before y = true) : Sooner history x y := by
  rcases TimerEntry.before_iff.1 hxy with hlt | ⟨heq, hlt⟩
  · exact .inl hlt
  · refine .inr ⟨heq, pair_sublist_of_lt h.handles_grow ?_ ?_ (UInt64.lt_iff_toNat_lt.1 hlt)⟩
    · exact (h.mem_byDeadline.1 hx).1
    · exact (h.mem_byDeadline.1 hy).1

/-- A look reports the standing timers that have fallen due, in order, and the others stay. -/
theorem poll_reports (h : Tracked history w) (now : UInt64) :
    ∃ due : List TimerEntry, due.Perm ((standing history).filter fun e => e.deadline ≤ now) ∧
      due.Pairwise (Sooner history) ∧
      (w.pollExpired now).2 = due.map (fun e => (e.handle, e.kind)) ∧
      (w.pollExpired now).1.byDeadline.Perm
        ((standing history).filter fun e => ¬ e.deadline ≤ now) := by
  refine ⟨_, h.stands.filter _, ?_, h.sound.pollExpired_eq, ?_⟩
  · have hsorted := h.sound.ordered.imp_of_mem fun hx hy => h.sooner_of_before hx hy
    exact hsorted.sublist List.filter_sublist
  · refine (List.Perm.of_eq (TimerWheel.dropWhile_isDue h.sound.ordered)).trans ?_
    refine (h.stands.filter _).trans (.of_eq (List.filter_congr fun e _ => ?_))
    exact (decide_not).symm

/-- The first deadline is the least one. -/
theorem nextDeadline (h : Tracked history w) (now : UInt64) :
    (w.nextDeadline now).map (·.nanos) =
      ((standing history).map (·.deadline.toNat)).min?.map (· - now.toNat) := by
  unfold TimerWheel.nextDeadline
  rcases hw : w.byDeadline with _ | ⟨e, rest⟩
  · have hnil : standing history = [] := List.nil_perm.1 (hw ▸ h.stands)
    rw [hnil]
    rfl
  · have hmin : ((standing history).map (·.deadline.toNat)).min? = some e.deadline.toNat := by
      refine List.min?_eq_some_iff.2 ⟨List.mem_map_of_mem ?_, fun d hd => ?_⟩
      · exact h.stands.mem_iff.1 (hw ▸ List.mem_cons_self)
      · obtain ⟨x, hx, rfl⟩ := List.mem_map.1 hd
        have hsorted := h.sound.ordered
        rw [hw, List.pairwise_cons] at hsorted
        rcases List.mem_cons.1 (hw ▸ h.stands.mem_iff.2 hx) with rfl | hx
        · exact Nat.le_refl _
        · exact UInt64.le_iff_toNat_le.1 (TimerEntry.deadline_le_of_before (hsorted.1 x hx))
    rw [hmin]
    exact congrArg some (toNat_saturatingSub _ _)

/-- Every armed timer stands, was reported or was cancelled. -/
theorem length_standing (h : Tracked history w) :
    (standing history).length + (goneIn history).length = (armedIn history).length := by
  have hgone : (((armedIn history).filter fun e => e.handle ∈ goneIn history).map (·.handle)).Perm
      (goneIn history) := by
    refine (List.perm_ext_iff_of_nodup ?_ h.once).2 fun t => ⟨fun ht => ?_, fun ht => ?_⟩
    · exact h.distinct.sublist (List.filter_sublist.map _)
    · obtain ⟨e, he, rfl⟩ := List.mem_map.1 ht
      simpa using (List.mem_filter.1 he).2
    · obtain ⟨e, he, rfl⟩ := h.left t ht
      exact List.mem_map_of_mem (List.mem_filter.2 ⟨he, by simpa using ht⟩)
  have hsplit := (armedIn history).length_eq_length_filter_add fun e => e.handle ∈ goneIn history
  rw [← hgone.length_eq, List.length_map, hsplit, Nat.add_comm, standing]
  simp only [decide_not]

end Tracked

/-- Every run keeps track. -/
theorem WheelRun.tracked {history : List WheelRecord} {w : TimerWheel}
    (run : WheelRun history w) : Tracked history w := by
  induction run with
  | start => exact .start
  | arm now kind after _ harm ih => exact ih.arm harm
  | cancel now t _ ih => exact ih.cancel now t
  | poll now _ ih => exact ih.poll now

/-- A record of a history with one more at its end is that one or an earlier one. -/
theorem split_concat {past rest history : List WheelRecord} {r x : WheelRecord}
    (h : history ++ [x] = past ++ r :: rest) :
    history = past ∧ x = r ∨ ∃ rest', history = past ++ r :: rest' := by
  rcases rest.eq_nil_or_concat' with rfl | ⟨rest', y, rfl⟩
  · obtain ⟨rfl, hx⟩ := List.append_inj' h rfl
    exact .inl ⟨rfl, List.singleton_inj.1 hx⟩
  · rw [← List.cons_append, ← List.append_assoc] at h
    exact .inr ⟨rest', (List.append_inj' h rfl).1⟩

/-- What was reported stood at that moment, and had fallen due. -/
theorem WheelRun.reported_due {history : List WheelRecord} {w : TimerWheel}
    (run : WheelRun history w) : ∀ past r rest, history = past ++ r :: rest → ∀ x ∈ r.fired,
      ∃ e ∈ standing past, (e.handle, e.kind) = x ∧ e.deadline ≤ r.now := by
  induction run with
  | start => exact fun past r rest h => absurd h (by simp)
  | arm now kind after _ _ ih | cancel now t _ ih =>
    intro past r rest h x hx
    rcases split_concat h with ⟨-, rfl⟩ | ⟨rest', h⟩
    · exact absurd hx List.not_mem_nil
    · exact ih past r rest' h x hx
  | @poll history w now run ih =>
    intro past r rest h x hx
    rcases split_concat h with ⟨rfl, rfl⟩ | ⟨rest', h⟩
    · obtain ⟨due, hperm, -, hreport, -⟩ := run.tracked.poll_reports now
      have hx : x ∈ (w.pollExpired now).2 := hx
      rw [hreport] at hx
      obtain ⟨e, he, rfl⟩ := List.mem_map.1 hx
      obtain ⟨hstands, hdue⟩ := List.mem_filter.1 (hperm.mem_iff.1 he)
      exact ⟨e, hstands, rfl, of_decide_eq_true hdue⟩
    · exact ih past r rest' h x hx

/-- **A timer wheel answers as a finite map of its standing timers would.** After any run, at clock
readings that may go back,

* both indexes hold exactly the timers that were armed and have neither been reported nor been
  cancelled since, no handle is given out twice, and arming goes through until the handles run out;
* cancelling succeeds exactly for the handles of standing timers, and leaves the handle in neither
  index;
* a look reports exactly the standing timers that have fallen due, by deadline and then by the order
  of arming, each with what it was armed for, and the others stay;
* so each timer leaves at most once, reported or cancelled, and is reported only while it stands and
  not before its deadline;
* the numbers of pending timers and the time to the next deadline are those of the standing ones. -/
theorem WheelRun.answers_from_history {history : List WheelRecord} {w : TimerWheel}
    (run : WheelRun history w) :
    w.byDeadline.Perm (standing history) ∧
      w.deadlines.Perm ((standing history).map fun e => (e.handle, e.deadline)) ∧
      ((armedIn history).map (·.handle)).Nodup ∧
      ((armedIn history).length + 1 < UInt64.size →
        ∀ now kind after, ∃ w' t, w.arm now kind after = .ok (w', t)) ∧
      (∀ t, ((w.cancel t).2 = true ↔ ∃ e ∈ standing history, e.handle = t) ∧
        (∀ e ∈ (w.cancel t).1.byDeadline, e.handle ≠ t) ∧
        ∀ d ∈ (w.cancel t).1.deadlines, d.1 ≠ t) ∧
      (∀ now, ∃ due : List TimerEntry,
        due.Perm ((standing history).filter fun e => e.deadline ≤ now) ∧
        due.Pairwise (Sooner history) ∧
        (w.pollExpired now).2 = due.map (fun e => (e.handle, e.kind)) ∧
        (w.pollExpired now).1.byDeadline.Perm
          ((standing history).filter fun e => ¬ e.deadline ≤ now)) ∧
      ((firedIn history).map Prod.fst ++ cancelledIn history).Nodup ∧
      (∀ past r rest, history = past ++ r :: rest → ∀ x ∈ r.fired,
        ∃ e ∈ standing past, (e.handle, e.kind) = x ∧ e.deadline ≤ r.now) ∧
      w.pending + (firedIn history).length + (cancelledIn history).length =
        (armedIn history).length ∧
      ∀ now, (w.nextDeadline now).map (·.nanos) =
        ((standing history).map (·.deadline.toNat)).min?.map (· - now.toNat) := by
  have h := run.tracked
  have hdeadlines : w.deadlines.Perm ((standing history).map fun e => (e.handle, e.deadline)) :=
    h.sound.agree.trans (h.stands.map _)
  refine ⟨h.stands, hdeadlines, h.distinct, fun hid now kind after => ?_, fun t => ⟨?_, ?_, ?_⟩,
    h.poll_reports, h.once, run.reported_due, ?_, h.nextDeadline⟩
  · rw [h.length_armedIn] at hid
    exact ⟨_, _, TimerWheel.arm_eq_ok hid⟩
  · simp only [h.sound.cancel_snd, h.stands.mem_iff]
  · intro e he
    rw [h.sound.cancel_eq] at he
    exact bne_iff_ne.1 (List.mem_filter.1 he).2
  · intro d hd
    rw [h.sound.cancel_eq] at hd
    exact bne_iff_ne.1 (List.mem_filter.1 hd).2
  · have hcount := h.length_standing
    rw [goneIn, List.length_append, List.length_map] at hcount
    rw [TimerWheel.pending, hdeadlines.length_eq, List.length_map]
    omega

/-- Two deadlines beyond the greatest reading meet there. The clock goes back, an earlier timer is
cancelled, and the two are reported in the order of arming. -/
theorem saturated_timers_fire_in_order : ∃ history w, WheelRun history w ∧
    standing history = [⟨18446744073709551615, ⟨1⟩, .guard⟩,
      ⟨18446744073709551615, ⟨3⟩, .repathRetry⟩] ∧
    w.byDeadline.Perm (standing history) ∧
    (w.pollExpired 18446744073709551614).2 = [] ∧
    (w.pollExpired 18446744073709551615).2 = [(⟨1⟩, .guard), (⟨3⟩, .repathRetry)] := by
  have run : WheelRun _ _ :=
    .cancel 7 ⟨2⟩
      (.arm 18446744073709551615 .repathRetry (.ofSeconds 2)
        (.arm 3 .repathRetry (.ofSeconds 5)
          (.arm 18446744073709551610 .guard (.ofSeconds 1) .start rfl) rfl) rfl)
  exact ⟨_, _, run, rfl, run.answers_from_history.1, rfl, rfl⟩

end PathControl.Negotiation
