import PathControl.Proofs.Handshake.Agreement
import PathControl.Proofs.Handshake.Correspondence

/-!
# Copies that arrive late

One side proposes and the other only answers, over a network that keeps no order. The guard of the
side that answers stands for the last proposal only, so a copy of an older one is adopted anew.

* `Exchange.following`: the side that answers is on the path of the proposal that it handled last,
  in whatever order the network delivers.
* `Exchange.late_copy_undoes_newer`: a late copy can move it off the path that was committed.
* `Exchange.follows_last_handled`: what a copy changes, and where the side that answers stands once
  the last negotiation was committed.
-/

namespace PathControl.Handshake

open PathControl.Negotiation

namespace Exchange

variable {tuning : Role → Tuning} {turns : List Turn} {parties : Role → Party} {side : Role}

/-- A side that is not triggered follows the proposals of its peer. -/
theorem following (h : Exchange tuning turns parties)
    (quiet : ∀ x ∈ turns, x.side = side → x.input.isTrigger = false) :
    Following (turnsOf side turns) (parties side) := by
  induction h with
  | start => exact .start (tuning side)
  | @turn past parties x h hbefore hreach hp ih =>
    have hpast := ih fun y hy => quiet y (List.mem_append_left _ hy)
    by_cases hside : x.side = side
    · obtain ⟨hmove, hpath⟩ := (h.turn x hbefore hreach hp).move List.mem_concat_self
      rw [turnsOf_concat_self hside, ← hside, Function.update_self]
      rw [← hside, ← hbefore] at hpast
      exact hpast.turn (quiet x List.mem_concat_self hside) hmove hpath
    · rw [turnsOf_concat_of_ne hside, Function.update_of_ne (Ne.symm hside)]
      exact hpast

/-- What a turn of a side that is not triggered changes depends on the proposal handled before. -/
theorem following_turn (h : Exchange tuning turns parties)
    (quiet : ∀ x ∈ turns, x.side = side → x.input.isTrigger = false) {past rest : List Turn}
    {x : Turn} (hsplit : turns = past ++ x :: rest) (hside : x.side = side) :
    (x.proposal? = none → x.switches = false) ∧
      ∀ target sequence, x.input = .repath target sequence → x.after.active.path = target ∧
        ∀ last, (handled (turnsOf side past)).getLast? = some last →
          (x.switches = false ↔ last.1 = target) := by
  have hx : x ∈ turns := hsplit ▸ List.mem_append_right _ List.mem_cons_self
  obtain ⟨hmove, hpath⟩ := h.move hx
  obtain ⟨parties, hpast, hbefore, -, -⟩ := h.split hsplit
  have hfollowing : Following (turnsOf side past) x.before := by
    rw [hbefore, hside]
    apply hpast.following
    intro y hy
    exact quiet y (hsplit ▸ List.mem_append_left _ hy)
  constructor
  · intro hnone
    obtain ⟨-, hactions⟩ := hfollowing.undisturbed (quiet x hx hside) hnone hmove hpath
    rw [hactions] at hpath
    simp [Turn.switches, hpath, Party.destination]
  · intro target sequence hi
    rw [hi] at hmove
    obtain ⟨hafter, -⟩ := hfollowing.repath hi hmove hpath
    have htarget : x.after.active.path = target := by
      apply hafter.followed (target, sequence)
      rw [handled_of_repath hi, List.getLast?_concat]
    refine ⟨htarget, ?_⟩
    intro last hlast
    rw [Turn.switches, htarget, hfollowing.followed last hlast]
    simp

/-- A proposal that was committed was handled by the peer, and adopted at that. -/
theorem adopted_of_committed (h : Exchange tuning turns parties)
    (few : begun (recordsOf side turns) < UInt64.size) {number : Nat} {target : PathId}
    (hm : .committed number target ∈ chronicle (recordsOf side turns)) :
    ∃ x ∈ turns, x.side = side.other ∧ ∃ sequence, sequence.toNat = number ∧
      x.record.Adopts target sequence := by
  obtain ⟨r, hr, sequence, rfl, hi⟩ := Chronicled.ack_of_committed hm
  obtain ⟨x, hx, hside, rfl⟩ := mem_recordsOf.1 hr
  obtain ⟨past, rest, hsplit⟩ := List.append_of_mem hx
  obtain ⟨parties, hpast, -, hreach, -⟩ := h.split hsplit
  rw [show x.input = .ack sequence from hi, hside] at hreach
  obtain ⟨earlier, y, later, target', hpe, hother, hinput, hadopted, hrepath⟩ :=
    hpast.adopted_of_ack_sent hreach
  rw [Role.other_other] at hrepath
  -- the number of the commitment stands for one path
  have hsent : .repath target' sequence ∈ sentBy side turns := by
    rw [hsplit, hpe, List.append_assoc]
    exact sentBy_subset_append hrepath
  obtain rfl : target' = target := h.target_of_committed few hsent hm
  refine ⟨y, ?_, hother, sequence, rfl, hinput, hadopted⟩
  rw [hsplit, hpe]
  simp

/-- A copy of the first proposal arrives after the second one was adopted, and takes the side that
answers back to the first path. The second one is committed meanwhile, so the sides rest on
different paths. -/
theorem late_copy_undoes_newer : ∃ turns parties past x rest older newer,
    Exchange (fun _ => .standard) turns parties ∧
      (∀ y ∈ turns, y.side = .sender → y.input.isTrigger = false) ∧
      begun (recordsOf .receiver turns) < UInt64.size ∧ turns = past ++ x :: rest ∧
      x.side = .sender ∧ x.input = .repath older 1 ∧ .repath older 1 ∈ sentBy .receiver past ∧
      (∃ y ∈ past, y.side = .sender ∧ y.input = .repath newer 2 ∧ .adopted newer ∈ y.actions) ∧
      x.before.active.path = newer ∧ x.after.active.path = older ∧ older ≠ newer ∧
      (parties .receiver).coordinator.state = .idle ∧
      (ends (recordsOf .receiver turns)).getLast? = some (.committed 2 newer) ∧
      (parties .sender).active.path ≠ newer := by
  have proposed : Exchange (fun _ => .standard) _ _ :=
    .next .receiver 1 (.trigger ⟨⟨1, by decide⟩⟩ .first) .start (by decide) rfl
  have adopted := proposed.next .sender 2 (.repath ⟨⟨1, by decide⟩⟩ 1) (by decide) rfl
  have committed := adopted.next .receiver 3 (.ack 1) (by decide) rfl
  have proposed' := committed.next .receiver 4
    (.trigger ⟨⟨2, by decide⟩⟩ ⟨⟨1, by decide⟩⟩) (by decide) rfl
  have adopted' := proposed'.next .sender 5 (.repath ⟨⟨2, by decide⟩⟩ 2) (by decide) rfl
  have committed' := adopted'.next .receiver 6 (.ack 2) (by decide) rfl
  have h := committed'.next .sender 7 (.repath ⟨⟨1, by decide⟩⟩ 1) (by decide) rfl
  exact ⟨_, _, [_, _, _, _, _, _], _, [], ⟨⟨1, by decide⟩⟩, ⟨⟨2, by decide⟩⟩, h, by decide,
    by decide, rfl, rfl, rfl, by decide, by decide, rfl, rfl, by decide, rfl, rfl, by decide⟩

/-- **The side that answers follows the proposal that it handled last.** Only `side` is triggered,
and it begins fewer than 2^64 negotiations; the network may lose, delay, duplicate and reorder. A
proposal that the other side handles, a late copy included, takes it to the path proposed, so it
changes nothing just if the proposal handled before named that path; nothing else moves it.
Whenever `side` is at rest and its last negotiation to end was committed, the other side has
adopted that proposal, and is on its path unless the proposal that it handled last is a copy from
an earlier negotiation: then it is on the path of that one. -/
theorem follows_last_handled (h : Exchange tuning turns parties)
    (quiet : ∀ x ∈ turns, x.side = side.other → x.input.isTrigger = false)
    (few : begun (recordsOf side turns) < UInt64.size) :
    (∀ past x rest, turns = past ++ x :: rest → x.side = side.other →
      (x.proposal? = none → x.switches = false) ∧
      ∀ target sequence, x.input = .repath target sequence → x.after.active.path = target ∧
        ∀ last, (handled (turnsOf side.other past)).getLast? = some last →
          (x.switches = false ↔ last.1 = target)) ∧
    ∀ number target, (parties side).coordinator.state = .idle →
      (ends (recordsOf side turns)).getLast? = some (.committed number target) →
      (∃ x ∈ turns, x.side = side.other ∧ ∃ sequence, sequence.toNat = number ∧
        x.record.Adopts target sequence) ∧
      ∃ last, (handled (turnsOf side.other turns)).getLast? = some last ∧
        (parties side.other).active.path = last.1 ∧ last.2.toNat ≤ number ∧
        (last.2.toNat = number → last.1 = target) := by
  refine ⟨fun past x rest hsplit hside => h.following_turn quiet hsplit hside, ?_⟩
  intro number target hidle hlast
  obtain ⟨lives, hlives⟩ := (h.run side).chronicled few
  have hcommitted : .committed number target ∈ chronicle (recordsOf side turns) :=
    (List.mem_filter.1 (List.mem_of_getLast? hlast)).1
  have hadopted := h.adopted_of_committed few hcommitted
  refine ⟨hadopted, ?_⟩
  obtain ⟨x, hx, hside, sequence, -, hinput, -⟩ := hadopted
  have hhandled : handled (turnsOf side.other turns) ≠ [] := by
    apply List.ne_nil_of_mem (a := (target, sequence))
    exact List.mem_filterMap.2
      ⟨x, mem_turnsOf.2 ⟨hx, hside⟩, Turn.proposal?_eq_some_iff.2 hinput⟩
  have hq := List.getLast?_eq_some_getLast hhandled
  generalize (handled (turnsOf side.other turns)).getLast hhandled = last at hq
  have hsent : .repath last.1 last.2 ∈ sentBy side turns := by
    have hsent := h.sent_of_handled (List.mem_of_getLast? hq)
    rwa [Role.other_other] at hsent
  refine ⟨last, hq, (h.following quiet).followed last hq, ?_, ?_⟩
  · -- the negotiation committed is the one begun last
    rw [Option.some.inj (hlives.number_of_last_end hidle hlast)]
    exact h.number_le_begun few hsent
  · rintro rfl
    exact h.target_of_committed few hsent hcommitted

/-- A late copy of the first proposal is followed by a copy of the second one, which brings the
side that answers back to the path committed last. -/
theorem later_copy_restores : ∃ turns parties target last,
    Exchange (fun _ => .standard) turns parties ∧
      (∀ x ∈ turns, x.side = .sender → x.input.isTrigger = false) ∧
      begun (recordsOf .receiver turns) < UInt64.size ∧
      (turnsOf .sender turns).map Turn.switches = [true, true, true, true] ∧
      (parties .receiver).coordinator.state = .idle ∧
      (ends (recordsOf .receiver turns)).getLast? = some (.committed 2 target) ∧
      (handled (turnsOf .sender turns)).getLast? = some last ∧ last.2 = 2 ∧
      (parties .sender).active.path = last.1 ∧ last.1 = target := by
  have proposed : Exchange (fun _ => .standard) _ _ :=
    .next .receiver 1 (.trigger ⟨⟨1, by decide⟩⟩ .first) .start (by decide) rfl
  have adopted := proposed.next .sender 2 (.repath ⟨⟨1, by decide⟩⟩ 1) (by decide) rfl
  have committed := adopted.next .receiver 3 (.ack 1) (by decide) rfl
  have proposed' := committed.next .receiver 4 (.trigger .first ⟨⟨1, by decide⟩⟩) (by decide) rfl
  have adopted' := proposed'.next .sender 5 (.repath .first 2) (by decide) rfl
  have committed' := adopted'.next .receiver 6 (.ack 2) (by decide) rfl
  have late := committed'.next .sender 7 (.repath ⟨⟨1, by decide⟩⟩ 1) (by decide) rfl
  have h := late.next .sender 8 (.repath .first 2) (by decide) rfl
  have follows := @follows_last_handled _ _ _ .receiver h (by decide) (by decide)
  obtain ⟨-, last, hlast, hpath, -, htarget⟩ := follows.2 2 .first rfl rfl
  obtain rfl := Option.some.inj hlast
  exact ⟨_, _, _, _, h, by decide, by decide, by decide, rfl, rfl, rfl, rfl, hpath, htarget rfl⟩

end Exchange

end PathControl.Handshake
