import PathControl.Proofs.Handshake.Exchange

/-!
# Commitments and adoptions

Either side may propose at any moment, and their proposals may cross. The network may lose, delay,
duplicate and reorder what is sent, but it does not forge.

* `Exchange.committed_was_adopted`: a side commits a path only for a proposal of its own that the
  peer has adopted before.

The confirmation that commits was sent by the peer along with its adoption or later, for a copy
that its guard recognised; either way the peer has adopted a proposal with that number
(`Run.adopted_of_acked`), and a number stands for one path only (`Exchange.target_unique`).
-/

namespace PathControl.Handshake

open PathControl.Negotiation

namespace Exchange

variable {tuning : Role → Tuning} {turns : List Turn} {parties : Role → Party}

/-- A confirmation under way answers an adoption of a proposal that had been sent. -/
theorem adopted_of_ack_sent (h : Exchange tuning turns parties) {side : Role} {sequence : UInt64}
    (hack : .ack sequence ∈ sentBy side turns) :
    ∃ earlier y later target, turns = earlier ++ y :: later ∧ y.side = side ∧
      y.input = .repath target sequence ∧ .adopted target ∈ y.actions ∧
      .repath target sequence ∈ sentBy side.other earlier := by
  obtain ⟨r, hr, via, ha⟩ := ack_mem_sentBy.1 hack
  obtain ⟨r', hr', target, hinput, hadopted⟩ := (h.run side).adopted_of_acked hr ha
  obtain ⟨y, hy, rfl, rfl⟩ := mem_recordsOf.1 hr'
  obtain ⟨earlier, later, hsplit⟩ := List.append_of_mem hy
  refine ⟨earlier, y, later, target, hsplit, rfl, hinput, hadopted, ?_⟩
  -- the proposal was not forged
  obtain ⟨-, -, -, hreach, -⟩ := h.split hsplit
  have hi : y.input = .repath target sequence := hinput
  rw [hi] at hreach
  exact hreach

/-- **A committed path was adopted by the peer.** Over a network that does not forge messages, a
side that proposes fewer than 2^64 times commits a path only when the outstanding negotiation is
confirmed by its number. All its proposals under that number name that path, and at an earlier
turn the peer adopted it while it handled one of them. -/
theorem committed_was_adopted (h : Exchange tuning turns parties) {past rest : List Turn}
    {x : Turn} {target : PathId} (hsplit : turns = past ++ x :: rest)
    (few : begun (recordsOf x.side turns) < UInt64.size) (hcommit : .committed target ∈ x.actions) :
    ∃ sequence timer attempts,
      x.before.coordinator.state = .awaitingAck target sequence timer attempts ∧
      x.input = .ack sequence ∧
      (∀ target', .repath target' sequence ∈ sentBy x.side turns → target' = target) ∧
      ∃ earlier y later, past = earlier ++ y :: later ∧ y.side = x.side.other ∧
        y.input = .repath target sequence ∧ .adopted target ∈ y.actions ∧
        .repath target sequence ∈ sentBy x.side earlier := by
  have hx : x ∈ turns := hsplit ▸ List.mem_append_right _ List.mem_cons_self
  obtain ⟨sequence, timer, attempts, hi, hs⟩ := (h.move hx).1.of_committed hcommit
  obtain ⟨parties, hpast, hbefore, hreach, -⟩ := h.split hsplit
  have hturns : sentBy x.side past ⊆ sentBy x.side turns := by
    rw [hsplit]
    exact sentBy_subset_append
  -- the number of the outstanding negotiation stands for its path
  have hsent : .repath target sequence ∈ sentBy x.side turns := by
    apply hturns
    apply hpast.sent_of_awaitingAck
    · rw [hsplit] at few
      exact Nat.lt_of_le_of_lt begun_recordsOf_le few
    · rw [← hbefore]
      exact hs
  have hunique : ∀ target', .repath target' sequence ∈ sentBy x.side turns → target' = target := by
    intro target' hm
    exact h.target_unique few hm hsent
  refine ⟨sequence, timer, attempts, hs, hi, hunique, ?_⟩
  rw [hi] at hreach
  obtain ⟨earlier, y, later, target', hpe, hside, hinput, hadopted, hrepath⟩ :=
    hpast.adopted_of_ack_sent hreach
  rw [Role.other_other] at hrepath
  have heq : target' = target := by
    apply hunique
    apply hturns
    rw [hpe]
    exact sentBy_subset_append hrepath
  subst heq
  exact ⟨earlier, y, later, hpe, hside, hinput, hadopted, hrepath⟩

/-- A confirmation that the peer repeats commits the first negotiation once, and does not commit
the second one. -/
theorem repeated_ack_commits_once : ∃ turns parties past x rest target,
    Exchange (fun _ => .standard) turns parties ∧ turns = past ++ x :: rest ∧
      begun (recordsOf x.side turns) < UInt64.size ∧ .committed target ∈ x.actions ∧
      (rest.map fun y => y.actions) = [[.sendRepath .first .first 2 1], []] ∧
      ∃ sequence, x.input = .ack sequence ∧
        ∃ earlier y later, past = earlier ++ y :: later ∧ y.side = x.side.other ∧
          y.input = .repath target sequence ∧ .adopted target ∈ y.actions := by
  have h : Exchange (fun _ => .standard) _ _ :=
    .next .receiver 6 (.ack 1)
      (.next .receiver 5 (.trigger .first ⟨⟨2, by decide⟩⟩)
        (.next .receiver 4 (.ack 1)
          (.next .sender 3 (.repath ⟨⟨2, by decide⟩⟩ 1)
            (.next .sender 2 (.repath ⟨⟨2, by decide⟩⟩ 1)
              (.next .receiver 1 (.trigger ⟨⟨2, by decide⟩⟩ .first) .start (by decide) rfl)
              (by decide) rfl)
            (by decide) rfl)
          (by decide) rfl)
        (by decide) rfl)
      (by decide) rfl
  refine ⟨_, _, [_, _, _], _, [_, _], ⟨⟨2, by decide⟩⟩, h, rfl, by decide, by decide, rfl, ?_⟩
  obtain ⟨sequence, -, -, -, hi, -, earlier, y, later, hpast, hside, hinput, hadopted, -⟩ :=
    committed_was_adopted h (rfl : _ = [_, _, _] ++ _ :: [_, _]) (by decide)
      (List.mem_singleton_self _)
  exact ⟨sequence, hi, earlier, y, later, hpast, hside, hinput, hadopted⟩

end Exchange

end PathControl.Handshake
