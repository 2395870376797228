import PathControl.Proofs.Endpoint.Bookkeeping

/-!
# The ledger of negotiations

The counters and events of an endpoint balance with what it has negotiated, in every run of its
control loop and after every step.

* `Starting`, `Able`: a control loop that is about to start, and one that can take a step.
  `Control.Spent.respond`, `Able.goes_on`: as long as steps can be counted, the next one goes
  through.
* `Book`, `Ledger`: a run, with all effects that were due so far and the number of negotiations that
  a proposal of the peer put an end to.
* `Balanced`: what holds between steps. `Balanced.step`: a step keeps it.
* `Ledger.poll`: a pass of the control loop consists of steps.
* `Ledger.balances`: the balance of proposals, of negotiations and of confirmations.
-/

namespace PathControl

open PathControl.Endpoint
open PathControl.Handshake
open PathControl.Negotiation
open PathControl.Transport
open PathControl.Wire

namespace Endpoint

variable {e e' : Endpoint} {x : Stimulus} {r : Response}

/-! ### Superseded negotiations -/

/-- How many negotiations of ours a stimulus puts an end to: one, if it is a proposal that is
adopted while a negotiation is unfinished. -/
def supersedes (e : Endpoint) : Stimulus → Nat
  | .frame now bytes =>
    match messageIn e.settings.addressing bytes with
    | some (.repath target sequence) =>
      match e.control.coordinator.onRepath e.control.timers now target sequence with
      | .ok o => e.control.coordinator.superseded o.actions
      | .error _ => 0
    | some (.ack _) | none => 0
  | .timers _ => 0

/-- A stimulus that leaves the negotiations alone supersedes none. -/
theorem Idles.supersedes_eq (h : Idles e x r) : e.supersedes x = 0 := by
  have hunproposed := h.unproposed
  cases x with
  | frame now bytes =>
    rcases hm : messageIn e.settings.addressing bytes with _ | ⟨target, sequence⟩ | sequence
    · simp only [supersedes, hm]
    · simp only [proposal?, messageOf, hm] at hunproposed
      cases hunproposed
    · simp only [supersedes, hm]
  | timers now => rfl

/-- Otherwise as many are superseded as the coordinator gives up. -/
theorem Moves.supersedes_eq {now : UInt64} {i : Input} {plain : List Effect} {o : Outcome}
    (h : Moves e x now i plain o r) (hsound : e.control.party.Sound) :
    e.supersedes x = e.control.coordinator.superseded o.actions := by
  have hhandle := h.handle
  have hmove : e.control.coordinator.Move i o.coordinator o.actions :=
    (hsound.coupled.handle hhandle).2
  cases h.prompts with
  | triggered hm _ | confirmed hm =>
    rw [hmove.superseded_eq_zero rfl]
    simp only [supersedes, hm]
  | proposed hm =>
    simp only [Coordinator.handle] at hhandle
    simp only [supersedes, hm, hhandle]
  | looked => exact (hmove.superseded_eq_zero rfl).symm

/-! ### Steps that can be counted -/

/-- As long as one more of each thing can be counted, a stimulus is responded to. -/
theorem Control.Spent.respond {n : Nat} (h : e.control.Spent n n) (hready : e.control.Ready)
    (x : Stimulus) : ∃ r, e.respond x = .ok r ∧ r.control.Spent (n + 1) (n + 1) := by
  have hstill : e.control.Spent (n + 1) (n + 1) := h.mono (Nat.le_succ n) (Nat.le_succ n)
  cases x with
  | frame now bytes =>
    simp only [Endpoint.respond, decode_eq]
    rcases classify e.settings.addressing bytes with cause | packet | _
    · exact ⟨_, rfl, hstill⟩
    · obtain ⟨c', effects, hpacket, hcosts⟩ := hready.onPacket_succeeds now packet
      dsimp only
      rw [hpacket]
      exact ⟨_, rfl, (h.step hcosts).mono (Nat.le_refl _) (Nat.le_succ n)⟩
    · exact ⟨_, rfl, hstill⟩
  | timers now =>
    unfold Endpoint.respond
    dsimp only
    split
    · obtain ⟨c', effects, fired, htick, hcosts⟩ := hready.tick_succeeds now
      rw [htick]
      exact ⟨_, rfl, h.step hcosts⟩
    · exact ⟨_, rfl, hstill⟩

/-- A response leaves the number of retries as it was set. -/
theorem respond_maxRetries (hsound : e.control.party.Sound) (hr : e.respond x = .ok r) :
    r.control.coordinator.maxRetries = e.control.coordinator.maxRetries := by
  obtain hidle | ⟨now, i, plain, o, hmoves⟩ := respond_moves hr
  · exact congrArg (fun p => p.coordinator.maxRetries) hidle.party
  · have hmove : e.control.coordinator.Move i o.coordinator o.actions :=
      (hsound.coupled.handle hmoves.handle).2
    rw [hmoves.coordinator]
    exact hmove.maxRetries_eq

/-- Whether the control loop of an endpoint is about to start. -/
structure Starting (e : Endpoint) : Prop where
  control : e.control = .new e.settings.tuning e.control.active
  equipped : e.Equipped

/-- Whether an endpoint can take a step as long as `n` and one more of each thing can be counted. -/
structure Able (settings : Settings) (e : Endpoint) (n : Nat) : Prop where
  equipped : e.Equipped
  sound : e.control.party.Sound
  maxRetries : e.control.coordinator.maxRetries = settings.tuning.maxRetries
  spent : settings.tuning.maxRetries.toNat + 1 < UInt32.size → n < UInt64.size →
    e.control.Spent n n

/-- A fresh endpoint is about to start. -/
theorem starting_new {settings : Settings} {now : UInt64} {identification : UInt16}
    (hnew : (Endpoint.new settings now identification).run = .ok (.ok e)) : e.Starting where
  control := by
    obtain ⟨-, rfl⟩ := new_eq_ok hnew
    rfl
  equipped := equipped_new hnew

/-- Switches of the active path are counted on when a control loop starts. -/
theorem Starting.able (h : e.Starting) : Able e.settings e e.control.active.switches.toNat := by
  refine ⟨h.equipped, ?_, ?_, fun _ _ => ?_⟩
  all_goals rw [h.control]
  · exact ⟨.start _ _ _, nofun⟩
  · rfl
  · exact Control.spent_new _ (Nat.le_refl _)

namespace Able

variable {settings : Settings} {n : Nat} {kept : Counter → Prop}

/-- What happens besides takes no step. -/
theorem aside (h : Able settings e n) (haside : Aside kept e e') : Able settings e' n where
  equipped := haside.equipped h.equipped
  sound := haside.control ▸ h.sound
  maxRetries := haside.control ▸ h.maxRetries
  spent := haside.control ▸ h.spent

/-- Who has taken `n` steps is ready for another, as long as that can be counted. -/
theorem ready (h : Able settings e n)
    (hretries : settings.tuning.maxRetries.toNat + 1 < UInt32.size) (few : n + 1 < UInt64.size) :
    e.control.Ready := by
  apply (h.spent hretries (Nat.lt_of_succ_lt few)).ready_of_countable few
  apply Coordinator.countable_of_maxRetries
  rw [h.maxRetries]
  exact hretries

/-- The next step goes through. -/
theorem goes_on (h : Able settings e n)
    (hretries : settings.tuning.maxRetries.toNat + 1 < UInt32.size) (few : n + 1 < UInt64.size)
    (x : Stimulus) : ∃ e', e.take x = .ok e' := by
  obtain ⟨r, hr, -⟩ := (h.spent hretries (Nat.lt_of_succ_lt few)).respond (h.ready hretries few) x
  obtain ⟨e', htake, -⟩ := h.equipped.take hr
  exact ⟨e', htake⟩

/-- A step leaves an endpoint able to take the next one. -/
theorem step (h : Able settings e n) (hr : e.respond x = .ok r) (htake : e.take x = .ok e') :
    Able settings e' (n + 1) := by
  obtain ⟨e₁, htake', hperformed, hequipped⟩ := h.equipped.take hr
  rw [htake] at htake'
  cases htake'
  have hcontrol := hperformed.took.control
  refine ⟨hequipped, ?_, ?_, fun hretries few => ?_⟩
  all_goals rw [hcontrol]
  · exact respond_sound hr h.sound
  · exact (respond_maxRetries h.sound hr).trans h.maxRetries
  · obtain ⟨r', hr', hspent⟩ := (h.spent hretries (Nat.lt_of_succ_lt few)).respond
      (h.ready hretries few) x
    rw [hr] at hr'
    cases hr'
    exact hspent

end Able

/-! ### Runs with their books -/

/-- The books of a run: how many steps it has, the effects that were due, in order, and how many
negotiations were superseded. -/
structure Book where
  steps : Nat
  effects : List Effect
  superseded : Nat

/-- The states of an endpoint between the steps of its control loop, with the books. A step is a
frame that it handles or an occasion to look at its timers. -/
inductive Ledger (settings : Settings) : Endpoint → Book → Prop where
  | start {e : Endpoint} (now : UInt64) (identification : UInt16) :
      (Endpoint.new settings now identification).run = .ok (.ok e) → Ledger settings e ⟨0, [], 0⟩
  | step {e e' : Endpoint} {r : Response} {book : Book} (x : Stimulus) :
      Ledger settings e book → e.respond x = .ok r → e.take x = .ok e' →
      Ledger settings e'
        ⟨book.steps + 1, book.effects ++ r.effects, book.superseded + e.supersedes x⟩
  | elsewhere {e e' : Endpoint} {book : Book} :
      Ledger settings e book → Aside (fun counter => counter.isNegotiation = true) e e' →
      Ledger settings e' book

/-- What holds between steps. -/
structure Balanced (settings : Settings) (e : Endpoint) (book : Book) : Prop
    extends Able settings e book.steps where
  events : e.events = announced book.effects
  counts : ∀ counter : Counter, counter.isNegotiation = true →
    e.traffic.stats.get counter = UInt64.ofNat ((counted book.effects).count counter)
  answered : (counted book.effects).count .acksSent = (counted book.effects).count .repathsReceived
  booked : Booked book.steps 0 book.superseded book.effects e.control.coordinator.unfinished
  trailing : Trailing book.effects e.control.coordinator
  trailed : Trailed settings.tuning.maxRetries.toNat book.effects

namespace Balanced

variable {settings : Settings} {book : Book}

/-- The books of a fresh endpoint are empty, and balance. -/
theorem start {now : UInt64} {identification : UInt16}
    (hnew : (Endpoint.new settings now identification).run = .ok (.ok e)) :
    Balanced settings e ⟨0, [], 0⟩ := by
  have hable := (starting_new hnew).able
  obtain ⟨-, rfl⟩ := new_eq_ok hnew
  refine ⟨hable, rfl, ?_, rfl, Plain.nil.silent.booked 0 0, nofun, .nil⟩
  intro counter _
  exact Stats.get_zero _

/-- What happens besides moves no counter of negotiations. -/
theorem elsewhere (h : Balanced settings e book)
    (haside : Aside (fun counter => counter.isNegotiation = true) e e') :
    Balanced settings e' book := by
  constructor
  · exact h.toAble.aside haside
  · rw [haside.events]
    exact h.events
  · intro counter hcounter
    rw [haside.counts counter hcounter]
    exact h.counts counter hcounter
  · exact h.answered
  · rw [haside.control]
    exact h.booked
  · rw [haside.control]
    exact h.trailing
  · exact h.trailed

/-- An unfinished negotiation has been transmitted at least once. -/
theorem orderly (h : Balanced settings e book) :
    e.control.coordinator.Orderly e.control.active.path where
  aims := h.sound.aims
  begun target sequence timer attempts hs := by
    obtain ⟨⟨_, _, -, -, -, hretries⟩, -⟩ := h.trailing target sequence timer attempts hs
    rintro rfl
    exact Nat.succ_ne_zero _ hretries

/-- What a step does to negotiations, their trails and their number. -/
theorem books (h : Balanced settings e book) (hr : e.respond x = .ok r) :
    Booked (book.steps + 1) 0 (book.superseded + e.supersedes x) (book.effects ++ r.effects)
        r.control.coordinator.unfinished ∧
      Trailing (book.effects ++ r.effects) r.control.coordinator ∧
      Trailed settings.tuning.maxRetries.toNat (book.effects ++ r.effects) := by
  obtain hidle | ⟨now, i, plain, o, hmoves⟩ := respond_moves hr
  · have hsilent := hidle.plain.silent
    have hcoordinator : r.control.coordinator = e.control.coordinator :=
      congrArg Party.coordinator hidle.party
    rw [hidle.supersedes_eq, hcoordinator]
    exact ⟨h.booked.append (hsilent.booked 1 _), h.trailing.append hsilent,
      h.trailed.append hsilent.abandonments⟩
  · have hsilent := hmoves.prompts.silent
    have hmove : e.control.coordinator.Move i o.coordinator o.actions :=
      (h.sound.coupled.handle hmoves.handle).2
    have hplain := h.booked.append (hsilent.booked 0 _)
    have htrailing := h.trailing.append hsilent
    have htrailed := h.trailed.append hsilent.abandonments
    rw [← h.maxRetries] at htrailed ⊢
    rw [hmoves.supersedes_eq h.sound, hmoves.coordinator, hmoves.effects, ← List.append_assoc]
    exact ⟨hplain.append (hmove.booked h.orderly), hmove.trailing h.orderly htrailing,
      hmove.trailed h.orderly htrailing htrailed⟩

/-- A step keeps the books balanced. -/
theorem step (h : Balanced settings e book) (hr : e.respond x = .ok r) (htake : e.take x = .ok e') :
    Balanced settings e'
      ⟨book.steps + 1, book.effects ++ r.effects, book.superseded + e.supersedes x⟩ := by
  have htook := take_took hr htake
  obtain ⟨hbooked, htrailing, htrailed⟩ := h.books hr
  obtain ⟨-, hanswered⟩ := respond_confirms h.sound hr
  constructor
  · exact h.toAble.step hr htake
  · rw [htook.events, h.events, announced_append]
  · intro counter hcounter
    have hsteady : counter.IsSteady := by
      constructor
      · rintro rfl
        cases hcounter
      · rintro rfl
        cases hcounter
    rw [htook.counts counter hsteady, h.counts counter hcounter, counted_append, List.count_append,
      UInt64.ofNat_add]
  · rw [counted_append, List.count_append, List.count_append, h.answered, hanswered]
  · rw [htook.control]
    exact hbooked
  · rw [htook.control]
    exact htrailing
  · exact htrailed

end Balanced

variable {settings : Settings} {book : Book}

/-- The books balance in every run. -/
theorem Ledger.balanced (h : Ledger settings e book) : Balanced settings e book := by
  induction h with
  | start now identification hnew => exact .start hnew
  | step x _ hr htake ih => exact ih.step hr htake
  | elsewhere _ haside ih => exact ih.elsewhere haside

/-- Whether a run has gone on from `book` by the steps `taken`. -/
def Ledger.Onward (settings : Settings) (book : Book) (taken : List Stimulus) (e : Endpoint) :
    Prop :=
  ∃ book', Ledger settings e book' ∧ book'.steps = book.steps + taken.length ∧
    book.effects <+: book'.effects

/-- A run goes on by steps and by what happens besides, and its effects are never taken back. -/
theorem Ledger.Onward.persists :
    Persists (fun counter => counter.isNegotiation = true) (Ledger.Onward settings book) where
  equipped := fun ⟨_, hledger, _⟩ => hledger.balanced.equipped
  step := by
    rintro taken e e' x ⟨book', hledger, hsteps, hpre⟩ htake
    obtain ⟨r, hr, -⟩ := take_eq_ok htake
    refine ⟨_, hledger.step x hr htake, ?_, hpre.trans (List.prefix_append _ _)⟩
    rw [List.length_append, List.length_singleton, ← Nat.add_assoc, ← hsteps]
  aside := fun ⟨book', hledger, hbook⟩ haside => ⟨book', hledger.elsewhere haside, hbook⟩

/-- A pass of the control loop is a step for each frame of a burst, and one for the timers. -/
theorem Ledger.poll {now : UInt64} {handled : Nat} (h : Ledger settings e book)
    (hpoll : e.poll now = .ok (e', handled)) :
    ∃ book', Ledger settings e' book' ∧ book'.steps = book.steps + e.fetch.batch.length + 1 ∧
      book.effects <+: book'.effects := by
  have hstart : Onward settings book [] e := ⟨book, h, rfl, List.prefix_refl _⟩
  obtain ⟨book', hledger, hsteps, hpre⟩ := Onward.persists.poll hstart hpoll
  refine ⟨book', hledger, ?_, hpre⟩
  rw [hsteps, List.nil_append, pass, List.length_append, List.length_map, ← Nat.add_assoc]
  rfl

/-- A count that has not come to the end of its word. -/
theorem Balanced.toNat_get (h : Balanced settings e book) (few : book.steps < UInt64.size)
    {counter : Counter} (hcounter : counter.isNegotiation = true)
    (hle : (counted book.effects).count counter ≤ book.steps) :
    (e.traffic.stats.get counter).toNat = (counted book.effects).count counter := by
  rw [h.counts counter hcounter]
  exact UInt64.toNat_ofNat_of_lt (Nat.lt_of_le_of_lt hle few)

/-- **The ledger of negotiations balances.** After every step of a run:

* As many confirmations have been counted as proposals of the peer.
* As many proposals were sent as were repeated, and started a negotiation.
* A negotiation that was started has been committed, given up, superseded by a proposal of the peer
  that was adopted, or is the unfinished one.
* As many negotiations were counted as given up as were announced. Each had its start, no other
  start after that, and as many repetitions as there may be.
* A stimulus leads to one attempt to confirm if it is a proposal, with its sequence number and on
  its path, and to none otherwise. (An attempt is a packet to be sent among the effects; `Performed`
  says what becomes of each on the outlet.)
* A proposal that is sent again is sent at a look at the timers, on the path that is best then.
* The next step goes through and carries out its effects, as long as the transmissions of a proposal
  and the steps can be counted; and a pass of the control loop consists of steps. -/
theorem Ledger.balances (h : Ledger settings e book) (few : book.steps < UInt64.size) :
    e.traffic.stats.get .acksSent = e.traffic.stats.get .repathsReceived ∧
      (e.traffic.stats.get .repathsSent).toNat =
        (e.traffic.stats.get .repathRetries).toNat + e.events.countP Event.isStart ∧
      e.events.countP Event.isStart = e.events.countP Event.isCommit +
        (e.traffic.stats.get .abandoned).toNat + book.superseded +
          e.control.coordinator.unfinished ∧
      (e.traffic.stats.get .abandoned).toNat = e.events.countP Event.isAbandonment ∧
      e.events = announced book.effects ∧
      Trailed settings.tuning.maxRetries.toNat book.effects ∧
      (∀ x r, e.respond x = .ok r → confirmations r.effects = (e.proposal? x).toList ∧
        ∀ target via sequence, .send (.repath target sequence) via ∈ r.effects →
          .announce (.negotiationStarted target sequence) ∉ r.effects →
          (∃ now, x = .timers now) ∧ via = e.control.estimator.best ∧
            r.control.estimator = e.control.estimator ∧
            r.effects = [.count .repathsSent, .count .repathRetries,
              .send (.repath target sequence) via]) ∧
      (settings.tuning.maxRetries.toNat + 1 < UInt32.size → book.steps + 1 < UInt64.size → ∀ x,
        ∃ r e', e.respond x = .ok r ∧ e.take x = .ok e' ∧ Performed (e.turned r) r.effects e' ∧
          Ledger settings e'
            ⟨book.steps + 1, book.effects ++ r.effects, book.superseded + e.supersedes x⟩) ∧
      ∀ now e' handled, e.poll now = .ok (e', handled) → ∃ book', Ledger settings e' book' ∧
        book'.steps = book.steps + e.fetch.batch.length + 1 ∧ book.effects <+: book'.effects := by
  have hbalanced := h.balanced
  obtain ⟨hsent, hended, habandoned, hfewSent, hfewAbandoned⟩ := hbalanced.booked
  have hfewRetries : (counted book.effects).count .repathRetries ≤ book.steps := by
    apply Nat.le_trans _ hfewSent
    rw [hsent]
    exact Nat.le_add_right _ _
  refine ⟨?_, ?_, ?_, ?_, hbalanced.events, hbalanced.trailed, ?_, ?_, ?_⟩
  · rw [hbalanced.counts _ rfl, hbalanced.counts _ rfl, hbalanced.answered]
  · rw [hbalanced.toNat_get few rfl hfewSent, hbalanced.toNat_get few rfl hfewRetries,
      hbalanced.events]
    exact hsent
  · rw [hbalanced.toNat_get few rfl hfewAbandoned, hbalanced.events, habandoned]
    exact hended
  · rw [hbalanced.toNat_get few rfl hfewAbandoned, hbalanced.events]
    exact habandoned
  · intro x r hr
    exact ⟨(respond_confirms hbalanced.sound hr).1, fun target via sequence hsent hstarted =>
      respond_repeats hbalanced.sound hbalanced.orderly hr hsent hstarted⟩
  · intro hretries hsteps x
    have hspent := hbalanced.spent hretries few
    obtain ⟨r, hr, -⟩ := hspent.respond (hbalanced.ready hretries hsteps) x
    obtain ⟨e', htake, hperformed, -⟩ := hbalanced.equipped.take hr
    exact ⟨r, e', hr, htake, hperformed, h.step x hr htake⟩
  · intro now e' handled hpoll
    exact h.poll hpoll

/-- A proposal of the peer is confirmed; no negotiation is superseded, and another one may come. -/
theorem first_proposal_balanced :
    ∃ e e' effects, Ledger .standard e ⟨1, effects, 0⟩ ∧ e.traffic.stats.get .acksSent = 1 ∧
      e.traffic.stats.get .repathsReceived = 1 ∧ e.events.countP Event.isStart = 0 ∧
      e.take (peerProposes ⟨⟨2, by decide⟩⟩ 6 10) = .ok e' := by
  let third : PathId := ⟨⟨2, by decide⟩⟩
  have hnew : (Endpoint.new .standard 0 7).run = .ok (.ok (atRest .standard 0 7)) := rfl
  have heval : ((atRest .standard 0 7).take (peerProposes third 5 9)).toOption.any (fun e =>
      e.traffic.stats.get .acksSent = 1 ∧ e.events.countP Event.isStart = 0 ∧
        (atRest .standard 0 7).supersedes (peerProposes third 5 9) = 0) = true := by
    decide +kernel
  obtain ⟨e, htake, hholds⟩ := Checked.exists_of_any heval
  obtain ⟨hacks, hstarts, hsuperseded⟩ := of_decide_eq_true hholds
  obtain ⟨r, hr, -⟩ := take_eq_ok htake
  have hstep : Ledger .standard e ⟨1, r.effects, 0⟩ := by
    have hrun := (Ledger.start 0 7 hnew).step (peerProposes third 5 9) hr htake
    rw [hsuperseded] at hrun
    exact hrun
  have few : 1 < UInt64.size := by decide
  have few' : 1 + 1 < UInt64.size := by decide
  obtain ⟨hanswered, -, -, -, -, -, -, hnext, -⟩ := hstep.balances few
  obtain ⟨r', e', -, hsecond, -⟩ := hnext (by decide) few' (peerProposes third 6 10)
  exact ⟨e, e', r.effects, hstep, hacks, hanswered ▸ hacks, hstarts, hsecond⟩

end Endpoint

end PathControl
