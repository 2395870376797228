import PathControl.Proofs.Endpoint.Lockstep

/-!
# Copies of a proposal

A copy of the proposal handled last is answered and does nothing else, as long as the guard of that
proposal stands, whatever other frames and looks at the timers come in between.

* `Window`: the proposal handled last, until the timer of its guard is reported.
* `Control.Told.guard_eq`, `Control.tick_guard_eq`: while the window is open, the guard stands.
* `Doubled`: two runs on the same stimuli, of which one is given copies within the window besides.
* `Doubled.copies_invisible`: they have the same control state and the same history.
-/

namespace PathControl.Negotiation.Coordinator

variable {c : Coordinator} {w : TimerWheel} {now : UInt64} {best : PathId} {o : Outcome}
  {g : Guard}

/-- A timer that is not that of the guard leaves the guard alone. -/
theorem guard_of_onTimer {t : TimerHandle} {kind : TimerKind} (hg : c.guard = some g)
    (hne : (t, kind) ≠ (g.timer, .guard)) (ho : c.onTimer w now t kind best = .ok o) :
    o.coordinator.guard = some g := by
  cases kind with
  | guard =>
    have hother : ¬ (c.guard.any fun g => g.timer == t) = true := by
      rw [hg, Option.any_some, beq_iff_eq]
      intro heq
      exact hne (by rw [heq])
    simp only [onTimer, if_neg hother] at ho
    cases ho
    exact hg
  | repathRetry =>
    simp only [onTimer, onRetryTimer] at ho
    split at ho
    · cases ho
      exact hg
    · split at ho
      · cases ho
        exact hg
      · split at ho
        · cases ho
          exact hg
        · obtain ⟨attempt, -, ho⟩ := Checked.bind_eq_ok_iff.1 ho
          obtain ⟨⟨w', t'⟩, -, ho⟩ := Checked.bind_eq_ok_iff.1 ho
          cases ho
          exact hg

/-- So do any number of timers without that of the guard. -/
theorem guard_of_onTimers {fired : List (TimerHandle × TimerKind)} (hg : c.guard = some g)
    (hnot : (g.timer, .guard) ∉ fired) (ho : c.onTimers w now best fired = .ok o) :
    o.coordinator.guard = some g := by
  induction fired generalizing c w o with
  | nil =>
    cases ho
    exact hg
  | cons x fired ih =>
    obtain ⟨first, hfirst, ho⟩ := Checked.bind_eq_ok_iff.1 ho
    obtain ⟨rest, hrest, ho⟩ := Checked.bind_eq_ok_iff.1 ho
    cases ho
    rw [List.mem_cons, not_or] at hnot
    have hkept := guard_of_onTimer hg (Ne.symm hnot.1) hfirst
    have hlast : rest.coordinator.guard = some g := ih hkept hnot.2 hrest
    exact hlast

/-- Triggers and confirmations are no affair of the guard. -/
theorem Move.guard_eq_of_unproposed {c' : Coordinator} {i : Input} {actions : List Action}
    (h : c.Move i c' actions) (hrepath : ∀ target sequence, i ≠ .repath target sequence)
    (htick : ∀ best, i ≠ .tick best) : c'.guard = c.guard := by
  cases h with
  | repeated _ | adopted _ _ => exact absurd rfl (hrepath _ _)
  | quiet _ | resent _ _ _ _ _ | abandoned _ _ _ => exact absurd rfl (htick _)
  | _ => rfl

end PathControl.Negotiation.Coordinator

namespace PathControl

open PathControl.Endpoint
open PathControl.Handshake
open PathControl.Negotiation
open PathControl.Transport
open PathControl.Wire

namespace Endpoint.Control

variable {c c' : Control} {now : UInt64} {effects : List Effect} {g : Guard}

/-- Nothing but a proposal touches the guard, among packets. -/
theorem Told.guard_eq {m : Option Message} (h : c.Told now m c' effects)
    (hsound : c.party.Sound) (hm : ∀ target sequence, m ≠ some (.repath target sequence)) :
    c'.coordinator.guard = c.coordinator.guard := by
  cases h with
  | noted hparty _ => exact congrArg (fun p => p.coordinator.guard) hparty
  | @triggered c₀ _ _ _ o hparty _ ho hfollow =>
    have hcoupled : Coupled c₀.coordinator c₀.timers [] := by
      rw [← hparty] at hsound
      exact hsound.coupled
    obtain ⟨-, hmove⟩ := hcoupled.handle ho
    rw [(follow_carriesOut hfollow).coordinator,
      hmove.guard_eq_of_unproposed (fun _ _ he => nomatch he) (fun _ he => nomatch he)]
    exact congrArg (fun p => p.coordinator.guard) hparty
  | @heard m _ _ o ho hfollow =>
    obtain ⟨-, hmove⟩ := hsound.coupled.handle ho
    rw [(follow_carriesOut hfollow).coordinator]
    cases m with
    | repath target sequence => exact absurd rfl (hm target sequence)
    | ack sequence =>
      exact hmove.guard_eq_of_unproposed (fun _ _ he => nomatch he) (fun _ he => nomatch he)

/-- A look that does not report its timer leaves the guard alone. -/
theorem tick_guard_eq {fired : Nat} (h : c.tick now = .ok ((c', effects), fired))
    (hg : c.coordinator.guard = some g)
    (hnot : (g.timer, .guard) ∉ (c.timers.pollExpired now).2) :
    c'.coordinator.guard = some g := by
  obtain ⟨⟨c₁, effects₁⟩, hstep, h⟩ := Checked.bind_eq_ok_iff.1 h
  cases h
  obtain ⟨o, ho, hcarried⟩ := onTimers_carriesOut hstep
  rw [hcarried.coordinator]
  exact Coordinator.guard_of_onTimers hg hnot ho

/-- A proposal leaves its guard standing, whether it is adopted or a copy. -/
theorem onRepath_guard {target : PathId} {sequence : UInt64} (hsound : c.party.Sound)
    (h : c.onRepath now target sequence = .ok (c', effects)) :
    ∃ timer, c'.coordinator.guard = some ⟨target, sequence, timer⟩ := by
  obtain ⟨o, ho, h⟩ := Checked.bind_eq_ok_iff.1 h
  obtain ⟨⟨c₁, effects₁⟩, hfollow, h⟩ := Checked.bind_eq_ok_iff.1 h
  cases h
  obtain ⟨-, hmove⟩ := hsound.coupled.onRepath ho
  rw [(follow_carriesOut hfollow).coordinator]
  exact hmove.of_repath.1

/-- While its guard stands, a proposal is counted and answered, and that is all. -/
theorem onRepath_of_guard {target : PathId} {sequence : UInt64} {timer : TimerHandle}
    (hg : c.coordinator.guard = some ⟨target, sequence, timer⟩) (now : UInt64) :
    c.onRepath now target sequence =
      .ok (c, [.count .repathsReceived, .count .acksSent,
        .send (.repathAck sequence) target]) := by
  have hduplicate : c.coordinator.isDuplicate target sequence = true := by
    simp [Coordinator.isDuplicate, hg]
  simp only [onRepath, Coordinator.onRepath, hduplicate, if_true]
  rfl

end Endpoint.Control

namespace Endpoint

/-! ### The window -/

/-- The proposal handled last, with the timer that was left to guard it. -/
structure Window where
  target : PathId
  sequence : UInt64
  timer : Option TimerHandle
  deriving DecidableEq, Repr

/-- The window after a stimulus that leads from `e` to `e'`. A proposal opens its own, and the
window closes when its timer is reported. -/
def windowAfter (window : Option Window) (e e' : Endpoint) : Stimulus → Option Window
  | .frame _ bytes =>
    match messageIn e.settings.addressing bytes with
    | some (.repath target sequence) =>
      some ⟨target, sequence, e'.control.coordinator.guard.map Guard.timer⟩
    | some (.ack _) | none => window
  | .timers now =>
    if e.isDue now then
      window.filter fun w =>
        !w.timer.any fun timer => (e.control.timers.pollExpired now).2.contains (timer, .guard)
    else window

variable {window : Option Window} {e e₁ e' e₁' : Endpoint} {x : Stimulus} {r : Response}

/-- Whether the guard of the proposal handled last stands while the window is open. -/
def Guarded (window : Option Window) (c : Control) : Prop :=
  ∀ w, window = some w → ∃ timer, w.timer = some timer ∧
    c.coordinator.guard = some ⟨w.target, w.sequence, timer⟩

/-- A frame that proposes nothing leaves the guard alone. -/
theorem guard_eq_of_unproposed {now : UInt64} {bytes : Bytes} (hsound : e.control.party.Sound)
    (hm : ∀ target sequence,
      messageIn e.settings.addressing bytes ≠ some (.repath target sequence))
    (hr : e.respond (.frame now bytes) = .ok r) :
    r.control.coordinator.guard = e.control.coordinator.guard := by
  obtain ⟨-, hcontrol, -⟩ | ⟨now', bytes', packet, hx, hdecode, hpacket, -⟩ |
    ⟨_, _, hx, -⟩ := respond_eq_ok hr
  · rw [hcontrol]
  · cases hx
    obtain ⟨-, -, hcontrol, -⟩ | ⟨rest, -, htold⟩ := Control.onPacket_told hpacket
    · rw [hcontrol]
    · rw [messageIn_of_decode hdecode] at hm
      exact htold.guard_eq hsound hm
  · cases hx

/-- A look at the timers that does not report that of the guard leaves the guard alone. -/
theorem guard_eq_of_unreported {now : UInt64} {g : Guard}
    (hg : e.control.coordinator.guard = some g)
    (hnot : e.isDue now = true → (g.timer, .guard) ∉ (e.control.timers.pollExpired now).2)
    (hr : e.respond (.timers now) = .ok r) : r.control.coordinator.guard = some g := by
  obtain ⟨-, hcontrol, -⟩ | ⟨_, _, _, hx, -⟩ | ⟨now', fired, hx, hdue, htick, -⟩ :=
    respond_eq_ok hr
  · rw [hcontrol]
    exact hg
  · cases hx
  · cases hx
    exact Control.tick_guard_eq htick hg (hnot hdue)

/-- The guard stands for as long as the window is open. -/
theorem Guarded.respond (h : Guarded window e.control) (hsound : e.control.party.Sound)
    (hr : e.respond x = .ok r) (hcontrol : e₁.control = r.control) :
    Guarded (windowAfter window e e₁ x) e₁.control := by
  intro w hw
  rw [hcontrol]
  cases x with
  | frame now bytes =>
    unfold windowAfter at hw
    dsimp only at hw
    split at hw
    · next target sequence hm =>
      rw [respond_proposal hm] at hr
      obtain ⟨⟨control, effects⟩, hrepath, hr⟩ := Checked.bind_eq_ok_iff.1 hr
      cases hr
      obtain ⟨timer, hguard⟩ := Control.onRepath_guard hsound hrepath
      cases hw
      rw [hcontrol, hguard]
      exact ⟨timer, rfl, rfl⟩
    · next hm =>
      obtain ⟨timer, htimer, hguard⟩ := h w hw
      rw [guard_eq_of_unproposed hsound (fun _ _ => by rw [hm]; nofun) hr]
      exact ⟨timer, htimer, hguard⟩
    · next hm =>
      obtain ⟨timer, htimer, hguard⟩ := h w hw
      rw [guard_eq_of_unproposed hsound (fun _ _ => by rw [hm]; nofun) hr]
      exact ⟨timer, htimer, hguard⟩
  | timers now =>
    have hopen : window = some w ∧ (e.isDue now = true → ∀ timer, w.timer = some timer →
        (timer, .guard) ∉ (e.control.timers.pollExpired now).2) := by
      unfold windowAfter at hw
      dsimp only at hw
      split at hw
      · obtain ⟨hsome, hkept⟩ := Option.filter_eq_some_iff.1 hw
        refine ⟨hsome, fun _ timer htimer => ?_⟩
        simpa [htimer] using hkept
      · next hdue => exact ⟨hw, fun h => absurd h hdue⟩
    obtain ⟨timer, htimer, hguard⟩ := h w hopen.1
    exact ⟨timer, htimer,
      guard_eq_of_unreported hguard (fun hdue => hopen.2 hdue timer htimer) hr⟩

/-- How an endpoint responds to a copy while the window is open. -/
theorem Guarded.respond_copy {w : Window} {bytes : Bytes} (h : Guarded (some w) e.control)
    (now : UInt64)
    (hm : messageIn e.settings.addressing bytes = some (.repath w.target w.sequence)) :
    e.respond (.frame now bytes) = .ok ⟨e.control, e.lastTick,
      [.count .repathsReceived, .count .acksSent, .send (.repathAck w.sequence) w.target]⟩ := by
  obtain ⟨timer, -, hguard⟩ := h w rfl
  rw [respond_proposal hm, Control.onRepath_of_guard hguard]
  rfl

/-! ### Two runs -/

/-- What `copies` copies count. -/
def copied (copies : Nat) (counter : Counter) : Nat :=
  if counter = .repathsReceived ∨ counter = .acksSent then copies else 0

/-- One more copy is one more proposal received and one more confirmation. -/
theorem copied_succ (copies : Nat) (counter : Counter) (header : Header) (path : PathId) :
    copied copies counter +
        (counted [.count .repathsReceived, .count .acksSent, .send header path]).count counter =
      copied (copies + 1) counter := by
  show copied copies counter + [Counter.repathsReceived, .acksSent].count counter = _
  unfold copied
  by_cases h : counter = .repathsReceived ∨ counter = .acksSent
  · rw [if_pos h, if_pos h]
    rcases h with rfl | rfl <;> rfl
  · rw [if_neg h, if_neg h, Nat.zero_add]
    apply List.count_eq_zero.2
    simpa using h

/-- Two runs on the same stimuli. The second one is given some copies besides: frames that propose
what was proposed last, while the window of that proposal is open. Between the stimuli, anything may
happen to either that is no affair of the control loop. -/
inductive Doubled (settings : Settings) : Endpoint → Endpoint → Option Window → Nat → Prop where
  | start {e : Endpoint} (now : UInt64) (identification : UInt16) :
      (Endpoint.new settings now identification).run = .ok (.ok e) → Doubled settings e e none 0
  | both {e e₁ e' e₁' : Endpoint} {window : Option Window} {copies : Nat} (x : Stimulus) :
      Doubled settings e e' window copies → e.take x = .ok e₁ → e'.take x = .ok e₁' →
      Doubled settings e₁ e₁' (windowAfter window e e₁ x) copies
  | copy {e e' e₁' : Endpoint} {w : Window} {copies : Nat} (now : UInt64) (bytes : Bytes) :
      Doubled settings e e' (some w) copies →
      messageIn e'.settings.addressing bytes = some (.repath w.target w.sequence) →
      e'.take (.frame now bytes) = .ok e₁' → Doubled settings e e₁' (some w) (copies + 1)
  | first {e e₁ e' : Endpoint} {window : Option Window} {copies : Nat} :
      Doubled settings e e' window copies → Aside Counter.IsSteady e e₁ →
      Doubled settings e₁ e' window copies
  | second {e e' e₁' : Endpoint} {window : Option Window} {copies : Nat} :
      Doubled settings e e' window copies → Aside Counter.IsSteady e' e₁' →
      Doubled settings e e₁' window copies

/-- What holds of two such runs: they are alike, and the guard stands in both. -/
structure Matched (e e' : Endpoint) (window : Option Window) (copies : Nat) : Prop where
  alike : Alike (copied copies) e e'
  sound : e.control.party.Sound
  guarded : Guarded window e.control

namespace Matched

variable {copies : Nat}

/-- A stimulus that both take keeps them matched. -/
theorem both (h : Matched e e' window copies) (hstep : e.take x = .ok e₁)
    (hstep' : e'.take x = .ok e₁') : Matched e₁ e₁' (windowAfter window e e₁ x) copies := by
  obtain ⟨r, hr, hperformed⟩ := take_eq_ok hstep
  have hcontrol : e₁.control = r.control := hperformed.took.control
  refine ⟨h.alike.both hstep hstep', ?_, h.guarded.respond h.sound hr hcontrol⟩
  rw [hcontrol]
  exact respond_sound hr h.sound

/-- The guard stands in the second run too, as both have one control state. -/
theorem guarded_second (h : Matched e e' window copies) : Guarded window e'.control := by
  rw [h.alike.control]
  exact h.guarded

/-- A copy is counted and answered, and that is all. -/
theorem copy {w : Window} {bytes : Bytes} (h : Matched e e' (some w) copies) (now : UInt64)
    (hm : messageIn e'.settings.addressing bytes = some (.repath w.target w.sequence)) :
    ∃ e₁', e'.take (.frame now bytes) = .ok e₁' ∧ Matched e e₁' (some w) (copies + 1) := by
  have hr := h.guarded_second.respond_copy now hm
  obtain ⟨e₁', hstep, hperformed, hequipped⟩ := h.alike.second.take hr
  have htook := hperformed.took
  refine ⟨e₁', hstep, ⟨?_, ?_, ?_, ?_, ?_, ?_, h.alike.first, hequipped⟩, h.sound, h.guarded⟩
  · rw [htook.settings, h.alike.addressing]
  · rw [htook.settings, h.alike.resolution]
  · rw [htook.control, h.alike.control]
  · rw [htook.lastTick, h.alike.lastTick]
  · rw [htook.events]
    exact (List.append_nil _).trans h.alike.events
  · intro counter hsteady
    rw [htook.counts counter hsteady, h.alike.counts counter hsteady, UInt64.add_assoc,
      ← UInt64.ofNat_add, copied_succ]

end Matched

variable {settings : Settings} {copies : Nat}

/-- Two runs of which one is given copies are matched. -/
theorem Doubled.matched (h : Doubled settings e e' window copies) :
    Matched e e' window copies := by
  induction h with
  | start now identification hnew =>
    have hequipped := equipped_new hnew
    obtain ⟨-, rfl⟩ := new_eq_ok hnew
    have hnone : copied 0 = fun _ => 0 := funext fun _ => ite_self _
    refine ⟨?_, Party.sound_new _, nofun⟩
    rw [hnone]
    exact .refl hequipped
  | both x _ hstep hstep' ih => exact ih.both hstep hstep'
  | copy now bytes _ hm hstep ih =>
    obtain ⟨e₁', hstep', hmatched⟩ := ih.copy now hm
    rw [hstep] at hstep'
    cases hstep'
    exact hmatched
  | first _ haside ih =>
    refine ⟨ih.alike.asideFirst haside, ?_, ?_⟩
    · rw [haside.control]
      exact ih.sound
    · rw [haside.control]
      exact ih.guarded
  | second _ haside ih => exact ⟨ih.alike.asideSecond haside, ih.sound, ih.guarded⟩

/-- **Copies of a proposal are invisible to the control state.** Two endpoints take the same frames
and look at their timers at the same times, and one of them is given any number of copies besides,
each of the proposal that was handled last and before the timer of its guard is reported. They have
the same control state (negotiation, guard, timers, delays, best path, trigger history and active
path), have announced the same events, and respond to everything alike. What differs are the counts
of proposals received and of confirmations, by one for each copy, besides those of failures to send.
The next stimulus goes through for both, and both carry out the same effects, each packet to be sent
being attempted on the outlet of either; or it faults for both alike. Another copy goes through, and
what it does to the outlet is two counts and one attempt to confirm it. -/
theorem Doubled.copies_invisible (h : Doubled settings e e' window copies) :
    e'.control = e.control ∧ e'.events = e.events ∧
      (∀ counter, counter ≠ .bufferExhausted → counter ≠ .egressDropped →
        e'.traffic.stats.get counter = e.traffic.stats.get counter +
          if counter = .repathsReceived ∨ counter = .acksSent then UInt64.ofNat copies else 0) ∧
      (∀ x, e'.respond x = e.respond x ∧
        ((∃ r e₁ e₁', e.respond x = .ok r ∧ e.take x = .ok e₁ ∧ e'.take x = .ok e₁' ∧
            Performed (e.turned r) r.effects e₁ ∧ Performed (e'.turned r) r.effects e₁' ∧
            Doubled settings e₁ e₁' (windowAfter window e e₁ x) copies) ∨
          ∃ fault, e.take x = .error fault ∧ e'.take x = .error fault)) ∧
      ∀ w now bytes, window = some w →
        messageIn e'.settings.addressing bytes = some (.repath w.target w.sequence) →
        e'.respond (.frame now bytes) = .ok ⟨e'.control, e'.lastTick, [.count .repathsReceived,
            .count .acksSent, .send (.repathAck w.sequence) w.target]⟩ ∧
          ∃ e₁', e'.take (.frame now bytes) = .ok e₁' ∧
            Performed e' [.count .repathsReceived, .count .acksSent,
              .send (.repathAck w.sequence) w.target] e₁' ∧
            Doubled settings e e₁' window (copies + 1) := by
  have hmatched := h.matched
  refine ⟨hmatched.alike.control, hmatched.alike.events, ?_, ?_, ?_⟩
  · intro counter hexhausted hdropped
    rw [hmatched.alike.counts counter ⟨hexhausted, hdropped⟩, copied, apply_ite UInt64.ofNat]
    rfl
  · intro x
    have hrespond := hmatched.alike.respond_eq x
    refine ⟨hrespond, ?_⟩
    obtain ⟨e₁, e₁', hstep, hstep', -⟩ | hfault := hmatched.alike.take x
    · obtain ⟨r, hr, hperformed⟩ := take_eq_ok hstep
      have hperformed' := take_performed (hrespond.trans hr) hstep'
      exact .inl ⟨r, e₁, e₁', hr, hstep, hstep', hperformed, hperformed', h.both x hstep hstep'⟩
    · exact .inr hfault
  · rintro w now bytes rfl hm
    have hr := hmatched.guarded_second.respond_copy now hm
    obtain ⟨e₁', hstep, -⟩ := hmatched.copy now hm
    exact ⟨hr, e₁', hstep, take_performed hr hstep, h.copy now bytes hm hstep⟩

/-- A standard endpoint after a proposal of its peer, and again after a look at its timers a second
later. -/
def proposedAndLooked (target : PathId) : Checked (Endpoint × Endpoint) := do
  let e ← (atRest .standard 0 7).take (peerProposes target 5 9)
  let e' ← e.take (.timers 1_000_000_000)
  return (e, e')

/-- A copy that arrives after a look at the timers is answered once more, and that is all. -/
theorem late_copy_only_answered :
    ∃ e e' window, Doubled .standard e e' window 1 ∧ e'.control = e.control ∧
      e'.events = e.events ∧ e.traffic.stats.get .acksSent = 1 ∧
      e'.traffic.stats.get .acksSent = 2 := by
  have hnew : (Endpoint.new .standard 0 7).run = .ok (.ok (atRest .standard 0 7)) := rfl
  let third : PathId := ⟨⟨2, by decide⟩⟩
  let w : Window := ⟨third, 9, some ⟨1⟩⟩
  let frame := controlFrame Addressing.standard.reversed .first 2 (.repath third 9)
  have heval : (proposedAndLooked third).toOption.any (fun (e₁, e₂) =>
      windowAfter none (atRest .standard 0 7) e₁ (peerProposes third 5 9) = some w ∧
      windowAfter (some w) e₁ e₂ (.timers 1_000_000_000) = some w ∧
      messageIn e₂.settings.addressing frame = some (.repath w.target w.sequence) ∧
      e₂.traffic.stats.get .acksSent = 1) = true := by
    decide +kernel
  obtain ⟨⟨e₁, e₂⟩, hsteps, hholds⟩ := Checked.exists_of_any heval
  obtain ⟨hopened, hopen, hm, hacks⟩ := of_decide_eq_true hholds
  obtain ⟨e, hproposed, hsteps⟩ := Checked.bind_eq_ok_iff.1 hsteps
  obtain ⟨e', hlooked, hsteps⟩ := Checked.bind_eq_ok_iff.1 hsteps
  cases hsteps
  have hfirst := (Doubled.start 0 7 hnew).both (peerProposes third 5 9) hproposed hproposed
  rw [hopened] at hfirst
  have hsecond := hfirst.both (.timers 1_000_000_000) hlooked hlooked
  rw [hopen] at hsecond
  obtain ⟨-, -, -, -, hcopy⟩ := hsecond.copies_invisible
  obtain ⟨-, e₂', -, -, hcopied⟩ := hcopy w 1_500_000_000 frame rfl hm
  obtain ⟨hcontrol, hevents, hcounts, -⟩ := hcopied.copies_invisible
  have hanswered := hcounts .acksSent (by decide) (by decide)
  rw [hacks] at hanswered
  exact ⟨e₂, e₂', some w, hcopied, hcontrol, hevents, hacks, hanswered⟩

end Endpoint

end PathControl
