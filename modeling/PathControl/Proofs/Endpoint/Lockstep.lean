import PathControl.Proofs.Endpoint.Stimulus

/-!
# Endpoints in step

Two endpoints of the same settings that take the same frames and look at their timers at the same
times stay in step, even if one of them has fewer buffers, a shorter queue or a fuller one, and
fails to send what the other sends.

* `Alike extra e e'`: two endpoints that respond alike, the second of which has counted some things
  more often. `Alike.take`: both take a stimulus, or neither does, and they stay alike.
* `InStep`: two runs that take the same stimuli, whatever happens besides to either.
* `InStep.same_control`: they have the same control state and the same history.
-/

namespace PathControl

open PathControl.Endpoint
open PathControl.Transport
open PathControl.Wire

/-- The same settings with another pool and other queues. -/
def Settings.resized (s : Settings) (poolSize ringSize : Nat) : Settings :=
  { s with tuning := { s.tuning with poolSize, ringSize } }

namespace Endpoint

/-- Two endpoints that cannot be told apart by what they respond, both equipped to send. The second
one has counted each thing that is no failure to send `extra` times more. -/
structure Alike (extra : Counter → Nat) (e e' : Endpoint) : Prop where
  addressing : e'.settings.addressing = e.settings.addressing
  resolution : e'.settings.tuning.timerResolution = e.settings.tuning.timerResolution
  control : e'.control = e.control
  lastTick : e'.lastTick = e.lastTick
  events : e'.events = e.events
  counts : ∀ counter : Counter, counter.IsSteady →
    e'.traffic.stats.get counter = e.traffic.stats.get counter + UInt64.ofNat (extra counter)
  first : e.Equipped
  second : e'.Equipped

namespace Alike

variable {extra : Counter → Nat} {e e₁ e' e₁' : Endpoint} {x : Stimulus}

/-- An endpoint that is equipped is like itself. -/
theorem refl (h : e.Equipped) : Alike (fun _ => 0) e e where
  addressing := rfl
  resolution := rfl
  control := rfl
  lastTick := rfl
  events := rfl
  counts _ _ := (UInt64.add_zero _).symm
  first := h
  second := h

/-- Endpoints that are alike respond alike. -/
theorem respond_eq (h : Alike extra e e') (x : Stimulus) : e'.respond x = e.respond x :=
  respond_congr h.addressing h.resolution h.control h.lastTick x

/-- What is left of two steps with one response is alike. -/
theorem took {r : Response} (h : Alike extra e e') (htook : Took e r e₁) (htook' : Took e' r e₁')
    (hfirst : e₁.Equipped) (hsecond : e₁'.Equipped) : Alike extra e₁ e₁' where
  addressing := by rw [htook.settings, htook'.settings, h.addressing]
  resolution := by rw [htook.settings, htook'.settings, h.resolution]
  control := by rw [htook.control, htook'.control]
  lastTick := by rw [htook.lastTick, htook'.lastTick]
  events := by rw [htook.events, htook'.events, h.events]
  counts counter hsteady := by
    rw [htook.counts counter hsteady, htook'.counts counter hsteady, h.counts counter hsteady,
      UInt64.add_assoc, UInt64.add_assoc, UInt64.add_comm (UInt64.ofNat (extra counter))]
  first := hfirst
  second := hsecond

/-- Both take a stimulus, or it stops both. -/
theorem take (h : Alike extra e e') (x : Stimulus) :
    (∃ e₁ e₁', e.take x = .ok e₁ ∧ e'.take x = .ok e₁' ∧ Alike extra e₁ e₁') ∨
      ∃ fault, e.take x = .error fault ∧ e'.take x = .error fault := by
  have hrespond := h.respond_eq x
  rcases hr : e.respond x with fault | r
  · rw [hr] at hrespond
    exact .inr ⟨fault, take_eq_error hr, take_eq_error hrespond⟩
  · rw [hr] at hrespond
    obtain ⟨e₁, hstep, hperformed, hfirst⟩ := h.first.take hr
    obtain ⟨e₁', hstep', hperformed', hsecond⟩ := h.second.take hrespond
    exact .inl ⟨e₁, e₁', hstep, hstep', h.took hperformed.took hperformed'.took hfirst hsecond⟩

/-- Steps that both endpoints make. -/
theorem both (h : Alike extra e e') (hstep : e.take x = .ok e₁) (hstep' : e'.take x = .ok e₁') :
    Alike extra e₁ e₁' := by
  obtain ⟨e₂, e₂', h₂, h₂', halike⟩ | ⟨fault, hfault, -⟩ := h.take x
  · rw [hstep] at h₂
    rw [hstep'] at h₂'
    cases h₂
    cases h₂'
    exact halike
  · rw [hstep] at hfault
    cases hfault

/-- What happens besides to the first one leaves them alike. -/
theorem asideFirst (h : Alike extra e e') (haside : Aside Counter.IsSteady e e₁) :
    Alike extra e₁ e' where
  addressing := by rw [haside.settings, h.addressing]
  resolution := by rw [haside.settings, h.resolution]
  control := by rw [haside.control, h.control]
  lastTick := by rw [haside.lastTick, h.lastTick]
  events := by rw [haside.events, h.events]
  counts counter hsteady := by rw [haside.counts counter hsteady, h.counts counter hsteady]
  first := haside.equipped h.first
  second := h.second

/-- What happens besides to the second one leaves them alike. -/
theorem asideSecond (h : Alike extra e e') (haside : Aside Counter.IsSteady e' e₁') :
    Alike extra e e₁' where
  addressing := by rw [haside.settings, h.addressing]
  resolution := by rw [haside.settings, h.resolution]
  control := by rw [haside.control, h.control]
  lastTick := by rw [haside.lastTick, h.lastTick]
  events := by rw [haside.events, h.events]
  counts counter hsteady := by rw [haside.counts counter hsteady, h.counts counter hsteady]
  first := h.first
  second := haside.equipped h.second

end Alike

/-- Two runs on the same stimuli. They start at the same time from settings that are the same but
for the pool and the queues. Between the stimuli, anything may happen to either that is no affair
of the control loop. -/
inductive InStep (settings : Settings) : Endpoint → Endpoint → Prop where
  | start {e e' : Endpoint} (poolSize ringSize : Nat) (now : UInt64)
      (identification identification' : UInt16) :
      (Endpoint.new settings now identification).run = .ok (.ok e) →
      (Endpoint.new (settings.resized poolSize ringSize) now identification').run = .ok (.ok e') →
      InStep settings e e'
  | both {e e₁ e' e₁' : Endpoint} (x : Stimulus) :
      InStep settings e e' → e.take x = .ok e₁ → e'.take x = .ok e₁' → InStep settings e₁ e₁'
  | first {e e₁ e' : Endpoint} :
      InStep settings e e' → Aside Counter.IsSteady e e₁ → InStep settings e₁ e'
  | second {e e' e₁' : Endpoint} :
      InStep settings e e' → Aside Counter.IsSteady e' e₁' → InStep settings e e₁'

variable {settings : Settings} {e e' : Endpoint}

/-- Two runs in step are alike, and neither has counted more. -/
theorem InStep.alike (h : InStep settings e e') : Alike (fun _ => 0) e e' := by
  induction h with
  | start poolSize ringSize now identification identification' hnew hnew' =>
    have hfirst := equipped_new hnew
    have hsecond := equipped_new hnew'
    obtain ⟨-, rfl⟩ := new_eq_ok hnew
    obtain ⟨-, rfl⟩ := new_eq_ok hnew'
    exact ⟨rfl, rfl, rfl, rfl, rfl, fun _ _ => (UInt64.add_zero _).symm, hfirst, hsecond⟩
  | both x _ hstep hstep' ih => exact ih.both hstep hstep'
  | first _ haside ih => exact ih.asideFirst haside
  | second _ haside ih => exact ih.asideSecond haside

/-- **What becomes of attempts to send is no affair of the control loop.** Two endpoints that take
the same frames and look at their timers at the same times have the same control state (negotiation,
guard, timers, delays, best path, trigger history and active path), have announced the same events
and have the same counts of all but failures to send, whatever their pools, queues and
identifications are and whatever happens to those besides. The next stimulus goes through for both,
or faults for both alike. -/
theorem InStep.same_control (h : InStep settings e e') :
    e'.control = e.control ∧ e'.events = e.events ∧
      (∀ counter, counter ≠ .bufferExhausted → counter ≠ .egressDropped →
        e'.traffic.stats.get counter = e.traffic.stats.get counter) ∧
      ∀ x, (∃ e₁ e₁', e.take x = .ok e₁ ∧ e'.take x = .ok e₁' ∧ InStep settings e₁ e₁') ∨
        ∃ fault, e.take x = .error fault ∧ e'.take x = .error fault := by
  have halike := h.alike
  refine ⟨halike.control, halike.events, ?_, ?_⟩
  · intro counter hexhausted hdropped
    rw [halike.counts counter ⟨hexhausted, hdropped⟩]
    exact UInt64.add_zero _
  · intro x
    obtain ⟨e₁, e₁', hstep, hstep', -⟩ | hfault := halike.take x
    · exact .inl ⟨e₁, e₁', hstep, hstep', h.both x hstep hstep'⟩
    · exact .inr hfault

/-- A standard endpoint confirms a proposal. Another one, whose buffers are all in use elsewhere,
fails to, and counts that; it takes the path all the same. -/
theorem unsent_answer_still_adopts :
    ∃ e e', InStep .standard e e' ∧ e.control.active.path = ⟨⟨2, by decide⟩⟩ ∧
      e.traffic.stats.get .bufferExhausted = 0 ∧ e'.traffic.stats.get .bufferExhausted = 1 ∧
      e'.control = e.control ∧
      e'.traffic.stats.get .acksSent = e.traffic.stats.get .acksSent := by
  let third : PathId := ⟨⟨2, by decide⟩⟩
  have hnew : (Endpoint.new .standard 0 7).run = .ok (.ok (atRest .standard 0 7)) := rfl
  have hnew' : (Endpoint.new (Settings.standard.resized 8 32) 0 9).run =
      .ok (.ok (atRest (Settings.standard.resized 8 32) 0 9)) := rfl
  have hstarved : InStep .standard (atRest .standard 0 7)
      (atRest (Settings.standard.resized 8 32) 0 9).takeBuffers.1 :=
    (InStep.start 8 32 0 7 9 hnew hnew').second aside_takeBuffers
  have heval : ((atRest .standard 0 7).take (peerProposes third 5 9)).toOption.any (fun e =>
      e.control.active.path = third ∧ e.traffic.stats.get .bufferExhausted = 0) = true := by
    decide +kernel
  have heval' : ((atRest (Settings.standard.resized 8 32) 0 9).takeBuffers.1.take
      (peerProposes third 5 9)).toOption.any (fun e =>
        e.traffic.stats.get .bufferExhausted = 1) = true := by
    decide +kernel
  obtain ⟨e, hstep, hholds⟩ := Checked.exists_of_any heval
  obtain ⟨e', hstep', hholds'⟩ := Checked.exists_of_any heval'
  obtain ⟨hpath, hsent⟩ := of_decide_eq_true hholds
  have run := hstarved.both (peerProposes third 5 9) hstep hstep'
  obtain ⟨hcontrol, -, hcounts, -⟩ := run.same_control
  exact ⟨e, e', run, hpath, hsent, of_decide_eq_true hholds', hcontrol,
    hcounts .acksSent (by decide) (by decide)⟩

end Endpoint

end PathControl
