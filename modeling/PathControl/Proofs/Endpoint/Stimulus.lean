import PathControl.Proofs.Endpoint.Faultless
import PathControl.Proofs.Wire.Grammar

/-!
# What reaches the control loop

The control loop of an endpoint is reached by received frames and by occasions to look at the
timers. The control state responds to each; then the effects of the response are carried out.

* `Endpoint.respond`: the response. It reads the addressing, the timer resolution, the control state
  and the time of the last look, and nothing else: `respond_congr`.
* `Endpoint.take`: the whole step, `take_eq`.
* `Equipped`: an attempt to send can fail, but not fault. So a step goes through if the response
  does: `Equipped.take`. `Took`: what it changes then.
* `Aside`: what happens besides, to queues, pool, batch and other counters.
* `Persists.poll`: what steps keep, and what happens besides keeps, is kept by a pass of the control
  loop.
-/

namespace PathControl

open PathControl.Endpoint
open PathControl.Handshake
open PathControl.Transport
open PathControl.Wire

/-- Whether a counter does not depend on what becomes of attempts to send. -/
def Counter.IsSteady (counter : Counter) : Prop :=
  counter ≠ .bufferExhausted ∧ counter ≠ .egressDropped

namespace Endpoint

/-- What reaches the control loop, each at a clock reading. -/
inductive Stimulus where
  | frame (now : UInt64) (bytes : Bytes)
  /-- An occasion to look at the timers. -/
  | timers (now : UInt64)
  deriving DecidableEq, Repr

/-- What the control state makes of a stimulus. -/
structure Response where
  control : Control
  /-- When the timers were last looked at. -/
  lastTick : UInt64
  /-- What is to be done now, in order. -/
  effects : List Effect
  deriving Repr

/-- The message that a frame carries to the negotiations, if any. -/
def messageIn (a : Addressing) (bytes : Bytes) : Option Message :=
  match (decode a bytes).run with
  | .ok (.ok (.control packet)) => Message.ofHeader? packet.header
  | _ => none

/-- The message that a stimulus carries to the negotiations, if any. -/
def messageOf (e : Endpoint) : Stimulus → Option Message
  | .frame _ bytes => messageIn e.settings.addressing bytes
  | .timers _ => none

/-- The peer of a standard endpoint proposes a path. -/
def peerProposes (target : PathId) (now sequence : UInt64) : Stimulus :=
  .frame now (controlFrame Addressing.standard.reversed .first 1 (.repath target sequence))

variable {e e' : Endpoint} {x : Stimulus} {r : Response}

/-- Whether it is time to look at the timers. -/
def isDue (e : Endpoint) (now : UInt64) : Bool :=
  e.settings.tuning.timerResolution.word ≤ saturatingSub now e.lastTick

/-- The response to a stimulus. -/
def respond (e : Endpoint) : Stimulus → Checked Response
  | .frame now bytes =>
    match (decode e.settings.addressing bytes).run with
    | .error fault => .error fault
    | .ok (.error _) => .ok ⟨e.control, e.lastTick, [.count .malformed]⟩
    | .ok (.ok .notControlTraffic) => .ok ⟨e.control, e.lastTick, [.count .notControl]⟩
    | .ok (.ok (.control packet)) => do
      let (control, effects) ← e.control.onPacket now packet
      return ⟨control, e.lastTick, effects⟩
  | .timers now =>
    if e.isDue now then do
      let ((control, effects), _) ← e.control.tick now
      return ⟨control, now, effects⟩
    else .ok ⟨e.control, e.lastTick, []⟩

/-- Takes a stimulus. -/
def take (e : Endpoint) : Stimulus → Checked Endpoint
  | .frame now bytes => e.handleFrame now bytes
  | .timers now => (e.tickTimers now).map Prod.fst

/-- The endpoint with the state of a response, before the effects are carried out. -/
def turned (e : Endpoint) (r : Response) : Endpoint :=
  { e with control := r.control, lastTick := r.lastTick }

/-- A step is a response, whose effects are carried out from the new control state. -/
theorem take_eq (e : Endpoint) (x : Stimulus) :
    e.take x = e.respond x >>= fun r => (e.turned r).performAll r.effects := by
  cases x with
  | frame now bytes =>
    simp only [take, respond, handleFrame, decode_eq]
    rcases classify e.settings.addressing bytes with cause | packet | _
    · rfl
    · rw [Checked.ok_bind]
      dsimp only
      rcases e.control.onPacket now packet with fault | ⟨control, effects⟩ <;> rfl
    · rfl
  | timers now =>
    simp only [take, respond, tickTimers, isDue, decide_eq_true_eq]
    by_cases hdue : e.settings.tuning.timerResolution.word ≤ saturatingSub now e.lastTick
    · rw [if_pos hdue, if_pos hdue]
      rcases e.control.tick now with fault | ⟨⟨control, effects⟩, fired⟩
      · rfl
      · simp only [Checked.ok_bind]
        show Except.map Prod.fst (performAll (e.turned ⟨control, now, effects⟩) effects >>= _) =
          performAll (e.turned ⟨control, now, effects⟩) effects
        rcases performAll (e.turned ⟨control, now, effects⟩) effects with fault | e₁ <;> rfl
    · rw [if_neg hdue, if_neg hdue]
      rfl

/-- A step is a response whose effects are carried out. -/
theorem take_eq_ok (h : e.take x = .ok e') :
    ∃ r, e.respond x = .ok r ∧ Performed (e.turned r) r.effects e' := by
  rw [take_eq] at h
  obtain ⟨r, hrespond, hperform⟩ := Checked.bind_eq_ok_iff.1 h
  exact ⟨r, hrespond, performAll_performed hperform⟩

/-- What a step carries out is the response. -/
theorem take_performed (hr : e.respond x = .ok r) (htake : e.take x = .ok e') :
    Performed (e.turned r) r.effects e' := by
  obtain ⟨r', hr', hperformed⟩ := take_eq_ok htake
  rw [hr] at hr'
  cases hr'
  exact hperformed

/-- A response is a packet that the control state takes, a look at the timers, or no more than a
count. -/
theorem respond_eq_ok (h : e.respond x = .ok r) :
    (e.messageOf x = none ∧ r.control = e.control ∧ r.lastTick = e.lastTick ∧
        (r.effects = [] ∨ r.effects = [.count .malformed] ∨ r.effects = [.count .notControl])) ∨
      (∃ now bytes packet, x = .frame now bytes ∧
        (decode e.settings.addressing bytes).run = .ok (.ok (.control packet)) ∧
        e.control.onPacket now packet = .ok (r.control, r.effects) ∧ r.lastTick = e.lastTick) ∨
      ∃ now fired, x = .timers now ∧ e.isDue now = true ∧
        e.control.tick now = .ok ((r.control, r.effects), fired) ∧ r.lastTick = now := by
  cases x with
  | frame now bytes =>
    rcases hdecode : (decode e.settings.addressing bytes).run with
      fault | cause | packet | _
    all_goals simp only [respond, messageOf, messageIn, hdecode] at h ⊢
    · cases h
    · cases h
      exact .inl ⟨trivial, rfl, rfl, .inr (.inl rfl)⟩
    · obtain ⟨⟨control, effects⟩, hpacket, h⟩ := Checked.bind_eq_ok_iff.1 h
      cases h
      exact .inr (.inl ⟨now, bytes, packet, rfl, hdecode, hpacket, rfl⟩)
    · cases h
      exact .inl ⟨trivial, rfl, rfl, .inr (.inr rfl)⟩
  | timers now =>
    unfold respond at h
    dsimp only at h
    split at h
    · next hdue =>
      obtain ⟨⟨⟨control, effects⟩, fired⟩, htick, h⟩ := Checked.bind_eq_ok_iff.1 h
      cases h
      exact .inr (.inr ⟨now, fired, rfl, hdue, htick, rfl⟩)
    · cases h
      exact .inl ⟨rfl, rfl, rfl, .inl rfl⟩

/-- What a response depends on. -/
theorem respond_congr (haddressing : e'.settings.addressing = e.settings.addressing)
    (hresolution : e'.settings.tuning.timerResolution = e.settings.tuning.timerResolution)
    (hcontrol : e'.control = e.control) (hlast : e'.lastTick = e.lastTick) (x : Stimulus) :
    e'.respond x = e.respond x := by
  unfold respond isDue
  rw [haddressing, hresolution, hcontrol, hlast]

/-- What a response wants done is candid. -/
theorem respond_candid (h : e.respond x = .ok r) : Candid r.effects := by
  obtain ⟨-, -, -, hnone | hmalformed | hforeign⟩ | ⟨now, bytes, packet, -, -, hpacket, -⟩ |
    ⟨now, fired, -, -, htick, -⟩ := respond_eq_ok h
  · rw [hnone]
    exact .nil
  · rw [hmalformed]
    exact .cons (by constructor <;> decide) .nil
  · rw [hforeign]
    exact .cons (by constructor <;> decide) .nil
  · exact Control.onPacket_candid hpacket
  · exact Control.composes_candid.tick htick

/-- A response keeps the party sound. -/
theorem respond_sound (h : e.respond x = .ok r) (hsound : e.control.party.Sound) :
    r.control.party.Sound := by
  obtain ⟨-, hcontrol, -⟩ | ⟨now, bytes, packet, -, -, hpacket, -⟩ |
    ⟨now, fired, -, -, htick, -⟩ := respond_eq_ok h
  · rw [hcontrol]
    exact hsound
  · exact Control.onPacket_sound hpacket hsound
  · exact Control.tick_sound htick hsound

/-! ### Frames with a message -/

/-- A message comes in a control packet. -/
theorem messageIn_eq_some {a : Addressing} {bytes : Bytes} {m : Message}
    (h : messageIn a bytes = some m) :
    ∃ packet, (decode a bytes).run = .ok (.ok (.control packet)) ∧
      Message.ofHeader? packet.header = some m := by
  unfold messageIn at h
  split at h
  · next packet hdecode => exact ⟨packet, hdecode, h⟩
  · cases h

/-- The message of a frame that is a control packet is that of its header. -/
theorem messageIn_of_decode {a : Addressing} {bytes : Bytes} {packet : ControlPacket}
    (h : (decode a bytes).run = .ok (.ok (.control packet))) :
    messageIn a bytes = Message.ofHeader? packet.header := by
  unfold messageIn
  rw [h]

/-- A proposal is handed to the negotiations. -/
theorem respond_proposal {now : UInt64} {bytes : Bytes} {target : PathId} {sequence : UInt64}
    (h : messageIn e.settings.addressing bytes = some (.repath target sequence)) :
    e.respond (.frame now bytes) =
      e.control.onRepath now target sequence >>= fun step => .ok ⟨step.1, e.lastTick, step.2⟩ := by
  obtain ⟨packet, hdecode, hheader⟩ := messageIn_eq_some h
  unfold Message.ofHeader? at hheader
  split at hheader
  · next hkind =>
    obtain ⟨target', htarget, hmessage⟩ := Option.map_eq_some_iff.1 hheader
    cases hmessage
    simp only [respond, hdecode, Control.onPacket, hkind, htarget]
    rfl
  · cases hheader
  · cases hheader
  · cases hheader

/-! ### Steps that go through -/

/-- Whether an attempt to send can fail for lack of a buffer or of room only: the addressing is
usable, and every buffer can hold a control frame. -/
structure Equipped (e : Endpoint) : Prop where
  usable : e.settings.addressing.flaw? = none
  roomy : e.traffic.Roomy controlFrameLength
  batch : AllRoomy controlFrameLength e.batch

/-- A fresh endpoint is equipped to send. -/
theorem equipped_new {settings : Settings} {now : UInt64} {identification : UInt16}
    (hnew : (Endpoint.new settings now identification).run = .ok (.ok e)) : e.Equipped := by
  have hmodest := Modest.start hnew
  obtain ⟨-, rfl⟩ := new_eq_ok hnew
  exact ⟨hmodest.usable, hmodest.roomy, .nil⟩

/-- A step goes through if the response does. -/
theorem Equipped.take (h : e.Equipped) (hrespond : e.respond x = .ok r) :
    ∃ e', e.take x = .ok e' ∧ Performed (e.turned r) r.effects e' ∧ e'.Equipped := by
  obtain ⟨e', hperform, hroomy, -⟩ := performAll_succeeds (e := e.turned r) h.usable h.roomy
    (respond_candid hrespond)
  have hperformed := performAll_performed hperform
  refine ⟨e', ?_, hperformed, ?_, hroomy, ?_⟩
  · rw [take_eq, hrespond, Checked.ok_bind, hperform]
  · rw [hperformed.rest]
    exact h.usable
  · rw [hperformed.rest]
    exact h.batch

/-- A fault of the response is one of the step. -/
theorem take_eq_error {fault : Fault} (hrespond : e.respond x = .error fault) :
    e.take x = .error fault := by
  rw [take_eq, hrespond]
  rfl

/-- What is left of a step when the outlet is left out. -/
structure Took (e : Endpoint) (r : Response) (e' : Endpoint) : Prop where
  settings : e'.settings = e.settings
  control : e'.control = r.control
  lastTick : e'.lastTick = r.lastTick
  events : e'.events = e.events ++ announced r.effects
  counts : ∀ counter : Counter, counter.IsSteady →
    e'.traffic.stats.get counter =
      e.traffic.stats.get counter + UInt64.ofNat ((counted r.effects).count counter)

/-- Carrying out a response leaves its control state, and what it announces and counts. -/
theorem Performed.took (h : Performed (e.turned r) r.effects e') : Took e r e' where
  settings := by
    rw [h.rest]
    rfl
  control := by
    rw [h.rest]
    rfl
  lastTick := by
    rw [h.rest]
    rfl
  events := by
    rw [h.rest]
    rfl
  counts counter hsteady := h.counts counter hsteady.1 hsteady.2

/-- A step leaves what its response says. -/
theorem take_took (hr : e.respond x = .ok r) (htake : e.take x = .ok e') : Took e r e' :=
  (take_performed hr htake).took

/-! ### What happens besides -/

/-- Whether a change is no affair of the control loop: it concerns the queues, the pool, the
identification, the batch, the reports, and counters that are not among the `kept` ones. -/
structure Aside (kept : Counter → Prop) (e e' : Endpoint) : Prop where
  settings : e'.settings = e.settings
  control : e'.control = e.control
  lastTick : e'.lastTick = e.lastTick
  events : e'.events = e.events
  counts : ∀ counter, kept counter → e'.traffic.stats.get counter = e.traffic.stats.get counter
  equipped : e.Equipped → e'.Equipped

variable {kept : Counter → Prop}

/-- A burst leaves the ingress queue for the batch. -/
theorem aside_fetch : Aside kept e e.fetch where
  settings := rfl
  control := rfl
  lastTick := rfl
  events := rfl
  counts _ _ := rfl
  equipped h := by
    refine ⟨h.usable, ⟨h.roomy.pool, h.roomy.ingress.drop _, h.roomy.egress⟩, ?_⟩
    exact h.batch.append (h.roomy.ingress.take _)

/-- The buffer of a frame that was handled goes back to the pool. -/
theorem aside_release {frame : Buffer} (hframe : controlFrameLength ≤ frame.capacity) :
    Aside kept e (e.withTraffic (e.traffic.release [frame])) where
  settings := rfl
  control := rfl
  lastTick := rfl
  events := rfl
  counts _ _ := rfl
  equipped h := by
    refine ⟨h.usable, ⟨?_, h.roomy.ingress, h.roomy.egress⟩, h.batch⟩
    exact h.roomy.pool.releaseAll (List.forall_mem_singleton.2 hframe)

/-- The batch is done, or the counters are reported. -/
theorem aside_rest (batch : List Buffer) (hbatch : AllRoomy controlFrameLength batch)
    (lastReport : UInt64) : Aside kept e { e with batch, lastReport } where
  settings := rfl
  control := rfl
  lastTick := rfl
  events := rfl
  counts _ _ := rfl
  equipped h := ⟨h.usable, h.roomy, hbatch⟩

/-- Somebody else takes every buffer that there is. -/
theorem aside_takeBuffers : Aside kept e e.takeBuffers.1 where
  settings := rfl
  control := rfl
  lastTick := rfl
  events := rfl
  counts _ _ := rfl
  equipped h := ⟨h.usable, ⟨⟨.nil, h.roomy.pool.made⟩, h.roomy.ingress, h.roomy.egress⟩, h.batch⟩

/-! ### Passes -/

/-- What a pass of the control loop takes: the frames of a burst, then a look at the timers. -/
def pass (e : Endpoint) (now : UInt64) : List Stimulus :=
  e.fetch.batch.map (fun frame => .frame now frame.contents) ++ [.timers now]

/-- Whether every step keeps a property, told of what has been taken, and so does what happens
besides. -/
structure Persists (kept : Counter → Prop) (P : List Stimulus → Endpoint → Prop) : Prop where
  equipped : ∀ {taken : List Stimulus} {e : Endpoint}, P taken e → e.Equipped
  step : ∀ {taken : List Stimulus} {e e' : Endpoint} {x : Stimulus},
    P taken e → e.take x = .ok e' → P (taken ++ [x]) e'
  aside : ∀ {taken : List Stimulus} {e e' : Endpoint}, P taken e → Aside kept e e' → P taken e'

namespace Persists

variable {P : List Stimulus → Endpoint → Prop} {taken : List Stimulus} {now : UInt64}

/-- A batch is a step for each of its frames. -/
theorem drainBatch (hP : Persists kept P) {frames : List Buffer} (h : P taken e)
    (hroomy : AllRoomy controlFrameLength frames) (hdrain : e.drainBatch now frames = .ok e') :
    P (taken ++ frames.map fun frame => .frame now frame.contents) e' := by
  induction frames generalizing e taken with
  | nil =>
    cases hdrain
    rw [List.map_nil, List.append_nil]
    exact hP.aside h (aside_rest [] .nil e.lastReport)
  | cons frame frames ih =>
    obtain ⟨e₁, htake, hdrain⟩ := Checked.bind_eq_ok_iff.1 hdrain
    obtain ⟨hframe, hframes⟩ := List.forall_mem_cons.1 hroomy
    have hhandled := hP.step (x := .frame now frame.contents) h htake
    rw [List.map_cons, List.append_cons]
    exact ih (hP.aside hhandled (aside_release hframe)) hframes hdrain

/-- A pass of the control loop consists of steps. -/
theorem poll (hP : Persists kept P) {handled : Nat} (h : P taken e)
    (hpoll : e.poll now = .ok (e', handled)) : P (taken ++ e.pass now) e' := by
  obtain ⟨e₁, e₂, fired, hdrain, htimers, hreport⟩ := poll_eq_ok hpoll
  have hfetched := hP.aside h aside_fetch
  have hdrained := hP.drainBatch hfetched (hP.equipped hfetched).batch hdrain
  have htake : e₁.take (.timers now) = .ok e₂ := by
    rw [take, htimers]
    rfl
  have hlooked := hP.step hdrained htake
  obtain ⟨lastReport, rfl⟩ := report_eq_ok hreport
  rw [pass, ← List.append_assoc]
  exact hP.aside hlooked (aside_rest e₂.batch (hP.equipped hlooked).batch lastReport)

end Persists

end Endpoint

end PathControl
