import PathControl.Endpoint.Basic
import PathControl.Proofs.Handshake.Endpoints

/-!
# What the operations of an endpoint do

Each operation that ends without a fault is told here once, so that nothing else has to open it.

* `Outlet.Offered`: what becomes of an attempt to send. It moves at most one counter, one of two.
* `Outlet.Emitted`: what becomes of an outlet in the course of effects: counts are made and packets
  are attempted, one by one and in order.
* `Performed`, `performAll_performed`: effects are announced and emitted, and leave the rest alone.
* `Control.onPacket_eq_ok`: a packet is counted by its kind; what else it does is remark on the
  measurements and carry out what the coordinator asks for.
* `Control.Composes`: what holds of each action and each remark, and composes, holds of what a
  packet does besides and of a look at the timers.
* `handleFrame_eq_ok`, `tickTimers_eq_ok`, `poll_eq_ok`, `emitRound_eq_ok`: a received frame is
  counted as what it is, or is a packet that the control state takes; a pass of the control loop
  handles a batch, then looks at the timers, then reports; a probe round is a probe per path.
-/

namespace PathControl.Endpoint

open PathControl.Handshake
open PathControl.Negotiation
open PathControl.Transport
open PathControl.Wire

/-! ### Effects -/

namespace Effect

/-- The counter that an effect moves. -/
def counter? : Effect → Option Counter
  | .count counter => some counter
  | .announce _ | .send _ _ => none

/-- The event that an effect announces. -/
def event? : Effect → Option Event
  | .announce event => some event
  | .count _ | .send _ _ => none

end Effect

/-- The counters that effects move. -/
def counted (effects : List Effect) : List Counter := effects.filterMap Effect.counter?

/-- The events that effects announce. -/
def announced (effects : List Effect) : List Event := effects.filterMap Effect.event?

/-- Counts are made in order. -/
theorem counted_append {effects rest : List Effect} :
    counted (effects ++ rest) = counted effects ++ counted rest :=
  List.filterMap_append

/-- Events are announced in order. -/
theorem announced_append {effects rest : List Effect} :
    announced (effects ++ rest) = announced effects ++ announced rest :=
  List.filterMap_append

/-! ### Packets -/

namespace Control

variable {c c' : Control} {now : UInt64} {effects : List Effect}

/-- What a packet does besides being counted: remarks, and maybe an outcome of the coordinator that
is carried out. -/
inductive Taken (c : Control) (now : UInt64) : Control → List Effect → Prop where
  | noted {c' : Control} {remarks : List Effect} :
      c'.party = c.party → (∀ x ∈ remarks, x.IsRemark) → Taken c now c' remarks
  | followed {c₀ c' : Control} {remarks effects : List Effect} {o : Outcome} :
      c₀.party = c.party → (∀ x ∈ remarks, x.IsRemark) → c₀.follow now o = .ok (c', effects) →
      Taken c now c' (remarks ++ effects)

/-- What a party is told leaves a packet taken. -/
theorem Told.taken {m : Option Message} (h : c.Told now m c' effects) : c.Taken now c' effects := by
  cases h with
  | noted hparty hremarks => exact .noted hparty hremarks
  | triggered hparty hremarks _ hfollow => exact .followed hparty hremarks hfollow
  | heard _ hfollow => exact .followed rfl (List.forall_mem_nil _) hfollow

/-- A packet is counted by its kind and taken, unless it is a proposal of nothing. -/
theorem onPacket_eq_ok {packet : ControlPacket} (h : c.onPacket now packet = .ok (c', effects)) :
    packet.header.kind = .repath ∧ packet.header.target = none ∧ c' = c ∧ effects = [] ∨
      ∃ rest, effects = .count (receipt packet.header.kind) :: rest ∧ c.Taken now c' rest := by
  obtain hnothing | ⟨rest, heffects, htold⟩ := onPacket_told h
  · exact .inl hnothing
  · exact .inr ⟨rest, heffects, htold.taken⟩

/-! ### What composes along steps -/

/-- Whether a relation between a state, the effects of a step and the state afterwards composes
along steps, and holds of each action, of each remark, and of silent changes that keep the active
path. -/
structure Composes (P : Control → List Effect → Control → Prop) (now : UInt64) : Prop where
  still : ∀ {c c' : Control}, c'.active = c.active → P c [] c'
  remark : ∀ {c : Control} {remark : Effect}, remark.IsRemark → P c [remark] c
  act : ∀ {c c' : Control} {action : Action} {effects : List Effect},
    c.act now action = .ok (c', effects) → P c effects c'
  append : ∀ {c c₁ c' : Control} {effects rest : List Effect},
    P c effects c₁ → P c₁ rest c' → P c (effects ++ rest) c'

namespace Composes

variable {P : Control → List Effect → Control → Prop}

/-- Remarks leave the state as it is, so the relation holds of any number of them. -/
theorem remarks (hP : Composes P now) {remarks : List Effect} (h : ∀ x ∈ remarks, x.IsRemark) :
    P c remarks c := by
  induction remarks with
  | nil => exact hP.still rfl
  | cons remark remarks ih =>
    obtain ⟨hremark, hremarks⟩ := List.forall_mem_cons.1 h
    exact hP.append (hP.remark hremark) (ih hremarks)

/-- Actions are carried out one after the other, so the relation holds of any number of them. -/
theorem actAll (hP : Composes P now) {actions : List Action}
    (h : c.actAll now actions = .ok (c', effects)) : P c effects c' := by
  induction actions generalizing c c' effects with
  | nil =>
    cases h
    exact hP.still rfl
  | cons action actions ih =>
    obtain ⟨⟨c₁, first⟩, hact, h⟩ := Checked.bind_eq_ok_iff.1 h
    obtain ⟨⟨c₂, rest⟩, hrest, h⟩ := Checked.bind_eq_ok_iff.1 h
    cases h
    exact hP.append (hP.act hact) (ih hrest)

/-- Taking over what the coordinator left is a silent change, and its actions follow. -/
theorem follow (hP : Composes P now) {o : Outcome} (h : c.follow now o = .ok (c', effects)) :
    P c effects c' := by
  have htaken : P c [] { c with coordinator := o.coordinator, timers := o.timers } := hP.still rfl
  exact hP.append htaken (hP.actAll h)

/-- So it holds of what a packet does besides being counted. -/
theorem taken (hP : Composes P now) (h : c.Taken now c' effects) : P c effects c' := by
  cases h with
  | noted hparty hremarks =>
    have hkept : c'.active = c.active := congrArg Party.active hparty
    have hnoted := hP.append (hP.remarks hremarks) (hP.still hkept)
    rw [List.append_nil] at hnoted
    exact hnoted
  | followed hparty hremarks hfollow =>
    exact hP.append (hP.remarks hremarks)
      (hP.append (hP.still (congrArg Party.active hparty)) (hP.follow hfollow))

/-- So the relation holds of timers that fire one after the other. -/
theorem onTimers (hP : Composes P now) {fired : List (TimerHandle × TimerKind)}
    (h : c.onTimers now fired = .ok (c', effects)) : P c effects c' := by
  induction fired generalizing c c' effects with
  | nil =>
    cases h
    exact hP.still rfl
  | cons x fired ih =>
    obtain ⟨o, -, h⟩ := Checked.bind_eq_ok_iff.1 h
    obtain ⟨⟨c₁, first⟩, hfollow, h⟩ := Checked.bind_eq_ok_iff.1 h
    obtain ⟨⟨c₂, rest⟩, hrest, h⟩ := Checked.bind_eq_ok_iff.1 h
    cases h
    exact hP.append (hP.follow hfollow) (ih hrest)

/-- So it holds of a look at the timers. -/
theorem tick (hP : Composes P now) {fired : Nat}
    (h : c.tick now = .ok ((c', effects), fired)) : P c effects c' := by
  obtain ⟨⟨c₁, effects₁⟩, hstep, h⟩ := Checked.bind_eq_ok_iff.1 h
  cases h
  have hlooked : P c [] { c with timers := (c.timers.pollExpired now).1 } := hP.still rfl
  exact hP.append hlooked (hP.onTimers hstep)

end Composes

end Control

/-! ### Attempts to send -/

namespace Outlet

variable {o o' : Outlet} {a : Addressing} {header : Header} {path : PathId} {queued : Bool}

/-- What becomes of an attempt to send that no fault stops: there is no buffer, the frame cannot be
written, it is queued, or the queue is full. -/
inductive Offered (o : Outlet) (a : Addressing) (header : Header) (path : PathId) :
    Outlet → Bool → Prop where
  | exhausted {pool : Pool} {identification : UInt16} :
      encode a o.traffic.pool o.identification header path =
        ⟨.ok (.error .buffersExhausted), pool, identification⟩ →
      Offered o a header path ⟨{ o.traffic with pool }.count .bufferExhausted, identification⟩ false
  | unwritten {cause : Error} {pool : Pool} {identification : UInt16} :
      encode a o.traffic.pool o.identification header path =
        ⟨.ok (.error cause), pool, identification⟩ → cause ≠ .buffersExhausted →
      Offered o a header path ⟨{ o.traffic with pool }, identification⟩ false
  | queued {frame : Buffer} {pool : Pool} {identification : UInt16} :
      encode a o.traffic.pool o.identification header path =
        ⟨.ok (.ok frame), pool, identification⟩ → o.traffic.egress.isFull = false →
      Offered o a header path
        ⟨{ o.traffic with
            pool
            egress := { o.traffic.egress with frames := o.traffic.egress.frames ++ [frame] } },
          identification⟩ true
  | dropped {frame : Buffer} {pool : Pool} {identification : UInt16} :
      encode a o.traffic.pool o.identification header path =
        ⟨.ok (.ok frame), pool, identification⟩ → o.traffic.egress.isFull = true →
      Offered o a header path
        ⟨{ o.traffic with
            pool := pool.release frame
            egress := { o.traffic.egress with dropped := o.traffic.egress.dropped + 1 }
            stats := o.traffic.stats.inc .egressDropped },
          identification⟩ false

/-- An attempt to send that goes through has one of the four outcomes. -/
theorem offer_eq_ok (h : o.offer a header path = (o', .ok queued)) :
    Offered o a header path o' queued := by
  rcases hencode : encode a o.traffic.pool o.identification header path with
    ⟨outcome, pool, identification⟩
  unfold offer at h
  rw [hencode] at h
  rcases outcome with fault | cause | frame
  · cases h
  · by_cases hcause : cause = .buffersExhausted
    · subst hcause
      cases h
      exact .exhausted hencode
    · have hunwritten : (⟨{ o.traffic with pool }, identification⟩, Except.ok false) =
          (o', (Except.ok queued : Checked Bool)) := by
        cases cause <;> first | exact h | exact absurd rfl hcause
      cases hunwritten
      exact .unwritten hencode hcause
  · by_cases hfull : o.traffic.egress.isFull = true
    · simp only [Traffic.pushEgress, FrameQueue.pushOrDrop_of_isFull _ _ hfull] at h
      cases h
      exact .dropped hencode hfull
    · have hfree : o.traffic.egress.isFull = false := Bool.eq_false_iff.2 hfull
      simp only [Traffic.pushEgress, FrameQueue.pushOrDrop_of_not_isFull _ _ hfree] at h
      cases h
      exact .queued hencode hfree

/-- The same, without the answer. -/
theorem send_eq_ok (h : o.send a header path = .ok o') :
    ∃ queued, Offered o a header path o' queued := by
  unfold send at h
  split at h
  · next queued hoffer =>
    cases h
    exact ⟨queued, offer_eq_ok hoffer⟩
  · cases h

/-- An attempt to send moves one of two counters, if any. -/
theorem Offered.get {counter : Counter} (h : Offered o a header path o' queued)
    (hexhausted : counter ≠ .bufferExhausted) (hdropped : counter ≠ .egressDropped) :
    o'.traffic.stats.get counter = o.traffic.stats.get counter := by
  cases h with
  | exhausted _ => exact (Stats.get_inc _ _ _).trans (if_neg hexhausted.symm)
  | dropped _ _ => exact (Stats.get_inc _ _ _).trans (if_neg hdropped.symm)
  | unwritten _ _ | queued _ _ => rfl

/-- Probes are attempts one after the other, and those that are queued are counted. -/
theorem probe_cons_eq_ok {now : UInt64} {paths : List PathId} {n : Nat}
    (h : o.probe a now (path :: paths) = (o', .ok n)) :
    ∃ o₁ sent rest, Offered o a (.probe now) path o₁ sent ∧
      (if sent then { o₁ with traffic := o₁.traffic.count .probesSent } else o₁).probe a now paths =
        (o', .ok rest) := by
  unfold probe at h
  split at h
  · cases h
  · next o₁ sent hoffer =>
    dsimp only at h
    generalize ho₂ : Outlet.probe _ a now paths = answer at h
    obtain ⟨o₂, fault | rest⟩ := answer
    · cases h
    · cases h
      exact ⟨o₁, sent, rest, offer_eq_ok hoffer, ho₂⟩

/-- Probes move one of three counters each, if any. -/
theorem probe_get {now : UInt64} {paths : List PathId} {n : Nat} {counter : Counter}
    (h : o.probe a now paths = (o', .ok n)) (hexhausted : counter ≠ .bufferExhausted)
    (hdropped : counter ≠ .egressDropped) (hprobes : counter ≠ .probesSent) :
    o'.traffic.stats.get counter = o.traffic.stats.get counter := by
  induction paths generalizing o n with
  | nil =>
    cases h
    rfl
  | cons path paths ih =>
    obtain ⟨o₁, sent, rest, hoffer, hrest⟩ := probe_cons_eq_ok h
    rw [ih hrest, ← hoffer.get hexhausted hdropped]
    split
    · exact (Stats.get_inc _ _ _).trans (if_neg hprobes.symm)
    · rfl

/-! ### Effects on an outlet -/

variable {effects : List Effect} {counter : Counter}

/-- What becomes of an outlet in the course of effects. A count moves its counter, an announcement
is no affair of the outlet, and each packet to be sent is attempted with one of the outcomes of
`Offered`, in the order of the effects and from what the effects before it left. -/
inductive Emitted (a : Addressing) : Outlet → List Effect → Outlet → Prop where
  | nil {o : Outlet} : Emitted a o [] o
  | count {o o' : Outlet} {counter : Counter} {effects : List Effect} :
      Emitted a { o with traffic := o.traffic.count counter } effects o' →
      Emitted a o (.count counter :: effects) o'
  | announce {o o' : Outlet} {event : Event} {effects : List Effect} :
      Emitted a o effects o' → Emitted a o (.announce event :: effects) o'
  | send {o o₁ o' : Outlet} {header : Header} {path : PathId} {queued : Bool}
      {effects : List Effect} :
      Offered o a header path o₁ queued → Emitted a o₁ effects o' →
      Emitted a o (.send header path :: effects) o'

/-- Counters move as the effects say, except for those of attempts to send. -/
theorem Emitted.get (h : Emitted a o effects o') (hexhausted : counter ≠ .bufferExhausted)
    (hdropped : counter ≠ .egressDropped) :
    o'.traffic.stats.get counter =
      o.traffic.stats.get counter + UInt64.ofNat ((counted effects).count counter) := by
  induction h with
  | nil => exact (UInt64.add_zero _).symm
  | @count o o' moved effects _ ih =>
    rw [ih, show counted (.count moved :: effects) = moved :: counted effects from rfl]
    show (o.traffic.stats.inc moved).get counter + _ = _
    rw [Stats.get_inc, List.count_cons]
    by_cases hmoved : moved = counter
    · rw [if_pos hmoved, if_pos (beq_iff_eq.2 hmoved), UInt64.ofNat_add, UInt64.add_assoc,
        UInt64.add_comm (UInt64.ofNat _)]
      rfl
    · rw [if_neg hmoved, if_neg (mt beq_iff_eq.1 hmoved), Nat.add_zero]
  | announce _ ih => exact ih
  | send hoffered _ ih =>
    rw [ih, hoffered.get hexhausted hdropped]
    rfl

end Outlet

variable {e e₁ e' : Endpoint} {now : UInt64}

/-! ### Carrying out effects -/

/-- What carrying out effects changes: the outlet, by what is counted and attempted to be sent, and
the events, by those announced. -/
structure Performed (e : Endpoint) (effects : List Effect) (e' : Endpoint) : Prop where
  rest : e' = { e with outlet := e'.outlet, events := e.events ++ announced effects }
  emitted : Outlet.Emitted e.settings.addressing e.outlet effects e'.outlet

/-- Counters move as the effects say, except for those of attempts to send. -/
theorem Performed.counts {effects : List Effect} (h : Performed e effects e') (counter : Counter)
    (hexhausted : counter ≠ .bufferExhausted) (hdropped : counter ≠ .egressDropped) :
    e'.traffic.stats.get counter =
      e.traffic.stats.get counter + UInt64.ofNat ((counted effects).count counter) :=
  h.emitted.get hexhausted hdropped

/-- An effect that is carried out is announced, counted or attempted, and the ones behind it go on
from there. -/
theorem Performed.cons {effect : Effect} {effects : List Effect} (h : e.perform effect = .ok e₁)
    (h' : Performed e₁ effects e') : Performed e (effect :: effects) e' := by
  have hrest := h'.rest
  have hemitted := h'.emitted
  cases effect with
  | count counter =>
    cases h
    exact ⟨hrest, .count hemitted⟩
  | announce event =>
    cases h
    refine ⟨hrest.trans ?_, .announce hemitted⟩
    show Endpoint.mk _ _ _ (e.events ++ [event] ++ announced effects) _ _ _ _ = _
    rw [List.append_assoc]
    rfl
  | send header path =>
    obtain ⟨outlet, hsend, h⟩ := Checked.bind_eq_ok_iff.1 h
    cases h
    obtain ⟨queued, hoffered⟩ := Outlet.send_eq_ok hsend
    exact ⟨hrest, .send hoffered hemitted⟩

/-- Effects that are carried out are announced, counted and attempted. -/
theorem performAll_performed {effects : List Effect} (h : e.performAll effects = .ok e') :
    Performed e effects e' := by
  induction effects generalizing e with
  | nil =>
    cases h
    refine ⟨?_, .nil⟩
    rw [show announced [] = [] from rfl, List.append_nil]
  | cons effect effects ih =>
    obtain ⟨e₁, heffect, h⟩ := Checked.bind_eq_ok_iff.1 h
    exact .cons heffect (ih h)

/-! ### Endpoints at rest -/

/-- The endpoint that `new` makes of valid settings. -/
def atRest (settings : Settings) (now : UInt64) (identification : UInt16) : Endpoint where
  settings
  outlet := {
    traffic := {
      pool := .new (min settings.tuning.poolSize 64) settings.tuning.poolSize Pool.frameSize
      ingress := .new "ingress" settings.tuning.ringSize
      egress := .new "egress" settings.tuning.ringSize
      stats := .zero }
    identification }
  control := .new settings.tuning (.new settings.tuning.initialPath)
  events := []
  batch := []
  lastTick := now
  lastReport := now
  running := false

/-- A pool that can be allocated is a fresh one. -/
theorem pool_of_allocate {initial limit size : Nat} {pool : Pool}
    (h : Pool.allocate initial limit size = .ok pool) : pool = .new initial limit size := by
  obtain ⟨⟨⟩, -, h⟩ := Checked.bind_eq_ok_iff.1 h
  split at h
  · obtain ⟨⟨⟩, -, h⟩ := Checked.bind_eq_ok_iff.1 h
    cases h
    rfl
  · cases h
    rfl

/-- A queue that can be allocated is a fresh one. -/
theorem queue_of_allocate {name : String} {capacity : Nat} {queue : FrameQueue}
    (h : FrameQueue.allocate name capacity = .ok queue) : queue = .new name capacity := by
  obtain ⟨⟨⟩, -, h⟩ := Checked.bind_eq_ok_iff.1 h
  cases h
  rfl

/-- An endpoint is made of valid settings only, and is at rest. -/
theorem new_eq_ok {settings : Settings} {identification : UInt16}
    (h : (Endpoint.new settings now identification).run = .ok (.ok e)) :
    settings.validate = .ok () ∧ e = atRest settings now identification := by
  unfold Endpoint.new at h
  rcases hvalid : settings.validate with cause | ⟨⟩
  · rw [hvalid] at h
    cases h
  rw [hvalid] at h
  change ((liftM (Pool.forFrames settings.tuning.poolSize) :
    ExceptT Error Checked Pool) >>= _).run = _ at h
  obtain ⟨pool, hpool, h⟩ := Checked.lift_bind_eq_ok_iff.1 h
  obtain ⟨traffic, htraffic, h⟩ := Checked.lift_bind_eq_ok_iff.1 h
  obtain ⟨ingress, hingress, htraffic⟩ := Checked.bind_eq_ok_iff.1 htraffic
  obtain ⟨egress, hegress, htraffic⟩ := Checked.bind_eq_ok_iff.1 htraffic
  cases htraffic
  cases h
  refine ⟨rfl, ?_⟩
  rw [pool_of_allocate hpool, queue_of_allocate hingress, queue_of_allocate hegress]
  rfl

/-! ### Frames, timers and passes -/

/-- Handling a frame counts it as foreign or malformed, or hands its packet to the control state
and carries out what that wants done. -/
theorem handleFrame_eq_ok {frame : Bytes} (h : e.handleFrame now frame = .ok e') :
    (∃ cause, (decode e.settings.addressing frame).run = .ok (.error cause) ∧
        e' = e.count .malformed) ∨
      (decode e.settings.addressing frame).run = .ok (.ok .notControlTraffic) ∧
        e' = e.count .notControl ∨
      ∃ packet control effects,
        (decode e.settings.addressing frame).run = .ok (.ok (.control packet)) ∧
          e.control.onPacket now packet = .ok (control, effects) ∧
          { e with control }.performAll effects = .ok e' := by
  obtain ⟨decoded, hdecode, h⟩ := Checked.bind_eq_ok_iff.1 h
  rw [hdecode]
  rcases decoded with cause | packet | _
  · cases h
    exact .inl ⟨cause, rfl, rfl⟩
  · obtain ⟨⟨control, effects⟩, hpacket, h⟩ := Checked.bind_eq_ok_iff.1 h
    exact .inr (.inr ⟨packet, control, effects, rfl, hpacket, h⟩)
  · cases h
    exact .inr (.inl ⟨rfl, rfl⟩)

/-- A look at the timers is put off, or hands those that have fallen due to the control state. -/
theorem tickTimers_eq_ok {fired : Nat} (h : e.tickTimers now = .ok (e', fired)) :
    e' = e ∨ ∃ control effects, e.control.tick now = .ok ((control, effects), fired) ∧
      { e with control, lastTick := now }.performAll effects = .ok e' := by
  unfold tickTimers at h
  split at h
  · obtain ⟨⟨⟨control, effects⟩, fired'⟩, htick, h⟩ := Checked.bind_eq_ok_iff.1 h
    obtain ⟨e₁, hperform, h⟩ := Checked.bind_eq_ok_iff.1 h
    cases h
    exact .inr ⟨control, effects, htick, hperform⟩
  · cases h
    exact .inl rfl

/-- A report leaves all but its own time alone. -/
theorem report_eq_ok (h : e.report now = .ok e') : ∃ lastReport, e' = { e with lastReport } := by
  unfold report at h
  split at h
  · obtain ⟨text, -, h⟩ := Checked.bind_eq_ok_iff.1 h
    cases h
    exact ⟨now, rfl⟩
  · cases h
    exact ⟨e.lastReport, rfl⟩

/-- The endpoint with a burst from the ingress queue in its batch. -/
def fetch (e : Endpoint) : Endpoint :=
  let (ingress, frames) := e.traffic.ingress.popBurst (max e.settings.tuning.burstSize 1)
  { e with batch := e.batch ++ frames }.withTraffic { e.traffic with ingress }

/-- A pass of the control loop handles a batch, then looks at the timers, then reports. -/
theorem poll_eq_ok {handled : Nat} (h : e.poll now = .ok (e', handled)) :
    ∃ e₁ e₂ fired, e.fetch.drainBatch now e.fetch.batch = .ok e₁ ∧
      e₁.tickTimers now = .ok (e₂, fired) ∧ e₂.report now = .ok e' := by
  obtain ⟨e₁, hdrain, h⟩ := Checked.bind_eq_ok_iff.1 h
  obtain ⟨⟨e₂, fired⟩, htimers, h⟩ := Checked.bind_eq_ok_iff.1 h
  obtain ⟨e₃, hreport, h⟩ := Checked.bind_eq_ok_iff.1 h
  cases h
  exact ⟨e₁, e₂, fired, hdrain, htimers, hreport⟩

/-- A probe round changes the outlet, and only if the role probes. -/
theorem emitRound_eq_ok {queued : Option Nat} (h : e.emitRound now = (e', .ok queued)) :
    queued = none ∧ e' = e ∨ ∃ n outlet, queued = some n ∧ e' = { e with outlet } ∧
      e.outlet.probe e.settings.addressing now PathId.all = (outlet, .ok n) := by
  unfold emitRound at h
  split at h
  · rcases hround : e.outlet.probeRound e.settings.addressing now with ⟨outlet, fault | n⟩
    · rw [hround] at h
      cases h
    · rw [hround] at h
      cases h
      exact .inr ⟨n, outlet, rfl, rfl, hround⟩
  · cases h
    exact .inl ⟨rfl, rfl⟩

/-- What handling a frame and giving its buffer back preserves, while the frames behind it wait,
holds after a batch. -/
theorem drainBatch_induction {P : List Buffer → Endpoint → Prop} {frames : List Buffer}
    (hstep : ∀ frame frames e e', P (frame :: frames) e →
      e.handleFrame now frame.contents = .ok e' →
      P frames (e'.withTraffic (e'.traffic.release [frame])))
    (he : P frames e) (h : e.drainBatch now frames = .ok e') :
    ∃ e₁, P [] e₁ ∧ e' = { e₁ with batch := [] } := by
  induction frames generalizing e with
  | nil =>
    cases h
    exact ⟨e, he, rfl⟩
  | cons frame frames ih =>
    obtain ⟨e₁, hframe, h⟩ := Checked.bind_eq_ok_iff.1 h
    exact ih (hstep frame frames e e₁ he hframe) h

end PathControl.Endpoint
