import PathControl.Proofs.Delay.Estimator
import PathControl.Proofs.Delay.SampleLog
import PathControl.Proofs.Endpoint.Ledger

/-!
# Where delays and samples come from

Only probes get into the delay table, and only what arrives on the active path gets into the history
of the trigger. So both are functions of the packets with a send time that an endpoint has handled,
and of the path that was active as each of them arrived. What the negotiations do, which these
packets lead to, moves the active path but neither of the two.

* `Arrival`: a packet with a send time, as it is handled. `recordings`, `samples`, `rejections`:
  what arrivals come to for the delay table, for the trigger, and as measurements that are rejected.
* `Control.Accounts`: a step that changes delays, history and anomalies by some arrivals, and by
  these only. Steps add up: `Control.Accounts.append`.
* `Control.follow_accounts`: carrying out what the coordinator asks for accounts for no arrival.
* `respond_accounts`: a response accounts for the arrival that the stimulus is, if it is one.
* `Course`, `Course.provenance`: so a run of the control loop accounts for its arrivals.
-/

namespace PathControl

open PathControl.Delay
open PathControl.Endpoint
open PathControl.Negotiation
open PathControl.Transport
open PathControl.Wire

/-- Whether only the control loop moves a counter. The pump, the probes and what becomes of attempts
to send move the other ones. -/
def Counter.isOfLoop : Counter → Bool
  | .framesReceived | .framesSent | .ingressDropped | .egressDropped | .nicErrors | .probesSent
  | .bufferExhausted => false
  | .probesReceived | .timestampsReceived | .notControl | .malformed | .clockAnomalies | .triggers
  | .repathsSent | .repathRetries | .repathsReceived | .acksSent | .acksReceived | .switches
  | .abandoned => true

namespace Endpoint

/-! ### Arrivals -/

/-- A packet with a send time, as it is handled. -/
structure Arrival where
  kind : MessageKind
  path : PathId
  sent : UInt64
  received : UInt64
  /-- The active path at that time. -/
  active : PathId
  deriving DecidableEq, Repr

/-- The probes among arrivals, as calls of an estimator. -/
def recordings (log : List Arrival) : List Estimator.Call :=
  log.filterMap fun a => if a.kind = .probe then some (.probe a.path a.sent a.received) else none

/-- The samples that arrivals on the active path are, unless their delay cannot be measured. -/
def samples (bias : UInt64) (log : List Arrival) : List Sample :=
  log.filterMap fun a =>
    if a.path = a.active then (Estimator.delay? bias a.sent a.received).map (Sample.mk a.sent)
    else none

/-- How many measurements are rejected. Off the active path, only probes are measured. -/
def rejections (bias : UInt64) (log : List Arrival) : Nat :=
  log.countP fun a =>
    (a.kind = .probe ∨ a.path = a.active) ∧ Estimator.delay? bias a.sent a.received = none

/-- The arrival that a packet is, unless it carries a message to the negotiations. -/
def Control.arrival? (c : Control) (now : UInt64) (packet : ControlPacket) : Option Arrival :=
  match packet.header.kind with
  | .probe | .timestamp => some {
      kind := packet.header.kind
      path := packet.path
      sent := packet.header.timestamp
      received := now
      active := c.active.path }
  | .repath | .repathAck => none

/-- The arrival that a stimulus is, if any. -/
def arrivalOf (e : Endpoint) : Stimulus → Option Arrival
  | .frame now bytes =>
    match (decode e.settings.addressing bytes).run with
    | .ok (.ok (.control packet)) => e.control.arrival? now packet
    | _ => none
  | .timers _ => none

/-- Probes are recorded in order of arrival. -/
theorem recordings_append (log later : List Arrival) :
    recordings (log ++ later) = recordings log ++ recordings later := List.filterMap_append

/-- Samples come in order of arrival. -/
theorem samples_append (bias : UInt64) (log later : List Arrival) :
    samples bias (log ++ later) = samples bias log ++ samples bias later := List.filterMap_append

/-- Rejections add up. -/
theorem rejections_append (bias : UInt64) (log later : List Arrival) :
    rejections bias (log ++ later) = rejections bias log + rejections bias later :=
  List.countP_append

section single

variable {a : Arrival} {bias d : UInt64}

/-- An arrival whose delay cannot be measured is no sample. -/
theorem samples_of_none (h : Estimator.delay? bias a.sent a.received = none) :
    samples bias [a] = [] := by
  simp [samples, h]

/-- An arrival off the active path is no sample. -/
theorem samples_of_ne (h : a.path ≠ a.active) : samples bias [a] = [] := by
  simp [samples, h]

/-- An arrival on the active path is a sample if its delay can be measured. -/
theorem samples_of_some (h : a.path = a.active)
    (hd : Estimator.delay? bias a.sent a.received = some d) :
    samples bias [a] = [⟨a.sent, d⟩] := by
  simp [samples, h, hd]

/-- A measurement without a delay is one rejection. -/
theorem rejections_of_none (h : a.kind = .probe ∨ a.path = a.active)
    (hd : Estimator.delay? bias a.sent a.received = none) : rejections bias [a] = 1 := by
  simp [rejections, h, hd]

/-- A measurement with a delay is none. -/
theorem rejections_of_some (hd : Estimator.delay? bias a.sent a.received = some d) :
    rejections bias [a] = 0 := by
  simp [rejections, hd]

/-- A timestamp off the active path is not measured, and so not rejected. -/
theorem rejections_of_ignored (hkind : a.kind ≠ .probe) (h : a.path ≠ a.active) :
    rejections bias [a] = 0 := by
  simp [rejections, hkind, h]

end single

/-- An arrival is a rejected measurement, or one sample, or neither. -/
theorem rejections_add_length_samples (bias : UInt64) (log : List Arrival) :
    rejections bias log + (samples bias log).length ≤ log.length := by
  induction log with
  | nil => exact Nat.le_refl _
  | cons a log ih =>
    have hone : rejections bias [a] + (samples bias [a]).length ≤ 1 := by
      rcases hd : Estimator.delay? bias a.sent a.received with _ | d
      · rw [samples_of_none hd]
        exact List.countP_le_length
      · rw [rejections_of_some hd, Nat.zero_add]
        exact List.length_filterMap_le _ _
    have hcons : a :: log = [a] ++ log := rfl
    rw [hcons, rejections_append, samples_append, List.length_append, List.length_append,
      List.length_singleton]
    omega

/-! ### Accounts -/

namespace Control

/-- Whether a step from `c` to `c'` with some effects changes delays, history and anomalies by the
arrivals of a log, and by these only. -/
structure Accounts (c : Control) (log : List Arrival) (effects : List Effect) (c' : Control) :
    Prop where
  bias : c'.estimator.bias = c.estimator.bias
  delays : c'.estimator.delays = ((recordings log).foldl Estimator.after c.estimator).delays
  samples : ∃ refused,
    c.trigger.feed (samples c.estimator.bias log) = .ok (c'.trigger, refused) ∧
      (counted effects).count .clockAnomalies = rejections c.estimator.bias log + refused

variable {c c₁ c' : Control} {log later : List Arrival} {effects rest : List Effect}
  {now : UInt64}

namespace Accounts

/-- A step without a sample leaves the history alone. -/
theorem unsampled (hsamples : Endpoint.samples c.estimator.bias log = [])
    (hbias : c'.estimator.bias = c.estimator.bias)
    (hdelays : c'.estimator.delays = ((recordings log).foldl Estimator.after c.estimator).delays)
    (htrigger : c'.trigger = c.trigger)
    (hcount : (counted effects).count .clockAnomalies = rejections c.estimator.bias log) :
    c.Accounts log effects c' where
  bias := hbias
  delays := hdelays
  samples := ⟨0, by rw [hsamples, htrigger]; rfl, hcount⟩

/-- A step that leaves delays and history alone, and counts no anomaly. -/
theorem nothing (hestimator : c'.estimator.bias = c.estimator.bias ∧
      c'.estimator.delays = c.estimator.delays) (htrigger : c'.trigger = c.trigger)
    (hnone : (counted effects).count .clockAnomalies = 0) : c.Accounts [] effects c' :=
  unsampled rfl hestimator.1 hestimator.2 htrigger hnone

/-- Without arrivals the history of the active path stays as it is. -/
theorem trigger_eq (h : c.Accounts [] effects c') : c'.trigger = c.trigger := by
  obtain ⟨refused, hfeed, -⟩ := h.samples
  exact (Prod.mk.inj (Except.ok.inj hfeed)).1.symm

/-- Without arrivals no anomaly is counted. -/
theorem count_eq_zero (h : c.Accounts [] effects c') :
    (counted effects).count .clockAnomalies = 0 := by
  obtain ⟨refused, hfeed, hcount⟩ := h.samples
  obtain ⟨-, rfl⟩ := Prod.mk.inj (Except.ok.inj hfeed)
  exact hcount

/-- Steps account for the arrivals of both, in order. -/
theorem append (h : c.Accounts log effects c₁) (h' : c₁.Accounts later rest c') :
    c.Accounts (log ++ later) (effects ++ rest) c' where
  bias := h'.bias.trans h.bias
  delays := by
    rw [h'.delays, recordings_append, List.foldl_append]
    exact Estimator.delays_foldl_congr h.delays (h.bias.trans (Estimator.bias_foldl _ _).symm) _
  samples := by
    obtain ⟨refused, hfeed, hcount⟩ := h.samples
    obtain ⟨refused', hfeed', hcount'⟩ := h'.samples
    rw [h.bias] at hfeed' hcount'
    refine ⟨refused + refused', ?_, ?_⟩
    · rw [samples_append]
      exact SwitchTrigger.feed_append hfeed hfeed'
    · rw [counted_append, List.count_append, hcount, hcount', rejections_append]
      omega

end Accounts

/-! ### What the coordinator asks for -/

/-- A switch is no anomaly. -/
theorem count_switched (active path : PathId) (cause : SwitchCause) :
    (counted (switched active path cause)).count .clockAnomalies = 0 := by
  unfold switched
  split <;> rfl

/-- No action is an arrival: adoptions and commits change neither delays nor history. -/
theorem act_accounts {action : Action} (h : c.act now action = .ok (c', effects)) :
    c.Accounts [] effects c' := by
  cases action with
  | sendRepath target via sequence attempt =>
    cases h
    refine .nothing ⟨rfl, rfl⟩ rfl ?_
    split <;> rfl
  | sendRepathAck via ack | abandoned target attempts =>
    cases h
    exact .nothing ⟨rfl, rfl⟩ rfl rfl
  | committed path | adopted path =>
    obtain ⟨active, left, -, rfl, rfl⟩ := switchTo_eq_ok h
    exact .nothing ⟨rfl, rfl⟩ rfl (count_switched _ _ _)

/-- Nor are any number of actions. -/
theorem actAll_accounts {actions : List Action} (h : c.actAll now actions = .ok (c', effects)) :
    c.Accounts [] effects c' := by
  induction actions generalizing c effects with
  | nil =>
    cases h
    exact .nothing ⟨rfl, rfl⟩ rfl rfl
  | cons action actions ih =>
    obtain ⟨⟨c₁, first⟩, hact, h⟩ := Checked.bind_eq_ok_iff.1 h
    obtain ⟨⟨c₂, rest⟩, hrest, h⟩ := Checked.bind_eq_ok_iff.1 h
    cases h
    exact (act_accounts hact).append (ih hrest)

/-- Commits, adoptions, retries and abandonments account for no arrival. -/
theorem follow_accounts {o : Outcome} (h : c.follow now o = .ok (c', effects)) :
    c.Accounts [] effects c' := by
  obtain ⟨hbias, hdelays, hsamples⟩ := actAll_accounts h
  exact ⟨hbias, hdelays, hsamples⟩

/-- Timers are no arrivals. -/
theorem onTimers_accounts {fired : List (TimerHandle × TimerKind)}
    (h : c.onTimers now fired = .ok (c', effects)) : c.Accounts [] effects c' := by
  induction fired generalizing c effects with
  | nil =>
    cases h
    exact .nothing ⟨rfl, rfl⟩ rfl rfl
  | cons x fired ih =>
    obtain ⟨o, -, h⟩ := Checked.bind_eq_ok_iff.1 h
    obtain ⟨⟨c₁, first⟩, hfollow, h⟩ := Checked.bind_eq_ok_iff.1 h
    obtain ⟨⟨c₂, rest⟩, hrest, h⟩ := Checked.bind_eq_ok_iff.1 h
    cases h
    exact (follow_accounts hfollow).append (ih hrest)

/-- A look at the timers is none. -/
theorem tick_accounts {fired : Nat} (h : c.tick now = .ok ((c', effects), fired)) :
    c.Accounts [] effects c' := by
  obtain ⟨step, hstep, h⟩ := Checked.bind_eq_ok_iff.1 h
  cases h
  obtain ⟨hbias, hdelays, hsamples⟩ := onTimers_accounts hstep
  exact ⟨hbias, hdelays, hsamples⟩

/-! ### Packets -/

/-- A sample that is evaluated is fed to the trigger. What that leads to does not come back. -/
theorem evaluate_eq_ok {sent delay : UInt64} (h : c.evaluate now sent delay = .ok (c', effects)) :
    c'.estimator.bias = c.estimator.bias ∧ c'.estimator.delays = c.estimator.delays ∧
      c.trigger.feed [⟨sent, delay⟩] =
        .ok (c'.trigger, (counted effects).count .clockAnomalies) := by
  obtain ⟨⟨trigger, result⟩, hobserve, h⟩ := Checked.bind_eq_ok_iff.1 h
  have hfeed : c.trigger.feed [⟨sent, delay⟩] =
      .ok (trigger, SwitchTrigger.refusal result) := by
    rw [SwitchTrigger.feed, hobserve]
    rfl
  rcases result with cause | verdict
  · cases h
    exact ⟨rfl, rfl, hfeed⟩
  cases verdict with
  | noAction =>
    cases h
    exact ⟨rfl, rfl, hfeed⟩
  | trySwitch | forceSwitch =>
    obtain ⟨outcome, -, h⟩ := Checked.bind_eq_ok_iff.1 h
    obtain ⟨⟨c₁, rest⟩, hfollow, h⟩ := Checked.bind_eq_ok_iff.1 h
    cases h
    have hnothing := follow_accounts hfollow
    have hcount : (counted (.count .triggers :: rest)).count .clockAnomalies = 0 :=
      hnothing.count_eq_zero
    rw [hnothing.trigger_eq, hcount]
    exact ⟨hnothing.bias, hnothing.delays, hfeed⟩

variable {a : Arrival} {d : UInt64}

/-- An arrival on the active path that can be measured is evaluated, maybe after it is recorded. -/
theorem sampled_accounts {c₀ : Control} (h : c₀.evaluate now a.sent d = .ok (c', rest))
    (hpath : a.path = a.active)
    (hd : Estimator.delay? c.estimator.bias a.sent a.received = some d)
    (hestimator : c₀.estimator = (recordings [a]).foldl Estimator.after c.estimator)
    (htrigger : c₀.trigger = c.trigger)
    (hcount : (counted effects).count .clockAnomalies = (counted rest).count .clockAnomalies) :
    c.Accounts [a] effects c' := by
  obtain ⟨hbias, hdelays, hfeed⟩ := evaluate_eq_ok h
  rw [hestimator] at hbias hdelays
  rw [htrigger] at hfeed
  refine ⟨hbias.trans (Estimator.bias_foldl _ _), hdelays,
    (counted rest).count .clockAnomalies, ?_, ?_⟩
  · rw [samples_of_some hpath hd]
    exact hfeed
  · rw [rejections_of_some hd, Nat.zero_add, hcount]

/-- A probe accounts for itself. -/
theorem onProbe_accounts (hkind : a.kind = .probe) (hactive : a.active = c.active.path)
    (h : c.onProbe a.received a.path a.sent = .ok (c', effects)) :
    c.Accounts [a] effects c' := by
  have hrecordings : (recordings [a]).foldl Estimator.after c.estimator =
      (c.estimator.recordProbe a.path a.sent a.received).1 := by
    simp [recordings, hkind, Estimator.after]
  rcases hd : Estimator.delay? c.estimator.bias a.sent a.received with _ | d
  · simp only [onProbe, Estimator.recordProbe_of_none hd] at h hrecordings
    cases h
    exact .unsampled (samples_of_none hd) rfl (congrArg (·.delays) hrecordings.symm) rfl
      (rejections_of_none (.inl hkind) hd).symm
  · obtain ⟨estimator, hrecord⟩ : ∃ estimator,
        c.estimator.recordProbe a.path a.sent a.received = (estimator, .ok d) :=
      ⟨_, Estimator.recordProbe_of_some hd⟩
    simp only [onProbe, hrecord] at h hrecordings
    -- News of another best path are no anomaly.
    have hnews : ∀ rest, (counted (.count .probesReceived ::
        (if estimator.best = c.estimator.best then []
          else [.announce (.bestPathChanged c.estimator.best estimator.best)]) ++ rest)).count
            .clockAnomalies = (counted rest).count .clockAnomalies := by
      intro rest
      split <;> rfl
    by_cases hpath : a.path = c.active.path
    · rw [if_pos hpath] at h
      obtain ⟨⟨c₁, rest⟩, hstep, h⟩ := Checked.bind_eq_ok_iff.1 h
      cases h
      exact sampled_accounts hstep (hpath.trans hactive.symm) hd hrecordings.symm rfl (hnews rest)
    · rw [if_neg hpath] at h
      cases h
      have hbias : estimator.bias = c.estimator.bias := hrecordings ▸ Estimator.bias_foldl _ _
      exact .unsampled (samples_of_ne (hactive ▸ hpath)) hbias
        (congrArg (·.delays) hrecordings.symm) rfl
        ((hnews []).trans (rejections_of_some hd).symm)

/-- A timestamp accounts for itself. -/
theorem onTimestamp_accounts (hkind : a.kind = .timestamp) (hactive : a.active = c.active.path)
    (h : c.onTimestamp a.received a.path a.sent = .ok (c', effects)) :
    c.Accounts [a] effects c' := by
  have hunrecorded : recordings [a] = [] := by simp [recordings, hkind]
  have hestimator : c.estimator = (recordings [a]).foldl Estimator.after c.estimator := by
    rw [hunrecorded]
    rfl
  have hdelays := congrArg (·.delays) hestimator
  unfold onTimestamp at h
  by_cases hpath : a.path = c.active.path
  · rw [if_neg (not_not.2 hpath), Estimator.measure_eq] at h
    rcases hd : Estimator.delay? c.estimator.bias a.sent a.received with _ | d
    · rw [hd] at h
      cases h
      exact .unsampled (samples_of_none hd) rfl hdelays rfl
        (rejections_of_none (.inr (hpath.trans hactive.symm)) hd).symm
    · rw [hd] at h
      obtain ⟨⟨c₁, rest⟩, hstep, h⟩ := Checked.bind_eq_ok_iff.1 h
      cases h
      exact sampled_accounts hstep (hpath.trans hactive.symm) hd hestimator rfl rfl
  · rw [if_pos hpath] at h
    cases h
    have hne : a.kind ≠ .probe := by simp [hkind]
    exact .unsampled (samples_of_ne (hactive ▸ hpath)) rfl hdelays rfl
      (rejections_of_ignored hne (hactive ▸ hpath)).symm

/-- What the coordinator makes of a message accounts for no arrival. -/
theorem heard_accounts {o : Outcome} {counter : Counter} (hcounter : counter ≠ .clockAnomalies)
    (h : c.follow now o = .ok (c', effects)) : c.Accounts [] (.count counter :: effects) c' := by
  have hcount : c.Accounts [] [.count counter] c :=
    .nothing ⟨rfl, rfl⟩ rfl
      (List.count_eq_zero.2 fun hmem => hcounter (List.mem_singleton.1 hmem).symm)
  exact hcount.append (follow_accounts h)

/-- A packet accounts for the arrival that it is, if it is one. -/
theorem onPacket_accounts {packet : ControlPacket} (h : c.onPacket now packet = .ok (c', effects)) :
    c.Accounts (c.arrival? now packet).toList effects c' := by
  unfold arrival?
  simp only [onPacket] at h
  rcases hkind : packet.header.kind with _ | _ | _ | _
  all_goals simp only [hkind] at h ⊢
  · exact onProbe_accounts rfl rfl h
  · split at h
    · obtain ⟨o, -, h⟩ := Checked.bind_eq_ok_iff.1 h
      obtain ⟨⟨c₁, rest⟩, hfollow, h⟩ := Checked.bind_eq_ok_iff.1 h
      cases h
      exact heard_accounts (by decide) hfollow
    · cases h
      exact .nothing ⟨rfl, rfl⟩ rfl rfl
  · obtain ⟨⟨c₁, rest⟩, hfollow, h⟩ := Checked.bind_eq_ok_iff.1 h
    cases h
    exact heard_accounts (by decide) hfollow
  · exact onTimestamp_accounts rfl rfl h

end Control

variable {e e' : Endpoint} {x : Stimulus} {r : Response}

/-- A response accounts for the arrival that the stimulus is, if it is one. -/
theorem respond_accounts (h : e.respond x = .ok r) :
    e.control.Accounts (e.arrivalOf x).toList r.effects r.control := by
  cases x with
  | frame now bytes =>
    rcases hdecode : (decode e.settings.addressing bytes).run with fault | cause | packet | _
    all_goals simp only [respond, arrivalOf, hdecode] at h ⊢
    · cases h
    · cases h
      exact .nothing ⟨rfl, rfl⟩ rfl rfl
    · obtain ⟨⟨control, effects⟩, hpacket, h⟩ := Checked.bind_eq_ok_iff.1 h
      cases h
      exact Control.onPacket_accounts hpacket
    · cases h
      exact .nothing ⟨rfl, rfl⟩ rfl rfl
  | timers now =>
    unfold respond at h
    dsimp only at h
    split at h
    · obtain ⟨⟨⟨control, effects⟩, fired⟩, htick, h⟩ := Checked.bind_eq_ok_iff.1 h
      cases h
      exact Control.tick_accounts htick
    · cases h
      exact .nothing ⟨rfl, rfl⟩ rfl rfl

/-! ### Runs -/

/-- A moment of a run: an endpoint, and what it takes. -/
structure Moment where
  endpoint : Endpoint
  stimulus : Stimulus

/-- The arrivals of a run. -/
def arrivals (moments : List Moment) : List Arrival :=
  moments.filterMap fun m => m.endpoint.arrivalOf m.stimulus

/-- The states of an endpoint between the steps of its control loop, from a first one on, with the
moments so far. -/
inductive Course (first : Endpoint) : Endpoint → List Moment → Prop where
  | start : Course first first []
  | step {e e' : Endpoint} {moments : List Moment} (x : Stimulus) :
      Course first e moments → e.take x = .ok e' → Course first e' (moments ++ [⟨e, x⟩])
  | elsewhere {e e' : Endpoint} {moments : List Moment} :
      Course first e moments → Aside (fun counter => counter.isOfLoop = true) e e' →
      Course first e' moments

/-- One more moment adds its arrival, if it is one. -/
theorem arrivals_concat (moments : List Moment) (m : Moment) :
    arrivals (moments ++ [m]) = arrivals moments ++ (m.endpoint.arrivalOf m.stimulus).toList := by
  have hone : arrivals [m] = (m.endpoint.arrivalOf m.stimulus).toList := by
    unfold arrivals
    rcases h : m.endpoint.arrivalOf m.stimulus with _ | a
    · exact List.filterMap_cons_none h
    · exact List.filterMap_cons_some h
  rw [← hone]
  exact List.filterMap_append

namespace Course

variable {first : Endpoint} {moments : List Moment}

/-- A run is able to go on as its first endpoint was. -/
theorem able {settings : Settings} {n : Nat} (h : Course first e moments)
    (hfirst : Able settings first n) : Able settings e (n + moments.length) := by
  induction h with
  | start => exact hfirst
  | step x _ htake ih =>
    obtain ⟨r, hr, -⟩ := take_eq_ok htake
    rw [List.length_append, List.length_singleton, ← Nat.add_assoc]
    exact ih.step hr htake
  | elsewhere _ haside ih => exact ih.aside haside

/-- A run accounts for its arrivals. -/
theorem accounts (h : Course first e moments) :
    ∃ effects, first.control.Accounts (arrivals moments) effects e.control ∧
      e.traffic.stats.get .clockAnomalies = first.traffic.stats.get .clockAnomalies +
        UInt64.ofNat ((counted effects).count .clockAnomalies) := by
  induction h with
  | start => exact ⟨[], .nothing ⟨rfl, rfl⟩ rfl rfl, (UInt64.add_zero _).symm⟩
  | step x _ htake ih =>
    obtain ⟨effects, haccounts, hcounter⟩ := ih
    obtain ⟨r, hr, -⟩ := take_eq_ok htake
    have htook := take_took hr htake
    refine ⟨effects ++ r.effects, ?_, ?_⟩
    · rw [arrivals_concat, htook.control]
      exact haccounts.append (respond_accounts hr)
    · rw [htook.counts _ (by constructor <;> decide), hcounter, counted_append, List.count_append,
        UInt64.ofNat_add, UInt64.add_assoc]
  | elsewhere _ haside ih =>
    obtain ⟨effects, haccounts, hcounter⟩ := ih
    exact ⟨effects, haside.control ▸ haccounts, (haside.counts _ rfl).trans hcounter⟩

/-- Whether a run has gone on from `moments` by the steps `taken`. -/
def Onward (first : Endpoint) (moments : List Moment) (taken : List Stimulus) (e : Endpoint) :
    Prop :=
  ∃ later, Course first e (moments ++ later) ∧ later.map Moment.stimulus = taken

/-- A run from a first endpoint that is able to take steps goes on by steps and by what happens
besides. -/
theorem Onward.persists {settings : Settings} {n : Nat} (hfirst : Able settings first n) :
    Persists (fun counter => counter.isOfLoop = true) (Onward first moments) where
  equipped := fun ⟨_, hcourse, _⟩ => (hcourse.able hfirst).equipped
  step := by
    rintro taken e e' x ⟨later, hcourse, rfl⟩ htake
    refine ⟨later ++ [⟨e, x⟩], ?_, List.map_append⟩
    rw [← List.append_assoc]
    exact hcourse.step x htake
  aside := fun ⟨later, hcourse, htaken⟩ haside => ⟨later, hcourse.elsewhere haside, htaken⟩

/-- **Delays come from probes, and samples from the active path.** After every step of a run from
the start of a control loop on, with the arrivals of the run in order:

* The delay table is what an estimator has after recording the probes.
* The trigger is what has been fed the samples, which are the arrivals on the path that was active
  as each arrived, with their send times and delays, less those whose measurement was rejected.
* Every sample was accepted or refused, and the anomalies counted since the start are the rejected
  measurements and the refused samples, of which there are no more than steps.
* A stimulus that is no arrival leaves delays and trigger alone and counts no anomaly, whatever
  switch, adoption, repetition or abandonment it leads to.
* The next step goes through, as long as the transmissions of a proposal, the switches and the steps
  can be counted; and a pass of the control loop consists of steps. -/
theorem provenance (hfirst : first.Starting) (h : Course first e moments) :
    let bias := first.settings.tuning.clockBias
    let log := arrivals moments
    let taken := samples bias.word log
    e.control.estimator.delays = (Estimator.afterAll bias (recordings log)).delays ∧
      (∃ refused, (SwitchTrigger.new first.settings.tuning.thresholdRatio).feed taken =
          .ok (e.control.trigger, refused) ∧
        refused + (accepted taken).length = taken.length ∧
        e.traffic.stats.get .clockAnomalies = first.traffic.stats.get .clockAnomalies +
          .ofNat (rejections bias.word log + refused) ∧
        rejections bias.word log + refused ≤ moments.length) ∧
      (∀ x r, e.respond x = .ok r → e.arrivalOf x = none →
        r.control.estimator.delays = e.control.estimator.delays ∧
          r.control.trigger = e.control.trigger ∧
          (counted r.effects).count .clockAnomalies = 0) ∧
      (first.settings.tuning.maxRetries.toNat + 1 < UInt32.size →
        first.control.active.switches.toNat + moments.length + 1 < UInt64.size →
        ∀ x, ∃ e', e.take x = .ok e' ∧ Course first e' (moments ++ [⟨e, x⟩])) ∧
      ∀ now e' handled, e.poll now = .ok (e', handled) → ∃ later,
        Course first e' (moments ++ later) ∧ later.map Moment.stimulus = e.pass now := by
  intro bias log taken
  obtain ⟨effects, haccounts, hcounter⟩ := h.accounts
  rw [hfirst.control] at haccounts
  obtain ⟨refused, hfeed, hcount⟩ := haccounts.samples
  -- an arrival is rejected or sampled, not both, which bounds the two counts together
  have hcharts : Charts first.settings.tuning.thresholdRatio PathHealth.empty [] := .empty _
  have hall : refused + (accepted taken).length = taken.length := by
    obtain ⟨-, -, hall⟩ := SwitchTrigger.feed_charts hcharts hfeed
    exact hall.trans (Nat.zero_add _)
  have hmeasured : rejections bias.word log + taken.length ≤ log.length :=
    rejections_add_length_samples _ _
  have harrivals : log.length ≤ moments.length := List.length_filterMap_le _ _
  refine ⟨haccounts.delays, ⟨refused, hfeed, hall, ?_, by omega⟩, fun x r hr hnone => ?_,
    fun hretries few x => ?_, fun now e' handled hpoll => ?_⟩
  · rw [hcounter, hcount]
    rfl
  · have hresponse := respond_accounts hr
    rw [hnone] at hresponse
    exact ⟨hresponse.delays, hresponse.trigger_eq, hresponse.count_eq_zero⟩
  · obtain ⟨e', htake⟩ := (h.able hfirst.able).goes_on hretries few x
    exact ⟨e', htake, h.step x htake⟩
  · have hstart : Onward first moments [] e := ⟨[], by rwa [List.append_nil], rfl⟩
    exact (Onward.persists hfirst.able).poll hstart hpoll

/-- A frame of the peer of a standard endpoint. -/
def fromPeer (now : UInt64) (path : PathId) (header : Header) : Stimulus :=
  .frame now (controlFrame Addressing.standard.reversed path 1 header)

/-- A probe off the active path and two timestamps on it: the second one of these was sent at the
time of the first one. -/
theorem late_timestamp_refused :
    let second : PathId := ⟨⟨1, by decide⟩⟩
    let log : List Arrival := [⟨.probe, second, 3, 5, .first⟩, ⟨.timestamp, .first, 4, 6, .first⟩,
      ⟨.timestamp, .first, 4, 7, .first⟩]
    ∃ first e moments, first.Starting ∧ Course first e moments ∧ arrivals moments = log ∧
      e.control.estimator.snapshot = [none, some 1_000_000_002, none, none] ∧
      samples first.settings.tuning.clockBias.word log = [⟨4, 1_000_000_002⟩, ⟨4, 1_000_000_003⟩] ∧
      e.traffic.stats.get .clockAnomalies = 1 := by
  intro second log
  have hnew : (Endpoint.new .standard 0 7).run = .ok (.ok (atRest .standard 0 7)) := rfl
  let x₁ := fromPeer 5 second (.probe 3)
  let x₂ := fromPeer 6 .first (.dataTimestamp 4)
  let x₃ := fromPeer 7 .first (.dataTimestamp 4)
  have heval : ((atRest .standard 0 7).take x₁).toOption.any (fun e₁ =>
      (e₁.take x₂).toOption.any fun e₂ => (e₂.take x₃).toOption.any fun _ =>
        (atRest .standard 0 7).arrivalOf x₁ = log[0]? ∧ e₁.arrivalOf x₂ = log[1]? ∧
          e₂.arrivalOf x₃ = log[2]?) = true := by
    decide +kernel
  obtain ⟨e₁, htake₁, heval₁⟩ := Checked.exists_of_any heval
  obtain ⟨e₂, htake₂, heval₂⟩ := Checked.exists_of_any heval₁
  obtain ⟨e₃, htake₃, hholds⟩ := Checked.exists_of_any heval₂
  obtain ⟨ha₁, ha₂, ha₃⟩ := of_decide_eq_true hholds
  let moments : List Moment := [⟨atRest .standard 0 7, x₁⟩, ⟨e₁, x₂⟩, ⟨e₂, x₃⟩]
  have hcourse : Course (atRest .standard 0 7) e₃ moments :=
    ((Course.start.step x₁ htake₁).step x₂ htake₂).step x₃ htake₃
  have hlog : arrivals moments = log := by
    simp only [arrivals, moments, List.filterMap_cons, ha₁, ha₂, ha₃]
    rfl
  have hsamples : samples Settings.standard.tuning.clockBias.word log =
      [⟨4, 1_000_000_002⟩, ⟨4, 1_000_000_003⟩] := by decide
  obtain ⟨hdelays, ⟨refused, -, hall, hcounter, -⟩, -⟩ := hcourse.provenance (starting_new hnew)
  refine ⟨_, e₃, moments, starting_new hnew, hcourse, hlog, ?_, hsamples, ?_⟩
  · rw [hlog] at hdelays
    unfold Estimator.snapshot Estimator.delay
    rw [hdelays]
    decide
  · have hrejections : rejections Settings.standard.tuning.clockBias.word log = 0 := by decide
    have haccepted : (accepted [⟨4, 1_000_000_002⟩, ⟨4, 1_000_000_003⟩]).length = 1 := by decide
    have hfirst : (atRest .standard 0 7).settings = .standard := rfl
    have hzero : (atRest .standard 0 7).traffic.stats.get .clockAnomalies = 0 := Stats.get_zero _
    rw [hlog, hfirst, hsamples, haccepted] at hall
    obtain rfl : refused = 1 := Nat.succ.inj hall
    rw [hcounter, hzero, hlog, hfirst, hrejections]
    rfl

end Course

end Endpoint

end PathControl
