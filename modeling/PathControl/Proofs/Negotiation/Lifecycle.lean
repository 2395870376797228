import Mathlib.Data.List.Induction
import PathControl.Proofs.Negotiation.Run

/-!
# The lives of negotiations

The *chronicle* of a run is what its actions say about negotiations of our own, in order: a
transmission under its number, a commitment under the number that was confirmed, and the other
two ends under the number of the negotiation that they found outstanding. An action that no input
of its kind should lead to is told as it is.

* `Life`: a target, how often it was proposed, and how that ended, if it did. `Life.marks` is what
  a chronicle tells of it under a given number.
* `Run.chronicled`: the chronicle of a run is its lives one after the other, numbered from 1.
* `Run.chronicle_eq_annals`: the same with what it says of a single number and of the current
  state.

Numbers are reused once a run has begun 2^64 negotiations, so that many are excluded.
-/

namespace PathControl.Negotiation

/-- What an action says about the negotiations of our own. -/
inductive Mark where
  /-- A path was proposed for the `attempt`th time. -/
  | sent (number : Nat) (target : PathId) (attempt : Nat)
  /-- A confirmation of `number` was answered by a commitment. -/
  | committed (number : Nat) (target : PathId)
  /-- The negotiation was given up when its timer was looked at. -/
  | abandoned (number : Nat) (target : PathId) (attempts : Nat)
  /-- The negotiation was given up for a proposal of the peer. -/
  | superseded (number : Nat)
  /-- The action belongs to no input of its kind. -/
  | stray (action : Action)
  deriving DecidableEq, Repr

namespace Mark

/-- The number of the negotiation that a mark belongs to. -/
def number? : Mark → Option Nat
  | sent number _ _ | committed number _ | abandoned number _ _ | superseded number => some number
  | stray _ => none

/-- The path that a mark names. -/
def target? : Mark → Option PathId
  | sent _ target _ | committed _ target | abandoned _ target _ => some target
  | superseded _ | stray _ => none

/-- Whether a mark ends a negotiation. -/
def isEnd : Mark → Bool
  | committed .. | abandoned .. | superseded _ => true
  | sent .. | stray _ => false

end Mark

namespace Record

/-- What one of its actions says. -/
def marksOf (r : Record) (action : Action) : List Mark :=
  match action, r.input, r.before with
  | .sendRepath target _ sequence attempt, _, _ => [.sent sequence.toNat target attempt.toNat]
  | .sendRepathAck .., _, _ => []
  | .committed target, .ack sequence, _ => [.committed sequence.toNat target]
  | .abandoned target attempts, .tick _, .awaitingAck _ sequence _ _ =>
    [.abandoned sequence.toNat target attempts.toNat]
  | .adopted _, .repath .., .awaitingAck _ sequence _ _ => [.superseded sequence.toNat]
  | .adopted _, .repath .., .idle => []
  | action, _, _ => [.stray action]

/-- What its actions say. -/
def marks (r : Record) : List Mark := r.actions.flatMap r.marksOf

end Record

/-- Whether an action is the first transmission of a negotiation. -/
def Action.begins : Action → Bool
  | .sendRepath _ _ _ attempt => attempt == 1
  | _ => false

/-- All that a history says about negotiations of our own. -/
def chronicle (history : List Record) : List Mark := history.flatMap Record.marks

/-- The ends of negotiations that a history tells of. -/
def ends (history : List Record) : List Mark := (chronicle history).filter Mark.isEnd

/-- How many negotiations were begun. -/
def begun (history : List Record) : Nat := (history.flatMap (·.actions)).countP Action.begins

/-- How a negotiation ends. -/
inductive Ending where
  | committed
  | abandoned
  | superseded
  deriving DecidableEq, Repr

/-- A negotiation from its first transmission on. -/
structure Life where
  target : PathId
  transmissions : Nat
  ending : Option Ending
  deriving DecidableEq, Repr

namespace Life

/-- The transmissions of a life under its number. -/
def sends (l : Life) (number : Nat) : List Mark :=
  (List.range l.transmissions).map fun i => .sent number l.target (i + 1)

/-- The end of a life under its number. -/
def close (l : Life) (number : Nat) : List Mark :=
  match l.ending with
  | none => []
  | some .committed => [.committed number l.target]
  | some .abandoned => [.abandoned number l.target l.transmissions]
  | some .superseded => [.superseded number]

/-- What a chronicle tells of a life under its number. -/
def marks (l : Life) (number : Nat) : List Mark := l.sends number ++ l.close number

/-- A life within a budget of repetitions, which are used up where it is abandoned. -/
structure Valid (maxRetries : UInt32) (l : Life) : Prop where
  sent : 1 ≤ l.transmissions
  budget : l.transmissions ≤ maxRetries.toNat + 1
  spent : l.ending = some .abandoned → l.transmissions = maxRetries.toNat + 1

/-- A negotiation that has not ended is told of by its transmissions. -/
theorem marks_of_open (target : PathId) (transmissions number : Nat) :
    (⟨target, transmissions, none⟩ : Life).marks number =
      (⟨target, transmissions, none⟩ : Life).sends number :=
  List.append_nil _

/-- One more transmission is one more mark at the end. -/
theorem marks_succ (target : PathId) (transmissions number : Nat) :
    (⟨target, transmissions + 1, none⟩ : Life).marks number =
      (⟨target, transmissions, none⟩ : Life).marks number ++
        [.sent number target (transmissions + 1)] := by
  simp [marks, sends, close, List.range_succ]

/-- Every mark of a life has its number. -/
theorem number_of_mem {l : Life} {number : Nat} {m : Mark} (h : m ∈ l.marks number) :
    m.number? = some number := by
  rcases List.mem_append.1 h with h | h
  · obtain ⟨i, -, rfl⟩ := List.mem_map.1 h
    rfl
  · unfold close at h
    split at h
    · exact absurd h List.not_mem_nil
    all_goals
      obtain rfl := List.mem_singleton.1 h
      rfl

/-- Every mark of a life names its path. -/
theorem target_of_mem {l : Life} {number : Nat} {m : Mark} (h : m ∈ l.marks number)
    {target : PathId} (ht : m.target? = some target) : l.target = target := by
  rcases List.mem_append.1 h with h | h
  · obtain ⟨i, -, rfl⟩ := List.mem_map.1 h
    exact Option.some.inj ht
  · unfold close at h
    split at h
    · exact absurd h List.not_mem_nil
    all_goals
      obtain rfl := List.mem_singleton.1 h
      simp_all [Mark.target?]

/-- The transmissions of a life are counted from 1 on. -/
theorem attempt_of_mem {l : Life} {number n attempt : Nat} {target : PathId}
    (h : .sent n target attempt ∈ l.marks number) : 1 ≤ attempt ∧ attempt ≤ l.transmissions := by
  rcases List.mem_append.1 h with h | h
  · obtain ⟨i, hi, heq⟩ := List.mem_map.1 h
    cases heq
    exact ⟨Nat.le_add_left _ _, List.mem_range.1 hi⟩
  · unfold close at h
    split at h <;> simp at h

/-- A negotiation is abandoned after all its transmissions. -/
theorem attempts_of_mem {l : Life} {number n attempts : Nat} {target : PathId}
    (h : .abandoned n target attempts ∈ l.marks number) : attempts = l.transmissions := by
  rcases List.mem_append.1 h with h | h
  · obtain ⟨i, -, heq⟩ := List.mem_map.1 h
    cases heq
  · unfold close at h
    split at h <;> simp at h
    exact h.2.2

/-- A life is told of without repetition. -/
theorem nodup_marks (l : Life) (number : Nat) : (l.marks number).Nodup := by
  refine List.nodup_append'.2 ⟨?_, ?_, fun m hm hm' => ?_⟩
  · refine List.nodup_range.map fun i j h => ?_
    simpa using h
  · unfold close
    split <;> simp
  · obtain ⟨i, -, rfl⟩ := List.mem_map.1 hm
    unfold close at hm'
    split at hm' <;> simp at hm'

/-- What ends a negotiation, among the marks of a life, is its close. -/
theorem filter_isEnd_marks (l : Life) (number : Nat) :
    (l.marks number).filter Mark.isEnd = l.close number := by
  rw [marks, List.filter_append, List.filter_eq_nil_iff.2, List.nil_append]
  · refine List.filter_eq_self.2 fun m hm => ?_
    unfold close at hm
    split at hm <;> simp_all [Mark.isEnd]
  · intro m hm
    obtain ⟨i, -, rfl⟩ := List.mem_map.1 hm
    exact Bool.false_ne_true

/-- A life that has ended says so. -/
theorem close_ne_nil {l : Life} (h : l.ending.isSome) (number : Nat) : l.close number ≠ [] := by
  unfold close
  split <;> simp_all

/-- The end of a life is its last mark. -/
theorem pairwise_marks (l : Life) (number : Nat) :
    (l.marks number).Pairwise fun m _ => m.isEnd = false := by
  refine List.pairwise_append.2 ⟨?_, ?_, fun m hm _ _ => ?_⟩
  · refine List.pairwise_of_forall_mem_list fun m hm _ _ => ?_
    obtain ⟨i, -, rfl⟩ := List.mem_map.1 hm
    rfl
  · unfold close
    split <;> simp
  · obtain ⟨i, -, rfl⟩ := List.mem_map.1 hm
    rfl

end Life

/-- Lives one after the other, numbered from 1. -/
def annals (lives : List Life) : List Mark := (lives.zipIdx 1).flatMap fun x => x.1.marks x.2

/-- One more life is told of at the end, under the next number. -/
theorem annals_concat (past : List Life) (l : Life) :
    annals (past ++ [l]) = annals past ++ l.marks (past.length + 1) := by
  simp [annals, List.zipIdx_append, Nat.add_comm]

/-- One more record is told of at the end. -/
theorem chronicle_concat (history : List Record) (r : Record) :
    chronicle (history ++ [r]) = chronicle history ++ r.marks := by
  simp [chronicle]

/-- One more record adds the ends that it tells of. -/
theorem ends_concat (history : List Record) (r : Record) :
    ends (history ++ [r]) = ends history ++ r.marks.filter Mark.isEnd := by
  rw [ends, chronicle_concat, List.filter_append]
  rfl

/-- One more record adds the negotiations that it begins. -/
theorem begun_concat (history : List Record) (r : Record) :
    begun (history ++ [r]) = begun history + r.actions.countP Action.begins := by
  simp [begun]

/-- A mark belongs to the life whose number it has. -/
theorem mem_annals {lives : List Life} {m : Mark} :
    m ∈ annals lives ↔ ∃ (n : Nat) (l : Life), lives[n]? = some l ∧ m ∈ l.marks (n + 1) := by
  simp only [annals, List.mem_flatMap, Prod.exists, List.mk_mem_zipIdx_iff_le_and_getElem?_sub]
  constructor
  · rintro ⟨l, n, ⟨hn, hl⟩, hm⟩
    exact ⟨n - 1, l, hl, by rwa [Nat.sub_add_cancel hn]⟩
  · rintro ⟨n, l, hl, hm⟩
    exact ⟨l, n + 1, ⟨Nat.le_add_left _ _, hl⟩, hm⟩

/-- Nothing is told twice. -/
theorem nodup_annals (lives : List Life) : (annals lives).Nodup := by
  induction lives using List.reverseRecOn with
  | nil => exact .nil
  | append_singleton past l ih =>
    rw [annals_concat]
    refine List.nodup_append'.2 ⟨ih, l.nodup_marks _, fun m hm hm' => ?_⟩
    obtain ⟨n, l', hl', hmem⟩ := mem_annals.1 hm
    have hnumber := (Life.number_of_mem hmem).symm.trans (Life.number_of_mem hm')
    have hn := (List.getElem?_eq_some_iff.1 hl').1
    simp only [Option.some.injEq] at hnumber
    omega

/-- After the end of a life there is no mark of its number. -/
theorem pairwise_annals (lives : List Life) :
    (annals lives).Pairwise fun m m' => m.isEnd = true → m'.number? ≠ m.number? := by
  induction lives using List.reverseRecOn with
  | nil => exact .nil
  | append_singleton past l ih =>
    rw [annals_concat]
    refine List.pairwise_append.2 ⟨ih, ?_, fun m hm m' hm' _ => ?_⟩
    · exact (l.pairwise_marks _).imp fun h he => absurd (h ▸ he) Bool.false_ne_true
    · obtain ⟨n, l', hl', hmem⟩ := mem_annals.1 hm
      rw [Life.number_of_mem hmem, Life.number_of_mem hm']
      have hn := (List.getElem?_eq_some_iff.1 hl').1
      simp only [ne_eq, Option.some.injEq]
      omega

/-- The marks of a number are those of the life with that number. -/
theorem filter_annals {lives : List Life} {n : Nat} {l : Life} (h : lives[n]? = some l) :
    (annals lives).filter (fun m => m.number? = some (n + 1)) = l.marks (n + 1) := by
  induction lives using List.reverseRecOn with
  | nil => simp at h
  | append_singleton past x ih =>
    rw [annals_concat, List.filter_append]
    rcases Nat.lt_or_ge n past.length with hn | hn
    · rw [List.getElem?_append_left hn] at h
      rw [ih h, List.append_right_eq_self]
      refine List.filter_eq_nil_iff.2 fun m hm => ?_
      rw [Life.number_of_mem hm]
      simp only [Option.some.injEq, decide_eq_true_eq]
      omega
    · rw [List.getElem?_append_right hn] at h
      obtain ⟨hlt, rfl⟩ := List.getElem?_eq_some_iff.1 h
      obtain rfl : n = past.length := by
        rw [List.length_singleton] at hlt
        omega
      rw [List.filter_eq_nil_iff.2, List.nil_append]
      · simp only [Nat.sub_self, List.getElem_cons_zero]
        refine List.filter_eq_self.2 fun m hm => ?_
        simp [Life.number_of_mem hm]
      · intro m hm
        obtain ⟨k, l', hl', hmem⟩ := mem_annals.1 hm
        have hk := (List.getElem?_eq_some_iff.1 hl').1
        rw [Life.number_of_mem hmem]
        simp only [Option.some.injEq, decide_eq_true_eq]
        omega

/-! ### The chronicle of a run -/

/-- How a state goes on from the lives so far. -/
def Current : NegotiationState → List Life → Prop
  | .idle, lives => ∀ l ∈ lives, l.ending.isSome
  | .awaitingAck target sequence _ attempts, lives =>
    ∃ past, lives = past ++ [⟨target, attempts.toNat, none⟩] ∧ sequence.toNat = lives.length ∧
      ∀ l ∈ past, l.ending.isSome

/-- The lives that the chronicle of a history consists of. -/
structure Chronicled (maxRetries : UInt32) (history : List Record) (c : Coordinator)
    (lives : List Life) : Prop where
  told : chronicle history = annals lives
  count : lives.length = begun history
  valid : ∀ l ∈ lives, l.Valid maxRetries
  next : begun history + 1 < UInt64.size → c.nextSequence.toNat = begun history + 1
  current : Current c.state lives

namespace Chronicled

variable {maxRetries : UInt32} {history : List Record} {c c' : Coordinator} {lives : List Life}
  {r : Record} {target : PathId} {sequence : UInt64} {timer : TimerHandle} {attempts : UInt32}

/-- Before the first input there are no lives. -/
theorem start (timeout guardInterval : Duration) (maxRetries : UInt32) :
    Chronicled maxRetries [] (.new timeout guardInterval maxRetries) [] where
  told := rfl
  count := rfl
  valid _ hl := absurd hl List.not_mem_nil
  next _ := rfl
  current _ hl := absurd hl List.not_mem_nil

/-- An input that our own negotiations do not notice. -/
theorem unmoved (h : Chronicled maxRetries history c lives) (hmarks : r.marks = [])
    (hbegun : r.actions.countP Action.begins = 0) (hstate : c'.state = c.state)
    (hnext : c'.nextSequence = c.nextSequence) :
    Chronicled maxRetries (history ++ [r]) c' lives where
  told := by rw [chronicle_concat, hmarks, List.append_nil, h.told]
  count := by rw [begun_concat, hbegun, h.count]; rfl
  valid := h.valid
  next := by rw [begun_concat, hbegun, hnext]; exact h.next
  current := hstate ▸ h.current

/-- Another life is begun. -/
theorem begin (h : Chronicled maxRetries history c lives) (hidle : c.state = .idle)
    (hmarks : r.marks = [.sent c.nextSequence.toNat target 1])
    (hbegun : r.actions.countP Action.begins = 1) (few : begun (history ++ [r]) < UInt64.size)
    (hstate : c'.state = .awaitingAck target c.nextSequence timer 1)
    (hnext : c'.nextSequence = Coordinator.sequenceAfter c.nextSequence) :
    Chronicled maxRetries (history ++ [r]) c' (lives ++ [⟨target, 1, none⟩]) := by
  rw [begun_concat, hbegun] at few
  have hseq := h.next few
  have hlive : ∀ l ∈ lives, l.ending.isSome := by
    have hcur := h.current
    rwa [hidle] at hcur
  refine ⟨?_, ?_, fun l hl => ?_, fun hlt => ?_, ?_⟩
  · rw [chronicle_concat, annals_concat, hmarks, h.told, hseq, h.count]
    rfl
  · rw [begun_concat, hbegun, List.length_append, h.count]
    rfl
  · rcases List.mem_append.1 hl with hl | hl
    · exact h.valid l hl
    · obtain rfl := List.mem_singleton.1 hl
      exact ⟨Nat.le_refl _, Nat.le_add_left _ _, fun he => by simp at he⟩
  · rw [begun_concat, hbegun] at hlt ⊢
    rw [hnext, Coordinator.toNat_sequenceAfter (by omega), hseq]
  · rw [hstate]
    exact ⟨lives, rfl, by rw [hseq, List.length_append, h.count]; rfl, hlive⟩

/-- The last life goes on, and is told of after what was told so far. -/
theorem replace_last {l : Life} {past : List Life} (h : Chronicled maxRetries history c lives)
    (heq : lives = past ++ [⟨target, attempts.toNat, none⟩]) (hlen : sequence.toNat = lives.length)
    (hmarks : l.marks sequence.toNat =
      (⟨target, attempts.toNat, none⟩ : Life).marks sequence.toNat ++ r.marks)
    (hbegun : r.actions.countP Action.begins = 0) (hvalid : l.Valid maxRetries)
    (hnext : c'.nextSequence = c.nextSequence) (hcurrent : Current c'.state (past ++ [l])) :
    Chronicled maxRetries (history ++ [r]) c' (past ++ [l]) := by
  subst heq
  rw [List.length_append, List.length_singleton] at hlen
  refine ⟨?_, ?_, fun l' hl' => ?_, ?_, hcurrent⟩
  · rw [chronicle_concat, h.told, annals_concat, annals_concat, List.append_assoc, ← hlen, hmarks]
  · rw [begun_concat, hbegun, ← h.count, List.length_append, List.length_append]
    rfl
  · rcases List.mem_append.1 hl' with hl' | hl'
    · exact h.valid l' (List.mem_append_left _ hl')
    · exact List.mem_singleton.1 hl' ▸ hvalid
  · rw [begun_concat, hbegun, hnext]
    exact h.next

/-- The outstanding negotiation is proposed once more. -/
theorem resent (h : Chronicled maxRetries history c lives)
    (hs : c.state = .awaitingAck target sequence timer attempts)
    (hbudget : attempts ≤ maxRetries) (hlt : attempts.toNat + 1 < UInt32.size)
    {timer' : TimerHandle} {via : PathId}
    (hactions : r.actions = [.sendRepath target via sequence (attempts + 1)])
    (hnext : c'.nextSequence = c.nextSequence)
    (hstate : c'.state = .awaitingAck target sequence timer' (attempts + 1)) :
    ∃ lives', Chronicled maxRetries (history ++ [r]) c' lives' := by
  have hcur := h.current
  rw [hs] at hcur
  obtain ⟨past, heq, hlen, hpast⟩ := hcur
  have hsucc : (attempts + 1).toNat = attempts.toNat + 1 := Checked.toNat_sum32 hlt
  have hsent := (h.valid ⟨target, attempts.toNat, none⟩ (by simp [heq])).sent
  refine ⟨_, h.replace_last heq hlen (l := ⟨target, attempts.toNat + 1, none⟩) ?_ ?_ ?_ hnext ?_⟩
  · rw [Life.marks_succ, Record.marks, hactions, ← hsucc]
    rfl
  · have hne : (attempts + 1 == 1) = false := by
      rw [beq_eq_false_iff_ne, ne_eq, ← UInt32.toNat_inj, hsucc]
      simp only [UInt32.reduceToNat] at hsent ⊢
      omega
    simp [hactions, Action.begins, hne]
  · exact ⟨Nat.le_add_left _ _, Nat.succ_le_succ (UInt32.le_iff_toNat_le.1 hbudget),
      fun he => by simp at he⟩
  · rw [hstate, ← hsucc]
    refine ⟨past, rfl, ?_, hpast⟩
    rw [hlen, heq, List.length_append, List.length_append]
    rfl

/-- The outstanding negotiation ends. -/
theorem ended (h : Chronicled maxRetries history c lives)
    (hs : c.state = .awaitingAck target sequence timer attempts) {e : Ending}
    (hspent : e = .abandoned → maxRetries < attempts)
    (hmarks : r.marks = (⟨target, attempts.toNat, some e⟩ : Life).close sequence.toNat)
    (hbegun : r.actions.countP Action.begins = 0) (hnext : c'.nextSequence = c.nextSequence)
    (hstate : c'.state = .idle) : ∃ lives', Chronicled maxRetries (history ++ [r]) c' lives' := by
  have hcur := h.current
  rw [hs] at hcur
  obtain ⟨past, heq, hlen, hpast⟩ := hcur
  obtain ⟨hsent, hbudget, -⟩ := h.valid ⟨target, attempts.toNat, none⟩ (by simp [heq])
  refine ⟨_, h.replace_last heq hlen (l := ⟨target, attempts.toNat, some e⟩) ?_ hbegun
    ⟨hsent, hbudget, fun he => ?_⟩ hnext ?_⟩
  · rw [Life.marks_of_open, hmarks]
    rfl
  · have hlt := UInt32.lt_iff_toNat_lt.1 (hspent (Option.some.inj he))
    simp only at hbudget ⊢
    omega
  · rw [hstate]
    intro l hl
    rcases List.mem_append.1 hl with hl | hl
    · exact hpast l hl
    · obtain rfl := List.mem_singleton.1 hl
      rfl

/-- What a move adds to the chronicle. -/
theorem move {i : Input} {actions : List Action} {now : UInt64}
    (h : Chronicled maxRetries history c lives) (hmax : c.maxRetries = maxRetries)
    (hmove : c.Move i c' actions)
    (few : begun (history ++ [⟨now, c.state, i, actions⟩]) < UInt64.size) :
    ∃ lives', Chronicled maxRetries (history ++ [⟨now, c.state, i, actions⟩]) c' lives' := by
  cases hmove with
  | triggerIgnored _ => exact ⟨lives, h.unmoved rfl rfl rfl rfl⟩
  | begun timer hidle _ => exact ⟨_, h.begin hidle rfl rfl few rfl rfl⟩
  | repeated _ => exact ⟨lives, h.unmoved rfl rfl rfl rfl⟩
  | adopted timer _ =>
    rcases hs : c.state with _ | ⟨target, sequence, timer, attempts⟩
    · exact ⟨lives, h.unmoved rfl rfl hs.symm rfl⟩
    · exact h.ended hs (e := .superseded) (fun he => by cases he) rfl rfl rfl rfl
  | confirmed hs => exact h.ended hs (e := .committed) (fun he => by cases he) rfl rfl rfl rfl
  | ackIgnored _ => exact ⟨lives, h.unmoved rfl rfl rfl rfl⟩
  | quiet _ => exact ⟨lives, h.unmoved rfl rfl rfl rfl⟩
  | resent timer _ hs hle hlt => exact h.resent hs (hmax ▸ hle) hlt rfl rfl rfl
  | abandoned _ hs hlt =>
    refine h.ended hs (e := .abandoned) (fun _ => hmax ▸ hlt) ?_ rfl rfl rfl
    simp only [Record.marks, hs]
    rfl

end Chronicled

/-- What was begun stays begun, whatever follows. -/
theorem begun_le_append (past rest : List Record) : begun past ≤ begun (past ++ rest) := by
  simp [begun]

namespace Run

variable {timeout guardInterval : Duration} {maxRetries : UInt32} {history : List Record}
  {c : Coordinator} {w : TimerWheel}

/-- **The chronicle of a run is its lives, one after the other.** By induction on the run: each
input is a move of the coordinator, and each move begins a life, goes on with the last one, ends it
or leaves it alone. -/
theorem chronicled (run : Run timeout guardInterval maxRetries history c w)
    (few : begun history < UInt64.size) : ∃ lives, Chronicled maxRetries history c lives := by
  induction run with
  | start => exact ⟨[], .start timeout guardInterval maxRetries⟩
  | input now i run ho ih =>
    obtain ⟨lives, h⟩ := ih (Nat.lt_of_le_of_lt (begun_le_append _ _) few)
    exact h.move run.maxRetries_eq (run.coupled.handle ho).2 few

end Run

namespace Chronicled

variable {maxRetries : UInt32} {history : List Record} {c : Coordinator} {lives : List Life}

/-- Only the last life may still be open. -/
theorem ended_of_mem_dropLast (h : Chronicled maxRetries history c lives) :
    ∀ l ∈ lives.dropLast, l.ending.isSome := by
  have hcur := h.current
  rcases hs : c.state with _ | ⟨target, sequence, timer, attempts⟩ <;> rw [hs] at hcur
  · exact fun l hl => hcur l ((List.dropLast_sublist lives).subset hl)
  · obtain ⟨past, rfl, -, hpast⟩ := hcur
    rw [List.dropLast_concat]
    exact hpast

/-- The outstanding negotiation is the last life, open, and has its number. -/
theorem getLast?_of_awaitingAck {target : PathId} {sequence : UInt64} {timer : TimerHandle}
    {attempts : UInt32} (h : Chronicled maxRetries history c lives)
    (hs : c.state = .awaitingAck target sequence timer attempts) :
    sequence.toNat = lives.length ∧ lives.getLast? = some ⟨target, attempts.toNat, none⟩ := by
  have hcur := h.current
  rw [hs] at hcur
  obtain ⟨past, rfl, hlen, -⟩ := hcur
  exact ⟨hlen, List.getLast?_concat⟩

/-- What was proposed is in the chronicle. -/
theorem sent_of_mem {r : Record} {target via : PathId} {sequence : UInt64} {attempt : UInt32}
    (hr : r ∈ history) (ha : .sendRepath target via sequence attempt ∈ r.actions) :
    .sent sequence.toNat target attempt.toNat ∈ chronicle history :=
  List.mem_flatMap.2 ⟨r, hr, List.mem_flatMap.2 ⟨_, ha, List.mem_singleton.2 rfl⟩⟩

/-- A transmission in the chronicle is an action of a record. -/
theorem mem_of_sent {number attempt : Nat} {target : PathId}
    (hm : .sent number target attempt ∈ chronicle history) :
    ∃ r ∈ history, ∃ via sequence attempt', sequence.toNat = number ∧
      .sendRepath target via sequence attempt' ∈ r.actions := by
  obtain ⟨r, hr, hm⟩ := List.mem_flatMap.1 hm
  obtain ⟨a, ha, hm⟩ := List.mem_flatMap.1 hm
  unfold Record.marksOf at hm
  split at hm <;> simp at hm
  obtain ⟨rfl, rfl, -⟩ := hm
  exact ⟨r, hr, _, _, _, rfl, ha⟩

/-- What was committed had been confirmed under its number. -/
theorem ack_of_committed {number : Nat} {target : PathId}
    (hm : .committed number target ∈ chronicle history) :
    ∃ r ∈ history, ∃ sequence, sequence.toNat = number ∧ r.input = .ack sequence := by
  obtain ⟨r, hr, hm⟩ := List.mem_flatMap.1 hm
  obtain ⟨a, ha, hm⟩ := List.mem_flatMap.1 hm
  unfold Record.marksOf at hm
  split at hm <;> simp at hm
  exact ⟨r, hr, _, hm.1.symm, by assumption⟩

/-- A mark of the chronicle belongs to a life with its number, and names the target of that life if
it names a path. -/
theorem life_of_mem (h : Chronicled maxRetries history c lives) {m : Mark}
    (hm : m ∈ chronicle history) :
    ∃ n l, m.number? = some (n + 1) ∧ lives[n]? = some l ∧
      ∀ target, m.target? = some target → l.target = target := by
  rw [h.told] at hm
  obtain ⟨n, l, hl, hmem⟩ := mem_annals.1 hm
  exact ⟨n, l, Life.number_of_mem hmem, hl, fun _ => Life.target_of_mem hmem⟩

/-- All marks of a number belong to one life. -/
theorem life_of_number (h : Chronicled maxRetries history c lives) {m m' : Mark}
    (hm : m ∈ chronicle history) (hm' : m' ∈ chronicle history) (hn : m.number? = m'.number?) :
    ∃ number l, m ∈ Life.marks l number ∧ m' ∈ Life.marks l number := by
  rw [h.told] at hm hm'
  obtain ⟨n, l, hl, hmem⟩ := mem_annals.1 hm
  obtain ⟨n', l', hl', hmem'⟩ := mem_annals.1 hm'
  rw [Life.number_of_mem hmem, Life.number_of_mem hmem', Option.some.injEq,
    Nat.add_right_cancel_iff] at hn
  subst hn
  rw [hl, Option.some.injEq] at hl'
  subst hl'
  exact ⟨n + 1, l, hmem, hmem'⟩

/-- All marks of a number name one path. -/
theorem target_unique (h : Chronicled maxRetries history c lives) {m m' : Mark}
    (hm : m ∈ chronicle history) (hm' : m' ∈ chronicle history) (hn : m.number? = m'.number?)
    {target target' : PathId} (ht : m.target? = some target) (ht' : m'.target? = some target') :
    target = target' := by
  obtain ⟨number, l, hmem, hmem'⟩ := h.life_of_number hm hm' hn
  rw [← Life.target_of_mem hmem ht, Life.target_of_mem hmem' ht']

/-- A negotiation is not transmitted more often than it has been when it is abandoned. -/
theorem attempt_le_of_abandoned (h : Chronicled maxRetries history c lives)
    {number attempt attempts : Nat} {target target' : PathId}
    (hsent : .sent number target attempt ∈ chronicle history)
    (habandoned : .abandoned number target' attempts ∈ chronicle history) :
    attempt ≤ attempts := by
  obtain ⟨_, l, hmem, hmem'⟩ := h.life_of_number hsent habandoned rfl
  rw [Life.attempts_of_mem hmem']
  exact (Life.attempt_of_mem hmem).2

/-- A number of the chronicle is that of a negotiation begun. -/
theorem number_le (h : Chronicled maxRetries history c lives) {m : Mark}
    (hm : m ∈ chronicle history) {number : Nat} (hn : m.number? = some number) :
    number ≤ begun history := by
  obtain ⟨n, l, hnumber, hl, -⟩ := h.life_of_mem hm
  rw [hn, Option.some.injEq] at hnumber
  rw [← h.count, hnumber]
  exact (List.getElem?_eq_some_iff.1 hl).1

/-- Where no negotiation is outstanding, the last end is that of the negotiation begun last. -/
theorem number_of_last_end (h : Chronicled maxRetries history c lives) (hidle : c.state = .idle)
    {m : Mark} (hm : (ends history).getLast? = some m) : m.number? = some (begun history) := by
  have hall := h.current
  rw [hidle] at hall
  rw [ends, h.told] at hm
  rw [← h.count]
  rcases lives.eq_nil_or_concat' with rfl | ⟨past, l, rfl⟩
  · simp [annals] at hm
  · have hclose := Life.close_ne_nil (hall l List.mem_concat_self) (past.length + 1)
    rw [annals_concat, List.filter_append, Life.filter_isEnd_marks,
      List.getLast?_append_of_ne_nil _ hclose] at hm
    have hmem := List.mem_append_right (l.sends (past.length + 1)) (List.mem_of_getLast? hm)
    rw [Life.number_of_mem hmem, List.length_append]
    rfl

/-- Every life was proposed at least once. -/
theorem sent_of_life (h : Chronicled maxRetries history c lives) {n : Nat} {l : Life}
    (hl : lives[n]? = some l) : .sent (n + 1) l.target 1 ∈ chronicle history := by
  rw [h.told]
  refine mem_annals.2 ⟨n, l, hl, List.mem_append_left _ (List.mem_map.2 ⟨0, ?_, rfl⟩)⟩
  exact List.mem_range.2 (h.valid l (List.mem_of_getElem? hl)).sent

/-- The outstanding negotiation was proposed. -/
theorem sent_of_awaitingAck {target : PathId} {sequence : UInt64} {timer : TimerHandle}
    {attempts : UInt32} (h : Chronicled maxRetries history c lives)
    (hs : c.state = .awaitingAck target sequence timer attempts) :
    .sent sequence.toNat target 1 ∈ chronicle history := by
  obtain ⟨hlen, hlast⟩ := h.getLast?_of_awaitingAck hs
  rw [List.getLast?_eq_getElem?] at hlast
  have hpos := (List.getElem?_eq_some_iff.1 hlast).1
  have hsent := h.sent_of_life hlast
  rwa [Nat.sub_add_cancel (by omega), ← hlen] at hsent

/-- Once a negotiation has ended, no input leads to an action of its number. -/
theorem number_ne_of_ended (h : Chronicled maxRetries history c lives) {past rest : List Record}
    {r : Record} (hsplit : history = past ++ r :: rest) {m m' : Mark} (hm : m ∈ chronicle past)
    (hend : m.isEnd = true) (hm' : m' ∈ r.marks) : m'.number? ≠ m.number? := by
  have hpair := pairwise_annals lives
  rw [← h.told, hsplit, ← List.singleton_append, ← List.append_assoc, chronicle,
    List.flatMap_append, ← chronicle, chronicle_concat, List.append_assoc,
    List.pairwise_append] at hpair
  exact hpair.2.2 m hm m' (List.mem_append_left _ hm') hend

end Chronicled

namespace Run

variable {timeout guardInterval : Duration} {maxRetries : UInt32} {history : List Record}
  {c : Coordinator} {w : TimerWheel}

/-- **Negotiations live one after the other.** In a run of fewer than 2^64 negotiations, the
actions are told by lives that are numbered 1, 2, 3 and so on: each proposes one path, between once
and once more than the budget of repetitions, and then ends at most once, abandoned only when the
budget is used up. All but the last have ended, and the last one is as the current state has it.
The actions of a number are those of its life, and none comes after its end. -/
theorem chronicle_eq_annals (run : Run timeout guardInterval maxRetries history c w)
    (few : begun history < UInt64.size) :
    ∃ lives : List Life,
      chronicle history = annals lives ∧ lives.length = begun history ∧
      (∀ l ∈ lives, l.Valid maxRetries) ∧ (∀ l ∈ lives.dropLast, l.ending.isSome) ∧
      (c.state = .idle → ∀ l ∈ lives, l.ending.isSome) ∧
      (∀ target sequence timer attempts, c.state = .awaitingAck target sequence timer attempts →
        sequence.toNat = lives.length ∧ lives.getLast? = some ⟨target, attempts.toNat, none⟩) ∧
      (∀ n l, lives[n]? = some l →
        (chronicle history).filter (fun m => m.number? = some (n + 1)) = l.marks (n + 1)) ∧
      (∀ past r rest, history = past ++ r :: rest → ∀ m ∈ chronicle past, m.isEnd = true →
        ∀ m' ∈ r.marks, m'.number? ≠ m.number?) ∧
      (w.lastId.toNat + 1 < UInt64.size → maxRetries.toNat + 1 < UInt32.size →
        ∀ now i, ∃ o, c.handle w now i = .ok o) := by
  obtain ⟨lives, h⟩ := run.chronicled few
  refine ⟨lives, h.told, h.count, h.valid, h.ended_of_mem_dropLast, fun hs => ?_,
    fun _ _ _ _ hs => h.getLast?_of_awaitingAck hs, fun n l hl => ?_, ?_, ?_⟩
  · have hcur := h.current
    rwa [hs] at hcur
  · rw [h.told, filter_annals hl]
  · exact fun past r rest hsplit m hm hend m' hm' => h.number_ne_of_ended hsplit hm hend hm'
  · exact fun hid hmax now i => run.coupled.handle_succeeds hid (run.maxRetries_eq ▸ hmax) i

/-- A negotiation is repeated once and abandoned, the next one is committed. -/
theorem two_lives : ∃ history c w,
    Run (.ofSeconds 2) (.ofSeconds 2) 1 history c w ∧ begun history < UInt64.size ∧
      ∃ lives, lives.length = 2 ∧ chronicle history = annals lives ∧
        ∀ l ∈ lives, l.ending.isSome := by
  have run : Run (.ofSeconds 2) (.ofSeconds 2) 1 _ _ _ :=
    .input 9000000000 (.ack 2) (.input 8000000000 (.trigger ⟨⟨2, by decide⟩⟩ .first)
      (.input 6000000000 (.tick .first) (.input 3000000000 (.tick .first)
        (.input 0 (.trigger ⟨⟨1, by decide⟩⟩ .first) .start rfl) rfl) rfl) rfl) rfl
  obtain ⟨lives, htold, hlen, -, -, hidle, -⟩ := chronicle_eq_annals run (by decide)
  exact ⟨_, _, _, run, by decide, lives, hlen, htold, hidle rfl⟩

end Run

end PathControl.Negotiation
