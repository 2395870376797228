import Mathlib.Data.List.Perm.Basic
import PathControl.Proofs.Transport.Loans

/-!
# Frames handed over through a queue

A frame queue with its users: a pool, the buffers that they hold, and whatever they do. A held frame
is pushed, in one of two ways, and frames are popped, one at a time or in a burst. Beside that all
of `Loans` may happen to the buffers that are held.

* `FrameQueue.push_eq`, `FrameQueue.pushOrDrop_eq`: what a push comes to, for a queue that is not
  overfull.
* `FrameQueue.popInto`: a burst as a loop of pops. `FrameQueue.popInto_eq`: it is `popBurst`.
* `Handover.after`: queue, pool and held buffers after some operations, and the frames that moved.
* `Handover.Moves`: frames come out of the queue in the order in which they went in.
* `Handover.Sound`: the queue is not overfull, and its frames are on loan like those that are held.
* `Handover.first_in_first_out`: what follows for every list of operations, and for the next one.
-/

namespace PathControl.Transport

/-! ### Operations of a queue -/

namespace FrameQueue

variable {q : FrameQueue}

/-- A queue that is not overfull is full exactly if it holds as many frames as fit. -/
theorem isFull_iff (h : q.length ≤ q.capacity) : q.isFull = true ↔ q.length = q.capacity := by
  unfold isFull
  rw [decide_eq_true_iff]
  omega

/-- A push is refused exactly if the queue is full, and then hands the frame back and changes
nothing. -/
theorem push_eq (h : q.length ≤ q.capacity) (frame : Buffer) :
    q.push frame = if q.length = q.capacity then (q, some frame)
      else ({ q with frames := q.frames ++ [frame] }, none) := by
  unfold push
  simp only [isFull_iff h]

/-- A frame that finds no room costs one count, and its buffer goes back to the pool. -/
theorem pushOrDrop_eq (h : q.length ≤ q.capacity) (pool : Pool) (frame : Buffer) :
    q.pushOrDrop pool frame =
      if q.length = q.capacity then
        ({ q with dropped := q.dropped + 1 }, pool.release frame, .error (.queueFull q.name))
      else ({ q with frames := q.frames ++ [frame] }, pool, .ok ()) := by
  by_cases hfull : q.length = q.capacity
  · rw [if_pos hfull, pushOrDrop_of_isFull pool frame ((isFull_iff h).2 hfull)]
  · have hfree : q.isFull = false := Bool.eq_false_iff.2 (mt (isFull_iff h).1 hfull)
    rw [if_neg hfull, pushOrDrop_of_not_isFull pool frame hfree]

/-- A pop takes the frame at the front, if there is one. -/
theorem pop_eq (q : FrameQueue) :
    q.pop = ({ q with frames := q.frames.tail }, q.frames.head?) := by
  rcases q with ⟨name, capacity, _ | ⟨frame, frames⟩, dropped⟩ <;> rfl

/-- Pops frames one by one and puts them behind those in `out`, until it has `max` of them or the
queue is empty. The last component is how many it took. -/
def popInto (q : FrameQueue) (out : List Buffer) : Nat → FrameQueue × List Buffer × Nat
  | 0 => (q, out, 0)
  | max + 1 =>
    match q.pop with
    | (q, none) => (q, out, 0)
    | (q, some frame) =>
      let (q, out, taken) := popInto q (out ++ [frame]) max
      (q, out, taken + 1)

/-- A burst is what popping frames one by one comes to. -/
theorem popInto_eq (q : FrameQueue) (out : List Buffer) (max : Nat) :
    q.popInto out max =
      ((q.popBurst max).1, out ++ (q.popBurst max).2, (q.popBurst max).2.length) := by
  induction max generalizing q out with
  | zero => simp [popInto, popBurst]
  | succ max ih =>
    rcases q with ⟨name, capacity, _ | ⟨frame, frames⟩, dropped⟩
    · simp [popInto, pop, popBurst]
    · simp [popInto, pop, popBurst, ih]

/-- A burst takes as many frames as it may, or as there are. -/
theorem popBurst_eq (q : FrameQueue) (max : Nat) :
    q.popBurst max =
      ({ q with frames := q.frames.drop (min max q.length) },
        q.frames.take (min max q.length)) := by
  unfold popBurst length
  rw [← List.take_eq_take_min, List.drop_eq_drop_min]

end FrameQueue

/-! ### Loans behind others -/

/-- The same act, in a list of held buffers that stands behind `k` others. -/
def Act.behind (k : Nat) : Act → Act
  | .get => .get
  | .drop i => .drop (k + i)
  | .edit i e => .edit (k + i) e

namespace Loans

variable {most size : Nat} {pool : Pool} {queued held held' : List Buffer}

/-- Nothing happens to buffers that stand in front of those that an act is about. -/
theorem step_behind (a : Act) :
    (Loans.mk pool (queued ++ held)).step (a.behind queued.length) =
      ⟨((Loans.mk pool held).step a).pool, queued ++ ((Loans.mk pool held).step a).held⟩ := by
  have hget : ∀ i, (queued ++ held)[queued.length + i]? = held[i]? := fun i => by
    rw [List.getElem?_append_right (Nat.le_add_right _ _), Nat.add_sub_cancel_left]
  cases a with
  | get =>
    simp only [Act.behind, step, get]
    split
    · rw [List.append_assoc]
    · rfl
  | drop i =>
    simp only [Act.behind, step, drop, hget]
    split
    · rw [List.eraseIdx_append_of_length_le (Nat.le_add_right _ _), Nat.add_sub_cancel_left]
    · rfl
  | edit i e =>
    simp only [Act.behind, step, edit, hget]
    split
    · split
      · rw [List.set_append_right _ _ (Nat.le_add_right _ _), Nat.add_sub_cancel_left]
      · rfl
    · rfl

/-- It does not matter in which order buffers are held. -/
theorem Sound.of_perm (h : Sound most size ⟨pool, held⟩) (hperm : held'.Perm held) :
    Sound most size ⟨pool, held'⟩ where
  lends := h.lends.of_eq hperm.length_eq.symm
  uniform := h.uniform
  held b hb := h.held b (hperm.mem_iff.1 hb)
  cleared := h.cleared

end Loans

/-! ### Handover -/

/-- A frame queue with a pool and the buffers that its users hold. -/
structure Handover where
  queue : FrameQueue
  pool : Pool
  held : List Buffer
  deriving DecidableEq, Repr

/-- The frames that moved: into the queue, out of it, or nowhere because it dropped them. -/
structure Movement where
  accepted : List Buffer
  popped : List Buffer
  dropped : List Buffer
  deriving DecidableEq, Repr

namespace Movement

/-- No frame moved. -/
def still : Movement := ⟨[], [], []⟩

/-- Movements one after the other. -/
def append (m m' : Movement) : Movement :=
  ⟨m.accepted ++ m'.accepted, m.popped ++ m'.popped, m.dropped ++ m'.dropped⟩

end Movement

namespace Handover

/-- What the users of a queue can do. -/
inductive Op where
  /-- Something happens to pool and held buffers alone. -/
  | loan (a : Act)
  /-- The held frame at a position is pushed, and stays there if it is handed back. -/
  | push (i : Nat)
  /-- The held frame at a position is pushed, and dropped if there is no room. -/
  | pushOrDrop (i : Nat)
  /-- A frame is popped. It is held behind the others. -/
  | pop
  /-- At most `max` frames are popped. They are held behind the others. -/
  | popBurst (max : Nat)
  deriving DecidableEq, Repr

/-- Pushes the held frame at a position. -/
def push (x : Handover) (i : Nat) : Handover × Movement :=
  match x.held[i]? with
  | none => (x, .still)
  | some frame =>
    match x.queue.push frame with
    | (queue, none) => ({ x with queue, held := x.held.eraseIdx i }, ⟨[frame], [], []⟩)
    | (queue, some back) => ({ x with queue, held := x.held.set i back }, .still)

/-- Pushes the held frame at a position, or drops it. -/
def pushOrDrop (x : Handover) (i : Nat) : Handover × Movement :=
  match x.held[i]? with
  | none => (x, .still)
  | some frame =>
    match x.queue.pushOrDrop x.pool frame with
    | (queue, pool, .ok ()) => (⟨queue, pool, x.held.eraseIdx i⟩, ⟨[frame], [], []⟩)
    | (queue, pool, .error _) => (⟨queue, pool, x.held.eraseIdx i⟩, ⟨[], [], [frame]⟩)

/-- Holds frames that were taken out of the queue, which left `queue`. -/
def take (x : Handover) (queue : FrameQueue) (frames : List Buffer) : Handover × Movement :=
  ({ x with queue, held := x.held ++ frames }, ⟨[], frames, []⟩)

/-- What an operation comes to. -/
def step (x : Handover) : Op → Handover × Movement
  | .loan a =>
    let loans := (Loans.mk x.pool x.held).step a
    ({ x with pool := loans.pool, held := loans.held }, .still)
  | .push i => x.push i
  | .pushOrDrop i => x.pushOrDrop i
  | .pop => x.take x.queue.pop.1 x.queue.pop.2.toList
  | .popBurst max => x.take (x.queue.popBurst max).1 (x.queue.popBurst max).2

/-- What some operations come to, one after the other. -/
def after (x : Handover) : List Op → Handover × Movement
  | [] => (x, .still)
  | op :: ops =>
    let (x, m) := x.step op
    let (x, m') := x.after ops
    (x, m.append m')

/-- An empty queue and a new pool of which no buffer is held. -/
def new (name : String) (capacity initial limit size : Nat) : Handover :=
  ⟨.new name capacity, .new initial limit size, []⟩

/-- All buffers that are on loan: those in the queue and those that are held. -/
def lent (x : Handover) : Loans := ⟨x.pool, x.queue.frames ++ x.held⟩

/-- A queue that is not overfull and has the capacity `room`, whose frames are on loan from a pool
of at most `most` buffers of `size` bytes, together with those that are held. -/
structure Sound (room most size : Nat) (x : Handover) : Prop where
  capacity : x.queue.capacity = room
  bounded : x.queue.length ≤ room
  lent : x.lent.Sound most size

/-- Whether frames moved in order: what was in the queue and went in is what came out and is in it
now. The dropped ones were counted. -/
structure Moves (x : Handover) (m : Movement) (x' : Handover) : Prop where
  name : x'.queue.name = x.queue.name
  order : m.popped ++ x'.queue.frames = x.queue.frames ++ m.accepted
  dropped : x'.queue.dropped = x.queue.dropped + UInt64.ofNat m.dropped.length

variable {room most size : Nat} {x x' : Handover} {m m' : Movement}

namespace Moves

/-- Nothing moves where the queue stays as it is. -/
theorem of_queue_eq (h : x'.queue = x.queue) : Moves x .still x' where
  name := congrArg FrameQueue.name h
  order := h ▸ (List.append_nil _).symm
  dropped := h ▸ (UInt64.add_zero _).symm

/-- Frames that move in order twice move in order. -/
theorem append {x₁ : Handover} (h : Moves x m x₁) (h' : Moves x₁ m' x') :
    Moves x (m.append m') x' where
  name := h'.name.trans h.name
  order := by
    unfold Movement.append
    rw [List.append_assoc, h'.order, ← List.append_assoc, h.order, List.append_assoc]
  dropped := by
    unfold Movement.append
    rw [h'.dropped, h.dropped, List.length_append, UInt64.ofNat_add, UInt64.add_assoc]

end Moves

/-! ### What an operation keeps -/

namespace Sound

/-- At the start the queue is empty and nothing is on loan. -/
theorem new (name : String) (capacity initial limit size : Nat) :
    Sound (max capacity 1) (max limit 1) size (new name capacity initial limit size) where
  capacity := rfl
  bounded := Nat.zero_le _
  lent := .new initial limit size

/-- The queue is never overfull. -/
theorem length_le (h : Sound room most size x) : x.queue.length ≤ x.queue.capacity :=
  h.capacity.symm ▸ h.bounded

/-- What happens to held buffers leaves those in the queue alone. -/
theorem loan (h : Sound room most size x) (a : Act) :
    Sound room most size (x.step (.loan a)).1 where
  capacity := h.capacity
  bounded := h.bounded
  lent := by
    have hstep := h.lent.step (a.behind x.queue.frames.length)
    unfold Handover.lent at hstep
    rw [Loans.step_behind] at hstep
    exact hstep

/-- A held frame that is accepted is on loan as before. -/
theorem accept (h : Sound room most size x) {i : Nat} (hi : i < x.held.length)
    (hroom : x.queue.length ≠ x.queue.capacity) :
    Sound room most size
      { x with
        queue := { x.queue with frames := x.queue.frames ++ [x.held[i]] }
        held := x.held.eraseIdx i } where
  capacity := h.capacity
  bounded := by
    have hbounded := h.bounded
    have hcapacity := h.capacity
    show (x.queue.frames ++ [x.held[i]]).length ≤ room
    rw [List.length_append, List.length_singleton]
    unfold FrameQueue.length at hbounded hroom
    omega
  lent := by
    apply h.lent.of_perm
    show (x.queue.frames ++ [x.held[i]] ++ x.held.eraseIdx i).Perm (x.queue.frames ++ x.held)
    rw [List.append_assoc]
    exact (List.getElem_cons_eraseIdx_perm hi).append_left _

/-- A held frame that is dropped is given back. -/
theorem refuse (h : Sound room most size x) {i : Nat} (hi : i < x.held.length) (count : UInt64) :
    Sound room most size
      ⟨{ x.queue with dropped := count }, x.pool.release x.held[i], x.held.eraseIdx i⟩ where
  capacity := h.capacity
  bounded := h.bounded
  lent := by
    have hstep := h.lent.step ((Act.drop i).behind x.queue.frames.length)
    unfold Handover.lent at hstep
    rw [Loans.step_behind] at hstep
    simp only [Loans.step, Loans.drop, List.getElem?_eq_getElem hi] at hstep
    exact hstep

/-- Frames that are taken out of the queue are held from then on. -/
theorem take (h : Sound room most size x) {queue : FrameQueue} {frames : List Buffer}
    (hcapacity : queue.capacity = x.queue.capacity)
    (hframes : frames ++ queue.frames = x.queue.frames) :
    Sound room most size (x.take queue frames).1 where
  capacity := hcapacity.trans h.capacity
  bounded := by
    have hbounded := h.bounded
    have hlength := congrArg List.length hframes
    rw [List.length_append] at hlength
    show queue.frames.length ≤ room
    unfold FrameQueue.length at hbounded
    omega
  lent := by
    apply h.lent.of_perm
    show (queue.frames ++ (x.held ++ frames)).Perm (x.queue.frames ++ x.held)
    rw [← hframes, ← List.append_assoc]
    exact List.perm_append_comm.trans (by rw [List.append_assoc])

end Sound

namespace Moves

/-- An accepted frame goes to the end of the queue. -/
theorem accept (frame : Buffer) (held : List Buffer) :
    Moves x ⟨[frame], [], []⟩
      { x with queue := { x.queue with frames := x.queue.frames ++ [frame] }, held } where
  name := rfl
  order := rfl
  dropped := (UInt64.add_zero _).symm

/-- A dropped frame is counted, and the queue keeps its frames. -/
theorem refuse (frame : Buffer) (pool : Pool) (held : List Buffer) :
    Moves x ⟨[], [], [frame]⟩
      ⟨{ x.queue with dropped := x.queue.dropped + 1 }, pool, held⟩ where
  name := rfl
  order := (List.append_nil _).symm
  dropped := rfl

/-- Frames that are taken come from the front of the queue. -/
theorem take {queue : FrameQueue} {frames : List Buffer} (hname : queue.name = x.queue.name)
    (hframes : frames ++ queue.frames = x.queue.frames)
    (hdropped : queue.dropped = x.queue.dropped) :
    Moves x (x.take queue frames).2 (x.take queue frames).1 where
  name := hname
  order := hframes.trans (List.append_nil _).symm
  dropped := hdropped.trans (UInt64.add_zero _).symm

end Moves

/-- A push keeps the queue sound and its frames in order, whether the frame is accepted or handed
back. -/
theorem push_kept (h : Sound room most size x) (i : Nat) :
    Sound room most size (x.push i).1 ∧ Moves x (x.push i).2 (x.push i).1 := by
  unfold push
  rcases hframe : x.held[i]? with _ | frame
  · exact ⟨h, .of_queue_eq rfl⟩
  · obtain ⟨hi, rfl⟩ := List.getElem?_eq_some_iff.1 hframe
    have hpush := FrameQueue.push_eq h.length_le x.held[i]
    by_cases hfull : x.queue.length = x.queue.capacity
    · rw [if_pos hfull] at hpush
      simp only [hpush, List.set_getElem_self]
      exact ⟨h, .of_queue_eq rfl⟩
    · rw [if_neg hfull] at hpush
      simp only [hpush]
      exact ⟨h.accept hi hfull, .accept _ _⟩

/-- So does a push of a frame that may be dropped. -/
theorem pushOrDrop_kept (h : Sound room most size x) (i : Nat) :
    Sound room most size (x.pushOrDrop i).1 ∧ Moves x (x.pushOrDrop i).2 (x.pushOrDrop i).1 := by
  unfold pushOrDrop
  rcases hframe : x.held[i]? with _ | frame
  · exact ⟨h, .of_queue_eq rfl⟩
  · obtain ⟨hi, rfl⟩ := List.getElem?_eq_some_iff.1 hframe
    have hpush := FrameQueue.pushOrDrop_eq h.length_le x.pool x.held[i]
    by_cases hfull : x.queue.length = x.queue.capacity
    · rw [if_pos hfull] at hpush
      simp only [hpush]
      exact ⟨h.refuse hi _, .refuse _ _ _⟩
    · rw [if_neg hfull] at hpush
      simp only [hpush]
      exact ⟨h.accept hi hfull, .accept _ _⟩

/-- What every operation keeps. -/
theorem step_kept (h : Sound room most size x) (op : Op) :
    Sound room most size (x.step op).1 ∧ Moves x (x.step op).2 (x.step op).1 := by
  cases op with
  | loan a => exact ⟨h.loan a, .of_queue_eq rfl⟩
  | push i => exact push_kept h i
  | pushOrDrop i => exact pushOrDrop_kept h i
  | pop =>
    have hframes := x.queue.pop_frames
    have hdropped := x.queue.pop_dropped
    have hpop := x.queue.pop_eq
    exact ⟨h.take (by rw [hpop]) hframes, .take (by rw [hpop]) hframes hdropped⟩
  | popBurst max =>
    have hframes := x.queue.popBurst_frames max
    exact ⟨h.take rfl hframes, .take rfl hframes rfl⟩

/-- What every list of operations keeps. -/
theorem after_kept (h : Sound room most size x) (ops : List Op) :
    Sound room most size (x.after ops).1 ∧ Moves x (x.after ops).2 (x.after ops).1 := by
  induction ops generalizing x with
  | nil => exact ⟨h, .of_queue_eq rfl⟩
  | cons op ops ih =>
    obtain ⟨hstep, hmoves⟩ := step_kept h op
    obtain ⟨hafter, hrest⟩ := ih hstep
    exact ⟨hafter, hmoves.append hrest⟩

/-- A pool takes back what is on loan from it. -/
theorem Sound.release_eq (h : Sound room most size x) {frame : Buffer} (hframe : frame ∈ x.held) :
    x.pool.release frame = { x.pool with free := x.pool.free ++ [frame.clear] } := by
  have hheld := List.length_pos_of_mem hframe
  have hlends := h.lent.lends
  unfold Handover.lent at hlends
  rw [List.length_append] at hlends
  exact (hlends.of_eq (m := x.queue.frames.length + x.held.length - 1 + 1) (by omega)).release_eq
    frame

/-- **First in, first out, with every drop counted.** Let a queue of any capacity be used in any way
for frames from a pool. With `room` for its capacity, or 1 if that is 0, at any time:

* the frames popped so far, followed by those in the queue, are the accepted ones in order; there
  are never more than `room` in the queue; as many were dropped as its count says, modulo 2^64; and
  the buffers in use are those in the queue and those that are held;
* a push is refused exactly if there are `room` frames in the queue, and then hands the frame back
  as it is and leaves the queue as it is, its count included;
* so is a push of a frame that may be dropped; it then adds one to the count and gives the buffer of
  the frame back to the pool;
* a pop takes the frame that has waited longest, if there is one;
* a burst, which pops frames one by one, takes as many as it may or as there are, from the front,
  and puts them in order behind whatever frames there were before. -/
theorem first_in_first_out (name : String) (capacity initial limit size : Nat) (ops : List Op) :
    let x := ((new name capacity initial limit size).after ops).1
    let m := ((new name capacity initial limit size).after ops).2
    let q := x.queue
    let room := max capacity 1
    (m.popped ++ q.frames = m.accepted ∧ q.length ≤ room ∧ q.capacity = room ∧
        q.dropped = UInt64.ofNat m.dropped.length ∧
        x.pool.inUse = q.length + x.held.length) ∧
      (∀ frame, q.push frame =
        if q.length = room then (q, some frame)
        else ({ q with frames := q.frames ++ [frame] }, none)) ∧
      (∀ frame ∈ x.held, q.pushOrDrop x.pool frame =
        if q.length = room then
          ({ q with dropped := q.dropped + 1 },
            { x.pool with free := x.pool.free ++ [frame.clear] }, .error (.queueFull name))
        else ({ q with frames := q.frames ++ [frame] }, x.pool, .ok ())) ∧
      q.pop = ({ q with frames := q.frames.tail }, q.frames.head?) ∧
      ∀ out most, let taken := min most q.length
        q.popBurst most = ({ q with frames := q.frames.drop taken }, q.frames.take taken) ∧
          q.popInto out most =
            ({ q with frames := q.frames.drop taken }, out ++ q.frames.take taken, taken) := by
  obtain ⟨h, hmoves⟩ := after_kept (.new name capacity initial limit size) ops
  intro x m q room
  have hname : q.name = name := hmoves.name
  have hcapacity : q.capacity = room := h.capacity
  have hle : q.length ≤ q.capacity := h.length_le
  refine ⟨⟨hmoves.order, h.bounded, hcapacity, ?_, ?_⟩, fun frame => ?_, fun frame hframe => ?_,
    q.pop_eq, fun out most => ?_⟩
  · exact hmoves.dropped.trans (UInt64.zero_add _)
  · exact h.lent.lends.inUse.trans List.length_append
  · rw [FrameQueue.push_eq hle, hcapacity]
  · rw [FrameQueue.pushOrDrop_eq hle, hcapacity, hname, h.release_eq hframe]
  · intro taken
    have hburst := q.popBurst_eq most
    have htaken : (q.frames.take taken).length = taken := by
      rw [List.length_take]
      exact Nat.min_eq_left (Nat.min_le_right _ _)
    refine ⟨hburst, ?_⟩
    rw [FrameQueue.popInto_eq, hburst, htaken]

/-- Three frames for a queue of two. The third is handed back as it was, and dropped at the next
try, which leaves two buffers in use. A burst then finds two frames for three places. -/
theorem third_frame_finds_no_room :
    let frame (n : UInt8) := (Buffer.blank 4).copyFrom [n]
    let filled (n : UInt8) (i : Nat) : List Op := [.loan .get, .loan (.edit i (.copy [n]))]
    let ops : List Op := filled 1 0 ++ filled 2 1 ++ filled 3 2 ++ [.push 0, .push 0, .push 0]
    let x := ((new "egress" 2 0 3 4).after ops).1
    let x' := ((new "egress" 2 0 3 4).after (ops ++ [.pushOrDrop 0])).1
    x.queue.push (frame 3) = (x.queue, some (frame 3)) ∧
      (x.queue.pushOrDrop x.pool (frame 3)).2 =
        (⟨[(frame 3).clear], 3, 3, 4⟩, .error (.queueFull "egress")) ∧
      x'.queue.dropped = 1 ∧ x'.pool.inUse = 2 ∧
      (x'.queue.popInto [frame 9] 3).2 = ([frame 9, frame 1, frame 2], 2) := by
  intro frame filled ops x x'
  obtain ⟨-, hpush, hdrop, -⟩ := first_in_first_out "egress" 2 0 3 4 ops
  obtain ⟨⟨-, -, -, hdropped, hinUse⟩, -, -, -, hburst⟩ :=
    first_in_first_out "egress" 2 0 3 4 (ops ++ [.pushOrDrop 0])
  have hheld : frame 3 ∈ x.held := by decide
  refine ⟨(hpush (frame 3)).trans (if_pos (by decide)), ?_, hdropped.trans (by decide),
    hinUse.trans (by decide), ?_⟩
  · rw [hdrop (frame 3) hheld, if_pos (by decide)]
    rfl
  · rw [(hburst [frame 9] 3).2]
    decide

end Handover

end PathControl.Transport
