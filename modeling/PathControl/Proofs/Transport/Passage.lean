import Mathlib.Logic.Function.Basic
import PathControl.Proofs.Transport.Flow
import PathControl.Transport.Filters

/-!
# The passage of frames over a link

What comes out of a link is what went in, in order, less what the filter loses. Three things can
run short: the ring of either direction, and the buffers of the end that receives. None of them
loses a frame, and none makes the filter see one twice.

* `Pool.Uniform`: a pool whose buffers all have one size. `Pool.stock`: how many it can still hand
  out. `Pool.Uniform.deliver`: a receive burst in full, by how many frames it moves.
* `Entry`, `Lane.passed`: what is put into a direction, and what comes out of its filter for that.
* `Lane.Carries`: what came out of the filter is what was received and what is still on the ring.
  One lemma per operation on a direction.
* `Link.Run`: everything that can happen to a link and to the pools of its ends.
* `Link.Run.lossless_in_order`: in every run, the link loses nothing but what the filter loses.
-/

namespace PathControl.Transport

open PathControl.Wire

/-! ### Pools of one size -/

namespace Pool

/-- How many buffers a pool can hand out, those it has yet to make included. -/
def stock (p : Pool) : Nat := p.free.length + (p.limit - p.allocated)

variable {p rest : Pool} {b : Buffer} {size : Nat}

/-- A pool has no buffer to give exactly if its stock is used up. -/
theorem get?_eq_none_iff : p.get? = none ↔ p.stock = 0 := by
  unfold get? stock
  split
  · next hfree => simp [hfree]
  · next hfree =>
    rw [hfree, List.length_nil, Nat.zero_add, Nat.sub_eq_zero_iff_le]
    split
    · next hroom => simpa using hroom
    · next hroom => simpa using hroom

/-- Taking a buffer takes one from the stock. -/
theorem stock_of_get? (hget : p.get? = some (b, rest)) : p.stock = rest.stock + 1 := by
  unfold get? at hget
  unfold stock
  split at hget
  · next hfree =>
    cases hget
    rw [hfree, List.length_cons]
    exact Nat.add_right_comm _ _ _
  · next hfree =>
    split at hget
    · next hroom =>
      cases hget
      show p.free.length + (p.limit - p.allocated) =
        p.free.length + (p.limit - (p.allocated + 1)) + 1
      omega
    · cases hget

/-- Whether all buffers of a pool have one size, those it has yet to make included. -/
structure Uniform (size : Nat) (p : Pool) : Prop where
  free : ∀ b ∈ p.free, b.capacity = size
  made : p.bufferSize = size

namespace Uniform

/-- A fresh pool makes buffers of one size. -/
theorem new (initial limit size : Nat) : (Pool.new initial limit size).Uniform size where
  free b hb := by
    rw [List.eq_of_mem_replicate hb]
    rfl
  made := rfl

/-- A buffer from such a pool has that size, and those that stay do. -/
theorem get? (h : p.Uniform size) (hget : p.get? = some (b, rest)) :
    b.capacity = size ∧ rest.Uniform size := by
  unfold Pool.get? at hget
  split at hget
  · next hfree =>
    cases hget
    have hall := h.free
    rw [hfree] at hall
    obtain ⟨hb, hrest⟩ := List.forall_mem_cons.1 hall
    exact ⟨hb, hrest, h.made⟩
  · split at hget
    · cases hget
      exact ⟨h.made, h.free, h.made⟩
    · cases hget

/-- Giving back a buffer of that size keeps the size. -/
theorem release (h : p.Uniform size) (hb : b.capacity = size) : (p.release b).Uniform size := by
  unfold Pool.release
  split
  · refine ⟨?_, h.made⟩
    intro c hc
    rcases List.mem_append.1 hc with hc | hc
    · exact h.free c hc
    · rw [List.mem_singleton.1 hc]
      exact hb
  · exact ⟨h.free, h.made⟩

/-- A receive burst takes as many frames off the ring as there are, as there is room for and as
there are buffers for. It ends for want of a buffer only if frames and room are left then. -/
theorem deliver (h : p.Uniform size) (room : Nat) (ring : List Bytes) :
    let moved := min room (min ring.length p.stock)
    (Transport.deliver p room ring).1 = ring.drop moved ∧
      (Transport.deliver p room ring).2.1.Uniform size ∧
      (Transport.deliver p room ring).2.2.1.map Buffer.contents =
        (ring.take moved).map (List.take size) ∧
      (Transport.deliver p room ring).2.2.2 = decide (moved < min room ring.length) := by
  induction room generalizing p ring with
  | zero => simpa [Transport.deliver] using h
  | succ room ih =>
    rcases ring with _ | ⟨frame, ring⟩
    · simpa [Transport.deliver] using h
    · unfold Transport.deliver
      rcases hget : p.get? with _ | ⟨buffer, rest⟩
      · have hstock := get?_eq_none_iff.1 hget
        simpa [hstock] using h
      · obtain ⟨hbuffer, hrest⟩ := h.get? hget
        obtain ⟨hleft, huniform, hframes, hexhausted⟩ := ih hrest ring
        have hmoved : min (room + 1) (min (frame :: ring).length p.stock) =
            min room (min ring.length rest.stock) + 1 := by
          rw [stock_of_get? hget, List.length_cons]
          omega
        simp only [hmoved, List.drop_succ_cons, List.take_succ_cons, List.map_cons]
        refine ⟨hleft, huniform, ?_, ?_⟩
        · rw [Buffer.contents_copyFrom, hbuffer, hframes]
        · rw [hexhausted, List.length_cons]
          congr 1
          rw [eq_iff_iff]
          omega

end Uniform

end Pool

/-- Without a buffer, a receive burst that has anything to move moves nothing. -/
theorem deliver_of_get?_eq_none {pool : Pool} {room : Nat} {ring : List Bytes} (hroom : 0 < room)
    (hring : 0 < ring.length) (hget : pool.get? = none) :
    deliver pool room ring = (ring, pool, [], true) := by
  obtain ⟨room, rfl⟩ := Nat.exists_eq_add_of_lt hroom
  rw [Nat.zero_add]
  obtain ⟨frame, rest, rfl⟩ := List.exists_cons_of_length_pos hring
  rw [deliver, hget]

/-! ### What goes in, and what the filter makes of it -/

namespace Ring

variable {r : Ring}

/-- A ring with room takes a frame behind the others. -/
theorem push_of_not_isFull (hfull : ¬ r.isFull = true) (frame : Bytes) :
    r.push frame = { r with frames := r.frames ++ [frame] } :=
  if_neg hfull

/-- A ring with room is not overfull after one more frame. -/
theorem length_append_le (hfull : ¬ r.isFull = true) (frame : Bytes) :
    (r.frames ++ [frame]).length ≤ r.capacity := by
  simp only [isFull, decide_eq_true_eq, Nat.not_le] at hfull
  rw [List.length_append]
  exact hfull

end Ring

/-- What is done to one direction of a link, at the end that it starts from. -/
inductive Entry (φ : Type) where
  /-- A frame is transmitted. -/
  | transmitted (frame : Bytes)
  /-- A frame is put on the ring, past the filter. -/
  | injected (frame : Bytes)
  /-- The filter is replaced, or removed. -/
  | installed (filter : Option φ)

namespace Lane

variable {φ : Type} [LinkFilter φ]

/-- What comes of some entries: the filter afterwards, which has seen each transmitted frame once
and in order, and the frames that it let pass among those it never saw. -/
def passed (filter : Option φ) : List (Entry φ) → Option φ × List Bytes
  | [] => (filter, [])
  | .transmitted frame :: entries =>
    let (filter, kept) := filtered filter frame
    let (filter, frames) := passed filter entries
    (filter, kept.toList ++ frames)
  | .injected frame :: entries =>
    let (filter, frames) := passed filter entries
    (filter, frame :: frames)
  | .installed filter :: entries => passed filter entries

/-- A filter passes entries in two goes as in one, from where the first go left it. -/
theorem passed_append (filter : Option φ) (entries later : List (Entry φ)) :
    passed filter (entries ++ later) =
      ((passed (passed filter entries).1 later).1,
        (passed filter entries).2 ++ (passed (passed filter entries).1 later).2) := by
  induction entries generalizing filter with
  | nil => rfl
  | cons entry entries ih =>
    rw [List.cons_append]
    cases entry with
    | transmitted frame => simp only [passed, ih, List.append_assoc]
    | injected frame => simp only [passed, ih, List.cons_append]
    | installed filter => simp only [passed, ih]

/-! ### One direction -/

/-- Whether what came out of the filter for some entries is what was received, less the cut to
`size` bytes, and then what is on the ring. -/
structure Carries (capacity size : Nat) (entries : List (Entry φ)) (got : List Bytes)
    (lane : Lane φ) : Prop where
  accounted : ∃ received, passed none entries = (lane.filter, received ++ lane.ring.frames) ∧
    got = received.map (List.take size)
  capacity : lane.ring.capacity = max capacity 1
  bounded : lane.ring.frames.length ≤ lane.ring.capacity

namespace Carries

variable {capacity size : Nat} {entries : List (Entry φ)} {got : List Bytes} {lane : Lane φ}

/-- A fresh lane has carried nothing. -/
theorem new : Carries capacity size [] [] (⟨Ring.new capacity, none⟩ : Lane φ) where
  accounted := ⟨[], rfl, rfl⟩
  capacity := rfl
  bounded := Nat.zero_le _

/-- More is put in, and what comes of it goes to the back of the ring. -/
theorem append {filter : Option φ} {later : List (Entry φ)} {frames : List Bytes}
    (h : Carries capacity size entries got lane)
    (hlater : passed lane.filter later = (filter, frames))
    (hroom : (lane.ring.frames ++ frames).length ≤ lane.ring.capacity) :
    Carries capacity size (entries ++ later) got
      { ring := { lane.ring with frames := lane.ring.frames ++ frames }, filter } where
  accounted := by
    obtain ⟨received, hpassed, hgot⟩ := h.accounted
    refine ⟨received, ?_, hgot⟩
    rw [passed_append, hpassed, hlater, List.append_assoc]
  capacity := h.capacity
  bounded := hroom

/-- Replacing the filter keeps what a lane carries. -/
theorem install (h : Carries capacity size entries got lane) (filter : Option φ) :
    Carries capacity size (entries ++ [.installed filter]) got { lane with filter } := by
  have hlater : passed lane.filter [.installed filter] = (filter, []) := rfl
  have happended := h.append hlater (by simpa using h.bounded)
  rwa [List.append_nil] at happended

/-- An injected frame gets past the filter, onto a ring with room. -/
theorem inject (h : Carries capacity size entries got lane) (hfull : ¬ lane.ring.isFull = true)
    (frame : Bytes) :
    Carries capacity size (entries ++ [.injected frame]) got
      { lane with ring := lane.ring.push frame } := by
  rw [Ring.push_of_not_isFull hfull]
  exact h.append rfl (Ring.length_append_le hfull frame)

/-- The filter sees a frame only when the ring has room for what the filter makes of it. -/
theorem send (h : Carries capacity size entries got lane) (hfull : ¬ lane.ring.isFull = true)
    (frame : Bytes) :
    Carries capacity size (entries ++ [.transmitted frame]) got (lane.send frame) := by
  have hlater : passed lane.filter [.transmitted frame] =
      ((filtered lane.filter frame).1, (filtered lane.filter frame).2.toList) :=
    congrArg (Prod.mk _) (List.append_nil _)
  unfold Lane.send
  rcases hkept : filtered lane.filter frame with ⟨filter, _ | kept⟩
  · rw [hkept] at hlater
    have happended := h.append hlater (by simpa using h.bounded)
    rwa [Option.toList_none, List.append_nil] at happended
  · rw [hkept] at hlater
    have happended := h.append hlater (Ring.length_append_le hfull kept)
    rwa [Option.toList_some, ← Ring.push_of_not_isFull hfull] at happended

/-- A burst transmits frames off the front until the ring is full. The filter has seen exactly
those that were taken. -/
theorem sendAll (h : Carries capacity size entries got lane) (frames : List Bytes) :
    Carries capacity size
        (entries ++ (frames.take (lane.sendAll frames).2).map Entry.transmitted) got
        (lane.sendAll frames).1 ∧
      (lane.sendAll frames).2 ≤ frames.length ∧
      ((lane.sendAll frames).2 < frames.length →
        (lane.sendAll frames).1.ring.frames.length = max capacity 1) := by
  induction frames generalizing lane entries with
  | nil => simpa [Lane.sendAll] using h
  | cons frame frames ih =>
    unfold Lane.sendAll
    by_cases hfull : lane.ring.isFull = true
    · have hlength : lane.ring.frames.length = max capacity 1 := by
        rw [← h.capacity]
        simp only [Ring.isFull, decide_eq_true_eq] at hfull
        exact Nat.le_antisymm h.bounded hfull
      rw [if_pos hfull]
      simpa [hlength] using h
    · obtain ⟨hcarries, htaken, hshort⟩ := ih (h.send hfull frame)
      rw [if_neg hfull]
      refine ⟨?_, Nat.succ_le_succ htaken, ?_⟩
      · simpa using hcarries
      · intro hlt
        exact hshort (Nat.lt_of_succ_lt_succ hlt)

/-- Frames that are received leave the front of the ring. -/
theorem receive (h : Carries capacity size entries got lane) (moved : Nat) :
    Carries capacity size entries (got ++ (lane.ring.frames.take moved).map (List.take size))
      { lane with ring := { lane.ring with frames := lane.ring.frames.drop moved } } where
  accounted := by
    obtain ⟨received, hpassed, hgot⟩ := h.accounted
    refine ⟨received ++ lane.ring.frames.take moved, ?_, ?_⟩
    · rw [hpassed, List.append_assoc, List.take_append_drop]
    · rw [hgot, List.map_append]
  capacity := h.capacity
  bounded := by
    refine Nat.le_trans ?_ h.bounded
    exact (List.drop_sublist _ _).length_le

end Carries

end Lane

/-! ### Runs of a link -/

namespace Link

variable {φ : Type}

/-- Setting the lane of one end leaves that of the other end alone. -/
theorem outbound_setOutbound (l : Link φ) (e d : LinkEnd) (lane : Lane φ) :
    (l.setOutbound e lane).outbound d = if d = e then lane else l.outbound d := by
  cases e <;> cases d <;> rfl

variable [LinkFilter φ]

/-- A run of a link whose rings were made for `capacity` frames, with pools of buffers of `sizes`
bytes: the link and the pools, what was put into the direction that starts at each end, and what
each end has received. Between the bursts anyone may take buffers out of a pool and give its
buffers back to it. -/
inductive Run (capacity : Nat) (sizes : LinkEnd → Nat) :
    Link φ → (LinkEnd → Pool) → (LinkEnd → List (Entry φ)) → (LinkEnd → List Bytes) → Prop where
  | start (initial limit : LinkEnd → Nat) :
      Run capacity sizes (Link.new capacity) (fun e => Pool.new (initial e) (limit e) (sizes e))
        (fun _ => []) (fun _ => [])
  | transmit {l pools entries got} (run : Run capacity sizes l pools entries got) (e : LinkEnd)
      (frames : List Buffer) :
      Run capacity sizes ((nic e).txBurst l frames).nic pools
        (Function.update entries e (entries e ++
          (frames.take ((nic e).txBurst l frames).taken).map fun b => .transmitted b.contents))
        got
  | receive {l pools entries got} (run : Run capacity sizes l pools entries got) (e : LinkEnd)
      (room : Nat) :
      Run capacity sizes ((nic e).rxBurst l (pools e) room).nic
        (Function.update pools e ((nic e).rxBurst l (pools e) room).pool) entries
        (Function.update got e
          (got e ++ ((nic e).rxBurst l (pools e) room).frames.map Buffer.contents))
  | inject {l pools entries got} (run : Run capacity sizes l pools entries got) (e : LinkEnd)
      (frame : Bytes) (hfits : (l.inject e frame).2 = true) :
      Run capacity sizes (l.inject e frame).1 pools
        (Function.update entries e.other (entries e.other ++ [.injected frame])) got
  | refuse {l pools entries got} (run : Run capacity sizes l pools entries got) (e : LinkEnd)
      (frame : Bytes) (hfull : (l.inject e frame).2 = false) :
      Run capacity sizes (l.inject e frame).1 pools entries got
  | install {l pools entries got} (run : Run capacity sizes l pools entries got) (e : LinkEnd)
      (filter : Option φ) :
      Run capacity sizes (l.setFilter e filter) pools
        (Function.update entries e (entries e ++ [.installed filter])) got
  | draw {l pools entries got} {b : Buffer} {rest : Pool}
      (run : Run capacity sizes l pools entries got) (e : LinkEnd)
      (hget : (pools e).get? = some (b, rest)) :
      Run capacity sizes l (Function.update pools e rest) entries got
  | giveBack {l pools entries got} {b : Buffer} (run : Run capacity sizes l pools entries got)
      (e : LinkEnd) (hb : b.capacity = sizes e) :
      Run capacity sizes l (Function.update pools e ((pools e).release b)) entries got

namespace Run

variable {capacity : Nat} {sizes : LinkEnd → Nat} {l : Link φ} {pools : LinkEnd → Pool}
  {entries : LinkEnd → List (Entry φ)} {got : LinkEnd → List Bytes}

/-- The buffers of a pool keep its size. -/
theorem uniform (run : Run capacity sizes l pools entries got) (e : LinkEnd) :
    (pools e).Uniform (sizes e) := by
  induction run with
  | start initial limit => exact .new _ _ _
  | transmit _ _ _ ih => exact ih
  | receive _ d room ih =>
    by_cases hd : e = d
    · subst hd
      rw [Function.update_self]
      exact (ih.deliver room _).2.1
    · rwa [Function.update_of_ne hd]
  | inject _ _ _ _ ih => exact ih
  | refuse _ _ _ _ ih => exact ih
  | install _ _ _ ih => exact ih
  | draw _ d hget ih =>
    by_cases hd : e = d
    · subst hd
      rw [Function.update_self]
      exact (ih.get? hget).2
    · rwa [Function.update_of_ne hd]
  | giveBack _ d hb ih =>
    by_cases hd : e = d
    · subst hd
      rw [Function.update_self]
      exact ih.release hb
    · rwa [Function.update_of_ne hd]

/-- Each direction carries what was put into it, whatever happens to the other. -/
theorem carries (run : Run capacity sizes l pools entries got) (e : LinkEnd) :
    (l.outbound e).Carries capacity (sizes e.other) (entries e) (got e.other) := by
  -- every step is on one lane, so each case asks whether that is the lane out of `e`
  induction run with
  | start initial limit => cases e <;> exact .new
  | @transmit l pools entries got run d frames ih =>
    show Lane.Carries _ _ _ _ ((l.setOutbound d _).outbound e)
    rw [outbound_setOutbound]
    by_cases hd : e = d
    · subst hd
      have hsent := (ih.sendAll (frames.map Buffer.contents)).1
      rw [if_pos rfl, Function.update_self]
      rwa [← List.map_take, List.map_map] at hsent
    · rwa [if_neg hd, Function.update_of_ne hd]
  | @receive l pools entries got run d room ih =>
    show Lane.Carries _ _ _ _ ((l.setOutbound d.other _).outbound e)
    rw [outbound_setOutbound]
    by_cases hd : e = d.other
    · subst hd
      rw [LinkEnd.other_other] at ih ⊢
      obtain ⟨hleft, -, hframes, -⟩ :=
        (run.uniform d).deliver room (l.inbound d).ring.frames
      have hreceived := ih.receive
        (min room (min (l.inbound d).ring.frames.length (pools d).stock))
      rw [if_pos rfl, Function.update_self]
      show Lane.Carries _ _ _ (got d ++ (deliver (pools d) room _).2.2.1.map _)
        { l.inbound d with ring := { (l.inbound d).ring with
          frames := (deliver (pools d) room _).1 } }
      rw [hframes, hleft]
      exact hreceived
    · have hother : e.other ≠ d := fun heq => hd (heq ▸ e.other_other.symm)
      rwa [if_neg hd, Function.update_of_ne hother]
  | @inject l pools entries got run d frame hfits ih =>
    show Lane.Carries _ _ _ _ ((l.setOutbound d.other _).outbound e)
    rw [outbound_setOutbound]
    by_cases hd : e = d.other
    · subst hd
      rw [if_pos rfl, Function.update_self]
      refine ih.inject ?_ frame
      simpa [Link.inject, inbound] using hfits
    · rwa [if_neg hd, Function.update_of_ne hd]
  | @refuse l pools entries got run d frame hfull ih =>
    show Lane.Carries _ _ _ _ ((l.setOutbound d.other _).outbound e)
    rw [outbound_setOutbound]
    by_cases hd : e = d.other
    · subst hd
      have hring : (l.inbound d).ring.isFull = true := by
        simpa [Link.inject] using hfull
      rw [if_pos rfl, Ring.push, if_pos hring]
      exact ih
    · rwa [if_neg hd]
  | @install l pools entries got run d filter ih =>
    show Lane.Carries _ _ _ _ ((l.setOutbound d _).outbound e)
    rw [outbound_setOutbound]
    by_cases hd : e = d
    · subst hd
      rw [if_pos rfl, Function.update_self]
      exact ih.install filter
    · rwa [if_neg hd, Function.update_of_ne hd]
  | draw _ _ _ ih => exact ih
  | giveBack _ _ _ ih => exact ih

/-- A transmit burst stops short only where the ring of the other end is full. -/
theorem transmit_stops (run : Run capacity sizes l pools entries got) (e : LinkEnd)
    (frames : List Buffer) :
    ((nic e).txBurst l frames).taken ≤ frames.length ∧
      (((nic e).txBurst l frames).taken < frames.length →
        ((nic e).txBurst l frames).nic.pending e.other = max capacity 1) := by
  obtain ⟨-, htaken, hshort⟩ := (run.carries e).sendAll (frames.map Buffer.contents)
  rw [List.length_map] at htaken hshort
  refine ⟨htaken, ?_⟩
  intro hlt
  show (((l.setOutbound e _).outbound e.other.other).ring.frames).length = _
  rw [LinkEnd.other_other, outbound_setOutbound, if_pos rfl]
  exact hshort hlt

/-- An injected frame is taken exactly if the ring of the other end has room. -/
theorem inject_fits (run : Run capacity sizes l pools entries got) (e : LinkEnd) (frame : Bytes) :
    (l.inject e frame).2 = decide (l.pending e < max capacity 1) := by
  have hcapacity : (l.inbound e).ring.capacity = max capacity 1 := (run.carries e.other).capacity
  show (!decide ((l.inbound e).ring.capacity ≤ l.pending e)) = _
  rw [hcapacity, ← decide_not]
  exact decide_eq_decide.2 Nat.not_le

/-- A burst that fails has moved nothing: it is as if it had not been tried. -/
theorem receive_moves (run : Run capacity sizes l pools entries got) (e : LinkEnd) (room : Nat) :
    ((nic e).rxBurst l (pools e) room).frames.length =
        min room (min (l.pending e) (pools e).stock) ∧
      ((nic e).rxBurst l (pools e) room).failure =
        (if 0 < room ∧ 0 < l.pending e ∧ (pools e).get? = none then some .buffersExhausted
          else none) ∧
      (((nic e).rxBurst l (pools e) room).failure ≠ none →
        ((nic e).rxBurst l (pools e) room).nic = l ∧
          ((nic e).rxBurst l (pools e) room).pool = pools e ∧
          ((nic e).rxBurst l (pools e) room).frames = []) := by
  obtain ⟨-, -, hframes, hexhausted⟩ :=
    (run.uniform e).deliver room (l.inbound e).ring.frames
  have hlength := congrArg List.length hframes
  simp only [List.length_map, List.length_take] at hlength
  have hcount : ((nic e).rxBurst l (pools e) room).frames.length =
      min room (min (l.pending e) (pools e).stock) := by
    show (deliver (pools e) room (l.inbound e).ring.frames).2.2.1.length = _
    rw [hlength]
    unfold pending
    omega
  refine ⟨hcount, ?_⟩
  by_cases hstarved : 0 < room ∧ 0 < l.pending e ∧ (pools e).get? = none
  · rw [if_pos hstarved]
    obtain ⟨hroom, hpending, hget⟩ := hstarved
    have hnothing := deliver_of_get?_eq_none hroom hpending hget
    simp only [nic, rxBurst, hnothing]
    refine ⟨rfl, fun _ => ⟨?_, trivial, trivial⟩⟩
    cases e <;> rfl
  · -- a burst fails only if it runs out of buffers at its first frame
    have hfailure : ((nic e).rxBurst l (pools e) room).failure = none := by
      refine if_neg ?_
      intro hfailed
      apply hstarved
      rw [Bool.and_eq_true, hexhausted, decide_eq_true_eq, List.isEmpty_iff_length_eq_zero,
        hlength] at hfailed
      rw [Pool.get?_eq_none_iff]
      unfold pending
      omega
    rw [hfailure, if_neg hstarved]
    exact ⟨rfl, fun hfailed => absurd rfl hfailed⟩

/-- **A link is a lossless queue but for its filter.** In every run, and in each direction, the
frames received so far and then the frames still on the ring are, in order, the transmitted frames
as the filter in place let them pass, among those that were injected; each received copy is cut to
the buffers of the receiving pool. The filter has seen each frame that was taken once and in order.
A transmit burst never fails, takes frames off the front, and stops short of all of them only at a
full ring. A receive burst moves as many frames as it has room, frames and buffers for. It fails
just when it has room and frames but no buffer, and then it changes nothing. -/
theorem lossless_in_order (run : Run capacity sizes l pools entries got) :
    (∀ e, ∃ received,
      Lane.passed none (entries e) =
        ((l.outbound e).filter, received ++ (l.outbound e).ring.frames) ∧
      got e.other = received.map (List.take (sizes e.other))) ∧
    (∀ e frames, ((nic e).txBurst l frames).failure = none ∧
      ((nic e).txBurst l frames).taken ≤ frames.length ∧
      (((nic e).txBurst l frames).taken < frames.length →
        ((nic e).txBurst l frames).nic.pending e.other = max capacity 1)) ∧
    (∀ e room,
      ((nic e).rxBurst l (pools e) room).frames.length =
        min room (min (l.pending e) (pools e).stock) ∧
      ((nic e).rxBurst l (pools e) room).failure =
        (if 0 < room ∧ 0 < l.pending e ∧ (pools e).get? = none then some .buffersExhausted
          else none) ∧
      (((nic e).rxBurst l (pools e) room).failure ≠ none →
        ((nic e).rxBurst l (pools e) room).nic = l ∧
          ((nic e).rxBurst l (pools e) room).pool = pools e ∧
          ((nic e).rxBurst l (pools e) room).frames = [])) ∧
    (∀ e frame, (l.inject e frame).2 = decide (l.pending e < max capacity 1)) := by
  refine ⟨?_, ?_, ?_, ?_⟩
  · intro e
    exact (run.carries e).accounted
  · intro e frames
    exact ⟨rfl, run.transmit_stops e frames⟩
  · intro e room
    exact run.receive_moves e room
  · intro e frame
    exact run.inject_fits e frame

/-- A burst is resumed at a full ring, past a filter that loses the first frame, and the pool of the
receiving end has one buffer of two bytes. The second frame is cut, and the third one waits. -/
theorem third_frame_waits :
    ∃ (l : Link FrameFilter) (pools : LinkEnd → Pool) (entries : LinkEnd → List (Entry FrameFilter))
      (got : LinkEnd → List Bytes),
      Run 1 (fun | .a => 4 | .b => 2) l pools entries got ∧
      Lane.passed none (entries .a) = (some (.dropFirst 0), [[2, 3, 4], [5]]) ∧
      got .b = [[2, 3]] ∧ (l.outbound .a).ring.frames = [[5]] ∧
      ((nic .b).rxBurst l (pools .b) 8).failure = some .buffersExhausted ∧
      ((nic .b).rxBurst l (pools .b) 8).nic = l := by
  let frames := [[1], [2, 3, 4], [5]].map (Buffer.blank 4).copyFrom
  have start : Run 1 (fun | .a => 4 | .b => 2) (Link.new 1 : Link FrameFilter) _ _ _ :=
    .start (fun _ => 0) (fun _ => 1)
  have installed := start.install .a (some (.dropFirst 1))
  have begun := installed.transmit .a frames
  have received := begun.receive .b 8
  have resumed := received.transmit .a (frames.drop 2)
  obtain ⟨-, -, hreceive, -⟩ := resumed.lossless_in_order
  obtain ⟨-, hfailure, hunchanged⟩ := hreceive .b 8
  refine ⟨_, _, _, _, resumed, rfl, rfl, rfl, hfailure, (hunchanged ?_).1⟩
  rw [hfailure]
  decide

end Run

end Link

end PathControl.Transport
