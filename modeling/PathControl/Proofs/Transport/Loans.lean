import PathControl.Proofs.Transport.Custody
import PathControl.Proofs.Transport.Passage

/-!
# Buffers on loan

A pool together with the buffers that are held, and whatever can happen to them: a buffer is asked
for, a held buffer is given back, in any order, or its holder edits it.

* `Edit`: what a holder can do with a buffer. `Edit.apply_eq_ok`: it keeps the capacity, and the
  length is what was asked for, cut to the capacity.
* `Loans.after`: pool and held buffers after a list of acts.
* `Loans.Sound`: the invariant. It joins the count of `Pool.Lends` with the sizes of `Pool.Uniform`
  and says that the free buffers are cleared. `Loans.Sound.step`: every act keeps it.
* `Loans.buffers_conserved`: what follows for every list of acts.
-/

namespace PathControl.Transport

open PathControl.Wire

/-! ### Edits -/

/-- What the holder of a buffer can do with it. -/
inductive Edit where
  /-- Copies data to the front. -/
  | copy (data : Bytes)
  /-- Sets how many bytes are in use. -/
  | resize (n : Nat)
  /-- Overwrites bytes, in use or not. -/
  | write (start : Nat) (data : Bytes)
  deriving DecidableEq, Repr

namespace Edit

/-- The buffer after an edit. A write that does not fit faults. -/
def apply (b : Buffer) : Edit → Checked Buffer
  | copy data => .ok (b.copyFrom data)
  | resize n => .ok (b.setLength n)
  | write start data => b.writeAt start data

/-- How many bytes are in use after an edit of a buffer of `size` bytes, of which `n` were. -/
def length (size n : Nat) : Edit → Nat
  | copy data => min data.length size
  | resize m => min m size
  | write _ _ => n

/-- An edit keeps the capacity. -/
theorem apply_eq_ok {e : Edit} {b b' : Buffer} (h : e.apply b = .ok b') :
    b'.capacity = b.capacity ∧ b'.used = e.length b.capacity b.used := by
  cases e with
  | copy data => cases h; exact ⟨rfl, rfl⟩
  | resize n => cases h; exact ⟨rfl, rfl⟩
  | write start data =>
    simp only [apply, Buffer.writeAt] at h
    split at h
    · cases h; exact ⟨rfl, rfl⟩
    · cases h

end Edit

/-! ### Pools with cleared buffers -/

namespace Pool

variable {p rest : Pool} {b : Buffer} {most n : Nat}

/-- Whether no byte of a free buffer is in use. -/
def Cleared (p : Pool) : Prop := ∀ b ∈ p.free, b.used = 0

/-- The buffers of a fresh pool are cleared. -/
theorem Cleared.new (initial limit size : Nat) : (Pool.new initial limit size).Cleared := by
  intro b hb
  rw [List.eq_of_mem_replicate hb]
  rfl

/-- A buffer from such a pool is cleared, and those that stay are. -/
theorem Cleared.get? (h : p.Cleared) (hget : p.get? = some (b, rest)) :
    b.used = 0 ∧ rest.Cleared := by
  unfold Pool.get? at hget
  split at hget
  · next hfree =>
    cases hget
    unfold Cleared at h
    rw [hfree] at h
    exact List.forall_mem_cons.1 h
  · split at hget
    · cases hget
      exact ⟨rfl, h⟩
    · cases hget

/-- A buffer is cleared when it is given back, whatever it held. -/
theorem Cleared.release (h : p.Cleared) (b : Buffer) : (p.release b).Cleared := by
  unfold Pool.release
  split
  · exact List.forall_mem_append.2 ⟨h, List.forall_mem_singleton.2 rfl⟩
  · exact h

/-- There is a place for a buffer that was handed out. -/
theorem Lends.release_eq (h : p.Lends most (n + 1)) (b : Buffer) :
    p.release b = { p with free := p.free ++ [b.clear] } := by
  have hmade := h.made
  have hbounded := h.bounded
  have hlimit := h.limit
  exact if_pos (by omega)

/-- A pool has nothing to hand out exactly if it has handed out as much as its limit allows. -/
theorem Lends.get?_eq_none_iff (h : p.Lends most n) : p.get? = none ↔ n = most := by
  have hmade := h.made
  have hbounded := h.bounded
  have hlimit := h.limit
  rw [Pool.get?_eq_none_iff]
  unfold stock
  omega

/-- A pool never forgets that it has made a buffer. -/
theorem allocated_le_of_get? (hget : p.get? = some (b, rest)) : p.allocated ≤ rest.allocated := by
  unfold get? at hget
  split at hget
  · cases hget
    exact Nat.le_refl _
  · split at hget
    · cases hget
      exact Nat.le_succ _
    · cases hget

end Pool

/-! ### Loans -/

/-- What can happen to a pool and the buffers that are held. -/
inductive Act where
  /-- A buffer is asked for. -/
  | get
  /-- The held buffer at a position is given back. -/
  | drop (i : Nat)
  /-- The held buffer at a position is edited. -/
  | edit (i : Nat) (e : Edit)
  deriving DecidableEq, Repr

/-- A pool with the buffers that are held, the one handed out last at the end. -/
structure Loans where
  pool : Pool
  held : List Buffer
  deriving DecidableEq, Repr

namespace Loans

/-- Asks for a buffer, and holds it. -/
def get (x : Loans) : Loans × Except Error Buffer :=
  match x.pool.get? with
  | some (b, pool) => ({ pool, held := x.held ++ [b] }, .ok b)
  | none => (x, .error .buffersExhausted)

/-- Gives the held buffer at a position back. -/
def drop (x : Loans) (i : Nat) : Loans :=
  match x.held[i]? with
  | some b => { pool := x.pool.release b, held := x.held.eraseIdx i }
  | none => x

/-- Edits the held buffer at a position. A write that does not fit stops its holder before it
changes a byte. -/
def edit (x : Loans) (i : Nat) (e : Edit) : Loans :=
  match x.held[i]? with
  | some b =>
    match e.apply b with
    | .ok b' => { x with held := x.held.set i b' }
    | .error _ => x
  | none => x

/-- What an act makes of pool and held buffers. -/
def step (x : Loans) : Act → Loans
  | .get => x.get.1
  | .drop i => x.drop i
  | .edit i e => x.edit i e

/-- A new pool and the held buffers, after some acts. -/
def after (initial limit size : Nat) (acts : List Act) : Loans :=
  acts.foldl step ⟨.new initial limit size, []⟩

/-- Whether a pool of at most `most` buffers of `size` bytes has handed out the held ones, and no
free one has a byte in use. -/
structure Sound (most size : Nat) (x : Loans) : Prop where
  lends : x.pool.Lends most x.held.length
  uniform : x.pool.Uniform size
  held : ∀ b ∈ x.held, b.capacity = size
  cleared : x.pool.Cleared

namespace Sound

variable {most size : Nat} {x : Loans}

/-- Nothing of a fresh pool is on loan. -/
theorem new (initial limit size : Nat) :
    Sound (max limit 1) size ⟨.new initial limit size, []⟩ :=
  ⟨.new initial limit size, .new initial limit size, List.forall_mem_nil _,
    .new initial limit size⟩

/-- A buffer that is taken is on loan from then on. -/
theorem get (h : x.Sound most size) : x.get.1.Sound most size := by
  unfold Loans.get
  split
  · next b rest hget =>
    obtain ⟨hsize, huniform⟩ := h.uniform.get? hget
    refine ⟨?_, huniform, List.forall_mem_append.2 ⟨h.held, List.forall_mem_singleton.2 hsize⟩,
      (h.cleared.get? hget).2⟩
    rw [List.length_append]
    exact h.lends.get? hget
  · exact h

/-- A buffer that is given back was handed out. -/
theorem lends_erased (h : x.Sound most size) {i : Nat} (hi : i < x.held.length) :
    x.pool.Lends most ((x.held.eraseIdx i).length + 1) := by
  apply h.lends.of_eq
  rw [List.length_eraseIdx_of_lt hi]
  omega

/-- A buffer that is dropped is given back. -/
theorem drop (h : x.Sound most size) (i : Nat) : (x.drop i).Sound most size := by
  unfold Loans.drop
  split
  · next b hb =>
    obtain ⟨hi, -⟩ := List.getElem?_eq_some_iff.1 hb
    exact ⟨(h.lends_erased hi).release b,
      h.uniform.release (h.held b (List.mem_of_getElem? hb)),
      fun c hc => h.held c (List.mem_of_mem_eraseIdx hc), h.cleared.release b⟩
  · exact h

/-- A buffer that is written stays on loan, with the room it had. -/
theorem edit (h : x.Sound most size) (i : Nat) (e : Edit) : (x.edit i e).Sound most size := by
  unfold Loans.edit
  split
  · next b hb =>
    split
    · next b' hb' =>
      refine ⟨h.lends.of_eq List.length_set.symm, h.uniform, fun c hc => ?_, h.cleared⟩
      rcases List.mem_or_eq_of_mem_set hc with hc | rfl
      · exact h.held c hc
      · exact (Edit.apply_eq_ok hb').1.trans (h.held b (List.mem_of_getElem? hb))
    · exact h
  · exact h

/-- Every act keeps the loans sound. -/
theorem step (h : x.Sound most size) (a : Act) : (x.step a).Sound most size := by
  cases a with
  | get => exact h.get
  | drop i => exact h.drop i
  | edit i e => exact h.edit i e

/-- So do any number of acts. -/
theorem steps (h : x.Sound most size) (acts : List Act) :
    (acts.foldl Loans.step x).Sound most size := by
  induction acts generalizing x with
  | nil => exact h
  | cons a acts ih => exact ih (h.step a)

/-- No act makes a buffer cease to exist. -/
theorem allocated_le_step (h : x.Sound most size) (a : Act) :
    x.pool.allocated ≤ (x.step a).pool.allocated := by
  cases a with
  | get =>
    simp only [Loans.step, Loans.get]
    split
    · next hget => exact Pool.allocated_le_of_get? hget
    · exact Nat.le_refl _
  | drop i =>
    simp only [Loans.step, Loans.drop]
    split
    · next b hb =>
      obtain ⟨hi, -⟩ := List.getElem?_eq_some_iff.1 hb
      have hrelease := (h.lends_erased hi).release_eq b
      exact Nat.le_of_eq (congrArg Pool.allocated hrelease).symm
    · exact Nat.le_refl _
  | edit i e =>
    simp only [Loans.step, Loans.edit]
    split
    · split <;> exact Nat.le_refl _
    · exact Nat.le_refl _

/-- Whatever is done, no fewer buffers have been made than before. -/
theorem allocated_le_steps (h : x.Sound most size) (acts : List Act) :
    x.pool.allocated ≤ (acts.foldl Loans.step x).pool.allocated := by
  induction acts generalizing x with
  | nil => exact Nat.le_refl _
  | cons a acts ih => exact Nat.le_trans (h.allocated_le_step a) (ih (h.step a))

/-- A request fails exactly if all buffers are held, for want of a buffer and with no effect. One
that is met hands out a cleared buffer of the size of the pool. -/
theorem get_cases (h : x.Sound most size) :
    x.held.length = most ∧ x.get = (x, .error .buffersExhausted) ∨
      x.held.length ≠ most ∧ ∃ b rest, x.get = (⟨rest, x.held ++ [b]⟩, .ok b) ∧
        b.used = 0 ∧ b.capacity = size := by
  unfold Loans.get
  rcases hget : x.pool.get? with _ | ⟨b, rest⟩
  · exact .inl ⟨h.lends.get?_eq_none_iff.1 hget, rfl⟩
  · refine .inr ⟨fun hall => ?_, b, rest, rfl, (h.cleared.get? hget).1, (h.uniform.get? hget).1⟩
    rw [h.lends.get?_eq_none_iff.2 hall] at hget
    cases hget

end Sound

/-- **Buffers are conserved.** Let a pool start with any number of buffers, limit and size, and let
buffers be asked for, given back in any order and edited. With `most` for the limit, or 1 if that is
0, at any time:

* the free and the held buffers are those that exist, at most `most`, and the ones said to be in use
  are those that are held; whatever follows, no fewer will exist;
* a held buffer that is given back finds a place among the free ones;
* a request fails exactly if `most` buffers are held, for want of a buffer and with no effect;
* a buffer that is handed out has length 0 and the size of the pool;
* a held buffer has the size of the pool and no more bytes in use than that: an edit sets the length
  that was asked for, cut to that size, or leaves it alone. -/
theorem buffers_conserved (initial limit size : Nat) (acts : List Act) :
    let most := max limit 1
    let x := after initial limit size acts
    (x.pool.available + x.held.length = x.pool.allocated ∧ x.pool.allocated ≤ most ∧
        x.pool.inUse = x.held.length ∧
        ∀ later, x.pool.allocated ≤ (after initial limit size (acts ++ later)).pool.allocated) ∧
      (∀ b ∈ x.held, x.pool.release b = { x.pool with free := x.pool.free ++ [b.clear] }) ∧
      (x.get.2 = .error .buffersExhausted ↔ x.held.length = most) ∧
      (∀ cause, x.get.2 = .error cause → cause = .buffersExhausted ∧ x.get.1 = x) ∧
      (∀ b, x.get.2 = .ok b → b.used = 0 ∧ b.capacity = size) ∧
      ∀ b ∈ x.held, b.capacity = size ∧ b.used ≤ size ∧
        ∀ (e : Edit) b', e.apply b = .ok b' → b'.capacity = size ∧
          b'.used = e.length size b.used := by
  intro most x
  have h : x.Sound most size := (Sound.new initial limit size).steps acts
  refine ⟨⟨h.lends.made.symm, h.lends.bounded, h.lends.inUse, fun later => ?_⟩, fun b hb => ?_, ?_,
    fun cause hcause => ?_, fun b hb => ?_, fun b hb => ?_⟩
  · rw [after, List.foldl_append]
    exact h.allocated_le_steps later
  · have hsome := List.length_pos_of_mem hb
    exact (h.lends.of_eq (m := x.held.length - 1 + 1) (by omega)).release_eq b
  · rcases h.get_cases with ⟨hall, hget⟩ | ⟨hsome, b, rest, hget, -⟩ <;> rw [hget]
    · exact iff_of_true rfl hall
    · exact iff_of_false (fun hcause => nomatch hcause) hsome
  · rcases h.get_cases with ⟨-, hget⟩ | ⟨-, b, rest, hget, -⟩ <;> rw [hget] at hcause ⊢
    · cases hcause
      exact ⟨rfl, rfl⟩
    · cases hcause
  · rcases h.get_cases with ⟨-, hget⟩ | ⟨-, c, rest, hget, hcleared, hsize⟩ <;> rw [hget] at hb
    · cases hb
    · cases hb
      exact ⟨hcleared, hsize⟩
  · have hsize := h.held b hb
    refine ⟨hsize, hsize ▸ b.used_le, fun e b' hb' => ?_⟩
    obtain ⟨hcapacity, hused⟩ := Edit.apply_eq_ok hb'
    rw [hsize] at hcapacity hused
    exact ⟨hcapacity, hused⟩

/-- A pool of two buffers of four bytes: the first is filled, given back and handed out once more,
which empties it and leaves its bytes. Then both are held. -/
theorem recycled_buffer_is_empty :
    let acts : List Act := [.get, .edit 0 (.copy [1, 2, 3, 4, 5]), .get, .get, .drop 0]
    let x := after 1 2 4 acts
    x.pool.inUse = 1 ∧ (∃ b, x.get.2 = .ok b ∧ b.used = 0 ∧ b.bytes = [1, 2, 3, 4]) ∧
      (after 1 2 4 (acts ++ [.get])).get.2 = .error .buffersExhausted := by
  intro acts x
  obtain ⟨⟨-, -, hinUse, -⟩, -, -, -, hfresh, -⟩ := buffers_conserved 1 2 4 acts
  obtain ⟨-, -, hexhausted, -⟩ := buffers_conserved 1 2 4 (acts ++ [.get])
  have hget : x.get.2 = .ok (((Buffer.blank 4).copyFrom [1, 2, 3, 4, 5]).clear) := rfl
  exact ⟨hinUse.trans rfl, ⟨_, hget, (hfresh _ hget).1, rfl⟩, hexhausted.2 rfl⟩

end Loans

end PathControl.Transport
