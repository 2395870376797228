import PathControl.Transport.Buffer

/-!
# Buffer pools

A pool hands out buffers of one size and takes them back. It starts with some free buffers, makes
new ones while fewer than its limit exist, and reuses free buffers first in, first out. A buffer
that is taken back is cleared but keeps its bytes.
-/

namespace PathControl.Transport

open PathControl.Wire

/-- A bounded pool of buffers. -/
structure Pool where
  /-- Buffers that can be handed out, the next one first. -/
  free : List Buffer
  /-- How many buffers exist, free or handed out. -/
  allocated : Nat
  /-- How many buffers may exist. -/
  limit : Nat
  /-- Capacity of the buffers that the pool makes. -/
  bufferSize : Nat
  deriving DecidableEq, Repr

namespace Pool

/-- Size of the longest Ethernet frame, which the buffers of an endpoint can hold. -/
def frameSize : Nat := 1518

/-- A pool with some buffers made in advance. The limit is at least one buffer. -/
def new (initial limit bufferSize : Nat) : Pool :=
  let limit := max limit 1
  let initial := min initial limit
  { free := List.replicate initial (Buffer.blank bufferSize)
    allocated := initial
    limit
    bufferSize }

/-- Bytes that a place for a free buffer takes. -/
def slotSize : Nat := 40

/-- A pool as `new` describes it, if there can be one of that size. -/
def allocate (initial limit bufferSize : Nat) : Checked Pool := do
  Checked.reserve (max limit 1) slotSize
  if initial ≠ 0 then Checked.reserve bufferSize 1
  return new initial limit bufferSize

/-- A pool of at most `limit` frames. -/
def forFrames (limit : Nat) : Checked Pool := allocate (min limit 64) limit frameSize

/-- Takes a buffer out of the pool. There is none while as many buffers as the limit allows are
handed out. -/
def get? (p : Pool) : Option (Buffer × Pool) :=
  match p.free with
  | b :: free => some (b, { p with free })
  | [] =>
    if p.allocated < p.limit then
      some (Buffer.blank p.bufferSize, { p with allocated := p.allocated + 1 })
    else none

/-- Puts a buffer back. A pool that is full already drops it. -/
def release (p : Pool) (b : Buffer) : Pool :=
  if p.free.length < p.limit then { p with free := p.free ++ [b.clear] }
  else { p with allocated := p.allocated - 1 }

/-- Puts several buffers back, in order. Those for which there is no place are dropped. -/
def releaseAll (p : Pool) (bs : List Buffer) : Pool :=
  let places := p.limit - p.free.length
  { p with
    free := p.free ++ (bs.take places).map Buffer.clear
    allocated := p.allocated - (bs.length - places) }

/-- Copies frames into buffers of the pool, in order, until it runs out. -/
def load (p : Pool) : List Bytes → Pool × List Buffer
  | [] => (p, [])
  | frame :: frames =>
    match p.get? with
    | none => (p, [])
    | some (buffer, p) =>
      let (p, buffers) := p.load frames
      (p, buffer.copyFrom frame :: buffers)

/-- Takes every buffer that there is out of the pool. -/
def takeAll (p : Pool) : Pool × List Buffer :=
  let missing := p.limit - p.allocated
  ({ p with free := [], allocated := p.allocated + missing },
    p.free ++ List.replicate missing (Buffer.blank p.bufferSize))

/-- How many buffers can be handed out without making new ones. -/
def available (p : Pool) : Nat := p.free.length

/-- How many buffers are handed out. -/
def inUse (p : Pool) : Nat := p.allocated - p.available

/-- One line on the state of a pool. -/
def summary (p : Pool) : String :=
  s!"available={p.available}/{p.limit} allocated={p.allocated} buffer_size={p.bufferSize}"

/-- Giving back no buffers changes nothing. -/
@[simp] theorem releaseAll_nil (p : Pool) : p.releaseAll [] = p := by
  simp [releaseAll]

/-- Putting several buffers back is putting them back one by one. -/
theorem releaseAll_cons (p : Pool) (b : Buffer) (bs : List Buffer) :
    p.releaseAll (b :: bs) = (p.release b).releaseAll bs := by
  simp only [releaseAll, release]
  by_cases h : p.free.length < p.limit
  · obtain ⟨n, hn⟩ : ∃ n, p.limit - p.free.length = n + 1 := ⟨p.limit - p.free.length - 1, by omega⟩
    have rest : p.limit - (p.free.length + 1) = n := by omega
    simp [h, hn, rest]
  · have full : p.limit - p.free.length = 0 := by omega
    simp [h, full]
    omega

/-- Giving back some buffers is giving them back one after the other. -/
theorem releaseAll_eq_foldl (p : Pool) (bs : List Buffer) :
    p.releaseAll bs = bs.foldl release p := by
  induction bs generalizing p with
  | nil => simp
  | cons b bs ih => rw [releaseAll_cons, ih, List.foldl_cons]

/-- Buffers may be given back in two goes. -/
theorem releaseAll_append (p : Pool) (bs cs : List Buffer) :
    p.releaseAll (bs ++ cs) = (p.releaseAll bs).releaseAll cs := by
  simp only [releaseAll_eq_foldl, List.foldl_append]

end Pool

end PathControl.Transport
