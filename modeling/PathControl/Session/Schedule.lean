import PathControl.Fault

/-!
# Schedules

Loops that share a state and take turns in time, which is counted in whole milliseconds. The loops
that are due take their turns in the order in which they went to rest. A loop that found work goes
on without a rest: once every loop that was due has had its turn, those that go on take another,
the last of them first. Time moves on when all loops rest.
-/

namespace PathControl

/-- What a turn of a loop leaves. -/
structure Turn (σ ι : Type) where
  state : σ
  /-- The loop as it is for its next turn. -/
  loop : ι
  /-- The millisecond until which the loop rests, or none if it goes on. -/
  rest : Option Nat
  deriving Repr

/-- Loops between their turns. -/
structure Schedule (σ ι : Type) where
  state : σ
  /-- Each loop with the millisecond at which it is due, in the order in which they went to rest. -/
  resting : List (Nat × ι)
  deriving Repr

namespace Schedule

variable {σ ι : Type}

/-- All loops are due at once. -/
def start (state : σ) (loops : List ι) : Schedule σ ι := ⟨state, loops.map fun l => (0, l)⟩

variable (turn : Nat → ι → σ → Checked (Turn σ ι)) (now : Nat)

/-- A turn for each of some loops. The loops that go on are put before `again`. -/
def pass (s : Schedule σ ι) (again : List ι) : List ι → Checked (Schedule σ ι × List ι)
  | [] => .ok (s, again)
  | loop :: loops => do
    let t ← turn now loop s.state
    match t.rest with
    | some due => pass ⟨t.state, s.resting ++ [(due, t.loop)]⟩ again loops
    | none => pass { s with state := t.state } (t.loop :: again) loops

/-- Passes until all loops rest. Loops that go on after `limit` passes have to rest until the next
millisecond. -/
def settle (limit : Nat) (s : Schedule σ ι) (loops : List ι) : Checked (Schedule σ ι) :=
  match limit, loops with
  | _, [] => .ok s
  | 0, loops => .ok { s with resting := s.resting ++ loops.map fun l => (now + 1, l) }
  | limit + 1, loops => do
    let (s, again) ← pass turn now s [] loops
    settle limit s again

/-- All that happens in a millisecond. -/
def tick (limit : Nat) (s : Schedule σ ι) : Checked (Schedule σ ι) :=
  let (due, resting) := s.resting.partition fun (due, _) => due ≤ now
  settle turn now limit { s with resting } (due.map Prod.snd)

/-- All that happens in some milliseconds. -/
def run (limit now : Nat) (s : Schedule σ ι) : Nat → Checked (Schedule σ ι)
  | 0 => .ok s
  | millis + 1 => do
    let s ← tick turn now limit s
    run limit (now + 1) s millis

end Schedule

end PathControl
