import PathControl.Transport.Nic

/-!
# Scripted interfaces

An interface whose bursts are told in advance, for exercising its users with any mix of partial
success and failure. A burst without a script receives nothing, or transmits everything.
-/

namespace PathControl.Transport

open PathControl.Wire

/-- The outcome of a receive burst: all frames are received, then it fails if told to. -/
structure RxScript where
  frames : List Bytes
  failure : Option String
  deriving DecidableEq, Repr

/-- The outcome of a transmit burst: so many frames are taken, then it fails if told to. -/
structure TxScript where
  take : Nat
  failure : Option String
  deriving DecidableEq, Repr

/-- An interface that plays scripts and notes what it is asked and given. -/
structure ScriptedNic where
  /-- Receive bursts to come. -/
  rx : List RxScript
  /-- Transmit bursts to come. -/
  tx : List TxScript
  /-- Frames taken so far. -/
  sent : List Bytes
  /-- The limits that receive bursts were called with. -/
  asked : List Nat
  deriving DecidableEq, Repr

namespace ScriptedNic

/-- No script. -/
def new : ScriptedNic := ⟨[], [], [], []⟩

/-- Plays the next receive script. It fails for lack of buffers before it fails as told. -/
def rxBurst (n : ScriptedNic) (pool : Pool) (room : Nat) : RxBurst ScriptedNic :=
  let n := { n with asked := n.asked ++ [room] }
  match n.rx with
  | [] => { nic := n, pool, frames := [], failure := none }
  | script :: rx =>
    let (pool, frames) := pool.load script.frames
    let told := script.failure.map fun reason => Error.transport (.receiveFailed reason)
    { nic := { n with rx }
      pool
      frames
      failure := if frames.length < script.frames.length then some .buffersExhausted else told }

/-- Plays the next transmit script. -/
def txBurst (n : ScriptedNic) (frames : List Buffer) : TxBurst ScriptedNic :=
  match n.tx with
  | [] =>
    { nic := { n with sent := n.sent ++ frames.map Buffer.contents }
      taken := frames.length
      failure := none }
  | script :: tx =>
    let taken := min script.take frames.length
    { nic := { n with tx, sent := n.sent ++ (frames.take taken).map Buffer.contents }
      taken
      failure := script.failure.map fun reason => .transport (.sendFailed reason) }

/-- The interface that plays the scripts. -/
def nic : Nic ScriptedNic where
  rxBurst := rxBurst
  txBurst := txBurst

end ScriptedNic

end PathControl.Transport
