import PathControl.Error
import PathControl.Transport.Pool

/-!
# Network interfaces

A network interface moves whole frames in bursts and never blocks. It is given by its two bursts
over a state of its own:

* receiving draws buffers from a pool and appends the received frames, possibly before it fails;
* transmitting takes a number of frames off the front, possibly before it fails. The caller
  releases the frames taken and keeps the others.
-/

namespace PathControl.Transport

/-- The result of a receive burst. -/
structure RxBurst (σ : Type) where
  /-- State of the interface afterwards. -/
  nic : σ
  /-- The pool, less the buffers of the frames. -/
  pool : Pool
  /-- Frames received, in order. -/
  frames : List Buffer
  /-- Why the burst ended early, if it failed. -/
  failure : Option Error

/-- The result of a transmit burst. -/
structure TxBurst (σ : Type) where
  /-- State of the interface afterwards. -/
  nic : σ
  /-- How many frames were taken off the front. -/
  taken : Nat
  /-- Why the burst ended early, if it failed. -/
  failure : Option Error

/-- A network interface with states in `σ`. -/
structure Nic (σ : Type) where
  /-- Receives at most so many frames. -/
  rxBurst : σ → Pool → Nat → RxBurst σ
  /-- Transmits frames from the front of a list. -/
  txBurst : σ → List Buffer → TxBurst σ

end PathControl.Transport
