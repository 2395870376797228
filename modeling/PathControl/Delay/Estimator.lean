import PathControl.Error
import PathControl.Time.Duration

/-!
# Delay estimates

The last measured one-way delay of every path, and the path with the lowest one. A delay is the
difference of receive and send time plus a constant bias, which keeps it positive while the clocks
of the two hosts disagree by less than that.

The table keeps one word per path. The largest word marks a path that was never measured, so that
unmeasured paths lose to measured ones in the plain comparison of words, and no delay is recorded as
that word. Ties go to the lower path. A proposal of the peer can take the place of the best path
until the next measurement.

* `Estimator.delays`: the words, which the scan for the best path compares.
* `Estimator.measured?`, `Estimator.delay`: what the words stand for.
-/

namespace PathControl.Delay

/-- The word of a path that was never measured. -/
def unmeasured : UInt64 := 0xFFFF_FFFF_FFFF_FFFF

/-- The largest delay that is recorded; longer ones count as this. It leaves the word of unmeasured
paths free. -/
def longest : Nat := unmeasured.toNat - 1

/-- Delays per path and the best path. -/
structure Estimator where
  /-- Last recorded delay of each path, or `unmeasured`. -/
  delays : PathTable UInt64
  /-- The path to prefer. -/
  best : PathId
  /-- Nanoseconds added to every raw delay. -/
  bias : UInt64
  deriving DecidableEq, Repr

namespace Estimator

/-- The bias used unless another one is set. -/
def standardBias : Duration := .ofSeconds 1

/-- An estimator that has measured nothing. -/
def new (bias : Duration) : Estimator :=
  { delays := .filled unmeasured, best := .first, bias := bias.word }

/-- The biased delay of a packet. It must be a 64-bit number. -/
def measure (e : Estimator) (sent received : UInt64) : Except Error UInt64 :=
  let raw : Int := received.toNat - sent.toNat + e.bias.toNat
  if 0 ≤ raw ∧ raw < UInt64.size then .ok (UInt64.ofNat (min raw.toNat longest))
  else .error (.clockAnomaly (.delayOutOfRange sent received))

/-- The lowest path of least word. -/
def lowest (delays : PathTable UInt64) : PathId :=
  PathId.all.foldl (fun best p => if delays.get p < delays.get best then p else best) .first

/-- Records a probe of `path`. The answer is its delay. -/
def recordProbe (e : Estimator) (path : PathId) (sent received : UInt64) :
    Estimator × Except Error UInt64 :=
  match e.measure sent received with
  | .error cause => (e, .error cause)
  | .ok delay =>
    let delays := e.delays.set path delay
    ({ e with delays, best := lowest delays }, .ok delay)

/-- Prefers a path until the next measurement. -/
def adopt (e : Estimator) (path : PathId) : Estimator := { e with best := path }

/-- The delay that a word of the table stands for, unless its path was never measured. -/
def measured? (word : UInt64) : Option UInt64 := (some word).filter (· ≠ unmeasured)

/-- The last recorded delay of a path. -/
def delay (e : Estimator) (path : PathId) : Option UInt64 := measured? (e.delays.get path)

/-- The last recorded delays of all paths, in path order. -/
def snapshot (e : Estimator) : List (Option UInt64) := PathId.all.map e.delay

end Estimator

end PathControl.Delay
