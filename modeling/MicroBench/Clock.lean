import MicroBench.Event
import MicroBench.Saturating

/-! Readings of a monotonic clock and the time between them. A clock that appears to
run backwards counts as standing still. -/
namespace MicroBench

structure Instant where
  seconds : Int
  nanos : Nat
  nanos_lt : nanos < 1000000000
deriving DecidableEq

namespace Instant

/-- The instant that many seconds and nanoseconds after the origin of the clock. -/
def ofParts (seconds nanos : Nat) : Instant :=
  ⟨seconds + nanos / 1000000000, nanos % 1000000000, Nat.mod_lt _ (by decide)⟩

/-- One reading precedes another: by seconds, then by nanoseconds. -/
def before (a b : Instant) : Bool :=
  a.seconds < b.seconds || (a.seconds == b.seconds && a.nanos < b.nanos)

/-- The nanoseconds from `start` to `stop`, where `stop` does not precede `start`. A second is
borrowed if the nanoseconds within it went down. -/
def nanosUntil (start stop : Instant) : Nat :=
  let seconds := (stop.seconds - start.seconds).toNat
  if start.nanos ≤ stop.nanos then seconds * 1000000000 + (stop.nanos - start.nanos)
  else (seconds - 1) * 1000000000 + (stop.nanos + 1000000000 - start.nanos)

end Instant

namespace Clock

def wentBackwards : Event where
  level := .trace
  target := "poly_bench_harness::clock"
  message := "clock went backwards, clamping delta to zero"
  fields := []

/-- The nanoseconds from `start` to `stop`, zero if `stop` precedes `start`, and at most a word. -/
def nanosBetween (start stop : Instant) : UInt64 :=
  if stop.before start then 0 else clampToWord (start.nanosUntil stop)

def eventsBetween (start stop : Instant) : List Event :=
  if stop.before start then [wentBackwards] else []

variable {m : Type → Type} [Monad m]

/-- Reads the clock and takes the nanoseconds since `start`. -/
def elapsedNanos (now : m Instant) (log : Event → m Unit) (start : Instant) : m UInt64 := do
  let stop ← now
  (eventsBetween start stop).forM log
  pure (nanosBetween start stop)

def measureOnce (now : m Instant) (log : Event → m Unit) (call : m Unit) : m UInt64 := do
  let start ← now
  call
  elapsedNanos now log start

end Clock

end MicroBench
