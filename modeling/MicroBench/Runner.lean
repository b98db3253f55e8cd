import MicroBench.Clock
import MicroBench.Record.Basic

/-! Runs of a thunk: some calls that warm up, then the measured calls, each between two
readings of the clock. The first call that fails ends the run. A panic of the thunk is a
matter of the monad it runs in, and goes through the runner untouched. -/
namespace MicroBench

/-- What a run works with: a clock, the thunk, and somewhere to report to. -/
structure Bench (m : Type → Type) (ε : Type) where
  now : m Instant
  call : m (Except ε Unit)
  log : Event → m Unit

structure Runner where
  /-- The time of every iteration is kept. -/
  captureSamples : Bool
deriving DecidableEq

structure Measured where
  totalNanos : UInt64
  /-- The times kept, last first. -/
  reversed : List UInt64
deriving DecidableEq

namespace Runner

variable {m : Type → Type} [Monad m] {ε : Type}

/-- Every run keeps its samples unless told otherwise. -/
def standard : Runner := ⟨true⟩

def runComplete (r : Record) (warmup : UInt64) : Event where
  level := .debug
  target := "poly_bench_harness::harness"
  message := "benchmark run complete"
  fields :=
    [("iterations", .count r.iterations), ("warmup", .count warmup),
      ("total_nanos", .count r.totalNanos), ("nanos_per_op", .number r.nanosPerOp)]

def add (runner : Runner) (measured : Measured) (nanos : UInt64) : Measured where
  totalNanos := satAdd measured.totalNanos nanos
  reversed := if runner.captureSamples then nanos :: measured.reversed else measured.reversed

def warmUp (bench : Bench m ε) : Nat → m (Except ε Unit)
  | 0 => pure (.ok ())
  | count + 1 => do
    match ← bench.call with
    | .error e => pure (.error e)
    | .ok () => warmUp bench count

/-- Calls between two readings of the clock each. The time of a failed call is taken, but it is not
added. -/
def measure (runner : Runner) (bench : Bench m ε) (measured : Measured) :
    Nat → m (Except ε Measured)
  | 0 => pure (.ok measured)
  | count + 1 => do
    let start ← bench.now
    let outcome ← bench.call
    let nanos ← Clock.elapsedNanos bench.now bench.log start
    match outcome with
    | .error e => pure (.error e)
    | .ok () => runner.measure bench (runner.add measured nanos) count

/-- A run of a thunk that may fail: the record, or the first error. -/
def tryRun (runner : Runner) (iterations warmup : UInt64) (bench : Bench m ε) :
    m (Except ε Record) := do
  match ← warmUp bench warmup.toNat with
  | .error e => pure (.error e)
  | .ok () =>
    match ← runner.measure bench ⟨0, []⟩ iterations.toNat with
    | .error e => pure (.error e)
    | .ok measured =>
      let record := Record.withTotals iterations measured.totalNanos measured.reversed.reverse
      bench.log (runComplete record warmup)
      pure (.ok record)

/-- A run of a thunk that cannot fail. -/
def run (runner : Runner) (iterations warmup : UInt64) (now : m Instant) (log : Event → m Unit)
    (call : m Unit) : m Record := do
  let bench : Bench m Empty := { now, log, call := do call; pure (.ok ()) }
  match ← runner.tryRun iterations warmup bench with
  | .ok record => pure record

end Runner

variable {m : Type → Type} [Monad m] {ε : Type}

def tryRunBenchmark (iterations warmup : UInt64) (bench : Bench m ε) : m (Except ε Record) :=
  Runner.standard.tryRun iterations warmup bench

def runBenchmark (iterations warmup : UInt64) (now : m Instant) (log : Event → m Unit)
    (call : m Unit) : m Record :=
  Runner.standard.run iterations warmup now log call

end MicroBench
