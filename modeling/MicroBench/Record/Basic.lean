import MicroBench.Binary64.Arithmetic
import MicroBench.Saturating

/-! The record of one benchmark run: counts, total time, the two rates that follow from
them, allocation figures and the time of each iteration if it was kept. -/
namespace MicroBench

structure Record where
  iterations : UInt64
  totalNanos : UInt64
  nanosPerOp : Binary64
  opsPerSec : Binary64
  bytesPerOp : UInt64
  allocsPerOp : UInt64
  /-- Nanoseconds of each iteration in the order of execution; empty if they were not kept. -/
  samples : List UInt64
deriving DecidableEq

def nanosPerSecond : Binary64 := .ofNat 1000000000

/-- Nanoseconds per iteration and iterations per second; both zero if nothing was measured. -/
def rates (iterations totalNanos : UInt64) : Binary64 × Binary64 :=
  if iterations = 0 ∨ totalNanos = 0 then (0, 0)
  else
    let nanosPerOp := .ofNat totalNanos.toNat / .ofNat iterations.toNat
    (nanosPerOp, nanosPerSecond / nanosPerOp)

namespace Record

/-- The record with these counts, the rates that follow from them, and no allocation figures. -/
def withTotals (iterations totalNanos : UInt64) (samples : List UInt64) : Record where
  iterations
  totalNanos
  nanosPerOp := (rates iterations totalNanos).1
  opsPerSec := (rates iterations totalNanos).2
  bytesPerOp := 0
  allocsPerOp := 0
  samples

/-- The record of a run of which only the total was kept. -/
def ofTotals (iterations totalNanos : UInt64) : Record := withTotals iterations totalNanos []

/-- The record of a run of which every iteration was kept. -/
def ofSamples (samples : List UInt64) : Record :=
  withTotals (.ofNat samples.length) (satSum samples) samples

def withAllocs (r : Record) (bytesPerOp allocsPerOp : UInt64) : Record :=
  { r with bytesPerOp, allocsPerOp }

/-- Agreement field by field, the rates compared as numbers: a NaN agrees with nothing, and the
two zeros agree. -/
def agrees (r s : Record) : Bool :=
  r.iterations == s.iterations && r.totalNanos == s.totalNanos &&
    r.nanosPerOp.numEq s.nanosPerOp && r.opsPerSec.numEq s.opsPerSec &&
    r.bytesPerOp == s.bytesPerOp && r.allocsPerOp == s.allocsPerOp && r.samples == s.samples

end Record

end MicroBench
