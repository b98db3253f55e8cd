import MicroBench.Decimal.Fixed
import MicroBench.Record.Basic

/-! Figures for people: a number in the largest unit that it reaches, with a fixed
number of decimal places. -/
namespace MicroBench

/-- A unit of display: how many base units it is, and how a figure in it is written. -/
structure Scale where
  size : Nat
  places : Nat
  symbol : String
deriving DecidableEq

namespace Scale

def render (scale : Scale) (value : Binary64) : String :=
  .ofList (Fixed.render scale.places (value / .ofNat scale.size)) ++ scale.symbol

/-- The unit for a duration in nanoseconds. What compares with nothing is shown in seconds. -/
def ofDuration (nanos : Binary64) : Scale :=
  if nanos.lt (.ofNat 1000) then ⟨1, 2, " ns"⟩
  else if nanos.lt (.ofNat 1000000) then ⟨1000, 2, " µs"⟩
  else if nanos.lt (.ofNat 1000000000) then ⟨1000000, 2, " ms"⟩
  else ⟨1000000000, 3, " s"⟩

/-- `value` is at least the whole number `bound`; false of a NaN. -/
def reaches (value : Binary64) (bound : Nat) : Bool :=
  (Binary64.ofNat bound).lt value || (Binary64.ofNat bound).numEq value

/-- The unit for a rate per second. What compares with nothing is shown in single operations. -/
def ofRate (ops : Binary64) : Scale :=
  if reaches ops 1000000000 then ⟨1000000000, 2, "B ops/s"⟩
  else if reaches ops 1000000 then ⟨1000000, 2, "M ops/s"⟩
  else if reaches ops 1000 then ⟨1000, 2, "K ops/s"⟩
  else ⟨1, 2, " ops/s"⟩

end Scale

def formatDuration (nanos : Binary64) : String := (Scale.ofDuration nanos).render nanos

def formatRate (ops : Binary64) : String := (Scale.ofRate ops).render ops

/-- One line that sums the record up. -/
def Record.summary (r : Record) : String :=
  s!"{r.iterations} iters, {formatDuration r.nanosPerOp}/op, {formatRate r.opsPerSec}"

end MicroBench
