import MicroBench.Record.Basic
import MicroBench.Record.Field
import MicroBench.Decimal.Layout

/-! When a record is well formed: finite rates that are not negative, rates that agree
with the totals, and samples that agree with both. The first defect found is reported. -/
namespace MicroBench

inductive Reason where
  | notFinite (value : Binary64)
  | negative (value : Binary64)
  | timeWithoutIterations (totalNanos : UInt64)
  | nonzeroWithoutIterations (value : Binary64)
  | nonzeroBelowResolution (value : Binary64)
  | offTotals (value expected : Binary64)
  | offPeriod (value nanosPerOp : Binary64)
  | sampleCount (count : Nat) (iterations : UInt64)
  | sampleSum (totalNanos : UInt64)
deriving DecidableEq

structure Defect where
  field : Field
  reason : Reason
deriving DecidableEq

namespace Reason

private def number (x : Binary64) : String := .ofList (Layout.plain.renderNumber x)

def message : Reason → String
  | notFinite value => s!"is not finite ({number value})"
  | negative value => s!"is negative ({number value})"
  | timeWithoutIterations total => s!"is {total} with zero iterations"
  | nonzeroWithoutIterations value => s!"must be 0 with zero iterations (got {number value})"
  | nonzeroBelowResolution value => s!"must be 0 below clock resolution (got {number value})"
  | offTotals value expected =>
    s!"is {number value} but total_nanos / iterations is {number expected}"
  | offPeriod value period => s!"is {number value} but nanos_per_op is {number period}"
  | sampleCount count iterations => s!"has {count} entries but iterations is {iterations}"
  | sampleSum total => s!"do not sum to total_nanos ({total})"

end Reason

namespace Record

/-- The first rate, of the two, to which `check` objects. -/
def eachRate (r : Record) (check : Binary64 → Option Reason) : Option Defect :=
  ((check r.nanosPerOp).map (⟨.nanosPerOp, ·⟩)).or
    ((check r.opsPerSec).map (⟨.opsPerSec, ·⟩))

/-- A rate must be finite and not negative. -/
def rangeReason (value : Binary64) : Option Reason :=
  if !value.isFinite then some (.notFinite value)
  else if value.lt 0 then some (.negative value)
  else none

/-- How far nanoseconds per iteration may be off: a billionth of the total, or of one. -/
def periodTolerance (totalNanos : UInt64) : Binary64 :=
  .ofRatio 1 1000000000 * (Binary64.ofNat totalNanos.toNat).max (.ofNat 1)

/-- How far the product of the rates may be off a second: a millionth of it. -/
def productTolerance : Binary64 := .ofRatio 1 1000000 * nanosPerSecond

/-- What the rates say against the totals. -/
def rateDefect? (r : Record) : Option Defect :=
  if r.iterations = 0 then
    if r.totalNanos ≠ 0 then some ⟨.totalNanos, .timeWithoutIterations r.totalNanos⟩
    else
      r.eachRate fun value =>
        if value.numEq 0 then none else some (.nonzeroWithoutIterations value)
  else
    let expected := .ofNat r.totalNanos.toNat / .ofNat r.iterations.toNat
    if (periodTolerance r.totalNanos).lt (r.nanosPerOp - expected).abs then
      some ⟨.nanosPerOp, .offTotals r.nanosPerOp expected⟩
    else if Binary64.lt 0 r.nanosPerOp then
      if productTolerance.lt (r.opsPerSec * r.nanosPerOp - nanosPerSecond).abs then
        some ⟨.opsPerSec, .offPeriod r.opsPerSec r.nanosPerOp⟩
      else none
    else
      r.eachRate fun value =>
        if value.numEq 0 then none else some (.nonzeroBelowResolution value)

/-- What the samples, if there are any, say against the totals. -/
def sampleDefect? (r : Record) : Option Defect :=
  if r.samples = [] then none
  else if UInt64.ofNat r.samples.length ≠ r.iterations then
    some ⟨.samples, .sampleCount r.samples.length r.iterations⟩
  else if satSum r.samples ≠ r.totalNanos then some ⟨.samples, .sampleSum r.totalNanos⟩
  else none

def defect? (r : Record) : Option Defect :=
  (r.eachRate rangeReason).or (r.rateDefect?.or r.sampleDefect?)

def WellFormed (r : Record) : Prop := r.defect? = none

instance (r : Record) : Decidable r.WellFormed := inferInstanceAs (Decidable (_ = _))

end Record

end MicroBench
