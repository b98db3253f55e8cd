import MicroBench.Proofs.Binary64.Order
import MicroBench.Proofs.Record.Resolution
import MicroBench.Proofs.Saturating

/-! The check of a record against the contract in exact arithmetic. The check is made with
rounded numbers, so the two part ways at the edge of the tolerances: what is accepted
meets the contract with a little more room, and what meets it with a little less is
accepted. Nothing is assumed of the size of the rates. -/
namespace MicroBench

open Binary64

namespace Record

variable {r : Record}

structure Rated (r : Record) : Prop where
  finite : r.nanosPerOp.isFinite ∧ r.opsPerSec.isFinite
  nonneg : 0 ≤ r.nanosPerOp.value ∧ 0 ≤ r.opsPerSec.value

/-- Samples that are there are one for each iteration, and add up to the total. -/
def SamplesAddUp (r : Record) : Prop :=
  r.samples = [] ∨ r.samples.length = r.iterations.toNat ∧
    min (r.samples.map UInt64.toNat).sum largestWord = r.totalNanos.toNat

/-- The contract of a record with iterations, in exact arithmetic. The period is off by no more than
`room` for each nanosecond of the total, or of one, and the product of the rates is off a second by
no more than `room'` nanoseconds. -/
structure Meets (r : Record) (room room' : ℚ) : Prop where
  period : |r.nanosPerOp.value - r.totalNanos.toNat / r.iterations.toNat| ≤
    room * (max r.totalNanos.toNat 1 : ℕ)
  rates : r.nanosPerOp.value = 0 ∧ r.opsPerSec.value = 0 ∨
    0 < r.nanosPerOp.value ∧ |r.opsPerSec.value * r.nanosPerOp.value - 1000000000| ≤ room'
  samples : r.SamplesAddUp

/-! ### What an accepted record meets -/

theorem expected_nonneg (n t : UInt64) (hn : n ≠ 0) :
    0 ≤ (ofNat t.toNat / ofNat n.toNat).value := by
  by_cases ht : t = 0
  · have positive := (within_word n).2.pos (zero_lt_one.trans_le (one_le_cast_toNat hn))
    rw [ht, UInt64.toNat_zero, ofNat_zero, zero_div_of_pos positive, value_zero]
  · exact (expected_pos hn ht).le

theorem period_near (running : r.iterations ≠ 0) (finite : r.nanosPerOp.isFinite)
    (nonneg : 0 ≤ r.nanosPerOp.value)
    (accepted : (periodTolerance r.totalNanos).lt
      (r.nanosPerOp - ofNat r.totalNanos.toNat / ofNat r.iterations.toNat).abs = false) :
    |r.nanosPerOp.value - r.totalNanos.toNat / r.iterations.toNat| ≤
      (1 / 1000000000 + 1 / 2 ^ 50) * (max r.totalNanos.toNat 1 : ℕ) := by
  obtain ⟨finite', near⟩ := expected_near running r.totalNanos
  have tolerance := within_periodTolerance r.totalNanos
  obtain ⟨least, -⟩ := larger_one_bounds r.totalNanos
  have found := le_of_not_beyond (isFinite_of_value_pos (tolerance.pos (by linarith))) finite
    finite' nonneg (expected_nonneg _ _ running) accepted
  have distance := abs_sub_le r.nanosPerOp.value
    (ofNat r.totalNanos.toNat / ofNat r.iterations.toNat).value
    ((r.totalNanos.toNat : ℚ) / r.iterations.toNat)
  have upper := tolerance.le
  generalize ((max r.totalNanos.toNat 1 : ℕ) : ℚ) = total at *
  norm_num [roundingFactor] at near found upper ⊢
  linarith

/-- A product that overflows is beyond the tolerance. -/
theorem product_finite (positive : 0 < r.nanosPerOp.value) (positive' : 0 < r.opsPerSec.value)
    (accepted : productTolerance.lt (r.opsPerSec * r.nanosPerOp - nanosPerSecond).abs = false) :
    (r.opsPerSec * r.nanosPerOp).isFinite := by
  by_contra overflow
  have finite := isFinite_of_value_pos (within_productTolerance.pos (by norm_num))
  have second : nanosPerSecond.isFinite := by decide +kernel
  rw [mul_eq_infinite positive' positive overflow, abs_infinite_sub second,
    lt_infinite finite] at accepted
  cases accepted

/-- A product that is accepted is large, so it was rounded once, whatever the rates are. -/
theorem product_near (positive : 0 < r.nanosPerOp.value) (positive' : 0 < r.opsPerSec.value)
    (accepted : productTolerance.lt (r.opsPerSec * r.nanosPerOp - nanosPerSecond).abs = false) :
    |r.opsPerSec.value * r.nanosPerOp.value - 1000000000| ≤ 1000001 / 1000 := by
  have finite := product_finite positive positive' accepted
  have tolerance := within_productTolerance
  have second : nanosPerSecond.isFinite ∧ 0 ≤ nanosPerSecond.value := by
    rw [value_nanosPerSecond]
    exact ⟨by decide +kernel, by norm_num⟩
  have found := le_of_not_beyond (isFinite_of_value_pos (tolerance.pos (by norm_num))) finite
    second.1 (value_mul_nonneg positive' positive) second.2 accepted
  rw [value_nanosPerSecond] at found
  have upper := tolerance.le
  have large : 1 ≤ (r.opsPerSec * r.nanosPerOp).value := by
    have lower := (abs_le.1 found).1
    norm_num [roundingFactor] at upper lower
    linarith
  have near := within_mul_of_large positive' positive finite large
  obtain ⟨lower, upper'⟩ := abs_le.1 found
  have below := near.le
  have above := near.ge
  norm_num [roundingFactor] at upper lower upper' below above
  rw [abs_le]
  constructor <;> linarith

/-! ### The verdict -/

/-- No list is so long that its length does not fit into a word. -/
theorem sampleDefect?_of_fits (fits : r.samples.length < 2 ^ 64) :
    r.sampleDefect? = none ↔ r.SamplesAddUp := by
  have length : (UInt64.ofNat r.samples.length).toNat = r.samples.length := by
    rw [UInt64.toNat_ofNat', Nat.mod_eq_of_lt fits]
  rw [sampleDefect?_eq_none_iff, SamplesAddUp, ← UInt64.toNat_inj, ← UInt64.toNat_inj, length,
    toNat_satSum]

theorem Rated.of_wellFormed (accepted : r.WellFormed) : r.Rated := by
  obtain ⟨⟨finite, nonneg⟩, ⟨finite', nonneg'⟩, -⟩ := wellFormed_iff.1 accepted
  exact ⟨⟨finite, finite'⟩, ⟨nonneg, nonneg'⟩⟩

theorem Rated.wellFormed_iff (rated : r.Rated) (fits : r.samples.length < 2 ^ 64) :
    r.WellFormed ↔ r.rateDefect? = none ∧ r.SamplesAddUp := by
  rw [Record.wellFormed_iff, sampleDefect?_of_fits fits]
  simp only [rated.finite, rated.nonneg, and_self, true_and]

theorem samplesAddUp_of_idle (idle : r.iterations = 0) (total : r.totalNanos = 0) :
    r.SamplesAddUp ↔ r.samples = [] := by
  rw [SamplesAddUp, idle, total, UInt64.toNat_zero, List.length_eq_zero_iff]
  exact ⟨fun h => h.elim id And.left, .inl⟩

theorem wellFormed_of_idle (idle : r.iterations = 0) (rated : r.Rated)
    (fits : r.samples.length < 2 ^ 64) :
    r.WellFormed ↔ r.totalNanos = 0 ∧ r.nanosPerOp.value = 0 ∧ r.opsPerSec.value = 0 ∧
      r.samples = [] := by
  rw [rated.wellFormed_iff fits, rateDefect?_of_idle idle, numEq_zero_iff rated.finite.1,
    numEq_zero_iff rated.finite.2]
  constructor
  · rintro ⟨⟨total, zero, zero'⟩, samples⟩
    exact ⟨total, zero, zero', (samplesAddUp_of_idle idle total).1 samples⟩
  · rintro ⟨total, zero, zero', samples⟩
    exact ⟨⟨total, zero, zero'⟩, .inl samples⟩

/-- What is accepted meets the contract with a little more room. -/
theorem meets_of_wellFormed (running : r.iterations ≠ 0) (fits : r.samples.length < 2 ^ 64)
    (accepted : r.WellFormed) :
    r.Meets (1 / 1000000000 + 1 / 2 ^ 50) (1000001 / 1000) := by
  have rated := Rated.of_wellFormed accepted
  obtain ⟨rates, samples⟩ := (rated.wellFormed_iff fits).1 accepted
  obtain ⟨near, product⟩ := (rateDefect?_of_running running rated.finite.1 rated.finite.2).1 rates
  refine ⟨period_near running rated.finite.1 rated.nonneg.1 near, ?_, samples⟩
  by_cases positive : 0 < r.nanosPerOp.value
  · right
    rw [if_pos positive] at product
    have positive' := opsPerSec_pos rated.finite.1 rated.finite.2 rated.nonneg.2 product
    exact ⟨positive, product_near positive positive' product⟩
  · left
    rwa [if_neg positive] at product

/-- What meets the contract with a little less room is accepted. -/
theorem wellFormed_of_meets (running : r.iterations ≠ 0) (rated : r.Rated)
    (fits : r.samples.length < 2 ^ 64)
    (meets : r.Meets (1 / 1000000000 - 1 / 2 ^ 50) (999999 / 1000)) : r.WellFormed :=
  (rated.wellFormed_iff fits).2
    ⟨rateDefect?_eq_none running rated.finite.1 rated.finite.2 meets.period meets.rates,
      meets.samples⟩

/-- The verdict of the check against the contract in exact arithmetic. A rate that is a NaN,
infinite or negative is never accepted. Without iterations the check decides the contract; with
them, what is accepted meets it with a hair's breadth more room, and what meets it with one less is
accepted. -/
theorem verdict_up_to_rounding (r : Record) (fits : r.samples.length < 2 ^ 64) :
    (r.WellFormed → r.Rated) ∧
      (r.iterations = 0 → r.Rated → (r.WellFormed ↔ r.totalNanos = 0 ∧
        r.nanosPerOp.value = 0 ∧ r.opsPerSec.value = 0 ∧ r.samples = [])) ∧
      (r.iterations ≠ 0 → r.WellFormed →
        r.Meets (1 / 1000000000 + 1 / 2 ^ 50) (1000001 / 1000)) ∧
      (r.iterations ≠ 0 → r.Rated → r.Meets (1 / 1000000000 - 1 / 2 ^ 50) (999999 / 1000) →
        r.WellFormed) := by
  refine ⟨Rated.of_wellFormed, ?_, ?_, ?_⟩
  · intro idle rated
    exact wellFormed_of_idle idle rated fits
  · intro running accepted
    exact meets_of_wellFormed running fits accepted
  · intro running rated meets
    exact wellFormed_of_meets running rated fits meets

/-- The period leaves out half a nanosecond of what it should be. -/
theorem verdict_up_to_rounding_halfSeconds :
    halfSeconds.samples.length < 2 ^ 64 ∧ halfSeconds.WellFormed ∧
      halfSeconds.Meets (1 / 1000000000 + 1 / 2 ^ 50) (1000001 / 1000) := by
  have fits : halfSeconds.samples.length < 2 ^ 64 := by decide
  have running : halfSeconds.iterations ≠ 0 := by decide
  obtain ⟨period, perSecond⟩ := halfSeconds_rates
  obtain ⟨total, count⟩ := halfSeconds_counts
  have rated : halfSeconds.Rated := by
    refine ⟨⟨by decide +kernel, by decide +kernel⟩, ?_, ?_⟩
    · rw [period]
      norm_num
    · rw [perSecond]
      norm_num
  have meets : halfSeconds.Meets (1 / 1000000000 - 1 / 2 ^ 50) (999999 / 1000) := by
    refine ⟨?_, .inr ⟨?_, ?_⟩, .inr (by decide)⟩
    · rw [period, total, count]
      norm_num
    · rw [period]
      norm_num
    · rw [period, perSecond]
      norm_num
  obtain ⟨-, -, sound, complete⟩ := verdict_up_to_rounding halfSeconds fits
  have accepted := complete running rated meets
  exact ⟨fits, accepted, sound running accepted⟩

end Record

end MicroBench
