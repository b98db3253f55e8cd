import MicroBench.Proofs.Record.Construction
import MicroBench.Failure

/-! What the rates of a well-formed record say about time that was or was not measured.
The tolerance for the period is a share of the total, not of the period itself: once there
are more than a billion iterations, zero is near enough to any period, and without any
time a small period is near enough to zero. -/
namespace MicroBench

open Binary64

namespace Record

variable {r : Record} {n t : UInt64}

/-- The rates are positive if a run with iterations took time, and zero if not. -/
structure RatesMeasured (r : Record) : Prop where
  positive : 0 < r.iterations → 0 < r.totalNanos →
    0 < r.nanosPerOp.value ∧ 0 < r.opsPerSec.value
  zero : r.iterations = 0 ∨ r.totalNanos = 0 →
    r.nanosPerOp.value = 0 ∧ r.opsPerSec.value = 0

/-- The period of these totals, as it is computed, is beyond the tolerance that they leave. -/
def PeriodTold (n t : UInt64) : Prop :=
  (periodTolerance t).lt (ofNat t.toNat / ofNat n.toNat) = true

/-! ### What the check comes to -/

/-- The check of the rates of a run of one iteration or more. -/
theorem rateDefect?_of_running (running : r.iterations ≠ 0) (finite : r.nanosPerOp.isFinite)
    (finite' : r.opsPerSec.isFinite) :
    r.rateDefect? = none ↔
      (periodTolerance r.totalNanos).lt
          (r.nanosPerOp - ofNat r.totalNanos.toNat / ofNat r.iterations.toNat).abs = false ∧
        if 0 < r.nanosPerOp.value then
          productTolerance.lt (r.opsPerSec * r.nanosPerOp - nanosPerSecond).abs = false
        else r.nanosPerOp.value = 0 ∧ r.opsPerSec.value = 0 := by
  have sign : Binary64.lt 0 r.nanosPerOp = true ↔ 0 < r.nanosPerOp.value := by
    rw [lt_iff isFinite_zero finite, value_zero]
  have zeros : r.eachRate (fun value =>
      if value.numEq 0 then none else some (.nonzeroBelowResolution value)) = none ↔
        r.nanosPerOp.value = 0 ∧ r.opsPerSec.value = 0 := by
    rw [eachRate_eq_none_iff, ← numEq_zero_iff finite, ← numEq_zero_iff finite']
    simp
  rw [rateDefect?, if_neg running]
  simp only [sign]
  split
  · simp_all
  · split
    · split
      · simp_all
      · simp_all
    · simp_all

/-- A second is the product of no number and zero. -/
theorem opsPerSec_pos (finite : r.nanosPerOp.isFinite) (finite' : r.opsPerSec.isFinite)
    (nonneg : 0 ≤ r.opsPerSec.value)
    (product : productTolerance.lt (r.opsPerSec * r.nanosPerOp - nanosPerSecond).abs = false) :
    0 < r.opsPerSec.value := by
  apply nonneg.lt_of_ne
  intro zero
  obtain ⟨finite, vanishes⟩ := value_zero_mul finite' zero.symm finite
  have second : nanosPerSecond.isFinite := by decide +kernel
  have beyond : productTolerance.lt nanosPerSecond.abs = true := by decide +kernel
  rw [abs_sub_of_value_zero finite vanishes second, beyond] at product
  cases product

/-- One rate of a well-formed record is zero just if the other one is. -/
theorem rates_zero_or_pos (accepted : r.WellFormed) :
    r.nanosPerOp.value = 0 ∧ r.opsPerSec.value = 0 ∨
      0 < r.nanosPerOp.value ∧ 0 < r.opsPerSec.value := by
  obtain ⟨⟨finite, -⟩, ⟨finite', nonneg⟩, rates, -⟩ := wellFormed_iff.1 accepted
  by_cases idle : r.iterations = 0
  · obtain ⟨-, period, perSecond⟩ := (rateDefect?_of_idle idle).1 rates
    exact .inl ⟨(numEq_zero_iff finite).1 period, (numEq_zero_iff finite').1 perSecond⟩
  · obtain ⟨-, product⟩ := (rateDefect?_of_running idle finite finite').1 rates
    split at product
    next positive => exact .inr ⟨positive, opsPerSec_pos finite finite' nonneg product⟩
    next => exact .inl product

/-! ### Time that was measured -/

theorem expected_pos (hn : n ≠ 0) (ht : t ≠ 0) : 0 < (ofNat t.toNat / ofNat n.toNat).value :=
  (within_quotient hn ht).pos (lt_of_lt_of_le (by norm_num) (quotient_bounds hn ht).1)

/-- From a period of zero, the expected one is as far off as it is long. -/
theorem abs_sub_expected {x : Binary64} (finite : x.isFinite) (zero : x.value = 0) (hn : n ≠ 0)
    (ht : t ≠ 0) :
    (x - ofNat t.toNat / ofNat n.toNat).abs = ofNat t.toNat / ofNat n.toNat := by
  have positive := expected_pos hn ht
  rw [abs_sub_of_value_zero finite zero (isFinite_of_value_pos positive),
    abs_of_value_pos positive]

/-- Rates that could be told from zero are positive in a well-formed record. -/
theorem rates_pos_of_told (accepted : r.WellFormed) (running : r.iterations ≠ 0)
    (timed : r.totalNanos ≠ 0) (told : PeriodTold r.iterations r.totalNanos) :
    0 < r.nanosPerOp.value ∧ 0 < r.opsPerSec.value := by
  apply (rates_zero_or_pos accepted).resolve_left
  rintro ⟨zero, -⟩
  obtain ⟨⟨finite, -⟩, ⟨finite', -⟩, rates, -⟩ := wellFormed_iff.1 accepted
  obtain ⟨near, -⟩ := (rateDefect?_of_running running finite finite').1 rates
  rw [abs_sub_expected finite zero running timed, told] at near
  cases near

def unrated (n t : UInt64) : Record := ⟨n, t, 0, 0, 0, 0, []⟩

/-- A record may leave out rates that could not be told from zero. -/
theorem unrated_wellFormed (hn : n ≠ 0) (ht : t ≠ 0) (untold : ¬ PeriodTold n t) :
    (unrated n t).WellFormed := by
  have range : (0 : Binary64).isFinite ∧ 0 ≤ (0 : Binary64).value := ⟨rfl, value_zero.ge⟩
  have near : (periodTolerance t).lt (0 - ofNat t.toNat / ofNat n.toNat).abs = false := by
    rw [abs_sub_expected range.1 value_zero hn ht]
    exact Bool.eq_false_iff.2 untold
  refine wellFormed_iff.2 ⟨range, range, ?_, sampleDefect?_eq_none_iff.2 (.inl rfl)⟩
  refine (rateDefect?_of_running hn range.1 range.1).2 ⟨near, ?_⟩
  have zero : (unrated n t).nanosPerOp.value = 0 := value_zero
  rw [if_neg zero.not_gt]
  exact ⟨zero, zero⟩

/-! ### Time that was not measured -/

/-- A record without any time, and with a period of a tenth of the tolerance. -/
def untimed (n : UInt64) : Record where
  iterations := n
  totalNanos := 0
  nanosPerOp := .ofRatio 1 10000000000
  opsPerSec := .ofNat 10000000000000000000
  bytesPerOp := 0
  allocsPerOp := 0
  samples := []

theorem within_untimed (n : UInt64) :
    Within 1 (untimed n).nanosPerOp.value (1 / 10000000000) ∧
      Within 1 (untimed n).opsPerSec.value 10000000000000000000 := by
  have period : Within 1 (ofRatio 1 10000000000).value (1 / 10000000000) := by
    have near := @within_ofRatio 1 10000000000 (by norm_num)
      (normal_of_moderate (by norm_num) (by norm_num))
    simpa using near
  have perSecond : Within 1 (ofNat 10000000000000000000).value 10000000000000000000 := by
    have near := (@within_ofNat_moderate 10000000000000000000 (by norm_num)).2
    simpa using near
  simp only [untimed]
  exact ⟨period, perSecond⟩

theorem untimed_pos (n : UInt64) :
    0 < (untimed n).nanosPerOp.value ∧ 0 < (untimed n).opsPerSec.value :=
  ⟨(within_untimed n).1.pos (by norm_num), (within_untimed n).2.pos (by norm_num)⟩

/-- A record may have positive rates although no time was measured. -/
theorem untimed_wellFormed (hn : n ≠ 0) : (untimed n).WellFormed := by
  obtain ⟨near, near'⟩ := within_untimed n
  obtain ⟨positive, positive'⟩ := untimed_pos n
  have finite := isFinite_of_value_pos positive
  have finite' := isFinite_of_value_pos positive'
  refine wellFormed_iff.2 ⟨⟨finite, positive.le⟩, ⟨finite', positive'.le⟩, ?_,
    sampleDefect?_eq_none_iff.2 (.inl rfl)⟩
  apply rateDefect?_eq_none hn finite finite'
  · have upper := near.le
    have quotient : ((untimed n).totalNanos.toNat : ℚ) / (untimed n).iterations.toNat = 0 := by
      rw [untimed, UInt64.toNat_zero, Nat.cast_zero, zero_div]
    have one : max (untimed n).totalNanos.toNat 1 = 1 := by
      rw [untimed, UInt64.toNat_zero, Nat.max_eq_right Nat.one_pos.le]
    rw [PeriodAgrees, quotient, sub_zero, abs_of_pos positive, one]
    norm_num [roundingFactor] at upper ⊢
    linarith
  · right
    have product := near'.mul near positive'.le (by norm_num) positive.le (by norm_num)
    norm_num only at product
    exact ⟨positive, productAgrees_of_within
      (product.mono (by norm_num) (mul_pos positive' positive).le (by norm_num))⟩

/-! ### How many iterations hide a period -/

/-- If quotients of one total are no further apart than six roundings, nor are the divisors. -/
theorem divisor_le (ht : t ≠ 0) {a b : ℚ} (ha : 0 < a) (hb : 0 < b)
    (le : (t.toNat : ℚ) / a ≤ t.toNat / b * roundingFactor ^ 6) :
    b ≤ a * roundingFactor ^ 6 := by
  have pos : (0 : ℚ) < t.toNat := zero_lt_one.trans_le (one_le_cast_toNat ht)
  rw [div_le_iff₀ ha] at le
  have cleared : (t.toNat : ℚ) / b * roundingFactor ^ 6 * a * b =
      t.toNat * (a * roundingFactor ^ 6) := by
    field_simp
  have := mul_le_mul_of_nonneg_right le hb.le
  rw [cleared] at this
  exact le_of_mul_le_mul_left this pos

theorem within_periodTolerance_of_timed (ht : t ≠ 0) :
    Within 3 (periodTolerance t).value (t.toNat / 1000000000) := by
  have one : 1 ≤ t.toNat := by exact_mod_cast one_le_cast_toNat ht
  have near := within_periodTolerance t
  rwa [Nat.max_eq_left one] at near

theorem periodTold_iff (hn : n ≠ 0) (ht : t ≠ 0) :
    PeriodTold n t ↔
      (periodTolerance t).value < (ofNat t.toNat / ofNat n.toNat).value := by
  have pos : (0 : ℚ) < t.toNat := zero_lt_one.trans_le (one_le_cast_toNat ht)
  have tolerance := (within_periodTolerance_of_timed ht).pos (div_pos pos (by norm_num))
  exact lt_iff (isFinite_of_value_pos tolerance) (isFinite_of_value_pos (expected_pos hn ht))

/-- Below a billion iterations, every period can be told from zero. -/
theorem periodTold_of_few (hn : n ≠ 0) (ht : t ≠ 0) (few : n.toNat < 1000000000) :
    PeriodTold n t := by
  have tolerance := within_periodTolerance_of_timed ht
  have expected := within_quotient hn ht
  rw [periodTold_iff hn ht]
  by_contra untold
  have count : (n.toNat : ℚ) ≤ 999999999 := by exact_mod_cast Nat.le_of_lt_succ few
  have positive : (0 : ℚ) < n.toNat := zero_lt_one.trans_le (one_le_cast_toNat hn)
  have factor := roundingFactor_pow_nonneg 3
  have apart : (t.toNat : ℚ) / n.toNat ≤ t.toNat / 1000000000 * roundingFactor ^ 6 :=
    calc (t.toNat : ℚ) / n.toNat
        ≤ (ofNat t.toNat / ofNat n.toNat).value * roundingFactor ^ 3 := expected.ge
      _ ≤ (periodTolerance t).value * roundingFactor ^ 3 :=
          mul_le_mul_of_nonneg_right (not_lt.1 untold) factor
      _ ≤ t.toNat / 1000000000 * roundingFactor ^ 3 * roundingFactor ^ 3 :=
          mul_le_mul_of_nonneg_right tolerance.le factor
      _ = t.toNat / 1000000000 * roundingFactor ^ 6 := by ring
  have many := divisor_le ht positive (by norm_num) apart
  norm_num [roundingFactor] at many
  linarith

/-- Above a billion iterations, no period of measured time can be. -/
theorem not_periodTold_of_many (ht : t ≠ 0) (many : 1000000000 < n.toNat) :
    ¬ PeriodTold n t := by
  have hn : n ≠ 0 := by
    rintro rfl
    cases many
  have tolerance := within_periodTolerance_of_timed ht
  have expected := within_quotient hn ht
  rw [periodTold_iff hn ht]
  intro told
  have count : (1000000001 : ℚ) ≤ n.toNat := by exact_mod_cast many
  have positive : (0 : ℚ) < n.toNat := by linarith
  have factor := roundingFactor_pow_nonneg 3
  have apart : (t.toNat : ℚ) / 1000000000 ≤ t.toNat / n.toNat * roundingFactor ^ 6 :=
    calc (t.toNat : ℚ) / 1000000000
        ≤ (periodTolerance t).value * roundingFactor ^ 3 := tolerance.ge
      _ ≤ (ofNat t.toNat / ofNat n.toNat).value * roundingFactor ^ 3 :=
          mul_le_mul_of_nonneg_right told.le factor
      _ ≤ t.toNat / n.toNat * roundingFactor ^ 3 * roundingFactor ^ 3 :=
          mul_le_mul_of_nonneg_right expected.le factor
      _ = t.toNat / n.toNat * roundingFactor ^ 6 := by ring
  have few := divisor_le ht (by norm_num) positive apart
  norm_num [roundingFactor] at few
  linarith

/-! ### Which totals settle the rates -/

/-- Without iterations, or with a period that the tolerance does not hide, every well-formed record
has the rates of its measurement, and with no other totals. Below a billion iterations time that was
measured is never hidden, and above it always is. -/
theorem ratesMeasured_iff (n t : UInt64) :
    ((∀ r : Record, r.WellFormed → r.iterations = n → r.totalNanos = t → r.RatesMeasured) ↔
      n = 0 ∨ t ≠ 0 ∧ PeriodTold n t) ∧
    (n ≠ 0 → t ≠ 0 →
      (n.toNat < 1000000000 → PeriodTold n t) ∧ (1000000000 < n.toNat → ¬ PeriodTold n t)) ∧
    ∀ r : Record, r.WellFormed →
      r.nanosPerOp.value = 0 ∧ r.opsPerSec.value = 0 ∨
        0 < r.nanosPerOp.value ∧ 0 < r.opsPerSec.value := by
  refine ⟨?_, ?_, fun r => rates_zero_or_pos⟩
  · constructor
    · intro measured
      by_contra hidden
      rw [not_or, not_and] at hidden
      obtain ⟨running, hidden⟩ := hidden
      by_cases timed : t = 0
      · have still := measured (untimed n) (untimed_wellFormed running) rfl timed.symm
        exact (untimed_pos n).1.ne' (still.zero (.inr rfl)).1
      · have rated := measured (unrated n t) (unrated_wellFormed running timed (hidden timed))
          rfl rfl
        have positive := rated.positive (UInt64.pos_iff_ne_zero.2 running)
          (UInt64.pos_iff_ne_zero.2 timed)
        exact positive.1.ne' value_zero
    · rintro settled r accepted rfl rfl
      constructor
      case positive =>
        intro running timed
        obtain ⟨-, told⟩ := settled.resolve_left (UInt64.pos_iff_ne_zero.1 running)
        exact rates_pos_of_told accepted (UInt64.pos_iff_ne_zero.1 running)
          (UInt64.pos_iff_ne_zero.1 timed) told
      case zero =>
        intro idle
        have idle : r.iterations = 0 := by
          rcases idle with idle | still
          · exact idle
          · exact settled.resolve_right fun timed => timed.1 still
        obtain ⟨⟨finite, -⟩, ⟨finite', -⟩, rates, -⟩ := wellFormed_iff.1 accepted
        obtain ⟨-, period, perSecond⟩ := (rateDefect?_of_idle idle).1 rates
        exact ⟨(numEq_zero_iff finite).1 period, (numEq_zero_iff finite').1 perSecond⟩
  · intro running timed
    exact ⟨periodTold_of_few running timed, not_periodTold_of_many timed⟩

/-- What another program may write of a run that took a nanosecond, and of one that took none. -/
def unratedText : String :=
  "\x7b\"iterations\":2000000000,\"total_nanos\":1," ++
    "\"nanos_per_op\":0.0,\"ops_per_sec\":0.0\x7d"

@[inherit_doc unratedText]
def untimedText : String :=
  "\x7b\"iterations\":1,\"total_nanos\":0," ++
    "\"nanos_per_op\":1e-10,\"ops_per_sec\":1e19\x7d"

/-- Both texts are accepted: one has rates of zero for time that was measured, and the other has
positive rates without any time. -/
theorem ratesMeasured_refuted :
    ofJson unratedText = .ok (unrated 2000000000 1) ∧ ofJson untimedText = .ok (untimed 1) ∧
      ¬ (unrated 2000000000 1).RatesMeasured ∧ ¬ (untimed 1).RatesMeasured ∧
      ¬ ∀ r : Record, r.WellFormed → r.RatesMeasured := by
  have rated : ¬ (unrated 2000000000 1).RatesMeasured := by
    intro measured
    exact (measured.positive (by decide) (by decide)).1.ne' value_zero
  have still : ¬ (untimed 1).RatesMeasured := by
    intro measured
    exact (untimed_pos 1).1.ne' (measured.zero (.inr rfl)).1
  refine ⟨by decide +kernel, by decide +kernel, rated, still, ?_⟩
  intro all
  exact still (all _ (untimed_wellFormed (by decide)))

end Record

end MicroBench
