import MicroBench.Proofs.Record.Rates
import MicroBench.Record.Validity

/-! Rates that agree with the totals in exact arithmetic, a hair's breadth inside the
tolerances, have no defect although the check itself is made with rounded numbers. -/
namespace MicroBench

open Binary64

/-! ### The two tolerances -/

theorem max_one_of_lt {n : UInt64} (large : 1 < n.toNat) :
    (ofNat n.toNat).max (ofNat 1) = ofNat n.toNat := by
  have one := within_word 1
  have near := within_word n
  rw [show (1 : UInt64).toNat = 1 from rfl] at one
  have least : (ofNat n.toNat).lt (ofNat 1) = false := by
    rw [Bool.eq_false_iff, Ne, lt_iff near.1 one.1]
    have two : (2 : ℚ) ≤ n.toNat := by exact_mod_cast large
    have lower := near.2.ge
    have upper := one.2.le
    norm_num [roundingFactor] at lower upper
    linarith
  simp only [Binary64.max, least]
  rw [if_neg]
  rintro (unlike | less)
  · rw [unlike] at near
    exact absurd near.1 (by decide)
  · cases less

theorem max_one_of_le {n : ℕ} (small : n ≤ 1) : (ofNat n).max (ofNat 1) = ofNat 1 := by
  rcases Nat.le_one_iff_eq_zero_or_eq_one.1 small with rfl | rfl
  · rw [ofNat_zero]
    decide +kernel
  · simp only [Binary64.max, ite_self]

theorem within_larger_one (n : UInt64) :
    Within 1 ((ofNat n.toNat).max (ofNat 1)).value (max n.toNat 1 : ℕ) := by
  rcases Nat.lt_or_ge 1 n.toNat with large | small
  · rw [Nat.max_eq_left large.le, max_one_of_lt large]
    exact (within_word n).2
  · rw [Nat.max_eq_right small, max_one_of_le small]
    exact (within_word 1).2

theorem within_billionth : Within 1 (ofRatio 1 1000000000).value (1 / 1000000000) := by
  have := @within_ofRatio 1 1000000000 (by norm_num)
    (normal_of_moderate (by norm_num) (by norm_num))
  simpa using this

theorem larger_one_bounds (t : UInt64) :
    (1 : ℚ) ≤ (max t.toNat 1 : ℕ) ∧ ((max t.toNat 1 : ℕ) : ℚ) ≤ 2 ^ 64 := by
  constructor
  · exact_mod_cast Nat.le_max_right _ _
  · exact_mod_cast Nat.max_le.2 ⟨t.toNat_lt.le, by norm_num⟩

theorem within_periodTolerance (t : UInt64) :
    Within 3 (Record.periodTolerance t).value ((max t.toNat 1 : ℕ) / 1000000000) := by
  have larger := within_larger_one t
  obtain ⟨least, most⟩ := larger_one_bounds t
  have pos := larger.pos (by linarith)
  have small := within_billionth.pos (by norm_num)
  have exact := within_billionth.mul larger small.le (by norm_num) pos.le (by linarith)
  rw [div_mul_eq_mul_div, one_mul] at exact
  have rounded := within_mul small pos (exact.normal (by norm_num)
    (by rw [le_div_iff₀ (by norm_num)]; linarith) (by rw [div_le_iff₀ (by norm_num)]; linarith))
  exact rounded.trans exact

theorem within_productTolerance : Within 2 Record.productTolerance.value 1000 := by
  have millionth : Within 1 (ofRatio 1 1000000).value (1 / 1000000) := by
    have := @within_ofRatio 1 1000000 (by norm_num)
      (normal_of_moderate (by norm_num) (by norm_num))
    simpa using this
  have second : Within 0 nanosPerSecond.value 1000000000 := by
    rw [value_nanosPerSecond]
    exact Within.refl _
  have small := millionth.pos (by norm_num)
  have large := second.pos (by norm_num)
  have exact := millionth.mul second small.le (by norm_num) large.le (by norm_num)
  have product : (1 / 1000000 * 1000000000 : ℚ) = 1000 := by norm_num
  rw [product] at exact
  exact (within_mul small large (exact.normal (by norm_num) (by norm_num) (by norm_num))).trans
    exact

/-! ### Agreement with the totals -/

/-- The period that the check expects is close to the exact one, also where that is zero. -/
theorem expected_near {n : UInt64} (hn : n ≠ 0) (t : UInt64) :
    (ofNat t.toNat / ofNat n.toNat).isFinite ∧
      |(ofNat t.toNat / ofNat n.toNat).value - t.toNat / n.toNat| ≤
        (roundingFactor ^ 3 - 1) * (max t.toNat 1 : ℕ) := by
  have factor : 0 ≤ roundingFactor ^ 3 - 1 := sub_nonneg.2 (one_le_roundingFactor_pow 3)
  by_cases ht : t = 0
  · have positive := (within_word n).2.pos (zero_lt_one.trans_le (one_le_cast_toNat hn))
    rw [ht, show (0 : UInt64).toNat = 0 from rfl, ofNat_zero, zero_div_of_pos positive]
    refine ⟨isFinite_zero, ?_⟩
    simpa using factor
  · have near := within_quotient hn ht
    have one := one_le_cast_toNat hn
    have time := one_le_cast_toNat ht
    have exact : (0 : ℚ) < t.toNat / n.toNat := div_pos (by linarith) (by linarith)
    refine ⟨isFinite_of_value_pos (near.pos exact), (near.abs_sub_le exact.le).trans ?_⟩
    apply mul_le_mul_of_nonneg_left _ factor
    calc (t.toNat : ℚ) / n.toNat ≤ t.toNat := div_le_self (by linarith) one
      _ ≤ (max t.toNat 1 : ℕ) := by exact_mod_cast Nat.le_max_left _ _

namespace Record

variable {r : Record}

/-- The exact distance between the period and the totals leaves room for the rounding of the
check. -/
def PeriodAgrees (r : Record) : Prop :=
  |r.nanosPerOp.value - r.totalNanos.toNat / r.iterations.toNat| ≤
    (1 / 1000000000 - 1 / 2 ^ 50) * (max r.totalNanos.toNat 1 : ℕ)

/-- The exact product of the rates leaves room for the rounding of the check. -/
def ProductAgrees (r : Record) : Prop :=
  |r.opsPerSec.value * r.nanosPerOp.value - 1000000000| ≤ 999999 / 1000

/-- The exact period is at most the larger of the total and one. -/
theorem quotient_le_larger (r : Record) :
    (0 : ℚ) ≤ r.totalNanos.toNat / r.iterations.toNat ∧
      (r.totalNanos.toNat : ℚ) / r.iterations.toNat ≤ (max r.totalNanos.toNat 1 : ℕ) := by
  refine ⟨div_nonneg (Nat.cast_nonneg _) (Nat.cast_nonneg _), ?_⟩
  refine le_trans ?_ (Nat.cast_le.2 (Nat.le_max_left r.totalNanos.toNat 1))
  rcases Nat.eq_zero_or_pos r.iterations.toNat with none | some
  · rw [none, Nat.cast_zero, div_zero]
    exact Nat.cast_nonneg _
  · exact div_le_self (Nat.cast_nonneg _) (by exact_mod_cast some)

theorem periodAgrees_of_within
    (near : Within 7 r.nanosPerOp.value (r.totalNanos.toNat / r.iterations.toNat)) :
    r.PeriodAgrees := by
  obtain ⟨nonneg, least⟩ := r.quotient_le_larger
  refine (near.abs_sub_le nonneg).trans ?_
  apply mul_le_mul _ least nonneg (by norm_num)
  norm_num [roundingFactor]

theorem productAgrees_of_within
    (near : Within 9 (r.opsPerSec.value * r.nanosPerOp.value) 1000000000) : r.ProductAgrees := by
  refine (near.abs_sub_le (by norm_num)).trans ?_
  norm_num [roundingFactor]

/-- A period that agrees in exact arithmetic passes the rounded check. -/
theorem period_accepted (running : r.iterations ≠ 0) (finite : r.nanosPerOp.isFinite)
    (agrees : r.PeriodAgrees) :
    (periodTolerance r.totalNanos).lt
      (r.nanosPerOp - ofNat r.totalNanos.toNat / ofNat r.iterations.toNat).abs = false := by
  obtain ⟨finite', near⟩ := expected_near running r.totalNanos
  have tolerance := within_periodTolerance r.totalNanos
  have large := two_pow_le_quantaPerUnit_cast
  obtain ⟨least, most⟩ := larger_one_bounds r.totalNanos
  rw [PeriodAgrees] at agrees
  generalize ((max r.totalNanos.toNat 1 : ℕ) : ℚ) = total at *
  have distance := abs_sub_le r.nanosPerOp.value
    ((r.totalNanos.toNat : ℚ) / r.iterations.toNat)
    (ofNat r.totalNanos.toNat / ofNat r.iterations.toNat).value
  rw [abs_sub_comm] at near
  have small := distance.trans (add_le_add agrees near)
  norm_num [roundingFactor] at small
  have lower := tolerance.ge
  apply not_beyond (isFinite_of_value_pos (tolerance.pos (by linarith))) finite finite'
    (by linarith)
  norm_num [roundingFactor] at lower ⊢
  linarith

theorem product_accepted (positive : 0 < r.nanosPerOp.value) (agrees : r.ProductAgrees) :
    productTolerance.lt (r.opsPerSec * r.nanosPerOp - nanosPerSecond).abs = false := by
  have large := two_pow_le_quantaPerUnit_cast
  rw [ProductAgrees] at agrees
  obtain ⟨lower, upper⟩ := abs_le.1 agrees
  have product : 0 < r.opsPerSec.value * r.nanosPerOp.value := by linarith
  have positive' : 0 < r.opsPerSec.value := (mul_pos_iff_of_pos_right positive).1 product
  have near := within_mul positive' positive
    (normal_of_moderate (by norm_num; linarith) (by norm_num; linarith))
  have finite := isFinite_of_value_pos (near.pos product)
  have finite' : nanosPerSecond.isFinite :=
    isFinite_of_value_pos (by rw [value_nanosPerSecond]; norm_num)
  have above := near.le
  have below := near.ge
  norm_num [roundingFactor] at above below
  have distance :
      |(r.opsPerSec * r.nanosPerOp).value - nanosPerSecond.value| ≤ 9999995 / 10000 := by
    rw [value_nanosPerSecond, abs_le]
    constructor <;> linarith
  have lower' := within_productTolerance.ge
  apply not_beyond (isFinite_of_value_pos (within_productTolerance.pos (by norm_num))) finite
    finite' (by linarith)
  norm_num [roundingFactor] at lower' ⊢
  linarith

/-- Rates of a run of one iteration or more have no defect if they agree with the totals. -/
theorem rateDefect?_eq_none (running : r.iterations ≠ 0) (finite : r.nanosPerOp.isFinite)
    (finite' : r.opsPerSec.isFinite) (period : r.PeriodAgrees)
    (product : r.nanosPerOp.value = 0 ∧ r.opsPerSec.value = 0 ∨
      0 < r.nanosPerOp.value ∧ r.ProductAgrees) : r.rateDefect? = none := by
  have accepted := period_accepted running finite period
  rw [rateDefect?, if_neg running]
  simp only [accepted, Bool.false_eq_true, if_false]
  rcases product with ⟨zero, zero'⟩ | ⟨positive, agrees⟩
  · have : Binary64.lt 0 r.nanosPerOp = false := by
      rw [Bool.eq_false_iff, Ne, lt_iff isFinite_zero finite, value_zero, zero]
      exact lt_irrefl 0
    simp only [this, Bool.false_eq_true, if_false, eachRate, (numEq_zero_iff finite).2 zero,
      (numEq_zero_iff finite').2 zero', if_true, Option.map_none, Option.or_none]
  · have : Binary64.lt 0 r.nanosPerOp = true := by
      rw [lt_iff isFinite_zero finite, value_zero]
      exact positive
    simp only [this, if_true, product_accepted positive agrees, Bool.false_eq_true, if_false]

end Record

end MicroBench
