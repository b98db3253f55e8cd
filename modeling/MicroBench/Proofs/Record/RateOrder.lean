import MicroBench.Proofs.Binary64.Order
import MicroBench.Proofs.Record.Rates

/-! The rates of counts against the exact quotients: how close they are, and that they keep
the order. Counts from `2 ^ 53` on may become one number, and so may their rates, but no
rate overtakes another. -/
namespace MicroBench

open Binary64

variable {n n' t t' : UInt64}

/-- The rates are a part in `2 ^ 50` from the exact quotients at most. On the way there the numbers
are all positive, so that nothing is divided by zero, and too large or too small none of them. -/
structure RatesClose (n t : UInt64) : Prop where
  counts : Normal (ofNat n.toNat).value ∧ Normal (ofNat t.toNat).value
  normal : Normal (rates n t).1.value ∧ Normal (rates n t).2.value
  finite : (rates n t).1.isFinite ∧ (rates n t).2.isFinite
  period : |(rates n t).1.value - t.toNat / n.toNat| ≤ 1 / 2 ^ 50 * (t.toNat / n.toNat)
  perSecond : |(rates n t).2.value - 1000000000 * n.toNat / t.toNat| ≤
    1 / 2 ^ 50 * (1000000000 * n.toNat / t.toNat)

/-! ### Distance -/

/-- Four roundings stay within a part in `2 ^ 50`. -/
theorem abs_sub_le_of_within {x y : ℚ} (near : Within 4 x y) (nonneg : 0 ≤ y) :
    |x - y| ≤ 1 / 2 ^ 50 * y := by
  refine (near.abs_sub_le nonneg).trans (mul_le_mul_of_nonneg_right ?_ nonneg)
  norm_num [roundingFactor]

theorem normal_word (hn : n ≠ 0) : Normal (ofNat n.toNat).value := by
  have one := one_le_cast_toNat hn
  have most := cast_toNat_le n
  exact (within_word n).2.normal (by norm_num) (by linarith) (by linarith)

/-- The rate per second is four roundings from its exact quotient: three that the period is off, and
one more. -/
theorem within_perSecond_exact (hn : n ≠ 0) (ht : t ≠ 0) :
    Within 4 (rates n t).2.value (1000000000 * n.toNat / t.toNat) := by
  obtain ⟨period, perSecond⟩ := rates_of_pos hn ht
  have exact : (0 : ℚ) < t.toNat / n.toNat :=
    lt_of_lt_of_le (by norm_num) (quotient_bounds hn ht).1
  have inverse := (Within.refl 1000000000).div period (by norm_num) (by norm_num)
    (period.pos exact) exact
  rw [div_div_eq_mul_div] at inverse
  exact perSecond.trans inverse

/-- The rates of positive totals are close to the exact quotients. -/
theorem ratesClose (hn : n ≠ 0) (ht : t ≠ 0) : RatesClose n t := by
  have period := (rates_of_pos hn ht).1
  have perSecond := within_perSecond_exact hn ht
  obtain ⟨lower, upper⟩ := quotient_bounds hn ht
  obtain ⟨lower', upper'⟩ := quotient_bounds ht hn
  have exact : (0 : ℚ) < t.toNat / n.toNat := lt_of_lt_of_le (by norm_num) lower
  have exact' : (0 : ℚ) < 1000000000 * n.toNat / t.toNat := by
    rw [mul_div_assoc]
    linarith
  constructor
  case counts => exact ⟨normal_word hn, normal_word ht⟩
  case normal =>
    refine ⟨period.normal (by norm_num) (by linarith) (by linarith),
      perSecond.normal (by norm_num) ?_ ?_⟩
    · rw [mul_div_assoc]
      linarith
    · rw [mul_div_assoc]
      linarith
  case finite =>
    exact ⟨isFinite_of_value_pos (period.pos exact), isFinite_of_value_pos (perSecond.pos exact')⟩
  case period =>
    exact abs_sub_le_of_within (period.mono (by norm_num) (period.pos exact).le exact.le) exact.le
  case perSecond => exact abs_sub_le_of_within perSecond exact'.le

/-! ### Order -/

theorem rates_of_nonzero (hn : n ≠ 0) (ht : t ≠ 0) :
    rates n t = (ofNat t.toNat / ofNat n.toNat,
      nanosPerSecond / (ofNat t.toNat / ofNat n.toNat)) := by
  rw [rates, if_neg (not_or.2 ⟨hn, ht⟩)]

theorem word_mono (le : n ≤ n') : AtMost (ofNat n.toNat) (ofNat n'.toNat) :=
  ofNat_mono (UInt64.le_iff_toNat_le.1 le) (within_word n').1

/-- Rates are finite and not negative, also where there is nothing to divide. -/
theorem zero_atMost_rates (n t : UInt64) :
    AtMost 0 (rates n t).1 ∧ AtMost 0 (rates n t).2 := by
  by_cases idle : n = 0 ∨ t = 0
  · rw [rates_of_zero idle]
    exact ⟨⟨rfl, rfl, le_rfl⟩, ⟨rfl, rfl, le_rfl⟩⟩
  · rw [not_or] at idle
    obtain ⟨-, ⟨positive, positive'⟩, ⟨finite, finite'⟩, -⟩ := ratesClose idle.1 idle.2
    refine ⟨⟨rfl, finite, ?_⟩, ⟨rfl, finite', ?_⟩⟩
    · rw [value_zero]
      exact positive.pos.le
    · rw [value_zero]
      exact positive'.pos.le

/-- Rates per second are in the opposite order of the periods that they are the inverses of. -/
theorem perSecond_antitone (hn : n ≠ 0) (ht : t ≠ 0) (hn' : n' ≠ 0) (ht' : t' ≠ 0)
    (le : AtMost (rates n t).1 (rates n' t').1) : AtMost (rates n' t').2 (rates n t).2 := by
  obtain ⟨-, ⟨positive, -⟩, ⟨-, finite⟩, -⟩ := ratesClose hn ht
  rw [rates_of_nonzero hn ht] at le positive finite ⊢
  rw [rates_of_nonzero hn' ht'] at le ⊢
  have second : 0 < nanosPerSecond.value := by
    rw [value_nanosPerSecond]
    norm_num
  exact div_mono second positive.pos le_rfl le.le finite

/-- Where time is spent, more of it and fewer iterations make the period longer. -/
theorem period_mono (hn : n ≠ 0) (ht : t ≠ 0) (more : t ≤ t') (fewer : n' ≤ n) (hn' : n' ≠ 0) :
    AtMost (rates n t).1 (rates n' t').1 := by
  have ht' : t' ≠ 0 := by
    rintro rfl
    exact ht (UInt64.le_zero_iff.1 more)
  obtain ⟨-, -, ⟨finite, -⟩, -⟩ := ratesClose hn' ht'
  rw [rates_of_nonzero hn' ht'] at finite ⊢
  rw [rates_of_nonzero hn ht]
  exact div_mono (normal_word ht).pos (normal_word hn').pos (word_mono more).le
    (word_mono fewer).le finite

/-- The rates of a run that was measured are close to the exact quotients, and those of any other
are zero. More time for the same iterations never makes the period shorter or the rate per second
larger, and more iterations in the same time never make the period longer or the rate smaller. -/
theorem rates_close_and_ordered (n t : UInt64) :
    (n ≠ 0 → t ≠ 0 → RatesClose n t) ∧ (n = 0 ∨ t = 0 → rates n t = (0, 0)) ∧
      (∀ t', n ≠ 0 → t ≤ t' → AtMost (rates n t).1 (rates n t').1 ∧
        (t ≠ 0 → AtMost (rates n t').2 (rates n t).2)) ∧
      ∀ n', t ≠ 0 → n ≠ 0 → n ≤ n' → AtMost (rates n' t).1 (rates n t).1 ∧
        AtMost (rates n t).2 (rates n' t).2 := by
  refine ⟨ratesClose, rates_of_zero, ?_, ?_⟩
  · intro t' hn more
    by_cases ht : t = 0
    · rw [rates_of_zero (.inr ht)]
      exact ⟨(zero_atMost_rates n t').1, fun timed => absurd ht timed⟩
    · have ht' : t' ≠ 0 := by
        rintro rfl
        exact ht (UInt64.le_zero_iff.1 more)
      have period := period_mono hn ht more (UInt64.le_refl n) hn
      exact ⟨period, fun _ => perSecond_antitone hn ht hn ht' period⟩
  · intro n' ht hn more
    have hn' : n' ≠ 0 := by
      rintro rfl
      exact hn (UInt64.le_zero_iff.1 more)
    have period := period_mono hn' ht (UInt64.le_refl t) more hn
    exact ⟨period, perSecond_antitone hn' ht hn ht period⟩

end MicroBench
