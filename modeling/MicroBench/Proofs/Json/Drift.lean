import MicroBench.Proofs.Json.Quotients
import MicroBench.Proofs.Json.Reread
import MicroBench.Proofs.Record.Rates

/-! How far a number drifts when it is written and read again. The decimal is one
rounding away from it, and the reader adds three more: one for the digits, one for the
power of ten, and one for the product or the quotient. -/
namespace MicroBench

open Binary64 Json

namespace Decimal

variable {x : Decimal} {quanta : ℕ}

/-- The shortest decimal of a number is one rounding away from it. -/
theorem within_value (rep : Representable quanta) (large : 2 ^ 53 ≤ quanta) (tie : Tie) :
    Within 1 (quanta / quantaPerUnit) (shortest tie quanta).value := by
  obtain ⟨back, -⟩ := shortest_spec tie rep (lt_of_lt_of_le (by norm_num) large)
  have den := (shortest tie quanta).quantaDen_pos
  have enough : 2 ^ 52 * (shortest tie quanta).quantaDen ≤ (shortest tie quanta).quantaNum := by
    by_contra small
    have := nearestQuanta_le_of_small den (not_le.1 small)
    rw [show nearestQuanta _ _ = quanta from back] at this
    omega
  have near := within_nearestQuanta den enough
  rw [show nearestQuanta _ _ = quanta from back, quantaNum_eq,
    mul_div_cancel_right₀ _ (Nat.cast_pos.2 den).ne'] at near
  have := near.div_right quantaPerUnit_cast_pos
  rwa [mul_div_cancel_right₀ _ quantaPerUnit_cast_pos.ne'] at this

/-- The digits and the power of ten that are read stand for the decimal. -/
theorem scanned_value (x : Decimal) :
    (x.scanned.significand : ℚ) * 10 ^ x.scanned.exponent = x.value := by
  rw [scanned]
  by_cases whole : Layout.wire.inPlace x.point ∧ 0 ≤ x.exponent
  · rw [if_pos whole, value]
    obtain ⟨e, same⟩ := Int.eq_ofNat_of_zero_le whole.2
    rw [same, Int.toNat_natCast, zpow_natCast, zpow_neg_one, pow_succ]
    push_cast
    field_simp
  · rw [if_neg whole, value]

/-- The digits that are written fit into a word. -/
theorem scanned_significand_le (digits : x.coefficient ≤ 10 ^ 17) :
    x.scanned.significand ≤ 10 ^ 17 := by
  rw [scanned]
  by_cases whole : Layout.wire.inPlace x.point ∧ 0 ≤ x.exponent
  · have := whole_lt ((inPlace_wire _).1 whole.1).2 whole.2
    rw [if_pos whole, pow_succ, ← mul_assoc]
    simp only
    omega
  · rw [if_neg whole]
    exact digits

end Decimal

namespace Json.Scaled

variable {s : Scaled} {power : ℕ}

/-- So many tens are a number, up to one rounding. -/
theorem within_ten_pow (moderate : (10 : ℚ) ^ power ≤ 2 ^ 140) :
    power ≤ 308 ∧ 0 < (tenPow power).value ∧ Within 1 (tenPow power).value (10 ^ power) := by
  have few : power ≤ 308 := by
    by_contra many
    have least : 10 ^ 50 ≤ 10 ^ power := Nat.pow_le_pow_right (by norm_num) (by omega)
    have le : 10 ^ power ≤ 2 ^ 140 := by exact_mod_cast moderate
    norm_num at least le
    omega
  obtain ⟨-, one, near⟩ := tenPow_near few
  exact ⟨few, zero_lt_one.trans_le one, near⟩

/-- Digits over a power of ten. -/
theorem within_value_of_neg (positive : 0 < s.significand) (digits : s.significand ≤ 10 ^ 17)
    (down : s.exponent = -(power : ℤ)) (negative : s.exponent < 0)
    (lower : 1 / 2 ^ 81 ≤ (s.significand : ℚ) / 10 ^ power) :
    ∃ y, s.value = .some y ∧ Within 3 y.value (s.significand / 10 ^ power) := by
  have one : (1 : ℚ) ≤ s.significand := by exact_mod_cast positive
  have most : (s.significand : ℚ) ≤ 10 ^ 17 := by exact_mod_cast digits
  have scale : (0 : ℚ) < 10 ^ power := by positivity
  have least : (1 : ℚ) ≤ 10 ^ power := one_le_pow₀ (by norm_num)
  rw [le_div_iff₀ scale] at lower
  obtain ⟨few, pos, tens⟩ := within_ten_pow (by linarith : (10 : ℚ) ^ power ≤ 2 ^ 140)
  have near := (within_ofNat_moderate (digits.trans (by norm_num) : s.significand ≤ 2 ^ 149)).2
  have pos' := near.pos (by linarith)
  have exact := near.div tens pos'.le (by linarith) pos scale
  have rounded := within_div pos' pos (exact.normal (by norm_num)
    (by rw [le_div_iff₀ scale]; linarith) (by rw [div_le_iff₀ scale]; linarith))
  refine ⟨_, ?_, rounded.trans exact⟩
  have size : s.exponent.natAbs = power := by rw [down, Int.natAbs_neg, Int.natAbs_natCast]
  rw [Scaled.value, if_pos negative, size, divideDown_of_few few]

/-- Digits times a power of ten. -/
theorem within_value_of_nonneg (positive : 0 < s.significand) (digits : s.significand ≤ 10 ^ 17)
    (up : s.exponent = power) (upper : (s.significand : ℚ) * 10 ^ power ≤ 2 ^ 101) :
    ∃ y, s.value = .some y ∧ Within 3 y.value (s.significand * 10 ^ power) := by
  have one : (1 : ℚ) ≤ s.significand := by exact_mod_cast positive
  have scale : (0 : ℚ) < 10 ^ power := by positivity
  have least : (1 : ℚ) ≤ 10 ^ power := one_le_pow₀ (by norm_num)
  have tens : (10 : ℚ) ^ power ≤ s.significand * 10 ^ power := le_mul_of_one_le_left scale.le one
  obtain ⟨few, pos, tens⟩ := within_ten_pow (by linarith : (10 : ℚ) ^ power ≤ 2 ^ 140)
  have near := (within_ofNat_moderate (digits.trans (by norm_num) : s.significand ≤ 2 ^ 149)).2
  have pos' := near.pos (by linarith)
  have exact := near.mul tens pos'.le (by linarith) pos.le scale.le
  have large : (1 : ℚ) ≤ s.significand * 10 ^ power := one_le_mul_of_one_le_of_one_le one least
  have rounded := within_mul pos' pos (exact.normal (by norm_num) (by linarith) (by linarith))
  have result := rounded.trans exact
  refine ⟨_, ?_, result⟩
  have size : s.exponent.natAbs = power := by rw [up, Int.natAbs_natCast]
  have finite := isFinite_of_value_pos (result.pos (by linarith))
  rw [Scaled.value, if_neg (by omega), if_pos (by omega), size, ← tenPow]
  simp only [finite, if_true]

/-- Digits and a power of ten of moderate value become a number with three roundings. -/
theorem within_value (positive : 0 < s.significand) (digits : s.significand ≤ 10 ^ 17)
    (lower : 1 / 2 ^ 81 ≤ (s.significand : ℚ) * 10 ^ s.exponent)
    (upper : (s.significand : ℚ) * 10 ^ s.exponent ≤ 2 ^ 101) :
    ∃ y, s.value = .some y ∧ Within 3 y.value (s.significand * 10 ^ s.exponent) := by
  by_cases negative : s.exponent < 0
  · obtain ⟨power, down⟩ := Int.exists_eq_neg_ofNat negative.le
    rw [down, zpow_neg, zpow_natCast, ← div_eq_mul_inv] at lower ⊢
    exact within_value_of_neg positive digits down negative lower
  · obtain ⟨power, up⟩ := Int.eq_ofNat_of_zero_le (not_lt.1 negative)
    rw [up, zpow_natCast] at upper ⊢
    exact within_value_of_nonneg positive digits up upper

end Json.Scaled

/-- A number of moderate size comes back, and it has drifted by no more than four roundings. -/
theorem Binary64.within_reread {x : Binary64} (lower : 1 / 2 ^ 80 ≤ x.value)
    (upper : x.value ≤ 2 ^ 100) : ∃ y, x.reread = some y ∧ Within 4 y.value x.value := by
  obtain ⟨quanta, rep, rfl, pos⟩ := exists_of_value_pos (lt_of_lt_of_le (by norm_num) lower)
  rw [value_finite, signedQuanta_false, Int.cast_natCast] at lower upper ⊢
  have large : 2 ^ 53 ≤ quanta := by
    have unit := two_pow_le_quantaPerUnit_cast
    rw [le_div_iff₀ quantaPerUnit_cast_pos] at lower
    have : (2 : ℚ) ^ 53 ≤ quanta := by linarith
    exact_mod_cast this
  have near := Decimal.within_value rep large .even
  obtain ⟨-, -, digits, -⟩ := Decimal.shortest_spec .even rep pos
  have value := Decimal.scanned_value (Decimal.shortest .even quanta)
  have factor : roundingFactor ^ 1 ≤ 2 := by norm_num [roundingFactor]
  have exact : 0 < (Decimal.shortest .even quanta).value :=
    near.symm.pos (lt_of_lt_of_le (by norm_num) lower)
  have lower' := lower.trans (near.le.trans (mul_le_mul_of_nonneg_left factor exact.le))
  have upper' := near.ge.trans
    (mul_le_mul upper factor (by norm_num [roundingFactor]) (by norm_num))
  rw [← value] at lower' upper' exact
  obtain ⟨y, read, drift⟩ := Json.Scaled.within_value
    (Nat.pos_of_ne_zero fun zero => by rw [zero] at exact; simp at exact)
    (Decimal.scanned_significand_le digits) (by linarith) (by linarith)
  rw [value] at drift
  refine ⟨y, ?_, drift.trans near.symm⟩
  simp only [reread, read, Option.map_some, Bool.false_eq_true, if_false]

theorem Decimal.scanned_zero : (shortest .even 0).scanned.value = some 0 := by
  rw [show (shortest .even 0).scanned = ⟨0, -1⟩ by decide, Scaled.value, if_pos (by decide),
    ofNat_zero, divideDown_zero]

/-- Zero comes back with its sign. -/
theorem Binary64.reread_of_value_zero {x : Binary64} (finite : x.isFinite) (zero : x.value = 0) :
    x.reread = some x := by
  obtain ⟨negative, rfl⟩ := exists_of_value_zero finite zero
  rw [reread, Decimal.scanned_zero]
  cases negative <;> rfl

end MicroBench
