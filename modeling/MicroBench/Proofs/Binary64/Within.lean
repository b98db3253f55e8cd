import Mathlib.Algebra.Order.Field.Power
import Mathlib.Data.Rat.Cast.Order
import Mathlib.Tactic.FieldSimp
import Mathlib.Tactic.GCongr
import Mathlib.Tactic.Linarith
import Mathlib.Tactic.NormNum
import Mathlib.Tactic.Positivity
import Mathlib.Tactic.Ring

/-! How far apart two magnitudes may be after a number of roundings. Each rounding
costs one factor, in either direction, so the costs of products, quotients and chains
of roundings add up. -/
namespace MicroBench

/-- One more than the relative error of a rounding to 53 bits. -/
def roundingFactor : ℚ := 1 + 1 / 2 ^ 53

/-- The two magnitudes differ by no more than so many roundings. -/
structure Within (roundings : ℕ) (x y : ℚ) : Prop where
  le : x ≤ y * roundingFactor ^ roundings
  ge : y ≤ x * roundingFactor ^ roundings

theorem one_le_roundingFactor : 1 ≤ roundingFactor := by norm_num [roundingFactor]

theorem one_le_roundingFactor_pow (k : ℕ) : 1 ≤ roundingFactor ^ k :=
  one_le_pow₀ one_le_roundingFactor

theorem roundingFactor_pow_nonneg (k : ℕ) : 0 ≤ roundingFactor ^ k :=
  zero_le_one.trans (one_le_roundingFactor_pow k)

theorem roundingFactor_pow_mono {j k : ℕ} (le : j ≤ k) :
    roundingFactor ^ j ≤ roundingFactor ^ k :=
  pow_le_pow_right₀ one_le_roundingFactor le

namespace Within

variable {j k : ℕ} {x y z : ℚ}

theorem refl (x : ℚ) : Within 0 x x := by
  constructor <;> simp

theorem symm (h : Within k x y) : Within k y x := ⟨h.2, h.1⟩

theorem pos (h : Within k x y) (hy : 0 < y) : 0 < x := by
  by_contra hx
  have := mul_nonpos_of_nonpos_of_nonneg (not_lt.1 hx) (roundingFactor_pow_nonneg k)
  exact absurd h.2 (not_le.2 (this.trans_lt hy))

theorem mono (h : Within j x y) (le : j ≤ k) (hx : 0 ≤ x) (hy : 0 ≤ y) : Within k x y := by
  have grows := roundingFactor_pow_mono le
  constructor
  · exact h.1.trans (mul_le_mul_of_nonneg_left grows hy)
  · exact h.2.trans (mul_le_mul_of_nonneg_left grows hx)

/-- Roundings add up along the way. -/
theorem trans (h : Within j x y) (h' : Within k y z) : Within (j + k) x z := by
  have hj := roundingFactor_pow_nonneg j
  have hk := roundingFactor_pow_nonneg k
  constructor
  · calc x ≤ y * roundingFactor ^ j := h.1
      _ ≤ z * roundingFactor ^ k * roundingFactor ^ j := mul_le_mul_of_nonneg_right h'.1 hj
      _ = z * roundingFactor ^ (j + k) := by ring
  · calc z ≤ y * roundingFactor ^ k := h'.2
      _ ≤ x * roundingFactor ^ j * roundingFactor ^ k := mul_le_mul_of_nonneg_right h.2 hk
      _ = x * roundingFactor ^ (j + k) := by ring

/-- The roundings of two factors add up in their product. -/
theorem mul {x' y' : ℚ} (h : Within j x y) (h' : Within k x' y') (hx : 0 ≤ x) (hy : 0 ≤ y)
    (hx' : 0 ≤ x') (hy' : 0 ≤ y') : Within (j + k) (x * x') (y * y') := by
  have hj := roundingFactor_pow_nonneg j
  constructor
  · calc x * x' ≤ y * roundingFactor ^ j * (y' * roundingFactor ^ k) :=
          mul_le_mul h.1 h'.1 hx' (mul_nonneg hy hj)
      _ = y * y' * roundingFactor ^ (j + k) := by ring
  · calc y * y' ≤ x * roundingFactor ^ j * (x' * roundingFactor ^ k) :=
          mul_le_mul h.2 h'.2 hy' (mul_nonneg hx hj)
      _ = x * x' * roundingFactor ^ (j + k) := by ring

theorem inv (h : Within k x y) (hx : 0 < x) (hy : 0 < y) : Within k x⁻¹ y⁻¹ := by
  constructor
  · rw [inv_le_iff_one_le_mul₀ hx]
    calc (1 : ℚ) = y⁻¹ * y := (inv_mul_cancel₀ hy.ne').symm
      _ ≤ y⁻¹ * (x * roundingFactor ^ k) := mul_le_mul_of_nonneg_left h.2 (inv_pos.2 hy).le
      _ = y⁻¹ * roundingFactor ^ k * x := by ring
  · rw [inv_le_iff_one_le_mul₀ hy]
    calc (1 : ℚ) = x⁻¹ * x := (inv_mul_cancel₀ hx.ne').symm
      _ ≤ x⁻¹ * (y * roundingFactor ^ k) := mul_le_mul_of_nonneg_left h.1 (inv_pos.2 hx).le
      _ = x⁻¹ * roundingFactor ^ k * y := by ring

theorem div {x' y' : ℚ} (h : Within j x y) (h' : Within k x' y') (hx : 0 ≤ x) (hy : 0 ≤ y)
    (hx' : 0 < x') (hy' : 0 < y') : Within (j + k) (x / x') (y / y') := by
  rw [div_eq_mul_inv, div_eq_mul_inv]
  exact h.mul (h'.inv hx' hy') hx hy (inv_pos.2 hx').le (inv_pos.2 hy').le

/-- A change of scale costs nothing. -/
theorem div_right (h : Within k x y) (hz : 0 < z) : Within k (x / z) (y / z) := by
  constructor
  · rw [div_mul_eq_mul_div, div_le_div_iff_of_pos_right hz]
    exact h.1
  · rw [div_mul_eq_mul_div, div_le_div_iff_of_pos_right hz]
    exact h.2

/-- So few roundings leave the size as it is, up to a factor of two. -/
theorem bounds (h : Within k x y) (few : k ≤ 8) (hy : 0 < y) : y / 2 ≤ x ∧ x ≤ y * 2 := by
  have factor : roundingFactor ^ k ≤ 2 :=
    (roundingFactor_pow_mono few).trans (by norm_num [roundingFactor])
  have hx := h.pos hy
  constructor
  · have := h.2.trans (mul_le_mul_of_nonneg_left factor hx.le)
    linarith
  · exact h.1.trans (mul_le_mul_of_nonneg_left factor hy.le)

/-- The distance that so many roundings allow. -/
theorem abs_sub_le (h : Within k x y) (hy : 0 ≤ y) :
    |x - y| ≤ (roundingFactor ^ k - 1) * y := by
  have one := one_le_roundingFactor_pow k
  rw [abs_le]
  constructor
  · -- here `x` is the smaller side, so its own share of the error is enough
    by_cases le : x ≤ y
    · have := mul_le_mul_of_nonneg_right le (sub_nonneg.2 one)
      linarith [h.2]
    · have := mul_nonneg (sub_nonneg.2 one) hy
      linarith
  · linarith [h.1]

end Within

end MicroBench
