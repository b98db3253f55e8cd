import MicroBench.Json.Numbers
import MicroBench.Proofs.Binary64.Near

/-! Numbers over a power of ten, as the reader divides: at once by a power of ten that is
a number, and otherwise in two steps, after which nothing is left of a word. -/
namespace MicroBench.Json

open Binary64

/-- The power of ten as the reader has it. -/
def tenPow (power : ℕ) : Binary64 := ofNat (Nat.pow 10 power)

theorem isFinite_tenPow {power : ℕ} (few : power ≤ 308) : (tenPow power).isFinite := by
  have finite : (tenPow 308).isFinite = true := by decide +kernel
  exact (ofNat_mono (Nat.pow_le_pow_right (by norm_num) few) finite).finite

/-- A power of ten that does not overflow costs one rounding. -/
theorem tenPow_near {power : ℕ} (few : power ≤ 308) :
    (tenPow power).Unsigned ∧ 1 ≤ (tenPow power).value ∧
      Within 1 (tenPow power).value (10 ^ power) := by
  have finite := isFinite_tenPow few
  obtain ⟨unsigned, near⟩ := within_ofNat_of_finite finite
  have one := (ofNat_mono (Nat.one_le_pow power 10 (by norm_num)) finite).le
  rw [value_ofNat (by norm_num), Nat.cast_one] at one
  rw [Nat.pow_eq, Nat.cast_pow, Nat.cast_ofNat] at near
  exact ⟨unsigned, one, near⟩

theorem word_near {n : ℕ} (fits : n ≤ largestWord) :
    (ofNat n).Unsigned ∧ Within 1 (ofNat n).value n := by
  rw [largestWord] at fits
  exact within_ofNat_of_finite (within_ofNat_moderate (by omega)).1

/-! ### Digits over a power of ten -/

variable {x : Binary64} {power power' : ℕ}

theorem divideDown_of_few (few : power ≤ 308) : divideDown x power = x / tenPow power := by
  rw [divideDown, if_pos few, tenPow]

theorem divideDown_zero (power : ℕ) : divideDown 0 power = 0 := by
  rcases Nat.lt_or_ge 308 power with many | few
  · rw [divideDown, if_neg (Nat.not_le.2 many), if_pos (by decide)]
  · rw [divideDown_of_few few, zero_div_of_pos (zero_lt_one.trans_le (tenPow_near few).2.1)]

theorem divideDown_step (hx : x.Unsigned) (more : 0 < power) :
    divideDown x (power + 308) = divideDown (x / tenPow 308) power := by
  rw [divideDown, if_neg (by omega), Nat.add_sub_cancel]
  by_cases zero : x.numEq 0
  · have pos := zero_lt_one.trans_le (tenPow_near (le_refl 308)).2.1
    obtain rfl : x = 0 := by
      obtain ⟨q, h, rfl⟩ := hx
      rw [numEq_zero_iff rfl, value_finite, signedQuanta_false, Int.cast_natCast,
        div_eq_zero_iff, Nat.cast_eq_zero] at zero
      obtain rfl := zero.resolve_right quantaPerUnit_cast_pos.ne'
      rfl
    rw [if_pos zero, zero_div_of_pos pos, divideDown_zero]
  · rw [if_neg zero, tenPow]

/-- Division by powers of ten never enlarges a number. -/
theorem divideDown_le (hx : x.Unsigned) (power : ℕ) :
    (divideDown x power).Unsigned ∧ (divideDown x power).value ≤ x.value := by
  fun_induction divideDown x power with
  | case1 x power few =>
    obtain ⟨unsigned, le, -⟩ := near_div hx (tenPow_near few).2.1
    exact ⟨unsigned, le⟩
  | case2 => exact ⟨hx, le_rfl⟩
  | case3 x power _ _ ih =>
    obtain ⟨unsigned, le, -⟩ := near_div hx (tenPow_near (le_refl 308)).2.1
    obtain ⟨unsigned', le'⟩ := ih unsigned
    exact ⟨unsigned', le'.trans le⟩

/-- One division is off by two roundings and hardly more than half a quantum. -/
theorem near_div_tenPow (hx : x.Unsigned) (few : power ≤ 308) :
    (x / tenPow power).Unsigned ∧
      Near 2 (halfQuantum * roundingFactor ^ 2) (x / tenPow power).value
        (x.value / 10 ^ power) := by
  obtain ⟨-, one, tens⟩ := tenPow_near few
  obtain ⟨unsigned, -, near⟩ := near_div hx one
  have scale : (0 : ℚ) < 10 ^ power := by positivity
  have share := (Within.refl x.value).div tens hx.value_nonneg hx.value_nonneg
    (zero_lt_one.trans_le one) scale
  rw [Nat.zero_add] at share
  have both := near.trans share.near halfQuantum_pos.le le_rfl
  rw [add_zero] at both
  exact ⟨unsigned, both⟩

/-- The first of two divisions leaves a slack that the second one makes smaller. -/
theorem two_divisions_slack {h t : ℚ} (pos : 0 < h) (ten : 10 ≤ t) :
    (h * roundingFactor ^ 2 + h * roundingFactor ^ 2 / t) * roundingFactor ^ 4 ≤ 5 / 4 * h := by
  have factor : 0 ≤ h * roundingFactor ^ 2 :=
    mul_nonneg pos.le (roundingFactor_pow_nonneg 2)
  have tenth : h * roundingFactor ^ 2 / t ≤ h * roundingFactor ^ 2 / 10 :=
    div_le_div_of_nonneg_left factor (by norm_num) ten
  calc (h * roundingFactor ^ 2 + h * roundingFactor ^ 2 / t) * roundingFactor ^ 4
      ≤ (h * roundingFactor ^ 2 + h * roundingFactor ^ 2 / 10) * roundingFactor ^ 4 :=
        mul_le_mul_of_nonneg_right (add_le_add_right tenth _)
          (roundingFactor_pow_nonneg 4)
    _ = 11 / 10 * roundingFactor ^ 6 * h := by ring
    _ ≤ 5 / 4 * h := mul_le_mul_of_nonneg_right (by norm_num [roundingFactor]) pos.le

theorem near_div_div_tenPow (hx : x.Unsigned) (few : power ≤ 308) (more : 0 < power')
    (few' : power' ≤ 308) :
    (x / tenPow power / tenPow power').Unsigned ∧
      Near 4 (5 / 4 * halfQuantum) (x / tenPow power / tenPow power').value
        (x.value / 10 ^ (power' + power)) := by
  obtain ⟨unsigned, near⟩ := near_div_tenPow hx few
  obtain ⟨unsigned', near'⟩ := near_div_tenPow unsigned few'
  have ten : (10 : ℚ) ≤ 10 ^ power' := le_self_pow₀ (by norm_num) more.ne'
  have slack : 0 ≤ halfQuantum * roundingFactor ^ 2 :=
    mul_nonneg halfQuantum_pos.le (roundingFactor_pow_nonneg 2)
  have scale : (0 : ℚ) < 10 ^ power' := by positivity
  have divided := near.div_right scale
  rw [div_div, ← pow_add, Nat.add_comm power] at divided
  have both := near'.trans divided slack (div_nonneg slack scale.le)
  exact ⟨unsigned', both.mono (le_refl 4) (two_divisions_slack halfQuantum_pos ten)
    unsigned'.value_nonneg (div_nonneg hx.value_nonneg (by positivity))⟩

theorem two_pow_quanta_le : 2 ^ 70 * quantaPerUnit ≤ Nat.pow 10 400 := by decide +kernel

/-- Of a word, such a power of ten leaves no more than a part of a quantum. -/
theorem div_ten_pow_le {r : ℚ} (few : r ≤ 2 ^ 65) (many : 400 ≤ power) :
    r / 10 ^ power ≤ halfQuantum / 16 := by
  have enough : (2 : ℚ) ^ 70 * quantaPerUnit ≤ 10 ^ power := by
    have : 2 ^ 70 * quantaPerUnit ≤ 10 ^ power :=
      two_pow_quanta_le.trans (Nat.pow_le_pow_right (by norm_num) many)
    exact_mod_cast this
  have unit := quantaPerUnit_cast_pos
  have scale : (0 : ℚ) < 10 ^ power := by positivity
  rw [div_le_iff₀ scale]
  calc r ≤ 2 ^ 65 := few
    _ = 1 / 2 / quantaPerUnit / 16 * (2 ^ 70 * quantaPerUnit) := by
      field_simp
      norm_num
    _ ≤ halfQuantum / 16 * 10 ^ power :=
      mul_le_mul_of_nonneg_left enough (div_nonneg halfQuantum_pos.le (by norm_num))

/-- After two divisions nothing is left of a word, and further ones keep it so. -/
theorem near_divideDown_of_many (hx : x.Unsigned) (few : x.value ≤ 2 ^ 65) (more : 0 < power) :
    Near 4 (3 / 2 * halfQuantum) (divideDown x (power + 308 + 308)).value
      (x.value / 10 ^ (power + 308 + 308)) := by
  have half := halfQuantum_pos
  obtain ⟨unsigned, -⟩ := near_div_tenPow hx (le_refl 308)
  obtain ⟨unsigned', near⟩ := near_div_div_tenPow hx (le_refl 308) (by norm_num) (le_refl 308)
  obtain ⟨unsigned'', less⟩ := divideDown_le unsigned' power
  rw [divideDown_step hx (by omega), divideDown_step unsigned more]
  refine Near.of_small 4 unsigned''.value_nonneg (div_nonneg hx.value_nonneg (by positivity))
    (less.trans ?_) ?_
  · have tiny := div_ten_pow_le few (show 400 ≤ 308 + 308 by norm_num)
    have factor : roundingFactor ^ 4 ≤ 2 := by norm_num [roundingFactor]
    have grown := mul_le_mul tiny factor (roundingFactor_pow_nonneg 4)
      (div_nonneg half.le (by norm_num))
    have upper := near.le.trans (add_le_add_left grown _)
    linarith
  · have := div_ten_pow_le few (show 400 ≤ power + 308 + 308 by omega)
    linarith

/-- A word over a power of ten, whichever. -/
theorem near_divideDown (hx : x.Unsigned) (few : x.value ≤ 2 ^ 65) (power : ℕ) :
    Near 4 (3 / 2 * halfQuantum) (divideDown x power).value (x.value / 10 ^ power) := by
  have half := halfQuantum_pos
  have exact : 0 ≤ x.value / 10 ^ power := div_nonneg hx.value_nonneg (by positivity)
  rcases Nat.lt_or_ge 308 power with more | once
  · obtain ⟨further, rfl⟩ : ∃ further, power = further + 308 := ⟨power - 308, by omega⟩
    rcases Nat.lt_or_ge 308 further with more' | twice
    · obtain ⟨last, rfl⟩ : ∃ last, further = last + 308 := ⟨further - 308, by omega⟩
      exact near_divideDown_of_many hx few (by omega)
    · obtain ⟨unsigned, near⟩ := near_div_div_tenPow hx (le_refl 308) (by omega) twice
      rw [divideDown_step hx (by omega), divideDown_of_few twice]
      exact near.mono le_rfl (by linarith) unsigned.value_nonneg exact
  · obtain ⟨unsigned, near⟩ := near_div_tenPow hx once
    rw [divideDown_of_few once]
    refine near.mono (by norm_num) ?_ unsigned.value_nonneg exact
    rw [mul_comm]
    exact mul_le_mul_of_nonneg_right (by norm_num [roundingFactor]) half.le

end MicroBench.Json
