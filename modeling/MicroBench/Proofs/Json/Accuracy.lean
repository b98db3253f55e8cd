import MicroBench.Proofs.Json.Kept
import MicroBench.Proofs.Json.Quotients

/-! How far the number that is read is from the number that is written. The digits that
are kept cost one rounding, and so do the whole number that they form, each power of ten,
and each product or quotient. -/
namespace MicroBench.Json

open Binary64

/-! ### Scaled digits -/

namespace Scaled

variable {s : Scaled} {y : Binary64}

theorem exact_of_neg (power : ℕ) (down : s.exponent = -(power : ℤ)) :
    s.exact = s.significand / 10 ^ power := by
  rw [exact, down, zpow_neg, zpow_natCast, ← div_eq_mul_inv]

theorem exact_of_nonneg (power : ℕ) (up : s.exponent = power) :
    s.exact = s.significand * 10 ^ power := by
  rw [exact, up, zpow_natCast]

/-- Slack that was not yet carried through all roundings has room for them. -/
theorem slack_le_quantum {h : ℚ} (nonneg : 0 ≤ h) {k : ℕ} (few : k ≤ 5) :
    (3 / 2 * h + 0) * roundingFactor ^ k ≤ 7 / 4 * h := by
  have factor := roundingFactor_pow_mono few
  have five : 3 / 2 * roundingFactor ^ 5 ≤ 7 / 4 := by norm_num [roundingFactor]
  calc (3 / 2 * h + 0) * roundingFactor ^ k = 3 / 2 * roundingFactor ^ k * h := by ring
    _ ≤ 7 / 4 * h := mul_le_mul_of_nonneg_right (by linarith) nonneg

theorem near_value_of_neg (fits : s.significand ≤ largestWord) (negative : s.exponent < 0)
    (found : s.value = some y) : y.Unsigned ∧ Near 5 (7 / 4 * halfQuantum) y.value s.exact := by
  obtain ⟨power, down⟩ := Int.exists_eq_neg_ofNat negative.le
  have size : s.exponent.natAbs = power := by rw [down, Int.natAbs_neg, Int.natAbs_natCast]
  obtain ⟨unsigned, word⟩ := word_near fits
  have few : (ofNat s.significand).value ≤ 2 ^ 65 := by
    have fits' : (s.significand : ℚ) ≤ 2 ^ 64 := by
      rw [largestWord] at fits
      exact_mod_cast fits.trans (by norm_num)
    have factor : roundingFactor ^ 1 ≤ 2 := by norm_num [roundingFactor]
    have := word.le.trans (mul_le_mul fits' factor (roundingFactor_pow_nonneg 1)
      (by norm_num))
    linarith
  have half := halfQuantum_pos
  have scale : (0 : ℚ) < 10 ^ power := by positivity
  rw [Scaled.value, if_pos negative, size, Option.some.injEq] at found
  obtain ⟨unsigned', -⟩ := divideDown_le unsigned power
  have both := (near_divideDown unsigned few power).trans (word.div_right scale).near
    (by positivity) le_rfl
  rw [exact_of_neg power down, ← found]
  exact ⟨unsigned', both.mono (le_refl 5) (slack_le_quantum half.le (le_refl 5))
    unsigned'.value_nonneg (by positivity)⟩

/-- The product of the digits and the power of ten, each as the reader has it. -/
theorem within_product (fits : s.significand ≤ largestWord) {power : ℕ} (few : power ≤ 308) :
    Within 2 ((ofNat s.significand).value * (tenPow power).value) (s.significand * 10 ^ power) := by
  obtain ⟨unsigned, word⟩ := word_near fits
  obtain ⟨unsigned', -, tens⟩ := tenPow_near few
  exact word.mul tens unsigned.value_nonneg (Nat.cast_nonneg _) unsigned'.value_nonneg
    (by positivity)

theorem near_value_of_nonneg (fits : s.significand ≤ largestWord) (nonneg : 0 ≤ s.exponent)
    (found : s.value = some y) : y.Unsigned ∧ Near 5 (7 / 4 * halfQuantum) y.value s.exact := by
  obtain ⟨power, up⟩ := Int.eq_ofNat_of_zero_le nonneg
  have size : s.exponent.natAbs = power := by rw [up, Int.natAbs_natCast]
  obtain ⟨unsigned, -⟩ := word_near fits
  have half := halfQuantum_pos
  rw [exact_of_nonneg power up]
  rw [Scaled.value, if_neg (not_lt.2 nonneg)] at found
  by_cases few : s.exponent ≤ 308
  · have few' : power ≤ 308 := by omega
    rw [if_pos few, size, ← tenPow] at found
    obtain ⟨finite, same⟩ := Option.ite_none_right_eq_some.1 found
    obtain ⟨unsigned', near⟩ := near_mul unsigned (tenPow_near few').1 finite
    have both := near.trans (within_product fits few').near half.le le_rfl
    rw [← Option.some.inj same]
    refine ⟨unsigned', both.mono (by norm_num) ?_ unsigned'.value_nonneg (by positivity)⟩
    exact (mul_le_mul_of_nonneg_right (by linarith) (by norm_num [roundingFactor])).trans
      (slack_le_quantum half.le (show 1 + 2 ≤ 5 by norm_num))
  · rw [if_neg few] at found
    obtain ⟨zero, same⟩ := Option.ite_none_right_eq_some.1 found
    rw [numEq_zero_iff unsigned.isFinite] at zero
    have nothing : s.significand = 0 := by
      by_contra digits
      exact absurd zero ((word_near fits).2.pos (by positivity)).ne'
    rw [← Option.some.inj same, nothing, Nat.cast_zero, zero_mul, ofNat_zero, value_zero]
    exact ⟨.zero, Near.of_small 5 le_rfl le_rfl (by positivity) (by positivity)⟩

/-- What a reader makes of scaled digits is off by five roundings and less than a quantum. -/
theorem near_value (fits : s.significand ≤ largestWord) (found : s.value = some y) :
    y.Unsigned ∧ Near 5 (7 / 4 * halfQuantum) y.value s.exact := by
  rcases lt_or_ge s.exponent 0 with negative | nonneg
  · exact near_value_of_neg fits negative found
  · exact near_value_of_nonneg fits nonneg found

theorem largestQuanta_lt : largestQuanta < Nat.pow 10 309 * quantaPerUnit := by decide +kernel

theorem largestValue_lt {power : ℕ} (many : 309 ≤ power) : largestValue < 10 ^ power := by
  have : largestQuanta < 10 ^ power * quantaPerUnit :=
    largestQuanta_lt.trans_le
      (Nat.mul_le_mul_right _ (Nat.pow_le_pow_right (by norm_num) many))
  rw [largestValue, div_lt_iff₀ quantaPerUnit_cast_pos]
  exact_mod_cast this

/-- Digits and a power of ten with room for two roundings below the largest number are read. -/
theorem exists_value (fits : s.significand ≤ largestWord)
    (small : s.exact * roundingFactor ^ 2 ≤ largestValue) : ∃ y, s.value = some y := by
  rcases lt_or_ge s.exponent 0 with negative | nonneg
  · exact ⟨_, by rw [Scaled.value, if_pos negative]⟩
  obtain ⟨power, up⟩ := Int.eq_ofNat_of_zero_le nonneg
  have size : s.exponent.natAbs = power := by rw [up, Int.natAbs_natCast]
  obtain ⟨unsigned, word⟩ := word_near fits
  rw [exact_of_nonneg power up] at small
  rw [Scaled.value, if_neg (not_lt.2 nonneg)]
  by_cases few : s.exponent ≤ 308
  · have few' : power ≤ 308 := by omega
    have finite := isFinite_mul unsigned (tenPow_near few').1
      ((within_product fits few').le.trans small)
    rw [if_pos few, size, ← tenPow]
    exact ⟨_, if_pos finite⟩
  · have nothing : s.significand = 0 := by
      by_contra digits
      have one : (1 : ℚ) ≤ s.significand := by
        exact_mod_cast Nat.one_le_iff_ne_zero.2 digits
      have scale : (0 : ℚ) ≤ 10 ^ power := by positivity
      have lower : (10 : ℚ) ^ power ≤ s.significand * 10 ^ power * roundingFactor ^ 2 :=
        (le_mul_of_one_le_left scale one).trans
          (le_mul_of_one_le_right (mul_nonneg (zero_le_one.trans one) scale)
            (one_le_roundingFactor_pow 2))
      have beyond := largestValue_lt (show 309 ≤ power by omega)
      exact absurd (lower.trans small) (not_le.2 beyond)
    have zero : (ofNat s.significand).numEq 0 := by
      rw [nothing, ofNat_zero]
      decide
    exact ⟨_, by rw [if_neg few, if_pos zero]⟩

end Scaled

/-! ### Numerals -/

namespace Numeral

variable {x : Numeral} {y : Binary64}

def length (x : Numeral) : ℕ := x.whole.length + x.fraction.length

theorem shifted_exact (s : Scaled) (e : Exponent) :
    (s.shifted e.down e.power).exact = s.exact * 10 ^ e.shift := by
  rw [Scaled.exact, Scaled.exact, mul_assoc, ← zpow_add₀ (by norm_num), Exponent.shift,
    Scaled.shifted]
  by_cases down : e.down = true
  · simp only [down, if_true]
    rfl
  · simp only [down, if_false, Bool.false_eq_true]

/-- The digits that are kept, with the exponent that is written. -/
theorem within_scaled (x : Numeral) :
    Within 1 (x.scaled.exact * 10 ^ shift x.exponent) x.exact := by
  have scale : (0 : ℚ) ≤ 10 ^ shift x.exponent := by positivity
  have kept : 0 ≤ x.scaled.exact := by
    rw [Scaled.exact]
    positivity
  rw [exact_eq]
  exact x.within_kept.mul (Within.refl _) kept x.mantissa_nonneg scale scale

/-- An exponent that is not counted any more takes every number but zero out of range. -/
theorem largestValue_lt_exact {e : Exponent} (short : x.length < 2 ^ 30)
    (written : x.exponent = some e) (many : Nat.pow 2 31 - 1 < e.power) (up : ¬ e.down = true)
    (digits : x.scaled.significand ≠ 0) : largestValue < x.exact := by
  have kept : 0 < x.scaled.exact := by
    have : (0 : ℚ) < x.scaled.significand := Nat.cast_pos.2 (Nat.pos_of_ne_zero digits)
    rw [Scaled.exact]
    positivity
  have pos := x.within_kept.symm.pos kept
  have one : (1 : ℚ) ≤ Nat.ofDigitChars 10 (x.whole ++ x.fraction) 0 := by
    rw [mantissa, mul_pos_iff_of_pos_right (by positivity)] at pos
    exact_mod_cast pos
  have places : shift (some e) - x.fraction.length = (e.power - x.fraction.length : ℕ) := by
    rw [shift, Exponent.shift, if_neg up]
    rw [length] at short
    norm_num at many
    omega
  have far : 309 ≤ e.power - x.fraction.length := by
    rw [length] at short
    norm_num at many
    omega
  rw [exact, written, places, zpow_natCast]
  exact (Scaled.largestValue_lt far).trans_le (le_mul_of_one_le_left (by positivity) one)

/-- Downwards it leaves less than a quantum. -/
theorem exact_le_of_down {e : Exponent} (short : x.length < 2 ^ 30)
    (written : x.exponent = some e) (many : Nat.pow 2 31 - 1 < e.power) (down : e.down = true) :
    x.exact ≤ halfQuantum := by
  have digit : ∀ c ∈ x.whole ++ x.fraction, c.isDigit = true := by
    intro c member
    exact (List.mem_append.1 member).elim (x.canonical.digit c) (x.digit c)
  have digits : (Nat.ofDigitChars 10 (x.whole ++ x.fraction) 0 : ℚ) ≤ 10 ^ x.length := by
    have := (ofDigitChars_bounds digit 0).2.le
    rw [Nat.zero_add, Nat.one_mul, List.length_append] at this
    exact_mod_cast this
  have places : shift (some e) - x.fraction.length = -((e.power + x.fraction.length : ℕ) : ℤ) := by
    rw [shift, Exponent.shift, if_pos down]
    omega
  obtain ⟨rest, split⟩ : ∃ rest, e.power + x.fraction.length = x.length + rest ∧ 400 ≤ rest := by
    refine ⟨e.power + x.fraction.length - x.length, ?_⟩
    norm_num at many
    omega
  have tiny := div_ten_pow_le (show (1 : ℚ) ≤ 2 ^ 65 by norm_num) split.2
  have half := halfQuantum_pos
  have scale : (0 : ℚ) < 10 ^ x.length := by positivity
  rw [exact, written, places, zpow_neg, zpow_natCast, split.1, pow_add, ← div_eq_mul_inv,
    ← div_div]
  calc (Nat.ofDigitChars 10 (x.whole ++ x.fraction) 0 : ℚ) / 10 ^ x.length / 10 ^ rest
      ≤ 1 / 10 ^ rest :=
        div_le_div_of_nonneg_right ((div_le_one scale).2 digits) (by positivity)
    _ ≤ halfQuantum := by linarith

theorem near_of_scaled {s : Scaled} (fits : s.significand ≤ largestWord)
    (found : s.value = some y) (near : Within 1 s.exact x.exact) :
    y.Unsigned ∧ Near 6 (2 * halfQuantum) y.value x.exact := by
  obtain ⟨unsigned, near'⟩ := Scaled.near_value fits found
  have half := halfQuantum_pos
  have both := near'.trans near.near (by positivity) le_rfl
  refine ⟨unsigned, both.mono (le_refl 6) ?_ unsigned.value_nonneg x.exact_nonneg⟩
  have factor : 7 / 4 * roundingFactor ^ 6 ≤ 2 := by norm_num [roundingFactor]
  calc (7 / 4 * halfQuantum + 0) * roundingFactor ^ 6 = 7 / 4 * roundingFactor ^ 6 * halfQuantum :=
        by ring
    _ ≤ 2 * halfQuantum := mul_le_mul_of_nonneg_right factor half.le

/-- What a reader makes of a number is off by six roundings and a quantum. -/
theorem near_magnitude (short : x.length < 2 ^ 30) (found : x.magnitude = some y) :
    y.Unsigned ∧ Near 6 (2 * halfQuantum) y.value x.exact := by
  have near := x.within_scaled
  have fits := x.significand_le
  have half := halfQuantum_pos
  rw [magnitude] at found
  cases written : x.exponent with
  | none =>
    rw [written] at found near
    rw [shift, zpow_zero, mul_one] at near
    exact near_of_scaled fits found near
  | some e =>
    rw [written] at found near
    rw [shift, ← shifted_exact] at near
    rw [valueWith, Exponent.valueOf] at found
    by_cases many : Nat.pow 2 31 - 1 < e.power
    · rw [if_pos many] at found
      obtain ⟨zero, same⟩ := Option.ite_none_left_eq_some.1 found
      rw [← Option.some.inj same, value_zero]
      refine ⟨.zero, Near.of_small 6 le_rfl x.exact_nonneg (by positivity) ?_⟩
      by_cases down : e.down = true
      · have := exact_le_of_down short written many down
        linarith
      · have nothing : x.scaled.significand = 0 := by
          by_contra digits
          exact zero ⟨digits, by simpa using down⟩
        have : x.exact ≤ 0 := by
          have upper := near.ge
          rw [Scaled.exact, Scaled.shifted, nothing, Nat.cast_zero, zero_mul, zero_mul] at upper
          exact upper
        linarith
    · rw [if_neg many] at found
      exact near_of_scaled (s := x.scaled.shifted e.down e.power) fits found near

/-- A number with room for three roundings below the largest one is in range. -/
theorem exists_magnitude (short : x.length < 2 ^ 30)
    (small : x.exact * roundingFactor ^ 3 ≤ largestValue) : ∃ y, x.magnitude = some y := by
  have near := x.within_scaled
  have room {s : Scaled} (near : Within 1 s.exact x.exact) :
      s.exact * roundingFactor ^ 2 ≤ largestValue := by
    calc s.exact * roundingFactor ^ 2
        ≤ x.exact * roundingFactor ^ 1 * roundingFactor ^ 2 :=
          mul_le_mul_of_nonneg_right near.le (roundingFactor_pow_nonneg 2)
      _ = x.exact * roundingFactor ^ 3 := by ring
      _ ≤ largestValue := small
  rw [magnitude]
  cases written : x.exponent with
  | none =>
    rw [written, shift, zpow_zero, mul_one] at near
    exact Scaled.exists_value x.significand_le (room near)
  | some e =>
    rw [written, shift, ← shifted_exact] at near
    rw [valueWith, Exponent.valueOf]
    by_cases many : Nat.pow 2 31 - 1 < e.power
    · rw [if_pos many]
      refine ⟨0, if_neg ?_⟩
      rintro ⟨digits, up⟩
      have beyond := largestValue_lt_exact short written many (by simpa using up) digits
      have grown := le_mul_of_one_le_right x.exact_nonneg (one_le_roundingFactor_pow 3)
      exact absurd (grown.trans small) (not_le.2 beyond)
    · rw [if_neg many]
      exact Scaled.exists_value x.significand_le (room near)

end Numeral

end MicroBench.Json
