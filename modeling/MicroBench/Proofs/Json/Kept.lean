import MicroBench.Proofs.Binary64.Within
import MicroBench.Proofs.Json.Exact
import MicroBench.Proofs.Json.Readings

/-! The digits that are kept of a number. Digits are dropped only where those before them
fill a word nearly up, so what is kept, times its power of ten, is the number that is
written up to less than one rounding. -/
namespace MicroBench.Json

variable {digits : List Char} {significand : ℕ}

/-- Further digits put a number into the unit that it has with their places. -/
theorem ofDigitChars_bounds (digit : ∀ c ∈ digits, c.isDigit = true) (start : ℕ) :
    start * 10 ^ digits.length ≤ Nat.ofDigitChars 10 digits start ∧
      Nat.ofDigitChars 10 digits start < (start + 1) * 10 ^ digits.length := by
  induction digits generalizing start with
  | nil => simp
  | cons c digits ih =>
    obtain ⟨first, others⟩ := List.forall_mem_cons.1 digit
    have small := digitValue_le first
    obtain ⟨lower, upper⟩ := ih others (10 * start + digitValue c)
    rw [Nat.ofDigitChars_cons, ← digitValue, List.length_cons, pow_succ', ← mul_assoc, ← mul_assoc]
    constructor
    · exact (Nat.mul_le_mul_right _ (by omega)).trans lower
    · exact upper.trans_le (Nat.mul_le_mul_right _ (by omega))

/-- Two values in one unit of a large number are apart by less than a rounding. -/
theorem within_of_unit {n : ℕ} {unit x y : ℚ} (large : 2 ^ 53 ≤ n) (pos : 0 < unit)
    (hx : n * unit ≤ x ∧ x ≤ (n + 1) * unit) (hy : n * unit ≤ y ∧ y ≤ (n + 1) * unit) :
    Within 1 x y := by
  have many : (2 : ℚ) ^ 53 ≤ n := by exact_mod_cast large
  have step : (n + 1) * unit ≤ n * unit * roundingFactor := by
    have := mul_le_mul_of_nonneg_right many pos.le
    rw [roundingFactor]
    linarith
  have factor := zero_le_one.trans one_le_roundingFactor
  constructor
  · rw [pow_one]
    exact hx.2.trans (step.trans (mul_le_mul_of_nonneg_right hy.1 factor))
  · rw [pow_one]
    exact hy.2.trans (step.trans (mul_le_mul_of_nonneg_right hx.1 factor))

def Scaled.exact (s : Scaled) : ℚ := s.significand * 10 ^ s.exponent

namespace Numeral

variable (x : Numeral)

/-- The number without its sign and its exponent. -/
def mantissa : ℚ :=
  Nat.ofDigitChars 10 (x.whole ++ x.fraction) 0 * 10 ^ (-(x.fraction.length : ℤ))

/-- A number is its mantissa times the power of ten of its exponent. -/
theorem exact_eq : x.exact = x.mantissa * 10 ^ shift x.exponent := by
  rw [exact, mantissa, mul_assoc, ← zpow_add₀ (by norm_num)]
  congr 2
  omega

theorem mantissa_nonneg : 0 ≤ x.mantissa := by
  rw [mantissa]
  positivity

theorem exact_nonneg : 0 ≤ x.exact := by
  rw [exact]
  positivity

theorem significand_le : x.scaled.significand ≤ largestWord :=
  takeFitting_le (takeFitting_le (Nat.zero_le _) 0 x.whole) 0 x.fraction

/-- Digits that follow a number and bring its point up with them leave it in its unit. -/
theorem unit_of_digits (digit : ∀ c ∈ digits, c.isDigit = true) (start : ℕ) (places : ℤ) :
    start * (10 : ℚ) ^ (places + digits.length) ≤
        Nat.ofDigitChars 10 digits start * (10 : ℚ) ^ places ∧
      Nat.ofDigitChars 10 digits start * (10 : ℚ) ^ places ≤
        (start + 1) * (10 : ℚ) ^ (places + digits.length) := by
  obtain ⟨lower, upper⟩ := ofDigitChars_bounds digit start
  have lower' : (start : ℚ) * 10 ^ digits.length ≤ Nat.ofDigitChars 10 digits start := by
    exact_mod_cast lower
  have upper' : (Nat.ofDigitChars 10 digits start : ℚ) ≤ (start + 1) * 10 ^ digits.length := by
    exact_mod_cast upper.le
  have scale : (0 : ℚ) < 10 ^ places := by positivity
  rw [zpow_add₀ (by norm_num), zpow_natCast, mul_comm ((10 : ℚ) ^ places), ← mul_assoc, ← mul_assoc]
  exact ⟨mul_le_mul_of_nonneg_right lower' scale.le, mul_le_mul_of_nonneg_right upper' scale.le⟩

/-- When no digit fits any more, at least 53 bits are kept. -/
theorem large_of_full (full : largestWord < significand * 10 + 9) : 2 ^ 53 ≤ significand := by
  rw [largestWord] at full
  omega

/-- All integer digits fit, and digits of the fraction may have been dropped. -/
theorem within_kept_of_fitting (all : x.fitting.rest = []) :
    Within 1 x.scaled.exact x.mantissa := by
  obtain ⟨front, split, value, -, -⟩ := takeFitting_split x.canonical.digit 0 0
  obtain ⟨part, split', value', count, full⟩ :=
    takeFitting_split x.digit x.fitting.significand 0
  rw [← fitting] at split value
  rw [← fittingFraction] at split' value' count full
  have further : ∀ c ∈ x.fittingFraction.rest, c.isDigit = true := takeFitting_rest x.digit
  have exponent : x.scaled.exponent = -(x.fraction.length : ℤ) + x.fittingFraction.rest.length := by
    have places := congrArg List.length split'
    rw [List.length_append] at places
    simp only [scaled, all, count, List.length_nil]
    omega
  have digits : Nat.ofDigitChars 10 (x.whole ++ x.fraction) 0 =
      Nat.ofDigitChars 10 x.fittingFraction.rest x.scaled.significand := by
    rw [all, List.append_nil] at split
    rw [Nat.ofDigitChars_append, split, ← value, split', Nat.ofDigitChars_append, ← value']
    rfl
  have unit : (0 : ℚ) < 10 ^ x.scaled.exponent := by positivity
  have bounds := unit_of_digits further x.scaled.significand (-(x.fraction.length : ℤ))
  rw [← exponent, ← digits, ← mantissa] at bounds
  rcases full with empty | full
  · have same : x.scaled.exact = x.mantissa := by
      rw [empty] at digits exponent
      rw [Scaled.exact, mantissa, digits, exponent]
      simp
    rw [same]
    exact (Within.refl _).mono (Nat.zero_le 1) x.mantissa_nonneg x.mantissa_nonneg
  · exact within_of_unit (n := x.scaled.significand) (large_of_full full) unit
      ⟨le_rfl, mul_le_mul_of_nonneg_right (by linarith) unit.le⟩ bounds

/-- Integer digits were dropped; a digit of the fraction may still have been kept. -/
theorem within_kept_of_dropped (dropped : x.fitting.rest ≠ []) :
    Within 1 x.scaled.exact x.mantissa := by
  obtain ⟨front, split, value, -, full⟩ := takeFitting_split x.canonical.digit 0 0
  obtain ⟨part, split', value', count, -⟩ :=
    takeFitting_split x.digit x.fitting.significand 0
  rw [← fitting] at split value full
  rw [← fittingFraction] at split' value' count
  have digit : ∀ c ∈ part, c.isDigit = true := fun c member =>
    x.digit c (split' ▸ List.mem_append_left _ member)
  have further : ∀ c ∈ x.fitting.rest ++ x.fraction, c.isDigit = true := by
    intro c member
    rcases List.mem_append.1 member with whole | fraction
    · exact takeFitting_rest x.canonical.digit c whole
    · exact x.digit c fraction
  have bounds := unit_of_digits digit x.fitting.significand x.scaled.exponent
  have bounds' := unit_of_digits further x.fitting.significand (-(x.fraction.length : ℤ))
  have digits : Nat.ofDigitChars 10 (x.whole ++ x.fraction) 0 =
      Nat.ofDigitChars 10 (x.fitting.rest ++ x.fraction) x.fitting.significand := by
    rw [value, ← Nat.ofDigitChars_append, ← List.append_assoc, ← split]
  have places : x.scaled.exponent + part.length = x.fitting.rest.length := by
    simp only [scaled, count]
    omega
  have places' : -(x.fraction.length : ℤ) + (x.fitting.rest ++ x.fraction).length =
      x.fitting.rest.length := by
    rw [List.length_append]
    omega
  rw [← value', places] at bounds
  rw [places', ← digits, ← mantissa] at bounds'
  exact within_of_unit (large_of_full (full.resolve_left dropped)) (by positivity) bounds bounds'

theorem within_kept : Within 1 x.scaled.exact x.mantissa := by
  by_cases all : x.fitting.rest = []
  · exact x.within_kept_of_fitting all
  · exact x.within_kept_of_dropped all

end Numeral

end MicroBench.Json
