import MicroBench.Binary64.Arithmetic
import MicroBench.Proofs.Binary64.Within

/-! Rounding a quotient of naturals to a count of quanta: how far the result is from
the quotient, when it can be represented, and which quotients are rounded to a given
count. Overflow is left aside, as in `nearestQuanta`. -/
namespace MicroBench

theorem roundedDiv_bounds (n d : ℕ) (pos : 0 < d) :
    2 * (roundedDiv n d * d) ≤ 2 * n + d ∧ 2 * n ≤ 2 * (roundedDiv n d * d) + d := by
  have parts := Nat.div_add_mod n d
  have small := Nat.mod_lt n pos
  rw [Nat.mul_comm] at parts
  simp only [roundedDiv]
  split
  · constructor <;> omega
  · rw [Nat.add_mul]
    constructor <;> omega

/-- The whole number is at most a half from the exact quotient. -/
theorem abs_roundedDiv_sub_le (n d : ℕ) (pos : 0 < d) :
    |(roundedDiv n d : ℚ) - n / d| ≤ 1 / 2 := by
  obtain ⟨upper, lower⟩ := roundedDiv_bounds n d pos
  have divisor : (0 : ℚ) < d := by exact_mod_cast pos
  have upper' : 2 * ((roundedDiv n d : ℚ) * d) ≤ 2 * n + d := by exact_mod_cast upper
  have lower' : 2 * (n : ℚ) ≤ 2 * (roundedDiv n d * d) + d := by exact_mod_cast lower
  have above : (n : ℚ) / d ≤ roundedDiv n d + 1 / 2 := by
    rw [div_le_iff₀ divisor]
    linarith
  have below : (roundedDiv n d : ℚ) - 1 / 2 ≤ n / d := by
    rw [le_div_iff₀ divisor]
    linarith
  rw [abs_le]
  constructor <;> linarith

example : roundedDiv 5 2 = 2 ∧ roundedDiv 7 2 = 4 := by decide

/-- A quotient is rounded to the whole number less than half from it. -/
theorem roundedDiv_eq_of_near {n d q : ℕ} (above : 2 * n < 2 * (q * d) + d)
    (below : 2 * (q * d) < 2 * n + d) : roundedDiv n d = q := by
  have pos : 0 < d := by omega
  obtain ⟨upper, lower⟩ := roundedDiv_bounds n d pos
  apply Nat.le_antisymm
  · have : roundedDiv n d * d < (q + 1) * d := by rw [Nat.add_mul]; omega
    exact Nat.le_of_lt_succ (Nat.lt_of_mul_lt_mul_right this)
  · have : q * d < (roundedDiv n d + 1) * d := by rw [Nat.add_mul]; omega
    exact Nat.le_of_lt_succ (Nat.lt_of_mul_lt_mul_right this)

/-! ### The distance between neighbours -/

theorem spacing_pos (q : ℕ) : 0 < spacing q := Nat.two_pow_pos _

/-- Below `2 ^ 53` quanta, neighbours are one quantum apart. -/
theorem spacing_eq_one {q : ℕ} (small : q < 2 ^ 53) : spacing q = 1 := by
  have : q.log2 ≤ 52 := by
    by_cases zero : q = 0
    · simp [zero]
    · have := (Nat.log2_lt zero).2 small
      omega
  simp [spacing, Nat.sub_eq_zero_of_le this]

/-- A number with 53 significant bits or more is so many times the spacing around it. -/
theorem spacing_bounds {q : ℕ} (large : 2 ^ 52 ≤ q) :
    2 ^ 52 * spacing q ≤ q ∧ q < 2 ^ 53 * spacing q := by
  have nonzero : q ≠ 0 := by have := Nat.two_pow_pos 52; omega
  have bits : 52 ≤ q.log2 := (Nat.le_log2 nonzero).2 large
  rw [spacing, Nat.pow_eq, ← Nat.pow_add, ← Nat.pow_add]
  constructor
  · rw [Nat.add_sub_of_le bits]
    exact Nat.log2_self_le nonzero
  · rw [show 53 + (q.log2 - 52) = q.log2 + 1 by omega]
    exact Nat.lt_log2_self

theorem spacing_eq_of_bounds {q k : ℕ} (lower : 2 ^ 52 * 2 ^ k ≤ q) (upper : q < 2 ^ 53 * 2 ^ k) :
    spacing q = 2 ^ k := by
  have nonzero : q ≠ 0 := by
    have := Nat.mul_pos (Nat.two_pow_pos 52) (Nat.two_pow_pos k)
    omega
  have : q.log2 = 52 + k := by
    rw [Nat.log2_eq_iff nonzero, Nat.pow_add, show 52 + k + 1 = 53 + k by omega, Nat.pow_add]
    exact ⟨lower, upper⟩
  rw [spacing, Nat.pow_eq, this, Nat.add_sub_cancel_left]

/-- Whatever has 53 significant bits and does not overflow can be represented. -/
theorem representable_mul_two_pow {m k : ℕ} (bits : m ≤ 2 ^ 53)
    (le : m * 2 ^ k ≤ largestQuanta) : Representable (m * 2 ^ k) := by
  refine ⟨le, ?_⟩
  rcases Nat.lt_or_ge (m * 2 ^ k) (2 ^ 53) with small | large
  · rw [spacing_eq_one small, Nat.mod_one]
  apply Nat.mod_eq_zero_of_dvd
  have positive : 0 < 2 ^ k := Nat.two_pow_pos k
  rcases Nat.lt_or_ge m (2 ^ 53) with less | full
  · have : (m * 2 ^ k).log2 < 53 + k := by
      rw [Nat.log2_lt (by have := Nat.two_pow_pos 53; omega), Nat.pow_add]
      exact Nat.mul_lt_mul_of_pos_right less positive
    exact (Nat.pow_dvd_pow 2 (by omega)).trans (Nat.dvd_mul_left _ _)
  · obtain rfl : m = 2 ^ 53 := Nat.le_antisymm bits full
    rw [spacing, ← Nat.pow_add, Nat.log2_two_pow]
    exact Nat.pow_dvd_pow 2 (by omega)

namespace Binary64

theorem spacing_eq_two_pow (q : ℕ) : ∃ k, spacing q = 2 ^ k := ⟨_, rfl⟩

variable {num den : ℕ}

/-- What is rounded is off by half of the distance between neighbours at most. -/
theorem nearestQuanta_bounds (num : ℕ) (pos : 0 < den) :
    2 * (nearestQuanta num den * den) ≤ 2 * num + den * spacing (num / den) ∧
      2 * num ≤ 2 * (nearestQuanta num den * den) + den * spacing (num / den) := by
  have bounds := roundedDiv_bounds num (den * spacing (num / den))
    (Nat.mul_pos pos (spacing_pos _))
  have : nearestQuanta num den * den =
      roundedDiv num (den * spacing (num / den)) * (den * spacing (num / den)) := by
    simp only [nearestQuanta]
    ring
  rwa [this]

/-- Rounding does not leave the range of numbers with the same spacing, its upper end included. -/
theorem nearestQuanta_in_range (pos : 0 < den) (large : 2 ^ 52 * den ≤ num) :
    ∃ m, 2 ^ 52 ≤ m ∧ m ≤ 2 ^ 53 ∧ nearestQuanta num den = m * spacing (num / den) := by
  have quotient : 2 ^ 52 ≤ num / den := (Nat.le_div_iff_mul_le pos).2 large
  obtain ⟨lower, upper⟩ := spacing_bounds quotient
  have positive := spacing_pos (num / den)
  have whole : num / (den * spacing (num / den)) = num / den / spacing (num / den) :=
    (Nat.div_div_eq_div_mul _ _ _).symm
  refine ⟨roundedDiv num (den * spacing (num / den)), ?_, ?_, rfl⟩
  · have := le_roundedDiv num (den * spacing (num / den))
    rw [whole] at this
    exact ((Nat.le_div_iff_mul_le positive).2 lower).trans this
  · have := roundedDiv_le num (den * spacing (num / den))
    rw [whole] at this
    have := (Nat.div_lt_iff_lt_mul positive).2 upper
    omega

/-- Rounding is one rounding where 53 bits are kept. -/
theorem within_nearestQuanta (pos : 0 < den) (large : 2 ^ 52 * den ≤ num) :
    Within 1 (nearestQuanta num den) (num / den) := by
  obtain ⟨upper, lower⟩ := nearestQuanta_bounds num pos
  obtain ⟨m, least, -, rounded⟩ := nearestQuanta_in_range pos large
  have quotient : 2 ^ 52 ≤ num / den := (Nat.le_div_iff_mul_le pos).2 large
  have step : 2 ^ 52 * spacing (num / den) * den ≤ num :=
    (Nat.mul_le_mul_right den (spacing_bounds quotient).1).trans (Nat.div_mul_le_self num den)
  have step' : 2 ^ 52 * spacing (num / den) ≤ nearestQuanta num den :=
    rounded ▸ Nat.mul_le_mul_right _ least
  generalize nearestQuanta num den = x, spacing (num / den) = s at *
  have hden : (0 : ℚ) < den := by exact_mod_cast pos
  have upper' : 2 * ((x : ℚ) * den) ≤ 2 * num + den * s := by exact_mod_cast upper
  have lower' : 2 * (num : ℚ) ≤ 2 * (x * den) + den * s := by exact_mod_cast lower
  have small : (2 : ℚ) ^ 52 * s * den ≤ num := by exact_mod_cast step
  have small' : (2 : ℚ) ^ 52 * s ≤ x := by exact_mod_cast step'
  have small'' : (2 : ℚ) ^ 52 * s * den ≤ x * den := mul_le_mul_of_nonneg_right small' hden.le
  constructor
  · rw [div_mul_eq_mul_div, le_div_iff₀ hden, pow_one, roundingFactor]
    linarith
  · rw [div_le_iff₀ hden, pow_one, roundingFactor]
    linarith

/-- A whole number of quanta is rounded once at most; below 53 bits it is kept. -/
theorem within_nearestQuanta_one (n : ℕ) : Within 1 (nearestQuanta n 1) n := by
  rcases Nat.lt_or_ge n (2 ^ 52) with small | large
  · have : nearestQuanta n 1 = n := by
      have one : spacing n = 1 := spacing_eq_one (by omega)
      have whole := roundedDiv_mul_self n 1 Nat.one_pos
      rw [Nat.mul_one] at whole
      simp only [nearestQuanta, Nat.div_one, one, Nat.mul_one, whole]
    rw [this]
    exact (Within.refl _).mono (Nat.zero_le 1) (Nat.cast_nonneg n) (Nat.cast_nonneg n)
  · have := within_nearestQuanta Nat.one_pos (by omega : 2 ^ 52 * 1 ≤ n)
    rwa [Nat.cast_one, div_one] at this

theorem nearestQuanta_le_of_small (pos : 0 < den) (small : num < 2 ^ 52 * den) :
    nearestQuanta num den ≤ 2 ^ 52 := by
  have quotient : num / den < 2 ^ 52 := (Nat.div_lt_iff_lt_mul pos).2 small
  have one : spacing (num / den) = 1 := spacing_eq_one (by omega)
  have bits := roundedDiv_le num den
  simp only [nearestQuanta, one, Nat.mul_one]
  omega

/-- Rounding leads to a number, unless it overflows. -/
theorem representable_nearestQuanta (pos : 0 < den)
    (le : nearestQuanta num den ≤ largestQuanta) : Representable (nearestQuanta num den) := by
  rcases Nat.lt_or_ge num (2 ^ 52 * den) with small | large
  · have bits := nearestQuanta_le_of_small pos small
    have := representable_mul_two_pow (k := 0) (by omega : nearestQuanta num den ≤ 2 ^ 53)
      (by rw [pow_zero, Nat.mul_one]; exact le)
    rw [pow_zero, Nat.mul_one] at this
    exact this
  · obtain ⟨m, -, bits, rounded⟩ := nearestQuanta_in_range pos large
    obtain ⟨k, power⟩ := spacing_eq_two_pow (num / den)
    rw [rounded, power] at le ⊢
    exact representable_mul_two_pow bits le

/-! ### Quotients near a number -/

/-- Below 53 bits, a quotient less than half a quantum away is rounded to `q`. -/
theorem nearestQuanta_eq_of_near_small {q : ℕ} (pos : 0 < den) (small : q < 2 ^ 53)
    (above : 2 * num < 2 * (q * den) + den) (below : 2 * (q * den) < 2 * num + den) :
    nearestQuanta num den = q := by
  have quotient : num / den < q + 1 := (Nat.div_lt_iff_lt_mul pos).2 (by rw [Nat.add_mul]; omega)
  have one : spacing (num / den) = 1 := spacing_eq_one (by omega)
  simp only [nearestQuanta, one, Nat.mul_one]
  exact roundedDiv_eq_of_near above below

/-- Where the spacing is `2 ^ k`, a quotient less than half of it away from `m` times it is rounded
to that. -/
theorem nearestQuanta_eq_of_near_large {m k : ℕ} (pos : 0 < den)
    (lower : 2 ^ 52 * (2 ^ k * den) ≤ num) (upper : num < 2 ^ 53 * (2 ^ k * den))
    (above : 2 * num < 2 * (m * (2 ^ k * den)) + 2 ^ k * den)
    (below : 2 * (m * (2 ^ k * den)) < 2 * num + 2 ^ k * den) :
    nearestQuanta num den = m * 2 ^ k := by
  have spaced : spacing (num / den) = 2 ^ k := by
    apply spacing_eq_of_bounds
    · rw [Nat.le_div_iff_mul_le pos, Nat.mul_assoc]
      exact lower
    · rw [Nat.div_lt_iff_lt_mul pos, Nat.mul_assoc]
      exact upper
  simp only [nearestQuanta, spaced]
  rw [Nat.mul_comm den]
  rw [roundedDiv_eq_of_near above below]

/-- A quotient nearer to a number than the number's `2 ^ 54`th part is rounded to that number. No
more is allowed: below a power of two the neighbours are half as far apart as above it. -/
theorem nearestQuanta_eq_of_near {q : ℕ} (rep : Representable q) (pos : 0 < den)
    (above : 2 ^ 54 * num < (2 ^ 54 + 1) * (q * den))
    (below : (2 ^ 54 - 1) * (q * den) < 2 ^ 54 * num) : nearestQuanta num den = q := by
  rcases Nat.lt_or_ge q (2 ^ 53) with small | large
  · have : q * den ≤ 2 ^ 53 * den := Nat.mul_le_mul_right den small.le
    exact nearestQuanta_eq_of_near_small pos small (by omega) (by omega)
  obtain ⟨lower, upper⟩ := spacing_bounds (show 2 ^ 52 ≤ q by omega)
  obtain ⟨k, power⟩ := spacing_eq_two_pow q
  obtain ⟨m, split⟩ := Nat.dvd_of_mod_eq_zero rep.2
  rw [power, Nat.mul_comm] at split
  rw [power] at lower upper
  have least : 2 ^ 52 ≤ m := Nat.le_of_mul_le_mul_right (split ▸ lower) (Nat.two_pow_pos k)
  have most : m < 2 ^ 53 := Nat.lt_of_mul_lt_mul_right (split ▸ upper)
  have regroup : q * den = m * (2 ^ k * den) := by rw [split, Nat.mul_assoc]
  rw [regroup] at above below
  have least' := Nat.mul_le_mul_right (2 ^ k * den) least
  have most' := Nat.mul_le_mul_right (2 ^ k * den) (show m ≤ 2 ^ 53 - 1 by omega)
  rcases Nat.lt_or_ge num (2 ^ 52 * (2 ^ k * den)) with below' | beyond
  · -- the quotient is below the power of two `q`, where the numbers are closer together
    have boundary : m = 2 ^ 52 := by
      by_contra other
      have := Nat.mul_le_mul_right (2 ^ k * den) (show 2 ^ 52 + 1 ≤ m by omega)
      omega
    have positive : 0 < k := by
      by_contra zero
      obtain rfl : k = 0 := by omega
      omega
    obtain ⟨j, rfl⟩ := Nat.exists_eq_add_of_lt positive
    have half : 2 ^ (0 + j + 1) * den = 2 * (2 ^ j * den) := by
      rw [Nat.zero_add, Nat.pow_succ]
      ring
    subst boundary
    rw [half] at below' above below
    rw [nearestQuanta_eq_of_near_large (m := 2 ^ 53) (k := j) pos (by omega) (by omega)
      (by omega) (by omega), split]
    ring
  · rw [split]
    exact nearestQuanta_eq_of_near_large pos beyond (by omega) (by omega) (by omega)

/-- A number is rounded to itself. -/
theorem nearestQuanta_self {q : ℕ} (rep : Representable q) (positive : 0 < q) :
    nearestQuanta q 1 = q :=
  nearestQuanta_eq_of_near rep Nat.one_pos (by omega) (by omega)

end Binary64

end MicroBench
