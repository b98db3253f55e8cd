import MicroBench.Proofs.Binary64.Value

/-! Each operation on positive numbers costs one rounding, as long as its exact result
is neither too small nor too large. A difference costs one rounding however small it is. -/
namespace MicroBench.Binary64

variable {num den : ℕ} {x y : Binary64}

theorem nearestQuanta_le_largest (pos : 0 < den) (normal : Normal (num / den / quantaPerUnit)) :
    nearestQuanta num den ≤ largestQuanta := by
  obtain ⟨lower, upper⟩ := normal
  have unit := quantaPerUnit_cast_pos
  rw [div_mul_cancel₀ _ unit.ne', le_div_iff₀ (Nat.cast_pos.2 pos)] at lower
  have near := (within_nearestQuanta pos (by exact_mod_cast lower)).1
  rw [div_mul_eq_mul_div, div_le_iff₀ unit] at upper
  rw [pow_one, roundingFactor] at near
  have positive := mul_pos unit unit
  have square := largestQuanta_mul
  -- the constants are generalized: no tactic may evaluate them
  generalize nearestQuanta num den = rounded, largestQuanta = largest, quantaPerUnit = quanta at *
  have square : (largest : ℚ) * 2 ^ 103 + quanta * quanta = 2 ^ 53 * (quanta * quanta) := by
    exact_mod_cast square
  have : (rounded : ℚ) ≤ largest := by linarith
  exact_mod_cast this

/-- Where nothing overflows or is too small for 53 bits, a quotient is rounded once. -/
theorem within_round (pos : 0 < den) (normal : Normal (num / den / quantaPerUnit)) :
    Within 1 (round false num den).value (num / den / quantaPerUnit) := by
  have unit := quantaPerUnit_cast_pos
  have rep := representable_nearestQuanta pos (nearestQuanta_le_largest pos normal)
  have lower := normal.1
  rw [div_mul_cancel₀ _ unit.ne', le_div_iff₀ (Nat.cast_pos.2 pos)] at lower
  rw [round, ofQuanta_of_representable false rep, value_finite, signedQuanta_false,
    Int.cast_natCast]
  exact (within_nearestQuanta pos (by exact_mod_cast lower)).div_right unit

theorem within_ofRatio (pos : 0 < den) (normal : Normal (num / den)) :
    Within 1 (ofRatio num den).value (num / den) := by
  have regroup : ((num * quantaPerUnit : ℕ) : ℚ) / den / quantaPerUnit = num / den := by
    have := quantaPerUnit_cast_pos.ne'
    push_cast
    field_simp
  have := within_round pos (regroup.symm ▸ normal)
  rwa [regroup] at this

theorem within_ofNat {n : ℕ} (normal : Normal n) : Within 1 (ofNat n).value n := by
  have := within_ofRatio Nat.one_pos (by simpa using normal)
  rwa [Nat.cast_one, div_one] at this

theorem ofNat_zero : ofNat 0 = 0 := by decide +kernel

/-- A natural, zero included, becomes a number with one rounding. -/
theorem within_ofNat_moderate {n : ℕ} (le : n ≤ 2 ^ 149) :
    (ofNat n).isFinite ∧ Within 1 (ofNat n).value n := by
  rcases Nat.eq_zero_or_pos n with rfl | pos
  · rw [ofNat_zero]
    refine ⟨isFinite_zero, ?_⟩
    simpa using (Within.refl 0).mono (Nat.zero_le 1) le_rfl le_rfl
  · have one : (1 : ℚ) ≤ n := by exact_mod_cast pos
    have near := within_ofNat (normal_of_moderate (r := n) (le_trans (by norm_num) one)
      (by exact_mod_cast le))
    exact ⟨isFinite_of_value_pos (near.pos (by linarith)), near⟩

/-- The product of two finite numbers is their exact product, rounded. -/
theorem finite_mul_finite (s t : Bool) {m n : ℕ} (hm : Representable m) (hn : Representable n) :
    finite s m hm * finite t n hn = round (s ^^ t) (m * n) quantaPerUnit := by
  change mul _ _ = _
  simp only [mul]

/-- The exact product of two positive numbers. -/
theorem value_mul_value {m n : ℕ} (hm : Representable m) (hn : Representable n) :
    (finite false m hm).value * (finite false n hn).value =
      ((m * n : ℕ) : ℚ) / quantaPerUnit / quantaPerUnit := by
  simp only [value_finite, signedQuanta_false, Int.cast_natCast, Nat.cast_mul]
  rw [div_mul_div_comm, div_div]

/-- A product in the normal range is off by one rounding. -/
theorem within_mul (hx : 0 < x.value) (hy : 0 < y.value) (normal : Normal (x.value * y.value)) :
    Within 1 (x * y).value (x.value * y.value) := by
  obtain ⟨m, hm, rfl, -⟩ := exists_of_value_pos hx
  obtain ⟨n, hn, rfl, -⟩ := exists_of_value_pos hy
  rw [value_mul_value] at normal ⊢
  rw [finite_mul_finite]
  exact within_round quantaPerUnit_pos normal

theorem finite_div_finite (s t : Bool) {m n : ℕ} (hm : Representable m) (hn : Representable n)
    (nonzero : n ≠ 0) :
    finite s m hm / finite t n hn = round (s ^^ t) (m * quantaPerUnit) n := by
  change div _ _ = _
  simp only [div, nonzero, if_false]

theorem within_div (hx : 0 < x.value) (hy : 0 < y.value) (normal : Normal (x.value / y.value)) :
    Within 1 (x / y).value (x.value / y.value) := by
  obtain ⟨m, hm, rfl, -⟩ := exists_of_value_pos hx
  obtain ⟨n, hn, rfl, pos⟩ := exists_of_value_pos hy
  have regroup : (finite false m hm).value / (finite false n hn).value =
      ((m * quantaPerUnit : ℕ) : ℚ) / n / quantaPerUnit := by
    have := quantaPerUnit_cast_pos.ne'
    have : (n : ℚ) ≠ 0 := Nat.cast_ne_zero.2 pos.ne'
    simp only [value_finite, signedQuanta_false, Int.cast_natCast, Nat.cast_mul]
    field_simp
  rw [regroup] at normal ⊢
  rw [finite_div_finite _ _ hm hn pos.ne']
  exact within_round pos normal

theorem nearestQuanta_zero (pos : 0 < den) : nearestQuanta 0 den = 0 := by
  simp [nearestQuanta, roundedDiv, spacing, pos]

theorem nearestQuanta_of_representable {q : ℕ} (rep : Representable q) : nearestQuanta q 1 = q := by
  rcases Nat.eq_zero_or_pos q with rfl | positive
  · exact nearestQuanta_zero Nat.one_pos
  · exact nearestQuanta_self rep positive

/-- The count of quanta in a unit is a power of two; which one hardly ever matters. -/
theorem quantaPerUnit_eq_two_pow : ∃ k, quantaPerUnit = 2 ^ k := by
  unfold quantaPerUnit
  generalize 1074 = k
  exact ⟨k, rfl⟩

theorem representable_whole {n : ℕ} (small : n ≤ 2 ^ 53) : Representable (n * quantaPerUnit) := by
  have room : 2 ^ 53 * quantaPerUnit ≤ largestQuanta := by decide +kernel
  have le := (Nat.mul_le_mul_right _ small).trans room
  obtain ⟨k, power⟩ := quantaPerUnit_eq_two_pow
  rw [power] at le ⊢
  exact representable_mul_two_pow small le

/-- A natural of 53 bits is kept. -/
theorem ofNat_eq {n : ℕ} (small : n ≤ 2 ^ 53) :
    ofNat n = finite false (n * quantaPerUnit) (representable_whole small) := by
  have exact := nearestQuanta_of_representable (representable_whole small)
  rw [ofNat, ofRatio, round, exact]
  exact ofQuanta_of_representable false (representable_whole small)

theorem isFinite_ofNat {n : ℕ} (small : n ≤ 2 ^ 53) : (ofNat n).isFinite := by
  rw [ofNat_eq small]
  rfl

/-- Naturals up to `2 ^ 53` are exact. -/
theorem value_ofNat {n : ℕ} (small : n ≤ 2 ^ 53) : (ofNat n).value = n := by
  rw [ofNat_eq small, value_finite, signedQuanta_false, Int.cast_natCast, Nat.cast_mul]
  exact mul_div_cancel_right₀ _ quantaPerUnit_cast_pos.ne'

/-- Zero over a positive number is zero. -/
theorem zero_div_of_pos (hy : 0 < y.value) : 0 / y = 0 := by
  obtain ⟨n, hn, rfl, pos⟩ := exists_of_value_pos hy
  have quotient : (0 : Binary64) / finite false n hn = round false (0 * quantaPerUnit) n :=
    finite_div_finite _ _ representable_zero hn pos.ne'
  rw [quotient, Nat.zero_mul, round, nearestQuanta_zero pos]
  exact ofQuanta_of_representable false representable_zero

/-- Zero times any finite number is zero. -/
theorem value_zero_mul (hx : x.isFinite) (zero : x.value = 0) (hy : y.isFinite) :
    (x * y).isFinite ∧ (x * y).value = 0 := by
  obtain ⟨s, rfl⟩ := exists_of_value_zero hx zero
  obtain ⟨t, n, h, rfl⟩ := exists_finite hy
  have product : finite s 0 representable_zero * finite t n h =
      round (s ^^ t) (0 * n) quantaPerUnit := rfl
  rw [product, Nat.zero_mul, round, nearestQuanta_zero quantaPerUnit_pos,
    ofQuanta_of_representable _ representable_zero]
  refine ⟨rfl, ?_⟩
  rw [value_finite]
  cases s ^^ t
  · rw [signedQuanta_false, Nat.cast_zero, Int.cast_zero, zero_div]
  · rw [signedQuanta_true, Nat.cast_zero, neg_zero, Int.cast_zero, zero_div]

/-- The exact difference of two finite numbers, in quanta. -/
theorem value_sub_value (s t : Bool) {m n : ℕ} (hm : Representable m) (hn : Representable n) :
    (finite s m hm).value - (finite t n hn).value =
      ((signedQuanta s m + signedQuanta (!t) n : ℤ) : ℚ) / quantaPerUnit := by
  rw [value_finite, value_finite, signedQuanta_not, Int.cast_add, Int.cast_neg, add_div, neg_div,
    ← sub_eq_add_neg]

theorem nearestQuanta_one_le_largest {n : ℕ}
    (small : (n : ℚ) / quantaPerUnit * 2 ^ 51 ≤ quantaPerUnit) :
    nearestQuanta n 1 ≤ largestQuanta := by
  rcases Nat.lt_or_ge n (2 ^ 52) with few | many
  · have few' : (n : ℚ) < 2 ^ 52 := by exact_mod_cast few
    have near := (within_nearestQuanta_one n).1
    rw [pow_one, roundingFactor] at near
    have : (nearestQuanta n 1 : ℚ) ≤ 2 ^ 53 := by linarith
    have large : 2 ^ 53 ≤ largestQuanta := by decide +kernel
    have : nearestQuanta n 1 ≤ 2 ^ 53 := by exact_mod_cast this
    omega
  · apply nearestQuanta_le_largest Nat.one_pos
    rw [Nat.cast_one, div_one]
    refine ⟨?_, small⟩
    rw [div_mul_cancel₀ _ quantaPerUnit_cast_pos.ne']
    exact_mod_cast many

theorem within_abs_round_one (negative : Bool) {n : ℕ} (le : nearestQuanta n 1 ≤ largestQuanta) :
    (round negative n 1).isFinite ∧
      Within 1 (round negative n 1).abs.value (n / quantaPerUnit) := by
  have rep := representable_nearestQuanta Nat.one_pos le
  rw [round, ofQuanta_of_representable _ rep]
  refine ⟨rfl, ?_⟩
  simp only [abs, value_finite, signedQuanta_false, Int.cast_natCast]
  exact (within_nearestQuanta_one n).div_right quantaPerUnit_cast_pos

/-- A difference that does not overflow is rounded once, however small it is. -/
theorem within_abs_sub_of_le (s t : Bool) {m n : ℕ} (hm : Representable m) (hn : Representable n)
    (le : nearestQuanta (signedQuanta s m + signedQuanta (!t) n).natAbs 1 ≤ largestQuanta) :
    (finite s m hm - finite t n hn).isFinite ∧
      Within 1 (finite s m hm - finite t n hn).abs.value
        ((signedQuanta s m + signedQuanta (!t) n).natAbs / quantaPerUnit) := by
  have computed : finite s m hm - finite t n hn =
      if signedQuanta s m + signedQuanta (!t) n = 0 then finite (s && !t) 0 representable_zero
      else round (decide (signedQuanta s m + signedQuanta (!t) n < 0))
        (signedQuanta s m + signedQuanta (!t) n).natAbs 1 := rfl
  rw [computed]
  generalize signedQuanta s m + signedQuanta (!t) n = sum at le ⊢
  by_cases zero : sum = 0
  · rw [if_pos zero, zero, Int.natAbs_zero, Nat.cast_zero, zero_div]
    have vanishes : (finite (s && !t) 0 representable_zero).abs.value = 0 := value_zero
    rw [vanishes]
    exact ⟨rfl, (Within.refl 0).mono (Nat.zero_le 1) le_rfl le_rfl⟩
  · rw [if_neg zero]
    exact within_abs_round_one _ le

/-- The exact distance of two finite numbers, in quanta. -/
theorem abs_value_sub (s t : Bool) {m n : ℕ} (hm : Representable m) (hn : Representable n) :
    |(finite s m hm).value - (finite t n hn).value| =
      ((signedQuanta s m + signedQuanta (!t) n).natAbs : ℚ) / quantaPerUnit := by
  rw [value_sub_value, abs_div, abs_of_pos quantaPerUnit_cast_pos, Nat.cast_natAbs, Int.cast_abs]

/-- A difference is off by one rounding, however much of it cancels. -/
theorem within_abs_sub (hx : x.isFinite) (hy : y.isFinite)
    (small : |x.value - y.value| * 2 ^ 51 ≤ quantaPerUnit) :
    (x - y).isFinite ∧ Within 1 (x - y).abs.value |x.value - y.value| := by
  obtain ⟨s, m, hm, rfl⟩ := exists_finite hx
  obtain ⟨t, n, hn, rfl⟩ := exists_finite hy
  rw [abs_value_sub] at small ⊢
  exact within_abs_sub_of_le s t hm hn (nearestQuanta_one_le_largest small)

/-- The distance of a number from zero is its size, with nothing rounded. -/
theorem abs_sub_of_value_zero (hx : x.isFinite) (zero : x.value = 0) (hy : y.isFinite) :
    (x - y).abs = y.abs := by
  obtain ⟨s, rfl⟩ := exists_of_value_zero hx zero
  obtain ⟨t, n, h, rfl⟩ := exists_finite hy
  have unsigned : signedQuanta s 0 = 0 := by cases s <;> rfl
  have size : (signedQuanta (!t) n).natAbs = n := by
    cases t
    · rw [Bool.not_false, signedQuanta_true, Int.natAbs_neg, Int.natAbs_natCast]
    · rw [Bool.not_true, signedQuanta_false, Int.natAbs_natCast]
  have computed : finite s 0 representable_zero - finite t n h =
      if signedQuanta s 0 + signedQuanta (!t) n = 0 then finite (s && !t) 0 representable_zero
      else round (decide (signedQuanta s 0 + signedQuanta (!t) n < 0))
        (signedQuanta s 0 + signedQuanta (!t) n).natAbs 1 := rfl
  rw [computed, unsigned, Int.zero_add]
  split
  next same =>
    have : n = 0 := by rw [← size, same, Int.natAbs_zero]
    subst this
    rfl
  next other =>
    have positive : 0 < n := by
      rw [← size]
      exact Int.natAbs_pos.2 other
    rw [size, round, nearestQuanta_self h positive, ofQuanta_of_representable _ h]
    rfl

theorem abs_of_value_pos (hx : 0 < x.value) : x.abs = x := by
  obtain ⟨n, h, rfl, -⟩ := exists_of_value_pos hx
  rfl

/-- A distance that is within a tolerance with room for one rounding is not found beyond it. -/
theorem not_beyond {tolerance : Binary64} (finite : tolerance.isFinite) (hx : x.isFinite)
    (hy : y.isFinite) (small : |x.value - y.value| * 2 ^ 51 ≤ quantaPerUnit)
    (room : |x.value - y.value| * roundingFactor ≤ tolerance.value) :
    tolerance.lt (x - y).abs = false := by
  obtain ⟨finite', rounded⟩ := within_abs_sub hx hy small
  rw [Bool.eq_false_iff, Ne, lt_iff finite (isFinite_abs finite'), not_lt]
  have upper := rounded.le
  rw [pow_one] at upper
  exact upper.trans room

end MicroBench.Binary64
