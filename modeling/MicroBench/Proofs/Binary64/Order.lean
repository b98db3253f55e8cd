import MicroBench.Proofs.Binary64.Accuracy

/-! Rounding keeps the order of exact results: numbers may fall together, but none
overtakes another. So sums of counts, quotients and distances of positive numbers are in
the order of the exact ones. -/
namespace MicroBench

variable {n d n' d' : ℕ}

theorem div_le_div_of_cross (pos' : 0 < d') (le : n * d' ≤ n' * d) : n / d ≤ n' / d' := by
  rcases Nat.eq_zero_or_pos d with rfl | pos
  · rw [Nat.div_zero]
    exact Nat.zero_le _
  rw [Nat.le_div_iff_mul_le pos']
  apply Nat.le_of_mul_le_mul_right _ pos
  calc n / d * d' * d = n / d * d * d' := Nat.mul_right_comm _ _ _
    _ ≤ n * d' := Nat.mul_le_mul_right d' (Nat.div_mul_le_self n d)
    _ ≤ n' * d := le

/-- Of two quotients with one whole part the larger one has the larger rest, each taken as a share
of its divisor. -/
theorem mod_le_mod_of_cross (same : n / d = n' / d') (le : n * d' ≤ n' * d) :
    n % d * d' ≤ n' % d' * d := by
  have parts : (n / d * d + n % d) * d' ≤ (n' / d' * d' + n' % d') * d := by
    rwa [Nat.div_add_mod', Nat.div_add_mod']
  rw [same, Nat.add_mul, Nat.add_mul, Nat.mul_right_comm] at parts
  exact Nat.le_of_add_le_add_left parts

/-- A half is rounded by the whole part alone, so quotients that are halfway between the same
neighbours are rounded alike. -/
theorem roundedDiv_mono (pos : 0 < d) (pos' : 0 < d') (le : n * d' ≤ n' * d) :
    roundedDiv n d ≤ roundedDiv n' d' := by
  rcases (div_le_div_of_cross pos' le).lt_or_eq with less | same
  · calc roundedDiv n d ≤ n / d + 1 := roundedDiv_le n d
      _ ≤ n' / d' := less
      _ ≤ roundedDiv n' d' := le_roundedDiv n' d'
  · have twice : 2 * (n % d) * d' ≤ 2 * (n' % d') * d := by
      rw [Nat.mul_assoc, Nat.mul_assoc]
      exact Nat.mul_le_mul_left 2 (mod_le_mod_of_cross same le)
    simp only [roundedDiv, same]
    by_cases down : 2 * (n' % d') < d' ∨ 2 * (n' % d') = d' ∧ n' / d' % 2 = 0
    · rw [if_pos down, if_pos]
      rcases down with below | ⟨half, even⟩
      · left
        apply Nat.lt_of_mul_lt_mul_right (a := d')
        calc 2 * (n % d) * d' ≤ 2 * (n' % d') * d := twice
          _ < d' * d := Nat.mul_lt_mul_of_pos_right below pos
          _ = d * d' := Nat.mul_comm _ _
      · apply (Nat.lt_or_eq_of_le _).imp id fun half => ⟨half, even⟩
        apply Nat.le_of_mul_le_mul_right _ pos'
        calc 2 * (n % d) * d' ≤ 2 * (n' % d') * d := twice
          _ = d * d' := by rw [half, Nat.mul_comm]
    · rw [if_neg down]
      split <;> omega

namespace Binary64

variable {num den num' den' : ℕ} {x x' y y' : Binary64}

theorem nearestQuanta_le (num : ℕ) (pos : 0 < den) :
    nearestQuanta num den ≤ 2 ^ 53 * spacing (num / den) := by
  rcases Nat.lt_or_ge num (2 ^ 52 * den) with small | large
  · have := nearestQuanta_le_of_small pos small
    have := spacing_pos (num / den)
    omega
  · obtain ⟨m, -, most, rounded⟩ := nearestQuanta_in_range pos large
    rw [rounded]
    exact Nat.mul_le_mul_right _ most

/-- Where the spacing grows it at least doubles, and its first number is not below the last one of
the spacing before. -/
theorem spacing_grows {q q' : ℕ} (le : q ≤ q') (other : spacing q ≠ spacing q') :
    2 ^ 53 ≤ q' ∧ 2 * spacing q ≤ spacing q' := by
  have nonzero : q' ≠ 0 := by
    rintro rfl
    exact other (by rw [Nat.le_zero.1 le])
  have bits : q.log2 ≤ q'.log2 := by
    by_cases zero : q = 0
    · rw [zero, Nat.log2_zero]
      exact Nat.zero_le _
    · exact (Nat.le_log2 nonzero).2 ((Nat.log2_self_le zero).trans le)
  have less : q.log2 - 52 < q'.log2 - 52 := by
    apply Nat.lt_of_le_of_ne (Nat.sub_le_sub_right bits 52)
    intro same
    exact other (by rw [spacing, spacing, same])
  constructor
  · rw [← Nat.le_log2 nonzero]
    omega
  · rw [spacing, spacing, Nat.pow_eq, Nat.pow_eq, Nat.mul_comm, ← Nat.pow_succ]
    exact Nat.pow_le_pow_right (by norm_num) less

/-- Rounding keeps the order of quotients, also where the distance of neighbours changes. -/
theorem nearestQuanta_mono (pos : 0 < den) (pos' : 0 < den') (le : num * den' ≤ num' * den) :
    nearestQuanta num den ≤ nearestQuanta num' den' := by
  have quotient := div_le_div_of_cross pos' le
  by_cases same : spacing (num / den) = spacing (num' / den')
  · simp only [nearestQuanta, same]
    apply Nat.mul_le_mul_right
    have positive := spacing_pos (num' / den')
    apply roundedDiv_mono (Nat.mul_pos pos positive) (Nat.mul_pos pos' positive)
    rw [← Nat.mul_assoc, ← Nat.mul_assoc]
    exact Nat.mul_le_mul_right _ le
  · obtain ⟨large, grows⟩ := spacing_grows quotient same
    have large' : 2 ^ 52 * den' ≤ num' := by
      have := (Nat.le_div_iff_mul_le pos').1 large
      omega
    obtain ⟨m, least, -, rounded⟩ := nearestQuanta_in_range pos' large'
    calc nearestQuanta num den ≤ 2 ^ 53 * spacing (num / den) := nearestQuanta_le num pos
      _ ≤ 2 ^ 52 * spacing (num' / den') := by omega
      _ ≤ m * spacing (num' / den') := Nat.mul_le_mul_right _ least
      _ = nearestQuanta num' den' := rounded.symm

/-- Rounding looks at the quotient only. -/
theorem nearestQuanta_congr (pos : 0 < den) (pos' : 0 < den') (same : num * den' = num' * den) :
    nearestQuanta num den = nearestQuanta num' den' :=
  Nat.le_antisymm (nearestQuanta_mono pos pos' same.le) (nearestQuanta_mono pos' pos same.ge)

/-! ### Finite numbers in order -/

/-- Both numbers are finite, and the first one is not the larger. -/
structure AtMost (x y : Binary64) : Prop where
  finite : x.isFinite
  finite' : y.isFinite
  le : x.value ≤ y.value

theorem representable_of_round {negative : Bool} (finite : (round negative num den).isFinite) :
    Representable (nearestQuanta num den) := by
  by_contra beyond
  rw [round, ofQuanta, dif_neg beyond] at finite
  cases finite

/-- Rounding keeps the order of numbers, as long as the larger one does not overflow. -/
theorem round_mono (pos : 0 < den) (pos' : 0 < den') (le : num * den' ≤ num' * den)
    (finite : (round false num' den').isFinite) :
    AtMost (round false num den) (round false num' den') := by
  have rep' := representable_of_round finite
  have less := nearestQuanta_mono pos pos' le
  have rep := representable_nearestQuanta pos (less.trans rep'.1)
  rw [round, round, ofQuanta_of_representable _ rep, ofQuanta_of_representable _ rep']
  refine ⟨rfl, rfl, ?_⟩
  rw [value_finite, value_finite, div_le_div_iff_of_pos_right quantaPerUnit_cast_pos,
    signedQuanta_false, signedQuanta_false]
  exact_mod_cast less

theorem ofNat_mono {m n : ℕ} (le : m ≤ n) (finite : (ofNat n).isFinite) :
    AtMost (ofNat m) (ofNat n) := by
  apply round_mono Nat.one_pos Nat.one_pos _ finite
  rw [Nat.mul_one, Nat.mul_one]
  exact Nat.mul_le_mul_right _ le

/-- A quotient is not larger if its dividend is not larger and its divisor not smaller. -/
theorem div_mono (hx : 0 < x.value) (hy' : 0 < y'.value) (le : x.value ≤ x'.value)
    (le' : y'.value ≤ y.value) (finite : (x' / y').isFinite) : AtMost (x / y) (x' / y') := by
  obtain ⟨m, hm, rfl, -⟩ := exists_of_value_pos hx
  obtain ⟨m', hm', rfl, -⟩ := exists_of_value_pos (hx.trans_le le)
  obtain ⟨n, hn, rfl, pos⟩ := exists_of_value_pos (hy'.trans_le le')
  obtain ⟨n', hn', rfl, pos'⟩ := exists_of_value_pos hy'
  simp only [value_finite, signedQuanta_false, Int.cast_natCast,
    div_le_div_iff_of_pos_right quantaPerUnit_cast_pos, Nat.cast_le] at le le'
  rw [finite_div_finite _ _ hm' hn' pos'.ne'] at finite ⊢
  rw [finite_div_finite _ _ hm hn pos.ne']
  apply round_mono pos pos' _ finite
  calc m * quantaPerUnit * n' = m * n' * quantaPerUnit := Nat.mul_right_comm _ _ _
    _ ≤ m' * n * quantaPerUnit := Nat.mul_le_mul_right _ (Nat.mul_le_mul le le')
    _ = m' * quantaPerUnit * n := Nat.mul_right_comm _ _ _

/-! ### What a result says of the exact one

These need no bound on the exact result: an overflow shows. -/

/-- Two finite numbers that are not negative have a finite difference. -/
theorem within_abs_sub_of_nonneg (hx : x.isFinite) (hy : y.isFinite) (nonneg : 0 ≤ x.value)
    (nonneg' : 0 ≤ y.value) :
    (x - y).isFinite ∧ Within 1 (x - y).abs.value |x.value - y.value| := by
  obtain ⟨s, m, hm, rfl⟩ := exists_finite hx
  obtain ⟨t, n, hn, rfl⟩ := exists_finite hy
  have signs : 0 ≤ signedQuanta s m ∧ 0 ≤ signedQuanta t n := by
    rw [value_finite, le_div_iff₀ quantaPerUnit_cast_pos, zero_mul] at nonneg nonneg'
    exact ⟨by exact_mod_cast nonneg, by exact_mod_cast nonneg'⟩
  have sizes : (signedQuanta s m).natAbs = m ∧ (signedQuanta t n).natAbs = n := by
    cases s <;> cases t <;> simp
  have larger : Representable (m ⊔ n) := by
    rcases Nat.le_total m n with le | le
    · rwa [Nat.max_eq_right le]
    · rwa [Nat.max_eq_left le]
  have le : (signedQuanta s m + signedQuanta (!t) n).natAbs ≤ m ⊔ n := by
    rw [signedQuanta_not]
    omega
  rw [abs_value_sub]
  apply within_abs_sub_of_le
  calc nearestQuanta (signedQuanta s m + signedQuanta (!t) n).natAbs 1
      ≤ nearestQuanta (m ⊔ n) 1 :=
        nearestQuanta_mono Nat.one_pos Nat.one_pos (Nat.mul_le_mul_right 1 le)
    _ = m ⊔ n := nearestQuanta_of_representable larger
    _ ≤ largestQuanta := larger.1

/-- A distance that is not found beyond a tolerance is within it, with room for one rounding. -/
theorem le_of_not_beyond {tolerance : Binary64} (finite : tolerance.isFinite) (hx : x.isFinite)
    (hy : y.isFinite) (nonneg : 0 ≤ x.value) (nonneg' : 0 ≤ y.value)
    (accepted : tolerance.lt (x - y).abs = false) :
    |x.value - y.value| ≤ tolerance.value * roundingFactor := by
  obtain ⟨finite', near⟩ := within_abs_sub_of_nonneg hx hy nonneg nonneg'
  rw [Bool.eq_false_iff, Ne, lt_iff finite (isFinite_abs finite'), not_lt] at accepted
  have exact := near.ge
  rw [pow_one] at exact
  refine exact.trans (mul_le_mul_of_nonneg_right accepted ?_)
  norm_num [roundingFactor]

/-- A result of a unit or more was rounded once. -/
theorem within_round_of_large (pos : 0 < den) (finite : (round false num den).isFinite)
    (large : 1 ≤ (round false num den).value) :
    Within 1 (round false num den).value (num / den / quantaPerUnit) := by
  have rep := representable_of_round finite
  rw [round, ofQuanta_of_representable false rep, value_finite, signedQuanta_false,
    Int.cast_natCast] at large ⊢
  have many : quantaPerUnit ≤ nearestQuanta num den := by
    rw [le_div_iff₀ quantaPerUnit_cast_pos, one_mul] at large
    exact_mod_cast large
  have unit := two_pow_le_quantaPerUnit
  refine (within_nearestQuanta pos ?_).div_right quantaPerUnit_cast_pos
  by_contra small
  have few := nearestQuanta_le_of_small pos (Nat.lt_of_not_le small)
  omega

/-- A finite product of one or more is off by one rounding, whatever its factors are. -/
theorem within_mul_of_large (hx : 0 < x.value) (hy : 0 < y.value) (finite : (x * y).isFinite)
    (large : 1 ≤ (x * y).value) : Within 1 (x * y).value (x.value * y.value) := by
  obtain ⟨m, hm, rfl, -⟩ := exists_of_value_pos hx
  obtain ⟨n, hn, rfl, -⟩ := exists_of_value_pos hy
  rw [value_mul_value]
  rw [finite_mul_finite] at finite large ⊢
  exact within_round_of_large quantaPerUnit_pos finite large

theorem value_mul_nonneg (hx : 0 < x.value) (hy : 0 < y.value) : 0 ≤ (x * y).value := by
  obtain ⟨m, hm, rfl, -⟩ := exists_of_value_pos hx
  obtain ⟨n, hn, rfl, -⟩ := exists_of_value_pos hy
  rw [finite_mul_finite, round, ofQuanta]
  split
  · rw [value_finite]
    exact div_nonneg (by simp) quantaPerUnit_cast_pos.le
  · exact le_rfl

/-- A product of positive numbers that is not finite is larger than every finite number. -/
theorem mul_eq_infinite (hx : 0 < x.value) (hy : 0 < y.value) (overflow : ¬ (x * y).isFinite) :
    x * y = infinite false := by
  obtain ⟨m, hm, rfl, -⟩ := exists_of_value_pos hx
  obtain ⟨n, hn, rfl, -⟩ := exists_of_value_pos hy
  rw [finite_mul_finite, round, ofQuanta] at overflow ⊢
  split at overflow
  · exact absurd rfl overflow
  · rename_i beyond
    rw [dif_neg beyond]
    rfl

theorem abs_infinite_sub (hy : y.isFinite) : (infinite false - y).abs = infinite false := by
  obtain ⟨t, n, hn, rfl⟩ := exists_finite hy
  rfl

theorem lt_infinite (hx : x.isFinite) : x.lt (infinite false) = true := by
  obtain ⟨s, q, rep, rfl⟩ := exists_finite hx
  have beyond : largestQuanta < Nat.pow 2 2098 := by decide +kernel
  have most : signedQuanta s q ≤ q := by cases s <;> simp
  have less : signedQuanta s q < (Nat.pow 2 2098 : ℕ) :=
    most.trans_lt (by exact_mod_cast rep.1.trans_lt beyond)
  exact decide_eq_true less

end Binary64

end MicroBench
