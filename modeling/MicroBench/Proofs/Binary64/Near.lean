import MicroBench.Proofs.Binary64.Order

/-! Errors of numbers of any size. Where 53 bits are kept a rounding costs a factor, and
below that it costs half a quantum, however small the number: so there is a slack beside
the factors, and it is what is left of the error near zero. -/
namespace MicroBench

/-- The two magnitudes differ by no more than so many roundings and the slack. -/
structure Near (roundings : ℕ) (slack x y : ℚ) : Prop where
  le : x ≤ y * roundingFactor ^ roundings + slack
  ge : y ≤ x * roundingFactor ^ roundings + slack

variable {j k : ℕ} {a b x y z : ℚ}

theorem Within.near (h : Within k x y) : Near k 0 x y :=
  ⟨h.le.trans_eq (add_zero _).symm, h.ge.trans_eq (add_zero _).symm⟩

namespace Near

theorem mono (h : Near j a x y) (le : j ≤ k) (more : a ≤ b) (hx : 0 ≤ x) (hy : 0 ≤ y) :
    Near k b x y := by
  have grows := roundingFactor_pow_mono le
  constructor
  · exact h.le.trans (add_le_add (mul_le_mul_of_nonneg_left grows hy) more)
  · exact h.ge.trans (add_le_add (mul_le_mul_of_nonneg_left grows hx) more)

/-- Slack that is carried through roundings grows with them. -/
theorem slack_le (ha : 0 ≤ a) (hb : 0 ≤ b) (j k : ℕ) :
    b * roundingFactor ^ j + a ≤ (a + b) * roundingFactor ^ (j + k) := by
  have all := one_le_roundingFactor_pow (j + k)
  have grows := roundingFactor_pow_mono (Nat.le_add_right j k)
  calc b * roundingFactor ^ j + a
      ≤ b * roundingFactor ^ (j + k) + a * roundingFactor ^ (j + k) :=
        add_le_add (mul_le_mul_of_nonneg_left grows hb) (le_mul_of_one_le_right ha all)
    _ = (a + b) * roundingFactor ^ (j + k) := by ring

/-- Roundings add up, and so does the slack, which the later ones may enlarge. -/
theorem trans (h : Near j a x y) (h' : Near k b y z) (ha : 0 ≤ a) (hb : 0 ≤ b) :
    Near (j + k) ((a + b) * roundingFactor ^ (j + k)) x z := by
  have hj := roundingFactor_pow_nonneg j
  have hk := roundingFactor_pow_nonneg k
  constructor
  · calc x ≤ y * roundingFactor ^ j + a := h.le
      _ ≤ (z * roundingFactor ^ k + b) * roundingFactor ^ j + a :=
          add_le_add_left (mul_le_mul_of_nonneg_right h'.le hj) a
      _ = z * roundingFactor ^ (j + k) + (b * roundingFactor ^ j + a) := by ring
      _ ≤ z * roundingFactor ^ (j + k) + (a + b) * roundingFactor ^ (j + k) :=
          add_le_add_right (slack_le ha hb j k) _
  · calc z ≤ y * roundingFactor ^ k + b := h'.ge
      _ ≤ (x * roundingFactor ^ j + a) * roundingFactor ^ k + b :=
          add_le_add_left (mul_le_mul_of_nonneg_right h.ge hk) b
      _ = x * roundingFactor ^ (j + k) + (a * roundingFactor ^ k + b) := by ring
      _ ≤ x * roundingFactor ^ (j + k) + (b + a) * roundingFactor ^ (k + j) :=
          add_le_add_right (slack_le hb ha k j) _
      _ = x * roundingFactor ^ (j + k) + (a + b) * roundingFactor ^ (j + k) := by ring

/-- A division makes the slack smaller too. -/
theorem div_right (h : Near k a x y) (hz : 0 < z) : Near k (a / z) (x / z) (y / z) := by
  constructor
  · rw [div_mul_eq_mul_div, ← add_div, div_le_div_iff_of_pos_right hz]
    exact h.le
  · rw [div_mul_eq_mul_div, ← add_div, div_le_div_iff_of_pos_right hz]
    exact h.ge

/-- The relative part of a distance and the slack bound it together. -/
theorem abs_sub_le (h : Near k a x y) (hy : 0 ≤ y) :
    |x - y| ≤ (roundingFactor ^ k - 1) * y + a := by
  have one := one_le_roundingFactor_pow k
  have upper := h.le
  have lower := h.ge
  rw [abs_le]
  constructor
  · by_cases le : x ≤ y
    · have := mul_le_mul_of_nonneg_right le (sub_nonneg.2 one)
      linarith
    · -- the bound is not below `x - y`, so it is positive
      have := mul_nonneg (sub_nonneg.2 one) hy
      linarith
  · linarith

/-- Magnitudes that are not above the slack are near. -/
theorem of_small (k : ℕ) (hx : 0 ≤ x) (hy : 0 ≤ y) (hxa : x ≤ a) (hya : y ≤ a) :
    Near k a x y := by
  have factor := roundingFactor_pow_nonneg k
  constructor
  · exact le_add_of_nonneg_of_le (mul_nonneg hy factor) hxa
  · exact le_add_of_nonneg_of_le (mul_nonneg hx factor) hya

end Near

namespace Binary64

variable {num den n : ℕ}

/-- Rounding costs a factor, or half a quantum. -/
theorem near_nearestQuanta (num : ℕ) (pos : 0 < den) :
    Near 1 (1 / 2) (nearestQuanta num den) (num / den) := by
  rcases Nat.lt_or_ge num (2 ^ 52 * den) with small | large
  · have quotient : num / den < 2 ^ 52 := (Nat.div_lt_iff_lt_mul pos).2 small
    have one : spacing (num / den) = 1 := spacing_eq_one (by omega)
    have rounded : nearestQuanta num den = roundedDiv num den := by
      simp only [nearestQuanta, one, Nat.mul_one]
    obtain ⟨lower, upper⟩ := abs_le.1 (abs_roundedDiv_sub_le num den pos)
    rw [← rounded] at lower upper
    have exact : (0 : ℚ) ≤ num / den := by positivity
    have factor := one_le_roundingFactor_pow 1
    have grown := le_mul_of_one_le_right exact factor
    have grown' := le_mul_of_one_le_right (Nat.cast_nonneg (α := ℚ) (nearestQuanta num den)) factor
    constructor <;> linarith
  · exact (within_nearestQuanta pos large).near.mono le_rfl (by norm_num) (Nat.cast_nonneg _)
      (by positivity)

def halfQuantum : ℚ := 1 / 2 / quantaPerUnit

theorem halfQuantum_pos : 0 < halfQuantum := div_pos one_half_pos quantaPerUnit_cast_pos

theorem two_mul_halfQuantum : 2 * halfQuantum = 1 / quantaPerUnit := by
  rw [halfQuantum]
  ring

def largestValue : ℚ := largestQuanta / quantaPerUnit

/-- Finite numbers with a plus for their sign, zero included. -/
def Unsigned (x : Binary64) : Prop := ∃ q h, x = finite false q h

namespace Unsigned

variable {x y : Binary64}

theorem isFinite (hx : x.Unsigned) : x.isFinite := by
  obtain ⟨q, h, rfl⟩ := hx
  rfl

theorem value_nonneg (hx : x.Unsigned) : 0 ≤ x.value := by
  obtain ⟨q, h, rfl⟩ := hx
  exact div_nonneg (by simp) quantaPerUnit_cast_pos.le

theorem value_le (hx : x.Unsigned) : x.value ≤ largestValue := by
  obtain ⟨q, h, rfl⟩ := hx
  rw [value_finite, signedQuanta_false, Int.cast_natCast, largestValue,
    div_le_div_iff_of_pos_right quantaPerUnit_cast_pos, Nat.cast_le]
  exact h.1

theorem zero : (0 : Binary64).Unsigned := ⟨0, representable_zero, rfl⟩

end Unsigned

/-- A finite result is near to the exact one. -/
theorem near_round (pos : 0 < den) (finite : (round false num den).isFinite) :
    (round false num den).Unsigned ∧
      Near 1 halfQuantum (round false num den).value (num / den / quantaPerUnit) := by
  have rep := representable_of_round finite
  rw [round, ofQuanta_of_representable false rep]
  refine ⟨⟨_, rep, rfl⟩, ?_⟩
  rw [value_finite, signedQuanta_false, Int.cast_natCast]
  exact (near_nearestQuanta num pos).div_right quantaPerUnit_cast_pos

/-- What is not above the largest number is rounded to a finite one. -/
theorem isFinite_round (pos : 0 < den) (le : num ≤ largestQuanta * den) :
    (round false num den).isFinite := by
  have most : Representable largestQuanta := by decide +kernel
  have rounded : nearestQuanta num den ≤ largestQuanta := by
    calc nearestQuanta num den ≤ nearestQuanta largestQuanta 1 :=
          nearestQuanta_mono pos Nat.one_pos (by rw [Nat.mul_one]; exact le)
      _ = largestQuanta := nearestQuanta_of_representable most
  rw [round, ofQuanta_of_representable false (representable_nearestQuanta pos rounded)]
  rfl

/-- Naturals that do not overflow are rounded once. -/
theorem within_ofNat_of_finite (finite : (ofNat n).isFinite) :
    (ofNat n).Unsigned ∧ Within 1 (ofNat n).value n := by
  have rep : Representable (nearestQuanta (n * quantaPerUnit) 1) := representable_of_round finite
  have rounded := (within_nearestQuanta_one (n * quantaPerUnit)).div_right quantaPerUnit_cast_pos
  rw [Nat.cast_mul, mul_div_cancel_right₀ _ quantaPerUnit_cast_pos.ne'] at rounded
  rw [ofNat, ofRatio, round, ofQuanta_of_representable false rep]
  refine ⟨⟨_, rep, rfl⟩, ?_⟩
  rwa [value_finite, signedQuanta_false, Int.cast_natCast]

variable {x y : Binary64}

/-- A finite product of two sizes is off by one rounding and half a quantum. -/
theorem near_mul (hx : x.Unsigned) (hy : y.Unsigned) (finite : (x * y).isFinite) :
    (x * y).Unsigned ∧ Near 1 halfQuantum (x * y).value (x.value * y.value) := by
  obtain ⟨m, hm, rfl⟩ := hx
  obtain ⟨n, hn, rfl⟩ := hy
  rw [value_mul_value]
  rw [finite_mul_finite] at finite ⊢
  exact near_round quantaPerUnit_pos finite

/-- A product overflows only if it is larger than the largest number. -/
theorem isFinite_mul (hx : x.Unsigned) (hy : y.Unsigned)
    (le : x.value * y.value ≤ largestValue) : (x * y).isFinite := by
  obtain ⟨m, hm, rfl⟩ := hx
  obtain ⟨n, hn, rfl⟩ := hy
  rw [value_mul_value, largestValue, div_le_div_iff_of_pos_right quantaPerUnit_cast_pos,
    div_le_iff₀ quantaPerUnit_cast_pos] at le
  rw [finite_mul_finite]
  exact isFinite_round quantaPerUnit_pos (by exact_mod_cast le)

/-- To divide by a unit or more never overflows, and the result is not larger. -/
theorem near_div (hx : x.Unsigned) (one : 1 ≤ y.value) :
    (x / y).Unsigned ∧ (x / y).value ≤ x.value ∧
      Near 1 halfQuantum (x / y).value (x.value / y.value) := by
  obtain ⟨m, hm, rfl⟩ := hx
  obtain ⟨n, hn, rfl, pos⟩ := exists_of_value_pos (zero_lt_one.trans_le one)
  have regroup : (finite false m hm).value / (finite false n hn).value =
      ((m * quantaPerUnit : ℕ) : ℚ) / n / quantaPerUnit := by
    have := quantaPerUnit_cast_pos.ne'
    have : (n : ℚ) ≠ 0 := Nat.cast_ne_zero.2 pos.ne'
    simp only [value_finite, signedQuanta_false, Int.cast_natCast, Nat.cast_mul]
    field_simp
  rw [value_finite, signedQuanta_false, Int.cast_natCast, le_div_iff₀ quantaPerUnit_cast_pos,
    one_mul, Nat.cast_le] at one
  have share : nearestQuanta (m * quantaPerUnit) n ≤ m := by
    calc nearestQuanta (m * quantaPerUnit) n ≤ nearestQuanta m 1 :=
          nearestQuanta_mono pos Nat.one_pos (by rw [Nat.mul_one]; exact Nat.mul_le_mul_left m one)
      _ = m := nearestQuanta_of_representable hm
  have rep := representable_nearestQuanta pos (share.trans hm.1)
  rw [regroup, finite_div_finite _ _ hm hn pos.ne', round, Bool.xor_false,
    ofQuanta_of_representable false rep]
  simp only [value_finite, signedQuanta_false, Int.cast_natCast]
  refine ⟨⟨_, rep, rfl⟩, ?_, (near_nearestQuanta _ pos).div_right quantaPerUnit_cast_pos⟩
  rw [div_le_div_iff_of_pos_right quantaPerUnit_cast_pos, Nat.cast_le]
  exact share

end Binary64

end MicroBench
