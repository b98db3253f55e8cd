import MicroBench.Proofs.Binary64.Nearest

/-! The exact rational value of a finite number, and comparisons by it. -/
namespace MicroBench

/-! The powers of two of the format are far beyond what rounding depends on. These facts are what is
used of them. -/

theorem two_pow_le_quantaPerUnit : 2 ^ 200 ≤ quantaPerUnit := by decide +kernel

theorem largestQuanta_mul :
    largestQuanta * 2 ^ 103 + quantaPerUnit * quantaPerUnit =
      2 ^ 53 * (quantaPerUnit * quantaPerUnit) := by
  decide +kernel

theorem quantaPerUnit_pos : 0 < quantaPerUnit :=
  (Nat.two_pow_pos 200).trans_le two_pow_le_quantaPerUnit

theorem quantaPerUnit_cast_pos : (0 : ℚ) < quantaPerUnit := Nat.cast_pos.2 quantaPerUnit_pos

theorem two_pow_le_quantaPerUnit_cast : (2 : ℚ) ^ 200 ≤ quantaPerUnit := by
  exact_mod_cast two_pow_le_quantaPerUnit

/-- Values from `2 ^ -1022` to `2 ^ 1023`: rounding keeps 53 bits, and there is no overflow. -/
def Normal (r : ℚ) : Prop := 2 ^ 52 ≤ r * quantaPerUnit ∧ r * 2 ^ 51 ≤ quantaPerUnit

theorem Normal.pos {r : ℚ} (h : Normal r) : 0 < r := by
  have : 0 < r * quantaPerUnit := lt_of_lt_of_le (by norm_num) h.1
  exact (mul_pos_iff_of_pos_right quantaPerUnit_cast_pos).1 this

theorem normal_of_moderate {r : ℚ} (lower : 1 / 2 ^ 148 ≤ r) (upper : r ≤ 2 ^ 149) :
    Normal r := by
  have large := two_pow_le_quantaPerUnit_cast
  constructor
  · calc (2 : ℚ) ^ 52 = 1 / 2 ^ 148 * 2 ^ 200 := by norm_num
      _ ≤ r * quantaPerUnit := mul_le_mul lower large (by norm_num) (by linarith)
  · calc r * 2 ^ 51 ≤ 2 ^ 149 * 2 ^ 51 := mul_le_mul_of_nonneg_right upper (by norm_num)
      _ = 2 ^ 200 := by norm_num
      _ ≤ quantaPerUnit := large

namespace Binary64

/-- The value of a finite number. The other ones have none, and are given zero. -/
def value : Binary64 → ℚ
  | finite negative quanta _ => signedQuanta negative quanta / quantaPerUnit
  | _ => 0

@[simp] theorem value_finite (negative : Bool) (quanta : ℕ) (h : Representable quanta) :
    (finite negative quanta h).value = signedQuanta negative quanta / quantaPerUnit := rfl

@[simp] theorem signedQuanta_false (quanta : ℕ) : signedQuanta false quanta = quanta := rfl

@[simp] theorem signedQuanta_true (quanta : ℕ) : signedQuanta true quanta = -quanta := rfl

theorem signedQuanta_not (negative : Bool) (quanta : ℕ) :
    signedQuanta (!negative) quanta = -signedQuanta negative quanta := by
  cases negative <;> simp

@[simp] theorem value_zero : (0 : Binary64).value = 0 := by
  change ((signedQuanta false 0 : ℤ) : ℚ) / quantaPerUnit = 0
  rw [signedQuanta_false, Nat.cast_zero, Int.cast_zero, zero_div]

@[simp] theorem isFinite_zero : (0 : Binary64).isFinite = true := rfl

variable {x y : Binary64}

theorem exists_finite (hx : x.isFinite) : ∃ s q h, x = finite s q h := by
  cases x with
  | nan => cases hx
  | infinite => cases hx
  | finite s q h => exact ⟨s, q, h, rfl⟩

/-- A number of positive value is finite, and its sign is plus. -/
theorem exists_of_value_pos (hx : 0 < x.value) :
    ∃ q h, x = finite false q h ∧ 0 < q := by
  cases x with
  | nan => exact absurd hx (lt_irrefl 0)
  | infinite => exact absurd hx (lt_irrefl 0)
  | finite s q h =>
    have signed : (0 : ℚ) < signedQuanta s q := by
      by_contra le
      exact absurd hx (not_lt.2 (div_nonpos_of_nonpos_of_nonneg (not_lt.1 le)
        quantaPerUnit_cast_pos.le))
    cases s with
    | false => exact ⟨q, h, rfl, by simpa using signed⟩
    | true =>
      simp only [signedQuanta_true, Int.cast_neg, Int.cast_natCast] at signed
      have := Nat.cast_nonneg (α := ℚ) q
      linarith

/-- There are two zeros. -/
theorem exists_of_value_zero (hx : x.isFinite) (zero : x.value = 0) :
    ∃ s, x = finite s 0 representable_zero := by
  obtain ⟨s, q, h, rfl⟩ := exists_finite hx
  have quanta_zero : q = 0 := by
    rw [value_finite, div_eq_zero_iff, Int.cast_eq_zero] at zero
    have := zero.resolve_right quantaPerUnit_cast_pos.ne'
    cases s <;> simpa using this
  subst quanta_zero
  exact ⟨s, rfl⟩

theorem isFinite_of_value_pos (hx : 0 < x.value) : x.isFinite := by
  obtain ⟨q, h, rfl, -⟩ := exists_of_value_pos hx
  rfl

theorem place_of_isFinite (hx : x.isFinite) :
    ∃ p : ℤ, x.place = some p ∧ x.value = p / quantaPerUnit := by
  obtain ⟨s, q, h, rfl⟩ := exists_finite hx
  exact ⟨_, rfl, rfl⟩

/-- On finite numbers, the order is that of their values. -/
theorem lt_iff (hx : x.isFinite) (hy : y.isFinite) : x.lt y ↔ x.value < y.value := by
  obtain ⟨p, hp, px⟩ := place_of_isFinite hx
  obtain ⟨q, hq, qy⟩ := place_of_isFinite hy
  simp only [lt, hp, hq, decide_eq_true_eq, px, qy]
  rw [div_lt_div_iff_of_pos_right quantaPerUnit_cast_pos, Int.cast_lt]

theorem numEq_iff (hx : x.isFinite) (hy : y.isFinite) : x.numEq y ↔ x.value = y.value := by
  obtain ⟨p, hp, px⟩ := place_of_isFinite hx
  obtain ⟨q, hq, qy⟩ := place_of_isFinite hy
  simp only [numEq, hp, hq, beq_iff_eq, px, qy]
  rw [div_left_inj' quantaPerUnit_cast_pos.ne', Int.cast_inj]

theorem numEq_zero_iff (hx : x.isFinite) : x.numEq 0 ↔ x.value = 0 := by
  rw [numEq_iff hx isFinite_zero, value_zero]

theorem isFinite_abs (hx : x.isFinite) : x.abs.isFinite := by
  obtain ⟨s, q, h, rfl⟩ := exists_finite hx
  rfl

end Binary64

end MicroBench
