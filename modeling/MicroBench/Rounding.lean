/-! Rounding of an exact quotient of naturals to a whole number. The result is the
nearest whole number; of two equally near ones the even one is taken. -/
namespace MicroBench

/-- The whole number nearest to `n / d`, the even one of two equally near. -/
def roundedDiv (n d : Nat) : Nat :=
  let q := n / d
  let r := 2 * (n % d)
  if r < d ∨ (r = d ∧ q % 2 = 0) then q else q + 1

/-- Rounding never goes below the whole quotient. -/
theorem le_roundedDiv (n d : Nat) : n / d ≤ roundedDiv n d := by
  simp only [roundedDiv]
  split <;> omega

/-- Rounding goes up by one at most. -/
theorem roundedDiv_le (n d : Nat) : roundedDiv n d ≤ n / d + 1 := by
  simp only [roundedDiv]
  split <;> omega

/-- A whole quotient is kept. -/
theorem roundedDiv_mul_self (q d : Nat) (pos : 0 < d) : roundedDiv (q * d) d = q := by
  simp [roundedDiv, Nat.mul_div_cancel _ pos, pos]

end MicroBench
