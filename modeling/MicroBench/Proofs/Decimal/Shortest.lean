import MicroBench.Decimal.Shortest
import MicroBench.Proofs.Binary64.Value

/-! Seventeen digits are enough for every number: on the grid of that many digits the
nearer neighbour is so close that it reads back. So the search for a shortest decimal
always finds one, and it has no more digits than that. -/
namespace MicroBench.Decimal

theorem ten_zpow (e : ℤ) : (10 : ℚ) ^ e = 10 ^ e.toNat / 10 ^ (-e).toNat := by
  obtain ⟨n, rfl | rfl⟩ := Int.eq_nat_or_neg e <;> simp

theorem ten_zpow_pos (e : ℤ) : (0 : ℚ) < 10 ^ e := zpow_pos (by norm_num) e

theorem ten_zpow_succ (e : ℤ) : (10 : ℚ) ^ (e + 1) = 10 ^ e * 10 :=
  zpow_add_one₀ (by norm_num) e

def value (x : Decimal) : ℚ := x.coefficient * 10 ^ x.exponent

variable {x : Decimal} {quanta : ℕ}

theorem quantaDen_pos (x : Decimal) : 0 < x.quantaDen := Nat.pow_pos (by norm_num)

theorem quantaNum_eq (x : Decimal) :
    (x.quantaNum : ℚ) = x.value * quantaPerUnit * x.quantaDen := by
  have nonzero : (10 : ℚ) ^ (-x.exponent).toNat ≠ 0 := pow_ne_zero _ (by norm_num)
  simp only [quantaNum, quantaDen, value, ten_zpow, Nat.pow_eq, Nat.cast_mul, Nat.cast_pow,
    Nat.cast_ofNat]
  generalize quantaPerUnit = unit
  field_simp

/-- A decimal reads back if it is off by less than a part in `2 ^ 54`. -/
theorem readsBack_of_near (rep : Representable quanta) (pos : 0 < quanta)
    (near : |x.value - quanta / quantaPerUnit| * (2 * 10 ^ 16) ≤ quanta / quantaPerUnit) :
    ReadsBack quanta x := by
  have unit := quantaPerUnit_cast_pos
  have den : (0 : ℚ) < x.quantaDen := Nat.cast_pos.2 x.quantaDen_pos
  have positive : (0 : ℚ) < quanta := Nat.cast_pos.2 pos
  have counted : |x.value * quantaPerUnit - quanta| * (2 * 10 ^ 16) ≤ quanta := by
    have := mul_le_mul_of_nonneg_right near unit.le
    rwa [div_mul_cancel₀ _ unit.ne', mul_right_comm, ← abs_of_pos unit, ← abs_mul, abs_of_pos unit,
      sub_mul, div_mul_cancel₀ _ unit.ne'] at this
  obtain ⟨lower, upper⟩ := abs_le.1 ((le_div_iff₀ (by norm_num)).2 counted)
  apply Binary64.nearestQuanta_eq_of_near rep x.quantaDen_pos
  · have : x.value * quantaPerUnit * 2 ^ 54 < (2 ^ 54 + 1) * quanta := by linarith
    have := mul_lt_mul_of_pos_right this den
    have : (2 ^ 54 * x.quantaNum : ℚ) < (2 ^ 54 + 1) * (quanta * x.quantaDen) := by
      rw [quantaNum_eq]
      linarith
    exact_mod_cast this
  · have : (2 ^ 54 - 1) * quanta < x.value * quantaPerUnit * 2 ^ 54 := by linarith
    have := mul_lt_mul_of_pos_right this den
    have : (2 ^ 54 * (quanta * x.quantaDen) : ℚ) < 2 ^ 54 * x.quantaNum + quanta * x.quantaDen := by
      rw [quantaNum_eq]
      linarith
    have : 2 ^ 54 * (quanta * x.quantaDen) < 2 ^ 54 * x.quantaNum + quanta * x.quantaDen := by
      exact_mod_cast this
    omega

/-! ### The order of magnitude -/

/-- The digits of a scaled quotient, rounded down, tell the magnitude of the quotient. -/
theorem bounds_of_length {num den shift : ℕ} (pos : 0 < den)
    (least : den ≤ num * Nat.pow 10 shift) :
    (10 : ℚ) ^ ((Nat.toDigits 10 (num * Nat.pow 10 shift / den)).length - shift - 1 : ℤ) ≤
        num / den ∧
      (num : ℚ) / den <
        10 ^ ((Nat.toDigits 10 (num * Nat.pow 10 shift / den)).length - shift : ℤ) := by
  rw [Nat.pow_eq] at least ⊢
  have scale : (0 : ℚ) < 10 ^ shift := by positivity
  have den' : (0 : ℚ) < den := Nat.cast_pos.2 pos
  have one : 1 ≤ num * 10 ^ shift / den := (Nat.one_le_div_iff pos).2 least
  have below : (num * 10 ^ shift / den : ℕ) * (den : ℚ) ≤ num * 10 ^ shift := by
    exact_mod_cast Nat.div_mul_le_self _ _
  have above : num * 10 ^ shift < ((num * 10 ^ shift / den : ℕ) + 1) * (den : ℚ) := by
    exact_mod_cast (Nat.div_lt_iff_lt_mul pos).1 (Nat.lt_succ_self _)
  generalize num * 10 ^ shift / den = quotient at *
  obtain ⟨length, digits⟩ := Nat.exists_eq_add_of_lt
    (Nat.length_toDigits_pos (b := 10) (n := quotient))
  have upper : quotient < 10 ^ (length + 1) :=
    (Nat.length_toDigits_le_iff (by norm_num) (Nat.succ_pos length)).1 (by omega)
  have lower : 10 ^ length ≤ quotient := by
    by_cases single : length = 0
    · rw [single]
      exact one
    · by_contra less
      have := (Nat.length_toDigits_le_iff (b := 10) (by norm_num) (Nat.pos_of_ne_zero single)).2
        (not_le.1 less)
      omega
  have upper' : (quotient : ℚ) + 1 ≤ 10 ^ (length + 1) := by exact_mod_cast upper
  have lower' : (10 : ℚ) ^ length ≤ quotient := by exact_mod_cast lower
  have exponent : ((Nat.toDigits 10 quotient).length - shift : ℤ) = (length + 1 : ℕ) - shift := by
    omega
  rw [exponent, show ((length + 1 : ℕ) - shift - 1 : ℤ) = (length : ℕ) - (shift : ℕ) by omega,
    zpow_sub₀ (by norm_num), zpow_sub₀ (by norm_num), zpow_natCast, zpow_natCast, zpow_natCast]
  constructor
  · rw [div_le_div_iff₀ scale den']
    exact (mul_le_mul_of_nonneg_right lower' den'.le).trans below
  · rw [div_lt_div_iff₀ den' scale]
    exact above.trans_le (mul_le_mul_of_nonneg_right upper' den'.le)

/-- The magnitude is the power of ten just above the value. -/
theorem magnitude_bounds (pos : 0 < quanta) :
    (10 : ℚ) ^ (magnitude quanta - 1) ≤ quanta / quantaPerUnit ∧
      (quanta : ℚ) / quantaPerUnit < 10 ^ magnitude quanta := by
  obtain ⟨shift, same, enough⟩ : ∃ shift, shift = 324 ∧ quantaPerUnit ≤ Nat.pow 10 shift :=
    ⟨_, rfl, by decide +kernel⟩
  have bounds := bounds_of_length quantaPerUnit_pos (enough.trans (Nat.le_mul_of_pos_left _ pos))
  rw [magnitude, ← same, show (324 : ℤ) = shift by rw [same, Nat.cast_ofNat]]
  exact bounds

theorem magnitude_in_range (rep : Representable quanta) :
    -323 ≤ magnitude quanta ∧ magnitude quanta ≤ 676 := by
  have few : (Nat.toDigits 10 (quanta * Nat.pow 10 324 / quantaPerUnit)).length ≤ 1000 := by
    rw [Nat.length_toDigits_le_iff (by norm_num) (by norm_num)]
    calc quanta * Nat.pow 10 324 / quantaPerUnit ≤ quanta * Nat.pow 10 324 := Nat.div_le_self _ _
      _ ≤ largestQuanta * Nat.pow 10 324 := Nat.mul_le_mul_right _ rep.1
      _ < 10 ^ 1000 := by decide +kernel
  have := Nat.length_toDigits_pos (b := 10) (n := quanta * Nat.pow 10 324 / quantaPerUnit)
  rw [magnitude]
  omega

/-! ### Neighbours on a grid -/

variable {tie : Tie} {place : ℤ}

/-- How many whole steps of the grid fit into the value. -/
def steps (quanta : ℕ) (place : ℤ) : ℕ :=
  quanta * Nat.pow 10 (-place).toNat / (quantaPerUnit * Nat.pow 10 place.toNat)

def IsNeighbour (quanta : ℕ) (place : ℤ) (x : Decimal) : Prop :=
  x = ⟨steps quanta place, place⟩ ∨ x = next (steps quanta place) place

/-- What is found on a grid is next to the value and reads back. -/
theorem onGrid_eq_some (h : onGrid tie quanta place = some x) :
    IsNeighbour quanta place x ∧ ReadsBack quanta x := by
  simp only [onGrid] at h
  split at h
  · rename_i below
    split at h
    · rename_i above
      cases h
      exact ⟨.inr rfl, above.1⟩
    · cases h
      exact ⟨.inl rfl, below⟩
  · split at h
    · rename_i above
      cases h
      exact ⟨.inr rfl, above⟩
    · cases h

theorem onGrid_isSome (neighbour : IsNeighbour quanta place x) (back : ReadsBack quanta x) :
    (onGrid tie quanta place).isSome := by
  simp only [onGrid]
  split
  · split <;> rfl
  · rename_i below
    rcases neighbour with rfl | rfl
    · exact absurd back below
    · rw [steps] at back
      rw [if_pos back]
      rfl

theorem value_next (lower : ℕ) (place : ℤ) :
    (next lower place).value = (lower + 1) * 10 ^ place := by
  by_cases nine : lower = 9
  · rw [next, if_pos nine, value, nine, ten_zpow_succ]
    norm_num
    ring
  · rw [next, if_neg nine, value, Nat.cast_succ]

/-- The value lies between its two neighbours. -/
theorem steps_bounds (quanta : ℕ) (place : ℤ) :
    steps quanta place * (10 : ℚ) ^ place ≤ quanta / quantaPerUnit ∧
      (quanta : ℚ) / quantaPerUnit < (steps quanta place + 1) * 10 ^ place := by
  have unit := quantaPerUnit_cast_pos
  have up : (0 : ℚ) < 10 ^ place.toNat := by positivity
  have down : (0 : ℚ) < 10 ^ (-place).toNat := by positivity
  have den : 0 < quantaPerUnit * 10 ^ place.toNat :=
    Nat.mul_pos quantaPerUnit_pos (Nat.pow_pos (by norm_num))
  have below : steps quanta place * ((quantaPerUnit : ℚ) * 10 ^ place.toNat) ≤
      quanta * 10 ^ (-place).toNat := by
    exact_mod_cast Nat.div_mul_le_self (quanta * 10 ^ (-place).toNat) _
  have above : quanta * (10 : ℚ) ^ (-place).toNat <
      (steps quanta place + 1) * (quantaPerUnit * 10 ^ place.toNat) := by
    exact_mod_cast (Nat.div_lt_iff_lt_mul den).1 (Nat.lt_succ_self (steps quanta place))
  rw [ten_zpow]
  constructor
  · rw [← mul_div_assoc, div_le_div_iff₀ down unit]
    linarith
  · rw [← mul_div_assoc, div_lt_div_iff₀ unit down]
    linarith

/-- The nearer neighbour is at most half a step away. -/
theorem exists_near (quanta : ℕ) (place : ℤ) :
    ∃ x, IsNeighbour quanta place x ∧
      |x.value - quanta / quantaPerUnit| * 2 ≤ 10 ^ place := by
  obtain ⟨below, above⟩ := steps_bounds quanta place
  have step := ten_zpow_pos place
  by_cases near : ((quanta : ℚ) / quantaPerUnit - steps quanta place * 10 ^ place) * 2 ≤ 10 ^ place
  · refine ⟨_, .inl rfl, ?_⟩
    rw [abs_sub_comm, abs_of_nonneg (by rw [value]; linarith), value]
    exact near
  · refine ⟨_, .inr rfl, ?_⟩
    rw [value_next, abs_of_nonneg (by linarith)]
    linarith

/-- Seventeen digits always suffice. -/
theorem onGrid_seventeen (rep : Representable quanta) (pos : 0 < quanta) :
    (onGrid tie quanta (magnitude quanta - 1 - 16)).isSome := by
  obtain ⟨x, neighbour, near⟩ := exists_near quanta (magnitude quanta - 1 - 16)
  apply onGrid_isSome neighbour
  apply readsBack_of_near rep pos
  have scale : (10 : ℚ) ^ (magnitude quanta - 1) = 10 ^ (magnitude quanta - 1 - 16) * 10 ^ 16 := by
    rw [zpow_sub₀ (by norm_num) _ 16, show (10 : ℚ) ^ (16 : ℤ) = 10 ^ 16 by norm_cast,
      div_mul_cancel₀ _ (by norm_num)]
  have least := (magnitude_bounds pos).1
  rw [scale] at least
  linarith

/-- On a grid of so many digits the neighbours have no more digits, save a power of ten. -/
theorem neighbour_bounds (pos : 0 < quanta) {n : ℕ}
    (neighbour : IsNeighbour quanta (magnitude quanta - 1 - n) x) :
    0 < x.coefficient ∧ x.coefficient ≤ 10 ^ (n + 1) := by
  obtain ⟨below, above⟩ := steps_bounds quanta (magnitude quanta - 1 - n)
  obtain ⟨least, most⟩ := magnitude_bounds pos
  have step := ten_zpow_pos (magnitude quanta - 1 - n)
  have scale : (10 : ℚ) ^ (magnitude quanta - 1) = 10 ^ n * 10 ^ (magnitude quanta - 1 - n) := by
    rw [← zpow_natCast, ← zpow_add₀ (by norm_num)]
    congr 1
    omega
  have scale' : (10 : ℚ) ^ magnitude quanta = 10 ^ (n + 1) * 10 ^ (magnitude quanta - 1 - n) := by
    rw [← zpow_natCast, ← zpow_add₀ (by norm_num)]
    congr 1
    push_cast
    omega
  have enough : (10 : ℚ) ^ n < steps quanta (magnitude quanta - 1 - n) + 1 := by
    rw [scale] at least
    exact lt_of_mul_lt_mul_right (least.trans_lt above) step.le
  have few : (steps quanta (magnitude quanta - 1 - n) : ℚ) < 10 ^ (n + 1) := by
    rw [scale'] at most
    exact lt_of_mul_lt_mul_right (below.trans_lt most) step.le
  have enough' : 10 ^ n < steps quanta (magnitude quanta - 1 - n) + 1 := by exact_mod_cast enough
  have few' : steps quanta (magnitude quanta - 1 - n) < 10 ^ (n + 1) := by exact_mod_cast few
  have : 0 < 10 ^ n := Nat.pow_pos (by norm_num)
  rcases neighbour with rfl | rfl
  · exact ⟨by change 0 < steps _ _; omega, few'.le⟩
  · rw [next]
    split
    · exact ⟨Nat.one_pos, Nat.one_le_pow _ _ (by norm_num)⟩
    · exact ⟨Nat.succ_pos _, few'⟩

theorem neighbour_exponent (neighbour : IsNeighbour quanta place x) :
    x.exponent = place ∨ x.exponent = place + 1 := by
  rcases neighbour with rfl | rfl
  · exact .inl rfl
  · rw [next]
    split
    · exact .inr rfl
    · exact .inl rfl

/-- The shortest decimal of a number other than zero reads back, and is of moderate length. -/
theorem shortest_spec (tie : Tie) (rep : Representable quanta) (pos : 0 < quanta) :
    ReadsBack quanta (shortest tie quanta) ∧
      0 < (shortest tie quanta).coefficient ∧ (shortest tie quanta).coefficient ≤ 10 ^ 17 ∧
      -340 ≤ (shortest tie quanta).exponent ∧ (shortest tie quanta).exponent ≤ 676 := by
  have found : ((List.range 17).findSome? fun (n : ℕ) =>
      onGrid tie quanta (magnitude quanta - 1 - n)).isSome := by
    rw [List.findSome?_isSome_iff]
    exact ⟨16, by decide, onGrid_seventeen rep pos⟩
  obtain ⟨x, hx⟩ := Option.isSome_iff_exists.1 found
  have same : shortest tie quanta = x := by
    rw [shortest, if_neg pos.ne']
    simp only [hx, Option.getD_some]
  obtain ⟨n, few, taken⟩ := List.exists_of_findSome?_eq_some hx
  obtain ⟨neighbour, back⟩ := onGrid_eq_some taken
  obtain ⟨positive, most⟩ := neighbour_bounds pos neighbour
  have place := neighbour_exponent neighbour
  have range := magnitude_in_range rep
  rw [List.mem_range] at few
  rw [same]
  refine ⟨back, positive, most.trans (Nat.pow_le_pow_right (by norm_num) few), ?_, ?_⟩
  · omega
  · omega

end MicroBench.Decimal
