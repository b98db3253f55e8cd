import MicroBench.Proofs.Binary64.Value

/-! The bits of a number determine it: sign, exponent and fraction can be told apart in
them, and the form of a number has no choice. -/
namespace MicroBench.Binary64

variable {quanta : ℕ}

/-- The exponent and the bits that are kept, as one number: the leading bit adds one to the
exponent. -/
def payload (quanta : ℕ) : ℕ := (quanta.log2 - 52) * 2 ^ 52 + quanta / spacing quanta

theorem toBits_finite (negative : Bool) (rep : Representable quanta) :
    (finite negative quanta rep).toBits =
      .ofNat ((if negative then 2 ^ 63 else 0) + payload quanta) := by
  rw [payload, ← Nat.add_assoc]
  cases negative <;> rfl

/-- Subnormal numbers have their quanta for the bits. -/
theorem payload_of_small (small : quanta < 2 ^ 52) : payload quanta = quanta := by
  have bits : quanta.log2 - 52 = 0 := by
    by_cases zero : quanta = 0
    · simp [zero]
    · have := (Nat.log2_lt zero).2 small
      omega
  rw [payload, spacing_eq_one (by omega), bits, Nat.zero_mul, Nat.zero_add, Nat.div_one]

/-- A number with 53 significant bits: the exponent field is its power of two and one more, and the
fraction is what the bits have beyond the leading one. -/
theorem payload_of_large (rep : Representable quanta) (large : 2 ^ 52 ≤ quanta) :
    ∃ power fraction, power ≤ 2045 ∧ fraction < 2 ^ 52 ∧
      payload quanta = (power + 1) * 2 ^ 52 + fraction ∧
      (2 ^ 52 + fraction) * 2 ^ power = quanta := by
  obtain ⟨lower, upper⟩ := spacing_bounds large
  have least : 2 ^ 52 ≤ quanta / spacing quanta :=
    (Nat.le_div_iff_mul_le (spacing_pos quanta)).2 lower
  have most : quanta / spacing quanta < 2 ^ 53 :=
    (Nat.div_lt_iff_lt_mul (spacing_pos quanta)).2 upper
  have power : quanta.log2 < 2098 := by
    rw [Nat.log2_lt (by omega)]
    exact rep.1.trans_lt (by decide +kernel)
  have whole : quanta / spacing quanta * 2 ^ (quanta.log2 - 52) = quanta :=
    Nat.div_mul_cancel (Nat.dvd_of_mod_eq_zero rep.2)
  refine ⟨quanta.log2 - 52, quanta / spacing quanta - 2 ^ 52, by omega, by omega, ?_, ?_⟩
  · rw [payload, Nat.add_mul]
    omega
  · rw [Nat.add_sub_of_le least]
    exact whole

/-- The sign, the exponent and the fraction of a word that consists of them. -/
theorem ofBits_fields (negative : Bool) {exponent fraction : ℕ} (range : exponent < 2048)
    (few : fraction < 2 ^ 52) :
    ofBits (.ofNat ((if negative then 2 ^ 63 else 0) + (exponent * 2 ^ 52 + fraction))) =
      if exponent = 2047 then (if fraction = 0 then infinite negative else nan)
      else if exponent = 0 then ofQuanta negative fraction
      else ofQuanta negative ((2 ^ 52 + fraction) * 2 ^ (exponent - 1)) := by
  have below : (if negative then 2 ^ 63 else 0) + (exponent * 2 ^ 52 + fraction) < 2 ^ 64 := by
    split <;> omega
  have sign : decide (2 ^ 63 ≤ (if negative then 2 ^ 63 else 0) + (exponent * 2 ^ 52 + fraction)) =
      negative := by
    cases negative
    · simp only [Bool.false_eq_true, if_false, decide_eq_false_iff_not]
      omega
    · simp
  have exponent' : ((if negative then 2 ^ 63 else 0) + (exponent * 2 ^ 52 + fraction)) / 2 ^ 52 %
      2048 = exponent := by
    split <;> omega
  have fraction' : ((if negative then 2 ^ 63 else 0) + (exponent * 2 ^ 52 + fraction)) % 2 ^ 52 =
      fraction := by
    split <;> omega
  simp only [ofBits, UInt64.toNat_ofNat_of_lt' below, Nat.pow_eq, sign, exponent', fraction']

theorem ofBits_toBits_finite (negative : Bool) (rep : Representable quanta) :
    ofBits (finite negative quanta rep).toBits = finite negative quanta rep := by
  rw [toBits_finite, ← ofQuanta_of_representable]
  rcases Nat.lt_or_ge quanta (2 ^ 52) with small | large
  · have fields := ofBits_fields negative (show 0 < 2048 by omega) small
    rw [Nat.zero_mul, Nat.zero_add] at fields
    rw [payload_of_small small, fields]
    simp
  · obtain ⟨power, fraction, range, few, split, whole⟩ := payload_of_large rep large
    rw [split, ofBits_fields negative (by omega) few, if_neg (by omega), if_neg (by omega),
      Nat.add_sub_cancel, whole]

/-- A number comes back from its bits, the sign of a zero too. -/
theorem ofBits_toBits (x : Binary64) : ofBits x.toBits = x := by
  cases x with
  | nan => decide +kernel
  | infinite negative => cases negative <;> decide +kernel
  | finite negative quanta rep => exact ofBits_toBits_finite negative rep

theorem toBits_inj {x y : Binary64} : x.toBits = y.toBits ↔ x = y := by
  constructor
  · intro same
    rw [← ofBits_toBits x, ← ofBits_toBits y, same]
  · rintro rfl
    rfl

end MicroBench.Binary64
