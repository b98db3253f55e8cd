import MicroBench.Proofs.Json.Accuracy
import MicroBench.Proofs.Record.Spelling

/-! Which numbers may stand for a rate, said of the number that is written: all of them but
for those that overflow. Where exactly they do is up to the reader's rounding, and this is
known up to a `2 ^ 50`th part on either side. -/
namespace MicroBench.Decoding

open Json Binary64

variable {n : Numeral} {x : Binary64}

def signed (negative : Bool) (x : Binary64) : Binary64 := if negative then -x else x

theorem rateOf_wholeNumber (negative : Bool) {m : ℕ} (fits : m ≤ largestWord) :
    rateOf (wholeNumber negative m) = signed negative (ofNat m) := by
  cases negative with
  | false =>
    have word : (UInt64.ofNat m).toNat = m := by
      rw [largestWord] at fits
      exact UInt64.toNat_ofNat_of_lt' (by rw [UInt64.size]; omega)
    simp [wholeNumber, rateOf, signed, word]
  | true =>
    simp only [wholeNumber, if_true, signed]
    split <;> rfl

def sizeOf (n : Numeral) : Option Binary64 :=
  if n.IsWhole then some (ofNat n.fitting.significand) else n.magnitude

theorem rate_eq (n : Numeral) : n.number.map rateOf = (sizeOf n).map (signed n.negative) := by
  rw [Numeral.number, sizeOf]
  by_cases whole : n.IsWhole
  · have fits : n.fitting.significand ≤ largestWord := takeFitting_le (Nat.zero_le _) 0 n.whole
    rw [if_pos whole, if_pos whole, Option.map_some, Option.map_some,
      rateOf_wholeNumber _ fits]
  · rw [if_neg whole, if_neg whole, Option.map_map]
    rfl

/-- A whole number is its digits. -/
theorem within_of_isWhole (whole : n.IsWhole) : Within 1 n.fitting.significand n.exact := by
  obtain ⟨plain, bare, all⟩ := whole
  have scaled : n.scaled.exact = n.fitting.significand := by
    rw [Scaled.exact, Numeral.scaled, Numeral.fittingFraction, plain, all]
    simp [takeFitting]
  have near := n.within_scaled
  rw [Option.isNone_iff_eq_none.1 bare, Numeral.shift, zpow_zero, mul_one, scaled] at near
  exact near

/-- The size is off by six roundings and a quantum. -/
theorem near_sizeOf (short : n.length < 2 ^ 30) (found : sizeOf n = some x) :
    x.Unsigned ∧ Near 6 (2 * halfQuantum) x.value n.exact := by
  rw [sizeOf] at found
  by_cases whole : n.IsWhole
  · rw [if_pos whole] at found
    obtain ⟨unsigned, word⟩ := word_near (takeFitting_le (Nat.zero_le _) 0 n.whole)
    have half := halfQuantum_pos
    rw [← Option.some.inj found]
    exact ⟨unsigned, (word.trans (within_of_isWhole whole)).near.mono (by norm_num) (by positivity)
      unsigned.value_nonneg n.exact_nonneg⟩
  · rw [if_neg whole] at found
    exact Numeral.near_magnitude short found

/-- A size that three roundings do not take beyond the largest number is read. -/
theorem exists_sizeOf (short : n.length < 2 ^ 30)
    (small : n.exact * roundingFactor ^ 3 ≤ largestValue) : ∃ x, sizeOf n = some x := by
  rw [sizeOf]
  by_cases whole : n.IsWhole
  · exact ⟨_, if_pos whole⟩
  · rw [if_neg whole]
    exact Numeral.exists_magnitude short small

/-- The number is the one that is written but for rounding: the sign is kept, and the size is off
by a `2 ^ 50`th part and a quantum at most. -/
def ReadFrom (x : Binary64) (n : Numeral) : Prop :=
  ∃ quanta h, x = .finite n.negative quanta h ∧
    |(quanta : ℚ) / quantaPerUnit - n.exact| ≤ n.exact / 2 ^ 50 + 1 / quantaPerUnit

theorem largestQuanta_add :
    2 ^ 53 * largestQuanta + Nat.pow 2 1024 * quantaPerUnit =
      2 ^ 53 * (Nat.pow 2 1024 * quantaPerUnit) := by
  decide +kernel

/-- The largest number is one part of `2 ^ 53` short of a power of two. -/
theorem largestValue_eq : largestValue = (1 - 1 / 2 ^ 53) * 2 ^ 1024 := by
  have unit := quantaPerUnit_cast_pos
  have power : ((Nat.pow 2 1024 : ℕ) : ℚ) = 2 ^ 1024 := Nat.cast_pow 2 1024
  have sum := largestQuanta_add
  rw [largestValue, div_eq_iff unit.ne', ← power]
  -- the constants are generalized: no tactic may evaluate them
  generalize Nat.pow 2 1024 = range, largestQuanta = largest, quantaPerUnit = quanta at *
  have sum' : (2 : ℚ) ^ 53 * largest + range * quanta = 2 ^ 53 * (range * quanta) := by
    exact_mod_cast sum
  linarith

theorem readFrom_of_near (unsigned : x.Unsigned) (near : Near 6 (2 * halfQuantum) x.value n.exact) :
    ReadFrom (signed n.negative x) n := by
  obtain ⟨quanta, h, rfl⟩ := unsigned
  refine ⟨quanta, h, ?_, ?_⟩
  · cases n.negative <;> rfl
  · have distance := near.abs_sub_le n.exact_nonneg
    have factor : roundingFactor ^ 6 - 1 ≤ 1 / 2 ^ 50 := by norm_num [roundingFactor]
    have share := mul_le_mul_of_nonneg_right factor n.exact_nonneg
    rw [value_finite, signedQuanta_false, Int.cast_natCast, two_mul_halfQuantum] at distance
    linarith

/-- Which numbers may stand for a rate, and for which rate they do. Only close to where numbers
overflow does it take the reader to decide. -/
theorem rateSpells_bounds (n : Numeral) (short : n.length < 2 ^ 30) :
    (n.exact ≤ (1 - 1 / 2 ^ 50) * 2 ^ 1024 → ∃ x, RateSpells n.text x) ∧
      ∀ x, RateSpells n.text x → n.exact < (1 + 1 / 2 ^ 50) * 2 ^ 1024 ∧ ReadFrom x n := by
  have largest := largestValue_eq
  have range : (1 : ℚ) ≤ 2 ^ 1024 := one_le_pow₀ (by norm_num)
  generalize (2 : ℚ) ^ 1024 = limit at *
  constructor
  · intro small
    have room : n.exact * roundingFactor ^ 3 ≤ largestValue := by
      calc n.exact * roundingFactor ^ 3 ≤ (1 - 1 / 2 ^ 50) * limit * roundingFactor ^ 3 :=
            mul_le_mul_of_nonneg_right small (roundingFactor_pow_nonneg 3)
        _ = (1 - 1 / 2 ^ 50) * roundingFactor ^ 3 * limit := by ring
        _ ≤ (1 - 1 / 2 ^ 53) * limit :=
            mul_le_mul_of_nonneg_right (by norm_num [roundingFactor]) (by linarith)
        _ = largestValue := largest.symm
    obtain ⟨x, found⟩ := exists_sizeOf short room
    exact ⟨signed n.negative x, n, rfl, by rw [rate_eq, found]; rfl⟩
  · rintro x ⟨m, same, read⟩
    obtain ⟨sign, whole, fraction, -⟩ := Numeral.parts_of_text_eq same
    obtain ⟨-, exact⟩ := Numeral.exact_of_text_eq same
    have short' : m.length < 2 ^ 30 := by rwa [Numeral.length, ← whole, ← fraction]
    rw [rate_eq] at read
    obtain ⟨y, found, rfl⟩ := Option.map_eq_some_iff.1 read
    obtain ⟨unsigned, near⟩ := near_sizeOf short' found
    rw [← exact] at near
    rw [← sign]
    refine ⟨?_, readFrom_of_near unsigned near⟩
    have upper := near.ge
    have most := mul_le_mul_of_nonneg_right unsigned.value_le
      (roundingFactor_pow_nonneg 6)
    have slack : 2 * halfQuantum ≤ 1 / 2 ^ 60 := by
      rw [two_mul_halfQuantum]
      exact one_div_le_one_div_of_le (by norm_num)
        (le_trans (by norm_num) two_pow_le_quantaPerUnit_cast)
    calc n.exact ≤ largestValue * roundingFactor ^ 6 + 1 / 2 ^ 60 := by linarith
      _ = (1 - 1 / 2 ^ 53) * roundingFactor ^ 6 * limit + 1 / 2 ^ 60 := by rw [largest]; ring
      _ < (1 + 1 / 2 ^ 50) * limit := by
        have factor : (1 - 1 / 2 ^ 53) * roundingFactor ^ 6 ≤ 1 + 1 / 2 ^ 50 - 1 / 2 ^ 52 := by
          norm_num [roundingFactor]
        have := mul_le_mul_of_nonneg_right factor (zero_le_one.trans range)
        linarith

end MicroBench.Decoding
