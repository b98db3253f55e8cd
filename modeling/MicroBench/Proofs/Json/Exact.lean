import MicroBench.Proofs.Binary64.Order
import MicroBench.Proofs.Json.Numerals
import MicroBench.Proofs.Json.Reread

/-! The exact value of a number as it is written, before anything is rounded. The text
determines it, and the text of a rate has one that is rounded to the rate: so different
rates have different texts. -/
namespace MicroBench

namespace Json

/-! ### Texts determine values -/

/-- Where a run of digits ends can be seen. -/
theorem digits_append_inj {digits digits' rest rest' : List Char}
    (digit : ∀ c ∈ digits, c.isDigit = true) (digit' : ∀ c ∈ digits', c.isDigit = true)
    (stop : startsWithDigit rest = false) (stop' : startsWithDigit rest' = false)
    (same : digits ++ rest = digits' ++ rest') : digits = digits' ∧ rest = rest' := by
  have skipped := (skipDigits_append digit stop).1
  rw [same, (skipDigits_append digit' stop').1] at skipped
  subst skipped
  exact ⟨List.append_cancel_right same, rfl⟩

def Exponent.shift (x : Exponent) : ℤ := if x.down then -x.power else x.power

theorem Exponent.shift_of_text_eq {x y : Exponent} (same : x.text = y.text) :
    x.shift = y.shift := by
  have tail : signText x.sign ++ x.digits = signText y.sign ++ y.digits :=
    (List.cons.inj same).2
  have parts (z : Exponent) : exponentSign (signText z.sign ++ (z.digits ++ [])) =
      (z.sign == some true, z.digits ++ []) :=
    exponentSign_signText z.sign z.nonempty z.digit
  simp only [List.append_nil] at parts
  obtain ⟨down, digits⟩ := Prod.mk.inj ((parts x).symm.trans (tail ▸ parts y))
  rw [shift, shift, Exponent.down, down, power, digits, Exponent.down, power]

namespace Numeral

variable {x y : Numeral}

def shift : Option Exponent → ℤ
  | none => 0
  | some x => x.shift

/-- The value without the sign. -/
def exact (x : Numeral) : ℚ :=
  Nat.ofDigitChars 10 (x.whole ++ x.fraction) 0 * 10 ^ (shift x.exponent - x.fraction.length)

theorem shift_of_exponentText_eq {e e' : Option Exponent}
    (same : exponentText e = exponentText e') : shift e = shift e' := by
  cases e with
  | none =>
    cases e' with
    | none => rfl
    | some => cases same
  | some =>
    cases e' with
    | none => cases same
    | some => exact Exponent.shift_of_text_eq same

/-- A number may always end with the text. -/
theorem endsNumber_nil (fraction : List Char) (exponent : Option Exponent) :
    EndsNumber fraction exponent [] := endsNumber_of_ends (.inl rfl) fraction exponent

theorem stop_exponentText (e : Option Exponent) : startsWithDigit (exponentText e) = false := by
  have stop := startsWithDigit_exponentText (endsNumber_nil [] e)
  rwa [List.append_nil] at stop

theorem stop_fractionText (fraction : List Char) (e : Option Exponent) :
    startsWithDigit (fractionText fraction ++ exponentText e) = false := by
  have stop := startsWithDigit_fractionText (endsNumber_nil fraction e)
  rwa [List.append_nil] at stop

theorem exponentText_ne_point (e : Option Exponent) (after : List Char) :
    exponentText e ≠ '.' :: after := by
  have apart := pointless (endsNumber_nil [] e) after
  rwa [List.append_nil] at apart

/-- Where the fraction ends can be seen. -/
theorem fraction_append_inj {fraction fraction' : List Char} {e e' : Option Exponent}
    (digit : ∀ c ∈ fraction, c.isDigit = true) (digit' : ∀ c ∈ fraction', c.isDigit = true)
    (same : fractionText fraction ++ exponentText e = fractionText fraction' ++ exponentText e') :
    fraction = fraction' ∧ exponentText e = exponentText e' := by
  by_cases empty : fraction = []
  · by_cases empty' : fraction' = []
    · subst empty empty'
      exact ⟨rfl, same⟩
    · rw [fractionText, if_pos empty, fractionText, if_neg empty'] at same
      exact absurd same (exponentText_ne_point _ _)
  · by_cases empty' : fraction' = []
    · rw [fractionText, if_neg empty, fractionText, if_pos empty'] at same
      exact absurd same.symm (exponentText_ne_point _ _)
    · rw [fractionText, if_neg empty, fractionText, if_neg empty', List.cons_append,
        List.cons_append] at same
      exact digits_append_inj digit digit' (stop_exponentText e) (stop_exponentText e')
        (List.cons.inj same).2

theorem sign_append_inj (same : x.text = y.text) :
    x.negative = y.negative ∧
      x.whole ++ (fractionText x.fraction ++ exponentText x.exponent) =
        y.whole ++ (fractionText y.fraction ++ exponentText y.exponent) := by
  rcases sign_cases x with ⟨minus, text⟩ | ⟨plus, c, others, front, digit, text⟩ <;>
    rcases sign_cases y with ⟨minus', text'⟩ | ⟨plus', c', others', front', digit', text'⟩ <;>
    rw [text, text'] at same
  · exact ⟨minus.trans minus'.symm, (List.cons.inj same).2⟩
  · rw [front', List.cons_append] at same
    rw [← (List.cons.inj same).1] at digit'
    cases digit'
  · rw [front, List.cons_append] at same
    rw [(List.cons.inj same).1] at digit
    cases digit
  · exact ⟨plus.trans plus'.symm, same⟩

/-- The text of a number tells its sign, its digits and its power of ten. -/
theorem parts_of_text_eq (same : x.text = y.text) :
    x.negative = y.negative ∧ x.whole = y.whole ∧ x.fraction = y.fraction ∧
      shift x.exponent = shift y.exponent := by
  obtain ⟨sign, magnitude⟩ := sign_append_inj same
  obtain ⟨whole, tail⟩ := digits_append_inj x.canonical.digit y.canonical.digit
    (stop_fractionText _ _) (stop_fractionText _ _) magnitude
  obtain ⟨fraction, exponent⟩ := fraction_append_inj x.digit y.digit tail
  exact ⟨sign, whole, fraction, shift_of_exponentText_eq exponent⟩

/-- No text is the text of two values. -/
theorem exact_of_text_eq (same : x.text = y.text) :
    x.negative = y.negative ∧ x.exact = y.exact := by
  obtain ⟨sign, whole, fraction, exponent⟩ := parts_of_text_eq same
  refine ⟨sign, ?_⟩
  rw [exact, exact, whole, fraction, exponent]

/-! ### The characters of a number -/

def marks : List Char := ['-', '+', '.', 'e', 'E']

theorem mem_text {c : Char} (member : c ∈ x.text) : c.isDigit = true ∨ c ∈ marks := by
  rw [text, List.mem_append, List.mem_append, List.mem_append] at member
  rcases member with sign | whole | fraction | exponent
  · right
    unfold signText at sign
    split at sign
    · rw [List.mem_singleton.1 sign]
      decide
    · cases sign
  · exact .inl (x.canonical.digit c whole)
  · unfold fractionText at fraction
    split at fraction
    · cases fraction
    · rcases List.mem_cons.1 fraction with rfl | digit
      · exact .inr (by decide)
      · exact .inl (x.digit c digit)
  · cases written : x.exponent with
    | none =>
      rw [written] at exponent
      cases exponent
    | some e =>
      rw [written, exponentText, Exponent.text, List.mem_cons, List.mem_append] at exponent
      rcases exponent with rfl | sign | digit
      · right
        cases e.capital <;> decide
      · right
        cases minus : e.sign with
        | none =>
          rw [minus] at sign
          cases sign
        | some minus' =>
          rw [minus] at sign
          cases minus' <;> rw [List.mem_singleton.1 sign] <;> decide
      · exact .inl (e.digit c digit)

end Numeral

end Json

/-! ### The numbers that decimals are written as -/

open Json

namespace Decimal

variable {x y : Decimal} {quanta quanta' : ℕ}

def writtenExponent (x : Decimal) : Exponent where
  capital := false
  sign := some (decide (x.point - 1 < 0))
  digits := Nat.toDigits 10 (x.point - 1).natAbs
  nonempty := Nat.toDigits_ne_nil
  digit := fun _ => isDigit_of_mem_digits

theorem text_writtenExponent (x : Decimal) : x.writtenExponent.text = x.exponentText := by
  by_cases down : x.point - 1 < 0 <;> simp [writtenExponent, exponentText, Exponent.text,
    Exponent.signText, down]

theorem shift_writtenExponent (x : Decimal) : x.writtenExponent.shift = x.point - 1 := by
  have power : x.writtenExponent.power = (x.point - 1).natAbs := Nat.ofDigitChars_ten_toDigits
  by_cases down : x.point - 1 < 0
  · have minus : x.writtenExponent.down = true := by
      simp [writtenExponent, Exponent.down, down]
    rw [Exponent.shift, if_pos minus, power]
    omega
  · have plus : ¬ x.writtenExponent.down = true := by
      simp [writtenExponent, Exponent.down, down]
    rw [Exponent.shift, if_neg plus, power]
    omega

def WrittenAs (x : Decimal) (negative : Bool) (text : List Char) : Prop :=
  ∃ n : Numeral, n.negative = negative ∧ n.exact = x.value ∧
    n.text = Numeral.signText negative ++ text

/-- Below one, a zero is written before the point. -/
theorem writtenAs_of_small (negative : Bool) (small : x.point ≤ 0) :
    x.WrittenAs negative (Layout.wire.withPoint x.digits x.point) := by
  have place : (0 : ℤ) - ((-x.point).toNat + x.digits.length : ℕ) = x.exponent := by
    have : x.point = x.digits.length + x.exponent := rfl
    omega
  refine ⟨⟨negative, ['0'], List.replicate (-x.point).toNat '0' ++ x.digits, none,
    canonical_toDigits 0, isDigit_of_mem_zeros_digits⟩, rfl, ?_, ?_⟩
  · have value : Nat.ofDigitChars 10 (['0'] ++ (List.replicate (-x.point).toNat '0' ++ x.digits)) 0
        = x.coefficient := x.ofDigitChars_zeros_digits _
    simp only [Numeral.exact, Numeral.shift, value, List.length_append, List.length_replicate,
      place, Decimal.value]
  · simp [withPoint_of_small small, Numeral.text, Numeral.fractionText, Numeral.exponentText,
      x.canonical_digits.nonempty]

theorem writtenAs_of_whole (negative : Bool) (few : x.coefficient = 0 → x.exponent = 0)
    (whole : 0 ≤ x.exponent) :
    x.WrittenAs negative (Layout.wire.withPoint x.digits x.point) := by
  refine ⟨⟨negative, x.digits ++ List.replicate x.exponent.toNat '0', ['0'], none,
    x.canonical_append_zeros (by omega), by simp⟩, rfl, ?_, ?_⟩
  · have value : Nat.ofDigitChars 10 (x.digits ++ List.replicate x.exponent.toNat '0' ++ ['0']) 0 =
        x.coefficient * 10 ^ (x.exponent.toNat + 1) := by
      rw [List.append_assoc, ← List.replicate_succ', ofDigitChars_digits_zeros]
    have scale :
        (10 : ℚ) ^ (x.exponent.toNat + 1) * 10 ^ ((0 : ℤ) - (1 : ℕ)) = 10 ^ x.exponent := by
      rw [← zpow_natCast, ← zpow_add₀ (by norm_num)]
      congr 1
      omega
    simp only [Numeral.exact, Numeral.shift, value, List.length_singleton, Decimal.value,
      Nat.cast_mul, Nat.cast_pow, Nat.cast_ofNat, mul_assoc, scale]
  · simp [withPoint_of_whole whole, Numeral.text, Numeral.fractionText, Numeral.exponentText]

theorem writtenAs_of_split (negative : Bool) (positive : 0 < x.point) (fraction : x.exponent < 0) :
    x.WrittenAs negative (Layout.wire.withPoint x.digits x.point) := by
  have place : x.point = x.digits.length + x.exponent := rfl
  have others : x.digits.drop x.point.toNat ≠ [] := by
    rw [Ne, List.drop_eq_nil_iff]
    omega
  refine ⟨⟨negative, x.digits.take x.point.toNat, x.digits.drop x.point.toNat, none,
    canonical_take (by omega) (by omega),
    fun c member => x.canonical_digits.digit c (List.mem_of_mem_drop member)⟩, rfl, ?_, ?_⟩
  · have exponent : (0 : ℤ) - (x.digits.length - x.point.toNat : ℕ) = x.exponent := by omega
    simp only [Numeral.exact, Numeral.shift, List.take_append_drop, ofDigitChars_digits,
      List.length_drop, exponent, Decimal.value]
  · simp [withPoint_of_split positive fraction, Numeral.text, Numeral.fractionText,
      Numeral.exponentText, others]

theorem writtenAs_withExponent (x : Decimal) (negative : Bool) :
    x.WrittenAs negative (Layout.wire.withExponent x.digits x.point) := by
  have length := x.length_digits_pos
  have place : x.point = x.digits.length + x.exponent := rfl
  have canonical : Canonical (x.digits.take 1) := by
    by_cases single : x.digits.length = 1
    · rw [List.take_of_length_le single.le]
      exact x.canonical_digits
    · exact canonical_take Nat.one_pos (by omega)
  refine ⟨⟨negative, x.digits.take 1, x.digits.drop 1, x.writtenExponent, canonical,
    fun c member => x.canonical_digits.digit c (List.mem_of_mem_drop member)⟩, rfl, ?_, ?_⟩
  · have exponent : x.point - 1 - (x.digits.length - 1 : ℕ) = x.exponent := by omega
    simp only [Numeral.exact, Numeral.shift, shift_writtenExponent, List.take_append_drop,
      ofDigitChars_digits, List.length_drop, exponent, Decimal.value]
  · by_cases single : x.digits.length = 1
    · have tail : x.digits.drop 1 = [] := List.drop_eq_nil_iff.2 single.le
      simp [withExponent_of_single single, Numeral.text, Numeral.fractionText,
        Numeral.exponentText, text_writtenExponent, tail, List.take_of_length_le single.le]
    · have others : x.digits.drop 1 ≠ [] := by
        rw [Ne, List.drop_eq_nil_iff]
        omega
      simp only [withExponent_of_more (show 1 < x.digits.length by omega), Numeral.text,
        Numeral.fractionText, if_neg others, Numeral.exponentText, text_writtenExponent,
        List.cons_append]

/-- What is written of a decimal is a number of the same value. -/
theorem writtenAs_render (negative : Bool) (few : x.coefficient = 0 → x.exponent = 0) :
    x.WrittenAs negative (Layout.wire.render x) := by
  rw [Layout.render]
  by_cases inPlace : Layout.wire.inPlace x.point
  · rw [if_pos inPlace]
    by_cases whole : 0 ≤ x.exponent
    · exact writtenAs_of_whole negative few whole
    · by_cases small : x.point ≤ 0
      · exact writtenAs_of_small negative small
      · exact writtenAs_of_split negative (by omega) (by omega)
  · rw [if_neg inPlace]
    exact x.writtenAs_withExponent negative

/-! ### Rates -/

/-- The shortest decimal is rounded to the number that it was made of. -/
theorem readsBack_shortest (tie : Tie) (rep : Representable quanta) :
    ReadsBack quanta (shortest tie quanta) := by
  rcases Nat.eq_zero_or_pos quanta with rfl | pos
  · cases tie <;> decide +kernel
  · exact (shortest_spec tie rep pos).1

/-- Only one number is nearest to a value. -/
theorem ReadsBack.unique (back : ReadsBack quanta x) (back' : ReadsBack quanta' y)
    (same : x.value = y.value) : quanta = quanta' := by
  rw [← back, ← back']
  apply Binary64.nearestQuanta_congr x.quantaDen_pos y.quantaDen_pos
  have cross : (x.quantaNum * y.quantaDen : ℚ) = y.quantaNum * x.quantaDen := by
    rw [quantaNum_eq, quantaNum_eq, same]
    ring
  exact_mod_cast cross

end Decimal

structure Json.Numeral.RoundsTo (n : Numeral) (negative : Bool) (quanta : ℕ) : Prop where
  sign : n.negative = negative
  nearest : ∃ x : Decimal, n.exact = x.value ∧ x.ReadsBack quanta

namespace Encoding

variable {x y : Binary64}

/-- The text of a rate is a number that is rounded to the rate. -/
theorem exists_numeral_rateText (negative : Bool) {quanta : ℕ} (rep : Representable quanta) :
    ∃ n : Numeral, n.text = rateText (.finite negative quanta rep) ∧
      n.RoundsTo negative quanta := by
  obtain ⟨-, -, few⟩ := Decimal.shortest_in_reach rep
  obtain ⟨n, sign, value, text⟩ := Decimal.writtenAs_render negative few
  exact ⟨n, text, sign, _, value, Decimal.readsBack_shortest .even rep⟩

/-- Different rates have different texts. -/
theorem rateText_inj (finite : x.isFinite) (finite' : y.isFinite)
    (same : rateText x = rateText y) : x = y := by
  obtain ⟨negative, quanta, rep, rfl⟩ := Binary64.exists_finite finite
  obtain ⟨negative', quanta', rep', rfl⟩ := Binary64.exists_finite finite'
  obtain ⟨n, text, sign, d, value, back⟩ := exists_numeral_rateText negative rep
  obtain ⟨n', text', sign', d', value', back'⟩ :=
    exists_numeral_rateText negative' rep'
  obtain ⟨signs, exact⟩ := Numeral.exact_of_text_eq (text.trans (same.trans text'.symm))
  obtain rfl : quanta = quanta' := back.unique back' (value.symm.trans (exact.trans value'))
  obtain rfl : negative = negative' := sign.symm.trans (signs.trans sign')
  rfl

end Encoding

end MicroBench
