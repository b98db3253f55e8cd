import MicroBench.Proofs.Decimal.Shortest
import MicroBench.Proofs.Json.Numbers
import MicroBench.Record.Encoding

/-! What the reader makes of the text of a rate: the digits of its decimal and the power
of ten they are to be taken times. No digit is lost on the way, so what the two of them
stand for is the decimal that was written. -/
namespace MicroBench

open Json

def Json.Delimited (text : List Char) : Prop :=
  ∃ c rest, text = c :: rest ∧ (c = ',' ∨ c = ']' ∨ c = '\x7d')

namespace Json.Delimited

variable {text : List Char}

theorem startsWithDigit (h : Delimited text) : Json.startsWithDigit text = false := by
  obtain ⟨c, rest, rfl, rfl | rfl | rfl⟩ := h <;> rfl

theorem startsExponent (h : Delimited text) : Json.startsExponent text = false := by
  obtain ⟨c, rest, rfl, rfl | rfl | rfl⟩ := h <;> rfl

theorem readScale (h : Delimited text) (negative : Bool) (s : Scaled) :
    Json.readScale negative s text = finishReal negative s text := by
  rw [Json.readScale, h.startsExponent]
  rfl

end Json.Delimited

namespace Decimal

/-- The digits and the power of ten that the text of a rate has. A whole number in place ends in a
zero after the point, which is read as one more digit. -/
def scanned (x : Decimal) : Scaled :=
  if Layout.wire.inPlace x.point ∧ 0 ≤ x.exponent then
    ⟨x.coefficient * 10 ^ (x.exponent.toNat + 1), -1⟩
  else ⟨x.coefficient, x.exponent⟩

variable {x : Decimal} {negative : Bool} {rest : List Char}

theorem canonical_digits (x : Decimal) : Canonical x.digits := canonical_toDigits x.coefficient

theorem ofDigitChars_digits (x : Decimal) : Nat.ofDigitChars 10 x.digits 0 = x.coefficient :=
  Nat.ofDigitChars_ten_toDigits

theorem length_digits_pos (x : Decimal) : 0 < x.digits.length :=
  List.length_pos_iff.2 x.canonical_digits.nonempty

theorem coefficient_lt (x : Decimal) : x.coefficient < 10 ^ x.digits.length :=
  (Nat.length_toDigits_le_iff (by decide) x.length_digits_pos).1 (Nat.le_refl _)

theorem inPlace_wire (point : Int) :
    Layout.wire.inPlace point = true ↔ -5 < point ∧ point ≤ 16 := by
  simp [Layout.inPlace, Layout.wire]

/-! ### Points in place -/

theorem withPoint_of_small (small : x.point ≤ 0) :
    Layout.wire.withPoint x.digits x.point =
      '0' :: '.' :: (List.replicate (-x.point).toNat '0' ++ x.digits) := by
  rw [Layout.withPoint, if_pos small]
  rfl

theorem withPoint_of_whole (whole : 0 ≤ x.exponent) :
    Layout.wire.withPoint x.digits x.point =
      (x.digits ++ List.replicate x.exponent.toNat '0') ++ ['.', '0'] := by
  have length := x.length_digits_pos
  have place : x.point.toNat = x.digits.length + x.exponent.toNat := by
    simp only [point]
    omega
  rw [Layout.withPoint, if_neg (by omega), if_pos (by omega), place, Nat.add_sub_cancel_left]
  rfl

/-- With some digits before the point and some after it, there are no zeros to fill in. -/
theorem withPoint_of_split (positive : 0 < x.point) (fraction : x.exponent < 0) :
    Layout.wire.withPoint x.digits x.point =
      x.digits.take x.point.toNat ++ '.' :: x.digits.drop x.point.toNat := by
  have place : (x.point.toNat : Int) = x.digits.length + x.exponent := by
    simp only [point] at positive ⊢
    omega
  rw [Layout.withPoint, if_neg (by omega), if_neg (by omega)]

/-- The zeros behind the point do not count. -/
theorem ofDigitChars_zeros_digits (x : Decimal) (zeros : Nat) :
    Nat.ofDigitChars 10 (List.replicate zeros '0' ++ x.digits) 0 = x.coefficient := by
  rw [Nat.ofDigitChars_append, Nat.ofDigitChars_replicate_zero, Nat.mul_zero, ofDigitChars_digits]

theorem ofDigitChars_digits_zeros (x : Decimal) (zeros : Nat) :
    Nat.ofDigitChars 10 (x.digits ++ List.replicate zeros '0') 0 = x.coefficient * 10 ^ zeros := by
  rw [Nat.ofDigitChars_append, Nat.ofDigitChars_replicate_zero, ofDigitChars_digits, Nat.mul_comm]

theorem isDigit_of_mem_zeros_digits {zeros : Nat} :
    ∀ c ∈ List.replicate zeros '0' ++ x.digits, c.isDigit = true := by
  intro c member
  rcases List.mem_append.1 member with zero | digit
  · rw [(List.mem_replicate.1 zero).2]
    rfl
  · exact x.canonical_digits.digit c digit

/-! ### What the reader makes of them -/

theorem readMagnitude_zero_point {digits : List Char} :
    readMagnitude negative ('0' :: '.' :: (digits ++ rest)) =
      readFraction negative ⟨0, 0⟩ (digits ++ rest) := rfl

/-- A number below one in place: a zero and the point, then zeros and the digits. -/
theorem readMagnitude_small (fits : x.coefficient ≤ largestWord) (small : x.point ≤ 0)
    (stop : Delimited rest) :
    readMagnitude negative (Layout.wire.withPoint x.digits x.point ++ rest) =
      finishReal negative ⟨x.coefficient, x.exponent⟩ rest := by
  have value := x.ofDigitChars_zeros_digits (-x.point).toNat
  have nonempty : List.replicate (-x.point).toNat '0' ++ x.digits ≠ [] := by
    simp [x.canonical_digits.nonempty]
  have exponent : (0 : Int) - (List.replicate (-x.point).toNat '0' ++ x.digits).length =
      x.exponent := by
    rw [List.length_append, List.length_replicate]
    simp only [point] at small ⊢
    omega
  rw [withPoint_of_small small, List.cons_append, List.cons_append, readMagnitude_zero_point,
    readFraction_digits nonempty isDigit_of_mem_zeros_digits stop.startsWithDigit
      (by rw [value]; exact fits),
    stop.readScale, value, exponent]

theorem canonical_append_zeros (x : Decimal) {zeros : Nat} (few : x.coefficient = 0 → zeros = 0) :
    Canonical (x.digits ++ List.replicate zeros '0') := by
  obtain ⟨nonempty, digit, leading⟩ := x.canonical_digits
  refine ⟨by simp [nonempty], ?_, ?_⟩
  · intro c member
    rcases List.mem_append.1 member with here | zero
    · exact digit c here
    · rw [(List.mem_replicate.1 zero).2]
      rfl
  · intro front
    have front' : x.digits.head? = some '0' := by
      cases digits : x.digits with
      | nil => exact absurd digits nonempty
      | cons c others =>
        rw [digits] at front
        exact front
    have : x.coefficient = 0 := by
      rw [← x.ofDigitChars_digits, leading front']
      rfl
    rw [few this, leading front']
    rfl

theorem whole_lt (small : x.point ≤ 16) (whole : 0 ≤ x.exponent) :
    x.coefficient * 10 ^ x.exponent.toNat < 10 ^ 16 := by
  calc x.coefficient * 10 ^ x.exponent.toNat
      < 10 ^ x.digits.length * 10 ^ x.exponent.toNat :=
        Nat.mul_lt_mul_of_pos_right x.coefficient_lt (Nat.pow_pos (by decide))
    _ = 10 ^ (x.digits.length + x.exponent.toNat) := (Nat.pow_add _ _ _).symm
    _ ≤ 10 ^ 16 := Nat.pow_le_pow_right (by decide) (by simp only [point] at small; omega)

/-- A whole number in place: the digits and zeros, then the point and one zero. -/
theorem readMagnitude_whole (small : x.point ≤ 16) (whole : 0 ≤ x.exponent)
    (few : x.coefficient = 0 → x.exponent = 0) (stop : Delimited rest) :
    readMagnitude negative (Layout.wire.withPoint x.digits x.point ++ rest) =
      finishReal negative ⟨x.coefficient * 10 ^ (x.exponent.toNat + 1), -1⟩ rest := by
  have value := x.ofDigitChars_digits_zeros x.exponent.toNat
  have below := whole_lt small whole
  have fits : x.coefficient * 10 ^ x.exponent.toNat ≤ largestWord := by
    rw [largestWord]
    omega
  have longer : Nat.ofDigitChars 10 ['0'] (x.coefficient * 10 ^ x.exponent.toNat) =
      x.coefficient * 10 ^ (x.exponent.toNat + 1) := by
    rw [Nat.ofDigitChars_cons, Nat.ofDigitChars_nil, Nat.pow_succ, Nat.mul_comm 10, Nat.mul_assoc]
    rfl
  have text : Layout.wire.withPoint x.digits x.point ++ rest =
      (x.digits ++ List.replicate x.exponent.toNat '0') ++ '.' :: (['0'] ++ rest) := by
    rw [withPoint_of_whole whole, List.append_assoc _ _ rest]
    rfl
  rw [text, readMagnitude_digits _ (x.canonical_append_zeros (by omega)) rfl
    (by rw [value]; exact fits), value]
  have scaled : readAfterInteger negative (x.coefficient * 10 ^ x.exponent.toNat) 0
      ('.' :: (['0'] ++ rest)) =
      readFraction negative ⟨x.coefficient * 10 ^ x.exponent.toNat, 0⟩ (['0'] ++ rest) := rfl
  rw [scaled, readFraction_digits (by simp) (by simp) stop.startsWithDigit
    (by rw [longer, Nat.pow_succ, ← Nat.mul_assoc, largestWord]; omega), longer, stop.readScale]
  rfl

/-- The digits before the point do not begin with a zero. -/
theorem canonical_take {whole : Nat} (positive : 0 < whole) (more : whole < x.digits.length) :
    Canonical (x.digits.take whole) := by
  obtain ⟨nonempty, digit, leading⟩ := x.canonical_digits
  have front : (x.digits.take whole).head? = x.digits.head? := by
    rw [List.head?_take, if_neg (Nat.ne_of_gt positive)]
  refine ⟨?_, ?_, ?_⟩
  · intro empty
    rw [← List.head?_eq_none_iff, front, List.head?_eq_none_iff] at empty
    exact nonempty empty
  · intro c member
    exact digit c (List.mem_of_mem_take member)
  · intro zero
    rw [front] at zero
    have := congrArg List.length (leading zero)
    rw [List.length_singleton] at this
    omega

/-- The point stands among the digits, and more of the number may follow. -/
theorem readMagnitude_mantissa (fits : x.coefficient ≤ largestWord) {whole : Nat}
    (positive : 0 < whole) (more : whole < x.digits.length) (stop : startsWithDigit rest = false) :
    readMagnitude negative (x.digits.take whole ++ '.' :: (x.digits.drop whole ++ rest)) =
      readScale negative ⟨x.coefficient, whole - x.digits.length⟩ rest := by
  have value : Nat.ofDigitChars 10 (x.digits.drop whole)
      (Nat.ofDigitChars 10 (x.digits.take whole) 0) = x.coefficient := by
    rw [← Nat.ofDigitChars_append, List.take_append_drop, ofDigitChars_digits]
  have part : Nat.ofDigitChars 10 (x.digits.take whole) 0 ≤ largestWord := by
    have := le_ofDigitChars (x.digits.drop whole) (Nat.ofDigitChars 10 (x.digits.take whole) 0)
    omega
  have fraction : x.digits.drop whole ≠ [] := by
    rw [Ne, List.drop_eq_nil_iff]
    omega
  have digit : ∀ c ∈ x.digits.drop whole, c.isDigit = true := fun c member =>
    x.canonical_digits.digit c (List.mem_of_mem_drop member)
  have exponent : (0 : Int) - (x.digits.drop whole).length = whole - x.digits.length := by
    rw [List.length_drop]
    omega
  rw [readMagnitude_digits _ (canonical_take positive more) rfl part]
  have scaled : readAfterInteger negative (Nat.ofDigitChars 10 (x.digits.take whole) 0) 0
      ('.' :: (x.digits.drop whole ++ rest)) =
      readFraction negative ⟨Nat.ofDigitChars 10 (x.digits.take whole) 0, 0⟩
        (x.digits.drop whole ++ rest) := rfl
  rw [scaled, readFraction_digits fraction digit
    stop (by rw [value]; exact fits), value, exponent]

/-- Digits on both sides of the point. -/
theorem readMagnitude_split (fits : x.coefficient ≤ largestWord) (positive : 0 < x.point)
    (fraction : x.exponent < 0) (stop : Delimited rest) :
    readMagnitude negative (Layout.wire.withPoint x.digits x.point ++ rest) =
      finishReal negative ⟨x.coefficient, x.exponent⟩ rest := by
  have place : (x.point.toNat : Int) = x.digits.length + x.exponent := by
    simp only [point] at positive ⊢
    omega
  rw [withPoint_of_split positive fraction, List.append_assoc, List.cons_append,
    readMagnitude_mantissa fits (by omega) (by omega) stop.startsWithDigit, stop.readScale, place]
  congr 2
  omega

def exponentText (x : Decimal) : List Char :=
  'e' :: ((if x.point - 1 < 0 then '-' else '+') :: Nat.toDigits 10 (x.point - 1).natAbs)

theorem sign_wire (power : Int) :
    (if power < 0 then ['-'] else Layout.wire.plus) = [if power < 0 then '-' else '+'] := by
  split <;> rfl

theorem withExponent_of_single (single : x.digits.length = 1) :
    Layout.wire.withExponent x.digits x.point = x.digits ++ x.exponentText := by
  have tail : x.digits.drop 1 = [] := List.drop_eq_nil_iff.2 (by omega)
  have all : x.digits.take 1 = x.digits := List.take_of_length_le (Nat.le_of_eq single)
  simp only [Layout.withExponent, sign_wire, tail, all, exponentText]
  simp

theorem withExponent_of_more (more : 1 < x.digits.length) :
    Layout.wire.withExponent x.digits x.point =
      x.digits.take 1 ++ '.' :: (x.digits.drop 1 ++ x.exponentText) := by
  cases others : x.digits.drop 1 with
  | nil =>
    have := List.drop_eq_nil_iff.1 others
    omega
  | cons c digits =>
    simp only [Layout.withExponent, sign_wire, others, exponentText]
    simp

/-- The exponent puts the point, read after the first digit, where it belongs. -/
theorem readScale_exponentText (negative : Bool) (range : (x.point - 1).natAbs ≤ Nat.pow 2 31 - 1)
    (stop : Delimited rest) (significand : Nat) :
    readScale negative ⟨significand, 1 - x.digits.length⟩ (x.exponentText ++ rest) =
      finishReal negative ⟨significand, x.exponent⟩ rest := by
  have place : x.point = x.digits.length + x.exponent := rfl
  have exponent : (⟨significand, 1 - x.digits.length⟩ : Scaled).shifted
      (decide (x.point - 1 < 0)) (x.point - 1).natAbs = ⟨significand, x.exponent⟩ := by
    by_cases down : x.point - 1 < 0
    · simp only [Scaled.shifted, down, decide_true, if_true]
      congr 1
      omega
    · simp only [Scaled.shifted, down, decide_false, Bool.false_eq_true, if_false]
      congr 1
      omega
  have read := readExponent_digits negative (decide (x.point - 1 < 0))
    ⟨significand, 1 - x.digits.length⟩ range stop.startsWithDigit
  rw [exponent] at read
  simp only [decide_eq_true_eq] at read
  rw [← read]
  rfl

/-- One digit, a point if there are more, and an exponent. -/
theorem readMagnitude_exponent (fits : x.coefficient ≤ largestWord)
    (range : (x.point - 1).natAbs ≤ Nat.pow 2 31 - 1) (stop : Delimited rest) :
    readMagnitude negative (Layout.wire.withExponent x.digits x.point ++ rest) =
      finishReal negative ⟨x.coefficient, x.exponent⟩ rest := by
  have length := x.length_digits_pos
  have scaled := readScale_exponentText negative range stop x.coefficient
  by_cases single : x.digits.length = 1
  · rw [single] at scaled
    rw [withExponent_of_single single, List.append_assoc,
      readMagnitude_digits _ x.canonical_digits rfl (x.ofDigitChars_digits.trans_le fits),
      ofDigitChars_digits, ← scaled]
    rfl
  · have more : 1 < x.digits.length := by omega
    rw [withExponent_of_more more, List.append_assoc, List.cons_append, List.append_assoc,
      readMagnitude_mantissa fits Nat.one_pos more rfl]
    exact scaled

/-- The reader gets the decimal that was written. -/
theorem readMagnitude_render (negative : Bool) (fits : x.coefficient ≤ largestWord)
    (range : (x.point - 1).natAbs ≤ Nat.pow 2 31 - 1) (few : x.coefficient = 0 → x.exponent = 0)
    (stop : Delimited rest) :
    readMagnitude negative (Layout.wire.render x ++ rest) = finishReal negative x.scanned rest := by
  have place : x.point = x.digits.length + x.exponent := rfl
  have length := x.length_digits_pos
  rw [Layout.render]
  by_cases inPlace : Layout.wire.inPlace x.point
  · obtain ⟨-, most⟩ := (inPlace_wire _).1 inPlace
    rw [if_pos inPlace]
    by_cases whole : 0 ≤ x.exponent
    · rw [readMagnitude_whole most whole few stop, scanned, if_pos ⟨inPlace, whole⟩]
    · rw [scanned, if_neg fun both => whole both.2]
      by_cases small : x.point ≤ 0
      · exact readMagnitude_small fits small stop
      · exact readMagnitude_split fits (by omega) (by omega) stop
  · rw [if_neg inPlace, readMagnitude_exponent fits range stop, scanned,
      if_neg fun both => inPlace both.1]

end Decimal

end MicroBench
