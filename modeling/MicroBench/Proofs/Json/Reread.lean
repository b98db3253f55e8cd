import MicroBench.Proofs.Json.Rates
import MicroBench.Record.Decoding

/-! What a number becomes when it is written and read again. Its shortest decimal is
read digit by digit, but the reader rounds more than once, so it is not always the
same number that comes back. -/
namespace MicroBench

open Json Decoding

/-- The number that the reader makes of the text of a finite number, if it makes one. -/
def Binary64.reread : Binary64 → Option Binary64
  | .finite negative quanta _ =>
    (Decimal.shortest .even quanta).scanned.value.map fun x => if negative then -x else x
  | _ => none

namespace Decimal

variable {quanta : ℕ}

/-- The shortest decimals are within what the reader takes without loss. -/
theorem shortest_in_reach (rep : Representable quanta) :
    (shortest .even quanta).coefficient ≤ 10 ^ 17 ∧
      ((shortest .even quanta).point - 1).natAbs ≤ Nat.pow 2 31 - 1 ∧
      ((shortest .even quanta).coefficient = 0 → (shortest .even quanta).exponent = 0) := by
  rcases Nat.eq_zero_or_pos quanta with rfl | pos
  · decide
  · obtain ⟨-, positive, digits, lower, upper⟩ := shortest_spec .even rep pos
    have length : (shortest .even quanta).digits.length ≤ 18 :=
      (Nat.length_toDigits_le_iff (by norm_num) (by norm_num)).2
        (digits.trans_lt (Nat.pow_lt_pow_right (by norm_num) (by norm_num)))
    refine ⟨digits, ?_, ?_⟩
    · have : (shortest .even quanta).point =
          (shortest .even quanta).digits.length + (shortest .even quanta).exponent := rfl
      have bits : Nat.pow 2 31 - 1 = 2147483647 := by norm_num
      omega
    · intro zero
      omega

theorem exists_render (x : Decimal) : ∃ c text, Layout.wire.render x = c :: text ∧ c.isDigit := by
  obtain ⟨nonempty, digit, -⟩ := x.canonical_digits
  cases digits : x.digits with
  | nil => exact absurd digits nonempty
  | cons c others =>
    rw [digits] at digit
    have first := digit c List.mem_cons_self
    rw [Layout.render, digits]
    by_cases inPlace : Layout.wire.inPlace x.point
    · rw [if_pos inPlace, Layout.withPoint]
      by_cases small : x.point ≤ 0
      · rw [if_pos small]
        exact ⟨'0', _, rfl, rfl⟩
      · rw [if_neg small]
        obtain ⟨whole, place⟩ := Nat.exists_eq_succ_of_ne_zero (n := x.point.toNat) (by omega)
        simp only [place]
        split
        · exact ⟨c, _, rfl, first⟩
        · exact ⟨c, _, rfl, first⟩
    · rw [if_neg inPlace]
      exact ⟨c, _, rfl, first⟩

end Decimal

namespace Decoding

variable {rest : List Char}

/-- A number is taken as it stands: no white space precedes it. -/
theorem readDueNumber_cons {c : Char} (number : startsNumber c = true) (expected : Expected)
    (text : List Char) : readDueNumber expected (c :: text) = readNumber (c :: text) := by
  have stay : skipSpace (c :: text) = c :: text := by
    rw [skipSpace, List.dropWhile_cons, isSpace_of_startsNumber number]
    rfl
  simp only [readDueNumber, stay, number, if_true]

theorem readNumber_of_isDigit {c : Char} (digit : c.isDigit = true) (text : List Char) :
    readNumber (c :: text) = readMagnitude false (c :: text) := by
  rw [readNumber]
  intro rest same
  cases same
  cases digit

/-- A due number is the sign and the decimal that a finite number was written as. -/
theorem readDueNumber_renderFinite (negative : Bool) {quanta : ℕ} (rep : Representable quanta)
    (expected : Expected) (stop : Delimited rest) :
    readDueNumber expected (Layout.wire.renderFinite negative quanta ++ rest) =
      finishReal negative (Decimal.shortest .even quanta).scanned rest := by
  obtain ⟨digits, range, few⟩ := Decimal.shortest_in_reach rep
  have read := Decimal.readMagnitude_render negative
    (digits.trans (by decide)) range few stop
  obtain ⟨c, text, render, digit⟩ := Decimal.exists_render (Decimal.shortest .even quanta)
  rw [← read]
  have tie : Layout.wire.tie = .even := rfl
  cases negative with
  | false =>
    rw [Layout.renderFinite, tie, render]
    exact (readDueNumber_cons (startsNumber_of_isDigit digit) _ _).trans
      (readNumber_of_isDigit digit _)
  | true => exact readDueNumber_cons rfl _ _

/-- The text of a rate is read up to its end, as the rate drifts or as out of range. -/
theorem readRate_rateText {x : Binary64} (finite : x.isFinite) (stop : Delimited rest) :
    readRate (Encoding.rateText x ++ rest) =
      match x.reread with
      | some y => .ok (y, rest)
      | none => .error (.before .numberOutOfRange rest) := by
  cases x with
  | nan => cases finite
  | infinite => cases finite
  | finite negative quanta rep =>
    simp only [Encoding.rateText, readRate, readDueNumber_renderFinite negative rep .rate stop,
      finishReal, Binary64.reread]
    cases (Decimal.shortest .even quanta).scanned.value <;> rfl

theorem readWord_wordText (n : UInt64) (stop : Delimited rest) :
    readWord (Encoding.wordText n ++ rest) = .ok (n, rest) := by
  obtain ⟨nonempty, digit, leading⟩ := canonical_toDigits n.toNat
  have fits : Nat.ofDigitChars 10 (Nat.toDigits 10 n.toNat) 0 ≤ largestWord := by
    rw [Nat.ofDigitChars_ten_toDigits]
    exact Nat.le_of_lt_succ n.toNat_lt
  have read := readMagnitude_digits false ⟨nonempty, digit, leading⟩
    stop.startsWithDigit fits
  have whole : readAfterInteger false n.toNat 0 rest = .ok (.natural n, rest) := by
    obtain ⟨c, after, rfl, rfl | rfl | rfl⟩ := stop <;>
      simp [readAfterInteger, startsExponent, wholeNumber]
  rw [Nat.ofDigitChars_ten_toDigits, whole] at read
  cases digits : Nat.toDigits 10 n.toNat with
  | nil => exact absurd digits nonempty
  | cons c others =>
    rw [digits] at digit read
    have first := digit c List.mem_cons_self
    rw [readWord, Encoding.wordText, digits, List.cons_append,
      readDueNumber_cons (startsNumber_of_isDigit first), readNumber_of_isDigit first,
      ← List.cons_append, read]

end Decoding

end MicroBench
