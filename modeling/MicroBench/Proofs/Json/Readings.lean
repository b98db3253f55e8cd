import MicroBench.Proofs.Json.Numerals

/-! What a number of the grammar is read as: the reader comes to the number that the
grammar gives for it, or to a fault if that is out of range. -/
namespace MicroBench.Json

open Numeral

variable {α : Type}

/-- The reading finds this, up to `rest`; or it fails if there is nothing to find. -/
def Yields (reading : Reading α) (found : Option α) (rest : List Char) : Prop :=
  match found with
  | some x => reading = .ok (x, rest)
  | none => ∃ fault, reading = .error fault

theorem Yields.eq_ok_iff {reading : Reading α} {found : Option α} {rest : List Char}
    (yields : Yields reading found rest) (x : α) :
    reading = .ok (x, rest) ↔ found = some x := by
  cases found with
  | some y =>
    have read : reading = .ok (y, rest) := yields
    rw [read]
    constructor
    · rintro ⟨⟩
      rfl
    · rintro ⟨⟩
      rfl
  | none =>
    obtain ⟨fault, failed⟩ := yields
    rw [failed]
    constructor <;> rintro ⟨⟩

variable {text rest digits whole fraction : List Char} {exponent : Option Exponent}
  {negative : Bool} {s : Scaled}

/-! ### The digits that are kept -/

/-- What follows the digits has no influence on how many fit. -/
theorem takeFitting_append_rest {significand taken : Nat}
    (digit : ∀ c ∈ digits, c.isDigit = true) (stop : startsWithDigit rest = false) :
    takeFitting significand taken (digits ++ rest) =
      { takeFitting significand taken digits with
        rest := (takeFitting significand taken digits).rest ++ rest } := by
  induction digits generalizing significand taken with
  | nil =>
    cases rest with
    | nil => rfl
    | cons c rest =>
      have other : ¬ c.isDigit = true := Bool.eq_false_iff.1 stop
      simp [takeFitting, other]
  | cons c digits ih =>
    obtain ⟨first, others⟩ := List.forall_mem_cons.1 digit
    rw [List.cons_append, takeFitting, takeFitting]
    split
    · exact ih others
    · rfl

theorem digitValue_le {c : Char} (digit : c.isDigit = true) : digitValue c ≤ 9 := by
  have upper : c.toNat ≤ '9'.toNat := by
    simp only [Char.isDigit, Bool.and_eq_true, decide_eq_true_eq] at digit
    exact digit.2
  have nine : '9'.toNat = '0'.toNat + 9 := rfl
  rw [digitValue]
  omega

theorem takeFitting_rest {significand taken : Nat} (digit : ∀ c ∈ digits, c.isDigit = true) :
    ∀ c ∈ (takeFitting significand taken digits).rest, c.isDigit = true := by
  induction digits generalizing significand taken with
  | nil => exact digit
  | cons c digits ih =>
    rw [takeFitting]
    split
    · exact ih (List.forall_mem_cons.1 digit).2
    · exact digit

/-- How many digits were taken before has no influence on those that are. -/
theorem takeFitting_taken (significand taken taken' : Nat) (text : List Char) :
    (takeFitting significand taken text).significand =
        (takeFitting significand taken' text).significand ∧
      (takeFitting significand taken text).rest =
        (takeFitting significand taken' text).rest := by
  induction text generalizing significand taken taken' with
  | nil => exact ⟨rfl, rfl⟩
  | cons c text ih =>
    rw [takeFitting, takeFitting]
    split
    · exact ih _ _ _
    · exact ⟨rfl, rfl⟩

/-- The digits taken come first, and one is left only if the number would outgrow a word. -/
theorem takeFitting_split (digit : ∀ c ∈ digits, c.isDigit = true) (start taken : Nat) :
    ∃ kept, digits = kept ++ (takeFitting start taken digits).rest ∧
      (takeFitting start taken digits).significand = Nat.ofDigitChars 10 kept start ∧
      (takeFitting start taken digits).taken = taken + kept.length ∧
      ((takeFitting start taken digits).rest = [] ∨
        largestWord < (takeFitting start taken digits).significand * 10 + 9) := by
  induction digits generalizing start taken with
  | nil => exact ⟨[], rfl, rfl, rfl, .inl rfl⟩
  | cons c digits ih =>
    obtain ⟨first, others⟩ := List.forall_mem_cons.1 digit
    rw [takeFitting]
    by_cases fits : start * 10 + digitValue c ≤ largestWord
    · obtain ⟨kept, split, value, count, full⟩ :=
        ih others (start * 10 + digitValue c) (taken + 1)
      rw [if_pos ⟨first, fits⟩]
      refine ⟨c :: kept, ?_, ?_, ?_, full⟩
      · rw [List.cons_append, ← split]
      · rw [value, Nat.ofDigitChars_cons, ← digitValue, Nat.mul_comm]
      · rw [count, List.length_cons]
        omega
    · have small := digitValue_le first
      rw [if_neg fun both => fits both.2]
      exact ⟨[], rfl, rfl, rfl, .inr (by dsimp only; omega)⟩

theorem takeFitting_le {significand : Nat} (fits : significand ≤ largestWord) (taken : Nat)
    (text : List Char) : (takeFitting significand taken text).significand ≤ largestWord := by
  fun_induction takeFitting significand taken text with
  | case1 => exact fits
  | case2 _ _ _ _ here ih => exact ih here.2
  | case3 => exact fits

theorem readMagnitude_whole (negative : Bool) (canonical : Canonical whole)
    (stop : startsWithDigit rest = false) :
    readMagnitude negative (whole ++ rest) =
      readAfterInteger negative (takeFitting 0 0 whole).significand
        (takeFitting 0 0 whole).rest.length rest := by
  by_cases zero : whole.head? = some '0'
  · rw [canonical.leading zero]
    simp only [List.cons_append, List.nil_append, readMagnitude, stop, Bool.false_eq_true, if_false]
    rfl
  obtain ⟨nonempty, digit, -⟩ := canonical
  cases whole with
  | nil => exact absurd rfl nonempty
  | cons c digits =>
    obtain ⟨first, others⟩ := List.forall_mem_cons.1 digit
    have unlike : c ≠ '0' := fun same => zero (by rw [same]; rfl)
    have fits : c.isDigit = true ∧ 0 * 10 + digitValue c ≤ largestWord := by
      refine ⟨first, ?_⟩
      have := digitValue_le first
      rw [largestWord]
      omega
    obtain ⟨kept, taken⟩ := takeFitting_taken (digitValue c) 0 1 digits
    have further : ∀ c' ∈ (takeFitting (digitValue c) 1 digits).rest, c'.isDigit = true :=
      takeFitting_rest others
    obtain ⟨skipped, count⟩ := skipDigits_append further stop
    rw [List.cons_append, readMagnitude]
    · rw [if_pos first, takeFitting_append_rest others stop, takeFitting, if_pos fits]
      simp only [Nat.zero_mul, Nat.zero_add, skipped, count, kept, taken]
    · exact unlike

/-! ### Scaled numbers -/

theorem finishReal_yields (negative : Bool) (s : Scaled) (rest : List Char) :
    Yields (finishReal negative s rest) (s.value.map (signedReal negative)) rest := by
  unfold Yields finishReal
  cases s.value with
  | none => exact ⟨_, rfl⟩
  | some y => rfl

theorem exponentDigits_yields {down : Bool} {power : Nat}
    (digit : ∀ c ∈ digits, c.isDigit = true) (stop : startsWithDigit rest = false)
    (counted : power ≤ Nat.pow 2 31 - 1) :
    Yields (exponentDigits negative s down power (digits ++ rest))
      ((if Nat.pow 2 31 - 1 < Nat.ofDigitChars 10 digits power then
          if s.significand ≠ 0 ∧ !down then none else some 0
        else (s.shifted down (Nat.ofDigitChars 10 digits power)).value).map
          (signedReal negative)) rest := by
  induction digits generalizing power with
  | nil =>
    rw [Nat.ofDigitChars_nil, if_neg (Nat.not_lt.2 counted)]
    have ended : exponentDigits negative s down power ([] ++ rest) =
        finishReal negative (s.shifted down power) rest := by
      cases rest with
      | nil => rfl
      | cons c rest =>
        have other : ¬ c.isDigit = true := Bool.eq_false_iff.1 stop
        simp [exponentDigits, other]
    rw [ended]
    exact finishReal_yields _ _ _
  | cons c digits ih =>
    obtain ⟨first, others⟩ := List.forall_mem_cons.1 digit
    rw [Nat.ofDigitChars_cons, Nat.mul_comm 10, ← digitValue]
    simp only [List.cons_append, exponentDigits, first, if_true]
    by_cases beyond : Nat.pow 2 31 - 1 < power * 10 + digitValue c
    · have total := Nat.lt_of_lt_of_le beyond (le_ofDigitChars digits _)
      simp only [beyond, total, if_true, (skipDigits_append others stop).1]
      split
      · exact ⟨_, rfl⟩
      · rfl
    · rw [if_neg beyond]
      exact ih others (Nat.not_lt.1 beyond)

theorem readScale_yields (ends : EndsNumber fraction exponent rest) :
    Yields (readScale negative s (exponentText exponent ++ rest))
      ((valueWith s exponent).map (signedReal negative)) rest := by
  cases exponent with
  | none =>
    have plain : readScale negative s rest = finishReal negative s rest := by
      rw [readScale, ends.letter rfl]
      rfl
    rw [exponentText, List.nil_append, plain]
    exact finishReal_yields _ _ _
  | some x =>
    have drop : (x.text ++ rest).drop 1 = Exponent.signText x.sign ++ (x.digits ++ rest) := by
      rw [Exponent.text, List.cons_append, List.append_assoc]
      rfl
    have signed : exponentSign (Exponent.signText x.sign ++ (x.digits ++ rest)) = _ :=
      exponentSign_signText x.sign x.nonempty x.digit
    obtain ⟨capital, sign, digits, nonempty, digit⟩ := x
    cases digits with
    | nil => exact absurd rfl nonempty
    | cons c digits =>
      obtain ⟨first, others⟩ := List.forall_mem_cons.1 digit
      have small : digitValue c ≤ Nat.pow 2 31 - 1 := Nat.le_trans (digitValue_le first) (by decide)
      have power : Nat.ofDigitChars 10 (c :: digits) 0 =
          Nat.ofDigitChars 10 digits (digitValue c) := by
        rw [Nat.ofDigitChars_cons, Nat.mul_zero, Nat.zero_add]
        rfl
      simp only [List.cons_append] at signed
      rw [exponentText, readScale, startsExponent_text, if_pos rfl, drop]
      simp only [readExponent, signed, List.cons_append, first, if_true, valueWith,
        Exponent.valueOf, Exponent.power, Exponent.down, power]
      exact exponentDigits_yields others ends.digit small

theorem readFraction_yields (nonempty : fraction ≠ [])
    (digit : ∀ c ∈ fraction, c.isDigit = true) (ends : EndsNumber fraction exponent rest) :
    Yields (readFraction negative s (fraction ++ (exponentText exponent ++ rest)))
      ((valueWith ⟨(takeFitting s.significand 0 fraction).significand,
        s.exponent - (takeFitting s.significand 0 fraction).taken⟩ exponent).map
          (signedReal negative)) rest := by
  have stop := startsWithDigit_exponentText ends
  simp only [readFraction, startsWithDigit_append nonempty digit, if_true,
    takeFitting_append_rest digit stop, (skipDigits_append (takeFitting_rest digit) stop).1]
  exact readScale_yields ends

/-- What follows the integer digits decides whether the number is an integer. -/
theorem readAfterInteger_yields (x : Numeral) (ends : EndsNumber x.fraction x.exponent rest) :
    Yields (readAfterInteger x.negative x.fitting.significand x.fitting.rest.length
      (fractionText x.fraction ++ (exponentText x.exponent ++ rest))) x.number rest := by
  by_cases empty : x.fraction = []
  · have scaled : x.scaled = ⟨x.fitting.significand, x.fitting.rest.length⟩ := by
      rw [Numeral.scaled, fittingFraction, empty]
      simp [takeFitting]
    rw [empty] at ends
    rw [empty, fractionText, if_pos rfl, List.nil_append, readAfterInteger]
    · by_cases whole : x.IsWhole
      · obtain ⟨-, bare, fits⟩ := id whole
        rw [Option.isNone_iff_eq_none] at bare
        have letter := ends.letter bare
        rw [number, if_pos whole, bare, exponentText, List.nil_append, letter, fits]
        rfl
      · have scale : startsExponent (exponentText x.exponent ++ rest) = true ∨
            x.fitting.rest.length ≠ 0 := by
          cases exponent : x.exponent with
          | some e => exact .inl startsExponent_text
          | none =>
            right
            intro fits
            exact whole ⟨empty, by rw [exponent]; rfl, List.eq_nil_of_length_eq_zero fits⟩
        rw [number, if_neg whole, if_pos scale, magnitude, scaled]
        exact readScale_yields ends
    · exact pointless ends
  · have real : ¬ x.IsWhole := fun whole => empty whole.1
    rw [number, if_neg real, fractionText, if_neg empty, List.cons_append, readAfterInteger]
    exact readFraction_yields empty x.digit ends

/-- A number by the grammar is read as its value, or refused if it has none. -/
theorem readNumber_yields (x : Numeral) (ends : EndsNumber x.fraction x.exponent rest) :
    Yields (readNumber (x.text ++ rest)) x.number rest := by
  have after := readAfterInteger_yields x ends
  have magnitude := readMagnitude_whole x.negative x.canonical
    (startsWithDigit_fractionText ends)
  rw [fitting] at after
  rw [← magnitude] at after
  rcases sign_cases x with ⟨negative, text⟩ | ⟨negative, c, others, whole, digit, text⟩
  · rw [negative] at after
    rw [text]
    simpa only [List.cons_append, List.append_assoc, readNumber] using after
  · rw [negative] at after
    rw [text]
    simp only [List.append_assoc]
    rw [readNumber]
    · exact after
    · rw [whole]
      rintro after ⟨⟩
      cases digit

/-- What was read is a number of the grammar, and what that is read as. -/
theorem exists_numeral_of_readNumber {n : Number} (h : readNumber text = .ok (n, rest)) :
    ∃ x : Numeral, text = x.text ++ rest ∧ x.number = some n := by
  obtain ⟨x, split, ends⟩ := exists_numeral (skipNumber_of_readNumber h)
  rw [split] at h
  exact ⟨x, split, ((readNumber_yields x ends).eq_ok_iff n).1 h⟩

theorem readNumber_text {x : Numeral} {n : Number} (number : x.number = some n)
    (ends : Ends rest) : readNumber (x.text ++ rest) = .ok (n, rest) :=
  ((readNumber_yields x (endsNumber_of_ends ends _ _)).eq_ok_iff n).2 number

end MicroBench.Json
