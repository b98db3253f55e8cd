import MicroBench.Json.Numbers
import MicroBench.Json.Space

/-! How the number reader takes runs of digits that fit into a word: all of them, and no
digit is dropped. -/
namespace MicroBench.Json

/-! ### Digits -/

theorem head?_toDigits_ne_zero {n : Nat} (pos : 0 < n) :
    (Nat.toDigits 10 n).head? ≠ some '0' := by
  induction n using Nat.strongRecOn with
  | ind n ih =>
    rw [Nat.toDigits_eq_if (by decide)]
    by_cases single : n < 10
    · rw [if_pos single, List.head?_cons, Ne, Option.some.injEq, Nat.digitChar_eq_zero]
      omega
    · have front := ih (n / 10) (by omega) (by omega)
      rw [if_neg single]
      cases digits : Nat.toDigits 10 (n / 10) with
      | nil => exact absurd digits Nat.toDigits_ne_nil
      | cons c others =>
        rw [digits] at front
        exact front

theorem startsNumber_of_isDigit {c : Char} (digit : c.isDigit = true) : startsNumber c = true := by
  rw [startsNumber, digit, Bool.or_true]

theorem isSpace_of_startsNumber {c : Char} (number : startsNumber c = true) :
    isSpace c = false := by
  rw [Bool.eq_false_iff]
  intro space
  simp only [isSpace, Bool.or_eq_true, beq_iff_eq] at space
  rcases space with ((rfl | rfl) | rfl) | rfl <;> exact absurd number (by decide)

/-- Nonempty digits that do not start with a zero, or only a zero. -/
structure Canonical (digits : List Char) : Prop where
  nonempty : digits ≠ []
  digit : ∀ c ∈ digits, c.isDigit = true
  leading : digits.head? = some '0' → digits = ['0']

theorem isDigit_of_mem_digits {n : Nat} {c : Char} (h : c ∈ Nat.toDigits 10 n) :
    c.isDigit = true :=
  Nat.isDigit_of_mem_toDigits (by decide) (by decide) h

/-- The digits of a natural do not begin with a zero, unless it is zero. -/
theorem canonical_toDigits (n : Nat) : Canonical (Nat.toDigits 10 n) := by
  refine ⟨Nat.toDigits_ne_nil, ?_, ?_⟩
  · intro c
    exact isDigit_of_mem_digits
  · intro zero
    rcases Nat.eq_zero_or_pos n with rfl | pos
    · exact Nat.toDigits_zero 10
    · exact absurd zero (head?_toDigits_ne_zero pos)

theorem le_ofDigitChars (digits : List Char) (start : Nat) :
    start ≤ Nat.ofDigitChars 10 digits start := by
  induction digits generalizing start with
  | nil => exact Nat.le_refl _
  | cons c digits ih =>
    rw [Nat.ofDigitChars_cons]
    exact Nat.le_trans (by omega) (ih _)

/-- Digits that form a word are all taken. -/
theorem takeFitting_append {digits rest : List Char} {significand taken : Nat}
    (digit : ∀ c ∈ digits, c.isDigit = true) (stop : startsWithDigit rest = false)
    (fits : Nat.ofDigitChars 10 digits significand ≤ largestWord) :
    takeFitting significand taken (digits ++ rest) =
      ⟨Nat.ofDigitChars 10 digits significand, taken + digits.length, rest⟩ := by
  induction digits generalizing significand taken with
  | nil =>
    cases rest with
    | nil => rfl
    | cons c rest =>
      have : ¬ c.isDigit = true := by
        simp only [startsWithDigit] at stop
        simp [stop]
      simp [takeFitting, this]
  | cons c digits ih =>
    obtain ⟨first, others⟩ := List.forall_mem_cons.1 digit
    rw [Nat.ofDigitChars_cons, Nat.mul_comm] at fits
    have here := Nat.le_trans (le_ofDigitChars _ _) fits
    rw [List.cons_append, takeFitting, if_pos ⟨first, here⟩, Nat.ofDigitChars_cons, Nat.mul_comm 10]
    rw [digitValue, ih others fits, List.length_cons]
    congr 1
    omega

theorem skipDigits_of_stop {rest : List Char} (stop : startsWithDigit rest = false) :
    skipDigits rest = rest ∧ digitRun rest = 0 := by
  cases rest with
  | nil => exact ⟨rfl, rfl⟩
  | cons c rest =>
    simp only [startsWithDigit] at stop
    simp [skipDigits, digitRun, stop]

theorem readMagnitude_digits (negative : Bool) {digits rest : List Char}
    (canonical : Canonical digits) (stop : startsWithDigit rest = false)
    (fits : Nat.ofDigitChars 10 digits 0 ≤ largestWord) :
    readMagnitude negative (digits ++ rest) =
      readAfterInteger negative (Nat.ofDigitChars 10 digits 0) 0 rest := by
  by_cases zero : digits.head? = some '0'
  · rw [canonical.leading zero]
    simp only [List.cons_append, List.nil_append, readMagnitude, stop, Bool.false_eq_true, if_false]
    rfl
  obtain ⟨nonempty, digit, -⟩ := canonical
  cases digits with
  | nil => exact absurd rfl nonempty
  | cons c digits =>
    obtain ⟨first, others⟩ := List.forall_mem_cons.1 digit
    rw [Nat.ofDigitChars_cons, Nat.mul_zero, Nat.zero_add] at fits ⊢
    have unlike : c ≠ '0' := fun same => zero (by rw [same]; rfl)
    rw [List.cons_append, readMagnitude]
    · rw [if_pos first, digitValue, takeFitting_append others stop fits]
      simp only [skipDigits_of_stop stop]
    · exact unlike

theorem readFraction_digits {digits rest : List Char} {negative : Bool} {s : Scaled}
    (nonempty : digits ≠ []) (digit : ∀ c ∈ digits, c.isDigit = true)
    (stop : startsWithDigit rest = false)
    (fits : Nat.ofDigitChars 10 digits s.significand ≤ largestWord) :
    readFraction negative s (digits ++ rest) =
      readScale negative ⟨Nat.ofDigitChars 10 digits s.significand, s.exponent - digits.length⟩
        rest := by
  have starts : startsWithDigit (digits ++ rest) = true := by
    cases digits with
    | nil => exact absurd rfl nonempty
    | cons c digits => exact digit c List.mem_cons_self
  simp only [readFraction, starts, if_true, takeFitting_append digit stop fits,
    skipDigits_of_stop stop, Nat.zero_add]

theorem exponentDigits_append {digits rest : List Char} {negative down : Bool} {s : Scaled}
    {power : Nat} (digit : ∀ c ∈ digits, c.isDigit = true) (stop : startsWithDigit rest = false)
    (fits : Nat.ofDigitChars 10 digits power ≤ Nat.pow 2 31 - 1) :
    exponentDigits negative s down power (digits ++ rest) =
      finishReal negative (s.shifted down (Nat.ofDigitChars 10 digits power)) rest := by
  induction digits generalizing power with
  | nil =>
    cases rest with
    | nil => rfl
    | cons c rest =>
      simp only [startsWithDigit] at stop
      simp [exponentDigits, stop]
  | cons c digits ih =>
    obtain ⟨first, others⟩ := List.forall_mem_cons.1 digit
    rw [Nat.ofDigitChars_cons, Nat.mul_comm] at fits
    have here := Nat.le_trans (le_ofDigitChars _ _) fits
    have small : ¬ Nat.pow 2 31 - 1 < power * 10 + digitValue c := Nat.not_lt.2 here
    rw [Nat.ofDigitChars_cons, Nat.mul_comm 10]
    simp only [List.cons_append, exponentDigits, first, if_true, small, if_false]
    exact ih others fits

/-- An exponent of a sign and digits shifts the number. -/
theorem readExponent_digits (negative down : Bool) (s : Scaled) {n : Nat} {rest : List Char}
    (fits : n ≤ Nat.pow 2 31 - 1) (stop : startsWithDigit rest = false) :
    readExponent negative s ((if down then '-' else '+') :: (Nat.toDigits 10 n ++ rest)) =
      finishReal negative (s.shifted down n) rest := by
  have value := Nat.ofDigitChars_ten_toDigits (n := n)
  have digit : ∀ c ∈ Nat.toDigits 10 n, c.isDigit = true := fun c => isDigit_of_mem_digits
  have signed : exponentSign ((if down then '-' else '+') :: (Nat.toDigits 10 n ++ rest)) =
      (down, Nat.toDigits 10 n ++ rest) := by
    cases down <;> rfl
  simp only [readExponent, signed]
  cases digits : Nat.toDigits 10 n with
  | nil => exact absurd digits Nat.toDigits_ne_nil
  | cons c digits' =>
    rw [digits] at digit value
    obtain ⟨first, others⟩ := List.forall_mem_cons.1 digit
    rw [Nat.ofDigitChars_cons, Nat.mul_zero, Nat.zero_add] at value
    simp only [List.cons_append, first, if_true]
    rw [digitValue, exponentDigits_append others stop (by rw [value]; exact fits), value]

end MicroBench.Json
