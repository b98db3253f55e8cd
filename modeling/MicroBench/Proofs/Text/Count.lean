import MicroBench.Proofs.Json.Numbers
import MicroBench.Text.Count

/-! The texts that are read as counts: decimal digits, leading zeros among them, with a plus
before them or not, as long as the number is a word. -/
namespace MicroBench.Text

variable {text digits : List Char} {k : Nat} {n : UInt64}

def Counts (text : List Char) (n : UInt64) : Prop :=
  ∃ digits, (text = digits ∨ text = '+' :: digits) ∧ digits ≠ [] ∧
    (∀ c ∈ digits, c.isDigit = true) ∧ Nat.ofDigitChars 10 digits 0 = n.toNat

theorem toNat_le_largestWord (n : UInt64) : n.toNat ≤ largestWord := by
  have small := n.toNat_lt
  simp only [largestWord]
  omega

/-- Once a number is too large it stays so, whatever digits follow. -/
theorem countDigits_eq_ok_iff (small : k ≤ largestWord) :
    countDigits k digits = .ok n ↔
      (∀ c ∈ digits, c.isDigit = true) ∧ Nat.ofDigitChars 10 digits k = n.toNat := by
  induction digits generalizing k with
  | nil =>
    have word : (UInt64.ofNat k).toNat = k := by
      rw [UInt64.toNat_ofNat']
      simp only [largestWord] at small
      omega
    rw [countDigits, Except.ok.injEq, ← UInt64.toNat_inj, word]
    simp [Nat.ofDigitChars]
  | cons c digits ih =>
    rw [countDigits, List.forall_mem_cons, Nat.ofDigitChars_cons, Nat.mul_comm 10]
    by_cases digit : c.isDigit = true
    · simp only [digit, Bool.not_true, Bool.false_eq_true, if_false, true_and]
      by_cases large : largestWord < k * 10 + (c.toNat - '0'.toNat)
      · rw [if_pos large]
        constructor
        · rintro ⟨⟩
        · rintro ⟨-, value⟩
          have := Json.le_ofDigitChars digits (k * 10 + (c.toNat - '0'.toNat))
          have := toNat_le_largestWord n
          omega
      · rw [if_neg large]
        exact ih (Nat.not_lt.1 large)
    · simp [digit]

/-- A run of digits is a count just if it forms a word. -/
theorem countDigits_zero_eq_ok_iff :
    countDigits 0 digits = .ok n ↔
      (∀ c ∈ digits, c.isDigit = true) ∧ Nat.ofDigitChars 10 digits 0 = n.toNat :=
  countDigits_eq_ok_iff (Nat.zero_le _)

/-- The reader takes exactly the texts that stand for a count. -/
theorem readCount_eq_ok_iff : readCount text = .ok n ↔ Counts text n := by
  constructor
  · intro read
    unfold readCount at read
    split at read
    · cases read
    · cases read
    · rename_i digits more
      have nonempty : digits ≠ [] := fun empty => more empty
      obtain ⟨digit, value⟩ := countDigits_zero_eq_ok_iff.1 read
      exact ⟨digits, .inr rfl, nonempty, digit, value⟩
    · rename_i nonempty _ _
      obtain ⟨digit, value⟩ := countDigits_zero_eq_ok_iff.1 read
      exact ⟨text, .inl rfl, nonempty, digit, value⟩
  · rintro ⟨digits, rfl | rfl, nonempty, digit, value⟩
    · have plusless : ∀ rest, text ≠ '+' :: rest := by
        rintro rest rfl
        exact absurd (digit '+' List.mem_cons_self) (by decide)
      unfold readCount
      split
      · exact absurd rfl nonempty
      · exact absurd rfl (plusless [])
      · exact absurd rfl (plusless _)
      · exact countDigits_zero_eq_ok_iff.2 ⟨digit, value⟩
    · cases digits with
      | nil => exact absurd rfl nonempty
      | cons c digits => exact countDigits_zero_eq_ok_iff.2 ⟨digit, value⟩

end MicroBench.Text
