import MicroBench.Proofs.Json.Grammar

/-! The two ways to get past a number. Skipping it and reading it both accept the numbers
of the grammar, up to where one ends, and reading gives what the number is read as. -/
namespace MicroBench.Json

variable {text rest digits : List Char}

structure EndsNumber (fraction : List Char) (exponent : Option Exponent) (rest : List Char) :
    Prop where
  digit : startsWithDigit rest = false
  letter : exponent = none → startsExponent rest = false
  point : fraction = [] → exponent = none → rest.head? ≠ some '.'

theorem endsNumber_of_ends (ends : Ends rest) (fraction : List Char)
    (exponent : Option Exponent) : EndsNumber fraction exponent rest := by
  rcases ends with rfl | ⟨c, rest, rfl, closes⟩
  · refine ⟨rfl, fun _ => rfl, ?_⟩
    intro _ _ point
    cases point
  · have apart : c.isDigit = false ∧ (c == 'e' || c == 'E') = false ∧ c ≠ '.' := by
      rcases closes with space | rfl | rfl | rfl
      · simp only [isSpace, Bool.or_eq_true, beq_iff_eq] at space
        rcases space with ((rfl | rfl) | rfl) | rfl <;> decide
      all_goals decide
    refine ⟨apart.1, fun _ => apart.2.1, ?_⟩
    intro _ _ point
    exact apart.2.2 (Option.some.inj point)

/-! ### Runs of digits -/

theorem skipDigits_append (digit : ∀ c ∈ digits, c.isDigit = true)
    (stop : startsWithDigit rest = false) :
    skipDigits (digits ++ rest) = rest ∧ digitRun (digits ++ rest) = digits.length := by
  induction digits with
  | nil => exact skipDigits_of_stop stop
  | cons c digits ih =>
    obtain ⟨first, others⟩ := List.forall_mem_cons.1 digit
    obtain ⟨skipped, count⟩ := ih others
    simp only [skipDigits, digitRun] at skipped count
    simp only [List.cons_append, skipDigits, digitRun, List.dropWhile_cons, List.takeWhile_cons,
      first, if_true, List.length_cons, skipped, count, and_self]

theorem exists_digits (text : List Char) :
    ∃ digits, (∀ c ∈ digits, c.isDigit = true) ∧ text = digits ++ skipDigits text ∧
      startsWithDigit (skipDigits text) = false := by
  induction text with
  | nil => exact ⟨[], by simp, rfl, rfl⟩
  | cons c text ih =>
    by_cases digit : c.isDigit = true
    · obtain ⟨digits, all, split, stop⟩ := ih
      have skipped : skipDigits (c :: text) = skipDigits text := by
        rw [skipDigits, List.dropWhile_cons, if_pos digit, skipDigits]
      refine ⟨c :: digits, ?_, ?_, ?_⟩
      · exact List.forall_mem_cons.2 ⟨digit, all⟩
      · rw [skipped, List.cons_append, ← split]
      · rw [skipped, stop]
    · have skipped : skipDigits (c :: text) = c :: text := by
        rw [skipDigits, List.dropWhile_cons, if_neg digit]
      refine ⟨[], by simp, ?_, ?_⟩
      · rw [skipped, List.nil_append]
      · rw [skipped]
        exact Bool.eq_false_iff.2 digit

theorem nonempty_of_startsWithDigit (split : text = digits ++ rest)
    (starts : startsWithDigit text = true) (stop : startsWithDigit rest = false) :
    digits ≠ [] := by
  rintro rfl
  rw [List.nil_append] at split
  rw [split, stop] at starts
  cases starts

theorem startsWithDigit_append (nonempty : digits ≠ [])
    (digit : ∀ c ∈ digits, c.isDigit = true) : startsWithDigit (digits ++ rest) = true := by
  cases digits with
  | nil => exact absurd rfl nonempty
  | cons c digits => exact digit c List.mem_cons_self

/-! ### Skipped numbers are those of the grammar -/

theorem exists_exponentSign (text : List Char) :
    ∃ sign, text = Exponent.signText sign ++ (exponentSign text).2 := by
  unfold exponentSign
  split
  · exact ⟨some false, rfl⟩
  · exact ⟨some true, rfl⟩
  · exact ⟨none, rfl⟩

theorem exists_exponent (capital : Bool) (h : skipExponent text = .ok rest) :
    ∃ x : Exponent, (if capital then 'E' else 'e') :: text = x.text ++ rest ∧
      startsWithDigit rest = false := by
  obtain ⟨sign, signed⟩ := exists_exponentSign text
  obtain ⟨digits, all, split, stop⟩ := exists_digits (exponentSign text).2
  simp only [skipExponent] at h
  split at h
  · rename_i starts
    cases h
    refine ⟨⟨capital, sign, digits, nonempty_of_startsWithDigit split starts stop, all⟩, ?_, stop⟩
    rw [Exponent.text, List.cons_append, List.append_assoc, ← split, ← signed]
  · cases h

def skipScale (text : List Char) : Except Fault (List Char) :=
  if startsExponent text then skipExponent (text.drop 1) else .ok text

/-- What is skipped as the scale of a number is an exponent or nothing. -/
theorem exists_scale (stop : startsWithDigit text = false) (h : skipScale text = .ok rest) :
    ∃ exponent, text = Numeral.exponentText exponent ++ rest ∧ startsWithDigit rest = false ∧
      (exponent = none → startsExponent rest = false ∧ rest = text) := by
  unfold skipScale at h
  split at h
  · rename_i starts
    cases text with
    | nil => cases starts
    | cons c text =>
      obtain ⟨capital, rfl⟩ : ∃ capital : Bool, c = if capital then 'E' else 'e' := by
        rcases Bool.or_eq_true_iff.1 starts with small | large
        · exact ⟨false, beq_iff_eq.1 small⟩
        · exact ⟨true, beq_iff_eq.1 large⟩
      obtain ⟨x, split, stop⟩ := exists_exponent capital h
      refine ⟨some x, split, stop, ?_⟩
      intro absent
      cases absent
  · rename_i starts
    cases h
    exact ⟨none, rfl, stop, fun _ => ⟨Bool.eq_false_iff.2 starts, rfl⟩⟩

theorem exists_fraction (h : skipFraction text = .ok rest) :
    ∃ fraction exponent, fraction ≠ [] ∧ (∀ c ∈ fraction, c.isDigit = true) ∧
      text = fraction ++ (Numeral.exponentText exponent ++ rest) ∧
      EndsNumber fraction exponent rest := by
  obtain ⟨fraction, all, split, stop⟩ := exists_digits text
  unfold skipFraction at h
  split at h
  · rename_i starts
    obtain ⟨exponent, split', stop', last⟩ := exists_scale stop h
    have nonempty := nonempty_of_startsWithDigit split starts stop
    rw [split'] at split
    refine ⟨fraction, exponent, nonempty, all, split, stop', fun absent => (last absent).1, ?_⟩
    intro empty
    exact absurd empty nonempty
  · cases h

theorem exists_afterInteger (stop : startsWithDigit text = false)
    (h : skipAfterInteger text = .ok rest) :
    ∃ fraction exponent, (∀ c ∈ fraction, c.isDigit = true) ∧
      text = Numeral.fractionText fraction ++ (Numeral.exponentText exponent ++ rest) ∧
      EndsNumber fraction exponent rest := by
  unfold skipAfterInteger at h
  split at h
  · obtain ⟨fraction, exponent, nonempty, all, split, ends⟩ := exists_fraction h
    refine ⟨fraction, exponent, all, ?_, ends⟩
    rw [Numeral.fractionText, if_neg nonempty, split]
    rfl
  · rename_i pointless
    obtain ⟨exponent, split, stop', last⟩ := exists_scale stop h
    refine ⟨[], exponent, by simp, split, stop', fun absent => (last absent).1, ?_⟩
    intro _ absent point
    obtain ⟨after, same⟩ : ∃ after, rest = '.' :: after := by
      cases rest with
      | nil => cases point
      | cons c after => exact ⟨after, by rw [Option.some.inj point]⟩
    exact pointless after ((last absent).2 ▸ same)

/-- What is skipped as a number without its minus is one by the grammar. -/
theorem exists_magnitude (h : skipMagnitude text = .ok rest) :
    ∃ whole fraction exponent, Canonical whole ∧ (∀ c ∈ fraction, c.isDigit = true) ∧
      text = whole ++ (Numeral.fractionText fraction ++ (Numeral.exponentText exponent ++ rest)) ∧
      EndsNumber fraction exponent rest := by
  unfold skipMagnitude at h
  split at h
  · split at h
    · cases h
    · rename_i stop
      obtain ⟨fraction, exponent, all, split, ends⟩ :=
        exists_afterInteger (Bool.eq_false_iff.2 stop) h
      refine ⟨['0'], fraction, exponent, ⟨by simp, by simp, fun _ => rfl⟩, all, ?_, ends⟩
      rw [split]
      rfl
  · rename_i unlike
    split at h
    · rename_i starts
      obtain ⟨whole, digit, split, stop⟩ := exists_digits text
      have nonempty := nonempty_of_startsWithDigit split starts stop
      obtain ⟨fraction, exponent, all, split', ends⟩ := exists_afterInteger stop h
      rw [split'] at split
      refine ⟨whole, fraction, exponent, ⟨nonempty, digit, ?_⟩, all, split, ends⟩
      intro zero
      exfalso
      cases whole with
      | nil => exact nonempty rfl
      | cons c others =>
        rw [Option.some.inj zero] at split
        exact unlike _ split
    · cases h

/-- Where a number was skipped, there is one in the text. -/
theorem exists_numeral (h : skipNumber text = .ok rest) :
    ∃ x : Numeral, text = x.text ++ rest ∧ EndsNumber x.fraction x.exponent rest := by
  unfold skipNumber at h
  split at h
  · obtain ⟨whole, fraction, exponent, canonical, digit, split, ends⟩ := exists_magnitude h
    refine ⟨⟨true, whole, fraction, exponent, canonical, digit⟩, ?_, ends⟩
    rw [split]
    simp [Numeral.text, Numeral.signText]
  · obtain ⟨whole, fraction, exponent, canonical, digit, split, ends⟩ := exists_magnitude h
    refine ⟨⟨false, whole, fraction, exponent, canonical, digit⟩, ?_, ends⟩
    rw [split]
    simp [Numeral.text, Numeral.signText]

/-! ### The numbers of the grammar are skipped -/

variable {x : Exponent} {exponent : Option Exponent} {fraction whole : List Char}

theorem exponentSign_signText (sign : Option Bool) (nonempty : digits ≠ [])
    (digit : ∀ c ∈ digits, c.isDigit = true) :
    exponentSign (Exponent.signText sign ++ (digits ++ rest)) =
      (sign == some true, digits ++ rest) := by
  cases sign with
  | some minus => cases minus <;> rfl
  | none =>
    cases digits with
    | nil => exact absurd rfl nonempty
    | cons c digits =>
      have first := digit c List.mem_cons_self
      simp only [Exponent.signText, List.nil_append, List.cons_append]
      unfold exponentSign
      split
      · rename_i same
        cases same
        cases first
      · rename_i same
        cases same
        cases first
      · rfl

theorem startsExponent_text : startsExponent (x.text ++ rest) = true := by
  rw [Exponent.text]
  cases x.capital <;> rfl

theorem skipScale_text (ends : EndsNumber fraction exponent rest) :
    skipScale (Numeral.exponentText exponent ++ rest) = .ok rest := by
  cases exponent with
  | none =>
    simp only [skipScale, Numeral.exponentText, List.nil_append, ends.letter rfl,
      Bool.false_eq_true, if_false]
  | some x =>
    have drop : (x.text ++ rest).drop 1 = Exponent.signText x.sign ++ (x.digits ++ rest) := by
      rw [Exponent.text, List.cons_append, List.append_assoc]
      rfl
    simp only [skipScale, Numeral.exponentText, startsExponent_text, if_true, drop, skipExponent,
      exponentSign_signText x.sign x.nonempty x.digit, startsWithDigit_append x.nonempty x.digit,
      (skipDigits_append x.digit ends.digit).1]

theorem startsWithDigit_exponentText (ends : EndsNumber fraction exponent rest) :
    startsWithDigit (Numeral.exponentText exponent ++ rest) = false := by
  cases exponent with
  | none => exact ends.digit
  | some x =>
    rw [Numeral.exponentText, Exponent.text]
    cases x.capital <;> rfl

theorem startsWithDigit_fractionText (ends : EndsNumber fraction exponent rest) :
    startsWithDigit (Numeral.fractionText fraction ++
      (Numeral.exponentText exponent ++ rest)) = false := by
  unfold Numeral.fractionText
  split
  · exact startsWithDigit_exponentText ends
  · rfl

/-- Without a fraction, no point follows the integer digits. -/
theorem pointless (ends : EndsNumber [] exponent rest) (after : List Char) :
    Numeral.exponentText exponent ++ rest ≠ '.' :: after := by
  intro same
  cases exponent with
  | none =>
    apply ends.point rfl rfl
    rw [Numeral.exponentText, List.nil_append] at same
    rw [same]
    rfl
  | some x =>
    rw [Numeral.exponentText, Exponent.text] at same
    cases capital : x.capital <;> simp [capital] at same

theorem skipAfterInteger_text (digit : ∀ c ∈ fraction, c.isDigit = true)
    (ends : EndsNumber fraction exponent rest) :
    skipAfterInteger (Numeral.fractionText fraction ++
      (Numeral.exponentText exponent ++ rest)) = .ok rest := by
  have scale := skipScale_text ends
  unfold Numeral.fractionText
  split
  · rename_i empty
    subst empty
    rw [List.nil_append, skipAfterInteger]
    · exact scale
    · exact pointless ends
  · rename_i nonempty
    simp only [List.cons_append, skipAfterInteger, skipFraction,
      startsWithDigit_append nonempty digit, if_true,
      (skipDigits_append digit (startsWithDigit_exponentText ends)).1]
    exact scale

theorem skipMagnitude_text (canonical : Canonical whole)
    (digit : ∀ c ∈ fraction, c.isDigit = true) (ends : EndsNumber fraction exponent rest) :
    skipMagnitude (whole ++ (Numeral.fractionText fraction ++
      (Numeral.exponentText exponent ++ rest))) = .ok rest := by
  have stop := startsWithDigit_fractionText ends
  have after := skipAfterInteger_text digit ends
  by_cases zero : whole.head? = some '0'
  · rw [canonical.leading zero]
    simp only [List.cons_append, List.nil_append, skipMagnitude, stop, Bool.false_eq_true, if_false,
      after]
  · rw [skipMagnitude]
    · simp only [startsWithDigit_append canonical.nonempty canonical.digit, if_true,
        (skipDigits_append canonical.digit stop).1, after]
    · intro others same
      cases whole with
      | nil => exact canonical.nonempty rfl
      | cons c whole =>
        rw [List.cons_append, List.cons.injEq] at same
        exact zero (by rw [same.1]; rfl)

/-- A number begins with its minus, or with a digit. -/
theorem sign_cases (x : Numeral) :
    x.negative = true ∧ x.text = '-' :: (x.whole ++
        (Numeral.fractionText x.fraction ++ Numeral.exponentText x.exponent)) ∨
      x.negative = false ∧ ∃ c others, x.whole = c :: others ∧ c.isDigit = true ∧
        x.text = x.whole ++
          (Numeral.fractionText x.fraction ++ Numeral.exponentText x.exponent) := by
  cases negative : x.negative with
  | true =>
    left
    simp [Numeral.text, Numeral.signText, negative]
  | false =>
    right
    obtain ⟨nonempty, digit, -⟩ := x.canonical
    cases whole : x.whole with
    | nil => exact absurd whole nonempty
    | cons c others =>
      rw [whole] at digit
      refine ⟨rfl, c, others, rfl, digit c List.mem_cons_self, ?_⟩
      simp [Numeral.text, Numeral.signText, negative, whole]

/-- Every number by the grammar is skipped, up to where it ends. -/
theorem skipNumber_text (x : Numeral) (ends : EndsNumber x.fraction x.exponent rest) :
    skipNumber (x.text ++ rest) = .ok rest := by
  have magnitude := skipMagnitude_text x.canonical x.digit ends
  rcases sign_cases x with ⟨-, text⟩ | ⟨-, c, others, whole, digit, text⟩
  · rw [text]
    simpa only [List.cons_append, List.append_assoc, skipNumber] using magnitude
  · rw [text]
    simp only [List.append_assoc]
    rw [skipNumber]
    · exact magnitude
    · rw [whole]
      rintro after ⟨⟩
      cases digit

/-! ### A number that is read could be skipped -/

theorem skipDigits_takeFitting (significand taken : Nat) (text : List Char) :
    skipDigits (takeFitting significand taken text).rest = skipDigits text := by
  fun_induction takeFitting significand taken text with
  | case1 => rfl
  | case2 significand taken c rest fits ih =>
    rw [ih, skipDigits, skipDigits, List.dropWhile_cons, if_pos fits.1]
  | case3 => rfl

variable {negative down : Bool} {s : Scaled} {n : Number}

theorem rest_of_exponentDigits {power : Nat}
    (h : exponentDigits negative s down power text = .ok (n, rest)) : rest = skipDigits text := by
  fun_induction exponentDigits negative s down power text with
  | case1 => exact eq_of_finishReal h
  | case2 => cases h
  | case3 power c text digit =>
    obtain ⟨-, rfl⟩ := Prod.mk.inj (Except.ok.inj h)
    rw [skipDigits, skipDigits, List.dropWhile_cons, if_pos digit]
  | case4 power c text digit _ _ ih =>
    rw [ih h, skipDigits, skipDigits, List.dropWhile_cons, if_pos digit]
  | case5 power c text digit =>
    rw [eq_of_finishReal h, skipDigits, List.dropWhile_cons, if_neg digit]

theorem skipScale_of_readScale (h : readScale negative s text = .ok (n, rest)) :
    skipScale text = .ok rest := by
  unfold readScale at h
  unfold skipScale
  split at h
  · rename_i starts
    rw [if_pos starts]
    simp only [readExponent] at h
    simp only [skipExponent]
    split at h
    · cases h
    · rename_i c digits signed
      split at h
      · rename_i digit
        have starts : startsWithDigit (exponentSign (text.drop 1)).2 = true := by
          rw [signed]
          exact digit
        simp only [starts, if_true]
        rw [rest_of_exponentDigits h, signed, skipDigits, skipDigits,
          List.dropWhile_cons, if_pos digit]
      · cases h
  · rename_i starts
    rw [if_neg starts, eq_of_finishReal h]

theorem skipFraction_of_readFraction (h : readFraction negative s text = .ok (n, rest)) :
    skipFraction text = .ok rest := by
  unfold readFraction at h
  split at h
  · rename_i starts
    have scale := skipScale_of_readScale h
    rw [skipDigits_takeFitting] at scale
    rw [skipFraction, if_pos starts]
    exact scale
  · split at h <;> cases h

theorem skipAfterInteger_of_read {significand dropped : Nat}
    (h : readAfterInteger negative significand dropped text = .ok (n, rest)) :
    skipAfterInteger text = .ok rest := by
  unfold readAfterInteger at h
  split at h
  · exact skipFraction_of_readFraction h
  · rename_i point
    rw [skipAfterInteger]
    · split at h
      · exact skipScale_of_readScale h
      · rename_i whole
        rw [not_or] at whole
        rw [if_neg whole.1, (Prod.mk.inj (Except.ok.inj h)).2]
    · exact point

theorem skipMagnitude_of_read (h : readMagnitude negative text = .ok (n, rest)) :
    skipMagnitude text = .ok rest := by
  unfold readMagnitude at h
  split at h
  · cases h
  · split at h
    · cases h
    · rename_i stop
      rw [skipMagnitude, if_neg stop]
      exact skipAfterInteger_of_read h
  · rename_i c after unlike
    split at h
    · rename_i digit
      have starts : startsWithDigit (c :: after) = true := digit
      have found := skipAfterInteger_of_read h
      rw [skipDigits_takeFitting] at found
      rw [skipMagnitude]
      · rw [if_pos starts, skipDigits, List.dropWhile_cons, if_pos digit]
        exact found
      · rintro others ⟨⟩
        exact unlike rfl
    · cases h

/-- A number that is read could have been skipped, up to the same place. -/
theorem skipNumber_of_readNumber (h : readNumber text = .ok (n, rest)) :
    skipNumber text = .ok rest := by
  unfold readNumber at h
  split at h
  · exact skipMagnitude_of_read h
  · rename_i unsigned
    rw [skipNumber]
    · exact skipMagnitude_of_read h
    · exact unsigned

end MicroBench.Json
