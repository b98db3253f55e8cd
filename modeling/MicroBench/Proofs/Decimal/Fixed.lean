import MicroBench.Decimal.Fixed
import MicroBench.Proofs.Binary64.Scaling
import MicroBench.Proofs.Json.Numbers

/-! Text with a fixed number of decimal places against the number that it shows. Read back
exactly, the decimal is at most half a step from the number, decimals are in the order of
the numbers, and whole numbers are shown as themselves. -/
namespace MicroBench.Fixed

open Binary64
open Json (isDigit_of_mem_digits)

variable {places : ℕ} {x y : Binary64} {rest : List Char}

/-! ### The decimal that is shown -/

def shown (places : ℕ) : Binary64 → ℚ
  | .finite negative quanta _ => signedQuanta negative (steps places quanta) / 10 ^ places
  | _ => 0

/-- Larger numbers are not shown in fewer steps. -/
theorem steps_mono (places : ℕ) : Monotone (steps places) := by
  intro m n le
  apply roundedDiv_mono quantaPerUnit_pos quantaPerUnit_pos
  exact Nat.mul_le_mul_right _ (Nat.mul_le_mul_right _ le)

theorem steps_whole (places n : ℕ) : steps places (n * quantaPerUnit) = n * 10 ^ places := by
  rw [steps, Nat.mul_right_comm, roundedDiv_mul_self _ _ quantaPerUnit_pos, Nat.pow_eq]

theorem steps_zero (places : ℕ) : steps places 0 = 0 := by
  have zero := steps_whole places 0
  rwa [Nat.zero_mul, Nat.zero_mul] at zero

/-- What is shown is at most half a step from the number. -/
theorem abs_shown_sub_value (places : ℕ) (finite : x.isFinite) :
    |shown places x - x.value| ≤ 1 / (2 * 10 ^ places) := by
  obtain ⟨s, q, rep, rfl⟩ := exists_finite finite
  have step : (0 : ℚ) < 10 ^ places := by positivity
  have magnitude : |(steps places q : ℚ) / 10 ^ places - q / quantaPerUnit| ≤
      1 / (2 * 10 ^ places) := by
    have near := abs_roundedDiv_sub_le (q * Nat.pow 10 places) quantaPerUnit quantaPerUnit_pos
    have scaled : (steps places q : ℚ) / 10 ^ places - q / quantaPerUnit =
        (steps places q - (q * Nat.pow 10 places : ℕ) / quantaPerUnit) / 10 ^ places := by
      rw [Nat.pow_eq, Nat.cast_mul, Nat.cast_pow, Nat.cast_ofNat, sub_div,
        mul_div_right_comm (q : ℚ), mul_div_cancel_right₀ _ step.ne']
    rw [scaled, abs_div, abs_of_pos step, ← div_div]
    exact div_le_div_of_nonneg_right near step.le
  cases s with
  | false => exact magnitude
  | true =>
    rw [abs_sub_comm] at magnitude
    simp only [shown, value_finite, signedQuanta_true, Int.cast_neg, Int.cast_natCast, neg_div,
      sub_neg_eq_add, neg_add_eq_sub]
    exact magnitude

/-- What is shown keeps the order of numbers. -/
theorem shown_mono (places : ℕ) (le : AtMost x y) : shown places x ≤ shown places y := by
  obtain ⟨finite, finite', le⟩ := le
  obtain ⟨s, m, hm, rfl⟩ := exists_finite finite
  obtain ⟨t, n, hn, rfl⟩ := exists_finite finite'
  rw [value_le_value] at le
  have steps := signedQuanta_map_le (steps_mono places) (steps_zero places) le
  apply div_le_div_of_nonneg_right _ (by positivity)
  exact_mod_cast steps

theorem shown_ofNat {n : ℕ} (small : n ≤ 2 ^ 53) : shown places (ofNat n) = n := by
  rw [ofNat_eq small, shown, steps_whole, signedQuanta_false]
  push_cast
  exact mul_div_cancel_right₀ _ (by positivity)

/-! ### Reading it back -/

/-- A decimal at the beginning of a text: its value, how many digits follow its point, and the rest
of the text. -/
structure Reading where
  decimal : ℚ
  places : ℕ
  rest : List Char

def readMagnitude (text : List Char) : Option Reading :=
  let whole := text.takeWhile Char.isDigit
  match text.dropWhile Char.isDigit with
  | '.' :: tail =>
    let fraction := tail.takeWhile Char.isDigit
    if whole = [] ∨ fraction = [] then none
    else some ⟨Nat.ofDigitChars 10 (whole ++ fraction) 0 / 10 ^ fraction.length, fraction.length,
      tail.dropWhile Char.isDigit⟩
  | _ => none

def read (text : List Char) : Option Reading :=
  if text.head? = some '-' then
    (readMagnitude text.tail).map fun reading => { reading with decimal := -reading.decimal }
  else readMagnitude text

theorem isDigit_of_mem_padded {width n : ℕ} : ∀ c ∈ padded width n, c.isDigit = true := by
  intro c member
  rcases List.mem_append.1 member with zero | digit
  · rw [(List.mem_replicate.1 zero).2]
    rfl
  · exact isDigit_of_mem_digits digit

/-- The digits are as many as asked for, if those suffice. -/
theorem length_padded {width n : ℕ} (positive : 0 < width) (fits : n < 10 ^ width) :
    (padded width n).length = width := by
  have short := (Nat.length_toDigits_le_iff (by decide) positive).2 fits
  simp only [padded, List.length_append, List.length_replicate]
  omega

theorem ofDigitChars_padded (width n start : ℕ) (positive : 0 < width) (fits : n < 10 ^ width) :
    Nat.ofDigitChars 10 (padded width n) start = start * 10 ^ width + n := by
  rw [Nat.ofDigitChars_eq_ofDigitChars_zero, length_padded positive fits, padded,
    Nat.ofDigitChars_append, Nat.ofDigitChars_replicate_zero, Nat.mul_zero,
    Nat.ofDigitChars_ten_toDigits, Nat.mul_comm]

/-- Digits are taken up to where a text that does not begin with one follows them. -/
theorem span_digits {digits : List Char} (digit : ∀ c ∈ digits, c.isDigit = true)
    (stop : rest.takeWhile Char.isDigit = []) :
    (digits ++ rest).takeWhile Char.isDigit = digits ∧
      (digits ++ rest).dropWhile Char.isDigit = rest := by
  have parts := List.takeWhile_append_dropWhile (p := Char.isDigit) (l := rest)
  rw [stop, List.nil_append] at parts
  rw [List.takeWhile_append_of_pos digit, List.dropWhile_append_of_pos digit, stop, parts,
    List.append_nil]
  exact ⟨rfl, rfl⟩

theorem readMagnitude_digits {whole fraction : List Char} (nonempty : whole ≠ [])
    (nonempty' : fraction ≠ []) (digit : ∀ c ∈ whole, c.isDigit = true)
    (digit' : ∀ c ∈ fraction, c.isDigit = true) (stop : rest.takeWhile Char.isDigit = []) :
    readMagnitude (whole ++ '.' :: (fraction ++ rest)) =
      .some ⟨Nat.ofDigitChars 10 (whole ++ fraction) 0 / 10 ^ fraction.length, fraction.length,
        rest⟩ := by
  have point : ('.' :: (fraction ++ rest)).takeWhile Char.isDigit = [] := rfl
  obtain ⟨before, behind⟩ := span_digits digit point
  obtain ⟨before', behind'⟩ := span_digits digit' stop
  simp only [readMagnitude, before, behind, before', behind',
    if_neg (not_or.2 ⟨nonempty, nonempty'⟩)]

/-- The text of steps is read as that many of them. -/
theorem readMagnitude_renderSteps (n : ℕ) (positive : 0 < places)
    (stop : rest.takeWhile Char.isDigit = []) :
    readMagnitude (renderSteps places n ++ rest) = .some ⟨n / 10 ^ places, places, rest⟩ := by
  have fits : n % 10 ^ places < 10 ^ places := Nat.mod_lt n (Nat.pow_pos (by norm_num))
  have length := length_padded positive fits
  have nonempty : padded places (n % 10 ^ places) ≠ [] := by
    apply List.ne_nil_of_length_pos
    rwa [length]
  have value : Nat.ofDigitChars 10
      (Nat.toDigits 10 (n / 10 ^ places) ++ padded places (n % 10 ^ places)) 0 = n := by
    rw [Nat.ofDigitChars_append, Nat.ofDigitChars_ten_toDigits,
      ofDigitChars_padded _ _ _ positive fits, Nat.div_add_mod']
  have text : renderSteps places n ++ rest = Nat.toDigits 10 (n / 10 ^ places) ++
      '.' :: (padded places (n % 10 ^ places) ++ rest) := by
    rw [renderSteps, List.append_assoc, List.cons_append]
    rfl
  rw [text, readMagnitude_digits Nat.toDigits_ne_nil nonempty (fun _ => isDigit_of_mem_digits)
    isDigit_of_mem_padded stop, value, length]

theorem head?_renderSteps_ne (n : ℕ) (rest : List Char) :
    (renderSteps places n ++ rest).head? ≠ some '-' := by
  rw [renderSteps, List.append_assoc, List.head?_append_of_ne_nil _ Nat.toDigits_ne_nil]
  intro minus
  have digit := isDigit_of_mem_digits (List.mem_of_head? minus)
  exact absurd digit (by decide)

/-- The text of a finite number is read as the decimal that is shown of it. -/
theorem read_render (positive : 0 < places) (finite : x.isFinite)
    (stop : rest.takeWhile Char.isDigit = []) :
    read (render places x ++ rest) = .some ⟨shown places x, places, rest⟩ := by
  obtain ⟨s, q, rep, rfl⟩ := exists_finite finite
  have magnitude := readMagnitude_renderSteps (steps places q) positive stop
  cases s with
  | false =>
    have text : render places (.finite false q rep) = renderSteps places (steps places q) := rfl
    rw [text, read, if_neg (head?_renderSteps_ne (steps places q) rest), magnitude]
    rfl
  | true =>
    have text : render places (.finite true q rep) = '-' :: renderSteps places (steps places q) :=
      rfl
    rw [text, read, List.cons_append, List.head?_cons, if_pos rfl, List.tail_cons, magnitude,
      Option.map_some]
    simp only [shown, signedQuanta_true, Int.cast_neg, Int.cast_natCast, neg_div]

end MicroBench.Fixed
