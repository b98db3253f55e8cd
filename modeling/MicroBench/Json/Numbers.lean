import MicroBench.Json.Strings

/-! Numbers of JSON. A number that is wanted is an integer, or it is scaled: its leading
digits, as many as fit into a word, times or over a power of ten, each step rounded. A
number that is skipped is only checked for its form. -/
namespace MicroBench.Json

inductive Number where
  | natural (n : UInt64)
  /-- A negative integer, not below `-2 ^ 63`; its absolute value is kept. -/
  | negative (magnitude : Nat)
  | real (x : Binary64)
deriving DecidableEq

/-- Where the digits of a number have been read up to: the digits kept, as a whole number, and the
power of ten that they are to be taken times. -/
structure Scaled where
  significand : Nat
  exponent : Int
deriving DecidableEq

/-- The digits times a further power of ten, or over it. -/
def Scaled.shifted (s : Scaled) (down : Bool) (power : Nat) : Scaled :=
  { s with exponent := if down then s.exponent - power else s.exponent + power }

def digitValue (c : Char) : Nat := c.toNat - '0'.toNat

def startsWithDigit : List Char → Bool
  | c :: _ => c.isDigit
  | [] => false

def startsExponent : List Char → Bool
  | c :: _ => c == 'e' || c == 'E'
  | [] => false

/-- The digits of a number that fit into a word: the number that they form, how many were taken,
and what follows them. -/
structure Fitting where
  significand : Nat
  taken : Nat
  rest : List Char
deriving DecidableEq

/-- Takes digits while the number that they form fits into a word. -/
def takeFitting (significand taken : Nat) : List Char → Fitting
  | [] => ⟨significand, taken, []⟩
  | c :: rest =>
    if c.isDigit ∧ significand * 10 + digitValue c ≤ largestWord then
      takeFitting (significand * 10 + digitValue c) (taken + 1) rest
    else ⟨significand, taken, c :: rest⟩

def digitRun (text : List Char) : Nat := (text.takeWhile Char.isDigit).length

def skipDigits (text : List Char) : List Char := text.dropWhile Char.isDigit

/-- Division by powers of ten that a number has no exact form for, in steps of `10 ^ 308`. -/
def divideDown (x : Binary64) (power : Nat) : Binary64 :=
  if power ≤ 308 then x / .ofNat (Nat.pow 10 power)
  else if x.numEq 0 then x
  else divideDown (x / .ofNat (Nat.pow 10 308)) (power - 308)
termination_by power

/-- The value of scaled digits, if it is finite. -/
def Scaled.value (s : Scaled) : Option Binary64 :=
  let x := Binary64.ofNat s.significand
  if s.exponent < 0 then some (divideDown x s.exponent.natAbs)
  else if s.exponent ≤ 308 then
    let y := x * .ofNat (Nat.pow 10 s.exponent.natAbs)
    if y.isFinite then some y else none
  else if x.numEq 0 then some x
  else none

/-- A number with a fraction, an exponent or too many digits. -/
def finishReal (negative : Bool) (s : Scaled) (rest : List Char) : Reading Number :=
  match s.value with
  | none => .error (.before .numberOutOfRange rest)
  | some x => .ok (.real (if negative then -x else x), rest)

/-- The digits of an exponent. Past `2 ^ 31 - 1` a number that is not zero is out of range, or zero
if the exponent is negative. -/
def exponentDigits (negative : Bool) (s : Scaled) (down : Bool) (power : Nat) :
    List Char → Reading Number
  | [] => finishReal negative (s.shifted down power) []
  | c :: rest =>
    if c.isDigit then
      let power := power * 10 + digitValue c
      if Nat.pow 2 31 - 1 < power then
        if s.significand ≠ 0 ∧ !down then .error (.before .numberOutOfRange rest)
        else .ok (.real (if negative then -0 else 0), skipDigits rest)
      else exponentDigits negative s down power rest
    else finishReal negative (s.shifted down power) (c :: rest)

/-- Splits off the sign of an exponent; `true` is minus. -/
def exponentSign : List Char → Bool × List Char
  | '+' :: rest => (false, rest)
  | '-' :: rest => (true, rest)
  | rest => (false, rest)

def readExponent (negative : Bool) (s : Scaled) (text : List Char) : Reading Number :=
  let (down, digits) := exponentSign text
  match digits with
  | [] => .error (.before .endInValue [])
  | c :: rest =>
    if c.isDigit then exponentDigits negative s down (digitValue c) rest
    else .error (.within .invalidNumber (c :: rest))

/-- What follows the digits kept. -/
def readScale (negative : Bool) (s : Scaled) (text : List Char) : Reading Number :=
  if startsExponent text then readExponent negative s (text.drop 1)
  else finishReal negative s text

def readFraction (negative : Bool) (s : Scaled) (text : List Char) : Reading Number :=
  if startsWithDigit text then
    let digits := takeFitting s.significand 0 text
    readScale negative ⟨digits.significand, s.exponent - digits.taken⟩ (skipDigits digits.rest)
  else if text = [] then .error (.before .endInValue [])
  else .error (.within .invalidNumber text)

/-- A whole number: beyond `-2 ^ 63`, and for a zero with a minus, it is no integer. -/
def wholeNumber (negative : Bool) (n : Nat) : Number :=
  if negative then
    if n = 0 ∨ Nat.pow 2 63 < n then .real (-.ofNat n) else .negative n
  else .natural (.ofNat n)

/-- What follows the integer digits that fit, of which `dropped` more did not. -/
def readAfterInteger (negative : Bool) (significand dropped : Nat) :
    List Char → Reading Number
  | '.' :: rest => readFraction negative ⟨significand, dropped⟩ rest
  | rest =>
    if startsExponent rest ∨ dropped ≠ 0 then readScale negative ⟨significand, dropped⟩ rest
    else .ok (wholeNumber negative significand, rest)

def readMagnitude (negative : Bool) : List Char → Reading Number
  | [] => .error (.before .endInValue [])
  | '0' :: rest =>
    if startsWithDigit rest then .error (.within .invalidNumber rest)
    else readAfterInteger negative 0 0 rest
  | c :: rest =>
    if c.isDigit then
      let digits := takeFitting (digitValue c) 0 rest
      readAfterInteger negative digits.significand (digitRun digits.rest) (skipDigits digits.rest)
    else .error (.within .invalidNumber (c :: rest))

def startsNumber (c : Char) : Bool := c == '-' || c.isDigit

def readNumber : List Char → Reading Number
  | '-' :: rest => readMagnitude true rest
  | text => readMagnitude false text

/-! ### Skipped numbers -/

def skipExponent (text : List Char) : Except Fault (List Char) :=
  let (_, digits) := exponentSign text
  if startsWithDigit digits then .ok (skipDigits digits)
  else .error (.within .invalidNumber digits)

def skipFraction (text : List Char) : Except Fault (List Char) :=
  if startsWithDigit text then
    let rest := skipDigits text
    if startsExponent rest then skipExponent (rest.drop 1) else .ok rest
  else .error (.within .invalidNumber text)

def skipAfterInteger : List Char → Except Fault (List Char)
  | '.' :: rest => skipFraction rest
  | rest => if startsExponent rest then skipExponent (rest.drop 1) else .ok rest

def skipMagnitude : List Char → Except Fault (List Char)
  | '0' :: rest =>
    if startsWithDigit rest then .error (.within .invalidNumber rest)
    else skipAfterInteger rest
  | text =>
    if startsWithDigit text then skipAfterInteger (skipDigits text)
    else .error (.within .invalidNumber text)

def skipNumber : List Char → Except Fault (List Char)
  | '-' :: rest => skipMagnitude rest
  | text => skipMagnitude text

/-! ### Reading a number uses up text -/

theorem length_skipDigits_le (text : List Char) : (skipDigits text).length ≤ text.length :=
  (List.dropWhile_suffix _).length_le

/-- Skipping digits gets on where there is one. -/
theorem length_skipDigits_lt {text : List Char} (h : startsWithDigit text) :
    (skipDigits text).length < text.length := by
  cases text with
  | nil => cases h
  | cons c rest =>
    have digit : c.isDigit := h
    have := length_skipDigits_le rest
    simp only [skipDigits, List.dropWhile_cons, digit, ↓reduceIte, List.length_cons] at this ⊢
    omega

theorem length_takeFitting_le (significand taken : Nat) (text : List Char) :
    (takeFitting significand taken text).rest.length ≤ text.length := by
  fun_induction takeFitting significand taken text with
  | case1 => simp
  | case2 _ _ _ _ _ ih => exact Nat.le_succ_of_le ih
  | case3 => simp

theorem length_exponentSign_le (text : List Char) :
    (exponentSign text).2.length ≤ text.length := by
  unfold exponentSign
  split <;> simp

/-- A number is finished without taking any more of the text. -/
theorem eq_of_finishReal {negative : Bool} {s : Scaled} {text rest : List Char} {n : Number}
    (h : finishReal negative s text = .ok (n, rest)) : rest = text := by
  unfold finishReal at h
  split at h
  · cases h
  · exact (Prod.mk.inj (Except.ok.inj h)).2.symm

theorem length_exponentDigits_le {negative down : Bool} {s : Scaled} {power : Nat}
    {text rest : List Char} {n : Number}
    (h : exponentDigits negative s down power text = .ok (n, rest)) :
    rest.length ≤ text.length := by
  fun_induction exponentDigits negative s down power text with
  | case1 => simp [eq_of_finishReal h]
  | case2 => cases h
  | case3 _ c after =>
    obtain ⟨-, rfl⟩ := Prod.mk.inj (Except.ok.inj h)
    exact Nat.le_succ_of_le (length_skipDigits_le after)
  | case4 _ _ _ _ _ _ ih => exact Nat.le_succ_of_le (ih h)
  | case5 => simp [eq_of_finishReal h]

theorem length_readExponent_le {negative : Bool} {s : Scaled} {text rest : List Char} {n : Number}
    (h : readExponent negative s text = .ok (n, rest)) : rest.length ≤ text.length := by
  have sign := length_exponentSign_le text
  simp only [readExponent] at h
  split at h
  · cases h
  · rename_i digits
    rw [digits] at sign
    split at h
    · have := length_exponentDigits_le h
      simp only [List.length_cons] at sign
      omega
    · cases h

theorem length_readScale_le {negative : Bool} {s : Scaled} {text rest : List Char} {n : Number}
    (h : readScale negative s text = .ok (n, rest)) : rest.length ≤ text.length := by
  unfold readScale at h
  split at h
  · have := length_readExponent_le h
    simp only [List.length_drop] at this
    omega
  · simp [eq_of_finishReal h]

theorem length_readFraction_le {negative : Bool} {s : Scaled} {text rest : List Char} {n : Number}
    (h : readFraction negative s text = .ok (n, rest)) : rest.length ≤ text.length := by
  unfold readFraction at h
  split at h
  · have := length_readScale_le h
    have := length_skipDigits_le (takeFitting s.significand 0 text).rest
    have := length_takeFitting_le s.significand 0 text
    omega
  · split at h <;> cases h

theorem length_readAfterInteger_le {negative : Bool} {significand dropped : Nat}
    {text rest : List Char} {n : Number}
    (h : readAfterInteger negative significand dropped text = .ok (n, rest)) :
    rest.length ≤ text.length := by
  unfold readAfterInteger at h
  split at h
  · exact Nat.le_succ_of_le (length_readFraction_le h)
  · split at h
    · exact length_readScale_le h
    · simp [(Prod.mk.inj (Except.ok.inj h)).2]

theorem length_readMagnitude_lt {negative : Bool} {text rest : List Char} {n : Number}
    (h : readMagnitude negative text = .ok (n, rest)) : rest.length < text.length := by
  unfold readMagnitude at h
  split at h
  · cases h
  · split at h
    · cases h
    · exact Nat.lt_succ_of_le (length_readAfterInteger_le h)
  · rename_i c after _
    split at h
    · have := length_readAfterInteger_le h
      have := length_skipDigits_le (takeFitting (digitValue c) 0 after).rest
      have := length_takeFitting_le (digitValue c) 0 after
      simp only [List.length_cons]
      omega
    · cases h

/-- A number takes a character at least, so that what goes on after it ends. -/
theorem length_readNumber_lt {text rest : List Char} {n : Number}
    (h : readNumber text = .ok (n, rest)) : rest.length < text.length := by
  unfold readNumber at h
  split at h
  · exact Nat.lt_succ_of_lt (length_readMagnitude_lt h)
  · exact length_readMagnitude_lt h

theorem length_skipExponent_le {text rest : List Char} (h : skipExponent text = .ok rest) :
    rest.length ≤ text.length := by
  have := length_exponentSign_le text
  simp only [skipExponent] at h
  split at h
  · cases h
    have := length_skipDigits_le (exponentSign text).2
    omega
  · cases h

theorem length_skipFraction_le {text rest : List Char} (h : skipFraction text = .ok rest) :
    rest.length ≤ text.length := by
  have := length_skipDigits_le text
  simp only [skipFraction] at h
  split at h
  · split at h
    · have := length_skipExponent_le h
      simp only [List.length_drop] at this
      omega
    · cases h
      exact this
  · cases h

theorem length_skipAfterInteger_le {text rest : List Char}
    (h : skipAfterInteger text = .ok rest) : rest.length ≤ text.length := by
  unfold skipAfterInteger at h
  split at h
  · exact Nat.le_succ_of_le (length_skipFraction_le h)
  · split at h
    · have := length_skipExponent_le h
      simp only [List.length_drop] at this
      omega
    · cases h
      exact Nat.le_refl _

theorem length_skipMagnitude_lt {text rest : List Char} (h : skipMagnitude text = .ok rest) :
    rest.length < text.length := by
  unfold skipMagnitude at h
  split at h
  · split at h
    · cases h
    · exact Nat.lt_succ_of_le (length_skipAfterInteger_le h)
  · split at h
    · rename_i digit
      have := length_skipDigits_lt digit
      have := length_skipAfterInteger_le h
      omega
    · cases h

/-- A number that is skipped takes a character at least. -/
theorem length_skipNumber_lt {text rest : List Char} (h : skipNumber text = .ok rest) :
    rest.length < text.length := by
  unfold skipNumber at h
  split at h
  · exact Nat.lt_succ_of_lt (length_skipMagnitude_lt h)
  · exact length_skipMagnitude_lt h

end MicroBench.Json
