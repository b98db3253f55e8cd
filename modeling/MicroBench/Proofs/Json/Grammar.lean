import MicroBench.Json.Skip
import MicroBench.Proofs.Json.Numbers

/-! The grammar of JSON: which texts are white space, numbers, strings and values, said
without a reader. Of a number it is also said what it is read as: its leading digits, as
many as fit into a word, times or over a power of ten. -/
namespace MicroBench.Json

/-! ### Items and what stands between them -/

def Spaces (text : List Char) : Prop := ∀ c ∈ text, isSpace c = true

/-- Text that begins like a value: with no space, and with nothing that separates or closes. -/
def Starts (text : List Char) : Prop :=
  ∃ c rest, text = c :: rest ∧ isSpace c = false ∧ c ≠ ',' ∧ c ≠ ']' ∧ c ≠ '\x7d'

/-- Text that may follow a value: nothing, or what begins with a space, or with something that
separates or closes. -/
def Ends (text : List Char) : Prop :=
  text = [] ∨ ∃ c rest, text = c :: rest ∧
    (isSpace c = true ∨ c = ',' ∨ c = ']' ∨ c = '\x7d')

/-- What follows an item: the other items, each after a comma, with white space around them. -/
inductive Others : List (List Char) → List Char → Prop where
  | none {space : List Char} : Spaces space → Others [] space
  | more {before after item rest : List Char} {items : List (List Char)} : Spaces before →
      Spaces after → Others items rest →
      Others (item :: items) (before ++ ',' :: (after ++ (item ++ rest)))

inductive Enclosed (opening closing : Char) : List (List Char) → List Char → Prop where
  | none {space : List Char} : Spaces space →
      Enclosed opening closing [] (opening :: (space ++ [closing]))
  | some {space item rest : List Char} {items : List (List Char)} : Spaces space →
      Others items rest →
      Enclosed opening closing (item :: items) (opening :: (space ++ (item ++ (rest ++ [closing]))))

/-! ### Strings -/

inductive Hex4 : List Char → Nat → Prop where
  | mk {a b c d : Char} {i j k l : Nat} : Text.hexValue a = some i → Text.hexValue b = some j →
      Text.hexValue c = some k → Text.hexValue d = some l →
      Hex4 [a, b, c, d] (((i * 16 + j) * 16 + k) * 16 + l)

/-- What follows a backslash, and the character that it stands for. Surrogates come in pairs. -/
inductive Escape : List Char → Char → Prop where
  | letter {letter c : Char} : simpleEscape letter = some c → Escape [letter] c
  | unit {digits : List Char} {unit : Nat} : Hex4 digits unit → isLeading unit = false →
      isTrailing unit = false → Escape ('u' :: digits) (.ofNat unit)
  | pair {digits digits' : List Char} {leading trailing : Nat} : Hex4 digits leading →
      Hex4 digits' trailing → isLeading leading = true → isTrailing trailing = true →
      Escape ('u' :: (digits ++ '\\' :: 'u' :: digits')) (pairChar leading trailing)

/-- The text between the quotes of a string, and the string that it stands for. -/
inductive Spelled : List Char → List Char → Prop where
  | nil : Spelled [] []
  | plain {c : Char} {text name : List Char} : c ≠ '"' → c ≠ '\\' → 0x20 ≤ c.toNat →
      Spelled text name → Spelled (c :: text) (c :: name)
  | escape {escaped text name : List Char} {c : Char} : Escape escaped c → Spelled text name →
      Spelled ('\\' :: (escaped ++ text)) (c :: name)

/-- The text between the quotes of a string that may stand for nothing: its surrogates need not come
in pairs. -/
inductive Quotable : List Char → Prop where
  | nil : Quotable []
  | plain {c : Char} {text : List Char} : c ≠ '"' → c ≠ '\\' → 0x20 ≤ c.toNat →
      Quotable text → Quotable (c :: text)
  | letter {letter c : Char} {text : List Char} : simpleEscape letter = some c →
      Quotable text → Quotable ('\\' :: letter :: text)
  | unit {digits text : List Char} {unit : Nat} : Hex4 digits unit → Quotable text →
      Quotable ('\\' :: 'u' :: (digits ++ text))

/-! ### Numbers -/

structure Exponent where
  capital : Bool
  /-- The sign, if one is written; `true` is minus. -/
  sign : Option Bool
  digits : List Char
  nonempty : digits ≠ []
  digit : ∀ c ∈ digits, c.isDigit = true

namespace Exponent

def signText : Option Bool → List Char
  | none => []
  | some true => ['-']
  | some false => ['+']

def text (x : Exponent) : List Char :=
  (if x.capital then 'E' else 'e') :: (signText x.sign ++ x.digits)

def down (x : Exponent) : Bool := x.sign == some true

def power (x : Exponent) : Nat := Nat.ofDigitChars 10 x.digits 0

/-- The value of digits with this exponent. Beyond what the reader counts, it is zero or out of
range. -/
def valueOf (x : Exponent) (s : Scaled) : Option Binary64 :=
  if Nat.pow 2 31 - 1 < x.power then
    if s.significand ≠ 0 ∧ !x.down then none else some 0
  else (s.shifted x.down x.power).value

end Exponent

structure Numeral where
  negative : Bool
  whole : List Char
  /-- The digits after the point; none if there is no point. -/
  fraction : List Char
  exponent : Option Exponent
  canonical : Canonical whole
  digit : ∀ c ∈ fraction, c.isDigit = true

namespace Numeral

def signText (negative : Bool) : List Char := if negative then ['-'] else []

def fractionText (fraction : List Char) : List Char :=
  if fraction = [] then [] else '.' :: fraction

def exponentText : Option Exponent → List Char
  | none => []
  | some x => x.text

def text (x : Numeral) : List Char :=
  signText x.negative ++
    (x.whole ++ (fractionText x.fraction ++ exponentText x.exponent))

def fitting (x : Numeral) : Fitting := takeFitting 0 0 x.whole

def fittingFraction (x : Numeral) : Fitting := takeFitting x.fitting.significand 0 x.fraction

/-- The digits that are kept, times a power of ten, without the exponent. -/
def scaled (x : Numeral) : Scaled :=
  ⟨x.fittingFraction.significand, x.fitting.rest.length - x.fittingFraction.taken⟩

/-- An integer whose digits all fit into a word. -/
def IsWhole (x : Numeral) : Prop :=
  x.fraction = [] ∧ x.exponent.isNone = true ∧ x.fitting.rest = []

instance (x : Numeral) : Decidable x.IsWhole := inferInstanceAs (Decidable (_ ∧ _ ∧ _))

def valueWith (s : Scaled) : Option Exponent → Option Binary64
  | none => s.value
  | some x => x.valueOf s

def magnitude (x : Numeral) : Option Binary64 := valueWith x.scaled x.exponent

def signedReal (negative : Bool) (y : Binary64) : Number := .real (if negative then -y else y)

/-- What the number is read as, if it is not out of range. -/
def number (x : Numeral) : Option Number :=
  if x.IsWhole then some (wholeNumber x.negative x.fitting.significand)
  else x.magnitude.map (signedReal x.negative)

end Numeral

/-! ### Values -/

/-- A member of an object: its key as it stands between the quotes, the white space around the colon,
and its value. -/
structure Member where
  key : List Char
  before : List Char
  after : List Char
  value : List Char
  before_spaces : Spaces before
  after_spaces : Spaces after

def Member.text (m : Member) : List Char :=
  '"' :: (m.key ++ '"' :: (m.before ++ ':' :: (m.after ++ m.value)))

/-- The text of a value in which `Key` holds of every key, as it stands between the quotes. -/
inductive ValueWith (Key : List Char → Prop) : List Char → Prop where
  | null : ValueWith Key ['n', 'u', 'l', 'l']
  | true : ValueWith Key ['t', 'r', 'u', 'e']
  | false : ValueWith Key ['f', 'a', 'l', 's', 'e']
  | number (x : Numeral) : ValueWith Key x.text
  | string {text : List Char} : Quotable text → ValueWith Key ('"' :: (text ++ ['"']))
  | list {items : List (List Char)} {text : List Char} : Enclosed '[' ']' items text →
      (∀ item ∈ items, ValueWith Key item) → ValueWith Key text
  | object {members : List Member} {text : List Char} :
      Enclosed '\x7b' '\x7d' (members.map Member.text) text → (∀ m ∈ members, Key m.key) →
      (∀ m ∈ members, ValueWith Key m.value) → ValueWith Key text

/-- The text of a value. Its keys, like its strings, may hold surrogates that stand alone. -/
abbrev Value : List Char → Prop := ValueWith Quotable

end MicroBench.Json
