import MicroBench.Failure
import MicroBench.Proofs.Record.Elements
import MicroBench.Proofs.Record.Members
import MicroBench.Proofs.Record.RateBounds
import MicroBench.Proofs.Text.Trimmed

/-! The texts that are accepted as records. White space of Unicode around the text is taken
off first. What is left is an object or a list that makes up a record, and the record has
to be well formed. -/
namespace MicroBench

open Json Decoding

namespace Record

variable {text t rest : List Char} {r : Record}

/-- The text is an object or a list that makes up the record. -/
inductive WrittenAs (r : Record) : List Char → Prop where
  | object {members : List Member} {text : List Char} :
      Enclosed '\x7b' '\x7d' (members.map Member.text) text → ObjectOf members r → WrittenAs r text
  | list {items : List (List Char)} {text : List Char} :
      Enclosed '[' ']' items text → ListOf items r → WrittenAs r text

theorem WrittenAs.value (written : r.WrittenAs text) : Value text := by
  cases written with
  | object enclosed object =>
    refine .object enclosed ?_ fun m member => (object.fits m member).value
    intro m member
    obtain ⟨name, spelled⟩ := (object.fits m member).named
    exact spelled.quotable
  | list enclosed list =>
    exact .list enclosed (values_of_forall₂ Field.value_of_spells list.spells.flip)

theorem exists_written (h : Decoding.read text = .ok r) :
    ∃ before t after, Spaces before ∧ Spaces after ∧ text = before ++ (t ++ after) ∧
      r.WrittenAs t := by
  have closed {rest : List Char} (found : skipSpace rest = []) : Spaces rest := by
    obtain ⟨space, spaces, split⟩ := exists_spaces_of_skipSpace found
    rw [split, List.append_nil]
    exact spaces
  unfold Decoding.read at h
  dsimp only at h
  split at h
  · cases h
  · rename_i after found
    split at h
    · rename_i last
      cases h
      split at found
      · cases found
      · rename_i opened
        obtain ⟨before, spaces, rfl⟩ := exists_spaces_of_skipSpace opened
        obtain ⟨members, whole, enclosed, split, object⟩ := exists_object found
        exact ⟨before, whole, after, spaces, closed last, by rw [split], .object enclosed object⟩
      · rename_i opened
        obtain ⟨before, spaces, rfl⟩ := exists_spaces_of_skipSpace opened
        obtain ⟨items, whole, enclosed, split, list⟩ := exists_list found
        exact ⟨before, whole, after, spaces, closed last, by rw [split], .list enclosed list⟩
      · cases found
    · cases h

/-- Whatever is written as a record is read as that record. -/
theorem WrittenAs.read (written : r.WrittenAs t) : Decoding.read t = .ok r := by
  cases written with
  | object enclosed object =>
    obtain ⟨text, split, read⟩ : ∃ text, t ++ [] = '\x7b' :: text ∧
      readObject text = .ok (r, []) := readObject_text enclosed object
    rw [List.append_nil] at split
    have opened : skipSpace t = '\x7b' :: text := by rw [split]; rfl
    simp only [Decoding.read, opened, read]
    rfl
  | list enclosed list =>
    obtain ⟨text, split, read⟩ : ∃ text, t ++ [] = '[' :: text ∧
      readList text = .ok (r, []) := readList_text enclosed list
    rw [List.append_nil] at split
    have opened : skipSpace t = '[' :: text := by rw [split]; rfl
    simp only [Decoding.read, opened, read]
    rfl

/-- A text without white space at its ends is read as a record only if it is one as a whole. -/
theorem read_eq_ok_iff (first : ∀ c ∈ t.head?, Text.isBlank c = false)
    (last : ∀ c ∈ t.getLast?, Text.isBlank c = false) :
    Decoding.read t = .ok r ↔ r.WrittenAs t := by
  have inked {c : Char} (spaced : isSpace c = true) : Text.isBlank c ≠ false := by
    rw [Text.isBlank_of_isSpace spaced]
    rintro ⟨⟩
  constructor
  · intro read
    obtain ⟨before, whole, after, spaces, spaces', rfl, written⟩ := exists_written read
    cases before with
    | cons c before => exact absurd (first c rfl) (inked (spaces c List.mem_cons_self))
    | nil =>
      rcases List.eq_nil_or_concat after with rfl | ⟨after, c, rfl⟩
      · simpa using written
      · exact absurd (last c (by simp)) (inked (spaces' c (by simp)))
  · exact WrittenAs.read

theorem ofJson_eq_ok_iff_read {s : String} :
    ofJson s = .ok r ↔ Decoding.read (Text.trimmed s.toList) = .ok r ∧ r.WellFormed := by
  rw [ofJson, parse]
  cases read : Decoding.read (Text.trimmed s.toList) with
  | error fault => simp
  | ok found =>
    cases defect : found.defect? with
    | none =>
      simp only [defect, Except.ok.injEq]
      constructor
      · rintro rfl
        exact ⟨rfl, defect⟩
      · exact And.left
    | some d =>
      simp only [defect, Except.ok.injEq]
      constructor
      · rintro ⟨⟩
      · rintro ⟨rfl, wellFormed⟩
        rw [WellFormed, defect] at wellFormed
        cases wellFormed

/-- A text is accepted just if it is, white space at its ends aside, a value that makes up a
well-formed record, which is what comes back. The keys of the record stand for names; in a member
that names no field there may be any value, its keys bound by nothing but the grammar. A rate may be
any number that does not overflow, and is close to it; a number next to where numbers overflow does
so if the reader finds that it does. -/
theorem ofJson_language (s : String) :
    (∃ t, (∀ t', Text.Stripped s.toList t' ↔ t' = t) ∧ ofJson s = ofJson (.ofList t) ∧
      ∀ r, ofJson s = .ok r ↔ Value t ∧ r.WrittenAs t ∧ r.WellFormed) ∧
      ∀ n : Numeral, n.length < 2 ^ 30 →
        (n.exact ≤ (1 - 1 / 2 ^ 50) * 2 ^ 1024 → ∃ x, RateSpells n.text x) ∧
        ∀ x, RateSpells n.text x → n.exact < (1 + 1 / 2 ^ 50) * 2 ^ 1024 ∧ ReadFrom x n := by
  refine ⟨⟨Text.trimmed s.toList, fun t' => Text.stripped_iff, ?_, ?_⟩, rateSpells_bounds⟩
  · rw [ofJson, ofJson, String.toList_ofList, Text.trimmed_trimmed]
  · intro r
    obtain ⟨-, first, last⟩ := Text.stripped_trimmed s.toList
    rw [ofJson_eq_ok_iff_read, read_eq_ok_iff first last]
    constructor
    · rintro ⟨written, wellFormed⟩
      exact ⟨written.value, written, wellFormed⟩
    · exact And.right

/-- A number between one and two, times a power of ten. -/
def oneAnd (fraction : String) (power : ℕ) (digit : fraction.toList.all Char.isDigit) :
    Numeral where
  negative := false
  whole := ['1']
  fraction := fraction.toList
  exponent := some ⟨false, none, Nat.toDigits 10 power, Nat.toDigits_ne_nil,
    fun _ => isDigit_of_mem_digits⟩
  canonical := canonical_toDigits 1
  digit := List.all_eq_true.mp digit

theorem exact_oneAnd (fraction : String) (power : ℕ)
    (digit : fraction.toList.all Char.isDigit) {m a : ℕ}
    (value : Nat.ofDigitChars 10 ('1' :: fraction.toList) 0 = m)
    (length : fraction.toList.length + a = power) :
    (oneAnd fraction power digit).exact = m * 10 ^ a := by
  have exponent : Exponent.power ⟨false, none, Nat.toDigits 10 power, Nat.toDigits_ne_nil,
      fun _ => isDigit_of_mem_digits⟩ = power := Nat.ofDigitChars_ten_toDigits
  have shift : (power : ℤ) - fraction.toList.length = a := by omega
  have exact : (oneAnd fraction power digit).exact =
      (Nat.ofDigitChars 10 ('1' :: fraction.toList) 0 : ℚ) *
        10 ^ ((Exponent.power ⟨false, none, Nat.toDigits 10 power, Nat.toDigits_ne_nil,
          fun _ => isDigit_of_mem_digits⟩ : ℤ) - fraction.toList.length) := rfl
  rw [exact, exponent, value, shift, zpow_natCast]

/-! The powers are variables in what follows, so that no tactic evaluates them. -/

section Powers

variable {m n a b c : ℕ}

theorem cast_mul_ten_pow_le (le : m * 10 ^ a ≤ n * 2 ^ b) : (m : ℚ) * 10 ^ a ≤ n * 2 ^ b := by
  exact_mod_cast le

theorem cast_mul_two_pow_lt (lt : m * 2 ^ b < n * 10 ^ a) : (m : ℚ) * 2 ^ b < n * 10 ^ a := by
  exact_mod_cast lt

theorem lt_threshold (below : m * 10 ^ a + 2 ^ c < 2 ^ b) : (m : ℚ) * 10 ^ a < 2 ^ b - 2 ^ c := by
  rw [lt_sub_iff_add_lt]
  exact_mod_cast below

theorem threshold_le (past : 2 ^ b ≤ m * 10 ^ a + 2 ^ c) : (2 : ℚ) ^ b - 2 ^ c ≤ m * 10 ^ a := by
  rw [sub_le_iff_le_add]
  exact_mod_cast past

end Powers

/-- One with 308 zeros may be a rate, and with one zero more it overflows. -/
theorem ofJson_language_tens :
    (∃ t, Text.Stripped " [0,0,0,0] ".toList t ∧ (ofTotals 0 0).WrittenAs t) ∧
      (∃ x, RateSpells (oneAnd "" 308 (by decide)).text x) ∧
      ∀ x, ¬ RateSpells (oneAnd "" 309 (by decide)).text x := by
  obtain ⟨⟨t, stripped, -, accepted⟩, bounds⟩ := ofJson_language " [0,0,0,0] "
  have read : ofJson " [0,0,0,0] " = .ok (ofTotals 0 0) := by decide +kernel
  have pos : (0 : ℚ) < 2 ^ 1024 := pow_pos two_pos 1024
  refine ⟨⟨t, (stripped t).2 rfl, ((accepted _).1 read).2.1⟩, ?_, ?_⟩
  · have small := cast_mul_ten_pow_le (m := 16) (n := 9) (a := 308) (b := 1024) (by decide +kernel)
    apply (bounds (oneAnd "" 308 (by decide)) (by decide)).1
    rw [exact_oneAnd "" 308 (by decide) (m := 1) (a := 308) rfl rfl]
    generalize (10 : ℚ) ^ 308 = tens, (2 : ℚ) ^ 1024 = limit at *
    push_cast at small ⊢
    linarith
  · intro x spells
    have large := cast_mul_two_pow_lt (m := 2) (n := 1) (a := 309) (b := 1024) (by decide +kernel)
    have below := ((bounds (oneAnd "" 309 (by decide)) (by decide)).2 x spells).1
    rw [exact_oneAnd "" 309 (by decide) (m := 1) (a := 309) rfl rfl] at below
    generalize (10 : ℚ) ^ 309 = tens, (2 : ℚ) ^ 1024 = limit at *
    push_cast at large below
    linarith

/-! ### Names in the values of other members -/

/-- The text of a value in which every key stands for a name, however deep it lies. -/
abbrev NamedValue : List Char → Prop := ValueWith fun key => ∃ name, Spelled key name

/-- What begins with the quote of a key begins with a member. -/
theorem exists_first_of_enclosed {members : List Member} {whole tail : List Char}
    (enclosed : Enclosed '\x7b' '\x7d' (members.map Member.text) whole)
    (opened : whole ++ tail = '\x7b' :: '"' :: rest) :
    ∃ m ∈ members, ∃ after, '"' :: rest = m.text ++ after := by
  have quoted : skipSpace ('"' :: rest) = '"' :: rest := rfl
  cases members with
  | nil =>
    cases enclosed with
    | @none space spaces =>
      have split : '"' :: rest = space ++ '\x7d' :: tail := by simpa using opened.symm
      rw [split, skipSpace_spaces spaces rfl, ← split] at quoted
      cases quoted
  | cons m members =>
    cases enclosed with
    | @some space _ others _ spaces follow =>
      have split : '"' :: rest = space ++ (m.text ++ (others ++ '\x7d' :: tail)) := by
        simpa using opened.symm
      refine ⟨m, List.mem_cons_self, others ++ '\x7d' :: tail, ?_⟩
      rw [← quoted, split, skipSpace_append spaces]
      rfl

/-- The first key of an object stands for a name, and a value follows it. -/
theorem exists_first_member {value tail body : List Char} (named : NamedValue value)
    (quotable : Quotable body)
    (opened : value ++ tail = '\x7b' :: '"' :: (body ++ '"' :: ':' :: rest)) :
    (∃ name, Spelled body name) ∧ ∃ value' tail', NamedValue value' ∧
      value' ++ tail' = skipSpace rest := by
  cases named with
  | null | true | false | string => cases opened
  | number x =>
    obtain ⟨d, others, split, number⟩ := starts_numeral x
    rw [split, List.cons_append] at opened
    obtain ⟨rfl, -⟩ := List.cons.inj opened
    cases number
  | list enclosed => cases enclosed <;> cases opened
  | object enclosed keys values =>
    obtain ⟨m, member, after, split⟩ := exists_first_of_enclosed enclosed opened
    obtain ⟨name, spelled⟩ := keys m member
    have isValue := values m member
    have split : body ++ '"' :: ':' :: rest =
        m.key ++ '"' :: (m.before ++ ':' :: (m.after ++ (m.value ++ after))) := by
      simpa [Member.text] using split
    obtain ⟨rfl, colon⟩ := quotable.unique spelled.quotable split
    have found : readColon (':' :: rest) = .ok (m.after ++ (m.value ++ after)) :=
      readColon_eq_ok.2 ⟨m.before, m.before_spaces, colon⟩
    refine ⟨⟨name, spelled⟩, m.value, after, isValue, ?_⟩
    rw [Except.ok.inj found, skipSpace_append m.after_spaces, isValue.starts.skipSpace_append]

def halfPair : List Char := ['\\', 'u', 'd', '8', '0', '0']

theorem quotable_halfPair : Quotable halfPair := by
  have hex : Hex4 ['d', '8', '0', '0'] 0xd800 := @Hex4.mk _ _ _ _ 13 8 0 0 rfl rfl rfl rfl
  exact .unit hex .nil

theorem not_spelled_halfPair (name : List Char) : ¬ Spelled halfPair name := by
  intro spelled
  have read : readString [] (halfPair ++ ['"']) = .ok (name, []) := readString_text spelled []
  have failed : (readString [] (halfPair ++ ['"'])).isOk = false := by decide +kernel
  rw [read] at failed
  cases failed

theorem not_namedValue_halfPair (rest : List Char) :
    ¬ NamedValue ('\x7b' :: '"' :: (['x'] ++ '"' :: ':' :: '\x7b' :: '"' ::
      (halfPair ++ '"' :: ':' :: rest))) := by
  intro named
  have plain : Quotable ['x'] := .plain (by decide) (by decide) (by decide) .nil
  obtain ⟨-, value, tail, named, opened⟩ := exists_first_member named plain (List.append_nil _)
  obtain ⟨⟨name, spelled⟩, -⟩ := exists_first_member named quotable_halfPair opened
  exact not_spelled_halfPair name spelled

/-- A record with one more member, whose value is an object with half a pair for a key. -/
def halfNamedText : String :=
  "\x7b\"x\":\x7b\"\\ud800\":0\x7d,\"iterations\":1,\"total_nanos\":1," ++
    "\"nanos_per_op\":1.0,\"ops_per_sec\":1000000000.0\x7d"

theorem ofJson_halfNamedText : ofJson halfNamedText = .ok (ofTotals 1 1) := by decide +kernel

/-! ### Numbers next to where they overflow -/

/-- A number that the nearest finite one is nearer to than the next power of two. -/
def belowEdge : Numeral := oneAnd "7976931348623158" 308 (by decide)

/-- A number that overflows when it is rounded to the nearest. -/
def pastEdge : Numeral := oneAnd "79769313486231581" 308 (by decide)

def edgeText (n : Numeral) : String :=
  "\x7b\"iterations\":1,\"total_nanos\":0,\"nanos_per_op\":5.562684646268e-300,\"ops_per_sec\":" ++
    .ofList n.text ++ "\x7d"

def fastest : Record := ⟨1, 0, .ofBits 0x1cdcd64fffffffb, .ofBits 0x7fefffffffffffff, 0, 0, []⟩

/-- The language is not told by names and by overflow alone. The names inside of other members need
not stand for strings. The reader rounds more than once, so it finds a number out of range that does
not overflow, and takes one that does; the record would be well formed in both cases. -/
theorem ofJson_exceptions :
    (ofJson halfNamedText = .ok (ofTotals 1 1) ∧ ¬ NamedValue halfNamedText.toList ∧
      ¬ ∀ (s : String) (t : List Char), Text.Stripped s.toList t →
        ∀ r, ofJson s = .ok r ↔ NamedValue t ∧ r.WrittenAs t ∧ r.WellFormed) ∧
    (ofJson (edgeText belowEdge) = .error (.json .numberOutOfRange ⟨1, 103⟩) ∧
      belowEdge.exact < 2 ^ 1024 - 2 ^ 970) ∧
    (ofJson (edgeText pastEdge) = .ok fastest ∧ 2 ^ 1024 - 2 ^ 970 ≤ pastEdge.exact) := by
  refine ⟨⟨ofJson_halfNamedText, not_namedValue_halfPair _, ?_⟩, ⟨by decide +kernel, ?_⟩,
    ⟨by decide +kernel, ?_⟩⟩
  · intro all
    have stripped : Text.Stripped halfNamedText.toList halfNamedText.toList := by
      rw [Text.stripped_iff]
      decide +kernel
    exact not_namedValue_halfPair _ ((all _ _ stripped _).1 ofJson_halfNamedText).1
  · rw [belowEdge, exact_oneAnd _ 308 _ (m := 17976931348623158) (a := 292) rfl rfl]
    exact lt_threshold (by decide +kernel)
  · rw [pastEdge, exact_oneAnd _ 308 _ (m := 179769313486231581) (a := 291) rfl rfl]
    exact threshold_le (by decide +kernel)

end Record

end MicroBench
