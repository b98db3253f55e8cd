import Mathlib.Data.List.Forall2
import MicroBench.Proofs.Json.Readings
import MicroBench.Proofs.Json.Skipping
import MicroBench.Record.Decoding

/-! How the values of a record are written: counts, rates and samples. Each has a reader
that accepts what spells a value, after white space, and nothing else. -/
namespace MicroBench.Decoding

open Json

variable {text rest : List Char}

/-- A count: digits, with no sign, fraction or exponent. -/
def WordSpells (text : List Char) (n : UInt64) : Prop :=
  Canonical text ∧ Nat.ofDigitChars 10 text 0 = n.toNat

def rateOf : Number → Binary64
  | .natural n => .ofNat n.toNat
  | .negative n => -.ofNat n
  | .real x => x

/-- A rate: any number that is not out of range, as it is read. -/
def RateSpells (text : List Char) (x : Binary64) : Prop :=
  ∃ y : Numeral, text = y.text ∧ y.number.map rateOf = some x

def SamplesSpell (text : List Char) (samples : List UInt64) : Prop :=
  ∃ items, Enclosed '[' ']' items text ∧ List.Forall₂ WordSpells items samples

structure Accepts {α : Type} (read : List Char → Reading α) (Spells : List Char → α → Prop) :
    Prop where
  sound : ∀ {text rest : List Char} {x : α}, read text = .ok (x, rest) →
    ∃ space spelt, Spaces space ∧ Spells spelt x ∧ text = space ++ (spelt ++ rest)
  complete : ∀ {space spelt rest : List Char} {x : α}, Spaces space → Spells spelt x →
    Ends rest → read (space ++ (spelt ++ rest)) = .ok (x, rest)
  value : ∀ {spelt : List Char} {x : α}, Spells spelt x → Value spelt

namespace Accepts

variable {α : Type} {read : List Char → Reading α} {Spells : List Char → α → Prop}
  {spelt : List Char} {x y : α}

theorem here (accepts : Accepts read Spells) (spells : Spells spelt x) (ends : Ends rest) :
    read (spelt ++ rest) = .ok (x, rest) := accepts.complete spaces_nil spells ends

/-- A text spells one value at most. -/
theorem unique (accepts : Accepts read Spells) (spells : Spells spelt x)
    (spells' : Spells spelt y) : x = y := by
  have first := accepts.here spells (.inl rfl)
  have second := accepts.here spells' (.inl rfl)
  rw [first] at second
  cases second
  rfl

end Accepts

/-! ### Numbers -/

/-- What is read where a number is due is a number by the grammar. -/
theorem exists_due {expected : Expected} {n : Number}
    (h : readDueNumber expected text = .ok (n, rest)) :
    ∃ space, ∃ x : Numeral, Spaces space ∧ text = space ++ (x.text ++ rest) ∧
      x.number = some n := by
  unfold readDueNumber at h
  split at h
  · cases h
  · rename_i found
    obtain ⟨space, spaces, split⟩ := exists_spaces_of_skipSpace found
    split at h
    · obtain ⟨x, split', number⟩ := exists_numeral_of_readNumber h
      exact ⟨space, x, spaces, by rw [split, split'], number⟩
    · cases h

theorem readDueNumber_text (expected : Expected) {space : List Char} {x : Numeral} {n : Number}
    (spaces : Spaces space) (number : x.number = some n) (ends : Ends rest) :
    readDueNumber expected (space ++ (x.text ++ rest)) = .ok (n, rest) := by
  have read := readNumber_text number ends
  obtain ⟨c, others, text, starts⟩ := starts_numeral x
  rw [text, List.cons_append] at read ⊢
  simp only [readDueNumber, skipSpace_spaces spaces (isSpace_of_startsNumber starts), starts, if_true,
    read]

/-- A number is read as a natural if it is nothing but digits, and they fit into a word. -/
theorem wordSpells_of_number {x : Numeral} {n : UInt64} (h : x.number = some (.natural n)) :
    WordSpells x.text n := by
  unfold Numeral.number at h
  split at h
  · rename_i whole
    obtain ⟨pointless, bare, fits⟩ := whole
    rw [Option.isNone_iff_eq_none] at bare
    cases negative : x.negative with
    | true =>
      rw [negative, wholeNumber, if_pos rfl] at h
      split at h <;> cases h
    | false =>
      rw [negative] at h
      have small : x.fitting.significand ≤ largestWord := takeFitting_le (Nat.zero_le _) 0 x.whole
      have total : x.fitting.significand = Nat.ofDigitChars 10 x.whole 0 := by
        obtain ⟨front, split, value, -, -⟩ := takeFitting_split x.canonical.digit 0 0
        rw [← Numeral.fitting] at split value
        rw [value, split, fits, List.append_nil]
      have same : x.text = x.whole := by
        simp [Numeral.text, Numeral.signText, negative, pointless, Numeral.fractionText, bare,
          Numeral.exponentText]
      have read : UInt64.ofNat x.fitting.significand = n := by
        rw [wholeNumber] at h
        cases h
        rfl
      refine ⟨same ▸ x.canonical, ?_⟩
      rw [same, ← total, ← read, UInt64.toNat_ofNat']
      rw [largestWord] at small
      exact (Nat.mod_eq_of_lt (Nat.lt_succ_of_le small)).symm
  · cases magnitude : x.magnitude <;> simp [magnitude, Numeral.signedReal] at h

theorem exists_numeral_of_wordSpells {n : UInt64} (spells : WordSpells text n) :
    ∃ x : Numeral, x.text = text ∧ x.number = some (.natural n) := by
  obtain ⟨canonical, total⟩ := spells
  have fits : Nat.ofDigitChars 10 text 0 ≤ largestWord := by
    rw [total]
    exact Nat.le_of_lt_succ n.toNat_lt
  have taken : takeFitting 0 0 (text ++ []) = _ := takeFitting_append canonical.digit rfl fits
  rw [List.append_nil, total] at taken
  refine ⟨⟨false, text, [], none, canonical, by simp⟩, ?_, ?_⟩
  · simp [Numeral.text, Numeral.signText, Numeral.fractionText, Numeral.exponentText]
  · have whole : Numeral.IsWhole ⟨false, text, [], none, canonical, by simp⟩ :=
      ⟨rfl, rfl, by rw [Numeral.fitting, taken]⟩
    rw [Numeral.number, if_pos whole, Numeral.fitting, taken, wholeNumber]
    simp

theorem accepts_word : Accepts readWord WordSpells where
  sound := by
    intro text rest n h
    unfold readWord at h
    split at h
    · cases h
    · rename_i read
      cases h
      obtain ⟨space, x, spaces, split, number⟩ := exists_due read
      exact ⟨space, x.text, spaces, wordSpells_of_number number, split⟩
    · cases h
    · cases h
  complete := by
    intro space spelt rest n spaces spells ends
    obtain ⟨x, rfl, number⟩ := exists_numeral_of_wordSpells spells
    simp only [readWord, readDueNumber_text .word spaces number ends]
  value := by
    intro spelt n spells
    obtain ⟨x, rfl, -⟩ := exists_numeral_of_wordSpells spells
    exact .number x

theorem readRate_eq (text : List Char) :
    readRate text = (readDueNumber .rate text).mapValue rateOf := by
  unfold readRate
  split <;> rename_i read <;> rw [read] <;> rfl

/-- Rates are read by what spells them. -/
theorem accepts_rate : Accepts readRate RateSpells where
  sound := by
    intro text rest x h
    rw [readRate_eq] at h
    obtain ⟨n, read, rfl⟩ := Reading.mapValue_eq_ok.1 h
    obtain ⟨space, y, spaces, split, number⟩ := exists_due read
    exact ⟨space, y.text, spaces, ⟨y, rfl, by rw [number]; rfl⟩, split⟩
  complete := by
    intro space spelt rest x spaces spells ends
    obtain ⟨y, rfl, rate⟩ := spells
    obtain ⟨n, number, same⟩ := Option.map_eq_some_iff.1 rate
    rw [readRate_eq, readDueNumber_text .rate spaces number ends]
    exact congrArg (fun z => Except.ok (z, rest)) same
  value := by
    intro spelt x spells
    obtain ⟨y, rfl, -⟩ := spells
    exact .number y

/-! ### Samples -/

theorem exists_first {element : List Char} (h : firstElement text = .ok (some element)) :
    ∃ space, Spaces space ∧ text = space ++ element := by
  unfold firstElement at h
  split at h
  · cases h
  · cases h
  · rename_i found
    cases h
    exact exists_spaces_of_skipSpace rfl

theorem exists_next {element : List Char} (h : nextElement text = .ok (some element)) :
    ∃ before after, Spaces before ∧ Spaces after ∧ text = before ++ ',' :: (after ++ element) := by
  unfold nextElement at h
  split at h
  · cases h
  · cases h
  · rename_i found
    obtain ⟨before, spaces, split⟩ := exists_spaces_of_skipSpace found
    split at h
    · cases h
    · cases h
    · rename_i after _ _ _
      cases h
      obtain ⟨space, spaces', split'⟩ := exists_spaces after
      exact ⟨before, space, spaces, spaces', by rw [split, ← split']⟩
  · cases h

theorem exists_close (h : closeList text = .ok rest) :
    ∃ space, Spaces space ∧ text = space ++ ']' :: rest := by
  unfold closeList at h
  split at h
  · cases h
  · rename_i found
    cases h
    exact exists_spaces_of_skipSpace found
  · split at h <;> cases h
  · cases h

variable {space item : List Char}

theorem closeList_text (spaces : Spaces space) : closeList (space ++ ']' :: rest) = .ok rest := by
  rw [closeList, skipSpace_spaces spaces rfl]
  rfl

theorem firstElement_close (spaces : Spaces space) :
    firstElement (space ++ ']' :: rest) = .ok none := by
  rw [firstElement, skipSpace_spaces spaces rfl]
  rfl

theorem nextElement_close (spaces : Spaces space) :
    nextElement (space ++ ']' :: rest) = .ok none := by
  rw [nextElement, skipSpace_spaces spaces rfl]
  rfl

theorem firstElement_text (spaces : Spaces space) (starts : Starts item) (rest : List Char) :
    firstElement (space ++ (item ++ rest)) = .ok (some (item ++ rest)) := by
  obtain ⟨c, others, rfl, ink, -, other, -⟩ := starts
  rw [firstElement, List.cons_append, skipSpace_spaces spaces ink]
  split
  · cases ‹_ = []›
  · rename_i same
    cases same
    exact absurd rfl other
  · rfl

theorem nextElement_text {after : List Char} (spaces : Spaces space) (spaces' : Spaces after)
    (starts : Starts item) (rest : List Char) :
    nextElement (space ++ ',' :: (after ++ (item ++ rest))) = .ok (some (item ++ rest)) := by
  obtain ⟨c, others, rfl, ink, -, other, -⟩ := starts
  have found : skipSpace (after ++ (c :: others ++ rest)) = c :: (others ++ rest) :=
    skipSpace_spaces spaces' ink _
  rw [nextElement, skipSpace_spaces spaces rfl]
  simp only [found]
  split
  · cases ‹_ = []›
  · rename_i same
    cases same
    exact absurd rfl other
  · rfl

theorem exists_samples {done found : List UInt64}
    (h : moreSamples done text = .ok (found, rest)) :
    ∃ items others samples, Others items others ∧ List.Forall₂ WordSpells items samples ∧
      text = others ++ ']' :: rest ∧ found = done.reverse ++ samples := by
  fun_induction moreSamples done text with
  | case1 => cases h
  | case2 done text =>
    obtain ⟨closed, rfl⟩ := Reading.giving_eq_ok.1 h
    obtain ⟨space, spaces, split⟩ := exists_close closed
    exact ⟨[], space, [], .none spaces, .nil, split, (List.append_nil _).symm⟩
  | case3 => cases h
  | case4 done text element next n unread read ih =>
    obtain ⟨before, after, spaces, spaces', rfl⟩ := exists_next next
    obtain ⟨space, spelt, spaces'', spells, rfl⟩ := accepts_word.sound read
    obtain ⟨items, others, samples, follow, all, rfl, whole⟩ := ih h
    refine ⟨spelt :: items, before ++ ',' :: (after ++ space ++ (spelt ++ others)), n :: samples,
      .more spaces (spaces_append spaces' spaces'') follow, .cons spells all, ?_, ?_⟩
    · simp
    · rw [whole, List.reverse_cons, List.append_assoc]
      rfl

theorem moreSamples_cons {done : List UInt64} {element : List Char} {n : UInt64}
    (next : nextElement text = .ok (some element)) (read : readWord element = .ok (n, rest)) :
    moreSamples done text = moreSamples (n :: done) rest := by
  rw [moreSamples_eq, next]
  simp only [read]

theorem moreSamples_spelt {done samples : List UInt64} {items : List (List Char)}
    {others : List Char} (follow : Others items others)
    (all : List.Forall₂ WordSpells items samples) :
    moreSamples done (others ++ ']' :: rest) = .ok (done.reverse ++ samples, rest) := by
  induction follow generalizing done samples with
  | none spaces =>
    cases all
    rw [moreSamples_eq, nextElement_close spaces, closeList_text spaces, List.append_nil]
    rfl
  | @more before after item others items spaces spaces' follow ih =>
    cases all with
    | @cons _ n _ samples spells all =>
      have split : before ++ ',' :: (after ++ (item ++ others)) ++ ']' :: rest =
          before ++ ',' :: (after ++ (item ++ (others ++ ']' :: rest))) := by simp
      have read := accepts_word.here spells (ends_others follow (.inl rfl) rest)
      have next := nextElement_text spaces spaces' (accepts_word.value spells).starts
        (others ++ ']' :: rest)
      rw [split, moreSamples_cons next read, ih all, List.reverse_cons, List.append_assoc]
      rfl

theorem values_of_forall₂ {α : Type} {Spells : List Char → α → Prop} {items : List (List Char)}
    {found : List α} (value : ∀ {item x}, Spells item x → Value item)
    (all : List.Forall₂ Spells items found) : ∀ item ∈ items, Value item := by
  induction all with
  | nil => simp
  | cons spells _ ih => exact List.forall_mem_cons.2 ⟨value spells, ih⟩

theorem exists_sample_list {samples : List UInt64} (h : readSamples text = .ok (samples, rest)) :
    ∃ space spelt, Spaces space ∧ SamplesSpell spelt samples ∧ text = space ++ (spelt ++ rest) := by
  unfold readSamples at h
  split at h
  · cases h
  · rename_i opened
    obtain ⟨before, spaces, rfl⟩ := exists_spaces_of_skipSpace opened
    split at h
    · cases h
    · obtain ⟨closed, rfl⟩ := Reading.giving_eq_ok.1 h
      obtain ⟨space, spaces', rfl⟩ := exists_close closed
      refine ⟨before, _, spaces, ⟨[], .none spaces', .nil⟩, ?_⟩
      simp
    · rename_i first
      obtain ⟨space, spaces', rfl⟩ := exists_first first
      split at h
      · cases h
      · rename_i read
        obtain ⟨space', spelt, spaces'', spells, rfl⟩ := accepts_word.sound read
        obtain ⟨items, others, samples, follow, all, rfl, rfl⟩ := exists_samples h
        refine ⟨before, _, spaces, ⟨spelt :: items,
          .some (spaces_append spaces' spaces'') follow, .cons spells all⟩, ?_⟩
        simp
  · cases h

theorem readSamples_spelt {before spelt : List Char} {samples : List UInt64}
    (spaces : Spaces before) (spells : SamplesSpell spelt samples) :
    readSamples (before ++ (spelt ++ rest)) = .ok (samples, rest) := by
  obtain ⟨items, enclosed, all⟩ := spells
  cases enclosed with
  | @none space spaces' =>
    cases all
    have opened : skipSpace (before ++ ('[' :: (space ++ [']']) ++ rest)) =
        '[' :: (space ++ [']'] ++ rest) := skipSpace_spaces spaces rfl _
    have split : space ++ [']'] ++ rest = space ++ ']' :: rest := by simp
    simp only [readSamples, opened, split, firstElement_close spaces', closeList_text spaces',
      Reading.giving]
  | @some space item others items spaces' follow =>
    cases all with
    | @cons _ n _ samples spells all =>
      have opened :
          skipSpace (before ++ ('[' :: (space ++ (item ++ (others ++ [']']))) ++ rest)) =
            '[' :: (space ++ (item ++ (others ++ [']'])) ++ rest) :=
        skipSpace_spaces spaces rfl _
      have split : space ++ (item ++ (others ++ [']'])) ++ rest =
          space ++ (item ++ (others ++ ']' :: rest)) := by simp
      have first := firstElement_text spaces' (accepts_word.value spells).starts
        (others ++ ']' :: rest)
      have read := accepts_word.here spells (ends_others follow (.inl rfl) rest)
      simp only [readSamples, opened, split, first, read]
      exact moreSamples_spelt follow all

theorem accepts_samples : Accepts readSamples SamplesSpell where
  sound := exists_sample_list
  complete := fun spaces spells _ => readSamples_spelt spaces spells
  value := by
    intro spelt samples spells
    obtain ⟨items, enclosed, all⟩ := spells
    exact .list enclosed (values_of_forall₂ accepts_word.value all)

end MicroBench.Decoding
