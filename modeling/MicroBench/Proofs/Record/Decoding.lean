import MicroBench.Failure
import MicroBench.Proofs.Json.Quotes
import MicroBench.Proofs.Json.Reread
import MicroBench.Proofs.Text.Trimmed

/-! Reading the text of a record gives the record back, but for its rates: those are
what the reader makes of their decimals. -/
namespace MicroBench

open Json Encoding

namespace Encoding

def memberText (field : Field) (value : List Char) : List Char :=
  '"' :: (field.name.toList ++ '"' :: ':' :: value)

theorem flatten_member (field : Field) (value : List (List Char)) :
    (member field value).flatten = memberText field value.flatten := by
  simp [member, memberText]

theorem flatten_commaSeparated (group : List (List Char)) (groups : List (List (List Char))) :
    (commaSeparated (group :: groups)).flatten =
      group.flatten ++ groups.flatMap fun group => ',' :: group.flatten := by
  induction groups generalizing group with
  | nil => simp [commaSeparated, List.intercalate]
  | cons next groups ih =>
    have := ih next
    simp only [commaSeparated, List.intercalate, List.intersperse_cons_cons, List.flatten_cons,
      List.flatten_append, List.flatMap_cons] at this ⊢
    simp [this]

def moreSamplesText (samples : List UInt64) : List Char :=
  samples.flatMap fun n => ',' :: wordText n

def samplesText : List UInt64 → List Char
  | [] => []
  | n :: samples =>
    ',' :: memberText .samples ('[' :: (wordText n ++ (moreSamplesText samples ++ [']'])))

end Encoding

theorem Record.encode_eq (r : Record) : r.encode =
    '\x7b' :: (memberText .iterations (wordText r.iterations) ++
      ',' :: (memberText .totalNanos (wordText r.totalNanos) ++
      ',' :: (memberText .nanosPerOp (rateText r.nanosPerOp) ++
      ',' :: (memberText .opsPerSec (rateText r.opsPerSec) ++
      ',' :: (memberText .bytesPerOp (wordText r.bytesPerOp) ++
      ',' :: (memberText .allocsPerOp (wordText r.allocsPerOp) ++
      (samplesText r.samples ++ ['\x7d']))))))) := by
  cases samples : r.samples with
  | nil =>
    simp only [encode, fragments, members, samples]
    simp [flatten_commaSeparated, flatten_member, samplesText]
  | cons n others =>
    simp only [encode, fragments, members, samples]
    simp [flatten_commaSeparated, flatten_member, samplesText, moreSamplesText,
      List.flatMap_map]

namespace Decoding

variable {rest : List Char}

/-! ### Keys -/

def IsPlain (c : Char) : Prop := c ≠ '"' ∧ c ≠ '\\' ∧ ¬ c.toNat < 0x20

instance (c : Char) : Decidable (IsPlain c) := inferInstanceAs (Decidable (_ ∧ _))

theorem spelled_of_plain {name : List Char} (plain : ∀ c ∈ name, IsPlain c) :
    Spelled name name := by
  induction name with
  | nil => exact .nil
  | cons c name ih =>
    obtain ⟨⟨quote, backslash, control⟩, others⟩ := List.forall_mem_cons.1 plain
    exact .plain quote backslash (Nat.not_lt.1 control) (ih others)

theorem name_plain (field : Field) : ∀ c ∈ field.name.toList, IsPlain c := by
  have plain : field.name.toList.all (fun c => IsPlain c) = true := by cases field <;> decide
  simpa only [List.all_eq_true, decide_eq_true_eq] using plain

theorem ofName?_name (field : Field) : Field.ofName? field.name.toList = some field := by
  cases field <;> decide

/-- A key leads to its value, unless it was read before. -/
theorem readMember_name (draft : Draft) (field : Field) (text : List Char) :
    readMember draft (field.name.toList ++ '"' :: ':' :: text) =
      if draft.has field then .error (.before (.duplicateField field) (afterObject (':' :: text)))
      else draft.fill field text := by
  have colon : readColon (':' :: text) = .ok text := rfl
  rw [readMember, readString_text (spelled_of_plain (name_plain field))]
  simp only [List.reverse_nil, List.nil_append, ofName?_name, colon]

theorem moreMembers_memberText (draft : Draft) (field : Field) (value text : List Char) :
    moreMembers draft (',' :: (memberText field value ++ text)) =
      match
        if draft.has field then
          .error (.before (.duplicateField field) (afterObject (':' :: (value ++ text))))
        else draft.fill field (value ++ text) with
      | .error fault => .error fault
      | .ok (draft, rest) => moreMembers draft rest := by
  have key : nextKey (',' :: (memberText field value ++ text)) =
      .ok (some (field.name.toList ++ '"' :: ':' :: (value ++ text))) := by
    rw [memberText, List.cons_append, List.append_assoc]
    rfl
  have turn := moreMembers_eq draft (',' :: (memberText field value ++ text))
  simp only [key, readMember_name] at turn
  exact turn

theorem moreMembers_end (draft : Draft) :
    moreMembers draft ('\x7d' :: rest) = .ok (draft, '\x7d' :: rest) := by
  rw [moreMembers]
  rfl

theorem readMembers_memberText (field : Field) (value text : List Char) :
    readMembers (memberText field value ++ text) =
      match Draft.blank.fill field (value ++ text) with
      | .error fault => .error fault
      | .ok (draft, rest) => moreMembers draft rest := by
  have key : firstKey (memberText field value ++ text) =
      .ok (some (field.name.toList ++ '"' :: ':' :: (value ++ text))) := by
    rw [memberText, List.cons_append, List.append_assoc]
    rfl
  have absent : Draft.blank.has field = false := by cases field <;> rfl
  cases filled : Draft.blank.fill field (value ++ text) <;>
    simp only [readMembers, key, readMember_name, absent, Bool.false_eq_true, if_false, filled]

/-! ### Values -/

theorem exists_wordText (n : UInt64) : ∃ c text, wordText n = c :: text ∧ c.isDigit = true := by
  cases digits : wordText n with
  | nil => exact absurd digits Nat.toDigits_ne_nil
  | cons c text => exact ⟨c, text, rfl, isDigit_of_mem_digits (digits ▸ List.mem_cons_self)⟩

theorem element_of_isDigit {c : Char} (digit : c.isDigit = true) (text : List Char) :
    firstElement (c :: text) = .ok (some (c :: text)) ∧
      nextElement (',' :: c :: text) = .ok (some (c :: text)) := by
  have stay : skipSpace (c :: text) = c :: text := by
    rw [skipSpace, List.dropWhile_cons, isSpace_of_startsNumber (startsNumber_of_isDigit digit)]
    rfl
  have unlike : c ≠ ']' := by
    rintro rfl
    cases digit
  have comma : skipSpace (',' :: c :: text) = ',' :: c :: text := rfl
  constructor
  · simp [firstElement, stay, unlike]
  · simp [nextElement, comma, stay, unlike]

theorem delimited_comma (text : List Char) : Delimited (',' :: text) := ⟨',', text, rfl, .inl rfl⟩

theorem delimited_moreSamplesText (samples : List UInt64) (rest : List Char) :
    Delimited (moreSamplesText samples ++ ']' :: rest) := by
  cases samples with
  | nil => exact ⟨']', rest, rfl, .inr (.inl rfl)⟩
  | cons n samples => exact delimited_comma _

theorem delimited_samplesText (samples : List UInt64) (rest : List Char) :
    Delimited (samplesText samples ++ '\x7d' :: rest) := by
  cases samples with
  | nil => exact ⟨'\x7d', rest, rfl, .inr (.inr rfl)⟩
  | cons n samples => exact delimited_comma _

/-- The samples that were written are read. -/
theorem moreSamples_text (samples done : List UInt64) :
    moreSamples done (moreSamplesText samples ++ ']' :: rest) =
      .ok (done.reverse ++ samples, rest) := by
  induction samples generalizing done with
  | nil =>
    rw [moreSamples, List.append_nil]
    rfl
  | cons n samples ih =>
    have read := readWord_wordText n (delimited_moreSamplesText samples rest)
    obtain ⟨c, digits, text, digit⟩ := exists_wordText n
    have element := (element_of_isDigit digit
      (digits ++ (moreSamplesText samples ++ ']' :: rest))).2
    rw [← List.cons_append, ← text] at element
    have front : moreSamplesText (n :: samples) ++ ']' :: rest =
        ',' :: (wordText n ++ (moreSamplesText samples ++ ']' :: rest)) := by
      simp [moreSamplesText]
    rw [front, moreSamples_eq, element]
    simp only [read]
    rw [ih, List.reverse_cons, List.append_assoc]
    rfl

theorem readSamples_text (n : UInt64) (samples : List UInt64) :
    readSamples ('[' :: (wordText n ++ (moreSamplesText samples ++ ']' :: rest))) =
      .ok (n :: samples, rest) := by
  have read := readWord_wordText n (delimited_moreSamplesText samples rest)
  obtain ⟨c, digits, text, digit⟩ := exists_wordText n
  have element := (element_of_isDigit digit (digits ++ (moreSamplesText samples ++ ']' :: rest))).1
  rw [← List.cons_append, ← text] at element
  have opened (text : List Char) : skipSpace ('[' :: text) = '[' :: text := rfl
  simp only [readSamples, opened, element, read]
  exact moreSamples_text samples [n]

/-! ### Records -/

/-- The samples are the last member, and what follows them closes the object. -/
theorem moreMembers_samplesText (draft : Draft) (absent : draft.samples = none)
    (samples : List UInt64) :
    ∃ found, moreMembers draft (samplesText samples ++ ['\x7d']) =
        .ok ({ draft with samples := found }, ['\x7d']) ∧
      found.getD [] = samples := by
  cases samples with
  | nil =>
    refine ⟨none, ?_, rfl⟩
    rw [← absent]
    exact moreMembers_end draft
  | cons n samples =>
    refine ⟨some (n :: samples), ?_, rfl⟩
    have has : draft.has .samples = false := by rw [Draft.has, absent, Option.isSome_none]
    have value := @readSamples_text ['\x7d'] n samples
    rw [samplesText, List.cons_append, moreMembers_memberText, has]
    simp only [List.cons_append, List.append_assoc, List.nil_append] at value ⊢
    simp only [Bool.false_eq_true, if_false, Draft.fill, value, Reading.mapValue, moreMembers_end]

end Decoding

namespace Record

open Decoding

variable {r : Record}

/-- The same record, its rates written and read again. There is none if the reader finds one of them
too large. -/
def reread (r : Record) : Option Record :=
  match r.nanosPerOp.reread, r.opsPerSec.reread with
  | some nanosPerOp, some opsPerSec => some { r with nanosPerOp, opsPerSec }
  | _, _ => none

/-- The text of a record is read as the record with its rates read again, and if there is no such
record it is not read at all. -/
theorem read_encode (finite : r.nanosPerOp.isFinite) (finite' : r.opsPerSec.isFinite) :
    (∀ s, r.reread = some s → Decoding.read r.encode = .ok s) ∧
      (r.reread = none → ∃ fault, Decoding.read r.encode = .error fault) := by
  have opened (text : List Char) : skipSpace ('\x7b' :: text) = '\x7b' :: text := rfl
  have word (n : UInt64) (text : List Char) := readWord_wordText n (delimited_comma text)
  have rate (text : List Char) := readRate_rateText finite (delimited_comma text)
  have rate' (text : List Char) := readRate_rateText finite' (delimited_comma text)
  have last := readWord_wordText r.allocsPerOp (delimited_samplesText r.samples [])
  rw [encode_eq]
  simp only [Decoding.read, opened, readObject, readMembers_memberText, moreMembers_memberText,
    Draft.fill, word, Reading.mapValue, Draft.blank, Draft.has, Option.isSome_none,
    Bool.false_eq_true, if_false, rate, reread]
  cases period : r.nanosPerOp.reread with
  | none => simp
  | some p =>
    simp only [rate', moreMembers_memberText, Draft.has, Option.isSome_none, Bool.false_eq_true,
      if_false, Draft.fill, Reading.mapValue]
    cases perSecond : r.opsPerSec.reread with
    | none => simp
    | some q =>
      obtain ⟨found, members, samples⟩ := moreMembers_samplesText
        ⟨some r.iterations, some r.totalNanos, some p, some q, some r.bytesPerOp,
          some r.allocsPerOp, none⟩ rfl r.samples
      simp only [word, last, moreMembers_memberText, Draft.has, Option.isSome_none,
        Bool.false_eq_true, if_false, Draft.fill, Reading.mapValue, members, Draft.finish, samples,
        Option.getD_some]
      constructor
      · rintro s ⟨⟩
        rfl
      · intro missing
        cases missing

theorem exists_encode (r : Record) : ∃ body, r.encode = '\x7b' :: (body ++ ['\x7d']) := by
  refine ⟨(commaSeparated r.members).flatten, ?_⟩
  simp [encode, fragments]

/-- White space around the text of a record does not matter. The record with its rates read again
comes back if it has no defect, and its first defect is reported if it has one. -/
theorem ofJson_encode (finite : r.nanosPerOp.isFinite) (finite' : r.opsPerSec.isFinite)
    {before after : String} (blank : ∀ c ∈ before.toList, Text.isBlank c)
    (blank' : ∀ c ∈ after.toList, Text.isBlank c) :
    (∀ s, r.reread = some s → ofJson (before ++ .ofList r.encode ++ after) =
      match s.defect? with
      | some defect => .error (.illFormed defect)
      | none => .ok s) ∧
    (r.reread = none → ∃ cause position,
      ofJson (before ++ .ofList r.encode ++ after) = .error (.json cause position)) := by
  obtain ⟨body, shape⟩ := r.exists_encode
  have text : Text.trimmed (before ++ .ofList r.encode ++ after).toList = r.encode := by
    rw [String.toList_append, String.toList_append, String.toList_ofList, shape]
    rw [List.append_assoc]
    refine Text.trimmed_of_stripped ⟨⟨_, _, blank, blank', rfl⟩, ?_, ?_⟩
    · rintro c ⟨⟩
      rfl
    · intro c member
      rw [← List.cons_append, List.getLast?_append] at member
      cases member
      rfl
  obtain ⟨accepted, refused⟩ := read_encode finite finite'
  rw [ofJson, text, parse]
  constructor
  · intro s result
    cases defect : s.defect? <;> simp only [accepted s result, defect]
  · intro missing
    obtain ⟨fault, read⟩ := refused missing
    rw [read]
    exact ⟨_, _, rfl⟩

/-- What comes back from the text of a record is the record with its rates read again, if that is
well-formed. -/
theorem ofJson_encode_eq_ok (finite : r.nanosPerOp.isFinite) (finite' : r.opsPerSec.isFinite)
    {before after : String} (blank : ∀ c ∈ before.toList, Text.isBlank c)
    (blank' : ∀ c ∈ after.toList, Text.isBlank c) (s : Record) :
    ofJson (before ++ .ofList r.encode ++ after) = .ok s ↔ r.reread = some s ∧ s.WellFormed := by
  obtain ⟨accepted, refused⟩ := ofJson_encode finite finite' blank blank'
  cases result : r.reread with
  | none =>
    obtain ⟨cause, position, failed⟩ := refused result
    simp [failed]
  | some t =>
    rw [accepted t result]
    constructor
    · intro same
      cases defect : t.defect? with
      | some d => simp [defect] at same
      | none =>
        simp only [defect, Except.ok.injEq] at same
        exact ⟨congrArg _ same, same ▸ defect⟩
    · rintro ⟨⟨⟩, wellFormed⟩
      rw [wellFormed]

end Record

end MicroBench
