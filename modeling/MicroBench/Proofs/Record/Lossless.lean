import MicroBench.Proofs.Binary64.Bits
import MicroBench.Proofs.Json.Exact
import MicroBench.Proofs.Record.RoundTrip

/-! The text of a record loses nothing. It is one object without white space that has the
fields in their order, and where each value ends can be seen. So two records that are well
formed have the same text only if they agree in every field, and in every bit of a rate. -/
namespace MicroBench

open Json Encoding Decoding

/-! ### No white space -/

def Text.Dense (text : List Char) : Prop := ∀ c ∈ text, isBlank c = false

instance (text : List Char) : Decidable (Text.Dense text) :=
  List.decidableBAll _ text

namespace Text

variable {a b : List Char} {c : Char}

theorem dense_nil : Dense [] := fun _ member => nomatch member

theorem dense_cons (here : isBlank c = false) (others : Dense a) : Dense (c :: a) :=
  List.forall_mem_cons.2 ⟨here, others⟩

theorem dense_append (first : Dense a) (second : Dense b) : Dense (a ++ b) := by
  intro c member
  rcases List.mem_append.1 member with front | back
  · exact first c front
  · exact second c back

theorem isBlank_of_isDigit (digit : c.isDigit = true) : isBlank c = false := by
  have range : 48 ≤ c.toNat ∧ c.toNat ≤ 57 := by
    simp only [Char.isDigit, Bool.and_eq_true, decide_eq_true_eq, ge_iff_le,
      UInt32.le_iff_toNat_le] at digit
    exact digit
  simp only [isBlank, Bool.or_eq_false_iff, Bool.and_eq_false_iff, decide_eq_false_iff_not,
    beq_eq_false_iff_ne]
  omega

end Text

namespace Encoding

open Text

variable {field : Field} {value : List Char}

theorem dense_wordText (n : UInt64) : Dense (wordText n) := fun _ member =>
  isBlank_of_isDigit (isDigit_of_mem_digits member)

theorem dense_numeral (n : Numeral) : Dense n.text := by
  have marks : Dense Numeral.marks := by decide
  intro c member
  rcases Numeral.mem_text member with digit | mark
  · exact isBlank_of_isDigit digit
  · exact marks c mark

theorem dense_rateText (x : Binary64) : Dense (rateText x) := by
  cases x with
  | nan => exact (by decide : Dense ['n', 'u', 'l', 'l'])
  | infinite => exact (by decide : Dense ['n', 'u', 'l', 'l'])
  | finite negative quanta rep =>
    obtain ⟨n, text, -⟩ := exists_numeral_rateText negative rep
    rw [← text]
    exact dense_numeral n

theorem dense_memberText (dense : Dense value) : Dense (memberText field value) := by
  have name : Dense field.name.toList := by cases field <;> decide
  have colon : Dense (':' :: value) := dense_cons rfl dense
  exact dense_cons rfl (dense_append name (dense_cons rfl colon))

theorem dense_moreSamplesText (samples : List UInt64) : Dense (moreSamplesText samples) := by
  induction samples with
  | nil => exact dense_nil
  | cons n samples ih => exact dense_append (dense_cons rfl (dense_wordText n)) ih

theorem dense_samplesText (samples : List UInt64) : Dense (samplesText samples) := by
  cases samples with
  | nil => exact dense_nil
  | cons n samples =>
    have list := dense_append (dense_wordText n)
      (dense_append (dense_moreSamplesText samples) (dense_cons (c := ']') rfl dense_nil))
    exact dense_cons rfl (dense_memberText (dense_cons rfl list))

end Encoding

theorem Record.dense_encode (r : Record) : Text.Dense r.encode := by
  have comma {field : Field} {value rest : List Char} (dense : Text.Dense value)
      (others : Text.Dense rest) : Text.Dense (memberText field value ++ ',' :: rest) :=
    Text.dense_append (dense_memberText dense) (Text.dense_cons rfl others)
  have last : Text.Dense (memberText .allocsPerOp (wordText r.allocsPerOp) ++
      (samplesText r.samples ++ ['\x7d'])) :=
    Text.dense_append (dense_memberText (dense_wordText r.allocsPerOp))
      (Text.dense_append (dense_samplesText r.samples) (Text.dense_cons rfl Text.dense_nil))
  rw [encode_eq]
  exact Text.dense_cons rfl (comma (dense_wordText _) (comma (dense_wordText _)
    (comma (dense_rateText _) (comma (dense_rateText _) (comma (dense_wordText _) last)))))

/-! ### One object -/

namespace Json

/-- Items that only commas separate, between brackets. -/
theorem enclosed_commaSeparated (opening closing : Char) (groups : List (List (List Char))) :
    Enclosed opening closing (groups.map List.flatten)
      (opening :: ((commaSeparated groups).flatten ++ [closing])) := by
  have nothing : Spaces [] := by simp [Spaces]
  have others (groups : List (List (List Char))) : Others (groups.map List.flatten)
      (groups.flatMap fun group => ',' :: group.flatten) := by
    induction groups with
    | nil => exact .none nothing
    | cons group groups ih => exact .more nothing nothing ih
  cases groups with
  | nil => exact .none nothing
  | cons group groups =>
    rw [flatten_commaSeparated, List.append_assoc]
    exact .some nothing (others groups)

theorem value_wordText (n : UInt64) : Value (wordText n) := by
  have number : Value (Numeral.text
      ⟨false, wordText n, [], none, canonical_toDigits n.toNat, by simp⟩) := .number _
  simpa [Numeral.text, Numeral.signText, Numeral.fractionText, Numeral.exponentText] using number

theorem value_rateText {x : Binary64} (finite : x.isFinite) : Value (rateText x) := by
  obtain ⟨negative, quanta, rep, rfl⟩ := Binary64.exists_finite finite
  obtain ⟨n, text, -⟩ := exists_numeral_rateText negative rep
  rw [← text]
  exact .number n

theorem value_samples (samples : List UInt64) :
    Value ('[' :: ((commaSeparated (samples.map fun n => [wordText n])).flatten ++ [']'])) := by
  apply ValueWith.list (enclosed_commaSeparated '[' ']' _)
  intro item member
  rw [List.map_map] at member
  obtain ⟨n, -, rfl⟩ := List.mem_map.1 member
  simpa using value_wordText n

def Member.dense (field : Field) (value : List Char) : Member :=
  ⟨field.name.toList, [], [], value, by simp [Spaces], by simp [Spaces]⟩

theorem Member.text_dense (field : Field) (value : List (List Char)) :
    (dense field value.flatten).text = (member field value).flatten := by
  rw [flatten_member]
  rfl

end Json

namespace Record

variable {r s : Record}

/-- The fields that the text of a record has: all of them, in their order, but the samples only if
there are any. -/
def writtenFields (r : Record) : List Field :=
  Field.all.filter fun field => field ≠ .samples ∨ r.samples ≠ []

def valueFragments (r : Record) : Field → List (List Char)
  | .iterations => [wordText r.iterations]
  | .totalNanos => [wordText r.totalNanos]
  | .nanosPerOp => [rateText r.nanosPerOp]
  | .opsPerSec => [rateText r.opsPerSec]
  | .bytesPerOp => [wordText r.bytesPerOp]
  | .allocsPerOp => [wordText r.allocsPerOp]
  | .samples => [['[']] ++ commaSeparated (r.samples.map fun n => [wordText n]) ++ [[']']]

theorem members_eq (r : Record) :
    r.members = r.writtenFields.map fun field => member field (r.valueFragments field) := by
  by_cases empty : r.samples = [] <;>
    simp [members, writtenFields, Field.all, valueFragments, empty]

theorem value_valueFragments (finite : r.nanosPerOp.isFinite) (finite' : r.opsPerSec.isFinite)
    (field : Field) : Value (r.valueFragments field).flatten := by
  cases field with
  | iterations | totalNanos | bytesPerOp | allocsPerOp =>
    simpa [valueFragments] using value_wordText _
  | nanosPerOp => simpa [valueFragments] using value_rateText finite
  | opsPerSec => simpa [valueFragments] using value_rateText finite'
  | samples => simpa [valueFragments] using value_samples r.samples

/-- The text is a single object without white space, whose keys are the names of the fields. -/
structure Compact (r : Record) (text : List Char) : Prop where
  object : ∃ members : List Member, Enclosed '\x7b' '\x7d' (members.map Member.text) text ∧
    members.map Member.key = r.writtenFields.map (·.name.toList) ∧ ∀ m ∈ members, Value m.value
  dense : Text.Dense text

/-- The text of a record is one object without white space. -/
theorem compact_encode (finite : r.nanosPerOp.isFinite) (finite' : r.opsPerSec.isFinite) :
    r.Compact r.encode := by
  have object := enclosed_commaSeparated '\x7b' '\x7d' r.members
  have text : r.encode = '\x7b' :: ((commaSeparated r.members).flatten ++ ['\x7d']) := by
    simp [encode, fragments]
  rw [← text, members_eq, List.map_map] at object
  refine ⟨⟨r.writtenFields.map fun field => .dense field (r.valueFragments field).flatten,
    ?_, ?_, ?_⟩, r.dense_encode⟩
  · rw [List.map_map]
    have same : Member.text ∘ (fun field => .dense field (r.valueFragments field).flatten) =
        List.flatten ∘ fun field => member field (r.valueFragments field) :=
      funext fun field => Member.text_dense field _
    rw [same]
    exact object
  · rw [List.map_map]
    rfl
  · intro m written
    obtain ⟨field, -, rfl⟩ := List.mem_map.1 written
    exact value_valueFragments finite finite' field

end Record

/-! ### Values apart -/

namespace Encoding

variable {m n : UInt64} {x y : Binary64} {rest rest' : List Char} {field : Field}
  {value value' : List Char}

/-- Where the text of a count ends can be seen, and it tells the count. -/
theorem wordText_append_inj (stop : Delimited rest) (stop' : Delimited rest')
    (same : wordText n ++ rest = wordText m ++ rest') : n = m ∧ rest = rest' := by
  obtain ⟨digits, tails⟩ := digits_append_inj (canonical_toDigits n.toNat).digit
    (canonical_toDigits m.toNat).digit stop.startsWithDigit stop'.startsWithDigit same
  refine ⟨?_, tails⟩
  rw [← UInt64.toNat_inj, ← Nat.ofDigitChars_ten_toDigits (n := n.toNat), digits,
    Nat.ofDigitChars_ten_toDigits]

theorem ends_of_delimited (stop : Delimited rest) : Ends rest := by
  obtain ⟨c, after, rfl, closes⟩ := stop
  exact .inr ⟨c, after, rfl, .inr closes⟩

/-- Skipping the text of a rate leads to what follows it. -/
theorem skipNumber_rateText (finite : x.isFinite) (stop : Delimited rest) :
    skipNumber (rateText x ++ rest) = .ok rest := by
  obtain ⟨negative, quanta, rep, rfl⟩ := Binary64.exists_finite finite
  obtain ⟨n, text, -⟩ := exists_numeral_rateText negative rep
  rw [← text]
  exact skipNumber_text n (endsNumber_of_ends (ends_of_delimited stop) _ _)

/-- Where the text of a rate ends can be seen, and it tells the rate with its sign. -/
theorem rateText_append_inj (finite : x.isFinite) (finite' : y.isFinite) (stop : Delimited rest)
    (stop' : Delimited rest') (same : rateText x ++ rest = rateText y ++ rest') :
    x = y ∧ rest = rest' := by
  have skipped := skipNumber_rateText finite stop
  rw [same, skipNumber_rateText finite' stop', Except.ok.injEq] at skipped
  subst skipped
  exact ⟨rateText_inj finite finite' (List.append_cancel_right same), rfl⟩

theorem memberText_inj (same : memberText field value = memberText field value') :
    value = value' := by
  simpa [memberText] using same

theorem memberText_append_inj
    (same : memberText field value ++ rest = memberText field value' ++ rest') :
    value ++ rest = value' ++ rest' := by
  simpa [memberText] using same

theorem moreSamplesText_inj {samples samples' : List UInt64}
    (same : moreSamplesText samples ++ [']'] = moreSamplesText samples' ++ [']']) :
    samples = samples' := by
  induction samples generalizing samples' with
  | nil =>
    cases samples' with
    | nil => rfl
    | cons => cases same
  | cons n samples ih =>
    cases samples' with
    | nil => cases same
    | cons n' samples' =>
      have front (n : UInt64) (samples : List UInt64) : moreSamplesText (n :: samples) ++ [']'] =
          ',' :: (wordText n ++ (moreSamplesText samples ++ [']'])) := by
        simp [moreSamplesText]
      rw [front, front] at same
      obtain ⟨here, others⟩ := wordText_append_inj (delimited_moreSamplesText samples [])
        (delimited_moreSamplesText samples' []) (List.cons.inj same).2
      rw [here, ih others]

theorem samplesText_inj {samples samples' : List UInt64}
    (same : samplesText samples = samplesText samples') : samples = samples' := by
  cases samples with
  | nil =>
    cases samples' with
    | nil => rfl
    | cons => cases same
  | cons n samples =>
    cases samples' with
    | nil => cases same
    | cons n' samples' =>
      have list := memberText_inj (List.cons.inj same).2
      obtain ⟨here, others⟩ := wordText_append_inj (delimited_moreSamplesText samples [])
        (delimited_moreSamplesText samples' []) (List.cons.inj list).2
      rw [here, moreSamplesText_inj others]

end Encoding

namespace Record

variable {r s : Record}

structure SameBits (r s : Record) : Prop where
  iterations : r.iterations = s.iterations
  totalNanos : r.totalNanos = s.totalNanos
  nanosPerOp : r.nanosPerOp.toBits = s.nanosPerOp.toBits
  opsPerSec : r.opsPerSec.toBits = s.opsPerSec.toBits
  bytesPerOp : r.bytesPerOp = s.bytesPerOp
  allocsPerOp : r.allocsPerOp = s.allocsPerOp
  samples : r.samples = s.samples

theorem sameBits_iff : r.SameBits s ↔ r = s := by
  constructor
  · rintro ⟨iterations, totalNanos, nanosPerOp, opsPerSec, bytesPerOp, allocsPerOp, samples⟩
    cases r
    cases s
    simp_all [Binary64.toBits_inj]
  · rintro rfl
    exact ⟨rfl, rfl, rfl, rfl, rfl, rfl, rfl⟩

/-- Well-formed records with the same text are the same. -/
theorem encode_inj (wellFormed : r.WellFormed) (wellFormed' : s.WellFormed)
    (same : r.encode = s.encode) : r = s := by
  obtain ⟨period, perSecond⟩ := finite_of_wellFormed wellFormed
  obtain ⟨period', perSecond'⟩ := finite_of_wellFormed wellFormed'
  have comma := delimited_comma
  rw [encode_eq, encode_eq] at same
  obtain ⟨iterations, same⟩ := wordText_append_inj (comma _) (comma _)
    (memberText_append_inj (List.cons.inj same).2)
  obtain ⟨totalNanos, same⟩ := wordText_append_inj (comma _) (comma _)
    (memberText_append_inj (List.cons.inj same).2)
  obtain ⟨nanosPerOp, same⟩ := rateText_append_inj period period' (comma _) (comma _)
    (memberText_append_inj (List.cons.inj same).2)
  obtain ⟨opsPerSec, same⟩ := rateText_append_inj perSecond perSecond' (comma _) (comma _)
    (memberText_append_inj (List.cons.inj same).2)
  obtain ⟨bytesPerOp, same⟩ := wordText_append_inj (comma _) (comma _)
    (memberText_append_inj (List.cons.inj same).2)
  obtain ⟨allocsPerOp, same⟩ := wordText_append_inj (delimited_samplesText r.samples [])
    (delimited_samplesText s.samples []) (memberText_append_inj (List.cons.inj same).2)
  have samples := samplesText_inj (List.append_cancel_right same)
  cases r
  cases s
  simp_all

/-- Well-formed records have the same text only if they agree in every field, the rates bit by bit;
and the text of each is a single object without white space, with the fields in their order. -/
theorem toJson_lossless {r s : Record} (accepted : r.WellFormed) (accepted' : s.WellFormed) :
    (r.toJson = s.toJson ↔ r.SameBits s) ∧ ∃ json, r.toJson = .ok json ∧ r.Compact json.toList := by
  constructor
  · rw [sameBits_iff]
    constructor
    · intro same
      rw [toJson_of_wellFormed accepted, toJson_of_wellFormed accepted', Except.ok.injEq,
        String.ofList_inj] at same
      exact encode_inj accepted accepted' same
    · rintro rfl
      rfl
  · obtain ⟨finite, finite'⟩ := finite_of_wellFormed accepted
    refine ⟨_, toJson_of_wellFormed accepted, ?_⟩
    rw [String.toList_ofList]
    exact compact_encode finite finite'

/-- Nothing was measured, and the rates are zeros of these signs. -/
def idle (below below' : Bool) : Record where
  iterations := 0
  totalNanos := 0
  nanosPerOp := .finite below 0 Binary64.representable_zero
  opsPerSec := .finite below' 0 Binary64.representable_zero
  bytesPerOp := 0
  allocsPerOp := 0
  samples := []

/-- The period is the next number after half a second. -/
def overHalf : Record := { halfSeconds with nanosPerOp := .ofBits 0x41bdcd6500000001 }

/-- The two zeros are written differently, and so are two numbers next to each other. -/
theorem toJson_lossless_neighbours :
    ((idle false false).WellFormed ∧ (idle false true).WellFormed ∧
      (idle false false).toJson ≠ (idle false true).toJson) ∧
    halfSeconds.WellFormed ∧ overHalf.WellFormed ∧
      halfSeconds.nanosPerOp.toBits + 1 = overHalf.nanosPerOp.toBits ∧
      halfSeconds.toJson ≠ overHalf.toJson ∧
      ∃ json, overHalf.toJson = .ok json ∧ overHalf.Compact json.toList := by
  constructor
  · have accepted : (idle false false).WellFormed := by decide +kernel
    have accepted' : (idle false true).WellFormed := by decide +kernel
    refine ⟨accepted, accepted', ?_⟩
    intro same
    have bits := (toJson_lossless accepted accepted').1.1 same
    exact absurd bits.opsPerSec (by decide +kernel)
  · have accepted : overHalf.WellFormed := by decide +kernel
    refine ⟨halfSeconds_wellFormed, accepted, by decide +kernel, ?_, ?_⟩
    · intro same
      have bits := (toJson_lossless halfSeconds_wellFormed accepted).1.1 same
      exact absurd bits.nanosPerOp (by decide +kernel)
    · exact (toJson_lossless accepted accepted).2

end Record

end MicroBench
