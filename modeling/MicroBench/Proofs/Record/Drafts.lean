import MicroBench.Proofs.Record.Spelling

/-! What is known of a record while its text is read. A draft agrees with a record if
nothing else was read for any field; every value that is read rules out the records that
hold another one. -/
namespace MicroBench

open Json Decoding

namespace Field

def Spells (field : Field) (text : List Char) (r : Record) : Prop :=
  match field with
  | iterations => WordSpells text r.iterations
  | totalNanos => WordSpells text r.totalNanos
  | nanosPerOp => RateSpells text r.nanosPerOp
  | opsPerSec => RateSpells text r.opsPerSec
  | bytesPerOp => WordSpells text r.bytesPerOp
  | allocsPerOp => WordSpells text r.allocsPerOp
  | samples => SamplesSpell text r.samples

/-- The field may be left out, and the record holds what it is then. -/
def Omitted (field : Field) (r : Record) : Prop :=
  match field with
  | bytesPerOp => r.bytesPerOp = 0
  | allocsPerOp => r.allocsPerOp = 0
  | samples => r.samples = []
  | _ => False

theorem forall_iff {P : Field → Prop} :
    (∀ field, P field) ↔ P iterations ∧ P totalNanos ∧ P nanosPerOp ∧ P opsPerSec ∧
      P bytesPerOp ∧ P allocsPerOp ∧ P samples := by
  constructor
  · intro all
    exact ⟨all _, all _, all _, all _, all _, all _, all _⟩
  · rintro ⟨h1, h2, h3, h4, h5, h6, h7⟩ field
    cases field <;> assumption

/-- What spells a field is a value by the grammar. -/
theorem value_of_spells {field : Field} {text : List Char} {r : Record}
    (spells : field.Spells text r) : Value text := by
  cases field
  case nanosPerOp => exact accepts_rate.value spells
  case opsPerSec => exact accepts_rate.value spells
  case samples => exact accepts_samples.value spells
  all_goals exact accepts_word.value spells

end Field

namespace Decoding.Draft

variable {d d' d'' : Draft} {r : Record}

def AgreesOn (d : Draft) (r : Record) : Field → Prop
  | .iterations => ∀ n ∈ d.iterations, n = r.iterations
  | .totalNanos => ∀ n ∈ d.totalNanos, n = r.totalNanos
  | .nanosPerOp => ∀ x ∈ d.nanosPerOp, x = r.nanosPerOp
  | .opsPerSec => ∀ x ∈ d.opsPerSec, x = r.opsPerSec
  | .bytesPerOp => ∀ n ∈ d.bytesPerOp, n = r.bytesPerOp
  | .allocsPerOp => ∀ n ∈ d.allocsPerOp, n = r.allocsPerOp
  | .samples => ∀ ns ∈ d.samples, ns = r.samples

def Agrees (d : Draft) (r : Record) : Prop := ∀ field, d.AgreesOn r field

theorem agreesOn_of_absent {field : Field} (absent : d.has field = false) (r : Record) :
    d.AgreesOn r field := by
  cases field <;> intro x member <;> simp_all [has]

theorem agrees_blank (r : Record) : blank.Agrees r := by
  intro field
  exact agreesOn_of_absent (by cases field <;> rfl) r

/-! ### Complete drafts -/

theorem finish_eq_ok_iff_fields :
    d.finish = .ok r ↔ d.iterations = some r.iterations ∧ d.totalNanos = some r.totalNanos ∧
      d.nanosPerOp = some r.nanosPerOp ∧ d.opsPerSec = some r.opsPerSec ∧
      d.bytesPerOp.getD 0 = r.bytesPerOp ∧ d.allocsPerOp.getD 0 = r.allocsPerOp ∧
      d.samples.getD [] = r.samples := by
  obtain ⟨iterations, totalNanos, nanosPerOp, opsPerSec, bytesPerOp, allocsPerOp, samples⟩ := r
  unfold finish
  split <;> simp_all

/-- A draft makes a record if it agrees with it, and what is missing may be left out. -/
theorem finish_eq_ok_iff :
    d.finish = .ok r ↔ d.Agrees r ∧ ∀ field, d.has field = false → field.Omitted r := by
  have required {α : Type} (o : Option α) (x : α) :
      o = some x ↔ (∀ y ∈ o, y = x) ∧ ¬ o.isSome = false := by
    cases o <;> simp
  have optional {α : Type} (o : Option α) (other x : α) :
      o.getD other = x ↔ (∀ y ∈ o, y = x) ∧ (o.isSome = false → x = other) := by
    cases o <;> simp [eq_comm]
  rw [finish_eq_ok_iff_fields, Agrees, Field.forall_iff, Field.forall_iff]
  simp only [AgreesOn, has, Field.Omitted, required, optional]
  tauto

/-! ### What is learned -/

/-- From one draft to the next, it was learned that the record fits, and the fields named came in. -/
structure Learns (d d' : Draft) (Fits : Record → Prop) (Named : Field → Prop) : Prop where
  agrees : ∀ r, d'.Agrees r ↔ d.Agrees r ∧ Fits r
  has : ∀ field, d'.has field = true ↔ d.has field = true ∨ Named field

namespace Learns

variable {Fits Fits' : Record → Prop} {Named Named' : Field → Prop}

theorem trans (learns : d.Learns d' Fits Named) (learns' : d'.Learns d'' Fits' Named') :
    d.Learns d'' (fun r => Fits r ∧ Fits' r) (fun field => Named field ∨ Named' field) := by
  constructor
  · intro r
    rw [learns'.agrees, learns.agrees, and_assoc]
  · intro field
    rw [learns'.has, learns.has, or_assoc]

theorem congr (learns : d.Learns d' Fits Named) (fits : ∀ r, Fits r ↔ Fits' r)
    (named : ∀ field, Named field ↔ Named' field) : d.Learns d' Fits' Named' := by
  constructor
  · intro r
    rw [learns.agrees, fits]
  · intro field
    rw [learns.has, named]

theorem absent (learns : d.Learns d' Fits Named) {field : Field} (absent : d.has field = false)
    (unnamed : ¬ Named field) : d'.has field = false := by
  rw [Bool.eq_false_iff, Ne, learns.has, absent]
  rintro (impossible | named)
  · cases impossible
  · exact unnamed named

theorem absent_left (learns : d.Learns d' Fits Named) {field : Field}
    (absent : d'.has field = false) : d.has field = false := by
  rw [Bool.eq_false_iff] at absent ⊢
  intro present
  exact absent ((learns.has field).2 (.inl present))

end Learns

theorem learns_nothing (d : Draft) {Fits : Record → Prop} {Named : Field → Prop}
    (fits : ∀ r, Fits r) (unnamed : ∀ field, ¬ Named field) : d.Learns d Fits Named := by
  constructor
  · intro r
    exact ⟨fun agrees => ⟨agrees, fits r⟩, And.left⟩
  · intro field
    exact ⟨.inl, fun known => known.resolve_right (unnamed field)⟩

/-! ### Filling in a field -/

/-- Putting a value into its place in a draft, and getting it out of a record. -/
structure Slot (d : Draft) (field : Field) {α : Type} (Spells : List Char → α → Prop)
    (put : α → Draft) (get : Record → α) : Prop where
  spells : ∀ text r, field.Spells text r ↔ Spells text (get r)
  here : ∀ x r, (put x).AgreesOn r field ↔ x = get r
  has : ∀ x, (put x).has field = true
  others : ∀ x other, other ≠ field →
    (∀ r, (put x).AgreesOn r other ↔ d.AgreesOn r other) ∧ (put x).has other = d.has other

namespace Slot

variable {field : Field} {α : Type} {read : List Char → Reading α}
  {Spells : List Char → α → Prop} {put : α → Draft} {get : Record → α} {spelt : List Char} {x : α}

theorem learns (slot : Slot d field Spells put get) (accepts : Accepts read Spells)
    (absent : d.has field = false) (spells : Spells spelt x) :
    d.Learns (put x) (field.Spells spelt) (· = field) := by
  have value (r : Record) : x = get r ↔ field.Spells spelt r := by
    rw [slot.spells]
    constructor
    · intro same
      exact same ▸ spells
    · intro spells'
      exact accepts.unique spells spells'
  constructor
  · intro r
    constructor
    · intro agrees
      refine ⟨?_, (value r).1 ((slot.here x r).1 (agrees field))⟩
      intro other
      by_cases same : other = field
      · exact agreesOn_of_absent (same ▸ absent) r
      · exact ((slot.others x other same).1 r).1 (agrees other)
    · rintro ⟨agrees, spells'⟩ other
      by_cases same : other = field
      · rw [same]
        exact (slot.here x r).2 ((value r).2 spells')
      · exact ((slot.others x other same).1 r).2 (agrees other)
  · intro other
    by_cases same : other = field
    · simp only [same, slot.has, or_true]
    · simp only [(slot.others x other same).2, same, or_false]

theorem sound (slot : Slot d field Spells put get) (accepts : Accepts read Spells)
    (absent : d.has field = false) {text rest : List Char}
    (h : (read text).mapValue put = .ok (d', rest)) :
    ∃ space spelt, Spaces space ∧ text = space ++ (spelt ++ rest) ∧
      d.Learns d' (field.Spells spelt) (· = field) := by
  obtain ⟨x, found, rfl⟩ := Reading.mapValue_eq_ok.1 h
  obtain ⟨space, spelt, spaces, spells, split⟩ := accepts.sound found
  exact ⟨space, spelt, spaces, split, slot.learns accepts absent spells⟩

/-- What spells a field is read for it. -/
theorem complete (slot : Slot d field Spells put get) (accepts : Accepts read Spells)
    (absent : d.has field = false) {space rest : List Char} (spaces : Spaces space)
    (spells : field.Spells spelt r) (ends : Ends rest) :
    ∃ d', (read (space ++ (spelt ++ rest))).mapValue put = .ok (d', rest) ∧
      d.Learns d' (field.Spells spelt) (· = field) := by
  rw [slot.spells] at spells
  refine ⟨put (get r), ?_, slot.learns accepts absent spells⟩
  rw [accepts.complete spaces spells ends]
  rfl

end Slot

/-- Every field has its reader and its place. -/
theorem exists_slot (d : Draft) (field : Field) :
    ∃ (α : Type) (read : List Char → Reading α) (Spells : List Char → α → Prop) (put : α → Draft)
      (get : Record → α), Accepts read Spells ∧ (∀ text, d.fill field text =
        (read text).mapValue put) ∧ Slot d field Spells put get := by
  cases field
  case' iterations => refine ⟨_, _, _, _, Record.iterations, accepts_word, fun _ => rfl, ?_⟩
  case' totalNanos => refine ⟨_, _, _, _, Record.totalNanos, accepts_word, fun _ => rfl, ?_⟩
  case' nanosPerOp => refine ⟨_, _, _, _, Record.nanosPerOp, accepts_rate, fun _ => rfl, ?_⟩
  case' opsPerSec => refine ⟨_, _, _, _, Record.opsPerSec, accepts_rate, fun _ => rfl, ?_⟩
  case' bytesPerOp => refine ⟨_, _, _, _, Record.bytesPerOp, accepts_word, fun _ => rfl, ?_⟩
  case' allocsPerOp => refine ⟨_, _, _, _, Record.allocsPerOp, accepts_word, fun _ => rfl, ?_⟩
  case' samples => refine ⟨_, _, _, _, Record.samples, accepts_samples, fun _ => rfl, ?_⟩
  all_goals
    refine ⟨fun _ _ => Iff.rfl, fun _ _ => by simp [AgreesOn], fun _ => rfl, ?_⟩
    intro x other unlike
    cases other <;> first | exact absurd rfl unlike | exact ⟨fun _ => Iff.rfl, rfl⟩

variable {field : Field} {text rest : List Char}

theorem exists_filled (absent : d.has field = false)
    (h : d.fill field text = .ok (d', rest)) :
    ∃ space spelt, Spaces space ∧ text = space ++ (spelt ++ rest) ∧
      d.Learns d' (field.Spells spelt) (· = field) := by
  obtain ⟨α, read, Spells, put, get, accepts, fills, slot⟩ := d.exists_slot field
  rw [fills] at h
  exact slot.sound accepts absent h

theorem fill_text (absent : d.has field = false) {space spelt : List Char}
    (spaces : Spaces space) (spells : field.Spells spelt r) (ends : Ends rest) :
    ∃ d', d.fill field (space ++ (spelt ++ rest)) = .ok (d', rest) ∧
      d.Learns d' (field.Spells spelt) (· = field) := by
  obtain ⟨α, read, Spells, put, get, accepts, fills, slot⟩ := d.exists_slot field
  rw [fills]
  exact slot.complete accepts absent spaces spells ends

end Decoding.Draft

end MicroBench
