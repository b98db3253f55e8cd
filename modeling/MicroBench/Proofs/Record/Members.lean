import MicroBench.Proofs.Record.Decoding
import MicroBench.Proofs.Record.Drafts

/-! Records that are written as objects. A member fits a record if what it names is what
the record holds, and whatever it names otherwise fits. The reader learns exactly which
records all of the members fit, and stops at a field that is named twice. -/
namespace MicroBench

open Json Decoding

namespace Json.Member

variable {m m' : Member} {field other : Field} {name : List Char} {r : Record}

def Names (m : Member) (field : Field) : Prop := Spelled m.key field.name.toList

/-- The key stands for a name. If that is a field, the value is what the record holds there. -/
structure Fits (m : Member) (r : Record) : Prop where
  named : ∃ name, Spelled m.key name
  field : ∀ field, m.Names field → field.Spells m.value r
  other : (∀ field, ¬ m.Names field) → Value m.value

def Apart (m m' : Member) : Prop := ∀ field, m.Names field → ¬ m'.Names field

theorem ofName?_eq_some : Field.ofName? name = some field ↔ field.name.toList = name := by
  constructor
  · intro found
    simpa using List.find?_some found
  · rintro rfl
    exact ofName?_name field

theorem names_iff (spelled : Spelled m.key name) :
    m.Names field ↔ Field.ofName? name = some field := by
  rw [ofName?_eq_some]
  constructor
  · intro names
    exact Spelled.unique names spelled
  · rintro rfl
    exact spelled

theorem Names.iff (names : m.Names field) : m.Names other ↔ other = field := by
  rw [names_iff names, ofName?_name, Option.some_inj, eq_comm]

/-- A member that names a field fits a record just if its value spells the field. -/
theorem Names.fits_iff (names : m.Names field) : m.Fits r ↔ field.Spells m.value r := by
  constructor
  · intro fits
    exact fits.field field names
  · intro spells
    refine ⟨⟨_, names⟩, ?_, fun unnamed => absurd names (unnamed field)⟩
    intro other names'
    rw [names.iff.1 names']
    exact spells

theorem fits_of_unnamed (spelled : Spelled m.key name) (unnamed : ∀ field, ¬ m.Names field)
    (isValue : Value m.value) : m.Fits r :=
  ⟨⟨name, spelled⟩, fun field names => absurd names (unnamed field), fun _ => isValue⟩

theorem Fits.value (fits : m.Fits r) : Value m.value := by
  by_cases named : ∃ field, m.Names field
  · obtain ⟨field, names⟩ := named
    exact Field.value_of_spells (fits.field field names)
  · exact fits.other (not_exists.1 named)

end Json.Member

namespace Decoding

variable {d d' d'' : Draft} {text rest space before after key : List Char} {m : Member}
  {members : List Member} {r : Record}

/-! ### One member -/

/-- From one draft to the next, one member was read, which named no field that was known. -/
structure Draft.ReadsOne (d d' : Draft) (m : Member) : Prop where
  learns : d.Learns d' m.Fits m.Names
  fresh : ∀ field, m.Names field → d.has field = false

theorem readsOne_unnamed {name : List Char} (spelled : Spelled m.key name)
    (unknown : Field.ofName? name = none) (isValue : Value m.value) : d.ReadsOne d m := by
  have unnamed (field : Field) : ¬ m.Names field := by
    rw [Member.names_iff spelled, unknown]
    rintro ⟨⟩
  constructor
  · exact d.learns_nothing (fun r => Member.fits_of_unnamed spelled unnamed isValue) unnamed
  · intro field names
    exact absurd names (unnamed field)

theorem readsOne_named {field : Field} (names : m.Names field) (absent : d.has field = false)
    (learns : d.Learns d' (field.Spells m.value) (· = field)) : d.ReadsOne d' m := by
  constructor
  · exact learns.congr (fun r => names.fits_iff.symm) fun other => names.iff.symm
  · intro other names'
    rw [names.iff.1 names']
    exact absent

theorem exists_member (h : readMember d text = .ok (d', rest)) :
    ∃ m : Member, '"' :: text = m.text ++ rest ∧ d.ReadsOne d' m := by
  unfold readMember at h
  split at h
  · cases h
  · rename_i found
    obtain ⟨key, name, spelled, rfl, rfl⟩ := exists_spelled found
    split at h
    · rename_i unknown
      split at h
      · cases h
      · rename_i colon
        obtain ⟨before, spaces, rfl⟩ := readColon_eq_ok.1 colon
        obtain ⟨skipped, rfl⟩ := Reading.giving_eq_ok.1 h
        obtain ⟨after, value, spaces', isValue, rfl⟩ := exists_value skipped
        refine ⟨⟨key, before, after, value, spaces, spaces'⟩, ?_, ?_⟩
        · simp [Member.text]
        · exact readsOne_unnamed spelled unknown isValue
    · rename_i field known
      split at h
      · cases h
      · rename_i absent
        split at h
        · cases h
        · rename_i colon
          obtain ⟨before, spaces, rfl⟩ := readColon_eq_ok.1 colon
          have absent := Bool.eq_false_iff.2 absent
          obtain ⟨after, value, spaces', rfl, learns⟩ := Draft.exists_filled absent h
          refine ⟨⟨key, before, after, value, spaces, spaces'⟩, ?_, ?_⟩
          · simp [Member.text]
          · exact readsOne_named ((Member.names_iff spelled).2 known) absent learns

/-- A member that fits, and names no field that is known, is read. -/
theorem readMember_text (fits : m.Fits r) (fresh : ∀ field, m.Names field → d.has field = false)
    (ends : Ends rest) :
    ∃ text d', m.text ++ rest = '"' :: text ∧ readMember d text = .ok (d', rest) ∧
      d.ReadsOne d' m := by
  obtain ⟨name, spelled⟩ := fits.named
  have colon : readColon (m.before ++ ':' :: (m.after ++ (m.value ++ rest))) =
      .ok (m.after ++ (m.value ++ rest)) := readColon_eq_ok.2 ⟨m.before, m.before_spaces, rfl⟩
  have key : readString [] (m.key ++ '"' :: (m.before ++ ':' :: (m.after ++ (m.value ++ rest)))) =
      .ok (name, _) := readString_text spelled []
  refine ⟨m.key ++ '"' :: (m.before ++ ':' :: (m.after ++ (m.value ++ rest))), ?_⟩
  simp only [readMember, key, colon]
  cases known : Field.ofName? name with
  | none =>
    refine ⟨d, by simp [Member.text], ?_, readsOne_unnamed spelled known fits.value⟩
    simp only [skipValue_text fits.value m.after_spaces ends, Reading.giving]
  | some field =>
    have names : m.Names field := (Member.names_iff spelled).2 known
    have absent := fresh field names
    obtain ⟨d', filled, learns⟩ :=
      Draft.fill_text absent m.after_spaces (fits.field field names) ends
    refine ⟨d', by simp [Member.text], ?_, readsOne_named names absent learns⟩
    simp only [absent, Bool.false_eq_true, if_false, filled]

/-- A field that only members apart from the one read may name is as unknown as before. -/
theorem fresh_after (first : d.ReadsOne d' m) (apart : ∀ m' ∈ members, m.Apart m')
    (fresh : ∀ m' ∈ members, ∀ field, m'.Names field → d.has field = false) :
    ∀ m' ∈ members, ∀ field, m'.Names field → d'.has field = false := by
  intro m' member field names
  refine first.learns.absent (fresh m' member field names) ?_
  intro names'
  exact apart m' member field names' names

/-! ### Keys -/

theorem exists_firstKey (h : firstKey text = .ok (some key)) :
    ∃ space, Spaces space ∧ text = space ++ '"' :: key := by
  unfold firstKey at h
  split at h
  · cases h
  · cases h
  · rename_i found
    cases h
    exact exists_spaces_of_skipSpace found
  · cases h

theorem exists_nextKey (h : nextKey text = .ok (some key)) :
    ∃ before after, Spaces before ∧ Spaces after ∧ text = before ++ ',' :: (after ++ '"' :: key) := by
  unfold nextKey at h
  split at h
  · cases h
  · cases h
  · rename_i found
    obtain ⟨before, spaces, rfl⟩ := exists_spaces_of_skipSpace found
    split at h
    · cases h
    · rename_i opened
      cases h
      obtain ⟨after, spaces', rfl⟩ := exists_spaces_of_skipSpace opened
      exact ⟨before, after, spaces, spaces', rfl⟩
    · cases h
    · cases h
  · cases h

theorem exists_lastKey (h : nextKey text = .ok none) :
    ∃ space, Spaces space ∧ text = space ++ '\x7d' :: afterObject text := by
  unfold nextKey at h
  split at h
  · cases h
  · rename_i found
    rw [afterObject, found]
    exact exists_spaces_of_skipSpace found
  · split at h <;> cases h
  · cases h

theorem exists_noKey (h : firstKey text = .ok none) :
    ∃ space, Spaces space ∧ text = space ++ '\x7d' :: afterObject text := by
  unfold firstKey at h
  split at h
  · cases h
  · rename_i found
    rw [afterObject, found]
    exact exists_spaces_of_skipSpace found
  · cases h
  · cases h

theorem firstKey_text (spaces : Spaces space) :
    firstKey (space ++ '"' :: key) = .ok (some key) := by
  rw [firstKey, skipSpace_spaces spaces rfl]
  rfl

theorem nextKey_text (spaces : Spaces before) (spaces' : Spaces after) :
    nextKey (before ++ ',' :: (after ++ '"' :: key)) = .ok (some key) := by
  have opened : skipSpace (after ++ '"' :: key) = '"' :: key := skipSpace_spaces spaces' rfl key
  rw [nextKey, skipSpace_spaces spaces rfl]
  simp only [opened]

theorem firstKey_close (spaces : Spaces space) : firstKey (space ++ '\x7d' :: rest) = .ok none := by
  rw [firstKey, skipSpace_spaces spaces rfl]
  rfl

theorem nextKey_close (spaces : Spaces space) : nextKey (space ++ '\x7d' :: rest) = .ok none := by
  rw [nextKey, skipSpace_spaces spaces rfl]
  rfl

theorem afterObject_close (spaces : Spaces space) :
    afterObject (space ++ '\x7d' :: rest) = rest := by
  rw [afterObject, skipSpace_spaces spaces rfl]
  rfl

/-! ### All members -/

/-- From one draft to the next, the members were read, which named no field that was known, and none
twice. -/
structure Draft.Reads (d d' : Draft) (members : List Member) : Prop where
  learns : d.Learns d' (fun r => ∀ m ∈ members, m.Fits r) fun field => ∃ m ∈ members, m.Names field
  fresh : ∀ m ∈ members, ∀ field, m.Names field → d.has field = false
  once : members.Pairwise Member.Apart

theorem reads_nil (d : Draft) : d.Reads d [] :=
  ⟨d.learns_nothing (by simp) (by simp), by simp, .nil⟩

theorem reads_cons (first : d.ReadsOne d' m) (others : d'.Reads d'' members) :
    d.Reads d'' (m :: members) := by
  constructor
  · exact (first.learns.trans others.learns).congr (by simp) (by simp)
  · intro m' member field names
    rcases List.mem_cons.1 member with rfl | member
    · exact first.fresh field names
    · exact first.learns.absent_left (others.fresh m' member field names)
  · refine List.pairwise_cons.2 ⟨?_, others.once⟩
    intro m' member field names names'
    have present : d'.has field = true := (first.learns.has field).2 (.inr names)
    rw [others.fresh m' member field names'] at present
    cases present

/-- The members that were read follow each other as the grammar has it. -/
theorem exists_members (h : moreMembers d text = .ok (d', rest)) :
    ∃ members others, Others (members.map Member.text) others ∧
      text = others ++ '\x7d' :: afterObject rest ∧ d.Reads d' members := by
  fun_induction moreMembers d text with
  | case1 => cases h
  | case2 d text last =>
    cases h
    obtain ⟨space, spaces, split⟩ := exists_lastKey last
    exact ⟨[], space, .none spaces, split, reads_nil _⟩
  | case3 => cases h
  | case4 d text key next between unread read ih =>
    obtain ⟨before, after, spaces, spaces', rfl⟩ := exists_nextKey next
    obtain ⟨m, split, first⟩ := exists_member read
    obtain ⟨members, others, follow, rfl, reads⟩ := ih h
    refine ⟨m :: members, _, .more spaces spaces' follow, ?_, reads_cons first reads⟩
    rw [split]
    simp

theorem moreMembers_cons (next : nextKey text = .ok (some key))
    (read : readMember d key = .ok (d', rest)) : moreMembers d text = moreMembers d' rest := by
  rw [moreMembers_eq, next]
  simp only [read]

theorem moreMembers_close (spaces : Spaces space) :
    moreMembers d (space ++ '\x7d' :: rest) = .ok (d, space ++ '\x7d' :: rest) := by
  rw [moreMembers_eq, nextKey_close spaces]

/-- Members that fit, and name no field twice, are all read. -/
theorem moreMembers_text {others : List Char} (follow : Others (members.map Member.text) others)
    (fits : ∀ m ∈ members, m.Fits r)
    (fresh : ∀ m ∈ members, ∀ field, m.Names field → d.has field = false)
    (once : members.Pairwise Member.Apart) :
    ∃ d' unread, moreMembers d (others ++ '\x7d' :: rest) = .ok (d', unread) ∧
      afterObject unread = rest ∧ d.Reads d' members := by
  induction members generalizing d others with
  | nil =>
    cases follow with
    | none spaces =>
      exact ⟨d, _, moreMembers_close spaces, afterObject_close spaces, reads_nil d⟩
  | cons m members ih =>
    cases follow with
    | @more before after _ others _ spaces spaces' follow =>
      obtain ⟨first, fits⟩ := List.forall_mem_cons.1 fits
      obtain ⟨firstFresh, fresh⟩ := List.forall_mem_cons.1 fresh
      obtain ⟨apart, once⟩ := List.pairwise_cons.1 once
      obtain ⟨key, between, quoted, read, one⟩ :=
        readMember_text first firstFresh (ends_others follow (.inr rfl) rest)
      obtain ⟨d', unread, more, closed, reads⟩ :=
        ih follow fits (fresh_after one apart fresh) once
      refine ⟨d', unread, ?_, closed, reads_cons one reads⟩
      have split : before ++ ',' :: (after ++ (m.text ++ others)) ++ '\x7d' :: rest =
          before ++ ',' :: (after ++ '"' :: key) := by
        rw [← quoted]
        simp
      rw [split, moreMembers_cons (nextKey_text spaces spaces') read, more]

/-! ### Objects -/

theorem exists_object_members (h : readMembers text = .ok (d, rest)) :
    ∃ members whole, Enclosed '\x7b' '\x7d' (members.map Member.text) whole ∧
      '\x7b' :: text = whole ++ afterObject rest ∧ Draft.blank.Reads d members := by
  unfold readMembers at h
  split at h
  · cases h
  · rename_i keyless
    cases h
    obtain ⟨space, spaces, split⟩ := exists_noKey keyless
    refine ⟨[], _, .none spaces, ?_, reads_nil _⟩
    rw [List.cons_append, List.append_assoc]
    exact congrArg _ split
  · rename_i key first
    obtain ⟨space, spaces, rfl⟩ := exists_firstKey first
    split at h
    · cases h
    · rename_i between unread read
      obtain ⟨m, split, one⟩ := exists_member read
      obtain ⟨members, others, follow, rfl, reads⟩ := exists_members h
      refine ⟨m :: members, _, .some spaces follow, ?_, reads_cons one reads⟩
      rw [split]
      simp

/-- Members that make up a record. Each fits it, no field is named twice, and only the allocation
figures and the samples may go unnamed. -/
structure ObjectOf (members : List Member) (r : Record) : Prop where
  fits : ∀ m ∈ members, m.Fits r
  once : members.Pairwise Member.Apart
  omitted : ∀ field, (∀ m ∈ members, ¬ m.Names field) → field.Omitted r

/-- Members make a record just if they fit it and leave out nothing that has no default. -/
theorem finish_of_reads (reads : Draft.blank.Reads d members) :
    d.finish = .ok r ↔ ObjectOf members r := by
  have unnamed (field : Field) : d.has field = false ↔ ∀ m ∈ members, ¬ m.Names field := by
    have blank : Draft.blank.has field = false := by cases field <;> rfl
    rw [Bool.eq_false_iff, Ne, reads.learns.has, blank]
    simp
  rw [Draft.finish_eq_ok_iff, reads.learns.agrees]
  simp only [unnamed]
  constructor
  · rintro ⟨⟨-, fits⟩, omitted⟩
    exact ⟨fits, reads.once, omitted⟩
  · rintro ⟨fits, -, omitted⟩
    exact ⟨⟨Draft.agrees_blank r, fits⟩, omitted⟩

theorem readMembers_text {whole : List Char}
    (enclosed : Enclosed '\x7b' '\x7d' (members.map Member.text) whole)
    (object : ObjectOf members r) :
    ∃ text d unread, whole ++ rest = '\x7b' :: text ∧ readMembers text = .ok (d, unread) ∧
      afterObject unread = rest ∧ Draft.blank.Reads d members := by
  have fresh : ∀ m ∈ members, ∀ field, m.Names field → Draft.blank.has field = false := by
    intro m member field names
    cases field <;> rfl
  obtain ⟨fits, once, -⟩ := object
  cases members with
  | nil =>
    cases enclosed with
    | @none space spaces =>
      refine ⟨space ++ '\x7d' :: rest, .blank, _, by simp, ?_, afterObject_close spaces,
        reads_nil _⟩
      simp only [readMembers, firstKey_close spaces]
  | cons m members =>
    cases enclosed with
    | @some space _ others _ spaces follow =>
      obtain ⟨first, fits⟩ := List.forall_mem_cons.1 fits
      obtain ⟨firstFresh, fresh⟩ := List.forall_mem_cons.1 fresh
      obtain ⟨apart, once⟩ := List.pairwise_cons.1 once
      obtain ⟨key, between, quoted, read, one⟩ :=
        readMember_text first firstFresh (ends_others follow (.inr rfl) rest)
      obtain ⟨d, unread, more, closed, reads⟩ :=
        moreMembers_text follow fits (fresh_after one apart fresh) once
      refine ⟨space ++ '"' :: key, d, unread, ?_, ?_, closed, reads_cons one reads⟩
      · rw [← quoted]
        simp
      · simp only [readMembers, firstKey_text spaces, read, more]

theorem exists_object (h : readObject text = .ok (r, rest)) :
    ∃ members whole, Enclosed '\x7b' '\x7d' (members.map Member.text) whole ∧
      '\x7b' :: text = whole ++ rest ∧ ObjectOf members r := by
  unfold readObject at h
  split at h
  · cases h
  · rename_i found
    obtain ⟨members, whole, enclosed, split, reads⟩ := exists_object_members found
    split at h
    · cases h
    · rename_i finished
      cases h
      exact ⟨members, whole, enclosed, split, (finish_of_reads reads).1 finished⟩

/-- Every object that makes up a record is read as that record. -/
theorem readObject_text {whole : List Char}
    (enclosed : Enclosed '\x7b' '\x7d' (members.map Member.text) whole)
    (object : ObjectOf members r) :
    ∃ text, whole ++ rest = '\x7b' :: text ∧ readObject text = .ok (r, rest) := by
  obtain ⟨text, d, unread, split, read, closed, reads⟩ := readMembers_text enclosed object
  refine ⟨text, split, ?_⟩
  simp only [readObject, read, (finish_of_reads reads).2 object, closed]

end Decoding

end MicroBench
