import MicroBench.Proofs.Record.Drafts

/-! Records that are written as lists. The elements are those of the first fields, in the
order of the fields, and what the reader learns is that each spells its own. -/
namespace MicroBench

open Json Decoding

def Record.SpeltBy (r : Record) (fields : List Field) (items : List (List Char)) : Prop :=
  List.Forall₂ (fun field item => field.Spells item r) fields items

namespace Decoding

variable {d d' d'' : Draft} {field : Field} {fields reached beyond : List Field} {r : Record}
  {items : List (List Char)} {text rest value spelt after : List Char}

/-- No field is due twice, and none that is due is known. -/
structure Draft.Due (d : Draft) (fields : List Field) : Prop where
  once : fields.Nodup
  absent : ∀ field ∈ fields, d.has field = false

def Draft.FilledBy (d d' : Draft) (fields : List Field) (items : List (List Char)) : Prop :=
  d.Learns d' (fun r => r.SpeltBy fields items) (· ∈ fields)

theorem filledBy_nil (d : Draft) : d.FilledBy d [] [] :=
  d.learns_nothing (fun _ => .nil) fun _ => List.not_mem_nil

theorem filledBy_cons (first : d.Learns d' (field.Spells spelt) (· = field))
    (others : d'.FilledBy d'' fields items) :
    d.FilledBy d'' (field :: fields) (spelt :: items) := by
  refine (first.trans others).congr ?_ ?_
  · intro r
    rw [Record.SpeltBy, Record.SpeltBy, List.forall₂_cons]
  · intro other
    exact List.mem_cons.symm

theorem due_after (due : d.Due (field :: fields))
    (first : d.Learns d' (field.Spells spelt) (· = field)) : d'.Due fields := by
  obtain ⟨unlike, once⟩ := List.nodup_cons.1 due.once
  refine ⟨once, ?_⟩
  intro other member
  refine first.absent (due.absent other (List.mem_cons_of_mem _ member)) ?_
  rintro rfl
  exact unlike member

/-! ### Elements in order -/

theorem fillInOrder_some {element : List Char → Except Fault (Option (List Char))}
    (found : element text = .ok (some value)) (filled : d.fill field value = .ok (d', rest)) :
    fillInOrder element d text (field :: fields) = fillInOrder nextElement d' rest fields := by
  simp only [fillInOrder, found, filled]

/-- The elements that were read fill the fields that were reached, in their order. -/
theorem exists_elements (due : d.Due fields)
    (h : fillInOrder nextElement d text fields = .ok ((d', beyond), rest))
    (closed : closeList rest = .ok after) :
    ∃ reached items others, Others items others ∧ text = others ++ ']' :: after ∧
      fields = reached ++ beyond ∧ d.FilledBy d' reached items := by
  induction fields generalizing d text with
  | nil =>
    cases h
    obtain ⟨space, spaces, split⟩ := exists_close closed
    exact ⟨[], [], space, .none spaces, split, rfl, filledBy_nil _⟩
  | cons field fields ih =>
    rw [fillInOrder] at h
    split at h
    · cases h
    · cases h
      obtain ⟨space, spaces, split⟩ := exists_close closed
      exact ⟨[], [], space, .none spaces, split, rfl, filledBy_nil _⟩
    · rename_i value next
      obtain ⟨before, after, spaces, spaces', rfl⟩ := exists_next next
      split at h
      · cases h
      · rename_i between last filled
        have absent := due.absent field List.mem_cons_self
        obtain ⟨space, spelt, spaces'', rfl, first⟩ := Draft.exists_filled absent filled
        obtain ⟨reached, items, others, follow, rfl, rfl, fills⟩ := ih (due_after due first) h
        refine ⟨field :: reached, spelt :: items, _,
          .more spaces (spaces_append spaces' spaces'') follow, ?_, rfl, filledBy_cons first fills⟩
        simp

theorem exists_list_elements (due : d.Due (field :: fields))
    (h : fillInOrder firstElement d text (field :: fields) = .ok ((d', beyond), rest))
    (closed : closeList rest = .ok after) :
    ∃ reached items whole, Enclosed '[' ']' items whole ∧ '[' :: text = whole ++ after ∧
      field :: fields = reached ++ beyond ∧ d.FilledBy d' reached items := by
  rw [fillInOrder] at h
  split at h
  · cases h
  · cases h
    obtain ⟨space, spaces, rfl⟩ := exists_close closed
    exact ⟨[], [], _, .none spaces, by simp, rfl, filledBy_nil _⟩
  · rename_i value first
    obtain ⟨space, spaces, rfl⟩ := exists_first first
    split at h
    · cases h
    · rename_i between last filled
      have absent := due.absent field List.mem_cons_self
      obtain ⟨space', spelt, spaces', rfl, learns⟩ := Draft.exists_filled absent filled
      obtain ⟨reached, items, others, follow, rfl, rfl, fills⟩ :=
        exists_elements (due_after due learns) h closed
      refine ⟨field :: reached, spelt :: items, _, .some (spaces_append spaces spaces') follow,
        ?_, rfl, filledBy_cons learns fills⟩
      simp

theorem fillInOrder_none {element : List Char → Except Fault (Option (List Char))}
    (ends : element text = .ok none) (fields : List Field) :
    fillInOrder element d text fields = .ok ((d, fields), text) := by
  cases fields with
  | nil => rfl
  | cons field fields => simp only [fillInOrder, ends]

theorem fillInOrder_text {others : List Char} (follow : Others items others)
    (spells : r.SpeltBy reached items) (due : d.Due (reached ++ beyond)) :
    ∃ d' last, fillInOrder nextElement d (others ++ ']' :: rest) (reached ++ beyond) =
        .ok ((d', beyond), last) ∧
      closeList last = .ok rest ∧ d.FilledBy d' reached items := by
  induction spells generalizing d others with
  | nil =>
    cases follow with
    | none spaces =>
      exact ⟨d, _, fillInOrder_none (nextElement_close spaces) beyond, closeList_text spaces,
        filledBy_nil d⟩
  | @cons field item reached items spells _ ih =>
    cases follow with
    | @more before after _ others _ spaces spaces' follow =>
      obtain ⟨between, filled, first⟩ := Draft.fill_text
        (due.absent field List.mem_cons_self) spaces_nil spells
        (ends_others follow (.inl rfl) rest)
      obtain ⟨d', last, more, closed, fills⟩ := ih follow (due_after due first)
      refine ⟨d', last, ?_, closed, filledBy_cons first fills⟩
      have next := nextElement_text spaces spaces' (Field.value_of_spells spells).starts
        (others ++ ']' :: rest)
      have split : before ++ ',' :: (after ++ (item ++ others)) ++ ']' :: rest =
          before ++ ',' :: (after ++ (item ++ (others ++ ']' :: rest))) := by simp
      rw [split, List.cons_append, fillInOrder_some next filled, more]

theorem fillInOrder_list {whole : List Char} (enclosed : Enclosed '[' ']' items whole)
    (spells : r.SpeltBy reached items) (due : d.Due (reached ++ beyond)) :
    ∃ text d' last, whole ++ rest = '[' :: text ∧
      fillInOrder firstElement d text (reached ++ beyond) = .ok ((d', beyond), last) ∧
      closeList last = .ok rest ∧ d.FilledBy d' reached items := by
  cases spells with
  | nil =>
    cases enclosed with
    | @none space spaces =>
      exact ⟨space ++ ']' :: rest, d, _, by simp,
        fillInOrder_none (firstElement_close spaces) beyond, closeList_text spaces, filledBy_nil d⟩
  | @cons field item reached items spells others =>
    cases enclosed with
    | @some space _ tail _ spaces follow =>
      obtain ⟨between, filled, first⟩ := Draft.fill_text
        (due.absent field List.mem_cons_self) spaces_nil spells
        (ends_others follow (.inl rfl) rest)
      obtain ⟨d', last, more, closed, fills⟩ :=
        fillInOrder_text follow others (due_after due first)
      refine ⟨space ++ (item ++ (tail ++ ']' :: rest)), d', last, by simp, ?_, closed,
        filledBy_cons first fills⟩
      have found := firstElement_text spaces (Field.value_of_spells spells).starts
        (tail ++ ']' :: rest)
      rw [List.cons_append, fillInOrder_some found filled, more]

/-! ### Lists -/

/-- Items that make up a record: four at least, each spelling the field at its place, and the fields
after them may be left out. -/
structure ListOf (items : List (List Char)) (r : Record) : Prop where
  length : 4 ≤ items.length ∧ items.length ≤ 7
  spells : r.SpeltBy (Field.all.take items.length) items
  omitted : ∀ field ∈ Field.all.drop items.length, field.Omitted r

theorem mem_all (field : Field) : field ∈ Field.all := by cases field <;> decide

theorem all_due : Draft.blank.Due Field.all := by
  refine ⟨by decide, ?_⟩
  intro field _
  cases field <;> rfl

theorem listOf_iff (all : Field.all = reached ++ beyond) (same : reached.length = items.length) :
    ListOf items r ↔ r.SpeltBy reached items ∧ ∀ field ∈ beyond, field.Omitted r := by
  have taken : Field.all.take items.length = reached := by rw [all, ← same, List.take_left]
  have dropped : Field.all.drop items.length = beyond := by rw [all, ← same, List.drop_left]
  constructor
  · rintro ⟨-, spells, omitted⟩
    rw [taken] at spells
    rw [dropped] at omitted
    exact ⟨spells, omitted⟩
  · rintro ⟨spells, omitted⟩
    refine ⟨⟨?_, ?_⟩, taken ▸ spells, dropped ▸ omitted⟩
    · -- The fourth field may not be left out.
      rw [← Nat.not_lt]
      intro few
      have fourth : Field.opsPerSec ∈ Field.all.drop 3 := by decide
      have member := List.drop_subset_drop_left Field.all (Nat.le_of_lt_succ few) fourth
      exact omitted _ (dropped ▸ member)
    · have total : Field.all.length = 7 := rfl
      rw [all, List.length_append, same] at total
      omega

/-- The record is made by the fields that were reached, and by defaults for the others. -/
theorem finish_of_filledBy (all : Field.all = reached ++ beyond)
    (filled : Draft.blank.FilledBy d reached items) :
    d.finish = .ok r ↔ r.SpeltBy reached items ∧ ∀ field ∈ beyond, field.Omitted r := by
  have unreached (field : Field) : d.has field = false ↔ field ∈ beyond := by
    have blank : Draft.blank.has field = false := by cases field <;> rfl
    have apart := (List.nodup_append.1 (all ▸ all_due.once)).2.2
    rw [Bool.eq_false_iff, Ne, filled.has, blank]
    constructor
    · intro absent
      have somewhere := mem_all field
      rw [all, List.mem_append] at somewhere
      exact somewhere.resolve_left fun member => absent (.inr member)
    · rintro member (impossible | reached)
      · cases impossible
      · exact apart field reached field member rfl
  rw [Draft.finish_eq_ok_iff, filled.agrees]
  simp only [unreached]
  constructor
  · rintro ⟨⟨-, spells⟩, omitted⟩
    exact ⟨spells, omitted⟩
  · rintro ⟨spells, omitted⟩
    exact ⟨⟨Draft.agrees_blank r, spells⟩, omitted⟩

theorem exists_list (h : readList text = .ok (r, rest)) :
    ∃ items whole, Enclosed '[' ']' items whole ∧ '[' :: text = whole ++ rest ∧
      ListOf items r := by
  unfold readList at h
  split at h
  · cases h
  · rename_i d beyond last found
    split at h
    · cases h
    · cases h
    · rename_i closed finished
      cases h
      obtain ⟨reached, items, whole, enclosed, split, all, filled⟩ :=
        exists_list_elements all_due found closed
      have made := (finish_of_filledBy all filled).1 finished
      exact ⟨items, whole, enclosed, split, (listOf_iff all made.1.length_eq).2 made⟩

/-- Every list that makes up a record is read as that record. -/
theorem readList_text {whole : List Char} (enclosed : Enclosed '[' ']' items whole)
    (list : ListOf items r) :
    ∃ text, whole ++ rest = '[' :: text ∧ readList text = .ok (r, rest) := by
  have all : Field.all = Field.all.take items.length ++ Field.all.drop items.length :=
    (List.take_append_drop _ _).symm
  obtain ⟨text, d, last, split, read, closed, filled⟩ :=
    fillInOrder_list enclosed list.spells (all ▸ all_due)
  rw [← all] at read
  have finished := (finish_of_filledBy all filled).2 ⟨list.spells, list.omitted⟩
  refine ⟨text, split, ?_⟩
  simp only [readList, read, closed, finished]

end Decoding

end MicroBench
