import MicroBench.Proofs.Json.Numerals
import MicroBench.Proofs.Json.Quotes

/-! Values that are skipped are the values of the grammar. The reader keeps the lists and
objects that are open on a stack; what the text still has to hold to close them all is
`Closes`. -/
namespace MicroBench.Json

variable {text rest space : List Char}

/-! ### White space -/

theorem spaces_nil : Spaces [] := by
  intro c member
  cases member

theorem spaces_append {after : List Char} (spaces : Spaces space) (spaces' : Spaces after) :
    Spaces (space ++ after) := by
  intro c member
  rcases List.mem_append.1 member with member | member
  · exact spaces c member
  · exact spaces' c member

theorem exists_spaces (text : List Char) :
    ∃ space, Spaces space ∧ text = space ++ skipSpace text := by
  refine ⟨text.takeWhile isSpace, ?_, (List.takeWhile_append_dropWhile).symm⟩
  intro c member
  have all : (text.takeWhile isSpace).all isSpace = true := List.all_takeWhile
  exact List.all_eq_true.1 all c member

theorem exists_spaces_of_skipSpace {found : List Char} (h : skipSpace text = found) :
    ∃ space, Spaces space ∧ text = space ++ found := h ▸ exists_spaces text

theorem skipSpace_append (spaces : Spaces space) (text : List Char) :
    skipSpace (space ++ text) = skipSpace text := List.dropWhile_append_of_pos spaces

theorem skipSpace_cons {c : Char} (ink : isSpace c = false) (text : List Char) :
    skipSpace (c :: text) = c :: text := by
  rw [skipSpace, List.dropWhile_cons, ink]
  rfl

theorem skipSpace_spaces (spaces : Spaces space) {c : Char} (ink : isSpace c = false)
    (text : List Char) : skipSpace (space ++ c :: text) = c :: text := by
  rw [skipSpace_append spaces, skipSpace_cons ink]

theorem Starts.skipSpace_append (starts : Starts text) (rest : List Char) :
    skipSpace (text ++ rest) = text ++ rest := by
  obtain ⟨c, others, rfl, ink, -⟩ := starts
  exact skipSpace_cons ink _

theorem ends_closing {c : Char} (closing : c = ']' ∨ c = '\x7d') (rest : List Char) :
    Ends (c :: rest) := .inr ⟨c, rest, rfl, .inr (.inr closing)⟩

/-- Whatever items follow and whatever closes them, a value may end before it. -/
theorem ends_others {items : List (List Char)} {others : List Char} (follow : Others items others)
    {c : Char} (closing : c = ']' ∨ c = '\x7d') (rest : List Char) :
    Ends (others ++ c :: rest) := by
  have spaced {before after : List Char} (spaces : Spaces before) (ends : Ends after) :
      Ends (before ++ after) := by
    cases before with
    | nil => exact ends
    | cons d before => exact .inr ⟨d, _, rfl, .inl (spaces d List.mem_cons_self)⟩
  cases follow with
  | none spaces => exact spaced spaces (ends_closing closing rest)
  | more spaces _ _ =>
    rw [List.append_assoc]
    exact spaced spaces (.inr ⟨',', _, rfl, .inr (.inl rfl)⟩)

/-! ### Values without parts -/

theorem readIdent_eq_ok {letters : List Char} :
    readIdent letters text = .ok rest ↔ text = letters ++ rest := by
  fun_induction readIdent letters text with
  | case1 => simp
  | case2 => simp
  | case3 _ _ _ ih => simpa using ih
  | case4 letter letters c text unlike => simp [unlike]

theorem readColon_eq_ok :
    readColon text = .ok rest ↔ ∃ before, Spaces before ∧ text = before ++ ':' :: rest := by
  constructor
  · intro h
    unfold readColon at h
    split at h
    · cases h
    · rename_i found
      cases h
      exact exists_spaces_of_skipSpace found
    · cases h
  · rintro ⟨before, spaces, rfl⟩
    rw [readColon, skipSpace_spaces spaces rfl]
    rfl

theorem exists_scalar (h : skipScalar text = .ok rest) :
    ∃ value, Value value ∧ text = value ++ rest := by
  unfold skipScalar at h
  split at h
  · cases h
  · obtain ⟨body, quotable, split⟩ := exists_quotable h
    refine ⟨_, .string quotable, ?_⟩
    rw [split]
    simp
  · rw [readIdent_eq_ok.1 h]
    exact ⟨_, .null, rfl⟩
  · rw [readIdent_eq_ok.1 h]
    exact ⟨_, .true, rfl⟩
  · rw [readIdent_eq_ok.1 h]
    exact ⟨_, .false, rfl⟩
  · split at h
    · obtain ⟨x, split, -⟩ := exists_numeral h
      exact ⟨_, .number x, split⟩
    · cases h

/-- What is skipped as a key may stand between quotes, and a colon follows it. -/
theorem exists_key (h : skipKey text = .ok rest) :
    ∃ space key before, Spaces space ∧ Quotable key ∧ Spaces before ∧
      text = space ++ '"' :: (key ++ '"' :: (before ++ ':' :: rest)) := by
  unfold skipKey at h
  split at h
  · cases h
  · rename_i found
    obtain ⟨space, spaces, split⟩ := exists_spaces_of_skipSpace found
    split at h
    · cases h
    · rename_i after closed
      obtain ⟨key, quotable, split'⟩ := exists_quotable closed
      obtain ⟨before, spaces', split''⟩ := readColon_eq_ok.1 h
      exact ⟨space, key, before, spaces, quotable, spaces', by rw [split, split', split'']⟩
  · cases h

/-! ### What is skipped is a value -/

def Container.closing : Container → Char
  | .list => ']'
  | .object => '\x7d'

def Container.Item : Container → List Char → Prop
  | .list, item => Value item
  | .object, item => ∃ m : Member, item = m.text ∧ Quotable m.key ∧ Value m.value

/-- The text holds what closes all of the containers, up to `rest`. -/
def Closes (rest : List Char) : List Container → List Char → Prop
  | [], text => text = rest
  | container :: outer, text =>
    ∃ items others after, Others items others ∧ (∀ item ∈ items, container.Item item) ∧
      text = others ++ container.closing :: after ∧ Closes rest outer after

/-- The same where a value may be due first. -/
def Continues (rest : List Char) : Due → List Container → List Char → Prop
  | .next, containers, text => Closes rest containers text
  | .value, containers, text =>
    ∃ space value after, Spaces space ∧ Value value ∧ text = space ++ (value ++ after) ∧
      Closes rest containers after

theorem value_of_members {items : List (List Char)} {text : List Char}
    (enclosed : Enclosed '\x7b' '\x7d' items text)
    (all : ∀ item ∈ items, Container.object.Item item) : Value text := by
  obtain ⟨members, rfl, keys, values⟩ : ∃ members : List Member, items = members.map Member.text ∧
      (∀ m ∈ members, Quotable m.key) ∧ ∀ m ∈ members, Value m.value := by
    clear enclosed
    induction items with
    | nil => exact ⟨[], rfl, by simp, by simp⟩
    | cons item items ih =>
      obtain ⟨⟨m, rfl, key, value⟩, others⟩ := List.forall_mem_cons.1 all
      obtain ⟨members, rfl, keys, values⟩ := ih others
      exact ⟨m :: members, rfl, List.forall_mem_cons.2 ⟨key, keys⟩,
        List.forall_mem_cons.2 ⟨value, values⟩⟩
  exact .object enclosed keys values

/-- One more item, with the comma before it. -/
theorem closes_more (container : Container) {outer : List Container}
    {before after item unread : List Char} (spaces : Spaces before) (spaces' : Spaces after)
    (found : container.Item item) (closes : Closes rest (container :: outer) unread) :
    Closes rest (container :: outer) (before ++ ',' :: (after ++ (item ++ unread))) := by
  obtain ⟨items, others, last, follow, all, rfl, closes⟩ := closes
  refine ⟨item :: items, _, last, .more spaces spaces' follow,
    List.forall_mem_cons.2 ⟨found, all⟩, ?_, closes⟩
  simp

theorem closes_end (container : Container) {outer : List Container} {before unread : List Char}
    (spaces : Spaces before) (closes : Closes rest outer unread) :
    Closes rest (container :: outer) (before ++ container.closing :: unread) :=
  ⟨[], before, unread, .none spaces, by simp, rfl, closes⟩

/-- The first item, and all that follows it in its container. -/
theorem enclosed_of_closes (container : Container) {outer : List Container} (opening : Char)
    {space item unread : List Char} (spaces : Spaces space) (found : container.Item item)
    (closes : Closes rest (container :: outer) unread) :
    ∃ items whole after, Enclosed opening container.closing items whole ∧
      (∀ item ∈ items, container.Item item) ∧
      opening :: (space ++ (item ++ unread)) = whole ++ after ∧ Closes rest outer after := by
  obtain ⟨items, others, after, follow, all, rfl, closes⟩ := closes
  refine ⟨item :: items, _, after, .some spaces follow,
    List.forall_mem_cons.2 ⟨found, all⟩, ?_, closes⟩
  simp

/-- A key and the value that is due after it make a member. -/
theorem exists_item_of_key {containers : List Container} {unread : List Char}
    (key : skipKey text = .ok unread) (continues : Continues rest .value containers unread) :
    ∃ space item after, Spaces space ∧ Container.object.Item item ∧
      text = space ++ (item ++ after) ∧ Closes rest containers after := by
  obtain ⟨space, name, colon, spaces, quotable, colons, rfl⟩ := exists_key key
  obtain ⟨space', value, after, spaces', isValue, rfl, closes⟩ := continues
  refine ⟨space, Member.text ⟨name, colon, space', value, colons, spaces'⟩, after, spaces,
    ⟨_, rfl, quotable, isValue⟩, ?_, closes⟩
  simp [Member.text]

/-- What is skipped while containers are open closes them all; by induction on the steps of the
skip. -/
theorem continues_of_skip {due : Due} {containers : List Container}
    (h : skip due containers text = .ok rest) : Continues rest due containers text := by
  fun_induction skip due containers text with
  | case1 text =>
    cases h
    exact rfl
  | case2 | case5 | case6 | case7 | case10 | case11 | case14 | case16 | case18 => cases h
  | case3 text outer after found ih =>
    obtain ⟨before, spaces, rfl⟩ := exists_spaces_of_skipSpace found
    obtain ⟨space, value, unread, spaces', isValue, rfl, closes⟩ := ih h
    exact closes_more .list spaces spaces' isValue closes
  | case4 text outer after found ih =>
    obtain ⟨before, spaces, rfl⟩ := exists_spaces_of_skipSpace found
    exact closes_end .list spaces (ih h)
  | case8 text outer after found unread key ih =>
    obtain ⟨before, spaces, rfl⟩ := exists_spaces_of_skipSpace found
    obtain ⟨space, item, last, spaces', isItem, rfl, closes⟩ := exists_item_of_key key (ih h)
    exact closes_more .object spaces spaces' isItem closes
  | case9 text outer after found ih =>
    obtain ⟨before, spaces, rfl⟩ := exists_spaces_of_skipSpace found
    exact closes_end .object spaces (ih h)
  | case12 text outer after found unread closed ih =>
    obtain ⟨before, spaces, rfl⟩ := exists_spaces_of_skipSpace found
    obtain ⟨space, spaces', rfl⟩ := exists_spaces_of_skipSpace closed
    refine ⟨before, _, unread, spaces, .list (.none spaces') (by simp), ?_, ih h⟩
    simp
  | case13 text outer after found _ _ ih =>
    obtain ⟨before, spaces, rfl⟩ := exists_spaces_of_skipSpace found
    obtain ⟨space, value, unread, spaces', isValue, rfl, closes⟩ := ih h
    obtain ⟨items, whole, last, enclosed, all, split, closes⟩ :=
      enclosed_of_closes .list '[' spaces' isValue closes
    exact ⟨before, whole, last, spaces, .list enclosed all, by rw [split], closes⟩
  | case15 text outer after found unread closed ih =>
    obtain ⟨before, spaces, rfl⟩ := exists_spaces_of_skipSpace found
    obtain ⟨space, spaces', rfl⟩ := exists_spaces_of_skipSpace closed
    refine ⟨before, _, unread, spaces, value_of_members (.none spaces') (by simp), ?_, ih h⟩
    simp
  | case17 text outer after found unread key _ _ ih =>
    obtain ⟨before, spaces, rfl⟩ := exists_spaces_of_skipSpace found
    obtain ⟨space, item, unread, spaces', isItem, rfl, closes⟩ := exists_item_of_key key (ih h)
    obtain ⟨items, whole, last, enclosed, all, split, closes⟩ :=
      enclosed_of_closes .object '\x7b' spaces' isItem closes
    exact ⟨before, whole, last, spaces, value_of_members enclosed all, by rw [split], closes⟩
  | case19 text outer after _ _ read ih =>
    obtain ⟨before, spaces, split⟩ := exists_spaces text
    obtain ⟨value, isValue, split'⟩ := exists_scalar read
    refine ⟨before, value, after, spaces, isValue, ?_, ih h⟩
    rw [← split', ← split]

/-- Where a value was skipped, there is one in the text, after white space. -/
theorem exists_value (h : skipValue text = .ok rest) :
    ∃ space value, Spaces space ∧ Value value ∧ text = space ++ (value ++ rest) := by
  obtain ⟨space, value, after, spaces, isValue, split, closes⟩ := continues_of_skip h
  have same : after = rest := closes
  exact ⟨space, value, spaces, isValue, same ▸ split⟩

end MicroBench.Json
