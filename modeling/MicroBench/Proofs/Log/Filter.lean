import MicroBench.Log.Filter
import MicroBench.Proofs.Text.Trimmed

/-! Which settings of the log cannot be taken apart. The parts of a directive are located
without the white space at its beginning and cut out of it with that white space, at the
same places in bytes. A place of the one text may lie inside a character of the other, but
only if there is such white space, and a character of more than one byte. -/
namespace MicroBench

namespace Text

@[simp] theorem byteCount_nil : byteCount [] = 0 := rfl

@[simp] theorem byteCount_cons (c : Char) (text : List Char) :
    byteCount (c :: text) = c.utf8Size + byteCount text := rfl

theorem byteCount_append (a b : List Char) : byteCount (a ++ b) = byteCount a + byteCount b := by
  induction a with
  | nil => simp
  | cons c a ih => rw [List.cons_append, byteCount_cons, byteCount_cons, ih, Nat.add_assoc]

theorem byteCount_pos (c : Char) (text : List Char) : 0 < byteCount (c :: text) :=
  Nat.add_pos_left c.utf8Size_pos _

theorem splitBytes_byteCount (front back : List Char) :
    splitBytes (byteCount front) (front ++ back) = some (front, back) := by
  induction front with
  | nil => cases back <;> rfl
  | cons c front ih =>
    obtain ⟨bytes, positive⟩ : ∃ bytes, byteCount (c :: front) = bytes + 1 :=
      Nat.exists_eq_add_one.2 (byteCount_pos c front)
    have fewer : bytes + 1 - c.utf8Size = byteCount front := by
      rw [← positive]
      exact Nat.add_sub_cancel_left ..
    have fits : c.utf8Size ≤ bytes + 1 := positive ▸ Nat.le_add_right ..
    simp only [positive, List.cons_append, splitBytes, if_pos fits, fewer, ih]
    rfl

example : splitBytes 3 ['a', 'é', 'b'] = some (['a', 'é'], ['b']) := by decide

/-- Of two beginnings of a text, the one with fewer bytes begins the other. -/
theorem prefix_of_byteCount_le {a b text : List Char} (begins : a <+: text) (begins' : b <+: text)
    (fewer : byteCount a ≤ byteCount b) : a <+: b := by
  rcases List.prefix_or_prefix_of_prefix begins begins' with shorter | ⟨excess, rfl⟩
  · exact shorter
  · cases excess with
    | nil => exact ⟨[], by simp⟩
    | cons c excess =>
      have more := byteCount_pos c excess
      rw [byteCount_append] at fewer
      omega

/-- Every place in one text, counted in bytes, is a place in another. -/
def PlacesIn (t text : List Char) : Prop :=
  ∀ before rest, t = before ++ rest →
    ∃ front back, text = front ++ back ∧ byteCount front = byteCount before

theorem placesIn_of_prefix {t text : List Char} (begins : t <+: text) : PlacesIn t text := by
  obtain ⟨after, rfl⟩ := begins
  rintro before rest rfl
  exact ⟨before, rest ++ after, List.append_assoc .., rfl⟩

theorem byteCount_of_ascii {text : List Char} (ascii : ∀ c ∈ text, c.utf8Size = 1) :
    byteCount text = text.length := by
  induction text with
  | nil => rfl
  | cons c text ih =>
    obtain ⟨one, ascii⟩ := List.forall_mem_cons.1 ascii
    rw [byteCount_cons, one, ih ascii, List.length_cons, Nat.add_comm]

/-- Among characters of one byte each, every number of bytes is a place. -/
theorem placesIn_of_ascii {t text : List Char} (shorter : byteCount t ≤ byteCount text)
    (ascii : ∀ c ∈ text, c.utf8Size = 1) : PlacesIn t text := by
  rintro before rest rfl
  refine ⟨text.take (byteCount before), text.drop (byteCount before),
    (List.take_append_drop ..).symm, ?_⟩
  rw [byteCount_of_ascii fun c member => ascii c (List.mem_of_mem_take member),
    List.length_take, ← byteCount_of_ascii ascii]
  rw [byteCount_append] at shorter
  exact min_eq_left (Nat.le_of_add_right_le shorter)

end Text

namespace Log

open Text

def Whole {α : Type} (result : Except Unusable α) : Prop := result ≠ .error .divided

theorem whole_ok {α : Type} (a : α) : Whole (.ok a) := nofun

theorem whole_malformed {α : Type} : Whole (.error .malformed : Except Unusable α) := nofun

theorem whole_bind {α β : Type} {first : Except Unusable α} {next : α → Except Unusable β}
    (whole : Whole first) (whole' : ∀ a, Whole (next a)) : Whole (first >>= next) := by
  cases first with
  | error e =>
    rintro ⟨⟩
    exact whole rfl
  | ok a => exact whole' a

theorem whole_mapM {α β : Type} {f : α → Except Unusable β} {as : List α}
    (whole : ∀ a ∈ as, Whole (f a)) : Whole (as.mapM f) := by
  induction as with
  | nil => exact whole_ok []
  | cons a as ih =>
    obtain ⟨first, rest⟩ := List.forall_mem_cons.1 whole
    rw [List.mapM_cons]
    exact whole_bind first fun b => whole_bind (ih rest) fun bs => whole_ok _

theorem whole_ceilingOf (text : List Char) : Whole (ceilingOf text) := by
  rw [ceilingOf]
  split
  · split
    · exact whole_ok _
    · exact whole_malformed
  · split
    · exact whole_ok _
    · exact whole_malformed

theorem FieldPattern.whole_ofText (text : List Char) : Whole (FieldPattern.ofText text) := by
  simp only [FieldPattern.ofText]
  split
  · split
    · exact whole_malformed
    · exact whole_ok _
  · split
    · exact whole_ok _
    · exact whole_malformed

namespace Directive

variable {scissors : Scissors} (places : PlacesIn scissors.body scissors.text)

namespace Scissors

include places

/-- What is cut out at a place of the body begins at the same place of the text. -/
theorem cutAll_eq {before rest : List Char} (located : scissors.body = before ++ rest) :
    ∃ front back, scissors.text = front ++ back ∧ byteCount front = byteCount before ∧
      scissors.cutAll rest = .ok back := by
  obtain ⟨front, back, parted, same⟩ := places before rest located
  have start : byteCount scissors.body - byteCount rest = byteCount front := by
    rw [located, byteCount_append, Nat.add_sub_cancel, same]
  refine ⟨front, back, parted, same, ?_⟩
  rw [cutAll, start, parted, splitBytes_byteCount]

theorem whole_cutAll {before rest : List Char} (located : scissors.body = before ++ rest) :
    Whole (scissors.cutAll rest) := by
  obtain ⟨_, back, -, -, cut⟩ := cutAll_eq places located
  rw [cut]
  exact whole_ok back

/-- Both ends of a part are places of the text, and the second one does not come first. -/
theorem whole_cut {before part rest : List Char}
    (located : scissors.body = before ++ (part ++ rest)) : Whole (scissors.cut part rest) := by
  obtain ⟨front, back, parted, same, cut⟩ := cutAll_eq places located
  obtain ⟨front', back', parted', same'⟩ :=
    places (before ++ part) rest (located.trans (List.append_assoc ..).symm)
  rw [byteCount_append, ← same] at same'
  obtain ⟨piece, rfl⟩ := prefix_of_byteCount_le ⟨back, parted.symm⟩ ⟨back', parted'.symm⟩
    (same' ▸ Nat.le_add_right ..)
  rw [parted, List.append_assoc, List.append_cancel_left_eq] at parted'
  rw [byteCount_append, Nat.add_left_cancel_iff] at same'
  rw [Scissors.cut, cut, parted', ← same']
  simp only [bind, Except.bind, splitBytes_byteCount]
  exact whole_ok piece

end Scissors

section

include places

theorem whole_readCeiling {before rest : List Char} (located : scissors.body = before ++ rest) :
    Whole (readCeiling scissors rest) := by
  unfold readCeiling
  split
  · exact whole_ok _
  · rename_i rest
    have after : scissors.body = before ++ ['='] ++ rest := by simpa using located
    refine whole_bind (Scissors.whole_cutAll places after) fun name => ?_
    split
    · exact whole_ok _
    · exact whole_ceilingOf _
  · exact whole_malformed

omit places in
/-- What a reader takes, and what it goes on with. -/
theorem taken_append {p : Char → Bool} {inside rest : List Char}
    (dropped : inside.drop (inside.takeWhile p).length = rest) :
    inside = inside.takeWhile p ++ rest := by
  have front : inside.takeWhile p = inside.take (inside.takeWhile p).length :=
    List.prefix_iff_eq_take.1 (List.takeWhile_prefix p)
  calc inside
    _ = inside.take (inside.takeWhile p).length ++ inside.drop (inside.takeWhile p).length :=
      (List.take_append_drop ..).symm
    _ = inside.takeWhile p ++ rest := by rw [← front, dropped]

theorem whole_readField {before inside : List Char} (target : Option String) (span : String)
    (located : scissors.body = before ++ inside) :
    Whole (readField scissors target span inside) := by
  simp only [readField]
  split
  · exact whole_malformed
  · rename_i closing rest dropped
    rw [taken_append dropped] at located
    refine whole_bind (Scissors.whole_cut places located) fun part => ?_
    refine whole_bind (FieldPattern.whole_ofText part) fun field => ?_
    split
    · rename_i rest
      have after : scissors.body =
          before ++ inside.takeWhile (· ≠ '\x7d') ++ [closing, ']'] ++ rest := by
        simpa using located
      exact whole_bind (whole_readCeiling places after) fun ceiling => whole_ok _
    · exact whole_malformed

theorem whole_readSpan {before inner : List Char} (target : Option String)
    (located : scissors.body = before ++ inner) : Whole (readSpan scissors target inner) := by
  simp only [readSpan]
  split
  · exact whole_malformed
  · rename_i closing rest dropped
    rw [taken_append dropped] at located
    refine whole_bind (Scissors.whole_cut places located) fun part => ?_
    have after : scissors.body = (before ++ inner.takeWhile fun c => c ≠ ']' ∧ c ≠ '\x7b') ++
        [closing] ++ rest := by simpa using located
    split
    · exact whole_bind (whole_readCeiling places after) fun ceiling => whole_ok _
    · exact whole_readField places target _ after

theorem whole_readWhole : Whole (readWhole scissors) := by
  have start : scissors.body = [] ++ scissors.body := rfl
  refine whole_bind (Scissors.whole_cutAll places start) fun whole => ?_
  split
  · exact whole_ok _
  · exact whole_ok _

/-- No part of a directive is cut out inside a character, if its places are those of the text. -/
theorem whole_readBody : Whole (readBody scissors) := by
  unfold readBody
  split
  · exact whole_malformed
  · rename_i inner body
    have start : scissors.body = ['['] ++ inner := body
    exact whole_readSpan places none start
  · split
    · exact whole_malformed
    · simp only []
      split
      · exact whole_readWhole places
      · rename_i mark rest dropped
        have located := taken_append dropped
        have start : scissors.body = [] ++ (_ ++ mark :: rest) := located
        refine whole_bind (Scissors.whole_cut places start) fun part => ?_
        split
        · rw [List.append_cons] at located
          exact whole_readSpan places _ located
        · exact whole_bind (whole_readCeiling places located) fun ceiling => whole_ok _

end

/-- A text that begins with white space, and in which not every number of bytes is a place. -/
def Shifting (text : List Char) : Prop :=
  (∃ c ∈ text.head?, isBlank c = true) ∧ ∃ c ∈ text, 1 < c.utf8Size

/-- Without white space in front, or with one byte for each character, places stay places. -/
theorem placesIn_trimmed {text : List Char} (steady : ¬ Shifting text) :
    PlacesIn (trimmed text) text := by
  obtain ⟨blank, after, blanks, -, parted⟩ := (stripped_trimmed text).between
  cases blank with
  | nil => exact placesIn_of_prefix ⟨after, parted.symm⟩
  | cons c blank =>
    have shorter : byteCount (trimmed text) ≤ byteCount text := by
      have longer := congrArg byteCount parted
      rw [byteCount_append, byteCount_append] at longer
      omega
    have first : text.head? = some c := by rw [parted]; rfl
    have ascii : ∀ c ∈ text, c.utf8Size = 1 := by
      intro d member
      by_contra wide
      refine steady ⟨⟨c, first, blanks c List.mem_cons_self⟩, d, member, ?_⟩
      have positive := d.utf8Size_pos
      omega
    exact placesIn_of_ascii shorter ascii

theorem shifting_of_divided {text : List Char} (divided : ofText text = .error .divided) :
    Shifting text := by
  by_contra steady
  have places : PlacesIn (Scissors.mk (trimmed text) text).body text := placesIn_trimmed steady
  exact whole_readBody places divided

example : ofText "\u00a0a=debug".toList matches .error .divided := by decide +kernel

end Directive

/-- A setting that cannot be taken apart has a directive that begins with white space and has
characters of more than one byte. -/
theorem Filter.shifting_of_ofSetting {setting : Option String} (broken : ofSetting setting = none) :
    ∃ text, setting = some text ∧ ∃ part ∈ text.toList.splitOn ',', Directive.Shifting part := by
  cases setting with
  | none => simp [ofSetting] at broken
  | some text =>
    refine ⟨text, rfl, ?_⟩
    by_contra steady
    have whole : Whole (((text.toList.splitOn ',').filter (· ≠ [])).mapM Directive.ofText) := by
      refine whole_mapM fun part member divided => steady ?_
      exact ⟨part, (List.mem_filter.1 member).1, Directive.shifting_of_divided divided⟩
    simp only [ofSetting] at broken
    split at broken
    · cases broken
    · cases broken
    · rename_i divided
      exact whole divided

end Log

end MicroBench
