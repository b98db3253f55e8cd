import MicroBench.Proofs.Json.Values

/-! Every value of the grammar is skipped, and exactly that much of the text, whatever
containers are open around it. -/
namespace MicroBench.Json

variable {text rest space after : List Char} {outer : List Container} {c : Char}

/-! ### Turns of the reader -/

theorem skip_list_comma (found : skipSpace text = ',' :: rest) :
    skip .next (.list :: outer) text = skip .value (.list :: outer) rest := by
  rw [skip]
  split <;> simp_all

theorem skip_list_close (found : skipSpace text = ']' :: rest) :
    skip .next (.list :: outer) text = skip .next outer rest := by
  rw [skip]
  split <;> simp_all

theorem skip_object_comma (found : skipSpace text = ',' :: rest)
    (key : skipKey rest = .ok after) :
    skip .next (.object :: outer) text = skip .value (.object :: outer) after := by
  rw [skip]
  split <;> simp_all
  split <;> simp_all

theorem skip_object_close (found : skipSpace text = '\x7d' :: rest) :
    skip .next (.object :: outer) text = skip .next outer rest := by
  rw [skip]
  split <;> simp_all

theorem skip_list_none (found : skipSpace text = '[' :: rest)
    (closed : skipSpace rest = ']' :: after) :
    skip .value outer text = skip .next outer after := by
  rw [skip]
  split <;> simp_all
  split <;> simp_all

theorem skip_list_some (found : skipSpace text = '[' :: rest) (first : skipSpace rest = c :: after)
    (other : c ≠ ']') : skip .value outer text = skip .value (.list :: outer) rest := by
  rw [skip]
  split <;> simp_all

theorem skip_object_none (found : skipSpace text = '\x7b' :: rest)
    (closed : skipSpace rest = '\x7d' :: after) :
    skip .value outer text = skip .next outer after := by
  rw [skip]
  split <;> simp_all
  split <;> simp_all

theorem skip_object_some (found : skipSpace text = '\x7b' :: rest)
    (first : skipSpace rest = '"' :: space) (key : skipKey rest = .ok after) :
    skip .value outer text = skip .value (.object :: outer) after := by
  rw [skip]
  split <;> simp_all
  split <;> simp_all

theorem skip_scalar (found : skipSpace text = c :: rest) (unlike : c ≠ '[') (unlike' : c ≠ '\x7b')
    (read : skipScalar (c :: rest) = .ok after) :
    skip .value outer text = skip .next outer after := by
  rw [skip]
  split
  · rename_i list
    rw [found] at list
    cases list
    exact absurd rfl unlike
  · rename_i object
    rw [found] at object
    cases object
    exact absurd rfl unlike'
  · split
    · rename_i failed
      rw [found, read] at failed
      cases failed
    · rename_i skipped
      rw [found, read] at skipped
      cases skipped
      rfl

/-! ### Scalars and keys -/

theorem starts_numeral (x : Numeral) :
    ∃ d others, x.text = d :: others ∧ startsNumber d = true := by
  rcases sign_cases x with ⟨-, text⟩ | ⟨-, d, others, whole, digit, text⟩
  · exact ⟨'-', _, text, rfl⟩
  · exact ⟨d, _, by rw [text, whole]; rfl, startsNumber_of_isDigit digit⟩

theorem ne_of_startsNumber {d e : Char} (number : startsNumber d = true)
    (other : startsNumber e = false) : d ≠ e := by
  rintro rfl
  rw [number] at other
  cases other

/-- Every value begins with a character that is no space, and that neither separates nor closes. -/
theorem ValueWith.starts {Key : List Char → Prop} {value : List Char}
    (isValue : ValueWith Key value) : Starts value := by
  cases isValue with
  | number x =>
    obtain ⟨d, others, text, number⟩ := starts_numeral x
    exact ⟨d, others, text, isSpace_of_startsNumber number, ne_of_startsNumber number rfl,
      ne_of_startsNumber number rfl, ne_of_startsNumber number rfl⟩
  | list enclosed =>
    cases enclosed
    · exact ⟨'[', _, rfl, by decide⟩
    · exact ⟨'[', _, rfl, by decide⟩
  | @object members _ enclosed =>
    generalize members.map Member.text = items at enclosed
    cases enclosed
    · exact ⟨'\x7b', _, rfl, by decide⟩
    · exact ⟨'\x7b', _, rfl, by decide⟩
  | null => exact ⟨'n', _, rfl, by decide⟩
  | true => exact ⟨'t', _, rfl, by decide⟩
  | false => exact ⟨'f', _, rfl, by decide⟩
  | string => exact ⟨'"', _, rfl, by decide⟩

theorem skipScalar_numeral (x : Numeral) (ends : Ends rest) :
    skipScalar (x.text ++ rest) = .ok rest := by
  have skipped := skipNumber_text x (endsNumber_of_ends ends _ _)
  obtain ⟨d, others, text, number⟩ := starts_numeral x
  rw [text] at skipped ⊢
  rw [List.cons_append, skipScalar]
  · rw [if_pos number]
    exact skipped
  all_goals
    rintro rfl
    cases number

theorem skipScalar_string {body : List Char} (quotable : Quotable body) :
    skipScalar ('"' :: (body ++ ['"']) ++ rest) = .ok rest := by
  have skipped : skipString (body ++ '"' :: rest) = _ := skipString_text quotable
  simpa [skipScalar] using skipped

theorem skipKey_member {m : Member} (spaces : Spaces space) (quotable : Quotable m.key) :
    skipKey (space ++ (m.text ++ rest)) = .ok (m.after ++ (m.value ++ rest)) := by
  have key : skipSpace (space ++ (m.text ++ rest)) = '"' :: (m.key ++
      '"' :: (m.before ++ ':' :: (m.after ++ (m.value ++ rest)))) := by
    simp only [Member.text, List.cons_append, List.append_assoc]
    exact skipSpace_spaces spaces rfl _
  have colon : readColon (m.before ++ ':' :: (m.after ++ (m.value ++ rest))) =
      .ok (m.after ++ (m.value ++ rest)) := readColon_eq_ok.2 ⟨m.before, m.before_spaces, rfl⟩
  simp only [skipKey, key, skipString_text quotable, colon]

/-! ### Values with parts -/

def Skipped (value : List Char) : Prop :=
  ∀ ⦃space rest : List Char⦄ ⦃outer : List Container⦄, Spaces space → Ends rest →
    skip .value outer (space ++ (value ++ rest)) = skip .next outer rest

/-- The items of an open list are skipped, up to behind its bracket. -/
theorem skip_others {items : List (List Char)} {others : List Char} (follow : Others items others)
    (skipped : ∀ item ∈ items, Skipped item) :
    skip .next (.list :: outer) (others ++ ']' :: rest) = skip .next outer rest := by
  induction follow with
  | none spaces =>
    exact skip_list_close (skipSpace_spaces spaces rfl _)
  | @more before after item others items spaces spaces' follow ih =>
    obtain ⟨first, later⟩ := List.forall_mem_cons.1 skipped
    have split : before ++ ',' :: (after ++ (item ++ others)) ++ ']' :: rest =
        before ++ ',' :: (after ++ (item ++ (others ++ ']' :: rest))) := by simp
    rw [split, skip_list_comma (skipSpace_spaces spaces rfl _),
      first spaces' (ends_others follow (.inl rfl) rest), ih later]

theorem skip_members {members : List Member} {others : List Char}
    (follow : Others (members.map Member.text) others) (keys : ∀ m ∈ members, Quotable m.key)
    (skipped : ∀ m ∈ members, Skipped m.value) :
    skip .next (.object :: outer) (others ++ '\x7d' :: rest) = skip .next outer rest := by
  induction members generalizing others with
  | nil =>
    cases follow with
    | none spaces =>
      exact skip_object_close (skipSpace_spaces spaces rfl _)
  | cons m members ih =>
    cases follow with
    | @more before after _ others _ spaces spaces' follow =>
      obtain ⟨quotable, keys⟩ := List.forall_mem_cons.1 keys
      obtain ⟨first, later⟩ := List.forall_mem_cons.1 skipped
      have split : before ++ ',' :: (after ++ (m.text ++ others)) ++ '\x7d' :: rest =
          before ++ ',' :: (after ++ (m.text ++ (others ++ '\x7d' :: rest))) := by simp
      rw [split,
        skip_object_comma (skipSpace_spaces spaces rfl _) (skipKey_member spaces' quotable),
        first m.after_spaces (ends_others follow (.inr rfl) rest), ih follow keys later]

/-- A scalar that does not begin like a number. -/
theorem skipped_of_scalar {c : Char} {others : List Char} (ink : isSpace c = false)
    (unlike : c ≠ '[') (unlike' : c ≠ '\x7b')
    (read : ∀ {rest}, Ends rest → skipScalar (c :: (others ++ rest)) = .ok rest) :
    Skipped (c :: others) := by
  intro space rest outer spaces ends
  exact skip_scalar (skipSpace_spaces spaces ink _) unlike unlike' (read ends)

theorem skipped_list {items : List (List Char)} {value : List Char}
    (enclosed : Enclosed '[' ']' items value) (starts : ∀ item ∈ items, Starts item)
    (skipped : ∀ item ∈ items, Skipped item) : Skipped value := by
  intro before rest outer spaces ends
  cases enclosed with
  | @none space spaces' =>
    have split : before ++ ('[' :: (space ++ [']']) ++ rest) =
        before ++ '[' :: (space ++ ']' :: rest) := by simp
    rw [split]
    exact skip_list_none (skipSpace_spaces spaces rfl _) (skipSpace_spaces spaces' rfl _)
  | @some space item others items spaces' follow =>
    obtain ⟨first, later⟩ := List.forall_mem_cons.1 skipped
    obtain ⟨c, item', text, ink, -, other, -⟩ := starts item List.mem_cons_self
    have split : before ++ ('[' :: (space ++ (item ++ (others ++ [']']))) ++ rest) =
        before ++ '[' :: (space ++ (item ++ (others ++ ']' :: rest))) := by simp
    have found : skipSpace (space ++ (item ++ (others ++ ']' :: rest))) =
        c :: (item' ++ (others ++ ']' :: rest)) := by
      rw [text]
      exact skipSpace_spaces spaces' ink _
    rw [split, skip_list_some (skipSpace_spaces spaces rfl _) found other,
      first spaces' (ends_others follow (.inl rfl) rest), skip_others follow later]

theorem skipped_object {members : List Member} {value : List Char}
    (enclosed : Enclosed '\x7b' '\x7d' (members.map Member.text) value)
    (keys : ∀ m ∈ members, Quotable m.key) (skipped : ∀ m ∈ members, Skipped m.value) :
    Skipped value := by
  intro before rest outer spaces ends
  cases members with
  | nil =>
    cases enclosed with
    | @none space spaces' =>
      have split : before ++ ('\x7b' :: (space ++ ['\x7d']) ++ rest) =
          before ++ '\x7b' :: (space ++ '\x7d' :: rest) := by simp
      rw [split]
      exact skip_object_none (skipSpace_spaces spaces rfl _) (skipSpace_spaces spaces' rfl _)
  | cons m members =>
    cases enclosed with
    | @some space _ others _ spaces' follow =>
      obtain ⟨quotable, keys⟩ := List.forall_mem_cons.1 keys
      obtain ⟨first, later⟩ := List.forall_mem_cons.1 skipped
      have split : before ++ ('\x7b' :: (space ++ (m.text ++ (others ++ ['\x7d']))) ++ rest) =
          before ++ '\x7b' :: (space ++ (m.text ++ (others ++ '\x7d' :: rest))) := by simp
      have found : skipSpace (space ++ (m.text ++ (others ++ '\x7d' :: rest))) = '"' :: _ :=
        skipSpace_spaces spaces' rfl _
      rw [split, skip_object_some (skipSpace_spaces spaces rfl _) found
          (skipKey_member spaces' quotable),
        first m.after_spaces (ends_others follow (.inr rfl) rest),
        skip_members follow keys later]

/-- Every value by the grammar is skipped, by induction on how it is built. -/
theorem skipped_of_value {value : List Char} (isValue : Value value) : Skipped value := by
  induction isValue with
  | null => exact skipped_of_scalar rfl (by decide) (by decide) fun _ => rfl
  | true => exact skipped_of_scalar rfl (by decide) (by decide) fun _ => rfl
  | false => exact skipped_of_scalar rfl (by decide) (by decide) fun _ => rfl
  | number x =>
    have skipped {rest} (ends : Ends rest) := skipScalar_numeral x ends
    obtain ⟨d, others, text, number⟩ := starts_numeral x
    simp only [text] at skipped ⊢
    exact skipped_of_scalar (isSpace_of_startsNumber number) (ne_of_startsNumber number rfl)
      (ne_of_startsNumber number rfl) skipped
  | string quotable =>
    exact skipped_of_scalar rfl (by decide) (by decide) fun _ => skipScalar_string quotable
  | list enclosed values ih =>
    exact skipped_list enclosed (fun item member => (values item member).starts) ih
  | object enclosed keys _ ih => exact skipped_object enclosed keys ih

/-- A value is skipped with the white space before it. -/
theorem skipValue_text {value : List Char} (isValue : Value value) (spaces : Spaces space)
    (ends : Ends rest) : skipValue (space ++ (value ++ rest)) = .ok rest := by
  rw [skipValue, skipped_of_value isValue spaces ends, skip]

end MicroBench.Json
