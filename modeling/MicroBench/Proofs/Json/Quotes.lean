import MicroBench.Proofs.Json.Grammar

/-! The two ways to get past a string. One gives the string that is spelled, and the other
only finds its end, in any text that the grammar allows between quotes. -/
namespace MicroBench.Json

variable {text rest body name : List Char}

/-! ### Escapes -/

theorem exists_hex4 {n : Nat} (h : readHex4 text = .ok (n, rest)) :
    ∃ digits, Hex4 digits n ∧ text = digits ++ rest := by
  unfold readHex4 at h
  split at h
  · split at h
    · cases h
      exact ⟨_, .mk ‹_› ‹_› ‹_› ‹_›, rfl⟩
    · cases h
  · cases h

theorem readHex4_text {digits : List Char} {n : Nat} (hex : Hex4 digits n) (rest : List Char) :
    readHex4 (digits ++ rest) = .ok (n, rest) := by
  obtain ⟨ha, hb, hc, hd⟩ := hex
  simp [readHex4, ha, hb, hc, hd]

theorem isTrailing_of_isLeading {unit : Nat} (leading : isLeading unit = true) :
    isTrailing unit = false := by
  simp only [isLeading, isTrailing, Bool.and_eq_true, decide_eq_true_eq, Bool.and_eq_false_iff,
    decide_eq_false_iff_not] at leading ⊢
  omega

theorem exists_trailing {leading : Nat} {c : Char}
    (h : readTrailing leading text = .ok (c, rest)) :
    ∃ digits trailing, Hex4 digits trailing ∧ isTrailing trailing = true ∧
      c = pairChar leading trailing ∧ text = '\\' :: 'u' :: (digits ++ rest) := by
  unfold readTrailing at h
  split at h
  · cases h
  · cases h
  · split at h
    · cases h
    · rename_i found
      obtain ⟨digits, hex, split⟩ := exists_hex4 found
      split at h
      · rename_i trailing
        obtain ⟨rfl, rfl⟩ := Prod.mk.inj (Except.ok.inj h)
        exact ⟨digits, _, hex, trailing, rfl, by rw [split]⟩
      · cases h
  · cases h
  · cases h

theorem exists_escape {c : Char} (h : readEscape text = .ok (c, rest)) :
    ∃ escaped, Escape escaped c ∧ text = escaped ++ rest := by
  unfold readEscape at h
  split at h
  · cases h
  · split at h
    · cases h
    · rename_i found
      obtain ⟨digits, hex, split⟩ := exists_hex4 found
      split at h
      · cases h
      · rename_i untrailing
        split at h
        · rename_i leading
          obtain ⟨digits', trailing, hex', isTrailing, pair, split'⟩ := exists_trailing h
          rw [pair]
          refine ⟨_, .pair hex hex' leading isTrailing, ?_⟩
          rw [split, split']
          simp
        · rename_i unleading
          obtain ⟨rfl, rfl⟩ := Prod.mk.inj (Except.ok.inj h)
          refine ⟨_, .unit hex (Bool.eq_false_iff.2 unleading) (Bool.eq_false_iff.2 untrailing), ?_⟩
          rw [split]
          rfl
  · split at h
    · rename_i found
      obtain ⟨rfl, rfl⟩ := Prod.mk.inj (Except.ok.inj h)
      exact ⟨[_], .letter found, rfl⟩
    · cases h

/-- Every escape by the grammar is read as its character. -/
theorem readEscape_text {escaped : List Char} {c : Char} (escape : Escape escaped c) :
    readEscape (escaped ++ rest) = .ok (c, rest) := by
  cases escape with
  | letter found =>
    rw [List.singleton_append, readEscape]
    · simp only [found]
    · rintro rfl
      cases found
  | unit hex unleading untrailing =>
    simp only [List.cons_append, readEscape, readHex4_text hex, unleading, untrailing, Bool.false_eq_true,
      if_false]
  | @pair digits digits' leading trailing hex hex' isLeading isTrailing =>
    have split : 'u' :: (digits ++ '\\' :: 'u' :: digits') ++ rest =
        'u' :: (digits ++ '\\' :: 'u' :: (digits' ++ rest)) := by simp
    rw [split]
    simp only [readEscape, readHex4_text hex, isTrailing_of_isLeading isLeading, isLeading,
      Bool.false_eq_true, if_false, if_true, readTrailing, readHex4_text hex', isTrailing]

/-! ### Strings that are read -/

/-- What is read up to the closing quote spells the string that was found. -/
theorem exists_spelled {done found : List Char} (h : readString done text = .ok (found, rest)) :
    ∃ body name, Spelled body name ∧ text = body ++ '"' :: rest ∧
      found = done.reverse ++ name := by
  fun_induction readString done text with
  | case1 => cases h
  | case2 done text =>
    cases h
    exact ⟨[], [], .nil, rfl, (List.append_nil _).symm⟩
  | case3 => cases h
  | case4 done text c after escape ih =>
    obtain ⟨escaped, stands, split⟩ := exists_escape escape
    obtain ⟨body, name, spelled, split', whole⟩ := ih h
    refine ⟨'\\' :: (escaped ++ body), c :: name, .escape stands spelled, ?_, ?_⟩
    · rw [split, split']
      simp
    · rw [whole]
      simp
  | case5 => cases h
  | case6 done c text quote backslash control ih =>
    obtain ⟨body, name, spelled, split, whole⟩ := ih h
    refine ⟨c :: body, c :: name, .plain ?_ ?_ (Nat.not_lt.1 control) spelled, ?_, ?_⟩
    · rintro rfl
      exact quote rfl
    · rintro rfl
      exact backslash rfl
    · rw [split]
      rfl
    · rw [whole]
      simp

/-- Whatever spells a string is read as that string. -/
theorem readString_text (spelled : Spelled body name) (done : List Char) :
    readString done (body ++ '"' :: rest) = .ok (done.reverse ++ name, rest) := by
  induction spelled generalizing done with
  | nil => rw [List.nil_append, readString, List.append_nil]
  | plain quote backslash visible _ ih =>
    rw [List.cons_append, readString]
    · rw [if_neg (Nat.not_lt.2 visible), ih, List.reverse_cons, List.append_assoc]
      rfl
    · exact quote
    · exact backslash
  | @escape escaped text name c escape _ ih =>
    have read : readEscape (escaped ++ (text ++ '"' :: rest)) = _ := readEscape_text escape
    rw [List.cons_append, List.append_assoc, readString_backslash, read]
    dsimp only
    rw [ih, List.reverse_cons, List.append_assoc]
    rfl

/-- A text between quotes stands for no more than one string. -/
theorem Spelled.unique {name' : List Char} (spelled : Spelled body name)
    (spelled' : Spelled body name') : name = name' := by
  have read : readString [] (body ++ ['"']) = _ := readString_text spelled []
  have read' : readString [] (body ++ ['"']) = _ := readString_text spelled' []
  rw [read] at read'
  simpa using read'

/-! ### Strings that are skipped -/

theorem exists_skipped_escape (h : skipEscape text = .ok rest) :
    (∃ letter c, simpleEscape letter = some c ∧ text = letter :: rest) ∨
      ∃ digits unit, Hex4 digits unit ∧ text = 'u' :: (digits ++ rest) := by
  unfold skipEscape at h
  split at h
  · cases h
  · rename_i text
    right
    cases read : readHex4 text with
    | error fault =>
      rw [read] at h
      cases h
    | ok found =>
      obtain ⟨unit, after⟩ := found
      rw [read] at h
      cases h
      obtain ⟨digits, hex, split⟩ := exists_hex4 read
      exact ⟨digits, unit, hex, by rw [split]⟩
  · split at h
    · rename_i letter text _ known
      cases h
      obtain ⟨c, found⟩ := Option.isSome_iff_exists.1 known
      exact .inl ⟨letter, c, found, rfl⟩
    · cases h

/-- What is skipped up to the closing quote may stand between quotes. -/
theorem exists_quotable (h : skipString text = .ok rest) :
    ∃ body, Quotable body ∧ text = body ++ '"' :: rest := by
  fun_induction skipString text with
  | case1 => cases h
  | case2 text =>
    cases h
    exact ⟨[], .nil, rfl⟩
  | case3 => cases h
  | case4 text after escape ih =>
    obtain ⟨body, quotable, split⟩ := ih h
    rcases exists_skipped_escape escape with ⟨letter, c, found, split'⟩ | ⟨digits, unit, hex, split'⟩
    · refine ⟨'\\' :: letter :: body, .letter found quotable, ?_⟩
      rw [split', split]
      rfl
    · refine ⟨'\\' :: 'u' :: (digits ++ body), .unit hex quotable, ?_⟩
      rw [split', split]
      simp
  | case5 => cases h
  | case6 c text quote backslash control ih =>
    obtain ⟨body, quotable, split⟩ := ih h
    refine ⟨c :: body, .plain ?_ ?_ (Nat.not_lt.1 control) quotable, ?_⟩
    · rintro rfl
      exact quote rfl
    · rintro rfl
      exact backslash rfl
    · rw [split]
      rfl

theorem skipString_text (quotable : Quotable body) :
    skipString (body ++ '"' :: rest) = .ok rest := by
  induction quotable with
  | nil => rw [List.nil_append, skipString]
  | plain quote backslash visible _ ih =>
    rw [List.cons_append, skipString]
    · rw [if_neg (Nat.not_lt.2 visible), ih]
    · exact quote
    · exact backslash
  | @letter letter c text found _ ih =>
    have escape : skipEscape (letter :: (text ++ '"' :: rest)) = .ok (text ++ '"' :: rest) := by
      rw [skipEscape]
      · rw [found]
        rfl
      · rintro rfl
        cases found
    rw [List.cons_append, List.cons_append, skipString_backslash, escape]
    exact ih
  | @unit digits text unit hex _ ih =>
    have escape : skipEscape ('u' :: (digits ++ (text ++ '"' :: rest))) =
        .ok (text ++ '"' :: rest) := by
      rw [skipEscape, readHex4_text hex]
      rfl
    have split : '\\' :: 'u' :: (digits ++ text) ++ '"' :: rest =
        '\\' :: 'u' :: (digits ++ (text ++ '"' :: rest)) := by simp
    rw [split, skipString_backslash, escape]
    exact ih

/-- The quote that closes a string is the only one that can. -/
theorem Quotable.unique {body' rest' : List Char} (quotable : Quotable body)
    (quotable' : Quotable body') (same : body ++ '"' :: rest = body' ++ '"' :: rest') :
    body = body' ∧ rest = rest' := by
  have ended := congrArg skipString same
  rw [skipString_text quotable, skipString_text quotable'] at ended
  have after := Except.ok.inj ended
  rw [after, List.append_cancel_right_eq] at same
  exact ⟨same, after⟩

/-- Whatever spells a string may stand between quotes. -/
theorem Spelled.quotable (spelled : Spelled body name) : Quotable body := by
  induction spelled with
  | nil => exact .nil
  | plain quote backslash visible _ ih => exact .plain quote backslash visible ih
  | @escape escaped text name c escape _ ih =>
    cases escape with
    | letter found => exact .letter found ih
    | unit hex => exact .unit hex ih
    | @pair digits digits' _ _ hex hex' =>
      have split : '\\' :: ('u' :: (digits ++ '\\' :: 'u' :: digits') ++ text) =
          '\\' :: 'u' :: (digits ++ '\\' :: 'u' :: (digits' ++ text)) := by simp
      rw [split]
      exact .unit hex (.unit hex' ih)

end MicroBench.Json
