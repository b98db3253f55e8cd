import MicroBench.Pattern.Nesting
import MicroBench.Pattern.Piece

/-! Classes of characters in brackets: single characters, ranges, named classes and other
classes in brackets of their own, with operators for what classes have in common and in
what they differ. Brackets that are still open are kept on a stack. -/
namespace MicroBench.Pattern

/-- A member of a class: a character or one of the kinds of characters. -/
def Piece.isUsableMember (flags : Flags) : Piece → Bool
  | .character code | .octet code => if flags.unicode then !flags.caseless else code < 0x80
  | .kind negated => !flags.unicode && !negated
  | _ => false

/-- Among bytes, all that are not in a class would be parts of characters, so that no class is
negated there. -/
def mayNegate (flags : Flags) : Bool := flags.unicode

/-- The named classes, of ASCII characters only. -/
def classNames : List String :=
  ["alnum", "alpha", "ascii", "blank", "cntrl", "digit", "graph", "lower", "print", "punct",
    "space", "upper", "word", "xdigit"]

/-- The rest after the name of a class and what ends it. -/
def afterName (text : List Char) : Option (List Char) :=
  match text.dropWhile (· ≠ ':') with
  | ':' :: ']' :: rest =>
    if String.ofList (text.takeWhile (· ≠ ':')) ∈ classNames then some rest else none
  | _ => none

/-- A named class after its first bracket, and whether it is negated. -/
def readNamed : List Char → Option (Bool × List Char)
  | ':' :: '^' :: text => (afterName text).map (true, ·)
  | ':' :: text => (afterName text).map (false, ·)
  | _ => none

/-- Among bytes a named class must not be negated; among characters letters must not be taken in
either case. -/
def isUsableNamed (flags : Flags) (negated : Bool) : Bool :=
  if flags.unicode then !flags.caseless else !negated

/-- What a hyphen in a class is followed by, blanks being passed over and one number sign among
them, but no comment. -/
def peekAfterHyphen (flags : Flags) (text : List Char) : Option Char :=
  if flags.spaced then
    match text.dropWhile Text.isBlank with
    | '#' :: text => (text.dropWhile Text.isBlank).head?
    | text => text.head?
  else text.head?

def readMember (flags : Flags) : List Char → Option (Piece × List Char)
  | [] => none
  | '\\' :: text => readEscape flags text
  | c :: text => some (.character c.toNat, text)

/-- A member that can be used, or a range from one character to another. A hyphen before another one
or before the closing bracket makes no range. -/
def readRange (flags : Flags) (text : List Char) : Option (List Char) :=
  match readMember flags text with
  | none => none
  | some (first, rest) =>
    if !first.isUsableMember flags then none
    else
      match skipBlanks flags rest with
      | '-' :: after =>
        if peekAfterHyphen flags after ∈ [some ']', some '-'] then some ('-' :: after)
        else
          match readMember flags (skipBlanks flags after) with
          | none => none
          | some (last, rest) =>
            match first.code?, last.code? with
            | some low, some high =>
              if low ≤ high ∧ last.isUsableMember flags then some rest else none
            | _, _ => none
      | rest => some rest

/-- Brackets that are open. -/
structure Bracket where
  /-- The depth of what stands before the last operator, if there was one. -/
  operand : Option Nat
  members : Row
deriving DecidableEq

namespace Bracket

def blank : Bracket := ⟨none, .empty⟩

def add (bracket : Bracket) (depth : Nat) : Bracket :=
  { bracket with members := bracket.members.add depth }

/-- The depth of what is in the brackets so far; an operator makes a level of its own. -/
def depth (bracket : Bracket) : Nat :=
  match bracket.operand with
  | none => bracket.members.depth
  | some depth => max depth bracket.members.depth + 1

def operated (bracket : Bracket) : Bracket := ⟨some bracket.depth, .empty⟩

end Bracket

/-- The hyphens that a class may begin with, all of them members. -/
def readHyphens (flags : Flags) (bracket : Bracket) (text : List Char) : Bracket × List Char :=
  match _ : skipBlanks flags text with
  | '-' :: rest => readHyphens flags (bracket.add 0) rest
  | rest => (bracket, rest)
termination_by text.length
decreasing_by exact length_lt_of_skipBlanks ‹_›

/-- The members that a class may begin with without any meaning of their own: hyphens, or else a
closing bracket. -/
def readFirstMembers (flags : Flags) (text : List Char) : Bracket × List Char :=
  match readHyphens flags .blank text with
  | (bracket, ']' :: rest) =>
    if bracket = .blank then (bracket.add 0, rest) else (bracket, ']' :: rest)
  | start => start

/-- The start of a class. The members there are characters like any others. -/
def readStart (flags : Flags) (text : List Char) : Option (Bracket × List Char) :=
  let start := readFirstMembers flags text
  if start.1 = .blank ∨ (Piece.character '-'.toNat).isUsableMember flags then some start else none

def openBracket (flags : Flags) (text : List Char) : Option (Bracket × List Char) :=
  match skipBlanks flags text with
  | '^' :: rest => if mayNegate flags then readStart flags rest else none
  | rest => readStart flags rest

/-- The operator that a text begins with: what both classes have, what only the first one has, or
what only one of them has. -/
def afterOperator? : List Char → Option (List Char)
  | '&' :: '&' :: text | '-' :: '-' :: text | '~' :: '~' :: text => some text
  | _ => none

theorem length_afterName_le {text rest : List Char} (h : afterName text = some rest) :
    rest.length ≤ text.length := by
  unfold afterName at h
  split at h
  · rename_i found
    split at h
    · cases h
      have := (List.dropWhile_sublist (· ≠ ':') : List.Sublist _ text).length_le
      rw [found] at this
      simp only [List.length_cons] at this
      omega
    · cases h
  · cases h

theorem length_readNamed_le {text rest : List Char} {negated : Bool}
    (h : readNamed text = some (negated, rest)) : rest.length ≤ text.length := by
  unfold readNamed at h
  split at h
  · obtain ⟨_, found, same⟩ := Option.map_eq_some_iff.1 h
    cases same
    exact Nat.le_trans (length_afterName_le found) (Nat.le_add_right _ 2)
  · obtain ⟨_, found, same⟩ := Option.map_eq_some_iff.1 h
    cases same
    exact Nat.le_succ_of_le (length_afterName_le found)
  · cases h

theorem length_readMember_lt {flags : Flags} {piece : Piece} {text rest : List Char}
    (h : readMember flags text = some (piece, rest)) : rest.length < text.length := by
  unfold readMember at h
  split at h
  · cases h
  · exact Nat.lt_succ_of_le (length_readEscape_le h)
  · cases h
    exact Nat.lt_succ_self _

/-- A range takes a character at least. -/
theorem length_readRange_lt {flags : Flags} {text rest : List Char}
    (h : readRange flags text = some rest) : rest.length < text.length := by
  unfold readRange at h
  split at h
  · cases h
  · rename_i first after read
    have first_lt := length_readMember_lt read
    have blanks := length_skipBlanks_le flags after
    split at h
    · cases h
    · split at h
      · rename_i tail found
        rw [found] at blanks
        split at h
        · cases h
          omega
        · split at h
          · cases h
          · rename_i last_read
            have last_lt := length_readMember_lt last_read
            have := length_skipBlanks_le flags tail
            split at h
            · split at h
              · cases h
                simp only [List.length_cons] at blanks
                omega
              · cases h
            · cases h
      · cases h
        omega

theorem length_readHyphens_le (flags : Flags) (bracket : Bracket) (text : List Char) :
    (readHyphens flags bracket text).2.length ≤ text.length := by
  fun_induction readHyphens flags bracket text with
  | case1 _ _ _ found ih => exact Nat.le_trans ih (Nat.le_of_lt (length_lt_of_skipBlanks found))
  | case2 _ text => exact length_skipBlanks_le flags text

theorem length_readFirstMembers_le (flags : Flags) (text : List Char) :
    (readFirstMembers flags text).2.length ≤ text.length := by
  have hyphens := length_readHyphens_le flags .blank text
  unfold readFirstMembers
  split
  · rename_i found
    rw [found] at hyphens
    split
    · exact Nat.le_of_succ_le hyphens
    · exact hyphens
  · exact hyphens

theorem length_openBracket_le {flags : Flags} {bracket : Bracket} {text rest : List Char}
    (h : openBracket flags text = some (bracket, rest)) : rest.length ≤ text.length := by
  have blanks := length_skipBlanks_le flags text
  have start (text : List Char) : (readStart flags text = some (bracket, rest)) →
      rest.length ≤ text.length := by
    intro h
    unfold readStart at h
    dsimp only at h
    split at h
    · have := length_readFirstMembers_le flags text
      rw [Option.some.inj h] at this
      exact this
    · cases h
  unfold openBracket at h
  split at h
  · rename_i found
    rw [found] at blanks
    split at h
    · exact Nat.le_trans (start _ h) (Nat.le_of_succ_le blanks)
    · cases h
  · exact Nat.le_trans (start _ h) blanks

theorem length_afterOperator_lt {text rest : List Char} (h : afterOperator? text = some rest) :
    rest.length < text.length := by
  unfold afterOperator? at h
  split at h
  all_goals
    cases h <;> simp only [List.length_cons] <;> omega

/-- A class from within its innermost open brackets on; gives its depth. -/
def readClassFrom (flags : Flags) (inner : Bracket) (outer : List Bracket) (text : List Char) :
    Option (Nat × List Char) :=
  match _ : skipBlanks flags text with
  | [] => none
  | '[' :: rest =>
    match _ : readNamed rest with
    | some (negated, after) =>
      if isUsableNamed flags negated then readClassFrom flags (inner.add 0) outer after else none
    | none =>
      match _ : openBracket flags rest with
      | some (bracket, after) => readClassFrom flags bracket (inner :: outer) after
      | none => none
  | ']' :: rest =>
    match outer with
    | [] => some (inner.depth + 1, rest)
    | bracket :: outer => readClassFrom flags (bracket.add (inner.depth + 1)) outer rest
  | c :: rest =>
    match _ : afterOperator? (c :: rest) with
    | some after => readClassFrom flags inner.operated outer after
    | none =>
      match _ : readRange flags (c :: rest) with
      | some after => readClassFrom flags (inner.add 0) outer after
      | none => none
termination_by text.length
decreasing_by
  · have := length_lt_of_skipBlanks ‹skipBlanks _ _ = _›
    have := length_readNamed_le ‹readNamed _ = _›
    omega
  · have := length_lt_of_skipBlanks ‹skipBlanks _ _ = _›
    have := length_openBracket_le ‹openBracket _ _ = _›
    omega
  · exact length_lt_of_skipBlanks ‹_›
  · have := length_lt_of_skipBlanks ‹skipBlanks _ _ = _›
    have := length_afterOperator_lt ‹afterOperator? _ = _›
    simp only [List.length_cons] at this
    omega
  · have := length_lt_of_skipBlanks ‹skipBlanks _ _ = _›
    have := length_readRange_lt ‹readRange _ _ = _›
    simp only [List.length_cons] at this
    omega

/-- A class after its first bracket; gives its depth. -/
def readClass (flags : Flags) (text : List Char) : Option (Nat × List Char) :=
  (openBracket flags text).bind fun (bracket, rest) => readClassFrom flags bracket [] rest

/-- A class takes its closing bracket at least. -/
theorem length_readClassFrom_lt {flags : Flags} {inner : Bracket} {outer : List Bracket}
    {depth : Nat} {text rest : List Char}
    (h : readClassFrom flags inner outer text = some (depth, rest)) :
    rest.length < text.length := by
  fun_induction readClassFrom flags inner outer text with
  | case1 | case3 | case5 | case10 => cases h
  | case2 _ _ _ _ found _ _ named _ ih =>
    have := ih h
    have := length_lt_of_skipBlanks found
    have := length_readNamed_le named
    omega
  | case4 _ _ _ _ found _ _ _ opened ih =>
    have := ih h
    have := length_lt_of_skipBlanks found
    have := length_openBracket_le opened
    omega
  | case6 _ _ _ found =>
    cases h
    exact length_lt_of_skipBlanks found
  | case7 _ _ _ found _ _ ih => exact Nat.lt_trans (ih h) (length_lt_of_skipBlanks found)
  | case8 _ _ _ _ _ _ _ found _ operator ih =>
    have := ih h
    have := length_lt_of_skipBlanks found
    have := length_afterOperator_lt operator
    simp only [List.length_cons] at this
    omega
  | case9 _ _ _ _ _ _ _ found _ _ range ih =>
    have := ih h
    have := length_lt_of_skipBlanks found
    have := length_readRange_lt range
    simp only [List.length_cons] at this
    omega

theorem length_readClass_lt {flags : Flags} {depth : Nat} {text rest : List Char}
    (h : readClass flags text = some (depth, rest)) : rest.length < text.length := by
  obtain ⟨_, opened, h⟩ := Option.bind_eq_some_iff.1 h
  exact Nat.lt_of_lt_of_le (length_readClassFrom_lt h) (length_openBracket_le opened)

end MicroBench.Pattern
