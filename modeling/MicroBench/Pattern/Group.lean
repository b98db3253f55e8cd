import MicroBench.Pattern.Flags
import MicroBench.Text.Alphanumeric

/-! What an opening parenthesis begins: a group, with a name or with flags of its own, or a
change of the flags for what follows. -/
namespace MicroBench.Pattern

inductive Opening where
  | group (flags : Flags) (name : Option (List Char))
  | change (flags : Flags)
deriving DecidableEq

/-- A name of a group begins with a letter or an underscore. -/
def isGroupName : List Char → Bool
  | [] => false
  | first :: rest =>
    (first = '_' || Text.isAlphabetic first) &&
      rest.all fun c => c ∈ ['_', '.', '[', ']'] || Text.isAlphanumeric c

def readNamedGroup (flags : Flags) (text : List Char) : Option (Opening × List Char) :=
  let name := text.takeWhile (· ≠ '>')
  match text.dropWhile (· ≠ '>') with
  | _ :: rest => if isGroupName name then some (.group flags (some name), rest) else none
  | [] => none

def endsFlags (c : Char) : Bool := c = ':' || c = ')'

/-- Flags and what ends them: a colon if they are those of a group. Otherwise there must be some. -/
def readFlags (flags : Flags) (text : List Char) : Option (Opening × List Char) :=
  let changes := text.takeWhile (!endsFlags ·)
  match text.dropWhile (!endsFlags ·) with
  | [] => none
  | c :: rest =>
    if c = ':' then (flags.changed? changes).map fun inner => (.group inner none, rest)
    else if changes = [] then none
    else (flags.changed? changes).map fun new => (.change new, rest)

def readOpening (flags : Flags) (text : List Char) : Option (Opening × List Char) :=
  match skipBlanks flags text with
  | '?' :: 'P' :: '<' :: rest => readNamedGroup flags rest
  | '?' :: '<' :: rest => readNamedGroup flags rest
  | '?' :: rest => readFlags flags rest
  | rest => some (.group flags none, rest)

theorem length_tail_dropWhile_le {p : Char → Bool} {text rest : List Char} {c : Char}
    (h : text.dropWhile p = c :: rest) : rest.length ≤ text.length := by
  have := (List.dropWhile_sublist p : List.Sublist _ text).length_le
  rw [h] at this
  exact Nat.le_of_succ_le this

theorem length_readNamedGroup_le {flags : Flags} {opening : Opening} {text rest : List Char}
    (h : readNamedGroup flags text = some (opening, rest)) : rest.length ≤ text.length := by
  unfold readNamedGroup at h
  dsimp only at h
  split at h
  · rename_i found
    split at h
    · cases h
      exact length_tail_dropWhile_le found
    · cases h
  · cases h

theorem length_readFlags_le {flags : Flags} {opening : Opening} {text rest : List Char}
    (h : readFlags flags text = some (opening, rest)) : rest.length ≤ text.length := by
  unfold readFlags at h
  dsimp only at h
  split at h
  · cases h
  · rename_i found
    have := length_tail_dropWhile_le found
    split at h
    · obtain ⟨_, _, same⟩ := Option.map_eq_some_iff.1 h
      cases same
      exact this
    · split at h
      · cases h
      · obtain ⟨_, _, same⟩ := Option.map_eq_some_iff.1 h
        cases same
        exact this

theorem length_readOpening_le {flags : Flags} {opening : Opening} {text rest : List Char}
    (h : readOpening flags text = some (opening, rest)) : rest.length ≤ text.length := by
  have blanks := length_skipBlanks_le flags text
  unfold readOpening at h
  split at h
  · rename_i found
    rw [found] at blanks
    have := length_readNamedGroup_le h
    simp only [List.length_cons] at blanks
    omega
  · rename_i found
    rw [found] at blanks
    have := length_readNamedGroup_le h
    simp only [List.length_cons] at blanks
    omega
  · rename_i found
    rw [found] at blanks
    have := length_readFlags_le h
    simp only [List.length_cons] at blanks
    omega
  · cases h
    exact blanks

end MicroBench.Pattern
