import MicroBench.Pattern.Class
import MicroBench.Pattern.Group

/-! Whether a pattern can be used. It must be well formed, not too deeply nested, and made
of pieces that can be used. Groups that are still open are kept on a stack. -/
namespace MicroBench.Pattern

/-- The alternatives of a group so far. -/
structure Alternatives where
  before : Row
  /-- The parts of the last alternative, but for the last part if that can be repeated. -/
  parts : Row
  /-- The depth of the last part, if that can be repeated. -/
  last : Option Nat
deriving DecidableEq

namespace Alternatives

def blank : Alternatives := ⟨.empty, .empty, none⟩

def allParts (a : Alternatives) : Row :=
  match a.last with
  | none => a.parts
  | some depth => a.parts.add depth

def add (a : Alternatives) (depth : Nat) : Alternatives :=
  { a with parts := a.allParts, last := some depth }

/-- Adds a change of the flags, which cannot be repeated. -/
def addChange (a : Alternatives) : Alternatives := { a with parts := a.allParts.add 0, last := none }

def repeated? (a : Alternatives) : Option Alternatives :=
  a.last.map fun depth => { a with last := some (depth + 1) }

def split (a : Alternatives) : Alternatives := ⟨a.before.add a.allParts.depth, .empty, none⟩

def depth (a : Alternatives) : Nat := a.split.before.depth

end Alternatives

structure Surroundings where
  flags : Flags
  alternatives : Alternatives
deriving DecidableEq

/-- The characters that stand for how often the part before them may come. -/
def isRepetition (c : Char) : Bool := c = '?' || c = '*' || c = '+'

/-- A question mark right after a repetition makes it a lazy one. -/
def afterLazyMark : List Char → List Char
  | '?' :: text => text
  | text => text

theorem length_afterLazyMark_le (text : List Char) : (afterLazyMark text).length ≤ text.length := by
  fun_cases afterLazyMark text <;> simp

/-- Whether a pattern can be used, from within its innermost open group on. A count of repetitions
would end with a closing brace; there is none in a pattern that stands between braces, so that
an opening brace spoils it. -/
def isUsableFrom (flags : Flags) (names : List (List Char)) (inner : Alternatives)
    (outer : List Surroundings) (text : List Char) : Bool :=
  match _ : skipBlanks flags text with
  | [] => outer.isEmpty && inner.depth ≤ deepestNesting
  | '(' :: rest =>
    match _ : readOpening flags rest with
    | none => false
    | some (.change changed, after) => isUsableFrom changed names inner.addChange outer after
    | some (.group within name, after) =>
      if name.any (· ∈ names) then false
      else
        isUsableFrom within (name.toList ++ names) .blank (⟨flags, inner⟩ :: outer) after
  | ')' :: rest =>
    match outer with
    | [] => false
    | ⟨flags, around⟩ :: outer =>
      isUsableFrom flags names (around.add (inner.depth + 1)) outer rest
  | '|' :: rest => isUsableFrom flags names inner.split outer rest
  | '[' :: rest =>
    match _ : readClass flags rest with
    | none => false
    | some (depth, after) => isUsableFrom flags names (inner.add depth) outer after
  | '\x7b' :: _ => false
  | c :: rest =>
    if isRepetition c then
      match inner.repeated? with
      | none => false
      | some inner => isUsableFrom flags names inner outer (afterLazyMark rest)
    else
      match _ : readPiece flags c rest with
      | none => false
      | some (piece, after) =>
        piece.isUsable flags && isUsableFrom flags names (inner.add 0) outer after
termination_by text.length
decreasing_by
  · have := length_lt_of_skipBlanks ‹skipBlanks _ _ = _›
    have := length_readOpening_le ‹readOpening _ _ = _›
    omega
  · have := length_lt_of_skipBlanks ‹skipBlanks _ _ = _›
    have := length_readOpening_le ‹readOpening _ _ = _›
    omega
  · exact length_lt_of_skipBlanks ‹_›
  · exact length_lt_of_skipBlanks ‹_›
  · have := length_lt_of_skipBlanks ‹skipBlanks _ _ = _›
    have := length_readClass_lt ‹readClass _ _ = _›
    omega
  · exact Nat.lt_of_le_of_lt (length_afterLazyMark_le _) (length_lt_of_skipBlanks ‹_›)
  · have := length_lt_of_skipBlanks ‹skipBlanks _ _ = _›
    have := length_readPiece_le ‹readPiece _ _ _ = _›
    omega

/-- Whether a text is a pattern that can be used. -/
def isUsable (text : List Char) : Bool := isUsableFrom .standard [] .blank [] text

end MicroBench.Pattern
