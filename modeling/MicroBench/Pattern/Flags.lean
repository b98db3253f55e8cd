import MicroBench.Text.Blank

/-! Patterns that texts are searched for. All that matters of a pattern here is whether it
can be used. This module holds the flags, which say how what follows in a pattern is
read, and the blanks that one of them lets stand between the parts. -/
namespace MicroBench.Pattern

structure Flags where
  /-- Letters stand for themselves in either case. -/
  caseless : Bool
  /-- The pattern is about characters, not about bytes. -/
  unicode : Bool
  /-- Blanks and comments count for nothing. -/
  spaced : Bool
deriving DecidableEq

namespace Flags

def standard : Flags := ⟨false, true, false⟩

/-- The letters of the flags. The other ones make no difference to whether a pattern can be used. -/
def letters : List Char := ['i', 'm', 's', 'U', 'u', 'R', 'x']

def areDistinct : List Char → Bool
  | [] => true
  | c :: text => !text.contains c && areDistinct text

/-- The flags after some were switched on and, after a minus, others off. No letter may be there
twice, and something must follow the minus. -/
def changed? (flags : Flags) (changes : List Char) : Option Flags :=
  let on := changes.takeWhile (· ≠ '-')
  let off := changes.dropWhile (· ≠ '-')
  let value (letter : Char) (current : Bool) : Bool :=
    letter ∈ on || (current && letter ∉ off)
  if areDistinct changes && changes.all (fun c => c = '-' || c ∈ letters) && off ≠ ['-'] then
    some ⟨value 'i' flags.caseless, value 'u' flags.unicode, value 'x' flags.spaced⟩
  else none

end Flags

/-- Text from the first character on that is neither blank nor in a comment. A comment goes from a
number sign to the end of the line. -/
def afterBlanks (inComment : Bool) : List Char → List Char
  | [] => []
  | c :: text =>
    if inComment then afterBlanks (c ≠ '\n') text
    else if Text.isBlank c then afterBlanks false text
    else if c = '#' then afterBlanks true text
    else c :: text

/-- Skips blanks and comments if they count for nothing. -/
def skipBlanks (flags : Flags) (text : List Char) : List Char :=
  if flags.spaced then afterBlanks false text else text

theorem length_afterBlanks_le (inComment : Bool) (text : List Char) :
    (afterBlanks inComment text).length ≤ text.length := by
  fun_induction afterBlanks inComment text with
  | case1 => exact Nat.le_refl _
  | case2 | case3 | case4 => exact Nat.le_succ_of_le ‹_›
  | case5 => exact Nat.le_refl _

theorem length_skipBlanks_le (flags : Flags) (text : List Char) :
    (skipBlanks flags text).length ≤ text.length := by
  unfold skipBlanks
  split
  · exact length_afterBlanks_le false text
  · exact Nat.le_refl _

/-- What comes after a character that counts is shorter than the text. -/
theorem length_lt_of_skipBlanks {flags : Flags} {text rest : List Char} {c : Char}
    (h : skipBlanks flags text = c :: rest) : rest.length < text.length := by
  have := length_skipBlanks_le flags text
  rw [h] at this
  exact this

end MicroBench.Pattern
