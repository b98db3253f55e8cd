import MicroBench.Pattern.Flags
import MicroBench.Text.Hex

/-! The smallest parts of a pattern: characters, by themselves or behind a backslash, and
what stands for a class of characters or for a place between them. No tables of the
characters of all scripts are at hand, so that many pieces can only be used when the
pattern is about bytes, and then they must not match a part of a character. -/
namespace MicroBench.Pattern

inductive Piece where
  | character (code : Nat)
  /-- Told by two hexadecimal digits. -/
  | octet (code : Nat)
  /-- Digits, blanks or the characters of words, or all the others. -/
  | kind (negated : Bool)
  /-- Where a word begins or ends, or does not. -/
  | wordBoundary
  /-- Where the text or a line begins or ends. -/
  | edge
  | anyCharacter
deriving DecidableEq

namespace Piece

/-- Whether a piece can be used outside of brackets. Among bytes only ASCII letters have a second
case, and a character beyond ASCII stands for all its bytes. -/
def isUsable (flags : Flags) : Piece → Bool
  | character _ => !(flags.caseless && flags.unicode)
  | octet code => if flags.unicode then !flags.caseless else code < 0x80
  | kind negated => !flags.unicode && !negated
  | wordBoundary => !flags.unicode
  | edge => true
  | anyCharacter => flags.unicode

def code? : Piece → Option Nat
  | character code | octet code => some code
  | _ => none

end Piece

/-- A number of hexadecimal digits, blanks being skipped before and after each. -/
def readHex (flags : Flags) : (digits : Nat) → (value : Nat) → List Char → Option (Nat × List Char)
  | 0, value, text => some (value, skipBlanks flags text)
  | digits + 1, value, text =>
    match skipBlanks flags text with
    | [] => none
    | c :: rest => (Text.hexValue c).bind fun digit => readHex flags digits (value * 16 + digit) rest

/-- How many digits tell the code of a character after such a letter. -/
def hexDigits? : Char → Option Nat
  | 'x' => some 2
  | 'u' => some 4
  | 'U' => some 8
  | _ => none

/-- What a character behind a backslash stands for, if nothing else belongs to it. -/
def escaped? (c : Char) : Option Piece :=
  match c with
  | 'a' => some (.character 0x7)
  | 't' => some (.character 0x9)
  | 'n' => some (.character 0xa)
  | 'v' => some (.character 0xb)
  | 'f' => some (.character 0xc)
  | 'r' => some (.character 0xd)
  | 'd' | 's' | 'w' => some (.kind false)
  | 'D' | 'S' | 'W' => some (.kind true)
  | 'b' | 'B' | '<' | '>' => some .wordBoundary
  | 'A' | 'z' => some .edge
  | c => if c.toNat < 0x80 ∧ ¬c.isAlphanum then some (.character c.toNat) else none

def readEscape (flags : Flags) : List Char → Option (Piece × List Char)
  | [] => none
  | c :: text =>
    match hexDigits? c with
    | none => (escaped? c).map (·, text)
    | some digits =>
      match readHex flags digits 0 text with
      | none => none
      | some (code, rest) =>
        if code.isValidChar then
          some (if digits = 2 then .octet code else .character code, rest)
        else none

def readPiece (flags : Flags) (c : Char) (text : List Char) : Option (Piece × List Char) :=
  match c with
  | '\\' => readEscape flags text
  | '.' => some (.anyCharacter, text)
  | '^' | '$' => some (.edge, text)
  | c => some (.character c.toNat, text)

theorem length_readHex_le {flags : Flags} {digits value code : Nat} {text rest : List Char}
    (h : readHex flags digits value text = some (code, rest)) : rest.length ≤ text.length := by
  induction digits generalizing value text with
  | zero =>
    cases h
    exact length_skipBlanks_le flags text
  | succ digits ih =>
    unfold readHex at h
    split at h
    · cases h
    · rename_i found
      obtain ⟨digit, _, h⟩ := Option.bind_eq_some_iff.1 h
      exact Nat.le_trans (ih h) (Nat.le_of_lt (length_lt_of_skipBlanks found))

theorem length_readEscape_le {flags : Flags} {piece : Piece} {text rest : List Char}
    (h : readEscape flags text = some (piece, rest)) : rest.length ≤ text.length := by
  unfold readEscape at h
  split at h
  · cases h
  · split at h
    · obtain ⟨_, _, same⟩ := Option.map_eq_some_iff.1 h
      cases same
      exact Nat.le_succ _
    · split at h
      · cases h
      · rename_i read
        split at h
        · cases h
          exact Nat.le_succ_of_le (length_readHex_le read)
        · cases h

/-- Pieces never give text back. -/
theorem length_readPiece_le {flags : Flags} {piece : Piece} {c : Char} {text rest : List Char}
    (h : readPiece flags c text = some (piece, rest)) : rest.length ≤ text.length := by
  unfold readPiece at h
  split at h
  · exact length_readEscape_le h
  all_goals
    cases h
    exact Nat.le_refl _

end MicroBench.Pattern
