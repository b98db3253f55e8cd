/-! Text as it is shown where terminal controls are not obeyed: control sequences are left
out as a whole, and so are control characters other than white space. -/
namespace MicroBench.Text

/-- Where in a control sequence a reader is. -/
inductive Control where
  /-- Outside of any sequence. -/
  | none
  /-- After an escape character. -/
  | escape
  /-- After an escape character and characters that only announce the last one. -/
  | announced
  /-- In a sequence that ends with a character from `@` to `~`. -/
  | parameters
  /-- At the start of a string for a device. -/
  | device
  /-- In the numbers that stand before a string for a device. -/
  | deviceNumbers
  /-- In the characters that announce a string for a device. -/
  | deviceAnnounced
  /-- In a string that the byte 0x9c ends. -/
  | string
  /-- In a string that a bell ends. -/
  | command
deriving DecidableEq

namespace Control

/-- The byte 0x9c ends strings, also as a part of another character. -/
def endsString (c : Char) : Bool := (String.utf8EncodeChar c).contains 0x9c

/-- The place after one more character. -/
def after (c : Char) : Control → Control
  | state =>
    if c = '\x1b' then escape
    else if c = '\x18' ∨ c = '\x1a' then none
    else
      match state with
      | none => none
      | escape =>
        if c = '[' then parameters
        else if c = ']' then command
        else if c = 'P' then device
        else if c = 'X' ∨ c = '^' ∨ c = '_' then string
        else if '\x20' ≤ c ∧ c ≤ '\x2f' then announced
        else if '\x30' ≤ c ∧ c ≤ '\x7e' then none
        else escape
      | announced => if '\x30' ≤ c ∧ c ≤ '\x7e' then none else announced
      | parameters => if '\x40' ≤ c ∧ c ≤ '\x7e' then none else parameters
      | device =>
        if '\x20' ≤ c ∧ c ≤ '\x2f' then deviceAnnounced
        else if '\x30' ≤ c ∧ c ≤ '\x3f' then deviceNumbers
        else if '\x40' ≤ c ∧ c ≤ '\x7e' then string
        else device
      | deviceNumbers =>
        if '\x20' ≤ c ∧ c ≤ '\x2f' then deviceAnnounced
        else if '\x3c' ≤ c ∧ c ≤ '\x7e' then string
        else deviceNumbers
      | deviceAnnounced => if '\x30' ≤ c ∧ c ≤ '\x7e' then string else deviceAnnounced
      | string => if endsString c then none else string
      | command => if c = '\x07' then none else command

/-- White space that does not belong to any sequence but strings and what announces them. -/
def isSpacing (c : Char) : Bool := c == '\t' || c == '\n' || c == '\x0c' || c == '\r'

/-- A character outside of any sequence shows. -/
def shows (c : Char) : Bool := isSpacing c || (0x20 ≤ c.toNat && c != '\x7f')

/-- White space shows in the middle of such a sequence. -/
def letsSpacingShow : Control → Bool
  | none | escape | announced | parameters => true
  | device | deviceNumbers | deviceAnnounced | string | command => false

end Control

/-- What shows of text read from within a sequence. White space inside a sequence interrupts it, and
what follows shows up to the next control character. The sequence then goes on, unless a character
beyond ASCII was shown. -/
def shownFrom (state : Control) (interrupted : Bool) : List Char → List Char
  | [] => []
  | c :: rest =>
    if state = .none ∨ interrupted then
      if Control.shows c then
        c :: shownFrom (if c.toNat < 0x80 then state else .none) interrupted rest
      else shownFrom (state.after c) false rest
    else if Control.isSpacing c ∧ state.letsSpacingShow then c :: shownFrom state true rest
    else shownFrom (state.after c) false rest

/-- Text without what a terminal would obey. -/
def withoutControls (text : List Char) : List Char := shownFrom .none false text

end MicroBench.Text
