import MicroBench.Record.Encoding
import MicroBench.Text.Bytes
import MicroBench.Text.Quoted

/-! What can be wrong with a JSON text, and where. A fault says how many bytes of the
text were left unread; the line and the column follow from that and the text. -/
namespace MicroBench.Json

/-- A value of the wrong kind, as far as a message tells it. -/
inductive Found where
  | null
  | boolean (b : Bool)
  | integer (n : Int)
  | real (x : Binary64)
  | string (text : List Char)
  | sequence
  | map
deriving DecidableEq

inductive Expected where
  | word
  | rate
  | samples
  | record
deriving DecidableEq

inductive Cause where
  | endInObject
  | endInList
  | endInString
  | endInValue
  | expectedColon
  | expectedListCommaOrEnd
  | expectedObjectCommaOrEnd
  | expectedValue
  | expectedIdent
  | keyNotString
  | trailingComma
  | trailingCharacters
  | controlCharacter
  | invalidEscape
  | invalidNumber
  | numberOutOfRange
  | loneSurrogate
  | endInSurrogatePair
  | wrongKind (found : Found) (expected : Expected)
  | wrongValue (found : Found) (expected : Expected)
  | tooShort (length : Nat)
  | missingField (field : Field)
  | duplicateField (field : Field)
deriving DecidableEq

/-- Whether the text is no JSON, holds the wrong data, or stops too early. -/
inductive Category where
  | syntactic
  | data
  | early
deriving DecidableEq

def Cause.category : Cause → Category
  | endInObject | endInList | endInString | endInValue => .early
  | wrongKind .. | wrongValue .. | tooShort _ | missingField _ | duplicateField _ => .data
  | _ => .syntactic

def Found.message : Found → String
  | null => "null"
  | boolean b => s!"boolean `{b}`"
  | integer n => s!"integer `{n}`"
  | real x => s!"floating point `{String.ofList (Encoding.rateText x)}`"
  | string text => s!"string {String.ofList (Text.quoted text)}"
  | sequence => "sequence"
  | map => "map"

def Expected.message : Expected → String
  | word => "u64"
  | rate => "f64"
  | samples => "a sequence"
  | record => "struct BenchResult"

def Cause.message : Cause → String
  | endInObject => "EOF while parsing an object"
  | endInList => "EOF while parsing a list"
  | endInString => "EOF while parsing a string"
  | endInValue => "EOF while parsing a value"
  | expectedColon => "expected `:`"
  | expectedListCommaOrEnd => "expected `,` or `]`"
  | expectedObjectCommaOrEnd => "expected `,` or `\x7d`"
  | expectedValue => "expected value"
  | expectedIdent => "expected ident"
  | keyNotString => "key must be a string"
  | trailingComma => "trailing comma"
  | trailingCharacters => "trailing characters"
  | controlCharacter => "control character (\\u0000-\\u001F) found while parsing a string"
  | invalidEscape => "invalid escape"
  | invalidNumber => "invalid number"
  | numberOutOfRange => "number out of range"
  | loneSurrogate => "lone leading surrogate in hex escape"
  | endInSurrogatePair => "unexpected end of hex escape"
  | wrongKind found expected => s!"invalid type: {found.message}, expected {expected.message}"
  | wrongValue found expected => s!"invalid value: {found.message}, expected {expected.message}"
  | tooShort n => s!"invalid length {n}, expected struct BenchResult with 7 elements"
  | missingField field => s!"missing field `{field.name}`"
  | duplicateField field => s!"duplicate field `{field.name}`"

structure Fault where
  cause : Cause
  /-- How many bytes of the text were not read. -/
  unread : Nat
deriving DecidableEq

/-- A fault found before `rest`. -/
def Fault.before (cause : Cause) (rest : List Char) : Fault := ⟨cause, Text.byteCount rest⟩

/-- A fault found at the first byte of `rest`, which counts as read; at the end of the text there
is no such byte. -/
def Fault.within (cause : Cause) (rest : List Char) : Fault := ⟨cause, Text.byteCount rest - 1⟩

/-- A place in a text: the line, counted from one, and how many bytes of it come before. -/
structure Position where
  line : Nat
  column : Nat
deriving DecidableEq

/-- The position after that many bytes, from a given position on. A byte count may end inside a
character. -/
def Position.advance (start : Position) : List Char → Nat → Position
  | [], _ => start
  | c :: text, bytes =>
    if c.utf8Size ≤ bytes then
      let next := if c = '\n' then ⟨start.line + 1, 0⟩ else ⟨start.line, start.column + c.utf8Size⟩
      advance next text (bytes - c.utf8Size)
    else ⟨start.line, start.column + bytes⟩

def Fault.position (fault : Fault) (text : List Char) : Position :=
  Position.advance ⟨1, 0⟩ text (Text.byteCount text - fault.unread)

end MicroBench.Json
