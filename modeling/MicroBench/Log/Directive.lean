import MicroBench.Pattern.Basic
import MicroBench.Text.Bytes
import MicroBench.Text.Count
import MicroBench.Text.Numeral

/-! One directive of a log setting: how verbose events may be that a part of the program
reports. It has the form `target[span{field=value}]=level`, of which all but one part may
be missing; a level may also stand alone. -/
namespace MicroBench.Log

structure FieldPattern where
  name : String
  /-- The field must have a certain value. -/
  hasValue : Bool
deriving DecidableEq

structure Directive where
  /-- The greatest verbosity let through; zero lets nothing through. -/
  ceiling : Nat
  /-- What the targets begin with. -/
  target : Option String
  /-- The span that events must be in. -/
  span : Option String
  field : Option FieldPattern
deriving DecidableEq

inductive Unusable where
  /-- The text does not have the form of one. -/
  | malformed
  /-- A part of it would begin or end inside a character. -/
  | divided
deriving DecidableEq

def unlimited : Nat := 5

/-- The names of the levels, each at the place of its verbosity. -/
def levelNames : List String := ["off", "error", "warn", "info", "debug", "trace"]

/-- A level by its verbosity or by its name. -/
def ceilingOf (text : List Char) : Except Unusable Nat :=
  match Text.readCount text with
  | .ok n => if n.toNat ≤ unlimited then .ok n.toNat else .error .malformed
  | .error _ =>
    match levelNames.findIdx? fun name => name.toList = text.map Char.toLower with
    | some ceiling => .ok ceiling
    | none => .error .malformed

/-- A character that a directive may begin with: a letter or a number, or one of three marks. -/
def opens (c : Char) : Bool := c ∈ ['-', ':', '_'] || Text.isAlphanumeric c

namespace FieldPattern

/-- A value that a field can be asked to have: a number, or else a pattern. -/
def isValue (text : List Char) : Bool := Text.isNumeral text || Pattern.isUsable text

/-- A name, and a value after an equals sign if it is asked for. What follows another equals sign
is passed over. -/
def ofText (text : List Char) : Except Unusable FieldPattern :=
  let name := String.ofList (text.takeWhile (· ≠ '='))
  match text.dropWhile (· ≠ '=') with
  | [] => if text = [] then .error .malformed else .ok ⟨name, false⟩
  | _ :: rest =>
    if isValue (rest.takeWhile (· ≠ '=')) then .ok ⟨name, true⟩ else .error .malformed

end FieldPattern

namespace Directive

/-- Parts are located in `body` and cut out of `text`, at the same places counted in bytes. -/
structure Scissors where
  body : List Char
  text : List Char

namespace Scissors

variable (scissors : Scissors)

/-- All from a place on, which is told by what is left of the body there. -/
def cutAll (rest : List Char) : Except Unusable (List Char) :=
  match Text.splitBytes (Text.byteCount scissors.body - Text.byteCount rest) scissors.text with
  | some (_, after) => .ok after
  | none => .error .divided

/-- One part of the body, told together with the rest after it. -/
def cut (part rest : List Char) : Except Unusable (List Char) := do
  match Text.splitBytes (Text.byteCount part) (← scissors.cutAll (part ++ rest)) with
  | some (piece, _) => .ok piece
  | none => .error .divided

end Scissors

variable (scissors : Scissors)

/-- The level at the end, if there is an end; without a name everything is let through. -/
def readCeiling : List Char → Except Unusable Nat
  | [] => .ok unlimited
  | '=' :: rest => do
    match ← scissors.cutAll rest with
    | [] => .ok unlimited
    | name => ceilingOf name
  | _ => .error .malformed

/-- What follows the name of a span and the brace after it. -/
def readField (target : Option String) (span : String) (inside : List Char) :
    Except Unusable Directive := do
  let part := inside.takeWhile (· ≠ '\x7d')
  match inside.drop part.length with
  | [] => .error .malformed
  | closing :: rest =>
    let field ← FieldPattern.ofText (← scissors.cut part (closing :: rest))
    match rest with
    | ']' :: rest =>
      return ⟨← readCeiling scissors rest, target, if span = "" then none else some span, some field⟩
    | _ => .error .malformed

def readSpan (target : Option String) (inner : List Char) : Except Unusable Directive := do
  let part := inner.takeWhile fun c => c ≠ ']' ∧ c ≠ '\x7b'
  match inner.drop part.length with
  | [] => .error .malformed
  | closing :: rest =>
    let span := String.ofList (← scissors.cut part (closing :: rest))
    if closing = ']' then return ⟨← readCeiling scissors rest, target, some span, none⟩
    else readField scissors target span rest

/-- A level alone, or a target for which everything is let through. -/
def readWhole : Except Unusable Directive := do
  let whole ← scissors.cutAll scissors.body
  match ceilingOf whole with
  | .ok ceiling => return ⟨ceiling, none, none, none⟩
  | .error _ => return ⟨unlimited, some (.ofList whole), none, none⟩

/-- A directive without white space around it. -/
def readBody : Except Unusable Directive := do
  match scissors.body with
  | [] => .error .malformed
  | '[' :: inner => readSpan scissors none inner
  | first :: _ =>
    if !opens first then .error .malformed
    else
      let part := scissors.body.takeWhile fun c => c ≠ '=' ∧ c ≠ '['
      match scissors.body.drop part.length with
      | [] => readWhole scissors
      | mark :: rest =>
        let target := String.ofList (← scissors.cut part (mark :: rest))
        if mark = '[' then readSpan scissors (some target) rest
        else return ⟨← readCeiling scissors (mark :: rest), some target, none, none⟩

/-- The directive in a text. White space around it is passed over when its parts are located, but
not when they are cut out, so that white space makes other names of them. -/
def ofText (text : List Char) : Except Unusable Directive := readBody ⟨Text.trimmed text, text⟩

/-- The directive can decide about events on its own, whatever spans they are in. -/
def isStatic (d : Directive) : Bool :=
  d.span.isNone && !d.field.any FieldPattern.hasValue

end Directive

end MicroBench.Log
