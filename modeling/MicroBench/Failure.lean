import MicroBench.Record.Decoding
import MicroBench.Sink.Basic

/-! What can go wrong with a record on its way to text and back. -/
namespace MicroBench

inductive Failure where
  | illFormed (defect : Defect)
  | json (cause : Json.Cause) (position : Json.Position)
  | io (error : IoError)
deriving DecidableEq

namespace Failure

def message : Failure → String
  | illFormed defect =>
    s!"ill-formed benchmark result: `{defect.field.name}` {defect.reason.message}"
  | json cause position =>
    s!"benchmark result JSON error: {cause.message} at line {position.line} column {position.column}"
  | io error => s!"failed to write benchmark result: {error.text}"

private def quotedText (s : String) : String := .ofList (Text.quoted s.toList)

/-- The failure with all its parts, as a program that ends with it reports it. -/
def report : Failure → String
  | illFormed defect =>
    s!"IllFormedRecord \x7b field: {quotedText defect.field.name}, reason: {quotedText defect.reason.message} \x7d"
  | json cause position =>
    s!"Json(Error({quotedText cause.message}, line: {position.line}, column: {position.column}))"
  | io error =>
    match error.code with
    | some code =>
      s!"Io(Os \x7b code: {code}, kind: {error.kind}, message: {quotedText error.message} \x7d)"
    | none => s!"Io(Custom \x7b kind: {error.kind}, error: {quotedText error.message} \x7d)"

end Failure

namespace Record

/-- The record in a text, well formed or not. -/
def parse (text : List Char) : Except Failure Record :=
  match Decoding.read text with
  | .error fault => .error (.json fault.cause (fault.position text))
  | .ok record => .ok record

/-- The well-formed record in a text, which may stand between white space. -/
def ofJson (text : String) : Except Failure Record :=
  match parse (Text.trimmed text.toList) with
  | .error failure => .error failure
  | .ok record =>
    match record.defect? with
    | some defect => .error (.illFormed defect)
    | none => .ok record

/-- Hands the text of a well-formed record and a line end to a sink, and flushes it. Any other
record is refused, and the sink left alone. -/
def writeTo {m : Type → Type} [Monad m] (r : Record) (sink : Sink m) :
    m (Except Failure Unit) := do
  match r.defect? with
  | some defect => pure (.error (.illFormed defect))
  | none =>
    match ← sink.putAll ((r.fragments ++ [['\n']]).map textBytes) with
    | .error e => pure (.error (.io e))
    | .ok () =>
      match ← sink.flush with
      | .error e => pure (.error (.io e))
      | .ok () => pure (.ok ())

end Record

end MicroBench
