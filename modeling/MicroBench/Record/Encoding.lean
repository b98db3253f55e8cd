import MicroBench.Record.Validity

/-! The text form of a record: one JSON object without white space, the fields in their
order, `samples` left out if there are none. The text is put together from fragments,
which is also how it is handed to a sink. -/
namespace MicroBench

/-- Rates in JSON: in place up to sixteen digits before the point and five zeros after it, a point
in every whole number, and a sign in every exponent. -/
def Layout.wire : Layout where
  pointAbove := some (-5)
  pointUpTo := some 16
  wholeEnding := ['.', '0']
  plus := ['+']
  tie := .even

namespace Encoding

/-- A rate; JSON has no word for one that is not finite. -/
def rateText : Binary64 → List Char
  | .finite negative quanta _ => Layout.wire.renderFinite negative quanta
  | _ => ['n', 'u', 'l', 'l']

def wordText (n : UInt64) : List Char := Nat.toDigits 10 n.toNat

/-- Groups of fragments with a comma between neighbours. -/
def commaSeparated (groups : List (List (List Char))) : List (List Char) :=
  [[',']].intercalate groups

def member (field : Field) (value : List (List Char)) : List (List Char) :=
  [['"'], field.name.toList, ['"'], [':']] ++ value

end Encoding

namespace Record

open Encoding

def members (r : Record) : List (List (List Char)) :=
  [member .iterations [wordText r.iterations],
    member .totalNanos [wordText r.totalNanos],
    member .nanosPerOp [rateText r.nanosPerOp],
    member .opsPerSec [rateText r.opsPerSec],
    member .bytesPerOp [wordText r.bytesPerOp],
    member .allocsPerOp [wordText r.allocsPerOp]] ++
  if r.samples = [] then []
  else
    [member .samples
      ([['[']] ++ commaSeparated (r.samples.map fun n => [wordText n]) ++ [[']']])]

def fragments (r : Record) : List (List Char) :=
  [['\x7b']] ++ commaSeparated r.members ++ [['\x7d']]

/-- The text of a record, well formed or not. -/
def encode (r : Record) : List Char := r.fragments.flatten

/-- The text of a well-formed record; any other is refused with its first defect. -/
def toJson (r : Record) : Except Defect String :=
  match r.defect? with
  | some defect => .error defect
  | none => .ok (.ofList r.encode)

end Record

end MicroBench
