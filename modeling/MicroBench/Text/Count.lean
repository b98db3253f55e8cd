import MicroBench.Saturating

/-! Counts written in decimal digits. -/
namespace MicroBench.Text

inductive CountFault where
  | empty
  | notDigit
  | tooLarge
deriving DecidableEq

def CountFault.message : CountFault → String
  | empty => "cannot parse integer from empty string"
  | notDigit => "invalid digit found in string"
  | tooLarge => "number too large to fit in target type"

/-- The count that further digits make of one; the first fault from the left is told. -/
def countDigits (n : Nat) : List Char → Except CountFault UInt64
  | [] => .ok (.ofNat n)
  | c :: rest =>
    if !c.isDigit then .error .notDigit
    else
      let next := n * 10 + (c.toNat - '0'.toNat)
      if largestWord < next then .error .tooLarge else countDigits next rest

/-- A count: digits, and a plus before them if one likes. -/
def readCount : List Char → Except CountFault UInt64
  | [] => .error .empty
  | ['+'] => .error .notDigit
  | '+' :: digits => countDigits 0 digits
  | digits => countDigits 0 digits

end MicroBench.Text
