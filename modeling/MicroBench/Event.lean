import MicroBench.Binary64.Basic

/-! Events that the library reports while it works. -/
namespace MicroBench

inductive Level where
  | trace
  | debug
  | info
  | warn
  | error
deriving DecidableEq

/-- How much a level weighs: the less it weighs, the more urgent it is. -/
def Level.verbosity : Level → Nat
  | error => 1
  | warn => 2
  | info => 3
  | debug => 4
  | trace => 5

def Level.name : Level → String
  | trace => "TRACE"
  | debug => "DEBUG"
  | info => "INFO"
  | warn => "WARN"
  | error => "ERROR"

inductive FieldValue where
  | count (n : UInt64)
  | number (x : Binary64)
  | text (s : String)
deriving DecidableEq

structure Event where
  level : Level
  /-- The part of the program that reports. -/
  target : String
  message : String
  fields : List (String × FieldValue)
deriving DecidableEq

end MicroBench
