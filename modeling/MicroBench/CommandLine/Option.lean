import MicroBench.Text.Controls
import MicroBench.Text.Count

/-! The options of the plugin, and how one argument reads on its own. -/
namespace MicroBench.CommandLine

inductive Opt where
  | workload
  | profile
  | iterations
  | warmup
  | size
  | seed
  | noSamples
  | out
  | help
deriving DecidableEq

namespace Opt

def all : List Opt :=
  [workload, profile, iterations, warmup, size, seed, noSamples, out, help]

def name : Opt → String
  | workload => "workload"
  | profile => "profile"
  | iterations => "iterations"
  | warmup => "warmup"
  | size => "size"
  | seed => "seed"
  | noSamples => "no-samples"
  | out => "out"
  | help => "help"

/-- What stands for the value of the option, if it takes one. -/
def placeholder : Opt → Option String
  | workload => some "WORKLOAD"
  | profile => some "PROFILE"
  | iterations => some "ITERATIONS"
  | warmup => some "WARMUP"
  | size => some "SIZE"
  | seed => some "SEED"
  | out => some "OUT"
  | noSamples | help => none

def takesValue (opt : Opt) : Bool := opt.placeholder.isSome

def shown (opt : Opt) : String :=
  match opt.placeholder with
  | some value => s!"--{opt.name} <{value}>"
  | none => s!"--{opt.name}"

def ofName? (name : List Char) : Option Opt :=
  all.find? fun opt => opt.name.toList = name

end Opt

inductive Argument where
  /-- Two dashes: no options follow. -/
  | divider
  /-- Two dashes and a name, with the value after an equals sign if there is one. -/
  | long (name : List Char) (value : Option (List Char))
  /-- A dash and letters, of which only the first matters. -/
  | short (letter : Char)
  | plain
deriving DecidableEq

def splitAtEquals (text : List Char) : List Char × Option (List Char) :=
  match text.dropWhile (· ≠ '=') with
  | [] => (text, none)
  | _ :: value => (text.takeWhile (· ≠ '='), some value)

def Argument.of : List Char → Argument
  | ['-', '-'] => .divider
  | '-' :: '-' :: rest => .long (splitAtEquals rest).1 (splitAtEquals rest).2
  | '-' :: letter :: _ => .short letter
  | _ => .plain

end MicroBench.CommandLine
