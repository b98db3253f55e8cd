import MicroBench.CommandLine.Option
import MicroBench.Workload

/-! From the arguments of the plugin to what it is asked to do. Arguments are taken from
left to right. The value of an option may be an argument of its own; it is then looked at
when the next option is met or the arguments end, so that an argument nobody knows is
told first. -/
namespace MicroBench.CommandLine

inductive UsageError where
  | unexpectedArgument (text : List Char)
  | valueRequired (opt : Opt)
  | invalidCount (opt : Opt) (text : List Char) (fault : Text.CountFault)
  | invalidChoice (opt : Opt) (text : List Char)
  | repeated (opt : Opt)
  | unexpectedValue (opt : Opt) (text : List Char)
deriving DecidableEq

namespace UsageError

def shownText (text : List Char) : String := .ofList (Text.withoutControls text)

def message : UsageError → String
  | unexpectedArgument text => s!"unexpected argument '{shownText text}' found"
  | valueRequired opt => s!"a value is required for '{opt.shown}' but none was supplied"
  | invalidCount opt text fault =>
    s!"invalid value '{shownText text}' for '{opt.shown}': {fault.message}"
  | invalidChoice opt text => s!"invalid value '{shownText text}' for '{opt.shown}'"
  | repeated opt => s!"the argument '{opt.shown}' cannot be used multiple times"
  | unexpectedValue opt text =>
    s!"unexpected value '{shownText text}' for '{opt.shown}' found; no more were expected"

end UsageError

structure Choices where
  workload : Option Workload
  profile : Option Profile
  iterations : Option UInt64
  warmup : Option UInt64
  size : Option UInt64
  seed : Option UInt64
  noSamples : Bool
  out : Option (List Char)
deriving DecidableEq

/-- A measurement to be made, and the file that its record goes to, if not standard output. -/
structure Plan where
  workload : Workload
  config : Config
  out : Option (List Char)
deriving DecidableEq

inductive Request where
  | help (long : Bool)
  | measure (plan : Plan)
deriving DecidableEq

namespace Choices

def blank : Choices := ⟨none, none, none, none, none, none, false, none⟩

def has (choices : Choices) : Opt → Bool
  | .workload => choices.workload.isSome
  | .profile => choices.profile.isSome
  | .iterations => choices.iterations.isSome
  | .warmup => choices.warmup.isSome
  | .size => choices.size.isSome
  | .seed => choices.seed.isSome
  | .noSamples => choices.noSamples
  | .out => choices.out.isSome
  | .help => false

def countOf (opt : Opt) (text : List Char) : Except UsageError UInt64 :=
  match Text.readCount text with
  | .error fault => .error (.invalidCount opt text fault)
  | .ok n => .ok n

/-- One of several names as the value of an option. -/
def choiceOf {α : Type} (opt : Opt) (text : List Char) (choices : List α) (name : α → String) :
    Except UsageError α :=
  if text = [] then .error (.valueRequired opt)
  else
    match choices.find? fun x => (name x).toList = text with
    | none => .error (.invalidChoice opt text)
    | some x => .ok x

def set (choices : Choices) (opt : Opt) (text : List Char) : Except UsageError Choices :=
  match opt with
  | .workload =>
    (choiceOf opt text Workload.all Workload.name).map ({ choices with workload := some · })
  | .profile =>
    (choiceOf opt text Profile.all Profile.name).map ({ choices with profile := some · })
  | .iterations => (countOf opt text).map ({ choices with iterations := some · })
  | .warmup => (countOf opt text).map ({ choices with warmup := some · })
  | .size => (countOf opt text).map ({ choices with size := some · })
  | .seed => (countOf opt text).map ({ choices with seed := some · })
  | .noSamples => .ok { choices with noSamples := true }
  | .out =>
    if text = [] then .error (.valueRequired opt)
    else .ok { choices with out := some text }
  | .help => .ok choices

/-- Takes an option in; it may be given once. -/
def take (choices : Choices) (opt : Opt) (text : List Char) : Except UsageError Choices :=
  if choices.has opt then .error (.repeated opt) else choices.set opt text

def plan (choices : Choices) : Plan where
  workload := choices.workload.getD .standard
  config :=
    { profile := choices.profile.getD .quick
      seed := choices.seed.getD 0
      iterations := choices.iterations
      warmup := choices.warmup
      size := choices.size.getD 1024
      captureSamples := !choices.noSamples }
  out := choices.out

end Choices

/-- An option whose value was not attached to it. -/
structure Pending where
  opt : Opt
  /-- The value, once it was met. -/
  value : Option (List Char)
deriving DecidableEq

/-- Takes in the option that is pending, if there is one. -/
def settle (choices : Choices) : Option Pending → Except UsageError Choices
  | none => .ok choices
  | some ⟨opt, none⟩ => .error (.valueRequired opt)
  | some ⟨opt, some value⟩ => choices.take opt value

def scan (choices : Choices) (pending : Option Pending) :
    List (List Char) → Except UsageError Request
  | [] => (settle choices pending).map (.measure ·.plan)
  | argument :: rest =>
    match Argument.of argument with
    | .divider =>
      match rest with
      | [] => (settle choices pending).map (.measure ·.plan)
      | next :: _ => .error (.unexpectedArgument next)
    | .short letter =>
      if letter = 'h' then (settle choices pending).map fun _ => .help false
      else .error (.unexpectedArgument ['-', letter])
    | .plain =>
      match pending with
      | some ⟨opt, none⟩ => scan choices (some ⟨opt, some argument⟩) rest
      | _ => .error (.unexpectedArgument argument)
    | .long name value =>
      match Opt.ofName? name, value with
      | none, _ => .error (.unexpectedArgument ('-' :: '-' :: name))
      | some opt, some value =>
        if opt.takesValue then
          match settle choices pending with
          | .error e => .error e
          | .ok choices =>
            match choices.take opt value with
            | .error e => .error e
            | .ok choices => scan choices none rest
        else .error (.unexpectedValue opt value)
      | some opt, none =>
        match settle choices pending with
        | .error e => .error e
        | .ok choices =>
          if opt.takesValue then scan choices (some ⟨opt, none⟩) rest
          else if opt = .help then .ok (.help true)
          else
            match choices.take opt [] with
            | .error e => .error e
            | .ok choices => scan choices none rest

def parse (arguments : List String) : Except UsageError Request :=
  scan .blank none (arguments.map String.toList)

end MicroBench.CommandLine
