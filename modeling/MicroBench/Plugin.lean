import MicroBench.CommandLine.Help
import MicroBench.CommandLine.Parse
import MicroBench.Failure
import MicroBench.Log.Filter
import MicroBench.Log.Line
import MicroBench.Record.Figures

/-! The plugin: it measures one workload and hands out one record, on standard output or
in a file. Everything else that it says goes to where reports go. -/
namespace MicroBench

structure Host (m : Type → Type) where
  now : m Instant
  /-- Does a task once. -/
  perform : Task → m Unit
  stdout : Sink m
  /-- Creates a file, or empties the one that is there. -/
  create : String → m (Except IoError (Sink m))
  /-- Shows a line that is no part of the output. -/
  report : String → m Unit

namespace Plugin

inductive Outcome where
  | done
  | failed
  | misused
  /-- The setting of the log cannot be taken apart. -/
  | broken
deriving DecidableEq

def Outcome.exitCode : Outcome → Nat
  | done => 0
  | failed => 1
  | misused => 2
  | broken => 101

def resultReady (workload : Workload) (r : Record) : Event where
  level := .info
  target := "poly_bench_plugin"
  message := r.summary
  fields := [("workload", .text workload.name)]

variable {m : Type → Type} [Monad m]

def log (host : Host m) (filter : Log.Filter) (e : Event) : m Unit :=
  if filter.shows e then host.report e.line else pure ()

/-- Hands out a record. A file is created only now that there is something to write. -/
def handOut (host : Host m) (r : Record) : Option (List Char) → m (Except Failure Unit)
  | none => r.writeTo host.stdout
  | some path => do
    match ← host.create (.ofList path) with
    | .error e => pure (.error (.io e))
    | .ok sink => r.writeTo sink

def carryOut (host : Host m) (filter : Log.Filter) (plan : CommandLine.Plan) :
    m (Except Failure Unit) := do
  let record ← plan.workload.run host.now (log host filter) host.perform plan.config
  log host filter (resultReady plan.workload record)
  handOut host record plan.out

def answer (host : Host m) (filter : Log.Filter) (arguments : List String) : m Outcome := do
  match CommandLine.parse arguments with
  | .error e =>
    host.report s!"error: {e.message}\n\n{CommandLine.usageHint}"
    pure .misused
  | .ok (.help long) =>
    let _ ← host.stdout.putAll [textBytes (CommandLine.helpText long).toList]
    let _ ← host.stdout.flush
    pure .done
  | .ok (.measure plan) =>
    match ← carryOut host filter plan with
    | .error failure =>
      host.report s!"Error: {failure.report}"
      pure .failed
    | .ok () => pure .done

/-- Runs the plugin with its arguments and the setting of its log, which is looked at first. -/
def run (host : Host m) (arguments : List String) (logSetting : Option String) : m Outcome :=
  match Log.Filter.ofSetting logSetting with
  | none => pure .broken
  | some filter => answer host filter arguments

end Plugin

end MicroBench
