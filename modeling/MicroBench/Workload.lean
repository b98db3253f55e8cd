import MicroBench.Config
import MicroBench.Sha256

/-! The workloads that can be measured, and the tasks that they are for given settings:
the inputs are drawn from the seed once, before the run. -/
namespace MicroBench

inductive Workload where
  | noop
  | sum
  | sha256
  | alloc
  | sleep
deriving DecidableEq

inductive Task where
  | noop
  | sum (values : List UInt64)
  | digest (data : List UInt8)
  | allocate (byte : UInt8) (size : Nat)
  | sleep (millis : Nat)
deriving DecidableEq

inductive Product where
  | nothing
  | word (w : UInt64)
  | bytes (data : List UInt8)
deriving DecidableEq

/-- Does the work of a task, as far as it is computation. -/
def Task.product : Task → Product
  | noop | sleep _ => .nothing
  | sum values => .word (values.foldl (· + ·) 0)
  | digest data => .bytes (Sha256.digest data)
  | allocate byte size => .bytes (List.replicate size byte)

namespace Workload

def all : List Workload := [noop, sum, sha256, alloc, sleep]

def standard : Workload := sum

def name : Workload → String
  | noop => "noop"
  | sum => "sum"
  | sha256 => "sha256"
  | alloc => "alloc"
  | sleep => "sleep"

def help : Workload → String
  | noop => "Empty thunk; measures harness and clock overhead"
  | sum => "Wrapping sum over `size` random u64 values"
  | sha256 => "SHA-256 digest of a `size`-byte buffer"
  | alloc => "Allocate and fill a `size`-byte vector"
  | sleep => "Sleep for one millisecond"

/-- The workload of that name; letters of ASCII may differ in case if that is allowed. -/
def ofName? (text : String) (ignoreCase : Bool) : Option Workload :=
  let fold (s : String) : List Char := if ignoreCase then s.toList.map Char.toLower else s.toList
  all.find? fun workload => fold workload.name = fold text

def unknownName (text : String) : String := s!"invalid variant: {text}"

/-- The task of a workload, its inputs drawn from the seed. -/
def task (workload : Workload) (config : Config) : Task :=
  let size := config.size.toNat
  let g := config.generator
  match workload with
  | noop => .noop
  | sum => .sum (ChaCha.Generator.repeated ChaCha.Generator.long [] size g).1
  | sha256 => .digest (g.fill size).1
  | alloc => .allocate g.byte.1 size
  | sleep => .sleep 1

def running (workload : Workload) (config : Config) : Event where
  level := .info
  target := "poly_bench_harness::workloads"
  message := "running workload"
  fields :=
    [("workload", .text workload.name), ("profile", .text config.profile.name),
      ("iters", .count config.iterationCount), ("warmup", .count config.warmupCount),
      ("size", .count config.size)]

/-- Runs a workload. `perform` does a task once. -/
def run {m : Type → Type} [Monad m] (now : m Instant) (log : Event → m Unit)
    (perform : Task → m Unit) (config : Config) (workload : Workload) : m Record := do
  log (workload.running config)
  let task := workload.task config
  config.runner.run config.iterationCount config.warmupCount now log (perform task)

end Workload

end MicroBench
