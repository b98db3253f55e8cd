import MicroBench.Machine.Files
import MicroBench.Plugin
import MicroBench.Sink.System

/-! A machine in memory to run the plugin on. Its clock is a function of how often it was
read and how long the machine slept, so that it may run in any way. -/
namespace MicroBench.Machine

/-- What a clock depends on. -/
structure Time where
  readings : Nat
  /-- The nanoseconds slept. -/
  slept : Nat
deriving DecidableEq

namespace Time

def zero : Time := ⟨0, 0⟩

/-- A clock that goes on by 25 nanoseconds with every reading, and stands still otherwise unless the
machine sleeps. -/
def steady (time : Time) : Instant := .ofParts 0 (25 * time.readings + time.slept)

def read (time : Time) : Time := { time with readings := time.readings + 1 }

def sleep (nanos : Nat) (time : Time) : Time := { time with slept := time.slept + nanos }

/-- The time after a task; only sleeping takes any. -/
def perform (time : Time) : Task → Time
  | .sleep millis => time.sleep (millis * 1000000)
  | _ => time

end Time

structure State where
  time : Time
  stdout : Array UInt8
  stderr : Array UInt8
  files : Files

namespace State

def start (files : Files) : State := ⟨.zero, #[], #[], files⟩

def put (state : State) (bytes : List UInt8) : Place → State
  | .void | .full => state
  | .stdout => { state with stdout := state.stdout ++ bytes }
  | .stderr => { state with stderr := state.stderr ++ bytes }
  | .file path => { state with files := state.files.extended path bytes }

end State

def sinkAt (place : Place) : Sink (StateM State) where
  put bytes state := (.ok (), state.put bytes place)
  flush state :=
    (match place with
      | .full => .error .storageFull
      | _ => .ok (),
    state)

/-- Opens a place for writing; a file is created or emptied. -/
def opened (state : State) : Place → State
  | .file path => { state with files := state.files.emptied path }
  | _ => state

def host (site : Site) (clock : Time → Instant) : Host (StateM State) where
  now state := (clock state.time, { state with time := state.time.read })
  perform task state := ((), { state with time := state.time.perform task })
  stdout := sinkAt .stdout
  create path state :=
    match site.place state.files path with
    | .error e => (.error e, state)
    | .ok place => (.ok (sinkAt place), opened state place)
  report line state := ((), state.put (textBytes (line.toList ++ ['\n'])) .stderr)

def run (site : Site) (clock : Time → Instant) (files : Files) (arguments : List String)
    (logSetting : Option String) : Plugin.Outcome × State :=
  Id.run ((Plugin.run (host site clock) arguments logSetting).run (.start files))

end MicroBench.Machine
