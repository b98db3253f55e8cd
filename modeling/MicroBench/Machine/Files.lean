import MicroBench.Sink.Basic

/-! The files of a machine in memory, as far as writing to them goes. Which file or device
a path leads to is up to the machine: links, permissions and what else there may be only
show in that. -/
namespace MicroBench.Machine

/-- The name by which a machine knows a file. -/
abbrev Path := List String

/-- What a path leads to when something is to be written there. -/
inductive Place where
  /-- Takes everything and keeps nothing. -/
  | void
  /-- Takes everything and finds out later that there is no room. -/
  | full
  | stdout
  | stderr
  | file (path : Path)
deriving DecidableEq

abbrev Files := List (Path × Array UInt8)

namespace Files

def contents? (files : Files) (path : Path) : Option (Array UInt8) :=
  (files.find? (·.1 = path)).map Prod.snd

def emptied (files : Files) (path : Path) : Files :=
  (path, #[]) :: files.filter (·.1 ≠ path)

def extended (files : Files) (path : Path) (bytes : List UInt8) : Files :=
  files.map fun (other, contents) =>
    (other, if other = path then contents ++ bytes else contents)

end Files

/-- Where a program finds itself: what opening a path for writing comes to, in view of the files
that are there. It may be anything. -/
structure Site where
  place : Files → String → Except IoError Place

end MicroBench.Machine
