/-! The fields of a record and their names in its text form. -/
namespace MicroBench

inductive Field where
  | iterations
  | totalNanos
  | nanosPerOp
  | opsPerSec
  | bytesPerOp
  | allocsPerOp
  | samples
deriving DecidableEq

namespace Field

def name : Field → String
  | iterations => "iterations"
  | totalNanos => "total_nanos"
  | nanosPerOp => "nanos_per_op"
  | opsPerSec => "ops_per_sec"
  | bytesPerOp => "bytes_per_op"
  | allocsPerOp => "allocs_per_op"
  | samples => "samples"

/-- All fields, in the order in which they are written. -/
def all : List Field :=
  [iterations, totalNanos, nanosPerOp, opsPerSec, bytesPerOp, allocsPerOp, samples]

def ofName? (name : List Char) : Option Field :=
  all.find? fun field => field.name.toList = name

end Field

end MicroBench
