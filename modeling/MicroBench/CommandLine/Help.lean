/-! The help texts of the plugin. -/
namespace MicroBench.CommandLine

private def lines (texts : List String) : String := String.join (texts.map (· ++ "\n"))

private def heading : List String :=
  ["Reference benchmark plugin: runs one workload, prints one JSON result line",
    "",
    "Usage: poly-bench-plugin [OPTIONS]",
    "",
    "Options:"]

def shortHelp : String := lines <| heading ++
  ["      --workload <WORKLOAD>      Workload to measure [default: sum] [possible values: noop, sum, sha256, alloc, sleep]",
    "      --profile <PROFILE>        Iteration preset used when --iterations/--warmup are not given [default: quick] [possible values: quick, full]",
    "      --iterations <ITERATIONS>  Measured iterations (overrides the profile)",
    "      --warmup <WARMUP>          Unmeasured warmup iterations (overrides the profile)",
    "      --size <SIZE>              Input size in bytes/elements for data workloads [default: 1024]",
    "      --seed <SEED>              [default: 0]",
    "      --no-samples               Only report totals; omit per-iteration samples",
    "      --out <OUT>                Where to write the JSON record. If omitted, prints to stdout",
    "  -h, --help                     Print help (see more with '--help')"]

def longHelp : String := lines <| heading ++
  ["      --workload <WORKLOAD>",
    "          Workload to measure",
    "",
    "          Possible values:",
    "          - noop:   Empty thunk; measures harness and clock overhead",
    "          - sum:    Wrapping sum over `size` random u64 values",
    "          - sha256: SHA-256 digest of a `size`-byte buffer",
    "          - alloc:  Allocate and fill a `size`-byte vector",
    "          - sleep:  Sleep for one millisecond",
    "          ",
    "          [default: sum]",
    "",
    "      --profile <PROFILE>",
    "          Iteration preset used when --iterations/--warmup are not given",
    "          ",
    "          [default: quick]",
    "          [possible values: quick, full]",
    "",
    "      --iterations <ITERATIONS>",
    "          Measured iterations (overrides the profile)",
    "",
    "      --warmup <WARMUP>",
    "          Unmeasured warmup iterations (overrides the profile)",
    "",
    "      --size <SIZE>",
    "          Input size in bytes/elements for data workloads",
    "          ",
    "          [default: 1024]",
    "",
    "      --seed <SEED>",
    "          [default: 0]",
    "",
    "      --no-samples",
    "          Only report totals; omit per-iteration samples",
    "",
    "      --out <OUT>",
    "          Where to write the JSON record. If omitted, prints to stdout",
    "",
    "  -h, --help",
    "          Print help (see a summary with '-h')"]

def helpText (long : Bool) : String := if long then longHelp else shortHelp

def usageHint : String :=
  "Usage: poly-bench-plugin [OPTIONS]\n\nFor more information, try '--help'."

end MicroBench.CommandLine
