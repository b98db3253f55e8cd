import MicroBench.ChaCha.Generator
import MicroBench.Runner

/-! The settings of a plugin run: a preset of counts, what overrides it, and the seed and
the size for the inputs of a workload. -/
namespace MicroBench

inductive Profile where
  | quick
  | full
deriving DecidableEq

namespace Profile

def name : Profile → String
  | quick => "quick"
  | full => "full"

def all : List Profile := [quick, full]

def iterations : Profile → UInt64
  | quick => 300
  | full => 3000

def warmup : Profile → UInt64
  | quick => 32
  | full => 200

end Profile

structure Config where
  profile : Profile
  seed : UInt64
  /-- Measured calls instead of those of the profile. -/
  iterations : Option UInt64
  /-- Calls that warm up instead of those of the profile. -/
  warmup : Option UInt64
  /-- The size of the inputs, in bytes or elements. -/
  size : UInt64
  captureSamples : Bool
deriving DecidableEq

namespace Config

def standard : Config where
  profile := .quick
  seed := 0
  iterations := none
  warmup := none
  size := 1024
  captureSamples := true

def generator (config : Config) : ChaCha.Generator := .ofSeed config.seed

def iterationCount (config : Config) : UInt64 :=
  config.iterations.getD config.profile.iterations

def warmupCount (config : Config) : UInt64 := config.warmup.getD config.profile.warmup

def runner (config : Config) : Runner := ⟨config.captureSamples⟩

end Config

end MicroBench
