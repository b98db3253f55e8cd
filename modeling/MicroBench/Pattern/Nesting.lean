/-! How deep a pattern is nested. Parts that stand side by side make a level of their own,
but a single part does not. -/
namespace MicroBench.Pattern

structure Row where
  parts : Nat
  /-- The depth of the deepest part. -/
  deepest : Nat
deriving DecidableEq

namespace Row

def empty : Row := ⟨0, 0⟩

def add (row : Row) (depth : Nat) : Row := ⟨row.parts + 1, max row.deepest depth⟩

def depth (row : Row) : Nat := if row.parts ≤ 1 then row.deepest else row.deepest + 1

end Row

/-- Patterns that are nested deeper cannot be used. -/
def deepestNesting : Nat := 250

end MicroBench.Pattern
