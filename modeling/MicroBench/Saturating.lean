/-! Sums of 64-bit words that stop at the largest word. -/
namespace MicroBench

def largestWord : Nat := 0xffffffffffffffff

/-- A natural as a word, or the largest word if it does not fit. -/
def clampToWord (n : Nat) : UInt64 := .ofNat (min n largestWord)

/-- Clamping is the minimum with the largest word. -/
theorem toNat_clampToWord (n : Nat) : (clampToWord n).toNat = min n largestWord := by
  have : min n largestWord < 2 ^ 64 := by simp only [largestWord]; omega
  simpa [clampToWord] using Nat.mod_eq_of_lt this

def satAdd (a b : UInt64) : UInt64 := clampToWord (a.toNat + b.toNat)

/-- The sum of a list, taken from the left. -/
def satSum (words : List UInt64) : UInt64 := words.foldl satAdd 0

end MicroBench
