import Mathlib.Algebra.Ring.Nat
import MicroBench.Saturating

/-! A saturating sum of words is their sum, if that is a word. -/
namespace MicroBench

theorem toNat_foldl_satAdd (words : List UInt64) (n : UInt64) :
    (words.foldl satAdd n).toNat = min (n.toNat + (words.map UInt64.toNat).sum) largestWord := by
  induction words generalizing n with
  | nil =>
    have small := n.toNat_lt
    simp only [List.foldl_nil, List.map_nil, List.sum_nil, largestWord]
    omega
  | cons word words ih =>
    rw [List.foldl_cons, ih, satAdd, toNat_clampToWord, List.map_cons, List.sum_cons]
    omega

/-- Stopping at the largest word on the way is the same as stopping there at the end. -/
theorem toNat_satSum (words : List UInt64) :
    (satSum words).toNat = min (words.map UInt64.toNat).sum largestWord := by
  rw [satSum, toNat_foldl_satAdd, UInt64.toNat_zero, Nat.zero_add]

example : satSum [18446744073709551615, 1] = 18446744073709551615 := by decide

end MicroBench
