/-! Classes of characters that a table of code points gives. -/
namespace MicroBench.Text

/-- A character lies in one of some ranges. Of each range the first and the last code point are
told. -/
def isAmong (ranges : List (Nat × Nat)) (c : Char) : Bool :=
  ranges.any fun (first, last) => first ≤ c.toNat && c.toNat ≤ last

end MicroBench.Text
