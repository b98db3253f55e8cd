import MicroBench.Decimal.Basic

/-! The shortest decimal of a number. The grids of one, two, … seventeen digits are
tried in turn; on each only the two neighbours of the value can win. The first grid
with a neighbour that reads back decides, and the nearer neighbour on it is taken. -/
namespace MicroBench

/-- Which of two equally near decimals is taken. -/
inductive Tie where
  | even
  | up
deriving DecidableEq

namespace Decimal

/-- The value of `quanta` quanta is below `10 ^ magnitude quanta`, and at least a tenth of that. -/
def magnitude (quanta : Nat) : Int :=
  (Nat.toDigits 10 (quanta * Nat.pow 10 324 / quantaPerUnit)).length - 324

/-- The multiple of `10 ^ place` that follows `lower` steps; ten steps are one of the next place. -/
def next (lower : Nat) (place : Int) : Decimal :=
  if lower = 9 then ⟨1, place + 1⟩ else ⟨lower + 1, place⟩

/-- The neighbour of the value among the multiples of `10 ^ place` that reads back, if any. -/
def onGrid (tie : Tie) (quanta : Nat) (place : Int) : Option Decimal :=
  let num := quanta * Nat.pow 10 (-place).toNat
  let den := quantaPerUnit * Nat.pow 10 place.toNat
  let below : Decimal := ⟨num / den, place⟩
  let above := next (num / den) place
  let rest := 2 * (num % den)
  if ReadsBack quanta below then
    if ReadsBack quanta above ∧
        (den < rest ∨ rest = den ∧ (tie = .up ∨ num / den % 2 = 1)) then
      some above
    else some below
  else if ReadsBack quanta above then some above
  else none

/-- The shortest decimal that reads back, and the nearest of those. -/
def shortest (tie : Tie) (quanta : Nat) : Decimal :=
  if quanta = 0 then ⟨0, 0⟩
  else
    let top := magnitude quanta
    ((List.range 17).findSome? fun (n : Nat) => onGrid tie quanta (top - 1 - n)).getD
      (exact quanta)

end Decimal

end MicroBench
