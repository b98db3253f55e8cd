import MicroBench.Decimal.Shortest

/-! How a shortest decimal is written down: with a point in place, or with an exponent. -/
namespace MicroBench

/-- The choices of a format for decimal text. -/
structure Layout where
  /-- Points up to here are written with an exponent; `none` allows every small value in place. -/
  pointAbove : Option Int
  /-- Points beyond here are written with an exponent; `none` allows every large value in place. -/
  pointUpTo : Option Int
  /-- What follows a whole number written in place. -/
  wholeEnding : List Char
  /-- What precedes the digits of an exponent that is not negative. -/
  plus : List Char
  tie : Tie

namespace Layout

def inPlace (layout : Layout) (point : Int) : Bool :=
  layout.pointAbove.all (· < point) && layout.pointUpTo.all (point ≤ ·)

/-- `digits` with the point after the first `point` of them, zeros being filled in. -/
def withPoint (layout : Layout) (digits : List Char) (point : Int) : List Char :=
  if point ≤ 0 then '0' :: '.' :: List.replicate (-point).toNat '0' ++ digits
  else
    let whole := point.toNat
    if digits.length ≤ whole then
      digits ++ List.replicate (whole - digits.length) '0' ++ layout.wholeEnding
    else digits.take whole ++ '.' :: digits.drop whole

/-- One digit, a point if more follow, and the power of ten. -/
def withExponent (layout : Layout) (digits : List Char) (point : Int) : List Char :=
  let power := point - 1
  let sign := if power < 0 then ['-'] else layout.plus
  let tail := match digits.drop 1 with
    | [] => []
    | rest => '.' :: rest
  digits.take 1 ++ tail ++ 'e' :: sign ++ Nat.toDigits 10 power.natAbs

def render (layout : Layout) (x : Decimal) : List Char :=
  if layout.inPlace x.point then layout.withPoint x.digits x.point
  else layout.withExponent x.digits x.point

def renderFinite (layout : Layout) (negative : Bool) (quanta : Nat) : List Char :=
  (if negative then ['-'] else []) ++ layout.render (Decimal.shortest layout.tie quanta)

/-- The text of any number, the ones that are not finite spelled `NaN` and `inf`. -/
def renderNumber (layout : Layout) : Binary64 → List Char
  | .nan => ['N', 'a', 'N']
  | .infinite negative => (if negative then ['-'] else []) ++ ['i', 'n', 'f']
  | .finite negative quanta _ => layout.renderFinite negative quanta

/-- Messages write every digit in place and no more than those. -/
def plain : Layout where
  pointAbove := none
  pointUpTo := none
  wholeEnding := []
  plus := []
  tie := .up

/-- Log lines show that a number is no integer: a whole one ends in `.0`, and very small or large
ones take an exponent. -/
def logged : Layout where
  pointAbove := some (-4)
  pointUpTo := some 16
  wholeEnding := ['.', '0']
  plus := []
  tie := .up

end Layout

end MicroBench
