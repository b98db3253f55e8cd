import MicroBench.Decimal.Basic

/-! Text with a fixed number of decimal places. The exact value is rounded, a half going
to the even neighbour. -/
namespace MicroBench.Fixed

/-- The value in steps of `10 ^ -places`, rounded. -/
def steps (places quanta : Nat) : Nat :=
  roundedDiv (quanta * Nat.pow 10 places) quantaPerUnit

def padded (width n : Nat) : List Char :=
  let digits := Nat.toDigits 10 n
  List.replicate (width - digits.length) '0' ++ digits

/-- So many steps of `10 ^ -places`, as text. -/
def renderSteps (places steps : Nat) : List Char :=
  Nat.toDigits 10 (steps / Nat.pow 10 places) ++ '.' :: padded places (steps % Nat.pow 10 places)

/-- The sign is kept also where all digits shown are zero. -/
def render (places : Nat) : Binary64 → List Char
  | .nan => ['N', 'a', 'N']
  | .infinite negative => (if negative then ['-'] else []) ++ ['i', 'n', 'f']
  | .finite negative quanta _ =>
    (if negative then ['-'] else []) ++ renderSteps places (steps places quanta)

end MicroBench.Fixed
