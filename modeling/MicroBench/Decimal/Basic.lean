import MicroBench.Binary64.Arithmetic

/-! Decimals: a whole number of steps of a power of ten. A decimal *reads back* as a
count of quanta if it rounds to that count. -/
namespace MicroBench

/-- The value `coefficient * 10 ^ exponent`. -/
structure Decimal where
  coefficient : Nat
  exponent : Int
deriving DecidableEq

namespace Decimal

def quantaNum (x : Decimal) : Nat :=
  x.coefficient * Nat.pow 10 x.exponent.toNat * quantaPerUnit

def quantaDen (x : Decimal) : Nat := Nat.pow 10 (-x.exponent).toNat

/-- The nearest number to the decimal is `quanta` quanta, overflow left aside. -/
def ReadsBack (quanta : Nat) (x : Decimal) : Prop :=
  Binary64.nearestQuanta x.quantaNum x.quantaDen = quanta

instance (quanta : Nat) (x : Decimal) : Decidable (ReadsBack quanta x) :=
  inferInstanceAs (Decidable (_ = _))

/-- The decimal that is exactly `quanta` quanta. -/
def exact (quanta : Nat) : Decimal := ⟨quanta * Nat.pow 5 1074, -1074⟩

def digits (x : Decimal) : List Char := Nat.toDigits 10 x.coefficient

/-- Where the point stands: the value is `0.DIGITS * 10 ^ point`. -/
def point (x : Decimal) : Int := x.digits.length + x.exponent

end Decimal

end MicroBench
