import MicroBench.Rounding
import MicroBench.Binary64.Basic

/-! Arithmetic on `Binary64`. Every operation on finite numbers takes the exact
result, as a quotient of naturals counted in quanta, and rounds it once. -/
namespace MicroBench.Binary64

/-- The count of quanta that `num / den` quanta round to when overflow is left aside. -/
def nearestQuanta (num den : Nat) : Nat :=
  let step := spacing (num / den)
  roundedDiv num (den * step) * step

/-- `num / den` quanta, rounded to the nearest number. -/
def round (negative : Bool) (num den : Nat) : Binary64 :=
  ofQuanta negative (nearestQuanta num den)

def ofRatio (num den : Nat) : Binary64 :=
  round false (num * quantaPerUnit) den

def ofNat (n : Nat) : Binary64 := ofRatio n 1

def neg : Binary64 → Binary64
  | nan => nan
  | infinite negative => infinite (!negative)
  | finite negative quanta h => finite (!negative) quanta h

def abs : Binary64 → Binary64
  | nan => nan
  | infinite _ => infinite false
  | finite _ quanta h => finite false quanta h

/-- An exact zero sum is positive unless both terms are negative. -/
def add : Binary64 → Binary64 → Binary64
  | nan, _ | _, nan => nan
  | infinite s, infinite t => if s = t then infinite s else nan
  | infinite s, finite .. | finite .., infinite s => infinite s
  | finite s m _, finite t n _ =>
    let sum := signedQuanta s m + signedQuanta t n
    if sum = 0 then finite (s && t) 0 representable_zero
    else round (decide (sum < 0)) sum.natAbs 1

def sub (x y : Binary64) : Binary64 := x.add y.neg

def mul : Binary64 → Binary64 → Binary64
  | nan, _ | _, nan => nan
  | infinite s, infinite t => infinite (s ^^ t)
  | infinite s, finite t n _ | finite t n _, infinite s =>
    if n = 0 then nan else infinite (s ^^ t)
  | finite s m _, finite t n _ => round (s ^^ t) (m * n) quantaPerUnit

def div : Binary64 → Binary64 → Binary64
  | nan, _ | _, nan => nan
  | infinite _, infinite _ => nan
  | infinite s, finite t _ _ => infinite (s ^^ t)
  | finite s _ _, infinite t => finite (s ^^ t) 0 representable_zero
  | finite s m _, finite t n _ =>
    if n = 0 then (if m = 0 then nan else infinite (s ^^ t))
    else round (s ^^ t) (m * quantaPerUnit) n

/-- The larger of two numbers; a NaN gives way to the other side. -/
def max (x y : Binary64) : Binary64 :=
  if x = nan ∨ x.lt y then y else x

instance : Neg Binary64 := ⟨neg⟩
instance : Add Binary64 := ⟨add⟩
instance : Sub Binary64 := ⟨sub⟩
instance : Mul Binary64 := ⟨mul⟩
instance : Div Binary64 := ⟨div⟩

end MicroBench.Binary64
