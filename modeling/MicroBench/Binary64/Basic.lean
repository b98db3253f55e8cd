/-! Binary floating-point numbers of 64 bits. A finite number is a sign and a count
of quanta, where one quantum is `2 ^ -1074`, the least positive number; which counts
occur is `Representable`. Each number that is not a NaN has one form, so equality of
the type is equality of the bits; all NaNs are one. -/
namespace MicroBench

def quantaPerUnit : Nat := Nat.pow 2 1074

def largestQuanta : Nat := (Nat.pow 2 53 - 1) * Nat.pow 2 2045

/-- The distance between neighbouring numbers around `quanta`, at most 53 bits being kept. -/
def spacing (quanta : Nat) : Nat := Nat.pow 2 (quanta.log2 - 52)

/-- The counts of quanta that have an exact form: 53 significant bits, and no overflow. -/
def Representable (quanta : Nat) : Prop :=
  quanta ≤ largestQuanta ∧ quanta % spacing quanta = 0

instance (quanta : Nat) : Decidable (Representable quanta) :=
  inferInstanceAs (Decidable (_ ∧ _))

inductive Binary64 where
  | nan
  | infinite (negative : Bool)
  | finite (negative : Bool) (quanta : Nat) (representable : Representable quanta)
deriving DecidableEq

namespace Binary64

/-- The number with this sign and count of quanta; infinite if there is none. -/
def ofQuanta (negative : Bool) (quanta : Nat) : Binary64 :=
  if h : Representable quanta then finite negative quanta h else infinite negative

/-- A count of quanta that has an exact form is kept. -/
theorem ofQuanta_of_representable {quanta : Nat} (negative : Bool) (h : Representable quanta) :
    ofQuanta negative quanta = finite negative quanta h := by
  simp [ofQuanta, h]

theorem representable_zero : Representable 0 := ⟨Nat.zero_le _, Nat.zero_mod _⟩

instance : Zero Binary64 := ⟨finite false 0 representable_zero⟩

instance : Inhabited Binary64 := ⟨0⟩

def isFinite : Binary64 → Bool
  | finite .. => true
  | _ => false

def signedQuanta (negative : Bool) (quanta : Nat) : Int :=
  if negative then -quanta else quanta

/-- The place of a number in the order of numbers, in quanta; both zeros have one place, the
infinite numbers are beyond every finite one, and a NaN has none. -/
def place : Binary64 → Option Int
  | nan => none
  | infinite negative => some (signedQuanta negative (Nat.pow 2 2098))
  | finite negative quanta _ => some (signedQuanta negative quanta)

/-- Strictly before; false if either side is a NaN. -/
def lt (x y : Binary64) : Bool :=
  match x.place, y.place with
  | some a, some b => a < b
  | _, _ => false

/-- Equal as numbers: the zeros are equal, and a NaN equals nothing. -/
def numEq (x y : Binary64) : Bool :=
  match x.place, y.place with
  | some a, some b => a == b
  | _, _ => false

/-! ### Bits -/

private def signBit (negative : Bool) : Nat := if negative then Nat.pow 2 63 else 0

/-- The interchange form: sign, eleven bits of exponent, 52 bits of fraction. The exponent field
and the leading bit of the significand add up, so one sum serves subnormal numbers too. -/
def toBits : Binary64 → UInt64
  | nan => 0x7ff8000000000000
  | infinite negative => .ofNat (signBit negative + 2047 * Nat.pow 2 52)
  | finite negative quanta _ =>
    .ofNat (signBit negative + (quanta.log2 - 52) * Nat.pow 2 52 + quanta / spacing quanta)

def ofBits (bits : UInt64) : Binary64 :=
  let negative := decide (Nat.pow 2 63 ≤ bits.toNat)
  let exponent := bits.toNat / Nat.pow 2 52 % 2048
  let fraction := bits.toNat % Nat.pow 2 52
  if exponent = 2047 then (if fraction = 0 then infinite negative else nan)
  else if exponent = 0 then ofQuanta negative fraction
  else ofQuanta negative ((Nat.pow 2 52 + fraction) * Nat.pow 2 (exponent - 1))

end Binary64

end MicroBench
