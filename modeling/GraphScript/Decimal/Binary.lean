/-!
# Decimal/Binary — the exact value of a double

A finite double is a sign and a natural mantissa times a power of two.  `classify` takes it apart
from its bits, so every digit that is printed can be computed in exact arithmetic.
-/

namespace GraphScript.Decimal

/-- The value `mantissa * 2 ^ exponent`. -/
structure Binary where
  mantissa : Nat
  exponent : Int
  deriving DecidableEq, Repr

/-- What a double is. -/
inductive Kind where
  | nan
  | infinite (negative : Bool)
  | zero (negative : Bool)
  | finite (negative : Bool) (value : Binary)
  deriving DecidableEq, Repr

/-- Takes a double apart. -/
def classify (x : Float) : Kind :=
  let bits : Nat := x.toBits.toNat
  let negative := bits / 0x8000000000000000 == 1
  let exponent : Nat := bits / 0x10000000000000 % 0x800
  let fraction : Nat := bits % 0x10000000000000
  if exponent == 2047 then
    if fraction == 0 then .infinite negative else .nan
  else if exponent == 0 then
    if fraction == 0 then .zero negative else .finite negative ⟨fraction, -1074⟩
  else .finite negative ⟨0x10000000000000 + fraction, (exponent : Int) - 1075⟩

/-- A positive fraction `num / den`. -/
structure Ratio where
  num : Nat
  den : Nat
  deriving DecidableEq, Repr

/-- `units * 2 ^ exponent / 10 ^ grid`. -/
def Ratio.onGrid (units : Nat) (exponent grid : Int) : Ratio :=
  ⟨units * Nat.pow 2 exponent.toNat * Nat.pow 10 (-grid).toNat,
    Nat.pow 2 (-exponent).toNat * Nat.pow 10 grid.toNat⟩

/-- The number of decimal digits of a positive number. -/
def digitCount (n : Nat) : Nat := (Nat.toDigits 10 n).length

/-- The power of ten of the leading digit of a positive binary value. -/
def Binary.leading (b : Binary) : Int :=
  let r := Ratio.onGrid b.mantissa b.exponent 0
  let k : Int := (digitCount r.num : Int) - (digitCount r.den : Int)
  let s := Ratio.onGrid b.mantissa b.exponent k
  if s.den ≤ s.num then k else k - 1

end GraphScript.Decimal
