/-!
# Text/Numeral — natural numbers in decimal digits

A numeral is digits, possibly after a plus sign, and stands for a number below a power of two.
-/

namespace GraphScript.Text

/-- Why a text is no numeral. -/
inductive NumeralFault where
  | empty
  | badDigit
  | tooLarge
  deriving DecidableEq, Repr

/-- The wording of a fault. -/
def NumeralFault.message : NumeralFault → String
  | .empty => "cannot parse integer from empty string"
  | .badDigit => "invalid digit found in string"
  | .tooLarge => "number too large to fit in target type"

/-- The number of digits after those of `n`; the first character that is no digit or that leads
beyond the bound is the fault. -/
def digitsFrom (bound n : Nat) : List Char → Except NumeralFault Nat
  | [] => .ok n
  | c :: r =>
    if c.isDigit then
      let next := n * 10 + (c.toNat - 48)
      if next < bound then digitsFrom bound next r else .error .tooLarge
    else .error .badDigit

/-- The number below `2 ^ bits` that a text stands for. -/
def numeral (bits : Nat) (s : String) : Except NumeralFault Nat :=
  match s.toList with
  | [] => .error .empty
  | ['+'] => .error .badDigit
  | '+' :: r => digitsFrom (Nat.pow 2 bits) 0 r
  | cs => digitsFrom (Nat.pow 2 bits) 0 cs

end GraphScript.Text
