import GraphScript.Decimal.Shortest

/-!
# Decimal/Layout — writing a decimal

A format of numbers is a record of its decisions: which digits, which exponents are written in
positional notation, whether a whole number keeps its point, and how an exponent is spelled.
-/

namespace GraphScript.Decimal

/-- How many digits a format writes. -/
inductive Precision where
  /-- As few as read back, with the choice between equally near ones. -/
  | shortest (tie : Tie)
  /-- At most `count`. -/
  | digits (count : Nat)
  deriving DecidableEq, Repr

/-- A number format. -/
structure Layout where
  precision : Precision
  /-- The least exponent written in positional notation, if there is one. -/
  leastPositional : Option Int
  /-- The greatest exponent written in positional notation, if there is one. -/
  greatestPositional : Option Int
  /-- A whole number in positional notation ends in `.0`. -/
  keepsPoint : Bool
  /-- A positive exponent shows its sign. -/
  plusSign : Bool
  /-- The least number of digits of an exponent. -/
  exponentWidth : Nat
  nan : String
  infinity : String
  deriving Repr

namespace Layout

/-- Whether a number with this exponent is written in positional notation. -/
def isPositional (l : Layout) (exponent : Int) : Bool :=
  l.leastPositional.all (fun least => decide (least ≤ exponent)) &&
    l.greatestPositional.all (fun greatest => decide (exponent ≤ greatest))

/-- The digits in positional notation. -/
def positional (l : Layout) (s : Scientific) : List Char :=
  if s.exponent < 0 then
    "0.".toList ++ List.replicate ((-s.exponent).toNat - 1) '0' ++ s.digits
  else
    let n := s.exponent.toNat + 1
    let whole := s.digits.take n ++ List.replicate (n - s.digits.length) '0'
    match s.digits.drop n with
    | [] => if l.keepsPoint then whole ++ ".0".toList else whole
    | fraction => whole ++ '.' :: fraction

/-- The digits with an exponent. -/
def withExponent (l : Layout) (s : Scientific) : List Char :=
  let significand := match s.digits with
    | [] => []
    | [d] => [d]
    | d :: r => d :: '.' :: r
  let ds := Nat.toDigits 10 s.exponent.natAbs
  let sign := if s.exponent < 0 then ['-'] else if l.plusSign then ['+'] else []
  significand ++ 'e' :: sign ++ List.replicate (l.exponentWidth - ds.length) '0' ++ ds

/-- A positive decimal in this format. -/
def decimal (l : Layout) (s : Scientific) : List Char :=
  if l.isPositional s.exponent then l.positional s else l.withExponent s

/-- The digits of a positive value in this format. -/
def digitsOf (l : Layout) (b : Binary) : Scientific :=
  match l.precision with
  | .shortest tie => b.shortest tie
  | .digits count => b.rounded count

/-- A minus sign before the text of a negative number. -/
def signed (negative : Bool) (cs : List Char) : List Char := if negative then '-' :: cs else cs

/-- A double in this format. -/
def write (l : Layout) (x : Float) : String :=
  match classify x with
  | .nan => l.nan
  | .infinite negative => String.ofList (signed negative l.infinity.toList)
  | .zero negative => String.ofList (signed negative (l.decimal .zero))
  | .finite negative b => String.ofList (signed negative (l.decimal (l.digitsOf b)))

end Layout

end GraphScript.Decimal
