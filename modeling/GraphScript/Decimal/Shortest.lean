import GraphScript.Decimal.Binary

/-!
# Decimal/Shortest — the fewest digits that read back

The reals that round to a double form an interval, its ends included when the mantissa is even.
For one digit, two digits and so on, the two neighbours of the value on that decimal grid are tried
against the interval: the first grid with a hit wins, and of two hits the nearer.  `rounded` gives a
fixed number of digits instead, a half going to the even neighbour.
-/

namespace GraphScript.Decimal

/-- A positive decimal `d.ddd * 10 ^ exponent` by its digits. -/
structure Scientific where
  digits : List Char
  exponent : Int
  deriving DecidableEq, Repr

/-- Which of two equally near neighbours is taken. -/
inductive Tie where
  | up
  | even
  deriving DecidableEq, Repr

/-- Drops zeros at the end of a digit list, but not its first digit. -/
def stripZeros (ds : List Char) : List Char :=
  match ds with
  | [] => []
  | d :: r => d :: (r.reverse.dropWhile (· == '0')).reverse

/-- The decimal `coefficient * 10 ^ grid`, without zeros at its end. -/
def Scientific.ofGrid (coefficient : Nat) (grid : Int) : Scientific :=
  let ds := Nat.toDigits 10 coefficient
  ⟨stripZeros ds, grid + ds.length - 1⟩

/-- Zero. -/
def Scientific.zero : Scientific := ⟨['0'], 0⟩

/-- Of the neighbours `c` and `c + 1` of `r`, the nearer one. -/
def nearer (tie : Tie) (r : Ratio) (c : Nat) : Nat :=
  let twice := 2 * (r.num - c * r.den)
  if twice < r.den then c
  else if r.den < twice then c + 1
  else match tie with
    | .up => c + 1
    | .even => if c % 2 == 0 then c else c + 1

/-- Four times the mantissa's distance to the lower end of the rounding interval. -/
def Binary.below (b : Binary) : Nat :=
  if b.mantissa == 0x10000000000000 && b.exponent > -1074 then 1 else 2

/-- The point of the grid `10 ^ grid` to write for `b`, if one lies in the rounding interval. -/
def Binary.hit (tie : Tie) (b : Binary) (grid : Int) : Option Nat :=
  let at' (units : Nat) := Ratio.onGrid units (b.exponent - 2) grid
  let value := at' (4 * b.mantissa)
  let lower := (at' (4 * b.mantissa - b.below)).num
  let upper := (at' (4 * b.mantissa + 2)).num
  let inside (c : Nat) : Bool :=
    let p := c * value.den
    if b.mantissa % 2 == 0 then lower ≤ p && p ≤ upper else lower < p && p < upper
  let c := value.num / value.den
  match inside c, inside (c + 1) with
  | true, true => some (nearer tie value c)
  | true, false => some c
  | false, true => some (c + 1)
  | false, false => none

/-- Tries grids of `count` digits and more, at most `fuel` of them. -/
def Binary.search (tie : Tie) (b : Binary) (leading : Int) : Nat → Nat → Scientific
  | 0, count =>
    let grid := leading - count + 1
    let r := Ratio.onGrid b.mantissa b.exponent grid
    .ofGrid (r.num / r.den) grid
  | fuel + 1, count =>
    let grid := leading - count + 1
    match b.hit tie grid with
    | some c => .ofGrid c grid
    | none => b.search tie leading fuel (count + 1)

/-- The shortest decimal that reads back as `b`; seventeen digits always suffice. -/
def Binary.shortest (tie : Tie) (b : Binary) : Scientific := b.search tie b.leading 17 1

/-- The decimal of at most `count` digits nearest to `b`. -/
def Binary.rounded (count : Nat) (b : Binary) : Scientific :=
  let grid := b.leading - count + 1
  let r := Ratio.onGrid b.mantissa b.exponent grid
  .ofGrid (nearer .even r (r.num / r.den)) grid

end GraphScript.Decimal
