import GraphScript.Decimal.Layout

/-!
# Literal — numbers and strings in emitted text

Each dialect spells a number so that it reads back as the same double, and a string so that its
literal stands on one line and is made of printable characters.
-/

namespace GraphScript

/-- The languages that text is emitted in. -/
inductive Dialect where
  /-- The interpreted target: Lua. -/
  | script
  /-- The compiled targets: C++. -/
  | native
  deriving DecidableEq, Repr

namespace Literal

/-- Numbers have the fewest digits that read back, are positional from `0.0001` up to sixteen whole
digits, and always carry a point or an exponent. -/
def layout : Decimal.Layout where
  precision := .shortest .up
  leastPositional := some (-4)
  greatestPositional := some 15
  keepsPoint := true
  plusSign := false
  exponentWidth := 1
  nan := "NaN"
  infinity := "inf"

/-- An expression that is no number. -/
def nan : Dialect → String
  | .script => "(0/0)"
  | .native => "std::numeric_limits<double>::quiet_NaN()"

/-- An expression for infinity. -/
def infinity : Dialect → String
  | .script => "math.huge"
  | .native => "std::numeric_limits<double>::infinity()"

/-- A number literal; a negative one stands in parentheses. -/
def number (dialect : Dialect) (x : Float) : String :=
  match Decimal.classify x with
  | .nan => nan dialect
  | .infinite false => infinity dialect
  | .infinite true => s!"(-{infinity dialect})"
  | .zero false | .finite false _ => layout.write x
  | .zero true | .finite true _ => s!"({layout.write x})"

/-- Three digits of a number in a base. -/
def threeDigits (base n : Nat) : List Char :=
  [Nat.digitChar (n / (base * base) % base), Nat.digitChar (n / base % base),
    Nat.digitChar (n % base)]

/-- The base in which a dialect numbers characters. -/
def escapeBase : Dialect → Nat
  | .script => 10
  | .native => 8

/-- One character inside a string literal. -/
def escaped (dialect : Dialect) (c : Char) : List Char :=
  if c = '\\' then ['\\', '\\']
  else if c = '"' then ['\\', '"']
  else if c = '\n' then ['\\', 'n']
  else if c = '\r' then ['\\', 'r']
  else if c = '\t' then ['\\', 't']
  else if c.toNat < 0x20 ∨ c.toNat = 0x7f then '\\' :: threeDigits (escapeBase dialect) c.toNat
  else [c]

/-- The characters of a string literal. -/
def stringChars (dialect : Dialect) (cs : List Char) : List Char :=
  '"' :: cs.flatMap (escaped dialect) ++ ['"']

/-- A string literal. -/
def string (dialect : Dialect) (s : String) : String := String.ofList (stringChars dialect s.toList)

end Literal

end GraphScript
