import GraphScript.Decimal.Layout

/-!
# Script/Number — the numbers of scripts

A number is a 64-bit integer or a double, and the two kinds are told apart: `3` and `3.0` are equal
but are written differently.  Integers wrap around.  What is not a number keeps a sign of its own,
because it is written with it; a computation that has no value gives the negative one.
-/

namespace GraphScript.Script

/-- A number. -/
inductive Number where
  | int (i : Int64)
  | float (x : Float)
  | nan (negative : Bool)
  deriving Inhabited, Repr

/-- An arithmetic operator. -/
inductive ArithOp where
  | add | sub | mul | div | mod | floorDiv | pow
  deriving DecidableEq, Repr

namespace Number

/-- The number of a double that the host supplies. -/
def ofFloat (x : Float) : Number := if x.isNaN then .nan false else .float x

/-- The result of a computation with doubles. -/
def computed (x : Float) : Number := if x.isNaN then .nan true else .float x

/-- A number as a double. -/
def toFloat : Number → Float
  | .int i => Float.ofInt i.toInt
  | .float x => x
  | .nan _ => 0.0 / 0.0

/-! ## Exact values -/

/-- The value of a finite double as a whole number times a power of two. -/
def scaled? (x : Float) : Option (Int × Int) :=
  match Decimal.classify x with
  | .zero _ => some (0, 0)
  | .finite negative b =>
    some (if negative then -(b.mantissa : Int) else (b.mantissa : Int), b.exponent)
  | .nan | .infinite _ => none

/-- The whole number that a double is. -/
def integral? (x : Float) : Option Int :=
  match scaled? x with
  | none => none
  | some (m, e) =>
    if 0 ≤ e then some (m * Nat.pow 2 e.toNat)
    else if m % Nat.pow 2 (-e).toNat = 0 then some (m / Nat.pow 2 (-e).toNat)
    else none

/-- The integer that a double is. -/
def exactInt? (x : Float) : Option Int64 :=
  match integral? x with
  | some n =>
    if -0x8000000000000000 ≤ n ∧ n < 0x8000000000000000 then some (Int64.ofInt n) else none
  | none => none

/-- How an integer compares with a double that is a number. -/
def compareInt (i : Int) (x : Float) : Ordering :=
  match Decimal.classify x with
  | .infinite negative => if negative then .gt else .lt
  | .nan => .eq
  | _ =>
    match scaled? x with
    | some (m, e) =>
      if 0 ≤ e then compare i (m * Nat.pow 2 e.toNat) else compare (i * Nat.pow 2 (-e).toNat) m
    | none => .eq

/-! ## Comparison -/

/-- Whether two numbers are equal. -/
def eq : Number → Number → Bool
  | .int a, .int b => a == b
  | .float x, .float y => x == y
  | .int a, .float y => compareInt a.toInt y == .eq
  | .float x, .int b => compareInt b.toInt x == .eq
  | .nan _, _ => false
  | _, .nan _ => false

/-- Whether a number is less than another. -/
def lt : Number → Number → Bool
  | .int a, .int b => decide (a < b)
  | .float x, .float y => decide (x < y)
  | .int a, .float y => compareInt a.toInt y == .lt
  | .float x, .int b => compareInt b.toInt x == .gt
  | .nan _, _ => false
  | _, .nan _ => false

/-- Whether a number is at most another. -/
def le : Number → Number → Bool
  | .int a, .int b => decide (a ≤ b)
  | .float x, .float y => decide (x ≤ y)
  | .int a, .float y => compareInt a.toInt y != .gt
  | .float x, .int b => compareInt b.toInt x != .lt
  | .nan _, _ => false
  | _, .nan _ => false

/-! ## Arithmetic -/

/-- The remainder of an exact division that goes toward zero. -/
def remainder (x y : Float) : Float :=
  match scaled? x, scaled? y with
  | some (m, e), some (n, f) =>
    if n = 0 then 0.0 / 0.0
    else
      let low := min e f
      let r := Int.tmod (m * Nat.pow 2 (e - low).toNat) (n * Nat.pow 2 (f - low).toNat)
      let size := Float.scaleB (Float.ofNat r.natAbs) low
      if r < 0 ∨ (r = 0 ∧ x < 0) then -size else size
  | some _, none => x
  | none, _ => 0.0 / 0.0

/-- The remainder of a division that goes to the floor. -/
def floatMod (x y : Float) : Float :=
  let r := remainder x y
  if (r > 0 && y < 0) || (r < 0 && y > 0) then r + y else r

/-- An operation on doubles. -/
def floatArith (op : ArithOp) (x y : Float) : Float :=
  match op with
  | .add => x + y
  | .sub => x - y
  | .mul => x * y
  | .div => x / y
  | .mod => floatMod x y
  | .floorDiv => (x / y).floor
  | .pow => if y == 2 then x * x else Float.pow x y

/-- Why there is no result. -/
inductive Fault where
  | divideByZero
  | moduloZero
  deriving DecidableEq, Repr

/-- The wording of a fault. -/
def Fault.message : Fault → String
  | .divideByZero => "attempt to perform 'n//0'"
  | .moduloZero => "attempt to perform 'n%%0'"

/-- An operation on numbers taken as doubles; what is not a number is passed on. -/
def mixedArith (op : ArithOp) : Number → Number → Number
  | .nan s, _ => .nan s
  | _, .nan s => .nan s
  | a, b => computed (floatArith op a.toFloat b.toFloat)

/-- An operation on numbers. -/
def arith (op : ArithOp) (a b : Number) : Except Fault Number :=
  match a, b with
  | .int i, .int j =>
    match op with
    | .add => .ok (.int (i + j))
    | .sub => .ok (.int (i - j))
    | .mul => .ok (.int (i * j))
    | .mod =>
      if j == 0 then .error .moduloZero else .ok (.int (Int64.ofInt (Int.fmod i.toInt j.toInt)))
    | .floorDiv =>
      if j == 0 then .error .divideByZero
      else .ok (.int (Int64.ofInt (Int.fdiv i.toInt j.toInt)))
    | .div | .pow => .ok (mixedArith op a b)
  | _, _ => .ok (mixedArith op a b)

/-- The number with the other sign. -/
def negate : Number → Number
  | .int i => .int (0 - i)
  | .float x => .float (-x)
  | .nan s => .nan (!s)

/-! ## Text -/

/-- Doubles have up to fourteen digits and look like doubles. -/
def layout : Decimal.Layout where
  precision := .digits 14
  leastPositional := some (-4)
  greatestPositional := some 13
  keepsPoint := true
  plusSign := true
  exponentWidth := 2
  nan := "nan"
  infinity := "inf"

/-- A number as scripts write it. -/
def text : Number → String
  | .int i => toString i.toInt
  | .float x => layout.write x
  | .nan negative => if negative then "-nan" else "nan"

/-- Blanks that may stand around a number. -/
def isBlank (c : Char) : Bool :=
  c == ' ' || ('\t'.toNat ≤ c.toNat && c.toNat ≤ '\r'.toNat)

/-- The value of a hexadecimal digit. -/
def hexDigit? (c : Char) : Option Nat :=
  if '0' ≤ c ∧ c ≤ '9' then some (c.toNat - 48)
  else if 'a' ≤ c ∧ c ≤ 'f' then some (c.toNat - 87)
  else if 'A' ≤ c ∧ c ≤ 'F' then some (c.toNat - 55)
  else none

/-- The value of digits in a base. -/
def digitsValue (base : Nat) (cs : List Char) : Nat :=
  cs.foldl (fun n c => n * base + (hexDigit? c).getD 0) 0

/-- Reads an exponent: its mark, possibly a sign, and digits up to the end. -/
def exponent? (mark : Char) : List Char → Option Int
  | [] => some 0
  | c :: r =>
    if c.toLower = mark then
      let (negative, ds) := match r with
        | '-' :: ds => (true, ds)
        | '+' :: ds => (false, ds)
        | ds => (false, ds)
      if ds.isEmpty || !ds.all Char.isDigit then none
      else
        let n : Int := digitsValue 10 ds
        some (if negative then -n else n)
    else none

/-- Digits around a point, and what follows them. -/
def pointed (isDigit : Char → Bool) (cs : List Char) : List Char × List Char × List Char :=
  let whole := cs.takeWhile isDigit
  match cs.dropWhile isDigit with
  | '.' :: r => (whole, r.takeWhile isDigit, r.dropWhile isDigit)
  | r => (whole, [], r)

/-- A hexadecimal number without sign. -/
def ofHex? (cs : List Char) : Option Number :=
  let (whole, fraction, rest) := pointed (fun c => (hexDigit? c).isSome) cs
  if whole.isEmpty && fraction.isEmpty then none
  else if rest.isEmpty && fraction.isEmpty && !cs.contains '.' then
    some (.int (Int64.ofInt (digitsValue 16 whole)))
  else
    match exponent? 'p' rest with
    | none => none
    | some e =>
      let m := digitsValue 16 (whole ++ fraction)
      some (.float (Float.scaleB (Float.ofNat m) (e - 4 * fraction.length)))

/-- A decimal number without sign; `negative` tells the sign that it will have. -/
def ofDecimal? (negative : Bool) (cs : List Char) : Option Number :=
  let (whole, fraction, rest) := pointed Char.isDigit cs
  if whole.isEmpty && fraction.isEmpty then none
  else
    let value := digitsValue 10 (whole ++ fraction)
    let bound := if negative then 0x8000000000000000 else 0x7fffffffffffffff
    if rest.isEmpty && fraction.isEmpty && !cs.contains '.' && value ≤ bound then
      some (.int (Int64.ofInt value))
    else
      match exponent? 'e' rest with
      | none => none
      | some e =>
        let shift := e - fraction.length
        some (.float (Float.ofScientific value (decide (shift < 0)) shift.natAbs))

/-- A number without blanks and sign. -/
def unsigned? (negative : Bool) : List Char → Option Number
  | '0' :: 'x' :: r => ofHex? r
  | '0' :: 'X' :: r => ofHex? r
  | cs => ofDecimal? negative cs

/-- The number that a text stands for, with blanks around it and a sign allowed. -/
def ofText? (cs : List Char) : Option Number :=
  let cs := ((cs.dropWhile isBlank).reverse.dropWhile isBlank).reverse
  match cs with
  | '-' :: r => (unsigned? true r).map negate
  | '+' :: r => unsigned? false r
  | r => unsigned? false r

end Number

end GraphScript.Script
