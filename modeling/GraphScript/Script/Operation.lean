import GraphScript.Script.Value

/-!
# Script/Operation — operators on values

An operator either has a result or a reason why it has none.  Strings that are numbers take part in
arithmetic, and numbers in concatenation.
-/

namespace GraphScript.Script.Operation

/-- The characters of a byte string, byte by byte. -/
def chars (bytes : ByteArray) : List Char := bytes.data.toList.map fun b => Char.ofNat b.toNat

/-- The number that a value is or, as a string, stands for. -/
def number? : Value → Option Number
  | .number n => some n
  | .str bytes => Number.ofText? (chars bytes)
  | _ => none

/-- Whether a value is a string. -/
def isString : Value → Bool
  | .str _ => true
  | _ => false

/-- Whether a value is a number. -/
def isNumber : Value → Bool
  | .number _ => true
  | _ => false

/-- What arithmetic without a result is blamed on.  Where a string takes part it is the first
operand, else the first that is no number. -/
def arithCulprit (a b : Value) : String :=
  if isString a || isString b then a.typeName
  else if isNumber a then b.title else a.title

/-- Arithmetic. -/
def arith (op : ArithOp) (a b : Value) : Except String Value :=
  match number? a, number? b with
  | some x, some y =>
    match Number.arith op x y with
    | .ok n => .ok (.number n)
    | .error f => .error f.message
  | _, _ => .error s!"attempt to perform arithmetic on a {arithCulprit a b} value"

/-- The number with the other sign. -/
def negate (a : Value) : Except String Value :=
  match number? a with
  | some n => .ok (.number n.negate)
  | none => .error s!"attempt to perform arithmetic on a {arithCulprit a a} value"

/-- Whether one byte string comes before another, or also whether it is the same. -/
def bytesBefore (orSame : Bool) : List UInt8 → List UInt8 → Bool
  | [], [] => orSame
  | [], _ :: _ => true
  | _ :: _, [] => false
  | a :: r, b :: s => if a == b then bytesBefore orSame r s else decide (a < b)

/-- Why two values have no order. -/
def orderFault (a b : Value) : String :=
  if a.title == b.title then s!"attempt to compare two {a.title} values"
  else s!"attempt to compare {a.title} with {b.title}"

/-- Whether a value is less than another, or also whether it is the same. -/
def before (orSame : Bool) (a b : Value) : Except String Bool :=
  match a, b with
  | .number x, .number y => .ok (if orSame then x.le y else x.lt y)
  | .str x, .str y => .ok (bytesBefore orSame x.data.toList y.data.toList)
  | _, _ => .error (orderFault a b)

/-- A comparison.  Greater is less the other way round. -/
def compare (op : CompareOp) (a b : Value) : Except String Value :=
  match op with
  | .eq => .ok (.boolean (a.equal b))
  | .ne => .ok (.boolean (!a.equal b))
  | .lt => (before false a b).map .boolean
  | .le => (before true a b).map .boolean
  | .gt => (before false b a).map .boolean
  | .ge => (before true b a).map .boolean

/-- Whether a value can be part of a concatenation. -/
def hasText (a : Value) : Bool := isString a || isNumber a

/-- Concatenation. -/
def concat (a b : Value) : Except String Value :=
  if hasText a && hasText b then .ok (.str (a.text ++ b.text))
  else
    let culprit := if hasText a then b else a
    .error s!"attempt to concatenate a {culprit.title} value"

/-- A binary operator. -/
def binary (op : Operator) (a b : Value) : Except String Value :=
  match op with
  | .arith op => arith op a b
  | .compare op => compare op a b
  | .concat => concat a b

end GraphScript.Script.Operation
