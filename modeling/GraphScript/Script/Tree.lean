import GraphScript.Script.Number

/-!
# Script/Tree — scripts as trees

Whatever can fail when it runs carries the line that a message about it names.
-/

namespace GraphScript.Script

/-- A comparison. -/
inductive CompareOp where
  | eq | ne | lt | le | gt | ge
  deriving DecidableEq, Repr

/-- A binary operator that evaluates both its operands. -/
inductive Operator where
  | arith (op : ArithOp)
  | compare (op : CompareOp)
  | concat
  deriving DecidableEq, Repr

/-- A unary operator. -/
inductive UnaryOp where
  | not | negate | length
  deriving DecidableEq, Repr

mutual

/-- An expression. -/
inductive Term where
  | nil
  | boolean (b : Bool)
  | number (n : Number)
  | str (bytes : ByteArray)
  /-- The extra arguments of the enclosing function. -/
  | varargs
  | name (s : String)
  | index (line : Nat) (object key : Term)
  | call (line : Nat) (function : Term) (args : List Term)
  /-- Calls a function found in an object with that object as first argument. -/
  | invoke (line : Nat) (object : Term) (name : String) (args : List Term)
  | function (f : Function)
  | binary (line : Nat) (op : Operator) (lhs rhs : Term)
  | unary (line : Nat) (op : UnaryOp) (operand : Term)
  | and (lhs rhs : Term)
  | or (lhs rhs : Term)
  /-- In parentheses an expression has exactly one value. -/
  | paren (e : Term)
  | table (line : Nat) (fields : List Field)

/-- A field of a table constructor. -/
inductive Field where
  | item (value : Term)
  | entry (key value : Term)

/-- A function and the line on which it starts. -/
inductive Function where
  | mk (line : Nat) (params : List String) (isVariadic : Bool) (body : List Stat)

/-- A statement. -/
inductive Stat where
  | declare (line : Nat) (names : List String) (values : List Term)
  | declareFunction (name : String) (f : Function)
  | assign (line : Nat) (targets : List Term) (values : List Term)
  | evaluate (line : Nat) (e : Term)
  | cond (line : Nat) (condition : Term) (thenBranch elseBranch : List Stat)
  | loop (line : Nat) (condition : Term) (body : List Stat)
  | block (body : List Stat)
  | leaveLoop
  | ret (line : Nat) (values : List Term)

end

instance : Inhabited Term := ⟨.nil⟩
instance : Inhabited Stat := ⟨.leaveLoop⟩

end GraphScript.Script
