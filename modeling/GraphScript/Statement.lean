import GraphScript.Datum

/-!
# Statement — the bodies of functions

Bodies are trees: expressions that compute values, and statements that keep the graph node they came
from.  `Statement.walk` lists a statement and everything nested in it in the order of the text,
`Expr.walk` an expression and its parts.
-/

namespace GraphScript

/-- A binary operator. -/
inductive BinaryOp where
  | add | sub | mul | div | concat | eq | ne | lt | le | gt | ge | and | or
  deriving DecidableEq, Inhabited, Repr

/-- An expression. -/
inductive Expr where
  | literal (d : Datum)
  /-- A member variable of the graph. -/
  | member (v : VariableId)
  /-- A parameter of the enclosing function, by position. -/
  | param (index : UInt16)
  /-- A local of the enclosing function, by position. -/
  | localVar (index : UInt16)
  | binary (op : BinaryOp) (lhs rhs : Expr)
  | not (e : Expr)
  | negate (e : Expr)
  deriving Inhabited, Repr

/-- An expression and its parts, the whole first. -/
def Expr.walk : Expr → List Expr
  | .binary op l r => .binary op l r :: l.walk ++ r.walk
  | .not e => .not e :: e.walk
  | .negate e => .negate e :: e.walk
  | e => [e]

mutual

/-- A statement and where in the graph it came from. -/
inductive Statement where
  | mk (origin : NodeId) (slot : Option SlotId) (kind : StatementKind)

/-- What a statement does. -/
inductive StatementKind where
  | setMember (target : VariableId) (value : Expr)
  | setLocal (index : UInt16) (value : Expr)
  | cond (condition : Expr) (thenBranch elseBranch : List Statement)
  | loop (condition : Expr) (body : List Statement)
  /-- Calls a function of the graph; results go to locals. -/
  | call (function : FunctionId) (args : List Expr) (results : List UInt16)
  /-- Fires an out-event; results go to locals. -/
  | fire (out : String) (args : List Expr) (results : List UInt16)
  | log (message : Expr)
  | ret (values : List Expr)
  /-- Script text taken over as it is. -/
  | script (source : String)

end

namespace Statement

instance : Inhabited Statement := ⟨.mk default none (.ret [])⟩

/-- The node a statement came from. -/
def origin : Statement → NodeId
  | .mk o _ _ => o

/-- The slot a statement came from, if one is known. -/
def slot : Statement → Option SlotId
  | .mk _ s _ => s

/-- What a statement does. -/
def kind : Statement → StatementKind
  | .mk _ _ k => k

mutual

/-- A statement and those nested in it, in the order of the text. -/
def walk : Statement → List Statement
  | .mk o s k => .mk o s k :: walkKind k

/-- The statements nested in a statement of that kind. -/
def walkKind : StatementKind → List Statement
  | .cond _ t e => walkAll t ++ walkAll e
  | .loop _ b => walkAll b
  | _ => []

/-- The statements of a body and those nested in them. -/
def walkAll : List Statement → List Statement
  | [] => []
  | s :: r => s.walk ++ walkAll r

end

/-- The expressions that a statement itself reads, without those of nested statements. -/
def expressions (s : Statement) : List Expr :=
  match s.kind with
  | .setMember _ v => [v]
  | .setLocal _ v => [v]
  | .cond c _ _ => [c]
  | .loop c _ => [c]
  | .call _ args _ => args
  | .fire _ args _ => args
  | .log m => [m]
  | .ret vs => vs
  | .script _ => []

end Statement

end GraphScript
