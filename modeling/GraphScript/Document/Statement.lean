import GraphScript.Document.Datum
import GraphScript.Statement

/-!
# Document/Statement — expressions and statements as JSON

Every level of an expression or a statement opens at least one object, so the limit on levels bounds
the recursion of the readers.
-/

namespace GraphScript

open Json (Reader)

namespace BinaryOp

/-- All operators. -/
def all : List BinaryOp :=
  [.add, .sub, .mul, .div, .concat, .eq, .ne, .lt, .le, .gt, .ge, .and, .or]

/-- The name of an operator. -/
def name : BinaryOp → String
  | .add => "Add"
  | .sub => "Sub"
  | .mul => "Mul"
  | .div => "Div"
  | .concat => "Concat"
  | .eq => "Eq"
  | .ne => "Ne"
  | .lt => "Lt"
  | .le => "Le"
  | .gt => "Gt"
  | .ge => "Ge"
  | .and => "And"
  | .or => "Or"

/-- Reads an operator. -/
def reader : Reader BinaryOp := Reader.variant (all.map fun op => .plain op.name op)

end BinaryOp

namespace Expr

/-- An expression as JSON. -/
def toJson : Expr → Json
  | .literal d => .tagged "Literal" d.toJson
  | .member v => .tagged "Member" v.toJson
  | .param i => .tagged "Param" (.int i.toNat)
  | .localVar i => .tagged "Local" (.int i.toNat)
  | .binary op l r =>
    .tagged "Binary" (.obj [("op", .str op.name), ("lhs", l.toJson), ("rhs", r.toJson)])
  | .not e => .tagged "Not" e.toJson
  | .negate e => .tagged "Negate" e.toJson

/-- A binary expression being read. -/
structure BinaryDraft where
  op : Option BinaryOp := none
  lhs : Option Expr := none
  rhs : Option Expr := none

/-- The form of a binary expression, given how its operands are read. -/
def binaryShape (operand : Reader Expr) : Reader.Shape BinaryDraft Expr where
  title := "struct variant Expr::Binary"
  start := {}
  fields := [
    Reader.required "op" BinaryOp.reader (·.op) (fun v d => { d with op := some v }),
    Reader.required "lhs" operand (·.lhs) (fun v d => { d with lhs := some v }),
    Reader.required "rhs" operand (·.rhs) (fun v d => { d with rhs := some v })]
  build d := do
    return .binary (← Reader.need "op" d.op) (← Reader.need "lhs" d.lhs) (← Reader.need "rhs" d.rhs)

/-- Reads an expression of at most that many levels. -/
def readerFrom : Nat → Reader Expr
  | 0 => throw .tooDeep
  | levels + 1 =>
    Reader.variant [
      .wrapping "Literal" (do return .literal (← Datum.reader)),
      .wrapping "Member" (do return .member (← VariableId.reader)),
      .wrapping "Param" (do return .param (← Reader.position)),
      .wrapping "Local" (do return .localVar (← Reader.position)),
      .recordLike "Binary" (Reader.record (binaryShape (readerFrom levels))),
      .wrapping "Not" (do return .not (← readerFrom levels)),
      .wrapping "Negate" (do return .negate (← readerFrom levels))]

/-- Reads an expression. -/
def reader : Reader Expr := readerFrom Json.levelLimit

end Expr

namespace Statement

mutual

/-- A statement as JSON; an unknown slot is left out. -/
def toJson : Statement → Json
  | .mk origin slot kind =>
    .obj (("origin", origin.toJson) ::
      (match slot with
        | some s => [("slot", s.toJson)]
        | none => []) ++ [("kind", kindToJson kind)])

/-- What a statement does as JSON. -/
def kindToJson : StatementKind → Json
  | .setMember v e => .tagged "SetMember" (.obj [("variable", v.toJson), ("value", e.toJson)])
  | .setLocal i e => .tagged "SetLocal" (.obj [("local", .int i.toNat), ("value", e.toJson)])
  | .cond c t e =>
    .tagged "If" (.obj [("condition", c.toJson), ("then_branch", .arr (bodyToJson t)),
      ("else_branch", .arr (bodyToJson e))])
  | .loop c b => .tagged "While" (.obj [("condition", c.toJson), ("body", .arr (bodyToJson b))])
  | .call f args results =>
    .tagged "CallFunction" (.obj [("function", f.toJson), ("args", .arr (args.map Expr.toJson)),
      ("results", .arr (results.map fun i => .int i.toNat))])
  | .fire out args results =>
    .tagged "FireOut" (.obj [("out", .str out), ("args", .arr (args.map Expr.toJson)),
      ("results", .arr (results.map fun i => .int i.toNat))])
  | .log e => .tagged "Log" (.obj [("message", e.toJson)])
  | .ret vs => .tagged "Return" (.obj [("values", .arr (vs.map Expr.toJson))])
  | .script source => .tagged "ScriptBlock" (.obj [("source", .str source)])

/-- A body as JSON values. -/
def bodyToJson : List Statement → List Json
  | [] => []
  | s :: r => s.toJson :: bodyToJson r

end

/-- A record of one field, given how the field is read and what the record becomes. -/
def oneField {α β : Type} (title name : String) (r : Reader α) (f : α → β) :
    Reader.Shape (Option α) β where
  title := title
  start := none
  fields := [Reader.required name r id (fun v _ => some v)]
  build d := f <$> Reader.need name d

/-- A record of two fields, given how they are read and what the record becomes. -/
def twoFields {α β γ : Type} (title first : String) (r : Reader α) (second : String) (s : Reader β)
    (f : α → β → γ) : Reader.Shape (Option α × Option β) γ where
  title := title
  start := (none, none)
  fields := [
    Reader.required first r (·.1) (fun v d => (some v, d.2)),
    Reader.required second s (·.2) (fun v d => (d.1, some v))]
  build d := return f (← Reader.need first d.1) (← Reader.need second d.2)

/-- A record of three fields, given how they are read and what the record becomes. -/
def threeFields {α β γ δ : Type} (title first : String) (r : Reader α) (second : String)
    (s : Reader β) (third : String) (t : Reader γ) (f : α → β → γ → δ) :
    Reader.Shape (Option α × Option β × Option γ) δ where
  title := title
  start := (none, none, none)
  fields := [
    Reader.required first r (·.1) (fun v d => (some v, d.2)),
    Reader.required second s (·.2.1) (fun v d => (d.1, some v, d.2.2)),
    Reader.required third t (·.2.2) (fun v d => (d.1, d.2.1, some v))]
  build d := do
    return f (← Reader.need first d.1) (← Reader.need second d.2.1) (← Reader.need third d.2.2)

/-- The form of a statement of some kind. -/
def variantTitle (name : String) : String := "struct variant StatementKind::" ++ name

/-- Reads what a statement does, given how a body is read. -/
def kindReader (body : Reader (List Statement)) : Reader StatementKind :=
  let args := Reader.array Expr.reader
  let results := Reader.array Reader.position
  Reader.variant [
    .recordLike "SetMember" (Reader.record
      (twoFields (variantTitle "SetMember") "variable" VariableId.reader "value" Expr.reader
        .setMember)),
    .recordLike "SetLocal" (Reader.record
      (twoFields (variantTitle "SetLocal") "local" Reader.position "value" Expr.reader .setLocal)),
    .recordLike "If" (Reader.record
      (threeFields (variantTitle "If") "condition" Expr.reader "then_branch" body "else_branch" body
        .cond)),
    .recordLike "While" (Reader.record
      (twoFields (variantTitle "While") "condition" Expr.reader "body" body .loop)),
    .recordLike "CallFunction" (Reader.record
      (threeFields (variantTitle "CallFunction") "function" FunctionId.reader "args" args
        "results" results .call)),
    .recordLike "FireOut" (Reader.record
      (threeFields (variantTitle "FireOut") "out" Reader.str "args" args "results" results .fire)),
    .recordLike "Log" (Reader.record (oneField (variantTitle "Log") "message" Expr.reader .log)),
    .recordLike "Return" (Reader.record (oneField (variantTitle "Return") "values" args .ret)),
    .recordLike "ScriptBlock" (Reader.record
      (oneField (variantTitle "ScriptBlock") "source" Reader.str .script))]

/-- A statement being read. -/
structure Draft where
  origin : Option NodeId := none
  slot : Option (Option SlotId) := none
  kind : Option StatementKind := none

/-- The form of a statement, given how a body is read. -/
def shape (body : Reader (List Statement)) : Reader.Shape Draft Statement where
  title := "struct Statement"
  start := {}
  fields := [
    Reader.required "origin" NodeId.reader (·.origin) (fun v d => { d with origin := some v }),
    Reader.optional "slot" (Reader.option SlotId.reader) (·.slot)
      (fun v d => { d with slot := some v }),
    Reader.required "kind" (kindReader body) (·.kind) (fun v d => { d with kind := some v })]
  build d := do
    return .mk (← Reader.need "origin" d.origin) (d.slot.getD none) (← Reader.need "kind" d.kind)

/-- Reads a statement of at most that many levels. -/
def readerFrom : Nat → Reader Statement
  | 0 => throw .tooDeep
  | levels + 1 => Reader.record (shape (Reader.array (readerFrom levels)))

/-- Reads a statement. -/
def reader : Reader Statement := readerFrom Json.levelLimit

end Statement

end GraphScript
