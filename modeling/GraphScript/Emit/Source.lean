import GraphScript.Emit.Native
import GraphScript.Id.Token
import GraphScript.Literal

/-!
# Emit/Source — the native source

The constructor and the methods of the native class.  Script text has no native form: each statement
that holds some is a reason why there is no source.
-/

namespace GraphScript.Emit.Source

open Native

/-- A binary operator other than concatenation. -/
def operator : BinaryOp → String
  | .add => "+"
  | .sub => "-"
  | .mul => "*"
  | .div => "/"
  | .concat => "+"
  | .eq => "=="
  | .ne => "!="
  | .lt => "<"
  | .le => "<="
  | .gt => ">"
  | .ge => ">="
  | .and => "&&"
  | .or => "||"

/-- A value. -/
def datum : Datum → String
  | .boolean b => if b then "true" else "false"
  | .number x => Literal.number .native x
  | .string s => "std::string(" ++ Literal.string .native s ++ ")"
  | .entityId e =>
    if e.isGraphOwner then "m_owner"
    else "canvasc::EntityId\x7b" ++ toString e.val.toNat ++ "ull\x7d"
  | .object _ => "canvasc::ObjectHandle\x7b\x7d"

/-- An operation on two operands; concatenation makes text of them first. -/
def operation (op : BinaryOp) (l r : String) : String :=
  match op with
  | .concat => "(canvasc::ToString(" ++ l ++ ") + canvasc::ToString(" ++ r ++ "))"
  | _ => "(" ++ l ++ " " ++ operator op ++ " " ++ r ++ ")"

/-- An expression. -/
def expr (names : Names) (f : Names.Function) : Expr → String
  | .literal d => datum d
  | .member v => names.member v
  | .param i => f.params.getD i.toNat "\x7b\x7d"
  | .localVar i => localName f i
  | .binary op l r => operation op (expr names f l) (expr names f r)
  | .not e => "(!" ++ expr names f e ++ ")"
  | .negate e => "(-" ++ expr names f e ++ ")"

/-- A call whose results go to locals: to one by assignment, to several as a tuple. -/
def assign (f : Names.Function) (results : List UInt16) (call : String) : String :=
  match results with
  | [] => call
  | [r] => localName f r ++ " = " ++ call
  | rs => "std::tie(" ++ commaList (rs.map (localName f)) ++ ") = " ++ call

/-- What stays the same inside a function. -/
structure Context where
  model : Model
  names : Names
  nodeComments : Bool
  /-- The identifiers of the enclosing function. -/
  locals : Names.Function

mutual

/-- The lines of a statement. -/
def statement (c : Context) (level : Nat) : Statement → List Line
  | .mk origin _ kind =>
    (if c.nodeComments then [⟨level, s!"// node {origin}", none⟩] else []) ++ kindLines c level kind

/-- The lines of what a statement does. -/
def kindLines (c : Context) (level : Nat) : StatementKind → List Line
  | .setMember v e => [⟨level, c.names.member v ++ " = " ++ expr c.names c.locals e ++ ";", none⟩]
  | .setLocal i e =>
    [⟨level, localName c.locals i ++ " = " ++ expr c.names c.locals e ++ ";", none⟩]
  | .cond e t [] =>
    ⟨level, "if (" ++ expr c.names c.locals e ++ ") \x7b", none⟩ :: block c (level + 1) t ++
      [⟨level, "\x7d", none⟩]
  | .cond e t (s :: r) =>
    ⟨level, "if (" ++ expr c.names c.locals e ++ ") \x7b", none⟩ :: block c (level + 1) t ++
      ⟨level, "\x7d else \x7b", none⟩ :: block c (level + 1) (s :: r) ++ [⟨level, "\x7d", none⟩]
  | .loop e b =>
    ⟨level, "while (" ++ expr c.names c.locals e ++ ") \x7b", none⟩ :: block c (level + 1) b ++
      [⟨level, "\x7d", none⟩]
  | .call id args results =>
    let name := ((c.model.functionAt? id).map (methodName c.names)).getD "fn_unknown"
    let call := name ++ "(" ++ commaList (args.map (expr c.names c.locals)) ++ ")"
    [⟨level, assign c.locals results call ++ ";", none⟩]
  | .fire out args results =>
    let member := c.names.out out
    let call := member ++ "(" ++ commaList (args.map (expr c.names c.locals)) ++ ")"
    [⟨level, "if (" ++ member ++ ") \x7b " ++ assign c.locals results call ++ "; \x7d", none⟩]
  | .log e =>
    [⟨level, "canvasc::Log(canvasc::ToString(" ++ expr c.names c.locals e ++ "));", none⟩]
  | .ret [] => [⟨level, "return;", none⟩]
  | .ret [v] => [⟨level, "return " ++ expr c.names c.locals v ++ ";", none⟩]
  | .ret vs =>
    [⟨level, "return std::make_tuple(" ++ commaList (vs.map (expr c.names c.locals)) ++ ");", none⟩]
  | .script _ => []

/-- The lines of a block. -/
def block (c : Context) (level : Nat) : List Statement → List Line
  | [] => []
  | s :: r => statement c level s ++ block c level r

end

/-- The line that declares a local. -/
def localLine (l : Param) (name : String) : Line :=
  let value := match Datum.default? l.dataType with
    | some d => " = " ++ datum d
    | none => "\x7b\x7d"
  ⟨1, type l.dataType ++ " " ++ name ++ value ++ ";", none⟩

/-- The lines of a method. -/
def function (m : Model) (names : Names) (o : Options) (f : FunctionDef) : List Line :=
  match names.function? f.id with
  | none => []
  | some own =>
    let c : Context := ⟨m, names, o.nodeComments, own⟩
    [⟨0, signature names (names.className ++ "::") f, none⟩, ⟨0, "\x7b", none⟩] ++
      ((f.locals.zip own.locals).map fun (l, name) => localLine l name) ++ block c 1 f.body ++
      [⟨0, "\x7d", none⟩, Line.blank]

/-- The line that initialises a member. -/
def memberLine (names : Names) (v : VariableDef) : Line :=
  ⟨1, ", " ++ names.member v.id ++ "(inputs.Get<" ++ type v.dataType ++ ">(" ++
    Literal.string .native v.id.token ++ "))", none⟩

/-- The lines of the constructor. -/
def constructor (m : Model) (names : Names) : List Line :=
  let name := names.className
  [⟨0, name ++ "::" ++ name ++ "(const canvasc::RuntimeInputs& inputs)", none⟩,
    ⟨1, ": m_owner(inputs.Owner())", none⟩] ++
    m.members.map (memberLine names) ++
    [⟨0, "\x7b", none⟩, ⟨0, "\x7d", none⟩, Line.blank]

/-- The lines of the source. -/
def lines (m : Model) (o : Options) : List Line :=
  let names := Names.ofModel m
  [banner m, ⟨0, "#include \"" ++ cleanName m.name ++ ".h\"", none⟩, Line.blank,
    ⟨0, "#include <limits>", none⟩, Line.blank] ++
    openNamespace o ++ constructor m names ++ m.functions.flatMap (function m names o) ++
    closeNamespace o

/-- The script statements of a model, which have no native form. -/
def unsupported (m : Model) : List EmitError :=
  (m.functions.flatMap fun f => Statement.walkAll f.body).filterMap fun s =>
    match s.kind with
    | .script _ => some (.unsupported "script block" s.origin)
    | _ => none

/-- Emits the native source. -/
def emit (m : Model) (o : Options) : Except (List EmitError) Emission := do
  match unsupported m with
  | [] =>
    let runtimeInputs ← Emission.inputs m .compiled
    return { text := Code.text o.indentWidth (lines m o), runtimeInputs }
  | errors => throw errors

end GraphScript.Emit.Source
