import GraphScript.Emit
import GraphScript.Id.Token
import GraphScript.Literal
import GraphScript.Model.Problem
import GraphScript.Options
import GraphScript.Text.Blank
import GraphScript.Text.Lines

/-!
# Emit/Script — the interpreted target

The emitted chunk builds a class table and returns it.  Internal functions are local functions, each
after those it calls; entries are fields of the class under their own names; the constructor reads
the members from its inputs by their tokens.  Out-events, log lines and entities go through globals
that the host provides.
-/

namespace GraphScript.Emit.Script

/-- A binary operator. -/
def operator : BinaryOp → String
  | .add => "+"
  | .sub => "-"
  | .mul => "*"
  | .div => "/"
  | .concat => ".."
  | .eq => "=="
  | .ne => "~="
  | .lt => "<"
  | .le => "<="
  | .gt => ">"
  | .ge => ">="
  | .and => "and"
  | .or => "or"

/-- A value. -/
def datum : Datum → String
  | .boolean b => if b then "true" else "false"
  | .number x => Literal.number .script x
  | .string s => Literal.string .script s
  | .entityId e =>
    if e.isGraphOwner then "__sc_owner(self.executionState)" else s!"__sc_entity(\"{e.val.toNat}\")"
  | .object _ => "nil"

/-- The value that a local starts with. -/
def initial (t : DataType) : String := ((Datum.default? t).map datum).getD "nil"

/-- An expression; every operation stands in parentheses. -/
def expr (names : Names) (f : Names.Function) : Expr → String
  | .literal d => datum d
  | .member v => "self." ++ names.member v
  | .param i => f.params.getD i.toNat "nil"
  | .localVar i => localName f i
  | .binary op l r => "(" ++ expr names f l ++ " " ++ operator op ++ " " ++ expr names f r ++ ")"
  | .not e => "(not " ++ expr names f e ++ ")"
  | .negate e => "(-" ++ expr names f e ++ ")"

/-- A call whose results go to locals. -/
def assign (f : Names.Function) (results : List UInt16) (call : String) : String :=
  if results.isEmpty then call else commaList (results.map (localName f)) ++ " = " ++ call

/-- The place of a function: entries are looked up in the class. -/
def callee (m : Model) (names : Names) (id : FunctionId) : String :=
  let internal := ((names.function? id).map (·.name)).getD "fn_unknown"
  match m.functionAt? id with
  | some f =>
    match f.kind with
    | .entry => names.className ++ "[" ++ Literal.string .script f.name ++ "]"
    | .internal => internal
  | none => internal

/-- What stays the same inside a function. -/
structure Context where
  model : Model
  names : Names
  nodeComments : Bool
  /-- The name of the enclosing function. -/
  function : String
  /-- The identifiers of the enclosing function. -/
  locals : Names.Function

mutual

/-- The lines of a statement; `isLast` tells whether its block ends with it. -/
def statement (c : Context) (level : Nat) (isLast : Bool) : Statement → List Line
  | .mk origin slot kind =>
    let symbol : DebugSymbol := ⟨origin, slot, c.function⟩
    (if c.nodeComments then [⟨level, s!"-- node {origin}", none⟩] else []) ++
      Line.mark symbol (kindLines c level isLast symbol kind)

/-- The lines of what a statement does. -/
def kindLines (c : Context) (level : Nat) (isLast : Bool) (symbol : DebugSymbol) :
    StatementKind → List Line
  | .setMember v e =>
    [⟨level, "self." ++ c.names.member v ++ " = " ++ expr c.names c.locals e, none⟩]
  | .setLocal i e => [⟨level, localName c.locals i ++ " = " ++ expr c.names c.locals e, none⟩]
  | .cond e t [] =>
    ⟨level, "if " ++ expr c.names c.locals e ++ " then", none⟩ :: block c (level + 1) t ++
      [⟨level, "end", none⟩]
  | .cond e t (s :: r) =>
    ⟨level, "if " ++ expr c.names c.locals e ++ " then", none⟩ :: block c (level + 1) t ++
      ⟨level, "else", none⟩ :: block c (level + 1) (s :: r) ++ [⟨level, "end", none⟩]
  | .loop e b =>
    ⟨level, "while " ++ expr c.names c.locals e ++ " do", none⟩ :: block c (level + 1) b ++
      [⟨level, "end", none⟩]
  | .call id args results =>
    let values := commaList ("self" :: args.map (expr c.names c.locals))
    [⟨level, assign c.locals results (callee c.model c.names id ++ "(" ++ values ++ ")"), none⟩]
  | .fire out args results =>
    let values := commaList ("self.executionState" :: Literal.string .script out ::
      args.map (expr c.names c.locals))
    [⟨level, assign c.locals results ("__sc_execution_out(" ++ values ++ ")"), none⟩]
  | .log e =>
    [⟨level, "__sc_log(self.executionState, " ++ expr c.names c.locals e ++ ")", none⟩]
  | .ret values =>
    let text := match values with
      | [] => "return"
      | values => "return " ++ commaList (values.map (expr c.names c.locals))
    [⟨level, if isLast then text else "do " ++ text ++ " end", none⟩]
  | .script source =>
    (if (Text.trim source).isEmpty then [⟨level, "-- empty script block", none⟩] else []) ++
      (Text.lines source).map fun l => ⟨level, l, some symbol⟩

/-- The lines of a block. -/
def block (c : Context) (level : Nat) : List Statement → List Line
  | [] => []
  | s :: r => statement c level r.isEmpty s ++ block c level r

end

/-- The line that opens a function. -/
def header (names : Names) (f : FunctionDef) (own : Names.Function) : String :=
  let params := commaList ("self" :: own.params)
  match f.kind with
  | .entry =>
    names.className ++ "[" ++ Literal.string .script f.name ++ "] = function(" ++ params ++ ")"
  | .internal => "local function " ++ own.name ++ "(" ++ params ++ ")"

/-- The lines of a function. -/
def function (m : Model) (names : Names) (o : Options) (f : FunctionDef) : List Line :=
  match names.function? f.id with
  | none => []
  | some own =>
    let c : Context := ⟨m, names, o.nodeComments, f.name, own⟩
    ⟨0, header names f own, some ⟨f.origin, none, f.name⟩⟩ ::
      ((f.locals.zip own.locals).map fun (l, name) =>
        ⟨1, "local " ++ name ++ " = " ++ initial l.dataType, none⟩) ++
      block c 1 f.body ++ [⟨0, "end", none⟩, Line.blank]

/-- The lines before the first function. -/
def opening (m : Model) (names : Names) : List Line :=
  [⟨0, "-- " ++ m.name ++ ": generated by canvasc, do not edit", none⟩,
    ⟨0, "local " ++ names.className ++ " = \x7b\x7d", none⟩,
    ⟨0, names.className ++ ".__index = " ++ names.className, none⟩,
    Line.blank]

/-- The line of the constructor that sets a member. -/
def memberLine (names : Names) (v : VariableDef) : Line :=
  let key := Literal.string .script v.id.token
  ⟨1, "self." ++ names.member v.id ++ " = inputs[" ++ key ++ "]", none⟩

/-- The lines of the constructor. -/
def constructor (m : Model) (names : Names) : List Line :=
  [⟨0, "function " ++ names.className ++ ".new(executionState, inputs)", none⟩,
    ⟨1, "local self = setmetatable(\x7b\x7d, " ++ names.className ++ ")", none⟩,
    ⟨1, "self.executionState = executionState", none⟩] ++
    m.members.map (memberLine names) ++
    [⟨1, "return self", none⟩, ⟨0, "end", none⟩, Line.blank]

/-- The internal functions in an order of calls. -/
def internals (m : Model) (order : List FunctionId) : List FunctionDef :=
  (order.filterMap m.functionAt?).filter (·.kind = .internal)

/-- The entries in the order of their declaration. -/
def entries (m : Model) : List FunctionDef := m.functions.filter (·.kind = .entry)

/-- The lines of a chunk, given an order of calls. -/
def lines (m : Model) (o : Options) (order : List FunctionId) : List Line :=
  let names := Names.ofModel m
  opening m names ++ (internals m order).flatMap (function m names o) ++ constructor m names ++
    (entries m).flatMap (function m names o) ++ [⟨0, "return " ++ names.className, none⟩]

/-- Emits the interpreted target. -/
def emit (m : Model) (o : Options) : Except (List EmitError) Emission := do
  let runtimeInputs ← Emission.inputs m .interpreted
  match m.callOrder with
  | .error id =>
    throw [.invalidModel (Problem.recursiveCall (m.functionTitle id)).message]
  | .ok order =>
    let ls := lines m o order
    return { text := Code.text o.indentWidth ls, runtimeInputs, debugMap := Code.debugMap ls }

/-- The name of a model's chunk; positions in it are reported under the cleaned name alone. -/
def chunkName (name : String) : String := "=" ++ cleanName name

end GraphScript.Emit.Script
