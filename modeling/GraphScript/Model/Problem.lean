import GraphScript.Model.CallOrder

/-!
# Model/Problem — what is wrong with a model

`Model.problems` lists everything that keeps a model from being compiled: references to things that
are not declared, counts that do not fit a signature, first values of the wrong type, functions that
share a name, and calls that come back to where they started.  A model without problems is valid.
-/

namespace GraphScript

/-- What the numbers of an arity problem count. -/
inductive Counted where
  | arguments
  | results
  | returnValues
  deriving DecidableEq, Repr

/-- The counted things in words. -/
def Counted.words : Counted → String
  | .arguments => "arguments"
  | .results => "results"
  | .returnValues => "return values"

/-- One problem of a model, with the node it was found at. -/
inductive Problem where
  | unknownMember (node : NodeId) (id : VariableId)
  | unknownParam (node : NodeId) (function : String) (index : UInt16)
  | unknownLocal (node : NodeId) (function : String) (index : UInt16)
  | unknownFunction (node : NodeId) (id : FunctionId)
  | unknownOut (node : NodeId) (name : String)
  | arity (node : NodeId) (target : String) (what : Counted) (expected actual : Nat)
  | objectLiteral (node : NodeId)
  | initializerType (name : String) (expected found : DataType)
  | nodeableNotObject (name : String) (declared : DataType)
  | duplicateFunctionName (name : String)
  | recursiveCall (function : String)
  deriving DecidableEq, Repr

/-- The wording of a problem. -/
def Problem.message : Problem → String
  | .unknownMember node id => s!"node {node}: unknown member variable {id}"
  | .unknownParam node function index =>
    s!"node {node}: parameter index {index} out of range in '{function}'"
  | .unknownLocal node function index =>
    s!"node {node}: local index {index} out of range in '{function}'"
  | .unknownFunction node id => s!"node {node}: call to unknown function FunctionId({id})"
  | .unknownOut node name => s!"node {node}: unknown out-event '{name}'"
  | .arity node target what expected actual =>
    s!"node {node}: {target} expects {expected} {what.words}, got {actual}"
  | .objectLiteral node => s!"node {node}: object values cannot be literals"
  | .initializerType name expected found =>
    s!"variable '{name}': initial value is {found}, declared {expected}"
  | .nodeableNotObject name declared =>
    s!"variable '{name}': nodeable must be an object, declared {declared}"
  | .duplicateFunctionName name => s!"duplicate function name '{name}'"
  | .recursiveCall function => s!"recursive call involving '{function}'"

namespace Model

/-- The problems of a variable's first value. -/
def variableProblems (v : VariableDef) : List Problem :=
  match v.initializer, v.dataType with
  | .value d, t => if d.isA t then [] else [.initializerType v.name t d.dataType]
  | .static _, _ => []
  | .nodeable, .object _ => []
  | .nodeable, t => [.nodeableNotObject v.name t]

/-- The problem of a local index. -/
def localProblems (f : FunctionDef) (node : NodeId) (index : UInt16) : List Problem :=
  if index.toNat < f.locals.length then [] else [.unknownLocal node f.name index]

/-- The problem of a member reference. -/
def memberProblems (m : Model) (node : NodeId) (id : VariableId) : List Problem :=
  if (m.variableAt? id).isSome then [] else [.unknownMember node id]

/-- The problem of an expression itself, without those of its parts. -/
def exprProblems (m : Model) (f : FunctionDef) (node : NodeId) : Expr → List Problem
  | .literal (.object _) => [.objectLiteral node]
  | .member id => m.memberProblems node id
  | .param index => if index.toNat < f.params.length then [] else [.unknownParam node f.name index]
  | .localVar index => localProblems f node index
  | _ => []

/-- The problem of a count. -/
def arityProblems (node : NodeId) (target : String) (what : Counted) (expected actual : Nat) :
    List Problem :=
  if expected = actual then [] else [.arity node target what expected actual]

/-- The problems of the counts of a call; fewer results than there are may be taken. -/
def callProblems (node : NodeId) (target : String) (params returns : List Param)
    (args : List Expr) (results : List UInt16) : List Problem :=
  arityProblems node target .arguments params.length args.length ++
    if results.length > returns.length then
      arityProblems node target .results returns.length results.length
    else []

/-- The problems of a statement, without those of nested statements. -/
def statementProblems (m : Model) (f : FunctionDef) (s : Statement) : List Problem :=
  let node := s.origin
  (s.expressions.flatMap Expr.walk).flatMap (m.exprProblems f node) ++
    match s.kind with
    | .setMember id _ => m.memberProblems node id
    | .setLocal index _ => localProblems f node index
    | .call id args results =>
      results.flatMap (localProblems f node) ++
        match m.functionAt? id with
        | none => [.unknownFunction node id]
        | some callee => callProblems node callee.name callee.params callee.returns args results
    | .fire out args results =>
      results.flatMap (localProblems f node) ++
        match m.outEvent? out with
        | none => [.unknownOut node out]
        | some d => callProblems node d.name d.params d.returns args results
    | .ret values => arityProblems node f.name .returnValues f.returns.length values.length
    | .cond _ _ _ | .loop _ _ | .log _ | .script _ => []

/-- The problems of functions in order, given the names before them. -/
def functionProblems (m : Model) (seen : List String) : List FunctionDef → List Problem
  | [] => []
  | f :: rest =>
    (if f.name ∈ seen then [.duplicateFunctionName f.name] else []) ++
      (Statement.walkAll f.body).flatMap (m.statementProblems f) ++
      m.functionProblems (f.name :: seen) rest

/-- The name of the function under a key, or the key itself. -/
def functionTitle (m : Model) (id : FunctionId) : String :=
  match m.functionAt? id with
  | some f => f.name
  | none => toString id

/-- The problem of calls that go in a circle. -/
def recursionProblems (m : Model) : List Problem :=
  match m.callOrder with
  | .ok _ => []
  | .error id => [.recursiveCall (m.functionTitle id)]

/-- Everything that is wrong with a model. -/
def problems (m : Model) : List Problem :=
  m.members.flatMap variableProblems ++ m.functionProblems [] m.functions ++ m.recursionProblems

/-- A model that can be compiled. -/
def isValid (m : Model) : Bool := m.problems.isEmpty

/-- Problems in one line. -/
def problemText (ps : List Problem) : String := "; ".intercalate (ps.map Problem.message)

end Model

end GraphScript
