import GraphScript.Entries
import GraphScript.Statement

/-!
# Model — a graph as declarations

A model holds the member variables of a graph, its functions and the out-events it can fire.
Variables and functions are kept in the order of their declaration, each under a key; a model built
with the operations below keeps every declaration under its own identifier, one that was read from a
document need not.
-/

namespace GraphScript

/-- How instances of a graph relate to their hosts. -/
inductive Characteristics where
  /-- One instance for each entity. -/
  | perEntity
  /-- One instance for all. -/
  | shared
  deriving DecidableEq, Inhabited, Repr

/-- Where the first value of a variable comes from. -/
inductive Initializer where
  | value (d : Datum)
  | static (s : StaticValue)
  /-- A host object given when an instance is made. -/
  | nodeable
  deriving Inhabited

/-- Whether a variable is seen from outside the graph. -/
inductive Exposure where
  | hidden
  | input
  | output
  deriving DecidableEq, Inhabited, Repr

/-- A member variable. -/
structure VariableDef where
  id : VariableId
  name : String
  dataType : DataType
  initializer : Initializer
  exposure : Exposure := .hidden
  deriving Inhabited

/-- A named and typed parameter, result or local. -/
structure Param where
  name : String
  dataType : DataType
  deriving DecidableEq, Inhabited, Repr

/-- Whether the host may call a function. -/
inductive FunctionKind where
  /-- An entry of the graph. -/
  | entry
  /-- A helper of other functions. -/
  | internal
  deriving DecidableEq, Inhabited, Repr

/-- A function. -/
structure FunctionDef where
  id : FunctionId
  name : String
  kind : FunctionKind
  params : List Param
  returns : List Param
  locals : List Param := []
  body : List Statement
  origin : NodeId
  deriving Inhabited

/-- A signal that the graph can fire; `returns` is what a handler gives back. -/
structure OutEventDef where
  name : String
  params : List Param
  returns : List Param := []
  origin : NodeId
  deriving DecidableEq, Inhabited, Repr

/-- A graph. -/
structure Model where
  name : String
  characteristics : Characteristics := .perEntity
  variableEntries : List (VariableId × VariableDef) := []
  functionEntries : List (FunctionId × FunctionDef) := []
  outEvents : List OutEventDef := []
  deriving Inhabited

namespace Model

/-- Why a declaration was refused. -/
inductive BuildError where
  | duplicateVariable (id : VariableId)
  | duplicateFunction (name : String)
  | duplicateOutEvent (name : String)
  | functionNotFound (id : FunctionId)
  /-- No number is left for a function.  The program stops at this one. -/
  | overflow
  deriving DecidableEq, Repr

/-- The wording of a refusal. -/
def BuildError.message : BuildError → String
  | .duplicateVariable id => s!"duplicate variable: {id}"
  | .duplicateFunction name => s!"duplicate function name: '{name}'"
  | .duplicateOutEvent name => s!"duplicate out-event: '{name}'"
  | .functionNotFound id => s!"function not found: FunctionId({id})"
  | .overflow => "attempt to add with overflow"

/-! ## Looking things up -/

/-- The variables in the order of their declaration. -/
def members (m : Model) : List VariableDef := m.variableEntries.map (·.2)

/-- The functions in the order of their declaration. -/
def functions (m : Model) : List FunctionDef := m.functionEntries.map (·.2)

/-- The variable under a key. -/
def variableAt? (m : Model) (id : VariableId) : Option VariableDef :=
  Entries.get? m.variableEntries id

/-- The function under a key. -/
def functionAt? (m : Model) (id : FunctionId) : Option FunctionDef :=
  Entries.get? m.functionEntries id

/-- The first function of a name. -/
def functionNamed? (m : Model) (name : String) : Option FunctionDef :=
  m.functions.find? (·.name == name)

/-- The first out-event of a name. -/
def outEvent? (m : Model) (name : String) : Option OutEventDef :=
  m.outEvents.find? (·.name == name)

/-! ## Declaring things -/

/-- Declares a variable under its identifier. -/
def addVariable (m : Model) (d : VariableDef) : Except BuildError (VariableId × Model) :=
  if Entries.contains m.variableEntries d.id then .error (.duplicateVariable d.id)
  else .ok (d.id, { m with variableEntries := Entries.put m.variableEntries d.id d })

/-- Declares a variable, not seen from outside, by its first value. -/
def addValueVariable (m : Model) (id : VariableId) (name : String) (d : Datum) :
    Except BuildError (VariableId × Model) :=
  m.addVariable { id, name, dataType := d.dataType, initializer := .value d }

/-- The identifier of the next function: the greatest of the numbers that follow the keys, if a
number follows every key. -/
def nextFunctionId? (m : Model) : Option FunctionId := do
  let following ← m.functionEntries.mapM fun e => e.1.next?
  return ⟨following.foldl max 0⟩

/-- Declares a function under a new identifier. -/
def addFunction (m : Model) (name : String) (kind : FunctionKind)
    (params returns locals : List Param)
    (body : List Statement) (origin : NodeId) : Except BuildError (FunctionId × Model) :=
  if (m.functionNamed? name).isSome then .error (.duplicateFunction name)
  else
    match m.nextFunctionId? with
    | none => .error .overflow
    | some id =>
      let d : FunctionDef := { id, name, kind, params, returns, locals, body, origin }
      .ok (id, { m with functionEntries := Entries.put m.functionEntries id d })

/-- Gives a function another body. -/
def setFunctionBody (m : Model) (id : FunctionId) (body : List Statement) :
    Except BuildError Model :=
  match m.functionAt? id with
  | none => .error (.functionNotFound id)
  | some d => .ok { m with functionEntries := Entries.put m.functionEntries id { d with body } }

/-- Declares an out-event. -/
def addOutEvent (m : Model) (d : OutEventDef) : Except BuildError Model :=
  if (m.outEvent? d.name).isSome then .error (.duplicateOutEvent d.name)
  else .ok { m with outEvents := m.outEvents ++ [d] }

end Model

end GraphScript
