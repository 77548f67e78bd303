import GraphScript.Model

/-!
# RuntimeInputs — what an instance is built from

The first values of a graph's variables, sorted into four buckets: host objects, values, entities
and static values.  A variable is in at most one bucket.  Objects keep the order in which the host has
to supply them, the other buckets are in the order of the identifiers.
-/

namespace GraphScript

/-- How a compiled graph runs. -/
inductive ExecutionMode where
  | interpreted
  | compiled
  deriving DecidableEq, Inhabited, Repr

/-- A host object that an instance expects. -/
structure NodeableInput where
  id : VariableId
  className : String
  deriving DecidableEq, Inhabited, Repr

/-- What an instance is built from. -/
structure RuntimeInputs where
  executionMode : ExecutionMode := .interpreted
  characteristics : Characteristics := .perEntity
  nodeables : List NodeableInput := []
  values : List (VariableId × Datum) := []
  entityIds : List (VariableId × EntityId) := []
  statics : List (VariableId × StaticValue) := []
  deriving BEq, Inhabited

namespace RuntimeInputs

/-- Why inputs cannot be collected. -/
inductive Error where
  | duplicate (id : VariableId)
  /-- A host object is expected for a variable of another type. -/
  | notAnObject (name : String) (declared : DataType)
  deriving DecidableEq, Repr

/-- Whether a variable is in some bucket. -/
def contains (r : RuntimeInputs) (id : VariableId) : Bool :=
  Entries.contains r.values id || Entries.contains r.entityIds id ||
    Entries.contains r.statics id || r.nodeables.any (·.id = id)

/-- The number of entries in all buckets. -/
def parameterSize (r : RuntimeInputs) : Nat :=
  r.nodeables.length + r.values.length + r.entityIds.length + r.statics.length

/-- Adds an entity. -/
def insertEntity (r : RuntimeInputs) (id : VariableId) (e : EntityId) :
    Except Error RuntimeInputs :=
  if r.contains id then .error (.duplicate id)
  else .ok { r with entityIds := Entries.insert r.entityIds id e }

/-- Adds a value; an entity goes to the bucket for entities. -/
def insertVariable (r : RuntimeInputs) (id : VariableId) (d : Datum) : Except Error RuntimeInputs :=
  match d with
  | .entityId e => r.insertEntity id e
  | d =>
    if r.contains id then .error (.duplicate id)
    else .ok { r with values := Entries.insert r.values id d }

/-- Adds a static value. -/
def insertStatic (r : RuntimeInputs) (id : VariableId) (s : StaticValue) :
    Except Error RuntimeInputs :=
  if r.contains id then .error (.duplicate id)
  else .ok { r with statics := Entries.insert r.statics id s }

/-- Adds an expected host object. -/
def pushNodeable (r : RuntimeInputs) (id : VariableId) (className : String) :
    Except Error RuntimeInputs :=
  if r.contains id then .error (.duplicate id)
  else .ok { r with nodeables := r.nodeables ++ [⟨id, className⟩] }

/-- Adds what a variable starts from. -/
def insertDef (r : RuntimeInputs) (v : VariableDef) : Except Error RuntimeInputs :=
  match v.initializer, v.dataType with
  | .value d, _ => r.insertVariable v.id d
  | .static s, _ => r.insertStatic v.id s
  | .nodeable, .object className => r.pushNodeable v.id className
  | .nodeable, t => .error (.notAnObject v.name t)

/-- What the instances of a model are built from. -/
def ofModel (m : Model) (mode : ExecutionMode) : Except Error RuntimeInputs :=
  m.members.foldlM insertDef { executionMode := mode, characteristics := m.characteristics }

end RuntimeInputs

end GraphScript
