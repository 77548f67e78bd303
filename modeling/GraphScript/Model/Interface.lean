import GraphScript.Model

/-!
# Model/Interface — what is seen of a graph from outside

The entries and out-events of a graph with their signatures, and its exposed variables.
-/

namespace GraphScript

/-- The signature of an entry or an out-event. -/
structure Signature where
  name : String
  params : List Param
  returns : List Param
  deriving DecidableEq, Inhabited, Repr

/-- A variable seen from outside. -/
structure ExposedVariable where
  id : VariableId
  name : String
  dataType : DataType
  deriving DecidableEq, Inhabited, Repr

/-- The outside of a graph. -/
structure Interface where
  name : String := ""
  ins : List Signature := []
  outs : List Signature := []
  inputs : List ExposedVariable := []
  outputs : List ExposedVariable := []
  deriving DecidableEq, Inhabited, Repr

namespace Interface

/-- The variables of a model with that exposure. -/
def exposed (m : Model) (e : Exposure) : List ExposedVariable :=
  (m.members.filter (·.exposure = e)).map fun v => ⟨v.id, v.name, v.dataType⟩

/-- The outside of a model, in the order of its declarations. -/
def ofModel (m : Model) : Interface where
  name := m.name
  ins := (m.functions.filter (·.kind = .entry)).map fun f => ⟨f.name, f.params, f.returns⟩
  outs := m.outEvents.map fun o => ⟨o.name, o.params, o.returns⟩
  inputs := exposed m .input
  outputs := exposed m .output

/-- The first entry of a name. -/
def findIn? (i : Interface) (name : String) : Option Signature := i.ins.find? (·.name == name)

/-- The first out-event of a name. -/
def findOut? (i : Interface) (name : String) : Option Signature := i.outs.find? (·.name == name)

/-- Whether nothing but the name is seen. -/
def isEmpty (i : Interface) : Bool :=
  i.ins.isEmpty && i.outs.isEmpty && i.inputs.isEmpty && i.outputs.isEmpty

end Interface

end GraphScript
