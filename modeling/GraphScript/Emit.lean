import GraphScript.Code
import GraphScript.Names
import GraphScript.RuntimeInputs

/-!
# Emit — what emitting a target gives

Emitting gives text, what instances are built from, and a debug map, or else a list of reasons why
there is none.
-/

namespace GraphScript

/-- Emitted text and what goes with it. -/
structure Emission where
  text : String
  runtimeInputs : RuntimeInputs := {}
  debugMap : DebugMap := {}
  deriving Inhabited

/-- Why a target could not be emitted. -/
inductive EmitError where
  /-- The target has no form for a construct. -/
  | unsupported (construct : String) (node : NodeId)
  | duplicateInput (id : VariableId)
  | invalidModel (reason : String)
  /-- The emitter broke down. -/
  | crashed (reason : String)
  /-- Nothing emits the target. -/
  | noEmitter (target : String)
  deriving DecidableEq, Repr

/-- The wording of a reason. -/
def EmitError.message : EmitError → String
  | .unsupported construct node => s!"unsupported construct: {construct} at node {node}"
  | .duplicateInput id => s!"variable {id} already present in runtime inputs"
  | .invalidModel reason => s!"invalid model: {reason}"
  | .crashed reason => s!"translator panicked: {reason}"
  | .noEmitter target => s!"no translator registered for target '{target}'"

/-- A failure to collect inputs as a reason. -/
def RuntimeInputs.Error.toEmitError : RuntimeInputs.Error → EmitError
  | .duplicate id => .duplicateInput id
  | .notAnObject name declared =>
    .invalidModel s!"nodeable '{name}' has non-object type {declared}"

/-- What the instances of a model are built from, for an emitter. -/
def Emission.inputs (m : Model) (mode : ExecutionMode) : Except (List EmitError) RuntimeInputs :=
  match RuntimeInputs.ofModel m mode with
  | .ok inputs => .ok inputs
  | .error e => .error [e.toEmitError]

namespace Emit

/-- A local of a function by its position. -/
def localName (f : Names.Function) (index : UInt16) : String := f.locals.getD index.toNat "_"

/-- Values with commas between them. -/
def commaList (items : List String) : String := ", ".intercalate items

end Emit

end GraphScript
