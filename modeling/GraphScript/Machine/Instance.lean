import GraphScript.DebugMap
import GraphScript.Model.Interface
import GraphScript.RuntimeInputs
import GraphScript.Script.Value

/-!
# Machine/Instance — graphs that live in a machine

An instance is prepared, activated, runs, waits while a handler of an out-event runs, and is
unloaded in the end.  It keeps what became of the out-events that were handled and what was logged.
-/

namespace GraphScript

/-- Where an instance is in its life. -/
inductive InstanceState where
  | uninitialized
  | activated
  | running
  | suspended
  | unloaded
  deriving DecidableEq, Inhabited, Repr

/-- A state in words. -/
def InstanceState.words : InstanceState → String
  | .uninitialized => "uninitialized"
  | .activated => "activated"
  | .running => "running"
  | .suspended => "suspended on out"
  | .unloaded => "unloaded"

/-- How the handler of an out-event is called. -/
inductive OutMode where
  /-- What it returns is dropped. -/
  | immediate
  /-- What it returns goes to the script. -/
  | result
  /-- Like `result`, with the instance before the arguments. -/
  | userSubgraph
  deriving DecidableEq, Inhabited, Repr

/-- The name of a mode's form. -/
def OutMode.formName : OutMode → String
  | .immediate => "Immediate"
  | .result => "Result"
  | .userSubgraph => "UserSubgraph"

/-- An out-event that was handled.  An argument that the host has no form for is missing. -/
structure OutRecord where
  key : String
  mode : OutMode
  args : List (Option Datum)
  results : List Datum
  deriving BEq, Inhabited, Repr

/-- The handler of an out-event. -/
structure Binding where
  mode : OutMode
  handler : Script.Value

/-- An instance of a graph. -/
structure Instance where
  owner : EntityId
  interface : Interface
  /-- The name of its script. -/
  chunk : String
  text : String
  inputs : RuntimeInputs
  debugMap : DebugMap
  state : InstanceState := .uninitialized
  bindings : List (String × Binding) := []
  records : List OutRecord := []
  logs : List String := []
  /-- The table that its script gave. -/
  classTable : Option Script.Value := none
  /-- The table that its constructor gave. -/
  object : Option Script.Value := none

end GraphScript
