import GraphScript.Compilation
import GraphScript.Document.Model

/-!
# Document/Output — debug maps, runtime inputs and outputs as JSON

The lines of a debug map and the variables of runtime inputs are keys of objects.  What is written
of an output is everything but its text, with the digest in its place.
-/

namespace GraphScript

open Json (Reader)

namespace DebugSymbol

/-- An origin as JSON; an unknown slot is left out. -/
def toJson (s : DebugSymbol) : Json :=
  .obj (("node", s.node.toJson) :: (s.slot.map fun slot => ("slot", slot.toJson)).toList ++
    [("function", .str s.function)])

/-- An origin being read. -/
structure Draft where
  node : Option NodeId := none
  slot : Option (Option SlotId) := none
  function : Option String := none

/-- The form of an origin. -/
def shape : Reader.Shape Draft DebugSymbol where
  title := "struct DebugSymbol"
  start := {}
  fields := [
    Reader.required "node" NodeId.reader (·.node) (fun v d => { d with node := some v }),
    Reader.optional "slot" (Reader.option SlotId.reader) (·.slot)
      (fun v d => { d with slot := some v }),
    Reader.required "function" Reader.str (·.function) (fun v d => { d with function := some v })]
  build d := do
    return {
      node := ← Reader.need "node" d.node
      slot := d.slot.getD none
      function := ← Reader.need "function" d.function }

/-- Reads an origin. -/
def reader : Reader DebugSymbol := Reader.record shape

end DebugSymbol

namespace DebugMap

/-- A debug map as JSON. -/
def toJson (m : DebugMap) : Json :=
  .obj [("entries", .obj (m.entries.map fun e => (toString e.1, e.2.toJson)))]

/-- A debug map being read. -/
structure Draft where
  entries : Option (List (Nat × DebugSymbol)) := none

/-- The form of a debug map. -/
def shape : Reader.Shape Draft DebugMap where
  title := "struct DebugSymbolMap"
  start := {}
  fields := [
    Reader.required "entries" (Reader.entries (Reader.numericKey "u32" 32) DebugSymbol.reader)
      (·.entries) (fun v d => { d with entries := some v })]
  build d := do return ⟨Entries.sorted (← Reader.need "entries" d.entries)⟩

/-- Reads a debug map. -/
def reader : Reader DebugMap := Reader.record shape

end DebugMap

namespace ExecutionMode

/-- The name of a mode. -/
def name : ExecutionMode → String
  | .interpreted => "Interpreted"
  | .compiled => "Compiled"

/-- Reads a mode. -/
def reader : Reader ExecutionMode :=
  Reader.variant [.plain "Interpreted" .interpreted, .plain "Compiled" .compiled]

end ExecutionMode

namespace NodeableInput

/-- An expected host object as JSON. -/
def toJson (n : NodeableInput) : Json :=
  .obj [("id", n.id.toJson), ("class", .str n.className)]

/-- Reads an expected host object. -/
def reader : Reader NodeableInput :=
  Reader.record
    (Statement.twoFields "struct NodeableInput" "id" VariableId.reader "class" Reader.str .mk)

end NodeableInput

namespace RuntimeInputs

/-- A bucket as JSON. -/
def bucketToJson {α : Type} (value : α → Json) (entries : List (VariableId × α)) : Json :=
  .obj (entries.map fun e => (e.1.hyphenated, value e.2))

/-- Runtime inputs as JSON. -/
def toJson (r : RuntimeInputs) : Json :=
  .obj [("execution_mode", .str r.executionMode.name),
    ("characteristics", .str r.characteristics.name),
    ("nodeables", .arr (r.nodeables.map NodeableInput.toJson)),
    ("variables", bucketToJson Datum.toJson r.values),
    ("entity_ids", bucketToJson EntityId.toJson r.entityIds),
    ("statics", bucketToJson StaticValue.toJson r.statics)]

/-- Reads a bucket. -/
def bucketReader {α : Type} (value : Reader α) : Reader (List (VariableId × α)) := do
  return Entries.sorted (← Reader.entries VariableId.reader value)

/-- Runtime inputs being read. -/
structure Draft where
  executionMode : Option ExecutionMode := none
  characteristics : Option Characteristics := none
  nodeables : Option (List NodeableInput) := none
  values : Option (List (VariableId × Datum)) := none
  entityIds : Option (List (VariableId × EntityId)) := none
  statics : Option (List (VariableId × StaticValue)) := none

/-- The form of runtime inputs. -/
def shape : Reader.Shape Draft RuntimeInputs where
  title := "struct RuntimeInputs"
  start := {}
  fields := [
    Reader.required "execution_mode" ExecutionMode.reader (·.executionMode)
      (fun v d => { d with executionMode := some v }),
    Reader.required "characteristics" Characteristics.reader (·.characteristics)
      (fun v d => { d with characteristics := some v }),
    Reader.required "nodeables" (Reader.array NodeableInput.reader) (·.nodeables)
      (fun v d => { d with nodeables := some v }),
    Reader.required "variables" (bucketReader Datum.reader) (·.values)
      (fun v d => { d with values := some v }),
    Reader.required "entity_ids" (bucketReader EntityId.reader) (·.entityIds)
      (fun v d => { d with entityIds := some v }),
    Reader.required "statics" (bucketReader StaticValue.reader) (·.statics)
      (fun v d => { d with statics := some v })]
  build d := do
    return {
      executionMode := ← Reader.need "execution_mode" d.executionMode
      characteristics := ← Reader.need "characteristics" d.characteristics
      nodeables := ← Reader.need "nodeables" d.nodeables
      values := ← Reader.need "variables" d.values
      entityIds := ← Reader.need "entity_ids" d.entityIds
      statics := ← Reader.need "statics" d.statics }

/-- Reads runtime inputs. -/
def reader : Reader RuntimeInputs := Reader.record shape

end RuntimeInputs

/-- Everything about an output but its text. -/
def Output.toJson (o : Output) : Json :=
  .obj [("target", .str o.target.formName), ("digest", .str o.digest),
    ("duration_us", .int o.micros), ("interface", o.interface.toJson),
    ("runtime_inputs", o.runtimeInputs.toJson), ("debug_map", o.debugMap.toJson)]

end GraphScript
