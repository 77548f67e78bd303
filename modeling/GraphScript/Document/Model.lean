import GraphScript.Document.Statement
import GraphScript.Model.Interface
import GraphScript.Model.Problem

/-!
# Document/Model — models, interfaces and problems as JSON

Variables and functions are arrays of pairs of a key and a declaration.  A key that comes again
replaces the declaration where it first stood.
-/

namespace GraphScript

open Json (Reader)

namespace Characteristics

/-- The name of a choice. -/
def name : Characteristics → String
  | .perEntity => "PerEntity"
  | .shared => "Shared"

/-- Reads a choice. -/
def reader : Reader Characteristics :=
  Reader.variant [.plain "PerEntity" .perEntity, .plain "Shared" .shared]

end Characteristics

namespace Initializer

/-- An initializer as JSON. -/
def toJson : Initializer → Json
  | .value d => .tagged "Value" d.toJson
  | .static s => .tagged "Static" s.toJson
  | .nodeable => .str "Nodeable"

/-- Reads an initializer. -/
def reader : Reader Initializer :=
  Reader.variant [
    .wrapping "Value" (do return .value (← Datum.reader)),
    .wrapping "Static" (do return .static (← StaticValue.reader)),
    .plain "Nodeable" .nodeable]

end Initializer

namespace Exposure

/-- The name of an exposure. -/
def name : Exposure → String
  | .hidden => "Private"
  | .input => "Input"
  | .output => "Output"

/-- Reads an exposure. -/
def reader : Reader Exposure :=
  Reader.variant [.plain "Private" .hidden, .plain "Input" .input, .plain "Output" .output]

end Exposure

namespace FunctionKind

/-- The name of a kind. -/
def name : FunctionKind → String
  | .entry => "In"
  | .internal => "Internal"

/-- Reads a kind. -/
def reader : Reader FunctionKind :=
  Reader.variant [.plain "In" .entry, .plain "Internal" .internal]

end FunctionKind

namespace VariableDef

/-- A variable as JSON. -/
def toJson (v : VariableDef) : Json :=
  .obj [("id", v.id.toJson), ("name", .str v.name), ("data_type", v.dataType.toJson),
    ("initializer", v.initializer.toJson), ("exposure", .str v.exposure.name)]

/-- A variable being read. -/
structure Draft where
  id : Option VariableId := none
  name : Option String := none
  dataType : Option DataType := none
  initializer : Option Initializer := none
  exposure : Option Exposure := none

/-- The form of a variable. -/
def shape : Reader.Shape Draft VariableDef where
  title := "struct VariableDef"
  start := {}
  fields := [
    Reader.required "id" VariableId.reader (·.id) (fun v d => { d with id := some v }),
    Reader.required "name" Reader.str (·.name) (fun v d => { d with name := some v }),
    Reader.required "data_type" DataType.reader (·.dataType)
      (fun v d => { d with dataType := some v }),
    Reader.required "initializer" Initializer.reader (·.initializer)
      (fun v d => { d with initializer := some v }),
    Reader.optional "exposure" Exposure.reader (·.exposure)
      (fun v d => { d with exposure := some v })]
  build d := do
    return {
      id := ← Reader.need "id" d.id
      name := ← Reader.need "name" d.name
      dataType := ← Reader.need "data_type" d.dataType
      initializer := ← Reader.need "initializer" d.initializer
      exposure := d.exposure.getD .hidden }

/-- Reads a variable. -/
def reader : Reader VariableDef := Reader.record shape

end VariableDef

namespace Param

/-- A parameter as JSON. -/
def toJson (p : Param) : Json := .obj [("name", .str p.name), ("data_type", p.dataType.toJson)]

/-- Reads a parameter or, under another title, a local. -/
def readerOf (title : String) : Reader Param :=
  Reader.record (Statement.twoFields title "name" Reader.str "data_type" DataType.reader .mk)

/-- Reads a parameter. -/
def reader : Reader Param := readerOf "struct Param"

/-- Reads a local. -/
def localReader : Reader Param := readerOf "struct LocalDef"

end Param

/-- Parameters as JSON. -/
def Json.params (ps : List Param) : Json := .arr (ps.map Param.toJson)

namespace FunctionDef

/-- A function as JSON. -/
def toJson (f : FunctionDef) : Json :=
  .obj [("id", f.id.toJson), ("name", .str f.name), ("kind", .str f.kind.name),
    ("params", .params f.params), ("returns", .params f.returns), ("locals", .params f.locals),
    ("body", .arr (Statement.bodyToJson f.body)), ("origin", f.origin.toJson)]

/-- A function being read. -/
structure Draft where
  id : Option FunctionId := none
  name : Option String := none
  kind : Option FunctionKind := none
  params : Option (List Param) := none
  returns : Option (List Param) := none
  locals : Option (List Param) := none
  body : Option (List Statement) := none
  origin : Option NodeId := none

/-- The form of a function. -/
def shape : Reader.Shape Draft FunctionDef where
  title := "struct FunctionDef"
  start := {}
  fields := [
    Reader.required "id" FunctionId.reader (·.id) (fun v d => { d with id := some v }),
    Reader.required "name" Reader.str (·.name) (fun v d => { d with name := some v }),
    Reader.required "kind" FunctionKind.reader (·.kind) (fun v d => { d with kind := some v }),
    Reader.required "params" (Reader.array Param.reader) (·.params)
      (fun v d => { d with params := some v }),
    Reader.required "returns" (Reader.array Param.reader) (·.returns)
      (fun v d => { d with returns := some v }),
    Reader.optional "locals" (Reader.array Param.localReader) (·.locals)
      (fun v d => { d with locals := some v }),
    Reader.required "body" (Reader.array Statement.reader) (·.body)
      (fun v d => { d with body := some v }),
    Reader.required "origin" NodeId.reader (·.origin) (fun v d => { d with origin := some v })]
  build d := do
    return {
      id := ← Reader.need "id" d.id
      name := ← Reader.need "name" d.name
      kind := ← Reader.need "kind" d.kind
      params := ← Reader.need "params" d.params
      returns := ← Reader.need "returns" d.returns
      locals := d.locals.getD []
      body := ← Reader.need "body" d.body
      origin := ← Reader.need "origin" d.origin }

/-- Reads a function. -/
def reader : Reader FunctionDef := Reader.record shape

end FunctionDef

namespace OutEventDef

/-- An out-event as JSON. -/
def toJson (o : OutEventDef) : Json :=
  .obj [("name", .str o.name), ("params", .params o.params), ("returns", .params o.returns),
    ("origin", o.origin.toJson)]

/-- An out-event being read. -/
structure Draft where
  name : Option String := none
  params : Option (List Param) := none
  returns : Option (List Param) := none
  origin : Option NodeId := none

/-- The form of an out-event. -/
def shape : Reader.Shape Draft OutEventDef where
  title := "struct OutEventDef"
  start := {}
  fields := [
    Reader.required "name" Reader.str (·.name) (fun v d => { d with name := some v }),
    Reader.required "params" (Reader.array Param.reader) (·.params)
      (fun v d => { d with params := some v }),
    Reader.optional "returns" (Reader.array Param.reader) (·.returns)
      (fun v d => { d with returns := some v }),
    Reader.required "origin" NodeId.reader (·.origin) (fun v d => { d with origin := some v })]
  build d := do
    return {
      name := ← Reader.need "name" d.name
      params := ← Reader.need "params" d.params
      returns := d.returns.getD []
      origin := ← Reader.need "origin" d.origin }

/-- Reads an out-event. -/
def reader : Reader OutEventDef := Reader.record shape

end OutEventDef

namespace Model

/-- A model as JSON. -/
def toJson (m : Model) : Json :=
  .obj [("name", .str m.name), ("characteristics", .str m.characteristics.name),
    ("variables", .arr (m.variableEntries.map fun e => .arr [e.1.toJson, e.2.toJson])),
    ("functions", .arr (m.functionEntries.map fun e => .arr [e.1.toJson, e.2.toJson])),
    ("out_events", .arr (m.outEvents.map OutEventDef.toJson))]

/-- Reads an array of pairs as a table in the order of its keys' first places. -/
def tableReader {κ α : Type} [DecidableEq κ] (key : Reader κ) (value : Reader α) :
    Reader (List (κ × α)) := do
  let entries ← Reader.arrayOf "a sequenced map" (Reader.pair key value)
  return entries.foldl (fun es e => Entries.put es e.1 e.2) []

/-- A model being read. -/
structure Draft where
  name : Option String := none
  characteristics : Option Characteristics := none
  members : Option (List (VariableId × VariableDef)) := none
  functions : Option (List (FunctionId × FunctionDef)) := none
  outEvents : Option (List OutEventDef) := none

/-- The form of a model. -/
def shape : Reader.Shape Draft Model where
  title := "struct AbstractCodeModel"
  start := {}
  fields := [
    Reader.required "name" Reader.str (·.name) (fun v d => { d with name := some v }),
    Reader.optional "characteristics" Characteristics.reader (·.characteristics)
      (fun v d => { d with characteristics := some v }),
    Reader.required "variables" (tableReader VariableId.reader VariableDef.reader) (·.members)
      (fun v d => { d with members := some v }),
    Reader.required "functions" (tableReader FunctionId.reader FunctionDef.reader) (·.functions)
      (fun v d => { d with functions := some v }),
    Reader.optional "out_events" (Reader.array OutEventDef.reader) (·.outEvents)
      (fun v d => { d with outEvents := some v })]
  build d := do
    return {
      name := ← Reader.need "name" d.name
      characteristics := d.characteristics.getD .perEntity
      variableEntries := ← Reader.need "variables" d.members
      functionEntries := ← Reader.need "functions" d.functions
      outEvents := d.outEvents.getD [] }

/-- Reads a model, valid or not. -/
def reader : Reader Model := Reader.record shape

/-- Why a text gives no valid model. -/
inductive LoadError where
  | malformed (fault : Json.Fault)
  | invalid (problems : List Problem)

/-- The wording of a failure. -/
def LoadError.message : LoadError → String
  | .malformed fault => "malformed model: " ++ fault.message
  | .invalid problems => "invalid model: " ++ problemText problems

/-- The valid model in a text. -/
def ofJson (text : String) : Except LoadError Model :=
  match Reader.decode reader text with
  | .error fault => .error (.malformed fault)
  | .ok m =>
    match m.problems with
    | [] => .ok m
    | ps => .error (.invalid ps)

end Model

namespace Problem

/-- A problem as JSON. -/
def toJson : Problem → Json
  | .unknownMember node id =>
    .tagged "UnknownMember" (.obj [("node", node.toJson), ("variable", id.toJson)])
  | .unknownParam node function index =>
    .tagged "UnknownParam"
      (.obj [("node", node.toJson), ("function", .str function), ("index", .int index.toNat)])
  | .unknownLocal node function index =>
    .tagged "UnknownLocal"
      (.obj [("node", node.toJson), ("function", .str function), ("index", .int index.toNat)])
  | .unknownFunction node id =>
    .tagged "UnknownFunction" (.obj [("node", node.toJson), ("function", id.toJson)])
  | .unknownOut node name =>
    .tagged "UnknownOut" (.obj [("node", node.toJson), ("name", .str name)])
  | .arity node target what expected actual =>
    .tagged "Arity" (.obj [("node", node.toJson), ("target", .str target),
      ("what", .str what.words), ("expected", .int expected), ("actual", .int actual)])
  | .objectLiteral node => .tagged "ObjectLiteral" (.obj [("node", node.toJson)])
  | .initializerType name expected found =>
    .tagged "InitializerType" (.obj [("name", .str name), ("expected", expected.toJson),
      ("found", found.toJson)])
  | .nodeableNotObject name declared =>
    .tagged "NodeableNotObject" (.obj [("name", .str name), ("declared", declared.toJson)])
  | .duplicateFunctionName name => .tagged "DuplicateFunctionName" (.obj [("name", .str name)])
  | .recursiveCall function => .tagged "RecursiveCall" (.obj [("function", .str function)])

end Problem

namespace Interface

/-- A signature as JSON. -/
def signatureToJson (s : Signature) : Json :=
  .obj [("name", .str s.name), ("params", .params s.params), ("returns", .params s.returns)]

/-- An exposed variable as JSON. -/
def exposedToJson (v : ExposedVariable) : Json :=
  .obj [("id", v.id.toJson), ("name", .str v.name), ("data_type", v.dataType.toJson)]

/-- An interface as JSON. -/
def toJson (i : Interface) : Json :=
  .obj [("name", .str i.name), ("ins", .arr (i.ins.map signatureToJson)),
    ("outs", .arr (i.outs.map signatureToJson)), ("inputs", .arr (i.inputs.map exposedToJson)),
    ("outputs", .arr (i.outputs.map exposedToJson))]

end Interface

end GraphScript
