import GraphScript.Document.Datum
import GraphScript.Machine.Instance

/-!
# Document/OutRecord — handled out-events as JSON
-/

namespace GraphScript.OutRecord

/-- An argument; one that the host has no form for is null. -/
def argToJson : Option Datum → Json
  | some d => d.toJson
  | none => .null

/-- A record as JSON. -/
def toJson (r : OutRecord) : Json :=
  .obj [("key", .str r.key), ("mode", .str r.mode.formName), ("args", .arr (r.args.map argToJson)),
    ("results", .arr (r.results.map Datum.toJson))]

end GraphScript.OutRecord
