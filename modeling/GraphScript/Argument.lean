import GraphScript.Datum
import GraphScript.Json.Basic

/-!
# Argument — values given as JSON

An argument on a command line is a JSON value that has to fit the type of its parameter.
-/

namespace GraphScript

/-- A JSON value that does not fit a type. -/
structure Datum.Misfit where
  expected : DataType
  given : Json

/-- The wording of a failure. -/
def Datum.Misfit.message (e : Datum.Misfit) : String :=
  s!"expected {e.expected}, got {e.given.compact}"

/-- The datum of a type that a JSON value stands for. -/
def Datum.ofJson (t : DataType) (j : Json) : Except Datum.Misfit Datum :=
  match t, j with
  | .boolean, .bool b => .ok (.boolean b)
  | .number, .int i => .ok (.number (Float.ofInt i))
  | .number, .float x => .ok (.number x)
  | .string, .str s => .ok (.string s)
  | .entityId, .int i =>
    if 0 ≤ i ∧ i < 0x10000000000000000 then .ok (.entityId ⟨UInt64.ofNat i.toNat⟩)
    else .error ⟨t, j⟩
  | _, _ => .error ⟨t, j⟩

end GraphScript
