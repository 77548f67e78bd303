import GraphScript.Datum
import GraphScript.Id.Written
import GraphScript.Json.Reader

/-!
# Document/Datum — identifiers and values as JSON

A form without content is its name, a form with content an object with the name as its one key.
-/

namespace GraphScript

open Json (Reader)

/-- A form with content. -/
def Json.tagged (name : String) (content : Json) : Json := .obj [(name, content)]

namespace NodeId

/-- A node as JSON. -/
def toJson (n : NodeId) : Json := .int n.val.toNat

/-- Reads a node. -/
def reader : Reader NodeId := do return ⟨UInt32.ofNat (← Reader.unsigned "u32" 32)⟩

end NodeId

namespace SlotId

/-- A slot as JSON. -/
def toJson (s : SlotId) : Json := .int s.val.toNat

/-- Reads a slot. -/
def reader : Reader SlotId := do return ⟨UInt32.ofNat (← Reader.unsigned "u32" 32)⟩

end SlotId

namespace FunctionId

/-- A function's identifier as JSON. -/
def toJson (f : FunctionId) : Json := .int f.val.toNat

/-- Reads a function's identifier. -/
def reader : Reader FunctionId := do return ⟨UInt32.ofNat (← Reader.unsigned "u32" 32)⟩

end FunctionId

namespace EntityId

/-- An entity as JSON. -/
def toJson (e : EntityId) : Json := .int e.val.toNat

/-- Reads an entity. -/
def reader : Reader EntityId := do return ⟨UInt64.ofNat (← Reader.unsigned "u64" 64)⟩

end EntityId

namespace VariableId

/-- A variable's identifier as JSON. -/
def toJson (v : VariableId) : Json := .str v.hyphenated

/-- The identifier in a string. -/
def ofString (s : String) : Reader VariableId :=
  match ofText s with
  | .ok v => return v
  | .error e => throw (.refused s!"UUID parsing failed: {e.message}")

/-- Reads a variable's identifier. -/
def reader : Reader VariableId := do ofString (← Reader.text "a formatted UUID string")

end VariableId

/-- Reads the position of a parameter or a local. -/
def Json.Reader.position : Reader UInt16 := do
  return UInt16.ofNat (← Reader.unsigned "u16" 16)

namespace DataType

/-- A type as JSON. -/
def toJson : DataType → Json
  | .boolean => .str "Boolean"
  | .number => .str "Number"
  | .string => .str "String"
  | .entityId => .str "EntityId"
  | .object className => .tagged "Object" (.str className)

/-- Reads a type. -/
def reader : Reader DataType :=
  Reader.variant [
    .plain "Boolean" .boolean,
    .plain "Number" .number,
    .plain "String" .string,
    .plain "EntityId" .entityId,
    .wrapping "Object" (do return .object (← Reader.str))]

end DataType

namespace ObjectRef

/-- An object reference as JSON. -/
def toJson (o : ObjectRef) : Json :=
  .obj [("class", .str o.className), ("handle", .int o.handle.toNat)]

/-- An object reference being read. -/
structure Draft where
  className : Option String := none
  handle : Option UInt64 := none

/-- The form of an object reference. -/
def shape : Reader.Shape Draft ObjectRef where
  title := "struct ObjectRef"
  start := {}
  fields := [
    Reader.required "class" Reader.str (·.className) (fun v d => { d with className := some v }),
    Reader.required "handle" (do return UInt64.ofNat (← Reader.unsigned "u64" 64)) (·.handle)
      (fun v d => { d with handle := some v })]
  build d := do
    return ⟨← Reader.need "class" d.className, ← Reader.need "handle" d.handle⟩

/-- Reads an object reference. -/
def reader : Reader ObjectRef := Reader.record shape

end ObjectRef

namespace Datum

/-- A value as JSON. -/
def toJson : Datum → Json
  | .boolean b => .tagged "Boolean" (.bool b)
  | .number x => .tagged "Number" (.float x)
  | .string s => .tagged "String" (.str s)
  | .entityId e => .tagged "EntityId" e.toJson
  | .object o => .tagged "Object" o.toJson

/-- Reads a value. -/
def reader : Reader Datum :=
  Reader.variant [
    .wrapping "Boolean" (do return .boolean (← Reader.bool)),
    .wrapping "Number" (do return .number (← Reader.float)),
    .wrapping "String" (do return .string (← Reader.str)),
    .wrapping "EntityId" (do return .entityId (← EntityId.reader)),
    .wrapping "Object" (do return .object (← ObjectRef.reader))]

end Datum

namespace StaticValue

/-- A static value as JSON. -/
def toJson : StaticValue → Json
  | .number x => .tagged "Number" (.float x)
  | .text s => .tagged "Text" (.str s)
  | .numberList xs => .tagged "NumberList" (.arr (xs.map .float))
  | .textList ss => .tagged "TextList" (.arr (ss.map .str))
  | .lookup entries => .tagged "Lookup" (.obj (entries.map fun e => (e.1, .float e.2)))

/-- Reads a static value; the entries of a lookup are put in the order of their keys. -/
def reader : Reader StaticValue :=
  Reader.variant [
    .wrapping "Number" (do return .number (← Reader.float)),
    .wrapping "Text" (do return .text (← Reader.str)),
    .wrapping "NumberList" (do return .numberList (← Reader.array Reader.float)),
    .wrapping "TextList" (do return .textList (← Reader.array Reader.str)),
    .wrapping "Lookup" (do
      return .lookup (Entries.sorted (← Reader.entries Reader.str Reader.float)))]

end StaticValue

end GraphScript
