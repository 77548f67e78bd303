import GraphScript.Id

/-!
# Datum — typed values of the host

A datum is a value that graphs, hosts and scripts exchange; each has one type.  A static value is a
constant that is built outside the graph.
-/

namespace GraphScript

/-- The type of a variable, a parameter or a value. -/
inductive DataType where
  | boolean
  | number
  | string
  | entityId
  /-- A reference to a host object of that class. -/
  | object (className : String)
  deriving DecidableEq, Inhabited, Repr

instance : ToString DataType where
  toString
    | .boolean => "Boolean"
    | .number => "Number"
    | .string => "String"
    | .entityId => "EntityId"
    | .object className => s!"Object<{className}>"

/-- A reference to a host object; only the host knows what the handle means. -/
structure ObjectRef where
  className : String
  handle : UInt64
  deriving DecidableEq, Inhabited, Repr

/-- A value. -/
inductive Datum where
  | boolean (b : Bool)
  | number (x : Float)
  | string (s : String)
  | entityId (e : EntityId)
  | object (o : ObjectRef)
  deriving BEq, Inhabited, Repr

namespace Datum

/-- The type of a value. -/
def dataType : Datum → DataType
  | .boolean _ => .boolean
  | .number _ => .number
  | .string _ => .string
  | .entityId _ => .entityId
  | .object o => .object o.className

/-- Whether a value has that type. -/
def isA (d : Datum) (t : DataType) : Bool := d.dataType = t

/-- The value that stands in when a type has one; objects have none. -/
def default? : DataType → Option Datum
  | .boolean => some (.boolean false)
  | .number => some (.number 0)
  | .string => some (.string "")
  | .entityId => some (.entityId .invalid)
  | .object _ => none

end Datum

/-- A constant built outside the graph.  The entries of a lookup are in the order of their keys. -/
inductive StaticValue where
  | number (x : Float)
  | text (s : String)
  | numberList (xs : List Float)
  | textList (ss : List String)
  | lookup (entries : List (String × Float))
  deriving BEq, Inhabited, Repr

/-- The name of a static value's form. -/
def StaticValue.kind : StaticValue → String
  | .number _ => "Number"
  | .text _ => "Text"
  | .numberList _ => "NumberList"
  | .textList _ => "TextList"
  | .lookup _ => "Lookup"

end GraphScript
