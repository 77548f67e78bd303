import GraphScript.Machine.State
import GraphScript.Text.Utf8

/-!
# Machine/Marshal — data of the host as values of scripts

Truth values, numbers and strings become the script's own; entities and objects become references.
On the way back a value becomes the datum that it carries, if it carries one.
-/

namespace GraphScript.Script.Value

/-- A datum as a value; a reference gets that address. -/
def ofDatum (address : Nat) : Datum → Value
  | .boolean b => .boolean b
  | .number x => .number (Number.ofFloat x)
  | .string s => .ofText s
  | .entityId e => .host address (.entity e)
  | .object o => .host address (.object o)

/-- The text that a byte string is. -/
def textOf? (bytes : ByteArray) : Option String := String.fromUTF8? bytes

/-- The datum that a value carries. -/
def datum? : Value → Option Datum
  | .boolean b => some (.boolean b)
  | .number n => some (.number n.toFloat)
  | .str bytes => (textOf? bytes).map .string
  | .host _ (.entity e) => some (.entityId e)
  | .host _ (.object o) => some (.object o)
  | _ => none

/-- What the host calls the type of a value. -/
def hostType : Value → String
  | .str bytes => if (textOf? bytes).isNone then "non-utf8 string" else "string"
  | .host _ (.entity _) => "EntityId"
  | .host _ (.object o) => s!"Object<{o.className}>"
  | v => v.typeName

/-- The datum of a type that a value is, or what the host calls its type. -/
def toDatum (t : DataType) (v : Value) : Except String Datum :=
  let found : Option Datum := match t, v with
    | .boolean, .boolean b => some (.boolean b)
    | .number, .number n => some (.number n.toFloat)
    | .string, .str bytes => (textOf? bytes).map .string
    | .entityId, .host _ (.entity e) => some (.entityId e)
    | .object className, .host _ (.object o) =>
      if o.className = className then some (.object o) else none
    | _, _ => none
  match found with
  | some d => .ok d
  | none => .error v.hostType

/-- Numbers in log lines are always positional and whole ones have no point. -/
def logNumber : Decimal.Layout where
  precision := .shortest .up
  leastPositional := none
  greatestPositional := none
  keepsPoint := false
  plusSign := false
  exponentWidth := 1
  nan := "NaN"
  infinity := "inf"

/-- A value as log lines show it. -/
def logText : Value → String
  | .nil => "nil"
  | .boolean b => if b then "true" else "false"
  | .number n => logNumber.write n.toFloat
  | .str bytes => Text.Utf8.lossy bytes
  | .host _ (.entity e) => s!"entity({e})"
  | .host _ (.object o) => s!"{o.className}#{o.handle.toNat}"
  | v => s!"<{v.typeName}>"

end GraphScript.Script.Value

namespace GraphScript.Machine

open Script (Value Table)

/-- A datum as a value of the machine. -/
def embed (m : Machine) (d : Datum) : Value × Machine :=
  (.ofDatum m.nextHost d, { m with nextHost := m.nextHost + 1 })

/-- A reference to an instance. -/
def embedState (m : Machine) (number : Nat) : Value × Machine :=
  (.host m.nextHost (.state number), { m with nextHost := m.nextHost + 1 })

/-- Data as values of the machine. -/
def embedAll (m : Machine) : List Datum → List Value × Machine
  | [] => ([], m)
  | d :: ds =>
    let (v, m) := m.embed d
    let (vs, m) := m.embedAll ds
    (v :: vs, m)

/-- A table of items. -/
def itemTable (items : List Value) : Table :=
  (items.zipIdx 1).foldl (fun t e => t.set (.int (Int64.ofNat e.2)) e.1) {}

/-- A static value as a value of the machine; lists and lookups become tables. -/
def embedStatic (m : Machine) (s : StaticValue) : Value × Machine :=
  let withTable (t : Table) : Value × Machine :=
    (.table m.tables.size, { m with tables := m.tables.push t })
  let number (x : Float) : Value := .number (.ofFloat x)
  match s with
  | .number x => (number x, m)
  | .text s => (.ofText s, m)
  | .numberList xs => withTable (itemTable (xs.map number))
  | .textList ss => withTable (itemTable (ss.map .ofText))
  | .lookup entries => withTable (namedTable (entries.map fun e => (e.1, number e.2)))

end GraphScript.Machine
