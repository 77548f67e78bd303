import GraphScript.Datum
import GraphScript.Script.Tree

/-!
# Script/Value — what scripts compute with

Tables and functions are known by their addresses.  References to things of the host are values that
scripts can pass on and compare but not make or look into.
-/

namespace GraphScript.Script

/-- A thing of the host. -/
inductive HostRef where
  | entity (e : EntityId)
  | object (o : ObjectRef)
  /-- The running instance of a graph, by its number. -/
  | state (number : Nat)
  deriving DecidableEq, Inhabited, Repr

/-- A function that every machine has, or that an activated one has. -/
inductive Builtin where
  | error
  | assert
  | print
  | type
  | tostring
  | setmetatable
  /-- Fires an out-event. -/
  | fire
  /-- Writes a log line. -/
  | log
  /-- Makes an entity from its number. -/
  | entity
  /-- The entity that owns an instance. -/
  | owner
  deriving DecidableEq, Inhabited, Repr

/-- A value. -/
inductive Value where
  | nil
  | boolean (b : Bool)
  | number (n : Number)
  | str (bytes : ByteArray)
  | table (address : Nat)
  | closure (address : Nat)
  | builtin (b : Builtin)
  /-- A function of the host, by its number. -/
  | callable (number : Nat)
  | host (address : Nat) (ref : HostRef)
  deriving Inhabited

/-- Byte strings are compared byte by byte. -/
instance decidableEqBytes : DecidableEq ByteArray := ByteArray.instDecidableEq

/-- What tables are indexed by.  A double that is an integer is that integer. -/
inductive Key where
  | boolean (b : Bool)
  | int (i : Int64)
  | float (bits : UInt64)
  | str (bytes : ByteArray)
  | table (address : Nat)
  | closure (address : Nat)
  | builtin (b : Builtin)
  | callable (number : Nat)
  | host (address : Nat)
  deriving DecidableEq, Inhabited

namespace Value

/-- The string of a text. -/
def ofText (s : String) : Value := .str s.toUTF8

/-- An integer. -/
def ofInt (i : Int64) : Value := .number (.int i)

/-- As many values as are asked for: those that are missing are `nil`. -/
def fit (count : Nat) (vs : List Value) : List Value :=
  vs.take count ++ List.replicate (count - vs.length) .nil

/-- The key that a value is; `nil` and what is not a number are none. -/
def key? : Value → Option Key
  | .nil => none
  | .boolean b => some (.boolean b)
  | .number (.int i) => some (.int i)
  | .number (.float x) =>
    match Number.exactInt? x with
    | some i => some (.int i)
    | none => some (.float x.toBits)
  | .number (.nan _) => none
  | .str bytes => some (.str bytes)
  | .table a => some (.table a)
  | .closure a => some (.closure a)
  | .builtin b => some (.builtin b)
  | .callable n => some (.callable n)
  | .host a _ => some (.host a)

/-- Whether a value counts as true. -/
def isTruthy : Value → Bool
  | .nil => false
  | .boolean b => b
  | _ => true

/-- Whether a value is `nil`. -/
def isNil : Value → Bool
  | .nil => true
  | _ => false

/-- Whether a value is a function. -/
def isFunction : Value → Bool
  | .closure _ | .builtin _ | .callable _ => true
  | _ => false

/-- The name of a value's type. -/
def typeName : Value → String
  | .nil => "nil"
  | .boolean _ => "boolean"
  | .number _ => "number"
  | .str _ => "string"
  | .table _ => "table"
  | .closure _ | .builtin _ | .callable _ => "function"
  | .host _ _ => "userdata"

/-- The name of a value's type in messages, which tells the things of the host apart. -/
def title : Value → String
  | .host _ (.entity _) => "LuaEntity"
  | .host _ (.object _) => "LuaObject"
  | .host _ (.state _) => "ExecutionStateHandle"
  | v => v.typeName

/-- Whether two things of the host are the same. -/
def sameHost (a b : HostRef) : Bool :=
  match a, b with
  | .entity x, .entity y => x = y
  | .object x, .object y => x = y
  | _, _ => false

/-- Whether two values are equal. -/
def equal : Value → Value → Bool
  | .nil, .nil => true
  | .boolean a, .boolean b => a == b
  | .number a, .number b => a.eq b
  | .str a, .str b => a == b
  | .table a, .table b => a == b
  | .closure a, .closure b => a == b
  | .builtin a, .builtin b => a == b
  | .callable a, .callable b => a == b
  | .host a r, .host b s => a == b || sameHost r s
  | _, _ => false

/-- An address as text. -/
def addressText (kind : String) (address : Nat) : String :=
  s!"{kind}: 0x{String.ofList (hexDigits 12 (0x600000000000 + 64 * address))}"

/-- The text of a value as bytes. -/
def text : Value → ByteArray
  | .nil => "nil".toUTF8
  | .boolean b => (if b then "true" else "false").toUTF8
  | .number n => n.text.toUTF8
  | .str bytes => bytes
  | .table a => (addressText "table" a).toUTF8
  | .closure a => (addressText "function" a).toUTF8
  | .builtin _ => "function: builtin".toUTF8
  | .callable n => (addressText "function" n).toUTF8
  | .host _ (.entity e) => s!"entity({e})".toUTF8
  | .host _ (.object o) => s!"{o.className}#{o.handle.toNat}".toUTF8
  | .host a (.state _) => (addressText "ExecutionStateHandle" a).toUTF8

end Value

/-- A table: what its keys hold, and the table that it asks for keys it does not have. -/
structure Table where
  entries : List (Key × Value) := []
  /-- The number of items that its constructor listed. -/
  listed : Nat := 0
  metatable : Option Nat := none
  deriving Inhabited

namespace Table

/-- What a key holds. -/
def get (t : Table) (k : Key) : Value :=
  ((t.entries.find? fun e => e.1 = k).map (·.2)).getD .nil

/-- Lets a key hold a value; one that holds `nil` is dropped. -/
def set (t : Table) (k : Key) (v : Value) : Table :=
  let others := t.entries.filter fun e => e.1 ≠ k
  { t with entries := if v.isNil then others else others ++ [(k, v)] }

/-- Whether the item of a number is there. -/
def hasItem (t : Table) (n : Nat) : Bool := !(t.get (.int (Int64.ofNat n))).isNil

/-- The number of the last item after `n` items without a gap; `fuel` bounds it. -/
def lengthFrom (t : Table) : Nat → Nat → Nat
  | 0, n => n
  | fuel + 1, n => if t.hasItem (n + 1) then t.lengthFrom fuel (n + 1) else n

/-- The number of an item before a gap, found by halving; item `low` is there or `low` is zero, item
`high` is missing, and `fuel` bounds the halvings. -/
def lengthBetween (t : Table) : Nat → Nat → Nat → Nat
  | 0, low, _ => low
  | fuel + 1, low, high =>
    if high ≤ low + 1 then low
    else
      let middle := (low + high) / 2
      if t.hasItem middle then t.lengthBetween fuel middle high
      else t.lengthBetween fuel low middle

/-- The number of an item that is there while the next is not, or zero.  If there are gaps, it is
found from the number of items that the constructor listed. -/
def length (t : Table) : Nat :=
  let n := t.listed
  if n = 0 || t.hasItem n then t.lengthFrom t.entries.length n
  else if 1 < n && t.hasItem (n - 1) then n - 1
  else t.lengthBetween n 0 n

end Table

/-- The variables in scope, the latest first, and the cells that hold their values. -/
abbrev Scope := List (String × Nat)

/-- The cell of a variable in scope. -/
def Scope.cell? (scope : Scope) (name : String) : Option Nat :=
  (scope.find? fun e => e.1 == name).map (·.2)

/-- A function with the variables that it was made among and the name of its script. -/
structure Closure where
  function : Function
  scope : Scope
  source : String

instance : Inhabited Closure := ⟨⟨.mk 0 [] false [], [], ""⟩⟩

end GraphScript.Script
