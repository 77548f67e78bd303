/-!
# Id — identifiers

Nodes, slots and functions of a graph are numbered, variables carry 128-bit identifiers, and the
entities of the host are 64-bit numbers of which the greatest stands for whatever entity owns the
graph.
-/

namespace GraphScript

/-- A node of a graph. -/
structure NodeId where
  val : UInt32
  deriving DecidableEq, Inhabited, Repr

/-- A slot of a node. -/
structure SlotId where
  val : UInt32
  deriving DecidableEq, Inhabited, Repr

/-- A function of a graph. -/
structure FunctionId where
  val : UInt32
  deriving DecidableEq, Inhabited, Repr

/-- A member variable of a graph. -/
structure VariableId where
  val : BitVec 128
  deriving DecidableEq, Inhabited, Repr

/-- An entity of the host. -/
structure EntityId where
  val : UInt64
  deriving DecidableEq, Inhabited, Repr

instance : ToString NodeId := ⟨fun n => toString n.val.toNat⟩
instance : ToString SlotId := ⟨fun s => toString s.val.toNat⟩
instance : ToString FunctionId := ⟨fun f => toString f.val.toNat⟩

namespace FunctionId

/-- The function of the greatest number. -/
def last : FunctionId := ⟨0xffffffff⟩

/-- The number that follows that of a function: none follows the greatest. -/
def next? (f : FunctionId) : Option UInt32 := if f = last then none else some (f.val + 1)

end FunctionId

namespace EntityId

/-- No entity. -/
def invalid : EntityId := ⟨0⟩

/-- The entity that owns the graph, whichever it is. -/
def graphOwner : EntityId := ⟨0xffffffffffffffff⟩

/-- Whether this stands for the graph's owner. -/
def isGraphOwner (e : EntityId) : Bool := e = graphOwner

instance : ToString EntityId :=
  ⟨fun e => if e.isGraphOwner then "<graph owner>" else toString e.val.toNat⟩

end EntityId

/-- The last `count` hexadecimal digits of a number. -/
def hexDigits (count n : Nat) : List Char :=
  (List.range count).reverse.map fun i => Nat.digitChar (n / Nat.pow 16 i % 16)

namespace VariableId

/-- The identifier of a number. -/
def ofNat (n : Nat) : VariableId := ⟨BitVec.ofNat 128 n⟩

/-- The number of an identifier. -/
def toNat (v : VariableId) : Nat := v.val.toNat

instance : LT VariableId := ⟨fun a b => a.toNat < b.toNat⟩

instance : DecidableRel (LT.lt : VariableId → VariableId → Prop) :=
  fun a b => inferInstanceAs (Decidable (a.toNat < b.toNat))

/-- All 32 hexadecimal digits. -/
def digits (v : VariableId) : List Char := hexDigits 32 v.toNat

/-- Five groups of hexadecimal digits with hyphens between them. -/
def hyphenated (v : VariableId) : String :=
  let ds := v.digits
  String.ofList
    (ds.take 8 ++ '-' :: (ds.drop 8).take 4 ++ '-' :: (ds.drop 12).take 4 ++
      '-' :: (ds.drop 16).take 4 ++ '-' :: ds.drop 20)

instance : ToString VariableId := ⟨hyphenated⟩

end VariableId

end GraphScript
