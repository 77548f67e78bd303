import GraphScript.Entries
import GraphScript.Id
import GraphScript.Text.Alphanumeric

/-!
# DebugMap — from lines back to nodes

A debug map tells which node of the graph a line of emitted text came from.  `resolve?` finds the
first position of a chunk in a message and the node recorded for it, or for the closest line before
it.
-/

namespace GraphScript

/-- Where a line came from: a node, possibly a slot, and the function around it. -/
structure DebugSymbol where
  node : NodeId
  slot : Option SlotId := none
  function : String
  deriving DecidableEq, Inhabited, Repr

/-- Lines, in ascending order, with their origins. -/
structure DebugMap where
  entries : List (Nat × DebugSymbol) := []
  deriving DecidableEq, Inhabited, Repr

namespace DebugMap

/-- Records the origin of a line, unless one is recorded already. -/
def record (m : DebugMap) (line : Nat) (s : DebugSymbol) : DebugMap :=
  if Entries.contains m.entries line then m else ⟨Entries.insert m.entries line s⟩

/-- The number of recorded lines. -/
def size (m : DebugMap) : Nat := m.entries.length

/-- The origin recorded for a line. -/
def get? (m : DebugMap) (line : Nat) : Option DebugSymbol := Entries.get? m.entries line

/-- The origin recorded for a line or the closest line before it. -/
def lookup? (m : DebugMap) (line : Nat) : Option DebugSymbol :=
  (m.entries.reverse.find? fun e => e.1 ≤ line).map (·.2)

/-- Reads `:digits:` at the front of a text. -/
def lineNumber? : List Char → Option Nat
  | ':' :: rest =>
    let ds := rest.takeWhile Char.isDigit
    match ds, rest.dropWhile Char.isDigit with
    | [], _ => none
    | ds, ':' :: _ =>
      let n := ds.foldl (fun n d => n * 10 + (d.toNat - 48)) 0
      if n < 0x100000000 then some n else none
    | _, _ => none
  | _ => none

/-- Drops `"]` at the front of a text. -/
def dropClosing : List Char → List Char
  | '"' :: ']' :: r => r
  | r => r

/-- Characters that make what follows them the rest of a word. -/
def isWordChar (c : Char) : Bool := Text.isAlphanumeric c || c == '_' || c == '.'

/-- Finds the first line number given for a chunk in a text, where `before` is the character before
it.  Occurrences of the name do not overlap: after one, the search goes on behind it.  `fuel` bounds
the length of the text. -/
def findLine? (name : List Char) : Nat → Option Char → List Char → Option Nat
  | 0, _, _ => none
  | _ + 1, _, [] => none
  | fuel + 1, before, c :: r =>
    if name.isPrefixOf (c :: r) then
      let after := (c :: r).drop name.length
      let found := if before.any isWordChar then none else lineNumber? (dropClosing after)
      match found with
      | some n => some n
      | none => findLine? name fuel name.getLast? after
    else findLine? name fuel (some c) r

/-- The name under which a chunk reports positions. -/
def reportedName (chunk : String) : List Char :=
  chunk.toList.dropWhile fun c => c == '=' || c == '@'

/-- The first line that a message gives for a chunk, and where that line came from. -/
def resolve? (m : DebugMap) (chunk message : String) : Option (Nat × DebugSymbol) :=
  let name := reportedName chunk
  if name.isEmpty then none
  else
    let cs := message.toList
    match findLine? name (cs.length + 1) none cs with
    | none => none
    | some line => (m.lookup? line).map fun s => (line, s)

end DebugMap

end GraphScript
