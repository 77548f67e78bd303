import GraphScript.Text.Blank
import GraphScript.Text.Lines

/-!
# Target — what text is emitted for

There are three targets, each with a bit of its own, and a request is a set of them.
-/

namespace GraphScript

/-- A target. -/
inductive Target where
  /-- Interpreted script. -/
  | lua
  /-- Native source. -/
  | cpp
  /-- Native header. -/
  | hpp
  deriving DecidableEq, Inhabited, Repr

namespace Target

/-- Every target, in the order of their bits. -/
def all : List Target := [.lua, .cpp, .hpp]

/-- The bit of a target. -/
def bit : Target → UInt8
  | .lua => 1
  | .cpp => 2
  | .hpp => 4

/-- The name of a target. -/
def name : Target → String
  | .lua => "lua"
  | .cpp => "cpp"
  | .hpp => "hpp"

/-- The ending of an emitted file. -/
def extension : Target → String
  | .lua => "lua"
  | .cpp => "cpp"
  | .hpp => "h"

instance : ToString Target := ⟨name⟩

/-- The name of a target's form. -/
def formName : Target → String
  | .lua => "Lua"
  | .cpp => "Cpp"
  | .hpp => "Hpp"

/-- A name that is no target's. -/
structure Unknown where
  name : String
  deriving DecidableEq, Repr

/-- The wording of a failure. -/
def Unknown.message (u : Unknown) : String :=
  s!"unknown target '{u.name}' (expected lua, cpp or hpp)"

/-- The target of a name, in either case and with blanks around it. -/
def ofName (s : String) : Except Unknown Target :=
  let name := Text.lowerAscii (Text.trim s)
  if name = "lua" then .ok .lua
  else if name = "cpp" then .ok .cpp
  else if name = "hpp" ∨ name = "h" then .ok .hpp
  else .error ⟨name⟩

end Target

/-- A set of targets, by their bits. -/
structure TargetSet where
  bits : UInt8
  deriving DecidableEq, Inhabited, Repr

namespace TargetSet

/-- No target. -/
def none : TargetSet := ⟨0⟩

/-- Every target. -/
def all : TargetSet := ⟨7⟩

/-- One target. -/
def only (t : Target) : TargetSet := ⟨t.bit⟩

/-- The targets of some bits; other bits are dropped. -/
def ofBits (bits : UInt8) : TargetSet := ⟨bits &&& 7⟩

/-- Whether a target is in the set. -/
def contains (s : TargetSet) (t : Target) : Bool := s.bits &&& t.bit != 0

/-- Whether the set is empty. -/
def isEmpty (s : TargetSet) : Bool := s.bits == 0

/-- The targets in both or either of two sets. -/
def union (s t : TargetSet) : TargetSet := ⟨s.bits ||| t.bits⟩

/-- The targets of the set, in the order of their bits. -/
def toList (s : TargetSet) : List Target := Target.all.filter s.contains

/-- Adds the targets of names to a set; blank names are left out. -/
def addNames (s : TargetSet) : List String → Except Target.Unknown TargetSet
  | [] => .ok s
  | name :: rest =>
    if (Text.trim name).isEmpty then s.addNames rest
    else match Target.ofName name with
      | .ok t => (s.union (only t)).addNames rest
      | .error u => .error u

/-- The targets of a list of names with commas between them. -/
def ofNames (names : String) : Except Target.Unknown TargetSet :=
  none.addNames (Text.split ',' names)

end TargetSet

end GraphScript
