import GraphScript.Json.Reader
import GraphScript.Text.Blank

/-!
# Build — how strictly scripts are run

A build selects what is checked and reported while scripts run.  It never changes what they compute.
-/

namespace GraphScript

open Json (Reader)

/-- A way of running scripts. -/
inductive Build where
  | debug
  | performance
  | release
  deriving DecidableEq, Inhabited, Repr

/-- What a build turns on. -/
structure Policy where
  /-- Tracebacks stay in messages. -/
  keepsTraceback : Bool
  /-- Messages name the node of the graph they came from. -/
  annotatesErrors : Bool
  /-- The arguments of out-events are checked against their declared types. -/
  checksOutArgs : Bool
  /-- Each dispatch of an out-event is traced. -/
  tracesDispatch : Bool
  /-- The instruction limit is enforced. -/
  limitsInstructions : Bool
  deriving DecidableEq, Repr

namespace Build

/-- What a build turns on. -/
def policy : Build → Policy
  | .debug => ⟨true, true, true, true, true⟩
  | .performance => ⟨false, false, false, false, false⟩
  | .release => ⟨false, false, false, false, true⟩

/-- The name of a build. -/
def name : Build → String
  | .debug => "debug"
  | .performance => "performance"
  | .release => "release"

instance : ToString Build := ⟨name⟩

/-- A name that is no build's. -/
structure Unknown where
  name : String
  deriving DecidableEq, Repr

/-- The wording of a failure. -/
def Unknown.message (u : Unknown) : String :=
  s!"unknown build configuration '{u.name}' (expected debug, performance or release)"

/-- The build of a name, in either case and with blanks around it. -/
def ofName (s : String) : Except Unknown Build :=
  let name := Text.lowerAscii (Text.trim s)
  if name = "debug" then .ok .debug
  else if name = "performance" ∨ name = "perf" then .ok .performance
  else if name = "release" then .ok .release
  else .error ⟨name⟩

/-- Reads a build. -/
def reader : Reader Build :=
  Reader.variant [.plain "debug" .debug, .plain "performance" .performance,
    .plain "release" .release]

/-- The name of a build's form. -/
def formName : Build → String
  | .debug => "Debug"
  | .performance => "Performance"
  | .release => "Release"

end Build

end GraphScript
