import GraphScript.Machine.Instance

/-!
# Host/Error — what the host can be refused
-/

namespace GraphScript

/-- Why an operation of the host failed. -/
inductive HostError where
  /-- The instance is not in a state for the operation. -/
  | lifecycle (operation : String) (state : InstanceState)
  | typeMismatch (index : Int) (expected found : String)
  /-- The stack holds too few values. -/
  | stackUnderflow (needed available : Nat)
  | invalidIndex (index : Int) (length : Nat)
  | notCallable (found : String)
  /-- A script failed while it was called. -/
  | runtime (message : String)
  /-- A script could not be loaded. -/
  | load (chunk message : String)
  | unknownOut (name : String)
  | unknownIn (name : String)
  | argumentCount (name : String) (expected found : Nat)
  | wrongExecutionMode (mode : ExecutionMode)
  | nodeableCount (expected found : Nat)
  | vm (message : String)
  /-- A run was given up, for want of fuel or for the depth of its calls.  This is no way in which an
  operation ends: nothing is said about the operation then. -/
  | unfinished
  deriving DecidableEq, Repr

namespace HostError

/-- The name of an execution mode's form. -/
def modeName : ExecutionMode → String
  | .interpreted => "Interpreted"
  | .compiled => "Compiled"

/-- The wording of a failure. -/
def message : HostError → String
  | .lifecycle operation state =>
    s!"lifecycle violation: cannot {operation} while {state.words}"
  | .typeMismatch index expected found =>
    s!"type mismatch at index {index}: expected {expected}, found {found}"
  | .stackUnderflow needed available =>
    s!"stack underflow: needed {needed} values, stack holds {available}"
  | .invalidIndex index length => s!"invalid stack index {index} (stack holds {length})"
  | .notCallable found => s!"value in call position is {found}, not a function"
  | .runtime message => s!"script error: {message}"
  | .load chunk message => s!"failed to load chunk '{chunk}': {message}"
  | .unknownOut name => s!"unknown out-event '{name}'"
  | .unknownIn name => s!"unknown In function '{name}'"
  | .argumentCount name expected found =>
    s!"argument count mismatch for '{name}': expected {expected}, got {found}"
  | .wrongExecutionMode mode =>
    s!"runtime inputs are for {modeName mode} execution, not interpreted"
  | .nodeableCount expected found => s!"expected {expected} nodeables, got {found}"
  | .vm message => s!"vm error: {message}"
  | .unfinished => "script did not finish"

end HostError

end GraphScript
