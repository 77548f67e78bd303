import GraphScript.Disk
import GraphScript.Host.Error
import GraphScript.Settings

/-!
# Command/Failure — why a command failed
-/

namespace GraphScript.Command

/-- Why a command failed. -/
inductive Failure where
  | read (path : String) (e : DiskError)
  | write (path : String) (e : DiskError)
  /-- The model is no valid one. -/
  | invalidSource (reason : String)
  /-- No script could be emitted; the text lists the reasons. -/
  | unemitted (reasons : String)
  | argument (reason : String)
  | host (e : HostError)
  | environment (e : Layer.BadVariable)
  deriving DecidableEq, Repr

namespace Failure

/-- The wording of a failure. -/
def message : Failure → String
  | .read path e => s!"failed to read '{path}': {e.message}"
  | .write path e => s!"failed to write '{path}': {e.message}"
  | .invalidSource reason => s!"invalid source: {reason}"
  | .unemitted reasons => s!"translation failed:\n{reasons}"
  | .argument reason => s!"bad argument: {reason}"
  | .host e => e.message
  | .environment e => e.message

/-- The code that a program ends with after a failure. -/
def exitCode : Failure → Nat
  | .read _ _ => 3
  | .write _ _ => 3
  | .invalidSource _ => 2
  | _ => 1

end Failure

end GraphScript.Command
