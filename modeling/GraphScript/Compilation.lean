import GraphScript.Digest
import GraphScript.Emit
import GraphScript.Model.Interface
import GraphScript.Target

/-!
# Compilation — what became of a request

A request names a source and some targets.  If the source gave no valid model there is only a
reason.  Otherwise each requested target has either an output or a list of messages, never both.
-/

namespace GraphScript

namespace Target

instance : LT Target := ⟨fun a b => a.bit < b.bit⟩

instance : DecidableRel (LT.lt : Target → Target → Prop) :=
  fun a b => inferInstanceAs (Decidable (a.bit < b.bit))

end Target

/-- What was emitted for a target. -/
structure Output where
  target : Target
  text : String
  interface : Interface := {}
  runtimeInputs : RuntimeInputs := {}
  debugMap : DebugMap := {}
  /-- The time that emitting took, in microseconds. -/
  micros : Nat := 0
  deriving Inhabited

/-- The digest of the emitted text. -/
def Output.digest (o : Output) : String := Digest.ofText o.text

/-- What became of a request. -/
structure Compilation where
  invalidSource : Option String := none
  model : Option Model := none
  /-- In the order of the targets. -/
  outputs : List (Target × Output) := []
  /-- In the order of the targets, messages in the order in which they arose. -/
  errors : List (Target × List String) := []
  /-- The time that reading the source took, in microseconds. -/
  parseMicros : Nat := 0
  deriving Inhabited

namespace Compilation

/-- The source gave no valid model. -/
def invalid (reason : String) (parseMicros : Nat) : Compilation :=
  { invalidSource := some reason, parseMicros }

/-- A valid model for which nothing was requested. -/
def unrequested (m : Model) : Compilation := { model := some m }

/-- Enters what became of one target. -/
def enter (c : Compilation) (t : Target) : Except (List String) Output → Compilation
  | .ok o => { c with outputs := Entries.insert c.outputs t o }
  | .error messages => { c with errors := Entries.insert c.errors t messages }

/-- A valid model with what became of each requested target. -/
def ofOutcomes (m : Model) (outcomes : List (Target × Except (List String) Output)) : Compilation :=
  outcomes.foldl (fun c e => c.enter e.1 e.2) (unrequested m)

/-- The output of a target. -/
def output? (c : Compilation) (t : Target) : Option Output := Entries.get? c.outputs t

/-- Whether a target has an output. -/
def succeeded (c : Compilation) (t : Target) : Bool := (c.output? t).isSome

/-- The time that all outputs took, in microseconds. -/
def emitMicros (c : Compilation) : Nat := c.outputs.foldl (fun n e => n + e.2.micros) 0

/-- Why a target has no output; nothing if it has one. -/
def failure? (c : Compilation) (t : Target) : Option String :=
  if c.succeeded t then none
  else match Entries.get? c.errors t with
    | some messages => some ("\n".intercalate messages)
    | none =>
      match c.invalidSource with
      | some reason => some s!"invalid source: {reason}"
      | none => some s!"target '{t}' was not requested"

/-- A line for each message, with its target before it. -/
def errorsText (c : Compilation) : String :=
  String.join (c.errors.flatMap fun e => e.2.map fun message => s!"[{e.1}] {message}\n")

end Compilation

end GraphScript
