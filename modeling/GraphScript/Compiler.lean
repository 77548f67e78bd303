import GraphScript.Compilation
import GraphScript.Document.Model
import GraphScript.Emit.Header
import GraphScript.Emit.Script
import GraphScript.Emit.Source

/-!
# Compiler — from a model to the outputs of its targets

A compiler is a table of emitters, one for each target it knows.  A request is checked once; then
every requested target is emitted on its own, so that a failure stays with its target.  Targets are
emitted one after the other or, if the options allow it, by workers side by side, which may finish in
any order.

An emitter is known by what it emits.  How an emission becomes an output, with the target's name and
the interface of the request, is the same for all of them (`Emitter.outcome`): an emitter that puts
its own output together in some other way is outside the scope of this module.
-/

namespace GraphScript

/-- What running an emitter comes to. -/
inductive Emitted where
  | done (e : Emission)
  | refused (reasons : List EmitError)
  /-- The emitter broke down, possibly with a text. -/
  | crashed (reason : Option String)

/-- Something that emits text for a target.  `run` is all that sets one apart from another; none
replaces the way its emission is made an output. -/
structure Emitter where
  target : Target
  run : Model → Interface → Options → Emitted

namespace Emitter

/-- An emitter that either succeeds or gives its reasons. -/
def ofExcept (target : Target) (f : Model → Options → Except (List EmitError) Emission) :
    Emitter where
  target
  run m _ o := match f m o with
    | .ok e => .done e
    | .error reasons => .refused reasons

/-- Emits interpreted script. -/
def script : Emitter := ofExcept .lua Emit.Script.emit

/-- Emits native source. -/
def source : Emitter := ofExcept .cpp Emit.Source.emit

/-- Emits the native header. -/
def header : Emitter := ofExcept .hpp Emit.Header.emit

/-- What an emitter makes of a model: an output, or messages. -/
def outcome (e : Emitter) (m : Model) (i : Interface) (o : Options) : Except (List String) Output :=
  match e.run m i o with
  | .done d =>
    .ok { target := e.target, text := d.text, interface := i, runtimeInputs := d.runtimeInputs,
          debugMap := d.debugMap }
  | .refused reasons => .error (reasons.map EmitError.message)
  | .crashed reason => .error [(EmitError.crashed (reason.getD "non-text panic payload")).message]

end Emitter

/-- A worker that emits a target, with what came of the target once it is done. -/
structure Worker where
  target : Target
  result : Option (Except (List String) Output) := none

namespace Worker

variable (run : Target → Except (List String) Output)

/-- A worker that has been started. -/
def start (t : Target) : Worker := { target := t }

/-- Lets a worker finish, if it is the one for that target. -/
def finish (t : Target) (w : Worker) : Worker :=
  if w.target = t then { w with result := some (run t) } else w

/-- Waits until a worker is done. -/
def join (w : Worker) : Target × Except (List String) Output :=
  (w.target, w.result.getD (run w.target))

/-- Starts a worker for every target, lets them finish in the order of a schedule, and waits for each
in the order in which they were started. -/
def sideBySide (schedule ts : List Target) : List (Target × Except (List String) Output) :=
  (schedule.foldl (fun ws t => ws.map (finish run t)) (ts.map start)).map (join run)

end Worker

/-- Emitters by their targets, in the order of the targets. -/
structure Compiler where
  emitters : List (Target × Emitter) := []

namespace Compiler

/-- A compiler that knows no target. -/
def empty : Compiler := {}

/-- Whether a target is known. -/
def supports (c : Compiler) (t : Target) : Bool := Entries.contains c.emitters t

/-- Lets an emitter serve its target, in place of the one that did before. -/
def register (c : Compiler) (e : Emitter) : Compiler :=
  ⟨Entries.insert c.emitters e.target e⟩

/-- A compiler that knows every target. -/
def standard : Compiler :=
  ((empty.register .script).register .source).register .header

/-- The known targets in order. -/
def targets (c : Compiler) : List Target := c.emitters.map (·.1)

/-- The compiler described. -/
def describe (c : Compiler) : String :=
  "Compiler \x7b targets: [" ++ ", ".intercalate (c.targets.map Target.formName) ++ "] \x7d"

/-- What becomes of one target. -/
def emit (c : Compiler) (m : Model) (i : Interface) (o : Options) (t : Target) :
    Except (List String) Output :=
  match Entries.get? c.emitters t with
  | none => .error [(EmitError.noEmitter t.name).message]
  | some e => e.outcome m i o

/-- What becomes of targets; workers finish in the order of the schedule. -/
def outcomes (c : Compiler) (schedule : List Target) (m : Model) (o : Options) (ts : List Target) :
    List (Target × Except (List String) Output) :=
  let run := c.emit m (Interface.ofModel m) o
  if o.parallel && decide (1 < ts.length) then Worker.sideBySide run schedule ts
  else ts.map fun t => (t, run t)

/-- Compiles a model that is known to be valid. -/
def compileValid (c : Compiler) (schedule : List Target) (m : Model) (targets : TargetSet)
    (o : Options) : Compilation :=
  .ofOutcomes m (c.outcomes schedule m o targets.toList)

/-- Compiles a model, if there is one and it is valid; workers finish in the order of the
schedule. -/
def compileUnder (c : Compiler) (schedule : List Target) (m? : Option Model) (targets : TargetSet)
    (o : Options) : Compilation :=
  match m? with
  | none => .invalid "no model supplied" 0
  | some m =>
    match m.problems with
    | [] => c.compileValid schedule m targets o
    | ps => .invalid (Model.problemText ps) 0

/-- Compiles a model, if there is one and it is valid. -/
def compile (c : Compiler) (m? : Option Model) (targets : TargetSet) (o : Options) : Compilation :=
  c.compileUnder [] m? targets o

/-- Compiles the model in a text. -/
def compileJson (c : Compiler) (text : String) (targets : TargetSet) (o : Options) : Compilation :=
  match Model.ofJson text with
  | .ok m => c.compileValid [] m targets o
  | .error e => .invalid e.message 0

end Compiler

end GraphScript
