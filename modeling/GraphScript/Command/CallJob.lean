import GraphScript.Argument
import GraphScript.Command.Failure
import GraphScript.Compiler
import GraphScript.Document.OutRecord
import GraphScript.Host.Client
import GraphScript.Host.Instance

/-!
# Command/CallJob — calling one entry of a model

Every out-event is given a handler that answers with the usual values of its returns.
-/

namespace GraphScript.Command

/-- Which entry of which model to call. -/
structure CallJob where
  /-- The path of the model. -/
  model : String
  entry : String
  /-- A JSON text for each parameter. -/
  args : List String := []
  owner : EntityId := ⟨1⟩
  settings : Settings := {}

/-- What a call did. -/
structure CallReport where
  results : List Datum
  outs : List OutRecord
  logs : List String
  deriving BEq, Repr

/-- A report as JSON. -/
def CallReport.toJson (r : CallReport) : Json :=
  .obj [("results", .arr (r.results.map Datum.toJson)),
    ("outs", .arr (r.outs.map OutRecord.toJson)), ("logs", .arr (r.logs.map Json.str))]

namespace CallJob

/-- The script of the model in a text. -/
def script (text : String) : Except Failure Output :=
  let c := Compiler.standard.compileJson text (TargetSet.only .lua) {}
  match c.invalidSource, c.output? .lua with
  | some reason, _ => .error (.invalidSource reason)
  | none, some o => .ok o
  | none, none => .error (.unemitted c.errorsText)

/-- The argument that a JSON text stands for. -/
def argument (p : Param) (raw : String) : Except Failure Datum :=
  match Json.Reader.decode Json.Reader.any raw with
  | .error f => .error (.argument s!"'{raw}' is not JSON: {f.message}")
  | .ok j =>
    match Datum.ofJson p.dataType j with
    | .ok d => .ok d
    | .error e => .error (.argument s!"parameter '{p.name}': {e.message}")

/-- The arguments that JSON texts stand for, one for each parameter. -/
def arguments : List Param → List String → Except Failure (List Datum)
  | p :: ps, raw :: raws => do
    let d ← argument p raw
    return d :: (← arguments ps raws)
  | _, _ => .ok []

/-- The arguments of the entry. -/
def entryArguments (e : CallJob) (o : Output) : Except Failure (List Datum) :=
  match o.interface.findIn? e.entry with
  | none => .error (.host (.unknownIn e.entry))
  | some s =>
    if s.params.length ≠ e.args.length then
      .error (.argument
        s!"'{e.entry}' takes {s.params.length} arguments, {e.args.length} given")
    else arguments s.params e.args

/-- A host object for each slot, with handles from a number on. -/
def objects (handle : UInt64) : List NodeableInput → List ObjectRef
  | [] => []
  | n :: r => ⟨n.className, handle⟩ :: objects (handle + 1) r

/-- The usual values of returns, if all have one. -/
def replies (returns : List Param) : Option (List Datum) :=
  returns.mapM fun p => Datum.default? p.dataType

/-- Gives handlers to out-events. -/
def connect (number : Nat) : List Signature → Op Unit
  | [] => return ()
  | s :: rest => do
    let answer := (replies s.returns).getD []
    let c ← Vm.createCallable fun _ => .values answer
    let mode : OutMode := if answer.isEmpty then .immediate else .result
    Instance.bindOut number s.name mode c
    connect number rest

/-- Makes an instance, calls an entry and unloads the instance. -/
def session (e : CallJob) (o : Output) (args : List Datum) : Op CallReport := do
  let number ← Instance.instantiate o e.owner (objects 1 o.runtimeInputs.nodeables)
  connect number o.interface.outs
  let results ← Instance.callIn number e.entry args
  let i := Instance.get? (← get) number
  let report : CallReport :=
    ⟨results, (i.map (·.records)).getD [], (i.map (·.logs)).getD []⟩
  Instance.unload number
  return report

/-- Calls the entry of the model in a text. -/
def callEntry (e : CallJob) (text : String) : Except Failure CallReport := do
  let o ← script text
  let args ← e.entryArguments o
  let client : Client := { settings := e.settings }
  match ((e.session o args).run.run client.machine.1).1 with
  | .ok r => .ok r
  | .error x => .error (.host x)

/-- Reads a model and calls its entry. -/
def perform {m : Type → Type} [Monad m] (e : CallJob) (d : Disk m) :
    m (Except Failure CallReport) := do
  match ← d.read e.model with
  | .error x => return .error (.read e.model x)
  | .ok text => return e.callEntry text

end CallJob

end GraphScript.Command
