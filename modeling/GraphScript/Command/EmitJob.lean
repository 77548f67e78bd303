import GraphScript.Command.Failure
import GraphScript.Compiler
import GraphScript.Document.Output

/-!
# Command/EmitJob — writing what is emitted to files

For every target that was emitted there are two files: the text, and a description of it.  Targets
that failed leave no files and do not keep the others from theirs.
-/

namespace GraphScript.Command

/-- What to emit, and where to. -/
structure EmitJob where
  /-- The path of the model. -/
  model : String
  targets : TargetSet := .all
  /-- The directory to write to. -/
  out : String := "./build"
  options : Options := {}

/-- What emitting did. -/
structure EmitReport where
  /-- The paths of the files, in the order they were written. -/
  written : List String
  result : Compilation

/-- The code that a program ends with after emitting. -/
def EmitReport.exitCode (r : EmitReport) : Nat := if r.result.errors.isEmpty then 0 else 1

namespace EmitJob

variable {m : Type → Type} [Monad m]

/-- The files for one target. -/
def filesOf (out stem : String) (o : Output) : List (String × String) :=
  [(Disk.join out s!"{stem}.{o.target.extension}", o.text),
    (Disk.join out s!"{stem}.{o.target}.meta.json", o.toJson.pretty)]

/-- The files for everything that was emitted of a model. -/
def files (out : String) (model : Model) (c : Compilation) : List (String × String) :=
  c.outputs.flatMap fun e => filesOf out (cleanName model.name) e.2

/-- Writes files, up to the first that cannot be written. -/
def writeAll (d : Disk m) : List (String × String) → m (Except Failure Unit)
  | [] => return .ok ()
  | (path, text) :: rest => do
    match ← d.write path text with
    | .ok () => writeAll d rest
    | .error e => return .error (.write path e)

/-- Compiles the model in a text. -/
def compile (e : EmitJob) (text : String) : Except Failure (Model × Compilation) :=
  let c := Compiler.standard.compileJson text e.targets e.options
  match c.invalidSource, c.model with
  | some reason, _ => .error (.invalidSource reason)
  | none, none => .error (.invalidSource "no model produced")
  | none, some model => .ok (model, c)

/-- Reads a model, compiles it and writes what was emitted. -/
def perform (e : EmitJob) (d : Disk m) : m (Except Failure EmitReport) := do
  match ← d.read e.model with
  | .error x => return .error (.read e.model x)
  | .ok text =>
    match e.compile text with
    | .error x => return .error x
    | .ok (model, c) =>
      match ← d.makeDirectories e.out with
      | .error x => return .error (.write e.out x)
      | .ok () =>
        let fs := files e.out model c
        match ← writeAll d fs with
        | .error x => return .error x
        | .ok () => return .ok ⟨fs.map (·.1), c⟩

end EmitJob

end GraphScript.Command
