import GraphScript.Command.CallJob
import GraphScript.Command.EmitJob
import GraphScript.Command.Help

/-!
# Command/Program — the commands of the program

One command emits a model for some targets; another calls an entry of a model.
-/

namespace GraphScript.Command

/-- What a command line asks for. -/
inductive Request where
  | emit (e : EmitJob)
  /-- A call, with the choices that come before those of the environment. -/
  | call (e : CallJob) (own : Layer)
  | help (text : String)

/-- What a program leaves when it ends. -/
structure Ending where
  exitCode : Nat
  stdout : String := ""
  stderr : String := ""
  deriving DecidableEq, Repr

namespace Program

/-! ## Options -/

/-- Whether a value can be the path of a file. -/
def isPath (s : String) : Bool := !s.isEmpty

/-- Whether a value is a number of 64 bits. -/
def isWord (s : String) : Bool := (Text.numeral 64 s).isOk

/-- The path of the model. -/
def modelSpec : OptionSpec :=
  { name := "model", short := some 'm', value := some "MODEL", required := true, accepts := isPath
    note := "Path to the model JSON file" }

/-- The targets to emit for. -/
def targetsSpec : OptionSpec :=
  { name := "targets", short := some 't', value := some "TARGETS", usual := some "lua,cpp,hpp"
    accepts := fun s => (TargetSet.ofNames s).isOk
    note := "Comma-separated targets: lua, cpp, hpp" }

/-- The directory to write to. -/
def outSpec : OptionSpec :=
  { name := "out", short := some 'o', value := some "OUT", usual := some "./build"
    accepts := isPath, note := "Output directory" }

/-- Whether statements are preceded by the nodes they come from. -/
def commentsSpec : OptionSpec :=
  { name := "node-comments"
    note := "Emit a comment with the originating node above each statement" }

/-- Whether targets are emitted at the same time. -/
def parallelSpec : OptionSpec := { name := "parallel", note := "Run translators concurrently" }

/-- The entry to call. -/
def entrySpec : OptionSpec :=
  { name := "entry", short := some 'e', value := some "ENTRY", required := true
    note := "Name of the In function to call" }

/-- An argument for the entry. -/
def argSpec : OptionSpec :=
  { name := "arg", short := some 'a', value := some "ARGS", repeats := true
    note := "JSON value for the next parameter; repeat per parameter" }

/-- The build to run under. -/
def modeSpec : OptionSpec :=
  { name := "mode", value := some "MODE", accepts := fun s => (Build.ofName s).isOk
    note := "Build configuration: debug, performance, release" }

/-- The instruction limit of a call. -/
def limitSpec : OptionSpec :=
  { name := "instruction-limit", value := some "INSTRUCTION_LIMIT", accepts := isWord
    note := "Maximum VM instructions per call" }

/-- The owner of the instance. -/
def ownerSpec : OptionSpec :=
  { name := "owner", value := some "OWNER", usual := some "1", accepts := isWord
    note := "Entity id of the instance owner" }

/-! ## Commands -/

/-- The command that emits. -/
def emitPage : Help.Page where
  name := "translate"
  about := "Translate a model to one or more targets"
  specs := [modelSpec, targetsSpec, outSpec, commentsSpec, parallelSpec]

/-- The command that calls an entry. -/
def callPage : Help.Page where
  name := "run"
  about := "Run an In function of a model in the script VM"
  specs := [modelSpec, entrySpec, argSpec, modeSpec, limitSpec, ownerSpec]

/-- The name of the program. -/
def name : String := "canvasc"

/-- The help on the program. -/
def overview : String :=
  Help.program name "Translate and run graph models" [emitPage, callPage]

/-- A number of 64 bits that was accepted. -/
def word (s : String) : UInt64 := UInt64.ofNat ((Text.numeral 64 s).toOption.getD 0)

/-- The emitting that options ask for. -/
def emitJob (given : Given) : EmitJob :=
  let value (s : OptionSpec) : String := (Line.valueOf? given s).getD ""
  { model := value modelSpec
    targets := ((TargetSet.ofNames (value targetsSpec)).toOption).getD .all
    out := value outSpec
    options := {
      nodeComments := Line.isOn given commentsSpec
      parallel := Line.isOn given parallelSpec } }

/-- The call that options ask for. -/
def callJob (given : Given) : CallJob :=
  let value (s : OptionSpec) : String := (Line.valueOf? given s).getD ""
  { model := value modelSpec
    entry := value entrySpec
    args := Line.valuesOf given argSpec
    owner := ⟨word (value ownerSpec)⟩ }

/-- The choices that options make. -/
def choices (given : Given) : Layer where
  build := (Line.valueOf? given modeSpec).bind fun s => (Build.ofName s).toOption
  instructionLimit := (Line.valueOf? given limitSpec).map word

/-- Reads the options of a command. -/
def options (p : Help.Page) (request : Given → Request) (args : List String) :
    Except Stop Request :=
  match Line.read p.specs args with
  | .ok given => .ok (request given)
  | .error .help => .ok (.help (Help.command name p))
  | .error .usage => .error .usage

/-- Reads a command line. -/
def request (args : List String) : Except Stop Request :=
  match args with
  | "translate" :: rest => options emitPage (fun g => .emit (emitJob g)) rest
  | "run" :: rest => options callPage (fun g => .call (callJob g) (choices g)) rest
  | ["help", "translate"] => .ok (.help (Help.command name emitPage))
  | ["help", "run"] => .ok (.help (Help.command name callPage))
  | ["help"] => .ok (.help overview)
  | args =>
    match Line.scan [] none [] args with
    | .error .help => .ok (.help overview)
    | _ => .error .usage

/-! ## Carrying out -/

variable {m : Type → Type} [Monad m]

/-- How a program ends after a failure. -/
def failed (f : Failure) : Ending :=
  { exitCode := f.exitCode, stderr := s!"Error: {f.message}\n" }

/-- How a program ends after emitting. -/
def emitted (r : EmitReport) : Ending where
  exitCode := r.exitCode
  stdout := String.join (r.written.map fun path => s!"wrote {path}\n")
  stderr := r.result.errorsText

/-- How a program ends after a call. -/
def called (r : CallReport) : Ending := { exitCode := 0, stdout := r.toJson.pretty ++ "\n" }

/-- Carries out what was asked for. -/
def perform (d : Disk m) (environment : String → Option String) : Request → m Ending
  | .help text => return { exitCode := 0, stdout := text }
  | .emit e => do
    match ← e.perform d with
    | .ok r => return emitted r
    | .error f => return failed f
  | .call e own => do
    match Layer.ofEnvironment environment with
    | .error x => return failed (.environment x)
    | .ok layer =>
      match ← { e with settings := ⟨own, [layer]⟩ }.perform d with
      | .ok r => return called r
      | .error f => return failed f

end Program

end GraphScript.Command
