import GraphScript.Build
import GraphScript.Text.Numeral

/-!
# Settings — layers of choices for running scripts

A layer leaves open what it does not choose.  What the first layer leaves open is taken from the
next that chooses it, and in the end from the usual values.
-/

namespace GraphScript

open Json (Reader)

/-- Choices, any of which may be left open. -/
structure Layer where
  build : Option Build := none
  /-- The number of instructions that one call may run. -/
  instructionLimit : Option UInt64 := none
  /-- The number of instructions between two looks at the limit. -/
  hookInterval : Option UInt32 := none
  deriving DecidableEq, Inhabited, Repr

namespace Layer

/-- A value that may be missing. -/
def optionToJson {α : Type} (value : α → Json) : Option α → Json
  | none => .null
  | some a => value a

/-- A layer as JSON. -/
def toJson (l : Layer) : Json :=
  .obj [("build", optionToJson (fun b => .str b.name) l.build),
    ("instruction_limit", optionToJson (fun n => .int n.toNat) l.instructionLimit),
    ("hook_interval", optionToJson (fun n => .int n.toNat) l.hookInterval)]

/-- A layer being read. -/
structure Draft where
  build : Option (Option Build) := none
  instructionLimit : Option (Option UInt64) := none
  hookInterval : Option (Option UInt32) := none

/-- The form of a layer. -/
def shape : Reader.Shape Draft Layer where
  title := "struct ExecutionConfig"
  start := {}
  fields := [
    Reader.optional "build" (Reader.option Build.reader) (·.build)
      (fun v d => { d with build := some v }),
    Reader.optional "instruction_limit"
      (Reader.option (do return UInt64.ofNat (← Reader.unsigned "u64" 64))) (·.instructionLimit)
      (fun v d => { d with instructionLimit := some v }),
    Reader.optional "hook_interval"
      (Reader.option (do return UInt32.ofNat (← Reader.unsigned "u32" 32))) (·.hookInterval)
      (fun v d => { d with hookInterval := some v })]
  build d := .ok {
    build := d.build.getD none
    instructionLimit := d.instructionLimit.getD none
    hookInterval := d.hookInterval.getD none }

/-- Reads a layer. -/
def reader : Reader Layer := Reader.record shape

/-- The environment variable that chooses the build. -/
def buildName : String := "CANVASC_BUILD"

/-- The environment variable that chooses the instruction limit. -/
def limitName : String := "CANVASC_INSTRUCTION_LIMIT"

/-- An environment variable with a value that cannot be used. -/
structure BadVariable where
  name : String
  reason : String
  deriving DecidableEq, Repr

/-- The wording of a failure. -/
def BadVariable.message (e : BadVariable) : String := s!"invalid value for {e.name}: {e.reason}"

/-- The build that an environment chooses. -/
def buildFrom (lookup : String → Option String) : Except BadVariable (Option Build) :=
  match lookup buildName with
  | none => .ok none
  | some raw =>
    match Build.ofName raw with
    | .ok b => .ok (some b)
    | .error u => .error ⟨buildName, u.message⟩

/-- The limit that an environment chooses. -/
def limitFrom (lookup : String → Option String) : Except BadVariable (Option UInt64) :=
  match lookup limitName with
  | none => .ok none
  | some raw =>
    match Text.numeral 64 (Text.trim raw) with
    | .ok n => .ok (some (UInt64.ofNat n))
    | .error f => .error ⟨limitName, f.message⟩

/-- The layer that an environment describes. -/
def ofEnvironment (lookup : String → Option String) : Except BadVariable Layer := do
  let build ← buildFrom lookup
  let instructionLimit ← limitFrom lookup
  return { build, instructionLimit }

/-- The layer with whatever another layer chooses. -/
def overriddenBy (l top : Layer) : Layer where
  build := top.build <|> l.build
  instructionLimit := top.instructionLimit <|> l.instructionLimit
  hookInterval := top.hookInterval <|> l.hookInterval

end Layer

/-- A layer and those it falls back to, the closest first. -/
structure Settings where
  own : Layer := {}
  parents : List Layer := []
  deriving DecidableEq, Inhabited, Repr

namespace Settings

/-- The number of instructions between two looks at the limit, unless chosen. -/
def usualHookInterval : UInt32 := 1000

/-- All layers, the closest first. -/
def layers (s : Settings) : List Layer := s.own :: s.parents

/-- The chosen build. -/
def build (s : Settings) : Build := (s.layers.findSome? (·.build)).getD .debug

/-- The chosen instruction limit. -/
def instructionLimit (s : Settings) : Option UInt64 := s.layers.findSome? (·.instructionLimit)

/-- The chosen interval. -/
def hookInterval (s : Settings) : UInt32 :=
  (s.layers.findSome? (·.hookInterval)).getD usualHookInterval

/-- An empty layer before all others. -/
def under (layers : List Layer) : Settings := ⟨{}, layers⟩

/-- A value that may be missing, described. -/
def describeOption {α : Type} (value : α → String) : Option α → String
  | none => "None"
  | some a => s!"Some({value a})"

/-- Layers described, each inside the one before it. -/
def describeLayers : List Layer → String
  | [] => "None"
  | l :: r =>
    let build := describeOption Build.formName l.build
    let limit := describeOption (fun n => toString n.toNat) l.instructionLimit
    let interval := describeOption (fun n => toString n.toNat) l.hookInterval
    let parent := if r.isEmpty then describeLayers r else s!"Some({describeLayers r})"
    "ExecutionConfig \x7b " ++ s!"build: {build}, instruction_limit: {limit}, " ++
      s!"hook_interval: {interval}, parent: {parent}" ++ " \x7d"

/-- The settings described. -/
def describe (s : Settings) : String := describeLayers s.layers

end Settings

end GraphScript
