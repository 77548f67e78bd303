/-!
# Command/Line — options on a command line

A command line is read from the left.  An option is given as `--name value`, `--name=value`,
`-n value`, `-nvalue` or `-n=value`; a value that starts with a dash needs one of the joined forms.
The first thing that is not understood ends the reading, as does a wish for help.
-/

namespace GraphScript.Command

/-- An option of a command. -/
structure OptionSpec where
  name : String
  short : Option Char := none
  /-- What its value is called; an option without one is a switch. -/
  value : Option String := none
  /-- The value that is used if none is given. -/
  usual : Option String := none
  required : Bool := false
  repeats : Bool := false
  accepts : String → Bool := fun _ => true
  note : String

/-- Why the reading of a command line ended early. -/
inductive Stop where
  | usage
  | help
  deriving DecidableEq, Repr

/-- Options that were given, with their values, in order. -/
abbrev Given := List (String × String)

namespace Line

/-- The option that every command has. -/
def help : OptionSpec := { name := "help", short := some 'h', note := "Print help" }

/-- The option of a name. -/
def named? (specs : List OptionSpec) (name : String) : Option OptionSpec :=
  (specs ++ [help]).find? fun s => s.name == name

/-- The option of a letter. -/
def lettered? (specs : List OptionSpec) (c : Char) : Option OptionSpec :=
  (specs ++ [help]).find? fun s => s.short == some c

/-- Adds an option to those given. -/
def accept (given : Given) (s : OptionSpec) (value : String) : Except Stop Given :=
  if s.name == help.name then .error .help
  else if (!s.repeats && (given.lookup s.name).isSome) || !s.accepts value then .error .usage
  else .ok (given ++ [(s.name, value)])

/-- Whether an argument can be the value of the option before it. -/
def isValue (a : String) : Bool := a == "-" || !a.startsWith "-"

/-- What an argument that starts with a letter of an option means. -/
inductive Letters where
  /-- Switches only. -/
  | switches (given : Given)
  /-- An option with its value, after switches. -/
  | joined (given : Given)
  /-- An option whose value is the next argument, after switches. -/
  | waiting (given : Given) (s : OptionSpec)

/-- Reads the letters after a dash. -/
def letters (specs : List OptionSpec) (given : Given) : List Char → Except Stop Letters
  | [] => .ok (.switches given)
  | c :: r =>
    match lettered? specs c with
    | none => .error .usage
    | some s =>
      if s.value.isNone then do
        letters specs (← accept given s "") r
      else
        match r with
        | [] => .ok (.waiting given s)
        | '=' :: v => do return .joined (← accept given s (String.ofList v))
        | v => do return .joined (← accept given s (String.ofList v))

/-- The name and the joined value of an argument after its dashes. -/
def splitJoined (cs : List Char) : String × Option String :=
  match cs.span (· ≠ '=') with
  | (name, _ :: value) => (String.ofList name, some (String.ofList value))
  | (name, []) => (String.ofList name, none)

/-- Reads arguments.  `waiting` is an option that still has no value. -/
def scan (specs : List OptionSpec) : Option OptionSpec → Given → List String → Except Stop Given
  | some _, _, [] => .error .usage
  | none, given, [] => .ok given
  | some s, given, a :: rest =>
    if isValue a then do scan specs none (← accept given s a) rest else .error .usage
  | none, given, a :: rest =>
    match a.toList with
    | ['-', '-'] => if rest.isEmpty then .ok given else .error .usage
    | '-' :: '-' :: cs =>
      let (name, joined) := splitJoined cs
      match named? specs name, joined with
      | none, _ => .error .usage
      | some s, some v =>
        if s.value.isSome then do scan specs none (← accept given s v) rest else .error .usage
      | some s, none =>
        if s.value.isSome then scan specs (some s) given rest
        else do scan specs none (← accept given s "") rest
    | '-' :: c :: cs =>
      match letters specs given (c :: cs) with
      | .error e => .error e
      | .ok (.switches given) => scan specs none given rest
      | .ok (.joined given) => scan specs none given rest
      | .ok (.waiting given s) => scan specs (some s) given rest
    | _ => .error .usage

/-- The options given, each required one among them. -/
def read (specs : List OptionSpec) (args : List String) : Except Stop Given := do
  let given ← scan specs none [] args
  if specs.all fun s => !s.required || (given.lookup s.name).isSome then .ok given
  else .error .usage

/-- The value of an option, or the usual one. -/
def valueOf? (given : Given) (s : OptionSpec) : Option String := given.lookup s.name <|> s.usual

/-- All values of an option. -/
def valuesOf (given : Given) (s : OptionSpec) : List String :=
  (given.filter fun g => g.1 == s.name).map (·.2)

/-- Whether a switch was given. -/
def isOn (given : Given) (s : OptionSpec) : Bool := (given.lookup s.name).isSome

end Line

end GraphScript.Command
