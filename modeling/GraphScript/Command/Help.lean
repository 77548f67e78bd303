import GraphScript.Command.Line

/-!
# Command/Help — describing commands

Options stand in two columns.  If a note would not fit beside a wide first column, every note stands
below its option.
-/

namespace GraphScript.Command.Help

/-- The number of columns that help is laid out for. -/
def width : Nat := 100

/-- An option with its value. -/
def title (s : OptionSpec) : String :=
  match s.value with
  | some v => s!"--{s.name} <{v}>"
  | none => s!"--{s.name}"

/-- The note on an option, with the usual value. -/
def note (s : OptionSpec) : String :=
  match s.usual with
  | some v => s!"{s.note} [default: {v}]"
  | none => s.note

/-- The letter of an option, or blanks. -/
def letter (s : OptionSpec) : String :=
  match s.short with
  | some c => s!"-{c}, "
  | none => "    "

/-- As many blanks. -/
def blanks (n : Nat) : String := "".pushn ' ' n

/-- The width of the widest text. -/
def widest (texts : List String) : Nat := (texts.map (·.length)).foldl max 0

/-- Whether the notes stand below their options. -/
def isStacked (specs : List OptionSpec) : Bool :=
  let taken := widest (specs.map title) + 12
  taken ≤ width && width * 2 < taken * 5 && specs.any fun s => width - taken < (note s).length

/-- The lines on options. -/
def optionLines (specs : List OptionSpec) : List String :=
  let column := widest (specs.map title)
  specs.map fun s =>
    let gap := if isStacked specs then "\n" ++ blanks 10
      else blanks (column - (title s).length + 2)
    "  " ++ letter s ++ title s ++ gap ++ note s

/-- A command: its name, what it is for, and its options. -/
structure Page where
  name : String
  about : String
  specs : List OptionSpec

/-- The help on a command of a program. -/
def command (program : String) (p : Page) : String :=
  let needed := String.join ((p.specs.filter (·.required)).map fun s => " " ++ title s)
  let lines := optionLines (p.specs ++ [Line.help])
  let usage := s!"Usage: {program} {p.name} [OPTIONS]{needed}"
  "\n".intercalate ([p.about, "", usage, "", "Options:"] ++ lines) ++ "\n"

/-- The help on a program. -/
def program (name about : String) (pages : List Page) : String :=
  let listed := pages.map (fun p => (p.name, p.about)) ++
    [("help", "Print this message or the help of the given subcommand(s)")]
  let column := widest (listed.map (·.1))
  let lines := listed.map fun l => "  " ++ l.1 ++ blanks (column - l.1.length + 2) ++ l.2
  "\n".intercalate ([about, "", s!"Usage: {name} <COMMAND>", "", "Commands:"] ++ lines ++
    ["", "Options:"] ++ optionLines [Line.help]) ++ "\n"

end GraphScript.Command.Help
