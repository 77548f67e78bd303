import GraphScript.DebugMap

/-!
# Code — lines of emitted text

Emitted text is a list of lines, each at a level of indentation and possibly with its origin.  The
text and the debug map are both read off that list, so a recorded line number is the place of a
line.
-/

namespace GraphScript

/-- A line of emitted text. -/
structure Line where
  level : Nat
  text : String
  symbol : Option DebugSymbol := none
  deriving DecidableEq, Inhabited, Repr

namespace Line

/-- The line with its indentation and its end; an empty line is not indented. -/
def render (width : Nat) (l : Line) : String :=
  if l.text.isEmpty then "\n"
  else String.ofList (List.replicate (l.level * width) ' ') ++ l.text ++ "\n"

/-- An empty line. -/
def blank : Line := ⟨0, "", none⟩

/-- Gives the first line an origin. -/
def mark (s : DebugSymbol) : List Line → List Line
  | [] => []
  | l :: r => { l with symbol := some s } :: r

end Line

namespace Code

/-- The text of lines. -/
def text (width : Nat) (lines : List Line) : String := String.join (lines.map (Line.render width))

/-- The origins of lines numbered from `n` on. -/
def symbolsFrom (n : Nat) : List Line → List (Nat × DebugSymbol)
  | [] => []
  | l :: r =>
    match l.symbol with
    | some s => (n, s) :: symbolsFrom (n + 1) r
    | none => symbolsFrom (n + 1) r

/-- The debug map of lines. -/
def debugMap (lines : List Line) : DebugMap := ⟨symbolsFrom 1 lines⟩

/-- Lines being written one by one, and the level of the next. -/
structure Writer where
  level : Nat := 0
  lines : List Line := []
  deriving Inhabited

namespace Writer

/-- The number of the next line. -/
def nextLine (w : Writer) : Nat := w.lines.length + 1

/-- Writes a line. -/
def line (w : Writer) (text : String) : Writer :=
  { w with lines := w.lines ++ [⟨w.level, text, none⟩] }

/-- Writes an empty line. -/
def blank (w : Writer) : Writer := w.line ""

/-- Goes one level in. -/
def indent (w : Writer) : Writer := { w with level := w.level + 1 }

/-- Goes one level out, if there is one. -/
def dedent (w : Writer) : Writer := { w with level := w.level - 1 }

end Writer

end Code

end GraphScript
