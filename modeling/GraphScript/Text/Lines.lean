/-!
# Text/Lines — splitting text into lines

A line ends at a line feed, which is not part of it; a carriage return right before that line feed
is dropped as well.  Text after the last line feed is a line when it is not empty.
-/

namespace GraphScript.Text

/-- Drops one carriage return at the end of a reversed line. -/
def dropReturn : List Char → List Char
  | '\r' :: r => r
  | r => r

/-- The lines of `cs`, where `line` holds the reversed start of the current one. -/
def linesFrom (line : List Char) : List Char → List (List Char)
  | [] => if line.isEmpty then [] else [line.reverse]
  | c :: r =>
    if c = '\n' then (dropReturn line).reverse :: linesFrom [] r else linesFrom (c :: line) r

/-- The lines of a text. -/
def lines (s : String) : List String := (linesFrom [] s.toList).map String.ofList

/-- The pieces of `cs` between separators, where `piece` holds the reversed start of the current
one. -/
def splitFrom (sep : Char) (piece : List Char) : List Char → List (List Char)
  | [] => [piece.reverse]
  | c :: r => if c = sep then piece.reverse :: splitFrom sep [] r else splitFrom sep (c :: piece) r

/-- The pieces of a text between separators, empty ones included. -/
def split (sep : Char) (s : String) : List String :=
  (splitFrom sep [] s.toList).map String.ofList

end GraphScript.Text
