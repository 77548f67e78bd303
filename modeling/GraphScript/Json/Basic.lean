import GraphScript.Decimal.Layout

/-!
# Json/Basic — documents and their text

A JSON document keeps the order of its fields.  `compact` writes it without blanks, `pretty` over
several lines with two blanks per level.  Doubles are written with the fewest digits that read back;
one that is not finite is written as `null`.
-/

namespace GraphScript

/-- A JSON document.  Whole numbers and doubles are told apart. -/
inductive Json where
  | null
  | bool (b : Bool)
  | int (i : Int)
  | float (x : Float)
  | str (s : String)
  | arr (items : List Json)
  | obj (fields : List (String × Json))
  deriving Inhabited

namespace Json

/-- Doubles are positional from `0.00001` up to sixteen whole digits, and an exponent shows its
sign. -/
def number : Decimal.Layout where
  precision := .shortest .even
  leastPositional := some (-5)
  greatestPositional := some 15
  keepsPoint := true
  plusSign := true
  exponentWidth := 1
  nan := "null"
  infinity := "null"

/-- A double as it is written. -/
def floatText (x : Float) : List Char :=
  if x.isFinite then (number.write x).toList else "null".toList

/-- One character inside a written string. -/
def escaped (c : Char) : List Char :=
  if c = '"' then ['\\', '"']
  else if c = '\\' then ['\\', '\\']
  else if c = '\x08' then ['\\', 'b']
  else if c = '\x0c' then ['\\', 'f']
  else if c = '\n' then ['\\', 'n']
  else if c = '\r' then ['\\', 'r']
  else if c = '\t' then ['\\', 't']
  else if c.toNat < 0x20 then
    "\\u00".toList ++ [Nat.digitChar (c.toNat / 16), Nat.digitChar (c.toNat % 16)]
  else [c]

/-- A string as it is written. -/
def stringText (s : String) : List Char := '"' :: s.toList.flatMap escaped ++ ['"']

mutual

/-- A document without blanks. -/
def chars : Json → List Char
  | .null => "null".toList
  | .bool b => (if b then "true" else "false").toList
  | .int i => (toString i).toList
  | .float x => floatText x
  | .str s => stringText s
  | .arr items => '[' :: itemChars items
  | .obj fields => '\x7b' :: fieldChars fields

/-- The items of an array and its closing bracket. -/
def itemChars : List Json → List Char
  | [] => [']']
  | [v] => v.chars ++ [']']
  | v :: r => v.chars ++ ',' :: itemChars r

/-- The fields of an object and its closing brace. -/
def fieldChars : List (String × Json) → List Char
  | [] => ['\x7d']
  | [(k, v)] => stringText k ++ ':' :: v.chars ++ ['\x7d']
  | (k, v) :: r => stringText k ++ ':' :: v.chars ++ ',' :: fieldChars r

end

/-- The text of a document without blanks. -/
def compact (j : Json) : String := String.ofList j.chars

/-- A line break and the blanks of a nesting level. -/
def newline (level : Nat) : List Char := '\n' :: List.replicate (2 * level) ' '

mutual

/-- A document at a nesting level. -/
def prettyChars (level : Nat) : Json → List Char
  | .arr [] => ['[', ']']
  | .arr items => '[' :: prettyItems level items
  | .obj [] => ['\x7b', '\x7d']
  | .obj fields => '\x7b' :: prettyFields level fields
  | .null => "null".toList
  | .bool b => (if b then "true" else "false").toList
  | .int i => (toString i).toList
  | .float x => floatText x
  | .str s => stringText s

/-- The items of an array, each on a line of its own. -/
def prettyItems (level : Nat) : List Json → List Char
  | [] => []
  | v :: r =>
    newline (level + 1) ++ prettyChars (level + 1) v ++
      (if r.isEmpty then newline level ++ [']'] else ',' :: prettyItems level r)

/-- The fields of an object, each on a line of its own. -/
def prettyFields (level : Nat) : List (String × Json) → List Char
  | [] => []
  | (k, v) :: r =>
    newline (level + 1) ++ stringText k ++ ": ".toList ++ prettyChars (level + 1) v ++
      (if r.isEmpty then newline level ++ ['\x7d'] else ',' :: prettyFields level r)

end

/-- The text of a document over several lines. -/
def pretty (j : Json) : String := String.ofList (j.prettyChars 0)

/-- The value of the first field of that name. -/
def field? (j : Json) (name : String) : Option Json :=
  match j with
  | .obj fields => (fields.find? fun f => f.1 == name).map (·.2)
  | _ => none

end Json

end GraphScript
