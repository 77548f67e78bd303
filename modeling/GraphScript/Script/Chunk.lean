import GraphScript.Script.Parser
import GraphScript.Text.Utf8

/-!
# Script/Chunk — scripts and their names

A name that starts with `=` is shown as it is, one that starts with `@` is the name of a file, and
any other is shown as the start of a text.  Shown names are short.
-/

namespace GraphScript.Script.Chunk

/-- The number of bytes that a shown name can have, and one more. -/
def shownSize : Nat := 60

/-- The bytes of a text. -/
def bytesOf (s : String) : List UInt8 := s.toUTF8.data.toList

/-- The text of bytes, which may have been cut inside a character. -/
def textOf (bytes : List UInt8) : String := Text.Utf8.lossy ⟨bytes.toArray⟩

/-- The name of a file, without its start if it is long. -/
def fileName (bytes : List UInt8) : String :=
  if bytes.length < shownSize then textOf bytes
  else textOf (bytesOf "..." ++ bytes.drop (bytes.length - (shownSize - 4)))

/-- The number of bytes of a text that are shown of it. -/
def excerptSize : Nat := 45

/-- The start of a text. -/
def excerpt (bytes : List UInt8) : String :=
  let first := bytes.takeWhile (· ≠ 10)
  if first.length = bytes.length ∧ bytes.length < excerptSize then
    s!"[string \"{textOf bytes}\"]"
  else s!"[string \"{textOf (first.take excerptSize)}...\"]"

/-- A name as positions show it. -/
def shownName (name : String) : String :=
  match bytesOf name with
  | 61 :: r => textOf (r.take (shownSize - 1))
  | 64 :: r => fileName r
  | bytes => excerpt bytes

/-- The place of the first zero character in a name, which may have none. -/
def zeroAt? (name : String) : Option Nat := (bytesOf name).findIdx? (· == 0)

/-- The statements of a script.  One that is an expression returns its values. -/
def parse (source : String) : Except SyntaxFault (List Stat) :=
  match Parser.script ("return " ++ source) with
  | .ok body => .ok body
  | .error _ => Parser.script source

/-- The wording of a fault. -/
def faultText (name : String) (f : SyntaxFault) : String :=
  s!"syntax error: {shownName name}:{f.line}: {f.reason}"

end GraphScript.Script.Chunk
