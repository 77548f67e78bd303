import GraphScript.Script.Number

/-!
# Script/Token — from text to tokens

Every token knows the line on which it ends.  Strings are byte strings: a character stands for its
bytes, an escape may stand for any byte.
-/

namespace GraphScript.Script

/-- A token. -/
inductive Token where
  | name (s : String)
  | keyword (s : String)
  | symbol (s : String)
  | number (n : Number)
  | str (bytes : ByteArray)

/-- A token as messages show it. -/
def Token.text : Token → String
  | .name s => s
  | .keyword s => s
  | .symbol s => s
  | .number n => n.text
  | .str _ => "string"

/-- A token and the line on which it ends. -/
structure Lexeme where
  token : Token
  line : Nat

/-- A text that is no script. -/
structure SyntaxFault where
  line : Nat
  reason : String
  deriving DecidableEq, Repr

namespace Token

/-- The reserved words. -/
def keywords : List String :=
  ["and", "break", "do", "else", "elseif", "end", "false", "for", "function", "goto", "if", "in",
    "local", "nil", "not", "or", "repeat", "return", "then", "true", "until", "while"]

/-- The symbols; of two that fit, the longer stands first. -/
def symbols : List String :=
  ["...", "..", "==", "~=", "<=", ">=", "//", "::", "<<", ">>", "+", "-", "*", "/", "%", "^", "#",
    "&", "~", "|", "<", ">", "=", "(", ")", "\x7b", "\x7d", "[", "]", ";", ":", ",", "."]

/-- A character that may start a name. -/
def startsName (c : Char) : Bool := c.isAlpha || c == '_'

/-- A character that may stand in a name. -/
def inName (c : Char) : Bool := c.isAlphanum || c == '_'

/-- The bytes of a character, the last first. -/
def reversedBytes (c : Char) : List UInt8 := (String.singleton c).toUTF8.data.toList.reverse

/-- The byte string of reversed bytes. -/
def ofReversed (bytes : List UInt8) : ByteArray := ⟨bytes.reverse.toArray⟩

/-- Drops a line break of one or two characters. -/
def dropBreak : List Char → Option (List Char)
  | '\r' :: '\n' :: r => some r
  | '\n' :: '\r' :: r => some r
  | '\n' :: r => some r
  | '\r' :: r => some r
  | _ => none

/-! ## Long brackets -/

/-- Reads an opening long bracket; gives its level. -/
def longOpening? : List Char → Option (Nat × List Char)
  | '[' :: r =>
    let level := (r.takeWhile (· == '=')).length
    match r.drop level with
    | '[' :: rest => some (level, rest)
    | _ => none
  | _ => none

/-- The closing long bracket of a level. -/
def longClosing (level : Nat) : List Char := ']' :: List.replicate level '=' ++ [']']

/-- Reads up to a closing long bracket; `fuel` bounds the length. -/
def longBody (level : Nat) : Nat → Nat → List UInt8 → List Char →
    Except SyntaxFault (ByteArray × Nat × List Char)
  | 0, line, _, _ => .error ⟨line, "unfinished long string"⟩
  | _ + 1, line, _, [] => .error ⟨line, "unfinished long string"⟩
  | fuel + 1, line, acc, c :: r =>
    if (longClosing level).isPrefixOf (c :: r) then
      .ok (ofReversed acc, line, (c :: r).drop (level + 2))
    else match dropBreak (c :: r) with
      | some rest => longBody level fuel (line + 1) (10 :: acc) rest
      | none => longBody level fuel line (reversedBytes c ++ acc) r

/-- Reads a long string after its opening bracket; a line break right there is dropped. -/
def longString (level line : Nat) (cs : List Char) :
    Except SyntaxFault (ByteArray × Nat × List Char) :=
  match dropBreak cs with
  | some rest => longBody level (cs.length + 1) (line + 1) [] rest
  | none => longBody level (cs.length + 1) line [] cs

/-! ## Quoted strings -/

/-- The byte of a single-character escape. -/
def escapeByte? (c : Char) : Option UInt8 :=
  match c with
  | 'a' => some 7
  | 'b' => some 8
  | 'f' => some 12
  | 'n' => some 10
  | 'r' => some 13
  | 't' => some 9
  | 'v' => some 11
  | '\\' => some 92
  | '"' => some 34
  | '\'' => some 39
  | _ => none

/-- The bytes of a code point, the last first, with up to six bytes for large ones. -/
def codeBytes (n : Nat) : List UInt8 :=
  if n < 0x80 then [UInt8.ofNat n]
  else
    let rec tails (fuel n limit : Nat) : List UInt8 :=
      match fuel with
      | 0 => []
      | fuel + 1 =>
        if n < limit then [UInt8.ofNat (256 - 2 * limit + n)]
        else UInt8.ofNat (0x80 + n % 64) :: tails fuel (n / 64) (limit / 2)
    UInt8.ofNat (0x80 + n % 64) :: tails 6 (n / 64) 32

/-- Drops blanks and line breaks after the escape that skips them; counts the breaks. -/
def skipSpace : Nat → Nat → List Char → Nat × List Char
  | 0, line, cs => (line, cs)
  | fuel + 1, line, cs =>
    match dropBreak cs with
    | some rest => skipSpace fuel (line + 1) rest
    | none =>
      match cs with
      | c :: r => if Number.isBlank c then skipSpace fuel line r else (line, c :: r)
      | [] => (line, [])

/-- What an escape stands for: its bytes, reversed, the line, and the rest. -/
def escape (line : Nat) (cs : List Char) : Except SyntaxFault (List UInt8 × Nat × List Char) :=
  match cs with
  | [] => .error ⟨line, "unfinished string"⟩
  | 'x' :: a :: b :: r =>
    match Number.hexDigit? a, Number.hexDigit? b with
    | some h, some l => .ok ([UInt8.ofNat (h * 16 + l)], line, r)
    | _, _ => .error ⟨line, "hexadecimal digit expected"⟩
  | 'z' :: r =>
    let (line, rest) := skipSpace (r.length + 1) line r
    .ok ([], line, rest)
  | 'u' :: '\x7b' :: r =>
    let ds := r.takeWhile fun c => (Number.hexDigit? c).isSome
    let n := Number.digitsValue 16 ds
    match r.drop ds.length with
    | '\x7d' :: rest =>
      if ds.isEmpty then .error ⟨line, "hexadecimal digit expected"⟩
      else if n < 0x80000000 then .ok (codeBytes n, line, rest)
      else .error ⟨line, "UTF-8 value too large"⟩
    | _ => .error ⟨line, "missing brace in escape"⟩
  | c :: r =>
    match dropBreak (c :: r) with
    | some rest => .ok ([10], line + 1, rest)
    | none =>
      if c.isDigit then
        let ds := ((c :: r).take 3).takeWhile Char.isDigit
        let n := Number.digitsValue 10 ds
        if n < 256 then .ok ([UInt8.ofNat n], line, (c :: r).drop ds.length)
        else .error ⟨line, "decimal escape too large"⟩
      else match escapeByte? c with
        | some b => .ok ([b], line, r)
        | none => .error ⟨line, "invalid escape sequence"⟩

/-- Reads a quoted string after its opening quote; `fuel` bounds the length. -/
def quotedBody (quote : Char) : Nat → Nat → List UInt8 → List Char →
    Except SyntaxFault (ByteArray × Nat × List Char)
  | 0, line, _, _ => .error ⟨line, "unfinished string"⟩
  | _ + 1, line, _, [] => .error ⟨line, "unfinished string"⟩
  | fuel + 1, line, acc, c :: r =>
    if c = quote then .ok (ofReversed acc, line, r)
    else if c = '\n' ∨ c = '\r' then .error ⟨line, "unfinished string"⟩
    else if c = '\\' then
      match escape line r with
      | .ok (bytes, line, rest) => quotedBody quote fuel line (bytes ++ acc) rest
      | .error e => .error e
    else quotedBody quote fuel line (reversedBytes c ++ acc) r

/-! ## Numbers -/

/-- Splits off the characters of a number, where `mark` starts its exponent. -/
def numeralChars (mark : Char) : List Char → List Char × List Char
  | [] => ([], [])
  | [c] => if inName c || c == '.' then ([c], []) else ([], [c])
  | c :: d :: r =>
    if c.toLower = mark then
      if d = '+' ∨ d = '-' then
        let (cs, rest) := numeralChars mark r
        (c :: d :: cs, rest)
      else
        let (cs, rest) := numeralChars mark (d :: r)
        (c :: cs, rest)
    else if (Number.hexDigit? c).isSome || c == '.' then
      let (cs, rest) := numeralChars mark (d :: r)
      (c :: cs, rest)
    else if startsName c then ([c], d :: r)
    else ([], c :: d :: r)

/-- Splits a text that starts with a number. -/
def numeral (cs : List Char) : List Char × List Char :=
  match cs with
  | '0' :: x :: r =>
    if x = 'x' ∨ x = 'X' then
      let (ds, rest) := numeralChars 'p' r
      ('0' :: x :: ds, rest)
    else numeralChars 'e' cs
  | cs => numeralChars 'e' cs

/-! ## All tokens -/

/-- The end of a comment and the line it is on, given what follows its two hyphens. -/
def comment (line : Nat) (cs : List Char) : Except SyntaxFault (Nat × List Char) :=
  match longOpening? cs with
  | some (level, rest) =>
    match longString level line rest with
    | .ok (_, line, rest) => .ok (line, rest)
    | .error e => .error e
  | none => .ok (line, cs.dropWhile fun c => c ≠ '\n' ∧ c ≠ '\r')

/-- What stands at the front of a text: a token, something to skip, or the end. -/
inductive Front where
  | done
  | skip (line : Nat) (rest : List Char)
  | token (t : Token) (line : Nat) (rest : List Char)

/-- A string token as a front. -/
def stringFront : Except SyntaxFault (ByteArray × Nat × List Char) → Except SyntaxFault Front
  | .ok (bytes, line, rest) => .ok (.token (.str bytes) line rest)
  | .error e => .error e

/-- A symbol at the front of a text. -/
def symbolFront (line : Nat) (cs : List Char) : Except SyntaxFault Front :=
  match symbols.find? fun s => s.toList.isPrefixOf cs with
  | some s => .ok (.token (.symbol s) line (cs.drop s.length))
  | none => .error ⟨line, "unexpected character"⟩

/-- A name or reserved word at the front of a text. -/
def wordFront (line : Nat) (cs : List Char) : Front :=
  let word := String.ofList (cs.takeWhile inName)
  let rest := cs.dropWhile inName
  if keywords.contains word then .token (.keyword word) line rest else .token (.name word) line rest

/-- A number at the front of a text. -/
def numberFront (line : Nat) (cs : List Char) : Except SyntaxFault Front :=
  let (ds, rest) := numeral cs
  match Number.ofText? ds with
  | some n => .ok (.token (.number n) line rest)
  | none => .error ⟨line, "malformed number"⟩

/-- Looks at the front of a text. -/
def front (line : Nat) (cs : List Char) : Except SyntaxFault Front :=
  match cs with
  | [] => .ok .done
  | c :: r =>
    match dropBreak (c :: r) with
    | some rest => .ok (.skip (line + 1) rest)
    | none =>
      if Number.isBlank c then .ok (.skip line r)
      else if startsName c then .ok (wordFront line (c :: r))
      else if c.isDigit then numberFront line (c :: r)
      else if c = '"' ∨ c = '\'' then stringFront (quotedBody c (r.length + 1) line [] r)
      else match c, r with
        | '-', '-' :: rest =>
          match comment line rest with
          | .ok (line, rest) => .ok (.skip line rest)
          | .error e => .error e
        | '.', d :: _ => if d.isDigit then numberFront line (c :: r) else symbolFront line (c :: r)
        | '[', _ =>
          match longOpening? (c :: r) with
          | some (level, rest) => stringFront (longString level line rest)
          | none => symbolFront line (c :: r)
        | _, _ => symbolFront line (c :: r)

/-- The tokens of a text from a line on; `fuel` bounds its length. -/
def scanFrom : Nat → Nat → List Char → Except SyntaxFault (List Lexeme)
  | 0, _, _ => .ok []
  | fuel + 1, line, cs =>
    match front line cs with
    | .error e => .error e
    | .ok .done => .ok []
    | .ok (.skip line rest) => scanFrom fuel line rest
    | .ok (.token t line rest) =>
      match scanFrom fuel line rest with
      | .ok ts => .ok (⟨t, line⟩ :: ts)
      | .error e => .error e

/-- The tokens of a text. -/
def scan (s : String) : Except SyntaxFault (List Lexeme) :=
  let cs := s.toList
  scanFrom (cs.length + 1) 1 cs

end Token

end GraphScript.Script
