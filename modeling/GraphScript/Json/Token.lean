import GraphScript.Json.Fault

/-!
# Json/Token — numbers, strings and words of a document

Each function reads one token off the front of a text and returns the rest.  Reading checks what it
stands for; skipping, for values nobody asks about, checks only its form.
-/

namespace GraphScript.Json

/-- The blanks between tokens. -/
def isBlank (c : Char) : Bool := c == ' ' || c == '\n' || c == '\t' || c == '\r'

/-- The text from its first token on. -/
def skipBlanks (cs : List Char) : List Char := cs.dropWhile isBlank

/-- Reads the rest of a word such as `null`. -/
def word : List Char → List Char → Except Fault (List Char)
  | [], cs => .ok cs
  | _ :: _, [] => .error .endInValue
  | w :: ws, c :: cs => if c = w then word ws cs else .error .expectedIdent

/-! ## Numbers -/

/-- A number as it was written: whole, or a double. -/
inductive Numeral where
  | int (i : Int)
  | float (x : Float)

/-- A number in a place for another kind of value. -/
def Numeral.found : Numeral → Found
  | .int i => .int i
  | .float x => .float x

/-- The value of a digit. -/
def digitValue (c : Char) : Nat := c.toNat - 48

/-- The greatest significand that is kept exactly. -/
def significandLimit : Nat := 0xffffffffffffffff

/-- Appends digits to a significand as long as it stays below the limit; returns how many were
taken as well. -/
def absorb (significand : Nat) : List Char → Nat × Nat
  | [] => (significand, 0)
  | d :: ds =>
    let next := significand * 10 + digitValue d
    if next > significandLimit then (significand, 0)
    else
      let (s, n) := absorb next ds
      (s, n + 1)

/-- A power of ten as a double. -/
def powerOfTen (n : Nat) : Float := Float.ofScientific 1 false n

/-- Divides by powers of ten in steps of at most `10 ^ 308`; a few steps reach zero. -/
def divideDown : Nat → Float → Nat → Float
  | 0, x, _ => x
  | fuel + 1, x, n =>
    if n ≤ 308 then x / powerOfTen n
    else if x == 0 then x
    else divideDown fuel (x / powerOfTen 308) (n - 308)

/-- The double nearest to `significand * 10 ^ exponent` up to the rounding of one product or
quotient. -/
def scale (negative : Bool) (significand : Nat) (exponent : Int) : Except Fault Float := do
  let x := Float.ofNat significand
  let y ←
    if exponent < 0 then pure (divideDown 4 x exponent.natAbs)
    else if exponent > 308 then
      if x == 0 then pure x else throw .numberOutOfRange
    else
      let y := x * powerOfTen exponent.natAbs
      if y.isInf then throw .numberOutOfRange else pure y
  return if negative then -y else y

/-- Reads an exponent, from the mark on, for a significand on the grid `10 ^ start`. -/
def exponentPart (negative : Bool) (significand : Nat) (start : Int) (cs : List Char) :
    Except Fault (Float × List Char) := do
  let (minus, cs) := match cs with
    | '+' :: r => (false, r)
    | '-' :: r => (true, r)
    | r => (false, r)
  match cs with
  | [] => throw .endInValue
  | c :: _ =>
    if !c.isDigit then throw .invalidNumber
    let ds := cs.takeWhile Char.isDigit
    let rest := cs.dropWhile Char.isDigit
    let e := ds.foldl (fun n d => n * 10 + digitValue d) 0
    if e > 0x7fffffff then
      if significand != 0 && !minus then throw .numberOutOfRange
      return (if negative then -0.0 else 0.0, rest)
    return (← scale negative significand (if minus then start - e else start + e), rest)

/-- Reads the fraction of a number, after the point. -/
def fractionPart (negative : Bool) (significand : Nat) (start : Int) (cs : List Char) :
    Except Fault (Float × List Char) := do
  let ds := cs.takeWhile Char.isDigit
  let rest := cs.dropWhile Char.isDigit
  if ds.isEmpty then throw (if rest.isEmpty then .endInValue else .invalidNumber)
  let (significand, taken) := absorb significand ds
  let exponent := start - taken
  match rest with
  | 'e' :: r => exponentPart negative significand exponent r
  | 'E' :: r => exponentPart negative significand exponent r
  | _ => return (← scale negative significand exponent, rest)

/-- Reads a number after its sign. -/
def numeral (negative : Bool) (cs : List Char) : Except Fault (Numeral × List Char) := do
  match cs with
  | [] => throw .endInValue
  | c :: after =>
    if !c.isDigit then throw .invalidNumber
    if c == '0' && (after.head?.any Char.isDigit) then throw .invalidNumber
    let ds := cs.takeWhile Char.isDigit
    let rest := cs.dropWhile Char.isDigit
    let (significand, taken) := absorb 0 ds
    let dropped := ds.length - taken
    match rest with
    | '.' :: r =>
      let (x, r) ← fractionPart negative significand dropped r
      return (.float x, r)
    | 'e' :: r | 'E' :: r =>
      let (x, r) ← exponentPart negative significand dropped r
      return (.float x, r)
    | _ =>
      if dropped > 0 then return (.float (← scale negative significand dropped), rest)
      else if !negative then return (.int significand, rest)
      else if significand == 0 || significand > 0x8000000000000000 then
        return (.float (-Float.ofNat significand), rest)
      else return (.int (-significand), rest)

/-- Skips digits; at least one is needed. -/
def skipDigits (cs : List Char) : Except Fault (List Char) :=
  if cs.head?.any Char.isDigit then .ok (cs.dropWhile Char.isDigit) else .error .invalidNumber

/-- Skips an exponent, if one is there. -/
def skipExponent : List Char → Except Fault (List Char)
  | c :: r =>
    if c == 'e' || c == 'E' then
      match r with
      | '+' :: r => skipDigits r
      | '-' :: r => skipDigits r
      | r => skipDigits r
    else .ok (c :: r)
  | [] => .ok []

/-- Skips a number after its sign. -/
def skipNumeral (cs : List Char) : Except Fault (List Char) := do
  match cs with
  | '0' :: r =>
    if r.head?.any Char.isDigit then throw .invalidNumber
    match r with
    | '.' :: r => skipExponent (← skipDigits r)
    | r => skipExponent r
  | cs =>
    match ← skipDigits cs with
    | '.' :: r => skipExponent (← skipDigits r)
    | r => skipExponent r

/-! ## Strings -/

/-- The value of a hexadecimal digit. -/
def hexValue? (c : Char) : Option Nat :=
  if c.isDigit then some (c.toNat - 48)
  else if 'a' ≤ c ∧ c ≤ 'f' then some (c.toNat - 87)
  else if 'A' ≤ c ∧ c ≤ 'F' then some (c.toNat - 55)
  else none

/-- Reads four hexadecimal digits. -/
def hexFour (cs : List Char) : Except Fault (Nat × List Char) :=
  if (cs.take 4).foldl (fun n c => n + c.utf8Size) 0 < 4 then .error .endInString
  else match (cs.take 4).mapM hexValue? with
    | some ds => .ok (ds.foldl (fun n d => n * 16 + d) 0, cs.drop 4)
    | none => .error .invalidEscape

/-- Reads a code unit and, for the first half of a surrogate pair, the other half. -/
def unicodeEscape (cs : List Char) : Except Fault (Char × List Char) := do
  let (n, cs) ← hexFour cs
  if 0xdc00 ≤ n ∧ n ≤ 0xdfff then throw .loneSurrogate
  if n < 0xd800 ∨ 0xdbff < n then return (Char.ofNat n, cs)
  match cs with
  | [] => throw .endInString
  | '\\' :: [] => throw .endInString
  | '\\' :: 'u' :: cs =>
    let (m, cs) ← hexFour cs
    if m < 0xdc00 ∨ 0xdfff < m then throw .loneSurrogate
    return (Char.ofNat (0x10000 + (n - 0xd800) * 0x400 + (m - 0xdc00)), cs)
  | _ => throw .endOfHexEscape

/-- The character a one-letter escape stands for. -/
def simpleEscape? (c : Char) : Option Char :=
  if c = '"' ∨ c = '\\' ∨ c = '/' then some c
  else if c = 'b' then some '\x08'
  else if c = 'f' then some '\x0c'
  else if c = 'n' then some '\n'
  else if c = 'r' then some '\r'
  else if c = 't' then some '\t'
  else none

/-- Reads a string after its opening quote, where `before` holds its reversed start; `fuel` bounds
its length. -/
def stringBody : Nat → List Char → List Char → Except Fault (List Char × List Char)
  | 0, _, _ => .error .endInString
  | _ + 1, _, [] => .error .endInString
  | fuel + 1, before, c :: cs =>
    if c = '"' then .ok (before.reverse, cs)
    else if c = '\\' then
      match cs with
      | [] => .error .endInString
      | 'u' :: cs =>
        match unicodeEscape cs with
        | .error e => .error e
        | .ok (e, cs) => stringBody fuel (e :: before) cs
      | e :: cs =>
        match simpleEscape? e with
        | none => .error .invalidEscape
        | some e => stringBody fuel (e :: before) cs
    else if c.toNat < 0x20 then .error .controlCharacter
    else stringBody fuel (c :: before) cs

/-- Reads a string after its opening quote. -/
def string (cs : List Char) : Except Fault (String × List Char) := do
  let (s, r) ← stringBody (cs.length + 1) [] cs
  return (String.ofList s, r)

/-- Skips a string after its opening quote; surrogates need not be paired. -/
def skipString : Nat → List Char → Except Fault (List Char)
  | 0, _ => .error .endInString
  | _ + 1, [] => .error .endInString
  | fuel + 1, c :: cs =>
    if c = '"' then .ok cs
    else if c = '\\' then
      match cs with
      | [] => .error .endInString
      | 'u' :: cs =>
        match hexFour cs with
        | .error e => .error e
        | .ok (_, cs) => skipString fuel cs
      | e :: cs => if (simpleEscape? e).isSome then skipString fuel cs else .error .invalidEscape
    else if c.toNat < 0x20 then .error .controlCharacter
    else skipString fuel cs

/-! ## Skipping whole values -/

/-- An open container. -/
inductive Bracket where
  | list
  | object
  deriving DecidableEq

/-- The character that closes a container. -/
def Bracket.close : Bracket → Char
  | .list => ']'
  | .object => '\x7d'

/-- The text ends in an open container. -/
def Bracket.ended : Bracket → Fault
  | .list => .endInList
  | .object => .endInObject

/-- Something other than a comma or the end follows a value. -/
def Bracket.unended : Bracket → Fault
  | .list => .expectedListEnd
  | .object => .expectedObjectEnd

/-- What skipping expects next. -/
inductive Expect where
  /-- A value. -/
  | value
  /-- The first item of the container just opened, or its end. -/
  | first
  /-- A comma or the end of the innermost container. -/
  | next

/-- Skips the key of a field, if the container is an object. -/
def skipKey (b : Bracket) (cs : List Char) : Except Fault (List Char) := do
  match b with
  | .list => return cs
  | .object =>
    match skipBlanks cs with
    | [] => throw .endInObject
    | '"' :: r =>
      match skipBlanks (← skipString (r.length + 1) r) with
      | [] => throw .endInObject
      | ':' :: r => return r
      | _ => throw .expectedColon
    | _ => throw .keyNotString

/-- Skips a value that is not a container, starting with `c`. -/
def skipScalar (c : Char) (cs : List Char) : Except Fault (List Char) :=
  if c = 'n' then word "ull".toList cs
  else if c = 't' then word "rue".toList cs
  else if c = 'f' then word "alse".toList cs
  else if c = '-' then skipNumeral cs
  else if c.isDigit then skipNumeral (c :: cs)
  else if c = '"' then skipString (cs.length + 1) cs
  else .error .expectedValue

/-- Skips values until every open container is closed; `fuel` bounds the number of tokens. -/
def skipLoop : Nat → Expect → List Bracket → List Char → Except Fault (List Char)
  | 0, _, _, _ => .error .endInValue
  | fuel + 1, .value, stack, cs =>
    match skipBlanks cs with
    | [] => .error .endInValue
    | '[' :: r => skipLoop fuel .first (.list :: stack) r
    | '\x7b' :: r => skipLoop fuel .first (.object :: stack) r
    | c :: r =>
      match skipScalar c r with
      | .error e => .error e
      | .ok r => skipLoop fuel .next stack r
  | _ + 1, _, [], cs => .ok cs
  | fuel + 1, .first, b :: stack, cs =>
    match skipBlanks cs with
    | [] => .error b.ended
    | c :: r =>
      if c = b.close then skipLoop fuel .next stack r
      else match skipKey b (c :: r) with
        | .error e => .error e
        | .ok r => skipLoop fuel .value (b :: stack) r
  | fuel + 1, .next, b :: stack, cs =>
    match skipBlanks cs with
    | [] => .error b.ended
    | c :: r =>
      if c = b.close then skipLoop fuel .next stack r
      else if c = ',' then
        match skipKey b r with
        | .error e => .error e
        | .ok r => skipLoop fuel .value (b :: stack) r
      else .error b.unended

/-- Skips one value. -/
def skipValue (cs : List Char) : Except Fault (List Char) :=
  skipLoop (2 * cs.length + 2) .value [] cs

end GraphScript.Json
