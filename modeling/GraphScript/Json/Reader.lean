import GraphScript.Entries
import GraphScript.Json.Token

/-!
# Json/Reader — reading typed values off a text

A reader takes a value of its type off the front of a text.  It works in one pass, so of several
faults the first in the text is reported.  Arrays and objects nested more than a fixed number of
levels deep are refused.

A record may be written as an object, whose unknown fields are skipped, or as the array of its
fields.  A variant without content may be written as its name or as an object with the name as key
and `null` as value; a variant with content is such an object.
-/

namespace GraphScript.Json

/-- A reader of `α`: it knows how many levels may still be opened, and what text is left. -/
abbrev Reader (α : Type) := ReaderT Nat (StateT (List Char) (Except Fault)) α

/-- The number of levels at which reading stops. -/
def levelLimit : Nat := 128

namespace Reader

/-- Lifts a function that reads a token. -/
def token {α : Type} (f : List Char → Except Fault (α × List Char)) : Reader α := do
  match f (← get) with
  | .ok (a, rest) => set rest; return a
  | .error e => throw e

/-- Lifts a function that skips a token. -/
def skipping (f : List Char → Except Fault (List Char)) : Reader Unit := do
  match f (← get) with
  | .ok rest => set rest
  | .error e => throw e

/-- The next character after blanks, which are dropped. -/
def peek : Reader (Option Char) := do
  let cs := skipBlanks (← get)
  set cs
  return cs.head?

/-- Drops the next character. -/
def advance : Reader Unit := modify (·.drop 1)

/-- Runs a reader one level deeper. -/
def deeper {α : Type} (r : Reader α) : Reader α := fun levels =>
  if levels ≤ 1 then throw .tooDeep else r (levels - 1)

/-- Fails at a value of the wrong type, or at a fault inside it. -/
def wrongType {α : Type} (expected : String) : Reader α := do
  match ← peek with
  | none => throw .endInValue
  | some c =>
    if c = 'n' then
      advance; skipping (word "ull".toList); throw (.wrongType .null expected)
    else if c = 't' then
      advance; skipping (word "rue".toList); throw (.wrongType (.bool true) expected)
    else if c = 'f' then
      advance; skipping (word "alse".toList); throw (.wrongType (.bool false) expected)
    else if c = '-' then
      advance; throw (.wrongType (← token (numeral true)).found expected)
    else if c.isDigit then
      throw (.wrongType (← token (numeral false)).found expected)
    else if c = '"' then
      advance; throw (.wrongType (.str (← token string)) expected)
    else if c = '[' then throw (.wrongType .sequence expected)
    else if c = '\x7b' then throw (.wrongType .map expected)
    else throw .expectedValue

/-! ## Scalars -/

/-- A string. -/
def text (expected : String) : Reader String := do
  match ← peek with
  | some '"' => advance; token string
  | _ => wrongType expected

/-- A string. -/
def str : Reader String := text "a string"

/-- A truth value. -/
def bool : Reader Bool := do
  match ← peek with
  | some 't' => advance; skipping (word "rue".toList); return true
  | some 'f' => advance; skipping (word "alse".toList); return false
  | _ => wrongType "a boolean"

/-- The value `null`. -/
def unit : Reader Unit := do
  match ← peek with
  | some 'n' => advance; skipping (word "ull".toList)
  | _ => wrongType "unit"

/-- `null`, or a value. -/
def option {α : Type} (r : Reader α) : Reader (Option α) := do
  match ← peek with
  | some 'n' => advance; skipping (word "ull".toList); return none
  | _ => return some (← r)

/-- A number. -/
def numeralOf (expected : String) : Reader Numeral := do
  match ← peek with
  | some '-' => advance; token (numeral true)
  | some c => if c.isDigit then token (numeral false) else wrongType expected
  | none => wrongType expected

/-- A whole number between two bounds. -/
def integer (expected : String) (least greatest : Int) : Reader Int := do
  match ← numeralOf expected with
  | .int i =>
    if least ≤ i ∧ i ≤ greatest then return i else throw (.wrongValue (.int i) expected)
  | .float x => throw (.wrongType (.float x) expected)

/-- A natural number below `2 ^ bits`. -/
def unsigned (expected : String) (bits : Nat) : Reader Nat := do
  return (← integer expected 0 (Nat.pow 2 bits - 1 : Nat)).toNat

/-- A double. -/
def float : Reader Float := do
  match ← numeralOf "f64" with
  | .int i => return Float.ofInt i
  | .float x => return x

/-! ## Arrays -/

/-- The next element of an open array, or `none` before its end. -/
def element? {α : Type} (isFirst : Bool) (r : Reader α) : Reader (Option α) := do
  match ← peek with
  | none => throw .endInList
  | some c =>
    if c = ']' then return none
    if !isFirst then
      if c ≠ ',' then throw .expectedListEnd
      advance
      match ← peek with
      | none => throw .endInValue
      | some c => if c = ']' then throw .trailingComma
    return some (← r)

/-- The end of an array. -/
def endArray : Reader Unit := do
  match ← peek with
  | none => throw .endInList
  | some ']' => advance
  | some ',' =>
    advance
    match ← peek with
    | some ']' => throw .trailingComma
    | _ => throw .trailingCharacters
  | some _ => throw .trailingCharacters

/-- The elements of an open array up to its end; `fuel` bounds their number. -/
def elements {α : Type} (r : Reader α) : Nat → Bool → Reader (List α)
  | 0, _ => throw .endInList
  | fuel + 1, isFirst => do
    match ← element? isFirst r with
    | none => return []
    | some a => return a :: (← elements r fuel false)

/-- An array, called `expected` in faults. -/
def arrayOf {α : Type} (expected : String) (r : Reader α) : Reader (List α) := do
  match ← peek with
  | some '[' => do
    let items ← deeper do
      advance
      elements r ((← get).length + 1) true
    endArray
    return items
  | _ => wrongType expected

/-- An array. -/
def array {α : Type} (r : Reader α) : Reader (List α) := arrayOf "a sequence" r

/-- An array of two values. -/
def pair {α β : Type} (a : Reader α) (b : Reader β) : Reader (α × β) := do
  match ← peek with
  | some '[' => do
    let p ← deeper do
      advance
      match ← element? true a with
      | none => throw (.wrongLength 0 "a tuple of size 2")
      | some x =>
        match ← element? false b with
        | none => throw (.wrongLength 1 "a tuple of size 2")
        | some y => return (x, y)
    endArray
    return p
  | _ => wrongType "a tuple of size 2"

/-! ## Objects -/

/-- Stops at the quote of the next key of an open object; false before its end. -/
def key? (isFirst : Bool) : Reader Bool := do
  match ← peek with
  | none => throw .endInObject
  | some c =>
    if c = '\x7d' then return false
    let mut c := c
    if !isFirst then
      if c ≠ ',' then throw .expectedObjectEnd
      advance
      match ← peek with
      | none => throw .endInValue
      | some '\x7d' => throw .trailingComma
      | some d => c := d
    if c = '"' then return true else throw .keyNotString

/-- The colon after a key. -/
def colon : Reader Unit := do
  match ← peek with
  | none => throw .endInObject
  | some ':' => advance
  | some _ => throw .expectedColon

/-- The end of an object. -/
def endObject : Reader Unit := do
  match ← peek with
  | none => throw .endInObject
  | some '\x7d' => advance
  | some ',' => throw .trailingComma
  | some _ => throw .trailingCharacters

/-- The fields of an open object up to its end, given how a key and its value update the record;
`fuel` bounds their number. -/
def fieldsOf {σ : Type} (step : σ → Reader σ) : Nat → Bool → σ → Reader σ
  | 0, _, _ => throw .endInObject
  | fuel + 1, isFirst, s => do
    if ← key? isFirst then fieldsOf step fuel false (← step s) else return s

/-- An open object read field by field. -/
def objectFrom {σ : Type} (start : σ) (step : σ → Reader σ) : Reader σ := do
  let s ← deeper do
    advance
    fieldsOf step ((← get).length + 1) true start
  endObject
  return s

/-- An object as the list of its keys and values in order. -/
def entries {κ α : Type} (key : Reader κ) (r : Reader α) : Reader (List (κ × α)) := do
  match ← peek with
  | some '\x7b' =>
    let reversed ← objectFrom [] fun entries => do
      let k ← key
      colon
      return (k, ← r) :: entries
    return reversed.reverse
  | _ => wrongType "a map"

/-- A key that is a number in quotes. -/
def numericKey (expected : String) (bits : Nat) : Reader Nat := do
  advance
  match (← get).head? with
  | some c => if !(c.isDigit || c == '-') then throw .keyNotNumber
  | none => throw .keyNotNumber
  let n ← unsigned expected bits
  match (← get).head? with
  | some '"' => advance; return n
  | _ => throw .expectedQuote

/-! ## Records -/

/-- A field of a record that is being read into a draft `σ`. -/
structure Field (σ : Type) where
  name : String
  isRequired : Bool
  isSet : σ → Bool
  read : Reader (σ → σ)

/-- How a record `α` is read by way of a draft `σ`. -/
structure Shape (σ α : Type) where
  title : String
  start : σ
  fields : List (Field σ)
  build : σ → Except Fault α

/-- A field that must be there. -/
def required {σ α : Type} (name : String) (r : Reader α) (get : σ → Option α)
    (set : α → σ → σ) : Field σ :=
  ⟨name, true, fun s => (get s).isSome, do return set (← r)⟩

/-- A field that may be left out. -/
def optional {σ α : Type} (name : String) (r : Reader α) (get : σ → Option α)
    (set : α → σ → σ) : Field σ :=
  ⟨name, false, fun s => (get s).isSome, do return set (← r)⟩

/-- The value of a required field of a finished draft. -/
def need {α : Type} (name : String) : Option α → Except Fault α
  | some a => .ok a
  | none => .error (.missingField name)

/-- Reads the value of the field with a known key, or skips it. -/
def fieldStep {σ : Type} (fields : List (Field σ)) (draft : σ) : Reader σ := do
  advance
  let name ← token string
  match fields.find? (·.name == name) with
  | some f =>
    if f.isSet draft then throw (.duplicateField f.name)
    colon
    return (← f.read) draft
  | none =>
    colon
    skipping skipValue
    return draft

/-- Reads the elements of a record written as an array, from field number `index` on. -/
def positional {σ : Type} (expected : String) : Nat → List (Field σ) → σ → Reader σ
  | _, [], draft => return draft
  | index, f :: rest, draft => do
    match ← element? (index == 0) f.read with
    | some set => positional expected (index + 1) rest (set draft)
    | none =>
      if f.isRequired then throw (.wrongLength index expected)
      positional expected (index + 1) rest draft

/-- A count of elements in words. -/
def elementCount (n : Nat) : String := if n == 1 then "1 element" else s!"{n} elements"

/-- A record, written as an object or as an array. -/
def record {σ α : Type} (s : Shape σ α) : Reader α := do
  let draft ← match ← peek with
    | some '\x7b' => objectFrom s.start (fieldStep s.fields)
    | some '[' => do
      let draft ← deeper do
        advance
        positional s!"{s.title} with {elementCount s.fields.length}" 0 s.fields s.start
      endArray
      pure draft
    | _ => wrongType s.title
  match s.build draft with
  | .ok a => return a
  | .error e => throw e

/-! ## Variants -/

/-- One form of a value with several forms. -/
inductive Variant (α : Type) where
  | plain (name : String) (value : α)
  | wrapping (name : String) (r : Reader α)
  | recordLike (name : String) (r : Reader α)

/-- The name of a variant. -/
def Variant.name {α : Type} : Variant α → String
  | .plain name _ => name
  | .wrapping name _ => name
  | .recordLike name _ => name

/-- Finds a variant by name. -/
def findVariant {α : Type} (vs : List (Variant α)) (name : String) : Reader (Variant α) :=
  match vs.find? (·.name == name) with
  | some v => return v
  | none => throw (.unknownVariant name (vs.map (·.name)))

/-- A value with several forms. -/
def variant {α : Type} (vs : List (Variant α)) : Reader α := do
  match ← peek with
  | some '\x7b' =>
    let a ← deeper do
      advance
      match ← findVariant vs (← text "variant identifier") with
      | .plain _ a => colon; unit; return a
      | .wrapping _ r => colon; r
      | .recordLike _ r => colon; r
    match ← peek with
    | some '\x7d' => advance; return a
    | some _ => throw .expectedValue
    | none => throw .endInObject
  | some '"' =>
    advance
    match ← findVariant vs (← token string) with
    | .plain _ a => return a
    | .wrapping _ _ => throw (.wrongType .unitVariant "newtype variant")
    | .recordLike _ _ => throw (.wrongType .unitVariant "struct variant")
  | some _ => throw .expectedValue
  | none => throw .endInValue

/-! ## Whole documents -/

/-- Any value, given how many levels may be opened.  An object keeps one value per key, the last,
in the order of its keys. -/
def anyFrom : Nat → Reader Json
  | 0 => throw .tooDeep
  | fuel + 1 => do
    match ← peek with
    | none => throw .endInValue
    | some c =>
      if c = 'n' then advance; skipping (word "ull".toList); return .null
      else if c = 't' then advance; skipping (word "rue".toList); return .bool true
      else if c = 'f' then advance; skipping (word "alse".toList); return .bool false
      else if c = '"' then return .str (← str)
      else if c = '[' then return .arr (← array (anyFrom fuel))
      else if c = '\x7b' then
        return .obj (Entries.sorted (← entries str (anyFrom fuel)))
      else if c = '-' ∨ c.isDigit then
        match ← numeralOf "a value" with
        | .int i => return .int i
        | .float x => return .float x
      else throw .expectedValue

/-- Any value. -/
def any : Reader Json := anyFrom (levelLimit + 1)

/-- Reads a whole text: a value, and nothing but blanks after it. -/
def decode {α : Type} (r : Reader α) (s : String) : Except Fault α := do
  let (a, rest) ← (r levelLimit).run s.toList
  if (skipBlanks rest).isEmpty then return a else throw .trailingCharacters

end Reader

end GraphScript.Json
