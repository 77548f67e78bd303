import GraphScript.Id
import GraphScript.Json.Token

/-!
# Id/Written — identifiers as people write them

A variable's identifier may be written as 32 hexadecimal digits or in five groups with hyphens, the
latter also in braces or after `urn:uuid:`; either case will do.
-/

namespace GraphScript.VariableId

/-- Why a text is no identifier. -/
inductive WrittenFault where
  | character (c : Char) (index : Nat)
  | length (found : Nat)
  | groupCount (found : Nat)
  | groupLength (group expected found : Nat)
  deriving DecidableEq, Repr

/-- The wording of a fault. -/
def WrittenFault.message : WrittenFault → String
  | .character c index => s!"invalid character: found `{c}` at {index}"
  | .length found => s!"invalid length: found {found}"
  | .groupCount found => s!"invalid group count: expected 5, found {found}"
  | .groupLength group expected found =>
    s!"invalid group length in group {group}: expected {expected}, found {found}"

/-- A number from hexadecimal digits of either case. -/
def hexNumber? (cs : List Char) : Option Nat :=
  (cs.mapM Json.hexValue?).map (·.foldl (fun n d => n * 16 + d) 0)

/-- A number from five groups of digits with hyphens between them. -/
def grouped? (cs : List Char) : Option Nat :=
  match cs.drop 8, cs.drop 13, cs.drop 18, cs.drop 23 with
  | '-' :: b, '-' :: c, '-' :: d, '-' :: e =>
    if cs.length = 36 then
      hexNumber? (cs.take 8 ++ b.take 4 ++ c.take 4 ++ d.take 4 ++ e)
    else none
  | _, _, _, _ => none

/-- What an identifier is written inside of: the text between braces or after the mark, the number
of bytes before it, and whether it stands alone. -/
def unwrapped (cs : List Char) : List Char × Nat × Bool :=
  match "urn:uuid:".toList.isPrefixOf cs, cs, cs.getLast? with
  | true, _, _ => (cs.drop 9, 9, false)
  | _, '\x7b' :: r, some '\x7d' => if r.isEmpty then (cs, 0, true) else (r.dropLast, 1, false)
  | _, _, _ => (cs, 0, true)

/-- The first character, by byte index, that is neither a digit nor a hyphen. -/
def stranger? (index : Nat) : List Char → Option (Char × Nat)
  | [] => none
  | c :: r =>
    if c = '-' ∨ (Json.hexValue? c).isSome then stranger? (index + c.utf8Size) r
    else some (c, index)

/-- The indices of the hyphens. -/
def hyphens (index : Nat) : List Char → List Nat
  | [] => []
  | c :: r => if c = '-' then index :: hyphens (index + 1) r else hyphens (index + 1) r

/-- Explains why a text that is no identifier is none. -/
def explain (cs : List Char) : WrittenFault :=
  let (inner, offset, alone) := unwrapped cs
  match stranger? offset inner with
  | some (c, index) => .character c index
  | none =>
    let size := cs.foldl (fun n c => n + c.utf8Size) 0
    match hyphens 0 inner with
    | [] => if alone then .length size else .groupCount 1
    | [a, b, c, d] =>
      if a ≠ 8 then .groupLength 0 8 a
      else if b ≠ 13 then .groupLength 1 4 (b - 9)
      else if c ≠ 18 then .groupLength 2 4 (c - 14)
      else if d ≠ 23 then .groupLength 3 4 (d - 19)
      else .groupLength 4 12 (size - 24)
    | hs => .groupCount (hs.length + 1)

/-- The identifier that a text writes. -/
def ofText (s : String) : Except WrittenFault VariableId :=
  let cs := s.toList
  let number? :=
    if cs.length = 32 then hexNumber? cs
    else
      let (inner, _, _) := unwrapped cs
      grouped? inner
  match number? with
  | some n => .ok (ofNat n)
  | none => .error (explain cs)

end GraphScript.VariableId
