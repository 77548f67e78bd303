import GraphScript.Id
import GraphScript.Text.Quoted

/-!
# Id/Token — the token of a variable

A token is the 32 lower-case hexadecimal digits of an identifier and nothing else, so that each
identifier has one token and each token names one identifier.
-/

namespace GraphScript.VariableId

/-- The length of a token in bytes. -/
def tokenLength : Nat := 32

/-- Why a text is no token. -/
inductive TokenFault where
  /-- Its length in bytes is not that of a token. -/
  | length (found : Nat)
  /-- The byte at this position is no lower-case hexadecimal digit. -/
  | character (position : Nat) (byte : UInt8)
  deriving DecidableEq, Repr

/-- The wording of a fault; a byte is shown as the character of that number. -/
def TokenFault.message : TokenFault → String
  | .length found => s!"invalid token length: expected {tokenLength}, got {found}"
  | .character position byte =>
    let shown := Text.quotedSingle (Char.ofNat byte.toNat)
    s!"invalid token character {shown} at position {position}"

/-- The token of an identifier. -/
def token (v : VariableId) : String := String.ofList v.digits

/-- The value of a lower-case hexadecimal digit. -/
def nibble? (b : UInt8) : Option Nat :=
  if 48 ≤ b ∧ b ≤ 57 then some (b.toNat - 48)
  else if 97 ≤ b ∧ b ≤ 102 then some (b.toNat - 87)
  else none

/-- Appends the values of digits to a number, counting positions. -/
def nibbles (position value : Nat) : List UInt8 → Except TokenFault Nat
  | [] => .ok value
  | b :: bs =>
    match nibble? b with
    | some d => nibbles (position + 1) (value * 16 + d) bs
    | none => .error (.character position b)

/-- The identifier that a token names. -/
def ofToken (s : String) : Except TokenFault VariableId :=
  let bytes := s.toUTF8.toList
  if bytes.length ≠ tokenLength then .error (.length bytes.length)
  else (nibbles 0 0 bytes).map ofNat

end GraphScript.VariableId
