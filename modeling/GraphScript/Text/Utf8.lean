/-!
# Text/Utf8 — reading bytes as text

A byte string need not be text.  `Utf8.step` reads one character or finds why it cannot; a fault is
either a run of bytes that starts no character, or a character cut off by the end.  `lossy` puts a
replacement character where each fault stood, `fault?` finds the first.
-/

namespace GraphScript.Text.Utf8

/-- Why bytes are not text. -/
inductive Fault where
  /-- `length` bytes at `index` start no character. -/
  | broken (length index : Nat)
  /-- The text ends inside the character that starts at `index`. -/
  | cut (index : Nat)
  deriving DecidableEq, Repr

/-- The wording of a fault. -/
def Fault.message : Fault → String
  | .broken length index => s!"invalid utf-8 sequence of {length} bytes from index {index}"
  | .cut index => s!"incomplete utf-8 byte sequence from index {index}"

/-- What stands at the front of a byte string. -/
inductive Front where
  | empty
  | char (c : Char) (width : Nat)
  | broken (length : Nat)
  | cut

/-- A byte that continues a character. -/
def isTail (b : UInt8) : Bool := 0x80 ≤ b && b ≤ 0xbf

/-- The second bytes that may follow a first byte, for characters of three and four bytes. -/
def isSecond (first second : UInt8) : Bool :=
  if first == 0xe0 then 0xa0 ≤ second && second ≤ 0xbf
  else if first == 0xed then 0x80 ≤ second && second ≤ 0x9f
  else if first == 0xf0 then 0x90 ≤ second && second ≤ 0xbf
  else if first == 0xf4 then 0x80 ≤ second && second ≤ 0x8f
  else isTail second

/-- Six bits of a continuation byte. -/
def low6 (b : UInt8) : Nat := b.toNat % 64

/-- Reads the front of a byte string. -/
def step : List UInt8 → Front
  | [] => .empty
  | a :: r =>
    if a < 0x80 then .char (Char.ofNat a.toNat) 1
    else if 0xc2 ≤ a && a ≤ 0xdf then
      match r with
      | [] => .cut
      | b :: _ => if isTail b then .char (Char.ofNat (a.toNat % 32 * 64 + low6 b)) 2 else .broken 1
    else if 0xe0 ≤ a && a ≤ 0xef then
      match r with
      | [] => .cut
      | b :: r =>
        if isSecond a b then
          match r with
          | [] => .cut
          | c :: _ =>
            if isTail c then
              .char (Char.ofNat (a.toNat % 16 * 4096 + low6 b * 64 + low6 c)) 3
            else .broken 2
        else .broken 1
    else if 0xf0 ≤ a && a ≤ 0xf4 then
      match r with
      | [] => .cut
      | b :: r =>
        if isSecond a b then
          match r with
          | [] => .cut
          | c :: r =>
            if isTail c then
              match r with
              | [] => .cut
              | d :: _ =>
                if isTail d then
                  .char (Char.ofNat (a.toNat % 8 * 262144 + low6 b * 4096 + low6 c * 64 + low6 d)) 4
                else .broken 3
            else .broken 2
        else .broken 1
    else .broken 1

/-- The characters of a byte string, a replacement character for each fault; `fuel` bounds the
number of characters. -/
def lossyFrom : Nat → List UInt8 → List Char
  | 0, _ => []
  | fuel + 1, bytes =>
    match step bytes with
    | .empty => []
    | .char c width => c :: lossyFrom fuel (bytes.drop width)
    | .broken length => '�' :: lossyFrom fuel (bytes.drop length)
    | .cut => ['�']

/-- A byte string as text, with a replacement character for each fault. -/
def lossy (bytes : ByteArray) : String :=
  match String.fromUTF8? bytes with
  | some s => s
  | none => String.ofList (lossyFrom bytes.size bytes.toList)

/-- The first fault at or after `index`; `fuel` bounds the number of characters. -/
def faultFrom : Nat → Nat → List UInt8 → Option Fault
  | 0, _, _ => none
  | fuel + 1, index, bytes =>
    match step bytes with
    | .empty => none
    | .char _ width => faultFrom fuel (index + width) (bytes.drop width)
    | .broken length => some (.broken length index)
    | .cut => some (.cut index)

/-- The first fault of a byte string. -/
def fault? (bytes : ByteArray) : Option Fault := faultFrom bytes.size 0 bytes.toList

end GraphScript.Text.Utf8
