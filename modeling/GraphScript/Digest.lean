import GraphScript.Id

/-!
# Digest — the fingerprint of a text

The BLAKE3 hash.  Bytes are cut into chunks of 1024, chunks into blocks of 64, and every block is
compressed with the result before it; chunks are the leaves of a binary tree whose left side is as
large a full tree as leaves something for the right.
-/

namespace GraphScript.Digest

/-- The words that every hash starts from. -/
def start : List UInt32 :=
  [0x6a09e667, 0xbb67ae85, 0x3c6ef372, 0xa54ff53a, 0x510e527f, 0x9b05688c, 0x1f83d9ab, 0x5be0cd19]

/-- Where the words of a block go from one round to the next. -/
def schedule : List Nat := [2, 6, 3, 10, 7, 0, 4, 13, 1, 11, 12, 5, 9, 14, 15, 8]

/-- Roles of a block. -/
structure Role where
  isChunkStart : Bool := false
  isChunkEnd : Bool := false
  isParent : Bool := false
  isRoot : Bool := false

/-- A role as a word. -/
def Role.word (r : Role) : UInt32 :=
  (if r.isChunkStart then 1 else 0) + (if r.isChunkEnd then 2 else 0) +
    (if r.isParent then 4 else 0) + (if r.isRoot then 8 else 0)

/-- Turns a word to the right. -/
def rotate (w : UInt32) (n : UInt32) : UInt32 := (w >>> n) ||| (w <<< (32 - n))

/-- Mixes two words of a block into four words of the state. -/
def mix (s : Array UInt32) (a b c d : Nat) (x y : UInt32) : Array UInt32 :=
  let va := s.getD a 0 + s.getD b 0 + x
  let vd := rotate (s.getD d 0 ^^^ va) 16
  let vc := s.getD c 0 + vd
  let vb := rotate (s.getD b 0 ^^^ vc) 12
  let va := va + vb + y
  let vd := rotate (vd ^^^ va) 8
  let vc := vc + vd
  let vb := rotate (vb ^^^ vc) 7
  (((s.setIfInBounds a va).setIfInBounds b vb).setIfInBounds c vc).setIfInBounds d vd

/-- One round: the columns of the state, then its diagonals. -/
def round (s : Array UInt32) (b : Array UInt32) : Array UInt32 :=
  let w (i : Nat) := b.getD i 0
  let s := mix s 0 4 8 12 (w 0) (w 1)
  let s := mix s 1 5 9 13 (w 2) (w 3)
  let s := mix s 2 6 10 14 (w 4) (w 5)
  let s := mix s 3 7 11 15 (w 6) (w 7)
  let s := mix s 0 5 10 15 (w 8) (w 9)
  let s := mix s 1 6 11 12 (w 10) (w 11)
  let s := mix s 2 7 8 13 (w 12) (w 13)
  mix s 3 4 9 14 (w 14) (w 15)

/-- Some rounds, with the words of the block moved between them. -/
def rounds : Nat → Array UInt32 → Array UInt32 → Array UInt32
  | 0, s, _ => s
  | n + 1, s, b => rounds n (round s b) (schedule.map (b.getD · 0)).toArray

/-- Compresses a block of sixteen words into a result of eight. -/
def compress (before block : List UInt32) (counter : Nat) (length : Nat) (role : Role) :
    List UInt32 :=
  let state := before ++ start.take 4 ++
    [UInt32.ofNat counter, UInt32.ofNat (counter / 0x100000000), UInt32.ofNat length, role.word]
  let s := rounds 7 state.toArray block.toArray
  (List.range 8).map fun i => s.getD i 0 ^^^ s.getD (i + 8) 0

/-- The words of bytes, the lowest byte first; missing bytes are zero. -/
def words (bytes : List UInt8) (count : Nat) : List UInt32 :=
  let a := bytes.toArray
  (List.range count).map fun i =>
    let byte (j : Nat) : UInt32 := (a.getD (4 * i + j) 0).toUInt32
    byte 0 + (byte 1 <<< 8) + (byte 2 <<< 16) + (byte 3 <<< 24)

/-- Pieces of a list of a given size, at least one; `fuel` bounds their number. -/
def pieces {α : Type} (size : Nat) : Nat → List α → List (List α)
  | 0, _ => []
  | fuel + 1, xs =>
    if xs.length ≤ size then [xs] else xs.take size :: pieces size fuel (xs.drop size)

/-- Compresses the blocks of a chunk. -/
def blocks (counter : Nat) (isRoot : Bool) (before : List UInt32) (isFirst : Bool) :
    List (List UInt8) → List UInt32
  | [] => before
  | b :: rest =>
    let role : Role :=
      { isChunkStart := isFirst, isChunkEnd := rest.isEmpty, isRoot := isRoot && rest.isEmpty }
    blocks counter isRoot (compress before (words b 16) counter b.length role) false rest

/-- The result of a chunk. -/
def chunk (counter : Nat) (isRoot : Bool) (bytes : List UInt8) : List UInt32 :=
  blocks counter isRoot start true (pieces 64 17 bytes)

/-- The greatest power of two below a number, at most `2 ^ fuel`. -/
def leftSize : Nat → Nat → Nat
  | 0, _ => 1
  | fuel + 1, n => if Nat.pow 2 (fuel + 1) < n then Nat.pow 2 (fuel + 1) else leftSize fuel n

/-- The result of a tree of chunks; `fuel` bounds its height. -/
def tree : Nat → Nat → Bool → List (List UInt8) → List UInt32
  | _, counter, isRoot, [c] => chunk counter isRoot c
  | 0, _, _, _ => start
  | _, _, _, [] => start
  | fuel + 1, counter, isRoot, cs =>
    let n := leftSize 54 cs.length
    let left := tree fuel counter false (cs.take n)
    let right := tree fuel (counter + n) false (cs.drop n)
    compress start (left ++ right) 0 64 { isParent := true, isRoot }

/-- The hash of bytes as eight words. -/
def hash (bytes : List UInt8) : List UInt32 :=
  let cs := pieces 1024 (bytes.length + 1) bytes
  tree cs.length 0 true cs

/-- A word in hexadecimal, its lowest byte first. -/
def wordText (w : UInt32) : List Char :=
  let n := w.toNat
  hexDigits 2 n ++ hexDigits 2 (n / 0x100) ++ hexDigits 2 (n / 0x10000) ++
    hexDigits 2 (n / 0x1000000)

/-- The fingerprint of a text in hexadecimal. -/
def ofText (s : String) : String := String.ofList ((hash s.toUTF8.toList).flatMap wordText)

end GraphScript.Digest
