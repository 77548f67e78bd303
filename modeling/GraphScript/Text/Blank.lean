/-!
# Text/Blank — white space

The characters with the Unicode property `White_Space`, and trimming by them.
-/

namespace GraphScript.Text

/-- The characters with the property `White_Space`. -/
def isBlank (c : Char) : Bool :=
  let n := c.toNat
  (9 ≤ n && n ≤ 13) || n == 0x20 || n == 0x85 || n == 0xa0 || n == 0x1680 ||
    (0x2000 ≤ n && n ≤ 0x200a) || n == 0x2028 || n == 0x2029 || n == 0x202f || n == 0x205f ||
    n == 0x3000

/-- A text without the blanks at either end. -/
def trimBlanks (cs : List Char) : List Char :=
  ((cs.dropWhile isBlank).reverse.dropWhile isBlank).reverse

/-- A string without the blanks at either end. -/
def trim (s : String) : String := String.ofList (trimBlanks s.toList)

/-- ASCII letters in lower case, every other character unchanged. -/
def lowerAscii (s : String) : String := s.map Char.toLower

end GraphScript.Text
