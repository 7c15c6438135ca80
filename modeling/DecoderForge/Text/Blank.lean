/-
This file holds the characters that the Unicode property `White_Space` names, which are the ones
that make a line blank.
-/

namespace DecoderForge.Text

/-- A character is blank when it has the property `White_Space`. -/
def isBlank (c : Char) : Bool :=
  let n := c.toNat
  (9 ≤ n && n ≤ 13) || n == 0x20 || n == 0x85 || n == 0xA0 || n == 0x1680 ||
    (0x2000 ≤ n && n ≤ 0x200A) || n == 0x2028 || n == 0x2029 || n == 0x202F || n == 0x205F ||
    n == 0x3000

/-- A line is blank when all its characters are. -/
def isBlankLine (line : String) : Bool :=
  line.toList.all isBlank

end DecoderForge.Text
