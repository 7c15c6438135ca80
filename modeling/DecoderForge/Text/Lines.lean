/-
This file cuts a text into its lines.
-/

namespace DecoderForge.Text

/-- The line before a line feed, whose characters are given backwards. A carriage return in front of
the line feed ends the line with it. -/
def ended : List Char → List Char
  | '\r' :: before => before.reverse
  | line => line.reverse

/-- The lines of a text, the first of which has begun with characters that are given backwards. A
last line need not be ended. -/
def linesFrom (begun : List Char) : List Char → List (List Char)
  | [] => if begun.isEmpty then [] else [begun.reverse]
  | '\n' :: rest => ended begun :: linesFrom [] rest
  | c :: rest => linesFrom (c :: begun) rest

/-- The lines of a text, without what ends them. -/
def lines (text : String) : List String := (linesFrom [] text.toList).map String.ofList

end DecoderForge.Text
