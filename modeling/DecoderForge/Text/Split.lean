/-
This file splits a text at a separator.
-/

namespace DecoderForge.Text

/-- The pieces of a text between separators, of which there is one more than of separators. -/
def splitChars (separator : Char) : List Char → List (List Char)
  | [] => [[]]
  | c :: rest =>
    if c = separator then [] :: splitChars separator rest
    else
      match splitChars separator rest with
      | [] => [[c]]
      | first :: others => (c :: first) :: others

def split (separator : Char) (text : String) : List String :=
  (splitChars separator text.toList).map String.ofList

end DecoderForge.Text
