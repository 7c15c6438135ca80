/-
This file splits the text of a filter into tokens.
-/

import DecoderForge.Json.StringToken

namespace DecoderForge

namespace Filter

/-- A token of the text of a filter. -/
inductive Token where
  | word (name : String)
  /-- A word directly behind a point. -/
  | field (name : String)
  /-- A word behind a dollar sign. -/
  | variable (name : String)
  | number (text : List Char)
  | string (value : String)
  | mark (text : String)
deriving Repr, DecidableEq

namespace Token

def isWordStart (c : Char) : Bool :=
  ('a' ≤ c && c ≤ 'z') || ('A' ≤ c && c ≤ 'Z') || c == '_'

def isWordPart (c : Char) : Bool := isWordStart c || c.isDigit

/-- The word at the beginning, if there is one, and what follows it. -/
def word? (chars : List Char) : Option (String × List Char) :=
  if chars.head?.any isWordStart then
    some (String.ofList (chars.takeWhile isWordPart), chars.dropWhile isWordPart)
  else none

/-- One or more digits and what follows them. -/
def digits? (chars : List Char) : Option (List Char × List Char) :=
  if chars.head?.any Char.isDigit then
    some (chars.takeWhile Char.isDigit, chars.dropWhile Char.isDigit)
  else none

/-- The fraction of a number, if a point follows. -/
def fraction? (chars : List Char) : Option (List Char × List Char) :=
  match chars with
  | '.' :: rest => (digits? rest).map fun (digits, rest) => ('.' :: digits, rest)
  | _ => some ([], chars)

/-- The exponent of a number, if a letter e follows. -/
def exponent? (chars : List Char) : Option (List Char × List Char) :=
  match chars with
  | letter :: rest =>
    if letter = 'e' ∨ letter = 'E' then
      let signed := rest.head? = some '+' ∨ rest.head? = some '-'
      let sign := if signed then rest.take 1 else []
      (digits? (if signed then rest.drop 1 else rest)).map fun (digits, rest) =>
        (letter :: (sign ++ digits), rest)
    else some ([], chars)
  | [] => some ([], [])

/-- A number and what follows it. -/
def number? (chars : List Char) : Option (List Char × List Char) := do
  let (whole, rest) ← digits? chars
  let (fraction, rest) ← fraction? rest
  let (exponent, rest) ← exponent? rest
  return (whole ++ fraction ++ exponent, rest)

/-- The character that four hexadecimal digits name, which is not half of a surrogate pair. -/
def unicode? (digits : List Char) : Option Char := do
  let n := (← digits.mapM Json.hexValue?).foldl (fun n digit => 16 * n + digit) 0
  if Json.isLead n || Json.isTrail n then none else some (Char.ofNat n)

/-- The characters of a string up to its closing quotation mark, and what follows it. -/
def string? : List Char → Option (List Char × List Char)
  | [] => none
  | '"' :: rest => some ([], rest)
  | '\\' :: 'u' :: a :: b :: c :: d :: rest => do
    let named ← unicode? [a, b, c, d]
    (string? rest).map fun (chars, rest) => (named :: chars, rest)
  | '\\' :: c :: rest => do
    let named ← Json.escaped? c
    (string? rest).map fun (chars, rest) => (named :: chars, rest)
  | c :: rest => (string? rest).map fun (chars, rest) => (c :: chars, rest)

/-- What follows a comment. A line that ends in an odd number of backslashes goes on in the next. -/
def skipComment : List Char → (escaped : Bool) → List Char
  | [], _ => []
  | c :: rest, escaped =>
    if c = '\n' then if escaped then skipComment rest false else rest
    else if c = '\r' ∧ rest.head? = some '\n' then skipComment rest escaped
    else skipComment rest (c = '\\' && !escaped)

/-- The marks of two characters. -/
def doubleMarks : List (List Char) := [['/', '/'], ['=', '='], ['!', '=']]

/-- The marks of one character. -/
def singleMarks : List Char :=
  ['.', '|', ',', '(', ')', '[', ']', '\x7b', '\x7d', ':', '?', '-']

/-- The first token, if the text begins with one, and what follows it. -/
def next? (chars : List Char) : Option (Token × List Char) :=
  match chars with
  | [] => none
  | c :: rest =>
    if c = '"' then
      (string? rest).map fun (chars, rest) => (.string (.ofList chars), rest)
    else if c = '$' then (word? rest).map fun (name, rest) => (.variable name, rest)
    else if c.isDigit then (number? chars).map fun (text, rest) => (.number text, rest)
    else
      match word? chars, word? rest with
      | some (name, behind), _ => some (.word name, behind)
      | none, found =>
        match found, c with
        | some (name, behind), '.' => some (.field name, behind)
        | _, _ =>
          if doubleMarks.contains (chars.take 2) then
            some (.mark (String.ofList (chars.take 2)), chars.drop 2)
          else if singleMarks.contains c then some (.mark (String.singleton c), rest)
          else none

/-- The tokens of a text, if it has nothing else but blanks and comments; a step takes one of
`fuel`. -/
def listFrom : (fuel : Nat) → List Char → Option (List Token)
  | _, [] => some []
  | 0, _ :: _ => none
  | fuel + 1, c :: rest =>
    if c.isWhitespace then listFrom fuel rest
    else if c = '#' then listFrom fuel (skipComment rest false)
    else
      match next? (c :: rest) with
      | none => none
      | some (token, behind) => (listFrom fuel behind).map (token :: ·)

def list? (text : String) : Option (List Token) := listFrom text.toList.length text.toList

end Token

end Filter

end DecoderForge
