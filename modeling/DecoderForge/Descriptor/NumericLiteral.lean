/-
This file holds numeric literals, which are kept as the text in which they are written.
-/

import DecoderForge.Number

namespace DecoderForge

/-- The text of a numeric literal. -/
structure NumericLiteral where
  text : String
deriving Repr, DecidableEq, Inhabited

namespace NumericLiteral

def isHexadecimal (c : Char) : Bool :=
  c.isDigit || ('a' ≤ c && c ≤ 'f') || ('A' ≤ c && c ≤ 'F')

/-- Digits may be separated by underscores. -/
def isDigitOrSeparator (c : Char) : Bool := c.isDigit || c == '_'

/-- The characters that may follow a zero and the given letter, if the letter names a base. -/
def ofBase? (letter : Char) : Option (Char → Bool) :=
  match letter.toLower with
  | 'x' => some isHexadecimal
  | 'o' => some fun c => '0' ≤ c && c ≤ '7'
  | 'b' => some fun c => c == '0' || c == '1'
  | _ => none

/-- Nothing, or an exponent with an optional sign and at least one digit. -/
def isExponent : List Char → Bool
  | [] => true
  | letter :: rest =>
    let digits :=
      match rest with
      | sign :: digits => if sign == '+' || sign == '-' then digits else rest
      | [] => []
    (letter == 'e' || letter == 'E') && !digits.isEmpty && digits.all Char.isDigit

/-- A decimal number: without a point it has a digit, with a point a digit follows the point. -/
def isDecimal (chars : List Char) : Bool :=
  let whole := chars.takeWhile isDigitOrSeparator
  match chars.dropWhile isDigitOrSeparator with
  | '.' :: rest =>
    (rest.head?.any Char.isDigit) && isExponent (rest.dropWhile isDigitOrSeparator)
  | rest => whole.any Char.isDigit && isExponent rest

/-- A number of another base: a zero, the letter of the base, digits and separators. -/
def isBased : List Char → Bool
  | '0' :: letter :: digits =>
    match ofBase? letter with
    | some isDigit => !digits.isEmpty && digits.all fun c => isDigit c || c == '_'
    | none => false
  | _ => false

/-- An optional minus sign and a number. -/
def isNumeric (chars : List Char) : Bool :=
  let unsigned :=
    match chars with
    | '-' :: rest => rest
    | _ => chars
  isBased unsigned || isDecimal unsigned

/-- The literal that a text is, if it is one. -/
def parse? (text : String) : Option NumericLiteral :=
  if isNumeric text.toList then some ⟨text⟩ else none

/-- A number as a literal. -/
def ofNumber (n : Number) : NumericLiteral := ⟨n.text⟩

/-- A whole number of 64 bits, one of which is the sign, as a literal. -/
def ofInt64 (value : Int64) : NumericLiteral := ⟨toString value.toInt⟩

end NumericLiteral

end DecoderForge
