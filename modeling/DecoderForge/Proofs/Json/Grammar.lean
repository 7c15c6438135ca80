/-
This file says which texts are JSON: the grammar of strings, numbers and values, on characters
alone.
-/

import DecoderForge.Json.Passing
import DecoderForge.Proofs.Text.Legible

namespace DecoderForge.Json

open Text

def Blank (chars : List Char) : Prop := ∀ c ∈ chars, Cursor.isBlank c = true

/-- A string behind its opening quotation mark. -/
inductive StringBody : List Char → Prop
  | close : StringBody ['"']
  | plain {c : Char} {rest : List Char} (quotation : c ≠ '"') (backslash : c ≠ '\\')
    (control : 0x20 ≤ c.toNat) (more : StringBody rest) : StringBody (c :: rest)
  | escape {c : Char} {rest : List Char} (named : c ∈ ['"', '\\', '/', 'b', 'f', 'n', 'r', 't'])
    (more : StringBody rest) : StringBody ('\\' :: c :: rest)
  | unit {digits rest : List Char} (four : digits.length = 4)
    (each : ∀ c ∈ digits, c ∈ "0123456789abcdefABCDEF".toList) (more : StringBody rest) :
    StringBody ('\\' :: 'u' :: (digits ++ rest))

/-- A zero alone, or digits that do not begin with one. -/
structure WholeDigits (digits : List Char) : Prop where
  nonempty : digits ≠ []
  each : ∀ c ∈ digits, c.isDigit = true
  plain : digits.head? = some '0' → digits = ['0']

/-- The text of a fraction, which may be missing. -/
inductive FractionText : List Char → List Char → Prop
  | missing : FractionText [] []
  | present {digits : List Char} (some : digits ≠ []) (each : ∀ c ∈ digits, c.isDigit = true) :
    FractionText digits ('.' :: digits)

/-- The sign of an exponent, which may be left out when it is no minus. -/
inductive SignText : Bool → List Char → Prop
  | missing : SignText false []
  | plus : SignText false ['+']
  | minus : SignText true ['-']

/-- The text of an exponent, which may be missing. -/
inductive ExponentText : Option (Bool × List Char) → List Char → Prop
  | missing : ExponentText none []
  | present {letter : Char} {negative : Bool} {sign digits : List Char}
    (known : letter = 'e' ∨ letter = 'E') (signed : SignText negative sign) (some : digits ≠ [])
    (each : ∀ c ∈ digits, c.isDigit = true) :
    ExponentText (.some (negative, digits)) (letter :: (sign ++ digits))

namespace Numeral

/-- The text of a number behind its sign. -/
inductive Unsigned : Numeral → List Char → Prop
  | parts {negative : Bool} {whole fraction point power : List Char}
    {exponent : Option (Bool × List Char)} (before : WholeDigits whole)
    (places : FractionText fraction point) (scale : ExponentText exponent power) :
    Unsigned ⟨negative, whole, fraction, exponent⟩ (whole ++ point ++ power)

/-- The text of a number. -/
inductive Spelled (n : Numeral) : List Char → Prop
  | positive {chars : List Char} (sign : n.negative = false) (unsigned : n.Unsigned chars) :
    Spelled n chars
  | negative {chars : List Char} (sign : n.negative = true) (unsigned : n.Unsigned chars) :
    Spelled n ('-' :: chars)

/-- The characters with which the text of a number would go on. -/
def goesOn (n : Numeral) (c : Char) : Bool :=
  c.isDigit ||
    n.exponent.isNone && (c == 'e' || c == 'E' || n.fraction.isEmpty && c == '.')

end Numeral

/-- A value without parts. -/
inductive AtomText : List Char → Prop
  | word {letters : List Char}
    (known : letters ∈ ["null".toList, "true".toList, "false".toList]) : AtomText letters
  | number {n : Numeral} {chars : List Char} (numeral : n.Spelled chars) : AtomText chars
  | string {body : List Char} (string : StringBody body) : AtomText ('"' :: body)

/-- What stands before the value of a part: a key and its colon, or nothing. -/
inductive Label : Container → List Char → Prop
  | item : Label .list []
  | key {indent body space : List Char} (front : Blank indent) (string : StringBody body)
    (behind : Blank space) : Label .object (indent ++ '"' :: body ++ space ++ [':'])

/-- A comma stands before every part but the first. -/
inductive Separator : (first : Bool) → List Char → Prop
  | none : Separator true []
  | comma {indent : List Char} (front : Blank indent) : Separator false (indent ++ [','])

/-- A value with blanks before it, or the rest of a container up to its closing bracket. -/
inductive Phrase where
  | value
  | parts (container : Container) (first : Bool)

/-- The texts of phrases. -/
inductive Phrase.Spelled : Phrase → List Char → Prop
  | atom {indent chars : List Char} (front : Blank indent) (text : AtomText chars) :
    Spelled .value (indent ++ chars)
  | container {indent rest : List Char} {bracket : Char} {container : Container}
    (front : Blank indent) (opens : Container.ofOpening? bracket = some container)
    (parts : Spelled (.parts container true) rest) : Spelled .value (indent ++ bracket :: rest)
  | close {container : Container} {first : Bool} {indent : List Char} (front : Blank indent) :
    Spelled (.parts container first) (indent ++ [container.closing])
  | part {container : Container} {first : Bool} {separator label value rest : List Char}
    (separated : Separator first separator) (labelled : Label container label)
    (inner : Spelled .value value) (later : Spelled (.parts container false) rest) :
    Spelled (.parts container first) (separator ++ label ++ value ++ rest)

/-- A value with blanks before it. -/
abbrev IsValue (chars : List Char) : Prop := Phrase.value.Spelled chars

/-- One value with blanks before it and behind it. -/
def IsText (chars : List Char) : Prop :=
  ∃ value behind, IsValue value ∧ Blank behind ∧ chars = value ++ behind

/-- What stands behind a value is no part of it, as more digits would be behind a number. -/
def Ends (value behind : List Char) : Prop :=
  ∀ indent chars, ∀ n : Numeral, Blank indent → n.Spelled chars → value = indent ++ chars →
    Stops n.goesOn behind

end DecoderForge.Json
