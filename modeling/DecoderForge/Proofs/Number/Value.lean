/-
This file says which rational numbers the numbers of documents and the numeric literals stand for.
-/

import DecoderForge.Descriptor.NumericLiteral
import Mathlib.Algebra.Field.Rat

namespace DecoderForge

def Number.value : Number → ℚ
  | .int value => value
  | .float true m => -(m.mantissa * 2 ^ m.exponent)
  | .float false m => m.mantissa * 2 ^ m.exponent

namespace NumericLiteral

def digitValue (digit : Char) : Nat :=
  if digit.isDigit then digit.toNat - '0'.toNat else digit.toLower.toNat - 'a'.toNat + 10

/-- The whole number that digits stand for. Separators between them stand for nothing. -/
def wholeValue (base : Nat) (digits : List Char) : Nat :=
  (digits.filter (· != '_')).foldl (fun n digit => base * n + digitValue digit) 0

/-- The base that a letter behind a zero names. -/
def baseOf (letter : Char) : Nat :=
  match letter.toLower with
  | 'x' => 16
  | 'o' => 8
  | _ => 2

/-- The exponent behind its letter. -/
def exponentValue : List Char → Int
  | _ :: '-' :: digits => -(wholeValue 10 digits : Int)
  | _ :: '+' :: digits => wholeValue 10 digits
  | _ :: digits => wholeValue 10 digits
  | [] => 0

/-- Each digit behind the point counts a tenth of the one before it. -/
def decimalValue (chars : List Char) : ℚ :=
  let whole := chars.takeWhile isDigitOrSeparator
  match chars.dropWhile isDigitOrSeparator with
  | '.' :: rest =>
    let fraction := (rest.takeWhile isDigitOrSeparator).filter (· != '_')
    let exponent := exponentValue (rest.dropWhile isDigitOrSeparator)
    wholeValue 10 (whole ++ fraction) * 10 ^ (exponent - fraction.length)
  | rest => wholeValue 10 whole * 10 ^ exponentValue rest

def unsignedValue (chars : List Char) : ℚ :=
  match chars with
  | '0' :: letter :: digits =>
    if isBased chars then wholeValue (baseOf letter) digits else decimalValue chars
  | _ => decimalValue chars

/-- The number that a literal stands for. -/
def value (n : NumericLiteral) : ℚ :=
  match n.text.toList with
  | '-' :: rest => -unsignedValue rest
  | chars => unsignedValue chars

example : (⟨"0xF_F"⟩ : NumericLiteral).value = 255 := by decide +kernel

example : (⟨"-1_000.5e-3"⟩ : NumericLiteral).value = -2001 / 2000 := by decide +kernel

end NumericLiteral

end DecoderForge
