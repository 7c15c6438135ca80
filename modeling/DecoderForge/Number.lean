/-
This file holds the numbers of JSON documents: whole numbers that fit 64 bits are exact, all others
are binary numbers of 64 bits.
-/

import DecoderForge.Number.Shortest

namespace DecoderForge

/-- A number is whole, within 64 bits with or without a sign, or a finite binary number. -/
inductive Number where
  | int (value : Int)
  | float (negative : Bool) (magnitude : Magnitude)
deriving Repr, DecidableEq, Inhabited

namespace Number

/-- The number of whole numbers that 64 bits hold. -/
def unsignedLimit : Nat := 0x10000000000000000

/-- The number of those that are not negative where one bit is the sign. -/
def signedLimit : Nat := 0x8000000000000000

/-- The text of a number reads back as the number. -/
def chars : Number → List Char
  | .int (.ofNat n) => Nat.toDigits 10 n
  | .int (.negSucc n) => '-' :: Nat.toDigits 10 (n + 1)
  | .float true m => '-' :: m.text
  | .float false m => m.text

def text (n : Number) : String := String.ofList n.chars

/-- The number that a sign and a run of digits name, when it is whole and fits 64 bits. -/
def ofDigits? (negative : Bool) (n : Nat) : Option Number :=
  if negative then
    if 0 < n ∧ n ≤ signedLimit then some (.int (-n)) else none
  else
    if n < unsignedLimit then some (.int n) else none

end Number

end DecoderForge
