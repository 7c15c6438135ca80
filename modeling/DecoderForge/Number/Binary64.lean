/-
This file holds the magnitudes of the binary numbers of 64 bits, with rounding to the nearest one
done in exact arithmetic.
-/

namespace DecoderForge

/--
A magnitude is `mantissa * 2 ^ exponent`. The mantissa has 53 bits, or fewer at the least exponent.
-/
structure Magnitude where
  mantissa : Nat
  exponent : Int
deriving Repr, DecidableEq, Inhabited

namespace Magnitude

/-- The exponent of the numbers next to zero. -/
def leastExponent : Int := -1074

/-- The exponent above which there is only infinity. -/
def greatestExponent : Int := 971

/-- The least mantissa with 53 bits. -/
def leastNormal : Nat := 0x10000000000000

def zero : Magnitude := ⟨0, leastExponent⟩

def isZero (m : Magnitude) : Bool := m.mantissa == 0

def isFinite (m : Magnitude) : Bool := m.exponent ≤ greatestExponent

/-- The fraction `n * 2 ^ e` as a numerator and a denominator. -/
def fraction (n : Nat) (e : Int) : Nat × Nat :=
  (n * Nat.pow 2 e.toNat, Nat.pow 2 (-e).toNat)

/-- The quotient to the nearest whole number, a half to the even one. -/
def roundHalfEven (numerator denominator : Nat) : Nat :=
  let quotient := numerator / denominator
  let twice := 2 * (numerator % denominator)
  if twice < denominator then quotient
  else if denominator < twice then quotient + 1
  else quotient + quotient % 2

/-- The magnitude next to a fraction; between two equally near ones, the one with an even
mantissa. -/
def ofRatio (numerator denominator : Nat) : Magnitude :=
  if numerator = 0 then zero
  else
    let guess : Int := (numerator.log2 : Int) - denominator.log2 - 52
    let scaled (e : Int) : Nat × Nat :=
      (numerator * Nat.pow 2 (-e).toNat, denominator * Nat.pow 2 e.toNat)
    let floor := (scaled guess).1 / (scaled guess).2
    let exponent := max (if floor < leastNormal then guess - 1 else guess) leastExponent
    let mantissa := roundHalfEven (scaled exponent).1 (scaled exponent).2
    if mantissa = 2 * leastNormal then ⟨leastNormal, exponent + 1⟩ else ⟨mantissa, exponent⟩

def ofNat (n : Nat) : Magnitude := ofRatio n 1

def mul (a b : Magnitude) : Magnitude :=
  let (numerator, denominator) := fraction (a.mantissa * b.mantissa) (a.exponent + b.exponent)
  ofRatio numerator denominator

def div (a b : Magnitude) : Magnitude :=
  let (numerator, denominator) := fraction a.mantissa (a.exponent - b.exponent)
  ofRatio numerator (denominator * b.mantissa)

/-- A power of ten, rounded. -/
def tenPow (k : Nat) : Magnitude := ofNat (Nat.pow 10 k)

/-- The greatest power of ten that is a magnitude. -/
def greatestTenPow : Nat := 308

/-- Division by the greatest power of ten, `chunks` times, and then by ten to the power `rest`. -/
def divTens (m : Magnitude) : Nat → Nat → Magnitude
  | 0, rest => m.div (tenPow rest)
  | chunks + 1, rest =>
    if m.isZero then m else divTens (m.div (tenPow greatestTenPow)) chunks rest

/--
A whole number times a power of ten, with a rounding after each of the steps: the number itself,
the power, their product or quotient. There is none beyond the greatest magnitude.
-/
def ofScientific (significand : Nat) (exponent : Int) : Option Magnitude :=
  let m := ofNat significand
  match exponent with
  | .ofNat k =>
    if k ≤ greatestTenPow then
      let product := m.mul (tenPow k)
      if product.isFinite then some product else none
    else if m.isZero then some m
    else none
  | .negSucc k =>
    let chunks := k / greatestTenPow
    some (m.divTens chunks (k + 1 - chunks * greatestTenPow))

end Magnitude

end DecoderForge
