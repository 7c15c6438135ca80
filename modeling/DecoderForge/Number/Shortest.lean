/-
This file writes a magnitude in the fewest decimal digits that read back as the same magnitude.
-/

import DecoderForge.Number.Binary64

namespace DecoderForge

namespace Magnitude

/--
The reals that round to a magnitude, in quarters of its last place: the lower end, the magnitude
and the upper end. Below a power of two the places are half as wide.
-/
def quarters (m : Magnitude) : Nat × Nat × Nat :=
  let middle := 4 * m.mantissa
  let below := if m.mantissa = leastNormal ∧ leastExponent < m.exponent then 1 else 2
  (middle - below, middle, middle + 2)

/-- The number of places before the decimal point, negative for zeros after it. -/
def decimalPoint (m : Magnitude) : Int :=
  let (numerator, denominator) := fraction m.mantissa m.exponent
  ((Nat.toDigits 10 (numerator * Nat.pow 10 400 / denominator)).length : Int) - 400

/-- The better of the two neighbours of a magnitude among the multiples of a power of ten, if one
of them reads back as the magnitude. -/
def neighbour? (m : Magnitude) (power : Int) : Option Nat :=
  let (low, middle, high) := m.quarters
  let grid := Nat.pow 10 power.toNat * Nat.pow 2 (2 - m.exponent).toNat
  let unit := Nat.pow 2 (m.exponent - 2).toNat * Nat.pow 10 (-power).toNat
  let readsBack (n : Nat) : Bool :=
    if m.mantissa % 2 = 0 then low * unit ≤ n * grid && n * grid ≤ high * unit
    else low * unit < n * grid && n * grid < high * unit
  let floor := middle * unit / grid
  let nearest := roundHalfEven (middle * unit) grid
  let other := if nearest = floor then floor + 1 else floor
  if readsBack nearest then some nearest
  else if readsBack other then some other
  else none

/-- The first of the given numbers of digits for which a neighbour reads back, as a whole number
and a power of ten. -/
def firstNeighbour (m : Magnitude) (point : Int) : List Nat → Nat × Int
  | [] => (m.mantissa, m.exponent)
  | digits :: more =>
    match m.neighbour? (point - digits) with
    | some n => (n, point - digits)
    | none => firstNeighbour m point more

/-- A whole number without the zeros at its end, and how many there were. -/
def stripZeros : Nat → Nat → Nat → Nat × Nat
  | 0, n, zeros => (n, zeros)
  | fuel + 1, n, zeros =>
    if n % 10 = 0 then stripZeros fuel (n / 10) (zeros + 1) else (n, zeros)

/-- The digits of a magnitude and the number of places before its decimal point. -/
def shortest (m : Magnitude) : List Char × Int :=
  if m.isZero then (['0'], 1)
  else
    let (n, power) := m.firstNeighbour m.decimalPoint ((List.range 17).map (· + 1))
    let (n, zeros) := stripZeros 20 n 0
    let digits := Nat.toDigits 10 n
    (digits, power + zeros + digits.length)

/-- The exponent that a number has when one digit stands before its point. -/
def exponentText (exponent : Int) : List Char :=
  'e' :: (if exponent < 0 then '-' else '+') :: Nat.toDigits 10 exponent.natAbs

/--
The decimal text of a magnitude: positional with at least one digit on each side of the point while
its exponent lies from -5 to 15, else with an exponent after one digit and the fraction, if any.
-/
def text (m : Magnitude) : List Char :=
  let (digits, point) := m.shortest
  if -5 < point ∧ point ≤ 0 then
    '0' :: '.' :: (List.replicate (-point).toNat '0' ++ digits)
  else if 0 < point ∧ point ≤ 16 then
    let whole := digits.take point.toNat
    let zeros := List.replicate (point.toNat - digits.length) '0'
    let rest := digits.drop point.toNat
    whole ++ zeros ++ '.' :: (if rest.isEmpty then ['0'] else rest)
  else
    match digits with
    | [] => []
    | [digit] => digit :: exponentText (point - 1)
    | digit :: rest => digit :: '.' :: (rest ++ exponentText (point - 1))

end Magnitude

end DecoderForge
