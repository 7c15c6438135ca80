/-
This file reads JSON numbers: first their parts, then the number that the parts name.
-/

import DecoderForge.Json.Cursor
import DecoderForge.Number

namespace DecoderForge

namespace Json

/-- The parts of a number as they are written. -/
structure Numeral where
  negative : Bool
  whole : List Char
  fraction : List Char
  /-- Whether the exponent is negative, and its digits. -/
  exponent : Option (Bool × List Char)
deriving Repr, DecidableEq

def digitValue (c : Char) : Nat := c.toNat - 48

/-- The digits in front of the cursor. -/
def digitRun (cursor : Cursor) : List Char × Cursor :=
  let digits := cursor.chars.takeWhile Char.isDigit
  (digits, ⟨cursor.chars.dropWhile Char.isDigit, cursor.offset + digits.length⟩)

/-- A number that breaks off; one that is only passed over is simply invalid. -/
def brokenOff (mode : Mode) : Malformation :=
  if mode = .keep then .unfinishedValue else .invalidNumber

/-- The digits before the point: a zero, or digits that do not begin with one. -/
def wholePart (mode : Mode) (cursor : Cursor) : Except Fault (List Char × Cursor) :=
  match cursor.chars with
  | [] => .error (cursor.fault (brokenOff mode))
  | '0' :: c :: _ =>
    if c.isDigit then .error (cursor.skip.faultAhead .invalidNumber) else .ok (['0'], cursor.skip)
  | c :: _ =>
    if c.isDigit then .ok (digitRun cursor) else .error (cursor.skip.fault .invalidNumber)

/-- The digits behind a point. -/
def fractionPart (mode : Mode) (cursor : Cursor) : Except Fault (List Char × Cursor) :=
  match cursor.chars with
  | '.' :: _ =>
    let (digits, stop) := digitRun cursor.skip
    if digits.isEmpty then
      .error (stop.faultAhead (if stop.chars.isEmpty then brokenOff mode else .invalidNumber))
    else .ok (digits, stop)
  | _ => .ok ([], cursor)

/-- The sign and the digits behind a letter e. -/
def exponentPart (mode : Mode) (cursor : Cursor) :
    Except Fault (Option (Bool × List Char) × Cursor) :=
  match cursor.chars with
  | c :: rest =>
    if c = 'e' ∨ c = 'E' then
      let negative := rest.head? = some '-'
      let signed := negative ∨ rest.head? = some '+'
      let first := if signed then cursor.skip.skip else cursor.skip
      let (digits, stop) := digitRun first
      if digits.isEmpty then
        .error (if first.chars.isEmpty then first.fault (brokenOff mode)
          else first.skip.fault .invalidNumber)
      else .ok (some (negative, digits), stop)
    else .ok (none, cursor)
  | [] => .ok (none, cursor)

/-- The parts of a number behind its sign. -/
def numeral (mode : Mode) (negative : Bool) (cursor : Cursor) :
    Except Fault (Numeral × Cursor) := do
  let (whole, cursor) ← wholePart mode cursor
  let (fraction, cursor) ← fractionPart mode cursor
  let (exponent, cursor) ← exponentPart mode cursor
  return (⟨negative, whole, fraction, exponent⟩, cursor)

/-- The digits appended to a number while it stays below a limit, and how many are left over. -/
def appendDigits (limit : Nat) (n : Nat) : List Char → Nat × Nat
  | [] => (n, 0)
  | digit :: rest =>
    let longer := 10 * n + digitValue digit
    if longer < limit then appendDigits limit longer rest else (n, rest.length + 1)

/-- The number of exponents that are counted in full. -/
def exponentLimit : Nat := 0x80000000

/--
The number that the parts name. It has as many digits as 64 bits hold; digits before the point that
are left over count as zeros. Where there is none, the result is how many characters before the end
that was found out.
-/
def Numeral.number (n : Numeral) : Except Nat Number :=
  let (whole, zeros) := appendDigits Number.unsignedLimit 0 n.whole
  let (significand, unused) := appendDigits Number.unsignedLimit whole n.fraction
  let shift : Int := zeros - ((n.fraction.length - unused : Nat) : Int)
  let scaled (exponent : Int) : Except Nat Number :=
    match Magnitude.ofScientific significand exponent with
    | some m => .ok (.float n.negative m)
    | none => .error 0
  match n.exponent with
  | none =>
    if n.fraction.isEmpty ∧ zeros = 0 then
      match Number.ofDigits? n.negative significand with
      | some whole => .ok whole
      | none => scaled 0
    else scaled shift
  | some (negative, digits) =>
    let (exponent, unread) := appendDigits exponentLimit 0 digits
    if unread = 0 then scaled (if negative then shift - exponent else shift + exponent)
    else if significand = 0 ∨ negative then .ok (.float n.negative .zero)
    else .error (unread - 1)

/-- The number behind a sign, or behind none. -/
def numberToken (negative : Bool) (cursor : Cursor) : Except Fault (Number × Cursor) := do
  let (parts, stop) ← numeral .keep negative cursor
  match parts.number with
  | .ok n => return (n, stop)
  | .error back => throw ⟨.numberOutOfRange, stop.offset - back⟩

end Json

end DecoderForge
