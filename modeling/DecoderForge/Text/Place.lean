/-
This file names a place in a text by its line and its column, as messages about the text do.
-/

namespace DecoderForge.Text

/-- A line, counted from one, and the number of bytes of that line that lie before the place. -/
structure Place where
  line : Nat
  column : Nat
deriving Repr, DecidableEq, Inhabited

/-- Where a text begins. -/
def Place.start : Place := ⟨1, 0⟩

/-- The place `bytes` bytes further into `chars`; a character that is only partly passed counts by
its passed bytes. -/
def Place.advance (place : Place) : Nat → List Char → Place
  | 0, _ => place
  | _, [] => place
  | bytes, c :: rest =>
    if bytes < c.utf8Size then ⟨place.line, place.column + bytes⟩
    else if c = '\n' then Place.advance ⟨place.line + 1, 0⟩ (bytes - c.utf8Size) rest
    else Place.advance ⟨place.line, place.column + c.utf8Size⟩ (bytes - c.utf8Size) rest

/-- The place `bytes` bytes into a text. -/
def placeAt (chars : List Char) (bytes : Nat) : Place :=
  Place.start.advance bytes chars

end DecoderForge.Text
