/-
This file holds the place where a reader of JSON text stands, and what can be wrong with the text.
-/

import DecoderForge.Text.Place

namespace DecoderForge

namespace Json

/-- What is wrong with a text that is not a JSON document. -/
inductive Malformation where
  | unfinishedValue
  | unfinishedList
  | unfinishedObject
  | unfinishedString
  | expectedColon
  | expectedListEnd
  | expectedObjectEnd
  | expectedWord
  | expectedValue
  | keyNotString
  | invalidEscape
  | invalidNumber
  | numberOutOfRange
  | controlCharacter
  | trailingComma
  | trailingCharacters
  | loneSurrogate
  | unfinishedSurrogates
  | tooDeep
deriving Repr, DecidableEq

def Malformation.message : Malformation → String
  | .unfinishedValue => "EOF while parsing a value"
  | .unfinishedList => "EOF while parsing a list"
  | .unfinishedObject => "EOF while parsing an object"
  | .unfinishedString => "EOF while parsing a string"
  | .expectedColon => "expected `:`"
  | .expectedListEnd => "expected `,` or `]`"
  | .expectedObjectEnd => "expected `,` or `\x7d`"
  | .expectedWord => "expected ident"
  | .expectedValue => "expected value"
  | .keyNotString => "key must be a string"
  | .invalidEscape => "invalid escape"
  | .invalidNumber => "invalid number"
  | .numberOutOfRange => "number out of range"
  | .controlCharacter =>
    "control character (\\u0000-\\u001F) found while parsing a string"
  | .trailingComma => "trailing comma"
  | .trailingCharacters => "trailing characters"
  | .loneSurrogate => "lone leading surrogate in hex escape"
  | .unfinishedSurrogates => "unexpected end of hex escape"
  | .tooDeep => "recursion limit exceeded"

/-- What is wrong with a text, and how many bytes into the text that is said to be. -/
structure Fault where
  cause : Malformation
  offset : Nat
deriving Repr, DecidableEq

/--
A document that is kept is read strictly. A value that nobody asks for is only passed over, so its
numbers may be too great and its escapes may name halves of a surrogate pair.
-/
inductive Mode where
  | keep
  | pass
deriving Repr, DecidableEq

/-- The characters that are still to be read, and how many bytes lie before them. -/
structure Cursor where
  chars : List Char
  offset : Nat
deriving Repr

namespace Cursor

def ofChars (chars : List Char) : Cursor := ⟨chars, 0⟩

/-- JSON knows four blank characters. -/
def isBlank (c : Char) : Bool :=
  c == ' ' || c == '\n' || c == '\t' || c == '\r'

/-- The cursor behind the blanks, which are one byte each. -/
def skipBlank (cursor : Cursor) : Cursor :=
  ⟨cursor.chars.dropWhile isBlank,
    cursor.offset + (cursor.chars.takeWhile isBlank).length⟩

/-- The cursor behind a character of one byte. -/
def skip (cursor : Cursor) : Cursor := ⟨cursor.chars.drop 1, cursor.offset + 1⟩

/-- The number of bytes that are still to be read. -/
def remaining (cursor : Cursor) : Nat :=
  cursor.chars.foldl (fun count c => count + c.utf8Size) 0

/-- A fault that is found where the cursor stands. -/
def fault (cursor : Cursor) (cause : Malformation) : Fault := ⟨cause, cursor.offset⟩

/-- A fault of the next character, if there is one. -/
def faultAhead (cursor : Cursor) (cause : Malformation) : Fault :=
  ⟨cause, if cursor.chars.isEmpty then cursor.offset else cursor.offset + 1⟩

/-- The cursor behind a word of which the first letter has been seen. -/
def word (cursor : Cursor) : List Char → Except Fault Cursor
  | [] => .ok cursor
  | letter :: letters =>
    match cursor.chars with
    | [] => .error (cursor.fault .unfinishedValue)
    | c :: _ =>
      if c = letter then cursor.skip.word letters
      else .error (cursor.skip.fault .expectedWord)

end Cursor

end Json

end DecoderForge
