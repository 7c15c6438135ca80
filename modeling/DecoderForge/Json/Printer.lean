/-
This file writes JSON values as text: without any blank, or with one value a line.
-/

import DecoderForge.Json.Basic

namespace DecoderForge

namespace Json

/-- A number below 16 as a lower case hexadecimal digit. -/
def hexDigit (n : Nat) : Char :=
  if n < 10 then Char.ofNat (48 + n) else Char.ofNat (87 + n)

/-- Only quotation marks, backslashes and control characters are escaped. -/
def escapeChar (c : Char) : List Char :=
  if c = '"' then ['\\', '"']
  else if c = '\\' then ['\\', '\\']
  else if c = '\x08' then ['\\', 'b']
  else if c = '\x0c' then ['\\', 'f']
  else if c = '\n' then ['\\', 'n']
  else if c = '\r' then ['\\', 'r']
  else if c = '\t' then ['\\', 't']
  else if c.toNat < 0x20 then
    ['\\', 'u', '0', '0', hexDigit (c.toNat / 16), hexDigit (c.toNat % 16)]
  else [c]

/-- A text as a JSON string. -/
def quoteChars (s : String) : List Char :=
  '"' :: (s.toList.flatMap escapeChar ++ ['"'])

/-- The text of a value that has no parts. -/
def atomChars : Json → List Char
  | .null => "null".toList
  | .bool true => "true".toList
  | .bool false => "false".toList
  | .num n => n.chars
  | .str s => quoteChars s
  | .arr _ => ['[', ']']
  | .obj _ => ['\x7b', '\x7d']

mutual

/-- The text of a value without any blank. -/
def compactChars : Json → List Char
  | .arr items => '[' :: (compactItems items ++ [']'])
  | .obj entries => '\x7b' :: (compactEntries entries ++ ['\x7d'])
  | atom => atom.atomChars

/-- The texts of items with commas between them. -/
def compactItems : List Json → List Char
  | [] => []
  | [item] => compactChars item
  | item :: next :: rest => compactChars item ++ ',' :: compactItems (next :: rest)

def compactEntries : List (String × Json) → List Char
  | [] => []
  | [(key, value)] => quoteChars key ++ ':' :: compactChars value
  | (key, value) :: next :: rest =>
    quoteChars key ++ ':' :: (compactChars value ++ ',' :: compactEntries (next :: rest))

end

/-- The text of a value without any blank. -/
def compact (j : Json) : String := String.ofList j.compactChars

/-- A new line with two blanks for each enclosing array or object. -/
def newLine (level : Nat) : List Char :=
  '\n' :: List.replicate (2 * level) ' '

mutual

/-- The text of a value with each part on a line of its own. -/
def prettyChars (level : Nat) : Json → List Char
  | .arr (item :: rest) => '[' :: (prettyItems (level + 1) (item :: rest) ++ newLine level ++ [']'])
  | .obj (entry :: rest) =>
    '\x7b' :: (prettyEntries (level + 1) (entry :: rest) ++ newLine level ++ ['\x7d'])
  | atom => atom.atomChars

def prettyItems (level : Nat) : List Json → List Char
  | [] => []
  | [item] => newLine level ++ prettyChars level item
  | item :: next :: rest =>
    newLine level ++ prettyChars level item ++ ',' :: prettyItems level (next :: rest)

def prettyEntries (level : Nat) : List (String × Json) → List Char
  | [] => []
  | [(key, value)] => newLine level ++ quoteChars key ++ ':' :: ' ' :: prettyChars level value
  | (key, value) :: next :: rest =>
    newLine level ++ quoteChars key ++ ':' :: ' ' :: (prettyChars level value ++
      ',' :: prettyEntries level (next :: rest))

end

/-- The text of a value with each part on a line of its own. -/
def pretty (j : Json) : String := String.ofList (j.prettyChars 0)

end Json

end DecoderForge
