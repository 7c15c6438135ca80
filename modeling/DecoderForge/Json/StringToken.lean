/-
This file reads JSON strings one character at a time.
-/

import DecoderForge.Json.Cursor

namespace DecoderForge

namespace Json

/-- What the characters read so far leave a string reader to expect. -/
inductive StringState where
  | plain
  | escape
  /-- Digits of a code unit: the half of a pair before it, the offset of the first digit, the
  number of digits read and their value. -/
  | digits (lead : Option Nat) (start count value : Nat)
  /-- The backslash, and then the letter, of the other half of a pair. -/
  | pairBackslash (lead : Nat)
  | pairLetter (lead : Nat)
deriving Repr

/-- The value of a hexadecimal digit. -/
def hexValue? (c : Char) : Option Nat :=
  if '0' ≤ c ∧ c ≤ '9' then some (c.toNat - 48)
  else if 'a' ≤ c ∧ c ≤ 'f' then some (c.toNat - 87)
  else if 'A' ≤ c ∧ c ≤ 'F' then some (c.toNat - 55)
  else none

/-- The character that a letter behind a backslash names. -/
def escaped? (c : Char) : Option Char :=
  if c = '"' ∨ c = '\\' ∨ c = '/' then some c
  else if c = 'b' then some '\x08'
  else if c = 'f' then some '\x0c'
  else if c = 'n' then some '\n'
  else if c = 'r' then some '\r'
  else if c = 't' then some '\t'
  else none

def isLead (unit : Nat) : Bool := 0xD800 ≤ unit && unit ≤ 0xDBFF

def isTrail (unit : Nat) : Bool := 0xDC00 ≤ unit && unit ≤ 0xDFFF

/-- The state behind a code unit, and the character that is complete with it. -/
def StringState.afterUnit (lead : Option Nat) (unit : Nat) : Option (StringState × List Char) :=
  match lead with
  | none =>
    if isTrail unit then none
    else if isLead unit then some (.pairBackslash unit, [])
    else some (.plain, [Char.ofNat unit])
  | some lead =>
    if isTrail unit then
      some (.plain, [Char.ofNat ((lead - 0xD800) * 0x400 + (unit - 0xDC00) + 0x10000)])
    else none

/-- The characters of a string up to its closing quotation mark, and the cursor behind it. -/
def stringFrom (mode : Mode) (state : StringState) (offset : Nat) :
    List Char → Except Fault (List Char × Cursor)
  | [] => .error ⟨.unfinishedString, offset⟩
  | c :: rest =>
    let next := offset + c.utf8Size
    match state with
    | .plain =>
      if c = '"' then .ok ([], ⟨rest, next⟩)
      else if c = '\\' then stringFrom mode .escape next rest
      else if c.toNat < 0x20 then
        .error ⟨.controlCharacter, if mode = .keep then next else offset⟩
      else (stringFrom mode .plain next rest).map fun (chars, cursor) => (c :: chars, cursor)
    | .escape =>
      if c = 'u' then stringFrom mode (.digits none next 0 0) next rest
      else
        match escaped? c with
        | none => .error ⟨.invalidEscape, offset + 1⟩
        | some named =>
          (stringFrom mode .plain next rest).map fun (chars, cursor) => (named :: chars, cursor)
    | .digits lead start count value =>
      match hexValue? c with
      | none =>
        let stop := Cursor.remaining ⟨c :: rest, offset⟩ + offset
        if start + 4 ≤ stop then .error ⟨.invalidEscape, start + 4⟩
        else .error ⟨.unfinishedString, stop⟩
      | some digit =>
        let unit := 16 * value + digit
        if count < 3 then stringFrom mode (.digits lead start (count + 1) unit) next rest
        else if mode = .pass then stringFrom mode .plain next rest
        else
          match StringState.afterUnit lead unit with
          | none => .error ⟨.loneSurrogate, next⟩
          | some (state, complete) =>
            (stringFrom mode state next rest).map fun (chars, cursor) =>
              (complete ++ chars, cursor)
    | .pairBackslash lead =>
      if c = '\\' then stringFrom mode (.pairLetter lead) next rest
      else .error ⟨.unfinishedSurrogates, offset + 1⟩
    | .pairLetter lead =>
      if c = 'u' then stringFrom mode (.digits (some lead) next 0 0) next rest
      else .error ⟨.unfinishedSurrogates, offset + 1⟩

/-- The string behind an opening quotation mark. -/
def stringToken (mode : Mode) (cursor : Cursor) : Except Fault (String × Cursor) :=
  (stringFrom mode .plain cursor.offset cursor.chars).map fun (chars, cursor) =>
    (String.ofList chars, cursor)

end Json

end DecoderForge
