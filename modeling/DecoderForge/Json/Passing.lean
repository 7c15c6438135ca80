/-
This file passes over a value that nobody asks for. Nothing limits how deep such a value nests.
-/

import DecoderForge.Json.NumberToken
import DecoderForge.Json.StringToken

namespace DecoderForge

namespace Json

/-- The two kinds of values with parts. -/
inductive Container where
  | list
  | object
deriving Repr, DecidableEq

namespace Container

/-- The kind of container that a character opens. -/
def ofOpening? (c : Char) : Option Container :=
  if c = '[' then some .list else if c = '\x7b' then some .object else none

def closing : Container → Char
  | .list => ']'
  | .object => '\x7d'

/-- The text ends within the container. -/
def unfinished : Container → Malformation
  | .list => .unfinishedList
  | .object => .unfinishedObject

/-- Neither a comma nor the closing bracket follows a part. -/
def expectedEnd : Container → Malformation
  | .list => .expectedListEnd
  | .object => .expectedObjectEnd

end Container

/-- The cursor behind a value without parts that begins with the next character. -/
def passAtom (cursor : Cursor) : Except Fault Cursor :=
  match cursor.chars with
  | [] => .error (cursor.fault .unfinishedValue)
  | c :: _ =>
    if c = 'n' then cursor.skip.word "ull".toList
    else if c = 't' then cursor.skip.word "rue".toList
    else if c = 'f' then cursor.skip.word "alse".toList
    else if c = '"' then (stringToken .pass cursor.skip).map Prod.snd
    else if c = '-' then (numeral .pass true cursor.skip).map Prod.snd
    else if c.isDigit then (numeral .pass false cursor).map Prod.snd
    else .error (cursor.faultAhead .expectedValue)

/-- The cursor behind a colon. -/
def colon (cursor : Cursor) : Except Fault Cursor :=
  let next := cursor.skipBlank
  match next.chars with
  | [] => .error (next.fault .unfinishedObject)
  | c :: _ => if c = ':' then .ok next.skip else .error (next.faultAhead .expectedColon)

/-- The cursor behind what stands before the value of a part: a key and its colon, or nothing. -/
def passLabel (container : Container) (cursor : Cursor) : Except Fault Cursor :=
  match container with
  | .list => .ok cursor
  | .object =>
    let next := cursor.skipBlank
    match next.chars with
    | [] => .error (next.fault .unfinishedObject)
    | c :: _ =>
      if c = '"' then (stringToken .pass next.skip).bind fun (_, stop) => colon stop
      else .error (next.faultAhead .keyNotString)

mutual

/-- The cursor behind a value; each step takes one of `fuel`. -/
def passFrom : (fuel : Nat) → Cursor → Except Fault Cursor
  | 0, cursor => .error (cursor.fault .unfinishedValue)
  | fuel + 1, cursor =>
    let start := cursor.skipBlank
    match start.chars.head?.bind Container.ofOpening? with
    | some container => passParts fuel container true start.skip
    | none => passAtom start

/-- The cursor behind the parts of a container that are still to come. -/
def passParts : (fuel : Nat) → Container → (first : Bool) → Cursor → Except Fault Cursor
  | 0, _, _, cursor => .error (cursor.fault .unfinishedValue)
  | fuel + 1, container, first, cursor =>
    let next := cursor.skipBlank
    match next.chars with
    | [] => .error (next.fault container.unfinished)
    | c :: _ =>
      if c = container.closing then .ok next.skip
      else if first then
        (passLabel container next).bind fun start =>
          (passFrom fuel start).bind (passParts fuel container false)
      else if c = ',' then
        (passLabel container next.skip).bind fun start =>
          (passFrom fuel start).bind (passParts fuel container false)
      else .error (next.faultAhead container.expectedEnd)

end

/-- The cursor behind a value. Of two steps one takes a character. -/
def passValue (cursor : Cursor) : Except Fault Cursor :=
  passFrom (2 * cursor.chars.length + 2) cursor

end Json

end DecoderForge
