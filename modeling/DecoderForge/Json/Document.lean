/-
This file reads a text as a document: a tree of values in which every place is noted where a reader
may have to give up. What is wrong with the text is noted in the tree as well, because a reader that
finds fault with an earlier value never comes to know of it.
-/

import DecoderForge.Json.Basic
import DecoderForge.Json.Passing

namespace DecoderForge

namespace Json

/-- A value without parts. -/
inductive Atom where
  | null
  | bool (value : Bool)
  | num (value : Number)
  | str (value : String)
deriving Repr, DecidableEq

def Atom.toJson : Atom → Json
  | .null => .null
  | .bool b => .bool b
  | .num n => .num n
  | .str s => .str s

/-- How the parts of a container end. -/
inductive Ending where
  /-- The offset behind the closing bracket. -/
  | closed (stop : Option Nat)
  /-- Something else stands instead of a further item, or of the colon behind a key. -/
  | broken (fault : Fault)
  /-- Something else stands instead of a further key. -/
  | brokenKey (fault : Fault)
  /-- The value under a key can neither be kept nor passed over. -/
  | brokenValue (key : String) (fault : Fault)
  /-- Some part cannot be read, so that the end is not found. -/
  | lost
deriving Repr

/--
An item of a list. A reader that wants no further item and no further value stands at `rest`, and
has the fault `overlong` unless the list ends there.
-/
structure ItemOf (δ : Type) where
  value : δ
  rest : Option Nat
  overlong : Option Fault
deriving Repr

/--
An entry of an object. A reader that gives up when it knows the key stands at `keyRest`, and one
that gives up behind the value at `rest`.
-/
structure EntryOf (δ : Type) where
  key : String
  keyStop : Option Nat
  keyRest : Option Nat
  value : δ
  rest : Option Nat
deriving Repr

/--
A value of a document. There are no offsets in a document that is no text. A container begins at
`start`, and `opened` is where a reader stands that looks for its end behind the bracket.
-/
inductive Document where
  | atom (value : Atom) (start stop : Option Nat)
  | list (start opened : Option Nat) (items : List (ItemOf Document)) (ending : Ending)
  | object (start opened : Option Nat) (entries : List (EntryOf Document)) (ending : Ending)
  /-- A reader that wants a name looks only at how the value begins, and may find another fault. -/
  | unreadable (fault asName : Fault)
  /-- No value follows a key. -/
  | absent (fault : Fault)
deriving Repr

abbrev Item := ItemOf Document

abbrev Entry := EntryOf Document

/-- Where a reader stands that looked for the end of a list, and what it found instead. -/
def endOfList (cursor : Cursor) : Nat × Option Fault :=
  let next := cursor.skipBlank
  match next.chars with
  | [] => (next.offset, some (next.fault .unfinishedList))
  | c :: _ =>
    if c = ']' then (next.offset + 1, none)
    else if c = ',' then
      let behind := next.skip.skipBlank
      (behind.offset, some (behind.faultAhead
        (if behind.chars.head? = some ']' then .trailingComma else .trailingCharacters)))
    else (next.offset, some (next.faultAhead .trailingCharacters))

/-- Where a reader stands that looked for the end of an object. -/
def endOfObject (cursor : Cursor) : Nat :=
  let next := cursor.skipBlank
  if next.chars.head? = some '\x7d' then next.offset + 1 else next.offset

/-- A value without parts, and the cursor behind it. -/
def readAtom (cursor : Cursor) : Document × Option Cursor :=
  let found (atom : Atom) (stop : Cursor) : Document × Option Cursor :=
    (.atom atom cursor.offset stop.offset, some stop)
  let strange := cursor.faultAhead .expectedValue
  let finish (read : Except Fault (Atom × Cursor)) : Document × Option Cursor :=
    match read with
    | .ok (atom, stop) => found atom stop
    | .error fault => (.unreadable fault strange, none)
  match cursor.chars with
  | [] =>
    let fault := cursor.fault .unfinishedValue
    (.unreadable fault fault, none)
  | c :: _ =>
    if c = 'n' then finish ((cursor.skip.word "ull".toList).map (.null, ·))
    else if c = 't' then finish ((cursor.skip.word "rue".toList).map (.bool true, ·))
    else if c = 'f' then finish ((cursor.skip.word "alse".toList).map (.bool false, ·))
    else if c = '"' then
      match stringToken .keep cursor.skip with
      | .ok (s, stop) => found (.str s) stop
      | .error fault => (.unreadable fault fault, none)
    else if c = '-' then
      finish ((numberToken true cursor.skip).map fun (n, stop) => (.num n, stop))
    else if c.isDigit then
      finish ((numberToken false cursor).map fun (n, stop) => (.num n, stop))
    else (.unreadable strange strange, none)

/-- Whether a list goes on at the cursor, and with what, or how it ends there. -/
def nextItem (first : Bool) (cursor : Cursor) : Except (Ending × Option Cursor) Cursor :=
  let next := cursor.skipBlank
  match next.chars with
  | [] => .error (.broken (next.fault .unfinishedList), none)
  | c :: _ =>
    if c = ']' then .error (.closed next.skip.offset, some next.skip)
    else if first then .ok next
    else if c = ',' then
      let behind := next.skip.skipBlank
      match behind.chars with
      | [] => .error (.broken (behind.fault .unfinishedValue), none)
      | c :: _ =>
        if c = ']' then .error (.broken (behind.faultAhead .trailingComma), none)
        else .ok behind
    else .error (.broken (next.faultAhead .expectedListEnd), none)

/-- The items of a list that are still to come, read by `value`, and the cursor behind the list. -/
def readItems (value : Cursor → Document × Option Cursor) :
    (fuel : Nat) → (first : Bool) → Cursor → List Item × Ending × Option Cursor
  | 0, _, _ => ([], .lost, none)
  | fuel + 1, first, cursor =>
    match nextItem first cursor with
    | .error (ending, stop) => ([], ending, stop)
    | .ok start =>
      match value start with
      | (document, none) => ([⟨document, none, none⟩], .lost, none)
      | (document, some stop) =>
        let (rest, overlong) := endOfList stop
        let (items, ending, behind) := readItems value fuel false stop
        (⟨document, some rest, overlong⟩ :: items, ending, behind)

/-- The next key of an object and the cursor behind it, or how the object ends there. -/
def nextKey (first : Bool) (cursor : Cursor) :
    Except (Ending × Option Cursor) (String × Cursor) :=
  let next := cursor.skipBlank
  let key (start : Cursor) : Except (Ending × Option Cursor) (String × Cursor) :=
    (stringToken .keep start).mapError fun fault => (.brokenKey fault, none)
  match next.chars with
  | [] => .error (.brokenKey (next.fault .unfinishedObject), none)
  | c :: _ =>
    if c = '\x7d' then .error (.closed next.skip.offset, some next.skip)
    else if first then
      if c = '"' then key next.skip
      else .error (.brokenKey (next.faultAhead .keyNotString), none)
    else if c = ',' then
      let behind := next.skip.skipBlank
      match behind.chars with
      | [] => .error (.brokenKey (behind.fault .unfinishedValue), none)
      | c :: _ =>
        if c = '"' then key behind.skip
        else if c = '\x7d' then .error (.brokenKey (behind.faultAhead .trailingComma), none)
        else .error (.brokenKey (behind.faultAhead .keyNotString), none)
    else .error (.brokenKey (next.faultAhead .expectedObjectEnd), none)

/--
The entries of an object that are still to come. Behind a value that cannot be kept the object goes
on if the value can be passed over, because a reader may not ask for it.
-/
def readEntries (value : Cursor → Document × Option Cursor) :
    (fuel : Nat) → (first : Bool) → Cursor → List Entry × Ending × Option Cursor
  | 0, _, _ => ([], .lost, none)
  | fuel + 1, first, cursor =>
    match nextKey first cursor with
    | .error (ending, stop) => ([], ending, stop)
    | .ok (key, keyStop) =>
      let keyRest := endOfObject keyStop
      let entry (document : Document) (rest : Option Nat) : Entry :=
        ⟨key, some keyStop.offset, some keyRest, document, rest⟩
      match colon keyStop with
      | .error fault => ([entry (.absent fault) none], .broken fault, none)
      | .ok start =>
        match value start with
        | (document, some stop) =>
          let (entries, ending, behind) := readEntries value fuel false stop
          (entry document (some (endOfObject stop)) :: entries, ending, behind)
        | (document, none) =>
          match passValue start with
          | .error fault => ([entry document none], .brokenValue key fault, none)
          | .ok stop =>
            let (entries, ending, behind) := readEntries value fuel false stop
            (entry document none :: entries, ending, behind)

/-- A value in which at most `levels` lists and objects stand within each other, and the cursor
behind it unless it is too badly written to find that. -/
def readValue : (levels : Nat) → Cursor → Document × Option Cursor
  | levels, cursor =>
    let start := cursor.skipBlank
    match start.chars.head?.bind Container.ofOpening?, levels with
    | none, _ => readAtom start
    | some container, 0 =>
      let fault := start.faultAhead .tooDeep
      let asName := if container = .object then fault else start.faultAhead .expectedValue
      (.unreadable fault asName, none)
    | some .list, levels + 1 =>
      let (items, ending, stop) :=
        readItems (readValue levels) (start.chars.length + 1) true start.skip
      (.list start.offset (endOfList start.skip).1 items ending, stop)
    | some .object, levels + 1 =>
      let (entries, ending, stop) :=
        readEntries (readValue levels) (start.chars.length + 1) true start.skip
      (.object start.offset (endOfObject start.skip) entries ending, stop)

/-- The number of lists and objects that may stand within each other. -/
def greatestDepth : Nat := 127

/-- The document at the beginning of a text. -/
def Document.ofChars (chars : List Char) : Document :=
  (readValue greatestDepth (.ofChars chars)).1

def Document.ofText (text : String) : Document := .ofChars text.toList

mutual

/-- A value as a document that is no text. -/
def Document.ofJson : Json → Document
  | .null => .atom .null none none
  | .bool b => .atom (.bool b) none none
  | .num n => .atom (.num n) none none
  | .str s => .atom (.str s) none none
  | .arr items => .list none none (itemsOfJson items) (.closed none)
  | .obj entries => .object none none (entriesOfJson entries) (.closed none)

def Document.itemsOfJson : List Json → List Item
  | [] => []
  | item :: rest => ⟨Document.ofJson item, none, none⟩ :: itemsOfJson rest

def Document.entriesOfJson : List (String × Json) → List Entry
  | [] => []
  | (key, value) :: rest => ⟨key, none, none, Document.ofJson value, none⟩ :: entriesOfJson rest

end

end Json

end DecoderForge
