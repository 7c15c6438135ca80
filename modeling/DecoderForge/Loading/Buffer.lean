/-
This file loads the parts of values that have been buffered, where only the cause of a failure is
known and neither its path nor its place.
-/

import DecoderForge.Loading.Columns

namespace DecoderForge

namespace Loading

namespace Buffer

variable {α σ τ : Type}

def text : Json → Except Cause String
  | .str s => .ok s
  | other => .error (.wrongType (.ofJson other) .string)

def flag : Json → Except Cause Bool
  | .bool b => .ok b
  | other => .error (.wrongType (.ofJson other) .boolean)

def list (item : Json → Except Cause α) : Json → Except Cause (List α)
  | .arr items => items.mapM item
  | other => .error (.wrongType (.ofJson other) .sequence)

def optional (value : Json → Except Cause α) : Json → Except Cause (Option α)
  | .null => .ok none
  | other => (value other).map some

/-- The field that a record must have. -/
def required (name : String) : Option α → Except Cause α
  | some value => .ok value
  | none => .error (.missingField name)

/-- The state behind all entries; other keys are passed over. -/
def entries (columns : Columns Json Cause σ) : List (String × Json) → σ → Except Cause σ
  | [], state => .ok state
  | (key, value) :: rest, state =>
    match columns.taken? key state with
    | none => entries columns rest state
    | some true => .error (.repeatedField key)
    | some false => (columns.read key value state).bind (entries columns rest)

/-- The element at an index of a record that is written as a list. -/
def element (items : List Json) (i : Nat) (expected : Expected) (value : Json → Except Cause α) :
    Except Cause α :=
  match items[i]? with
  | some item => value item
  | none => .error (.wrongLength i expected)

/-- No more elements than a record has fields. -/
def noMore (items : List Json) (count : Nat) : Except Cause Unit :=
  if items.length ≤ count then .ok () else .error (.wrongLength items.length (.elements count))

/-- A record with one field. -/
def single (key : String) (record listed : Expected) (value : Json → Except Cause α) :
    Json → Except Cause α
  | .obj es => do required key (← entries (.one key value) es none)
  | .arr items => do
    let first ← element items 0 listed value
    noMore items 1
    return first
  | other => .error (.wrongType (.ofJson other) record)

/-- A record with two fields. -/
def double {β : Type} (key key' : String) (record listed : Expected)
    (value : Json → Except Cause α) (value' : Json → Except Cause β) : Json → Except Cause (α × β)
  | .obj es => do
    let columns := (Columns.one key value).and (.one key' value')
    let (first, second) ← entries columns es columns.none
    return (← required key first, ← required key' second)
  | .arr items => do
    let first ← element items 0 listed value
    let second ← element items 1 listed value'
    noMore items 2
    return (first, second)
  | other => .error (.wrongType (.ofJson other) record)

/-- No content, although other fields may stand there. -/
def nothing : Json → Except Cause Unit
  | .arr items => noMore items 0
  | _ => .ok ()

/-- One of several names, or the index of one. A name that is not among them stands for `other`. -/
def variant (names : List (String × τ)) (other : Option τ) : Json → Except Cause τ
  | .str name =>
    match (names.lookup name).or other with
    | some v => .ok v
    | none => .error (.unknownVariant name (names.map Prod.fst))
  | .num (.int (.ofNat i)) =>
    match (names[i]?.map Prod.snd).or other with
    | some v => .ok v
    | none => .error (.wrongValue (.ofJson (.nat i)) (.variantIndex names.length))
  | value => .error (.wrongType (.ofJson value) .variantName)

/-- Null, or an object without entries. -/
def unit : Json → Except Cause Unit
  | .null => .ok ()
  | .obj [] => .ok ()
  | other => .error (.wrongType (.ofJson other) .unit)

/-- One of several names that have no content, which may also be written as a key. -/
def choice (names : List (String × τ)) : Json → Except Cause τ
  | .str name => variant names none (.str name)
  | .obj [(name, content)] => do
    let v ← variant names none (.str name)
    unit content
    return v
  | .obj _ => .error (.wrongValue .map .singleKeyMap)
  | other => .error (.wrongType (.ofJson other) .stringOrMap)

/-- The tag among the entries of an object, and the other entries. -/
def tagEntries (key : String) (tag : Json → Except Cause τ) :
    List (String × Json) → Option τ → Except Cause (τ × List (String × Json))
  | [], some found => .ok (found, [])
  | [], none => .error (.missingField key)
  | (name, value) :: rest, found =>
    if name = key then
      if found.isSome then .error (.repeatedField key)
      else (tag value).bind fun t => tagEntries key tag rest (some t)
    else (tagEntries key tag rest found).map fun (t, others) => (t, (name, value) :: others)

/-- A value with a tag among its entries or in front of its elements, and the rest of it. -/
def tagged (name key : String) (tag : Json → Except Cause τ) : Json → Except Cause (τ × Json)
  | .obj es => (tagEntries key tag es none).map fun (t, others) => (t, .obj others)
  | .arr [] => .error (.missingField key)
  | .arr (first :: rest) => (tag first).map fun t => (t, .arr rest)
  | other => .error (.wrongType (.ofJson other) (.tagged name))

end Buffer

end Loading

end DecoderForge
