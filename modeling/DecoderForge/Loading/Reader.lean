/-
This file loads the parts of documents, and settles for each failure where in the text it lies: a
value of the wrong kind is found behind it, or at its bracket; what is wrong with a whole record is
found where its reader gives up.
-/

import DecoderForge.Loading.TagAndContent

namespace DecoderForge

namespace Loading

open Json (Document Item Entry Ending)

variable {α β σ τ : Type}

/-- A cause that is not yet settled. -/
def Failure.ofCause (cause : Cause) : Failure := ⟨cause, [], none⟩

namespace Reader

/-- The failure behind the last part of a container that does not end as it should. -/
def endingFailure : Ending → Option Failure
  | .closed _ | .lost => none
  | .broken fault => some (.ofFault fault)
  | .brokenKey fault => some ((Failure.ofFault fault).within .unknown)
  | .brokenValue key fault => some ((Failure.ofFault fault).within (.key key))

/-- The offset behind the closing bracket. -/
def stop : Ending → Option Nat
  | .closed offset => offset
  | _ => none

/-- The failure of the value under a key. -/
def withinValue (key : String) (value : Document) (failure : Failure) : Failure :=
  match value with
  | .absent _ => failure
  | _ => failure.within (.key key)

mutual

/-- Buffers a document, which finds everything that is wrong with its text. -/
def buffer : Document → Except Failure Json
  | .atom value _ _ => .ok value.toJson
  | .list _ _ items ending => (bufferItems 0 ending items).map .arr
  | .object _ _ entries ending => (bufferEntries ending entries).map .obj
  | .unreadable fault _ | .absent fault => .error (.ofFault fault)

/-- Buffers the items of a list from the index `i` on. -/
def bufferItems (i : Nat) (ending : Ending) : List Item → Except Failure (List Json)
  | [] =>
    match endingFailure ending with
    | some failure => .error failure
    | none => .ok []
  | ⟨value, _, _⟩ :: rest =>
    match (buffer value).mapError (Failure.within (.index i)) with
    | .error failure => .error failure
    | .ok item => (bufferItems (i + 1) ending rest).map (item :: ·)

def bufferEntries (ending : Ending) : List Entry → Except Failure (List (String × Json))
  | [] =>
    match endingFailure ending with
    | some failure => .error failure
    | none => .ok []
  | ⟨key, _, _, value, _⟩ :: rest =>
    match (buffer value).mapError (withinValue key value) with
    | .error failure => .error failure
    | .ok value => (bufferEntries ending rest).map ((key, value) :: ·)

end

/-- A document that is not of the right kind. -/
def wrongType (expected : Expected) : Document → Failure
  | .atom value _ offset => ⟨.wrongType (.atom value) expected, [], offset⟩
  | .list start _ _ _ => ⟨.wrongType .sequence expected, [], start⟩
  | .object start _ _ _ => ⟨.wrongType .map expected, [], start⟩
  | .unreadable fault _ | .absent fault => .ofFault fault

/-- A document that is not of the right kind, where lists and objects are opened before that is
found out. -/
def wrongContent (expected : Expected) : Document → Failure
  | .list _ opened _ _ => ⟨.wrongType .sequence expected, [], opened⟩
  | .object _ opened _ _ => ⟨.wrongType .map expected, [], opened⟩
  | other => wrongType expected other

def text : Loader String
  | .atom (.str s) _ _ => .ok s
  | other => .error (wrongType .string other)

def flag : Loader Bool
  | .atom (.bool b) _ _ => .ok b
  | other => .error (wrongType .boolean other)

def optional (value : Loader α) : Loader (Option α)
  | .atom .null _ _ => .ok none
  | other => (value other).map some

/-- A document of any kind, in which the last entry of a key counts. -/
def anything : Loader Json := fun document => (buffer document).map Json.distinct

/-- The failure of an item. -/
def inItem (i : Nat) (item : Item) (failure : Failure) : Failure :=
  (failure.within (.index i)).settle item.rest

/-- The failure of the value of an entry. -/
def inEntry (entry : Entry) (failure : Failure) : Failure :=
  (withinValue entry.key entry.value failure).settle entry.rest

/-- The items of a list from the index `i` on. -/
def items (value : Loader α) (ending : Ending) (i : Nat) : List Item → Except Failure (List α)
  | [] =>
    match endingFailure ending with
    | some failure => .error failure
    | none => .ok []
  | item :: rest =>
    match (value item.value).mapError (inItem i item) with
    | .error failure => .error failure
    | .ok a => (items value ending (i + 1) rest).map (a :: ·)

def list (value : Loader α) : Loader (List α)
  | .list _ _ is ending => items value ending 0 is
  | other => .error (wrongType .sequence other)

/-- The state behind all entries. Other keys are passed over, or refused where all the known keys
are given. -/
def entries (columns : Columns Document Failure σ) (known : Option (List String))
    (ending : Ending) : List Entry → σ → Except Failure σ
  | [], state =>
    match endingFailure ending with
    | some failure => .error failure
    | none => .ok state
  | entry :: rest, state =>
    match columns.taken? entry.key state, known with
    | none, none => entries columns known ending rest state
    | none, some names =>
      .error ⟨.unknownField entry.key names, [.key entry.key], entry.keyRest⟩
    | some true, _ => .error ⟨.repeatedField entry.key, [], entry.keyRest⟩
    | some false, _ =>
      match (columns.read entry.key entry.value state).mapError (inEntry entry) with
      | .error failure => .error failure
      | .ok state => entries columns known ending rest state

/-- The field that a record must have. -/
def required (name : String) (ending : Ending) : Option α → Except Failure α
  | some value => .ok value
  | none => .error ⟨.missingField name, [], stop ending⟩

/-- The element at an index of a record that is written as a list, if the list is long enough. -/
def element? (is : List Item) (ending : Ending) (i : Nat) (value : Loader α) :
    Except Failure (Option α) :=
  match is[i]? with
  | some item => ((value item.value).mapError (inItem i item)).map some
  | none =>
    match endingFailure ending with
    | some failure => .error failure
    | none => .ok none

def element (is : List Item) (ending : Ending) (i : Nat) (expected : Expected)
    (value : Loader α) : Except Failure α := do
  match ← element? is ending i value with
  | some a => return a
  | none => throw ⟨.wrongLength i expected, [], stop ending⟩

/-- No more elements than a record has fields. -/
def noMore (is : List Item) (count : Nat) : Except Failure Unit :=
  match (is[count - 1]?).bind (·.overlong) with
  | some fault => .error (.ofFault fault)
  | none =>
    if is.length ≤ count then .ok () else .error (.ofCause (.wrongLength is.length .fewer))

/-- A name, which stands for `other` when it is none of the given ones. -/
def variant (names : List (String × τ)) (other : Option τ) : Loader τ
  | .atom (.str name) _ offset =>
    match (names.lookup name).or other with
    | some v => .ok v
    | none => .error ⟨.unknownVariant name (names.map Prod.fst), [], offset⟩
  | document => .error (wrongType .variantName document)

/-- The content of a name that is written as a key. -/
def unit : Loader Unit
  | .atom .null _ _ => .ok ()
  | other => .error (wrongType .unit other)

/-- One of several names in an object with a single key. -/
def choiceOfKey (names : List (String × τ)) (entry : Entry) (more : Bool) (ending : Ending) :
    Except Failure τ := do
  let v ←
    match names.lookup entry.key with
    | some v => .ok v
    | none => .error ⟨.unknownVariant entry.key (names.map Prod.fst), [], entry.keyStop⟩
  match entry.value with
  | .absent fault => throw (.ofFault fault)
  | content => (unit content).mapError (Failure.within (.key entry.key))
  match ending, more with
  | .closed _, false => return v
  | .brokenKey ⟨.unfinishedObject, offset⟩, false =>
    throw ⟨.malformed .unfinishedObject, [], some offset⟩
  | _, _ => throw ⟨.malformed .expectedValue, [], entry.rest⟩

/-- One of several names that have no content, which may also be written as a key. -/
def choice (names : List (String × τ)) : Loader τ
  | .atom (.str name) start offset => variant names none (.atom (.str name) start offset)
  | .atom _ (some start) _ => .error ⟨.malformed .expectedValue, [], some (start + 1)⟩
  | .atom value none _ => .error (.ofCause (.wrongType (.atom value) .stringOrMap))
  | .list (some start) _ _ _ => .error ⟨.malformed .expectedValue, [], some (start + 1)⟩
  | .list none _ _ _ => .error (.ofCause (.wrongType .sequence .stringOrMap))
  | .object (some _) _ (entry :: rest) ending => choiceOfKey names entry (!rest.isEmpty) ending
  | .object (some _) _ [] (.brokenKey ⟨.unfinishedObject, offset⟩) =>
    .error ⟨.malformed .unfinishedValue, [], some offset⟩
  | .object (some _) _ [] (.brokenKey fault) => .error (.ofFault fault)
  | .object (some _) _ [] ending => .error ⟨.malformed .expectedValue, [], stop ending⟩
  | .object none _ [entry] _ => choiceOfKey names entry false (.closed none)
  | .object none _ _ _ => .error (.ofCause (.wrongValue .map .singleKeyMap))
  | .unreadable _ asName => .error (.ofFault asName)
  | .absent fault => .error (.ofFault fault)

/-- The tag among the entries of an object, and the other entries. -/
def tagEntries (key : String) (tag : Loader τ) (ending : Ending) :
    List Entry → Option τ → Except Failure (τ × List (String × Json))
  | [], found =>
    match endingFailure ending, found with
    | some failure, _ => .error failure
    | none, some t => .ok (t, [])
    | none, none => .error ⟨.missingField key, [], stop ending⟩
  | entry :: rest, found =>
    if entry.key = key then
      if found.isSome then .error ⟨.repeatedField key, [], entry.keyRest⟩
      else
        match (tag entry.value).mapError (inEntry entry) with
        | .error failure => .error failure
        | .ok t => tagEntries key tag ending rest (some t)
    else
      match (buffer entry.value).mapError (inEntry entry) with
      | .error failure => .error failure
      | .ok value =>
        (tagEntries key tag ending rest found).map fun (t, others) =>
          (t, (entry.key, value) :: others)

/-- A value with a tag among its entries or in front of its elements, and the rest of it. -/
def tagged (name key : String) (tag : Loader τ) : Loader (τ × Json)
  | .object _ _ es ending =>
    (tagEntries key tag ending es none).map fun (t, others) => (t, .obj others)
  | .list _ _ is ending => do
    match ← element? is ending 0 tag with
    | none => throw ⟨.missingField key, [], stop ending⟩
    | some t => return (t, .arr (← bufferItems 1 ending (is.drop 1)))
  | other => .error (wrongType (.tagged name) other)

/-- What is known behind all entries. -/
def tagAndContentEntries (shape : TagAndContent) (tag : Loader τ)
    (loader : ContentLoader Document Failure τ α) (buffered : τ → Json → Except Cause α)
    (ending : Ending) : List Entry → Progress τ α → Except Failure (Progress τ α)
  | [], progress =>
    match endingFailure ending with
    | some failure => .error failure
    | none => .ok progress
  | entry :: rest, progress =>
    let goOn := tagAndContentEntries shape tag loader buffered ending rest
    let value {γ : Type} (load : Loader γ) : Except Failure γ :=
      (load entry.value).mapError (inEntry entry)
    if entry.key = shape.tagKey then
      match progress with
      | .nothing => (value tag).bind fun t => goOn (.tag t)
      | .content content =>
        (value tag).bind fun t =>
          ((buffered t content).mapError fun cause => ⟨cause, [], entry.rest⟩).bind fun a =>
            goOn (.both a)
      | _ => .error ⟨.repeatedField entry.key, [], entry.keyRest⟩
    else if entry.key = shape.contentKey then
      match progress with
      | .nothing => (value buffer).bind fun content => goOn (.content content)
      | .tag t => (value (loader.content t)).bind fun a => goOn (.both a)
      | _ => .error ⟨.repeatedField entry.key, [], entry.keyRest⟩
    else goOn progress

/-- A value with a tag and a content. In a list the content cannot be left out. -/
def tagAndContent (shape : TagAndContent) (names : List (String × τ))
    (loader : ContentLoader Document Failure τ α) (buffered : τ → Json → Except Cause α) : Loader α
  | .object _ _ es ending => do
    match ← tagAndContentEntries shape (choice names) loader buffered ending es .nothing with
    | .both a => return a
    | .tag t => (loader.bare t).mapError (Failure.settle (stop ending))
    | _ => throw ⟨.missingField shape.tagKey, [], stop ending⟩
  | .list _ _ is ending => do
    let t ← element is ending 0 (.tagAndContent shape.name) (variant names none)
    let a ← element is ending 1 (.tagAndContent shape.name) (loader.content t)
    noMore is 2
    return a
  | other => .error (wrongType (.tagAndContent shape.name) other)

end Reader

end Loading

end DecoderForge
