/-
This file says which JSON values a type allows.
-/

import DecoderForge.Proofs.Meaning.Decoder
import DecoderForge.Symbols

namespace DecoderForge

/-- A string or a number stands for one value, as a constant does. JSON has no big integers. -/
def LiteralValue.Denotes : LiteralValue → Json → Prop
  | .string s, value => (Constant.string s).Denotes value
  | .number n, value => (Constant.number n).Denotes value
  | .boolean b, value => value = .bool b
  | .null, value => value = .null
  | .bigInt _, _ => False

/-- What is known elsewhere: the types and decoders that are only named, and the types that have no
decoder. -/
structure Environment where
  /-- The values of the type of a name. -/
  types : String → Json → Prop
  /-- The values that the decoder of a name accepts. -/
  decoders : String → Json → Prop
  /-- The decoder that is named after a type accepts the values of the type. -/
  agree : ∀ name value, decoders (decoderName name) value ↔ types name value
  constructs : String → Json → Prop
  unrecognized : Json → Prop

/-- The values of a type. An object may have more keys than a record has fields. -/
inductive Descriptor.Allows (environment : Environment) : Descriptor → Json → Prop
  | string (s : String) : Allows environment (.primitive .string) (.str s)
  | number (n : Number) : Allows environment (.primitive .number) (.num n)
  | boolean (b : Bool) : Allows environment (.primitive .boolean) (.bool b)
  | opaqueObject (entries : List (String × Json)) :
      Allows environment .opaqueObject (.obj entries)
  | union (members : List Descriptor) (member : Descriptor) (value : Json)
      (inside : member ∈ members) (allowed : Allows environment member value) :
      Allows environment (.union members) value
  | array (element : Descriptor) (items : List Json)
      (each : ∀ item ∈ items, Allows environment element item) :
      Allows environment (.array element) (.arr items)
  | tuple (elements : List Descriptor) (items : List Json) (length : elements.length = items.length)
      (each : ∀ slot ∈ elements.zip items, Allows environment slot.1 slot.2) :
      Allows environment (.tuple elements) (.arr items)
  | literal (literal : LiteralValue) (value : Json) (same : literal.Denotes value) :
      Allows environment (.literal literal) value
  | reference (name : String) (value : Json) (allowed : environment.types name value) :
      Allows environment (.reference name) value
  | record (fields : List Field) (entries : List (String × Json))
      (present : ∀ field ∈ fields, ∀ value, Entries.get? field.name entries = some value →
        Allows environment field.type value)
      (missing : ∀ field ∈ fields, Entries.get? field.name entries = none → field.optional = true) :
      Allows environment (.record fields) (.obj entries)
  | unsupported (construct : String) (value : Json)
      (allowed : environment.constructs construct value) :
      Allows environment (.unsupported construct) value
  | unrecognized (value : Json) (allowed : environment.unrecognized value) :
      Allows environment .unrecognized value

namespace Descriptor

variable {environment : Environment}

theorem allows_string_iff (value : Json) :
    Allows environment (.primitive .string) value ↔ ∃ s, value = .str s := by
  constructor
  · intro allowed
    cases allowed with
    | string s => exact ⟨s, rfl⟩
  · rintro ⟨s, rfl⟩
    exact .string s

theorem allows_number_iff (value : Json) :
    Allows environment (.primitive .number) value ↔ ∃ n, value = .num n := by
  constructor
  · intro allowed
    cases allowed with
    | number n => exact ⟨n, rfl⟩
  · rintro ⟨n, rfl⟩
    exact .number n

theorem allows_boolean_iff (value : Json) :
    Allows environment (.primitive .boolean) value ↔ ∃ b, value = .bool b := by
  constructor
  · intro allowed
    cases allowed with
    | boolean b => exact ⟨b, rfl⟩
  · rintro ⟨b, rfl⟩
    exact .boolean b

theorem allows_opaqueObject_iff (value : Json) :
    Allows environment .opaqueObject value ↔ ∃ entries, value = .obj entries := by
  constructor
  · intro allowed
    cases allowed with
    | opaqueObject entries => exact ⟨entries, rfl⟩
  · rintro ⟨entries, rfl⟩
    exact .opaqueObject entries

theorem allows_union_iff (members : List Descriptor) (value : Json) :
    Allows environment (.union members) value ↔ ∃ member ∈ members,
      Allows environment member value := by
  constructor
  · intro allowed
    cases allowed with
    | union _ member _ inside inner => exact ⟨member, inside, inner⟩
  · rintro ⟨member, inside, inner⟩
    exact .union members member value inside inner

theorem allows_array_iff (element : Descriptor) (value : Json) :
    Allows environment (.array element) value ↔
      ∃ items, value = .arr items ∧ ∀ item ∈ items, Allows environment element item := by
  constructor
  · intro allowed
    cases allowed with
    | array _ items each => exact ⟨items, rfl, each⟩
  · rintro ⟨items, rfl, each⟩
    exact .array element items each

theorem allows_tuple_iff (elements : List Descriptor) (value : Json) :
    Allows environment (.tuple elements) value ↔
      ∃ items, value = .arr items ∧ elements.length = items.length ∧
        ∀ slot ∈ elements.zip items, Allows environment slot.1 slot.2 := by
  constructor
  · intro allowed
    cases allowed with
    | tuple _ items length each => exact ⟨items, rfl, length, each⟩
  · rintro ⟨items, rfl, length, each⟩
    exact .tuple elements items length each

theorem allows_literal_iff (literal : LiteralValue) (value : Json) :
    Allows environment (.literal literal) value ↔ literal.Denotes value := by
  constructor
  · intro allowed
    cases allowed with
    | literal _ _ same => exact same
  · exact .literal literal value

theorem allows_reference_iff (name : String) (value : Json) :
    Allows environment (.reference name) value ↔ environment.types name value := by
  constructor
  · intro allowed
    cases allowed with
    | reference _ _ inner => exact inner
  · exact .reference name value

theorem allows_record_iff (fields : List Field) (value : Json) :
    Allows environment (.record fields) value ↔
      ∃ entries, value = .obj entries ∧ ∀ field ∈ fields,
        (∀ inner, Entries.get? field.name entries = some inner →
          Allows environment field.type inner) ∧
        (Entries.get? field.name entries = none → field.optional = true) := by
  constructor
  · intro allowed
    cases allowed with
    | record _ entries present missing =>
      exact ⟨entries, rfl, fun field inside => ⟨present field inside, missing field inside⟩⟩
  · rintro ⟨entries, rfl, each⟩
    exact .record fields entries (fun field inside => (each field inside).1)
      fun field inside => (each field inside).2

end Descriptor

end DecoderForge
