/-
This file says which JSON values a decoder expression accepts, as the run-time library documents its
decoders. A decoder is given a value or, for a key that an object does not have, nothing.
-/

import DecoderForge.Decoder.Expr
import DecoderForge.Proofs.Entries
import DecoderForge.Proofs.Number.Value

namespace DecoderForge

/-- A constant stands for one string or one number. -/
def Constant.Denotes : Constant → Json → Prop
  | .string s, .str t => s = t
  | .number n, .num m => n.value = m.value
  | _, _ => False

/-- What an expression accepts where the named decoders accept the given values. -/
inductive DecoderExpr.Accepts (named : String → Json → Prop) : DecoderExpr → Option Json → Prop
  | string (s : String) : Accepts named (.call .string []) (some (.str s))
  | number (n : Number) : Accepts named (.call .number []) (some (.num n))
  | boolean (b : Bool) : Accepts named (.call .boolean []) (some (.bool b))
  | jsonObject (entries : List (String × Json)) :
      Accepts named (.call .jsonObject []) (some (.obj entries))
  | json (value : Json) : Accepts named (.call .json []) (some value)
  | constant (constant : Constant) (value : Json) (same : constant.Denotes value) :
      Accepts named (.call .constant [.constant constant]) (some value)
  | array (decoder : DecoderExpr) (items : List Json)
      (each : ∀ item ∈ items, Accepts named decoder (some item)) :
      Accepts named (.call .array [decoder]) (some (.arr items))
  | tuple (decoders : List DecoderExpr) (items : List Json)
      (length : decoders.length = items.length)
      (each : ∀ slot ∈ decoders.zip items, Accepts named slot.1 (some slot.2)) :
      Accepts named (.call .tuple decoders) (some (.arr items))
  | object (decoders : List (String × DecoderExpr)) (entries : List (String × Json))
      (each : ∀ entry ∈ decoders, Accepts named entry.2 (Entries.get? entry.1 entries)) :
      Accepts named (.call .object [.object decoders]) (some (.obj entries))
  | missing (decoder : DecoderExpr) : Accepts named (.call .optional [decoder]) none
  | present (decoder : DecoderExpr) (value : Json) (accepted : Accepts named decoder (some value)) :
      Accepts named (.call .optional [decoder]) (some value)
  | either (decoders : List DecoderExpr) (decoder : DecoderExpr) (value : Json)
      (member : decoder ∈ decoders) (accepted : Accepts named decoder (some value)) :
      Accepts named (.call .either decoders) (some value)
  | taggedUnion (tagField tag : String) (decoders : List (String × DecoderExpr))
      (decoder : DecoderExpr) (entries : List (String × Json))
      (tagged : Entries.get? tagField entries = some (.str tag))
      (chosen : Entries.get? tag decoders = some decoder)
      (accepted : Accepts named decoder (some (.obj entries))) :
      Accepts named (.call .taggedUnion [.constant (.string tagField), .object decoders])
        (some (.obj entries))
  | identifier (name : String) (value : Json) (accepted : named name value) :
      Accepts named (.identifier name) (some value)

namespace DecoderExpr

variable {named : String → Json → Prop}

theorem accepts_string_iff (value : Json) :
    Accepts named (.call .string []) (some value) ↔ ∃ s, value = .str s := by
  constructor
  · intro accepted
    cases accepted with
    | string s => exact ⟨s, rfl⟩
  · rintro ⟨s, rfl⟩
    exact .string s

theorem accepts_number_iff (value : Json) :
    Accepts named (.call .number []) (some value) ↔ ∃ n, value = .num n := by
  constructor
  · intro accepted
    cases accepted with
    | number n => exact ⟨n, rfl⟩
  · rintro ⟨n, rfl⟩
    exact .number n

theorem accepts_boolean_iff (value : Json) :
    Accepts named (.call .boolean []) (some value) ↔ ∃ b, value = .bool b := by
  constructor
  · intro accepted
    cases accepted with
    | boolean b => exact ⟨b, rfl⟩
  · rintro ⟨b, rfl⟩
    exact .boolean b

theorem accepts_jsonObject_iff (value : Json) :
    Accepts named (.call .jsonObject []) (some value) ↔ ∃ entries, value = .obj entries := by
  constructor
  · intro accepted
    cases accepted with
    | jsonObject entries => exact ⟨entries, rfl⟩
  · rintro ⟨entries, rfl⟩
    exact .jsonObject entries

theorem accepts_constant_iff (constant : Constant) (value : Json) :
    Accepts named (.call .constant [.constant constant]) (some value) ↔ constant.Denotes value := by
  constructor
  · intro accepted
    cases accepted with
    | constant _ _ same => exact same
  · exact .constant constant value

theorem accepts_array_iff (decoder : DecoderExpr) (value : Json) :
    Accepts named (.call .array [decoder]) (some value) ↔
      ∃ items, value = .arr items ∧ ∀ item ∈ items, Accepts named decoder (some item) := by
  constructor
  · intro accepted
    cases accepted with
    | array _ items each => exact ⟨items, rfl, each⟩
  · rintro ⟨items, rfl, each⟩
    exact .array decoder items each

theorem accepts_tuple_iff (decoders : List DecoderExpr) (value : Json) :
    Accepts named (.call .tuple decoders) (some value) ↔
      ∃ items, value = .arr items ∧ decoders.length = items.length ∧
        ∀ slot ∈ decoders.zip items, Accepts named slot.1 (some slot.2) := by
  constructor
  · intro accepted
    cases accepted with
    | tuple _ items length each => exact ⟨items, rfl, length, each⟩
  · rintro ⟨items, rfl, length, each⟩
    exact .tuple decoders items length each

theorem accepts_object_iff (decoders : List (String × DecoderExpr)) (value : Json) :
    Accepts named (.call .object [.object decoders]) (some value) ↔
      ∃ entries, value = .obj entries ∧
        ∀ entry ∈ decoders, Accepts named entry.2 (Entries.get? entry.1 entries) := by
  constructor
  · intro accepted
    cases accepted with
    | object _ entries each => exact ⟨entries, rfl, each⟩
  · rintro ⟨entries, rfl, each⟩
    exact .object decoders entries each

theorem accepts_optional_iff (decoder : DecoderExpr) (value : Json) :
    Accepts named (.call .optional [decoder]) (some value) ↔
      Accepts named decoder (some value) := by
  constructor
  · intro accepted
    cases accepted with
    | present _ _ inner => exact inner
  · exact .present decoder value

theorem accepts_either_iff (decoders : List DecoderExpr) (value : Json) :
    Accepts named (.call .either decoders) (some value) ↔
      ∃ decoder ∈ decoders, Accepts named decoder (some value) := by
  constructor
  · intro accepted
    cases accepted with
    | either _ decoder _ member inner => exact ⟨decoder, member, inner⟩
  · rintro ⟨decoder, member, inner⟩
    exact .either decoders decoder value member inner

theorem accepts_taggedUnion_iff (tagField : String) (decoders : List (String × DecoderExpr))
    (value : Json) :
    Accepts named (.call .taggedUnion [.constant (.string tagField), .object decoders])
        (some value) ↔
      ∃ entries tag decoder, value = .obj entries ∧
        Entries.get? tagField entries = some (.str tag) ∧
        Entries.get? tag decoders = some decoder ∧ Accepts named decoder (some value) := by
  constructor
  · intro accepted
    cases accepted with
    | taggedUnion _ tag _ decoder entries tagged chosen inner =>
      exact ⟨entries, tag, decoder, rfl, tagged, chosen, inner⟩
  · rintro ⟨entries, tag, decoder, rfl, tagged, chosen, inner⟩
    exact .taggedUnion tagField tag decoders decoder entries tagged chosen inner

theorem accepts_identifier_iff (name : String) (value : Json) :
    Accepts named (.identifier name) (some value) ↔ named name value := by
  constructor
  · intro accepted
    cases accepted with
    | identifier _ _ inner => exact inner
  · exact .identifier name value

/-- Nothing is accepted in the place of a value by an optional decoder alone. -/
theorem accepts_none_iff (expr : DecoderExpr) :
    Accepts named expr none ↔ ∃ decoder, expr = .call .optional [decoder] := by
  constructor
  · intro accepted
    cases accepted with
    | missing decoder => exact ⟨decoder, rfl⟩
  · rintro ⟨decoder, rfl⟩
    exact .missing decoder

end DecoderExpr

end DecoderForge
