/-
This file says what the decoder of a record without repeated fields accepts.
-/

import DecoderForge.Proofs.Meaning.Refinement

namespace DecoderForge.Descriptor

/-- The entry of a field accepts what the decoder of its type accepts, and nothing in the place of a
value when the field is optional. -/
theorem accepts_field_iff {tagField : Option String} {field : Field} {decoder : DecoderExpr}
    (compiled : field.type.decoder? tagField = some decoder) (named : String → Json → Prop)
    (place : Option Json) :
    (if field.optional then DecoderExpr.call .optional [decoder] else decoder).Accepts named place ↔
      (∀ value, place = some value → decoder.Accepts named (some value)) ∧
        (place = none → field.optional = true) := by
  cases place with
  | none =>
    rw [DecoderExpr.accepts_none_iff]
    cases field.optional with
    | true => simp
    | false => simp [decoder?_ne_optional compiled]
  | some value =>
    cases field.optional with
    | true => simp [DecoderExpr.accepts_optional_iff]
    | false => simp

/-- The decoder of a record looks at each field whose type has a decoder. -/
theorem accepts_record_iff {fields : List Field} (distinct : NamesDistinct (.record fields))
    {tagField : Option String} {decoder : DecoderExpr}
    (compiled : (record fields).decoder? tagField = some decoder) (named : String → Json → Prop)
    (value : Json) :
    decoder.Accepts named (some value) ↔
      ∃ entries, value = .obj entries ∧
        ∀ field ∈ fields, ∀ inner, field.type.decoder? tagField = some inner →
          (∀ value, Entries.get? field.name entries = some value →
            inner.Accepts named (some value)) ∧
          (Entries.get? field.name entries = none → field.optional = true) := by
  rw [decoder?_eq_assembled?, assembled?, Option.some_inj] at compiled
  rw [← compiled, Entries.ofList_eq_self _ (nodup_keys_entries distinct tagField),
    DecoderExpr.accepts_object_iff]
  refine exists_congr fun entries => and_congr_right fun _ => ?_
  constructor
  · intro accepted field inside inner found
    have entry : entryOf tagField field = some (field.name,
        if field.optional then .call .optional [inner] else inner) := by
      rw [entryOf, found, Option.map_some]
    exact (accepts_field_iff found named _).mp
      (accepted _ (List.mem_filterMap.mpr ⟨field, inside, entry⟩))
  · intro each entry inside
    obtain ⟨field, member, found⟩ := List.mem_filterMap.mp inside
    obtain ⟨inner, present, rfl⟩ := Option.map_eq_some_iff.mp found
    exact (accepts_field_iff present named _).mpr (each field member inner present)

end DecoderForge.Descriptor
