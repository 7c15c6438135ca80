/-
This file proves what all compiled expressions have in common: whatever is kept by each way to put
expressions together holds of the decoders of types.
-/

import DecoderForge.Proofs.Compile.Decoder

namespace DecoderForge.Descriptor

/-- A property that the compiler hands on from the decoders of parts to those of types that meet a
condition. -/
structure HandsOn (condition : Descriptor → Prop) (property : DecoderExpr → Prop) : Prop where
  call : ∀ builtin args, (∀ arg ∈ args, property arg) → property (.call builtin args)
  object : ∀ entries : List (String × DecoderExpr), (entries.map Prod.fst).Nodup →
    (∀ entry ∈ entries, property entry.2) → property (.object entries)
  string : ∀ s, property (.constant (.string s))
  number : ∀ n, condition (.literal (.number n)) → property (.constant (.number n))
  identifier : ∀ name, condition (.reference name) → property (.identifier (decoderName name))

namespace HandsOn

variable {condition : Descriptor → Prop} {property : DecoderExpr → Prop} {tagField : Option String}

theorem unionDecoder (handsOn : HandsOn condition property) {members : List Descriptor}
    (each : ∀ member ∈ members, ∀ decoder ∈ member.decoder? tagField, property decoder) :
    property (unionDecoder tagField members) := by
  unfold Descriptor.unionDecoder
  split
  · next field tags _ =>
    have entries : ∀ entry ∈ (Compile.winners tags).filterMap (tagEntryOf tagField members),
        property entry.2 := by
      intro entry inside
      obtain ⟨_, _, member, found, decoder, compiled, rfl⟩ := exists_member_of_mem_entries inside
      exact each member (List.mem_of_getElem? found) decoder compiled
    refine handsOn.call _ _ (List.forall_mem_cons.mpr ⟨handsOn.string field, ?_⟩)
    exact List.forall_mem_singleton.mpr
      (handsOn.object _ (nodup_keys_tagEntries tagField members tags) entries)
  · refine handsOn.call _ _ ?_
    intro decoder inside
    obtain ⟨member, found, compiled⟩ := List.mem_filterMap.mp inside
    exact each member found decoder compiled

theorem record (handsOn : HandsOn condition property) {fields : List Field}
    (each : ∀ field ∈ fields, ∀ decoder ∈ field.type.decoder? tagField, property decoder) :
    property (.call .object [.object
      (Entries.ofList (fields.filterMap (entryOf tagField)))]) := by
  refine handsOn.call _ _ (List.forall_mem_singleton.mpr
    (handsOn.object _ (Entries.nodup_keys_ofList _) ?_))
  intro entry inside
  obtain ⟨field, found, decoder, compiled, rfl⟩ := exists_field_of_mem_entries inside
  have inner := each field found decoder compiled
  cases field.optional with
  | false => exact inner
  | true => exact handsOn.call _ _ (List.forall_mem_singleton.mpr inner)

/-- What is handed on holds of the decoder of a type in which the condition holds everywhere. -/
theorem of_decoder? (handsOn : HandsOn condition property) {descriptor : Descriptor}
    (everywhere : descriptor.Everywhere condition) {decoder : DecoderExpr}
    (compiled : descriptor.decoder? tagField = some decoder) : property decoder := by
  induction descriptor using induction_parts generalizing decoder with
  | step descriptor ih =>
    have each : ∀ part ∈ descriptor.parts, ∀ inner ∈ part.decoder? tagField, property inner :=
      fun part inside inner found => ih part inside (everywhere.inside part inside) found
    have here := everywhere.here
    rw [decoder?_eq_assembled?] at compiled
    cases descriptor with
    | primitive kind =>
      obtain rfl := Option.some_inj.mp compiled
      exact handsOn.call _ _ nofun
    | opaqueObject =>
      obtain rfl := Option.some_inj.mp compiled
      exact handsOn.call _ _ nofun
    | union members =>
      obtain rfl := Option.some_inj.mp compiled
      exact handsOn.unionDecoder each
    | array element =>
      obtain ⟨inner, found, rfl⟩ := Option.map_eq_some_iff.mp compiled
      exact handsOn.call _ _
        (List.forall_mem_singleton.mpr (each element List.mem_cons_self inner found))
    | tuple elements =>
      obtain rfl := Option.some_inj.mp compiled
      refine handsOn.call _ _ ?_
      intro arg inside
      obtain ⟨element, found, rfl⟩ := List.mem_map.mp inside
      cases inner : element.decoder? tagField with
      | none => exact handsOn.call _ _ nofun
      | some decoder => exact each element found decoder inner
    | literal value =>
      cases value with
      | string s =>
        obtain rfl := Option.some_inj.mp compiled
        exact handsOn.call _ _ (List.forall_mem_singleton.mpr (handsOn.string s))
      | number n =>
        obtain rfl := Option.some_inj.mp compiled
        exact handsOn.call _ _ (List.forall_mem_singleton.mpr (handsOn.number n here))
      | _ => contradiction
    | reference name =>
      obtain rfl := Option.some_inj.mp compiled
      exact handsOn.identifier name here
    | record fields =>
      obtain rfl := Option.some_inj.mp compiled
      exact handsOn.record fun field inside => each field.type (List.mem_map_of_mem inside)
    | _ => contradiction

end HandsOn

end DecoderForge.Descriptor
