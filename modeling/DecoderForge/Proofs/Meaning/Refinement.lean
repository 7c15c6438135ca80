/-
This file compares decoders by what they accept, and proves that every way to put decoders together
keeps the order between them.
-/

import DecoderForge.Proofs.Compile.Decoder
import DecoderForge.Proofs.Meaning.Decoder

namespace DecoderForge

/-- Whatever one decoder accepts, the other accepts too, whatever the named decoders accept. -/
def DecoderExpr.Refines (special general : DecoderExpr) : Prop :=
  ∀ (named : String → Json → Prop) (place : Option Json),
    special.Accepts named place → general.Accepts named place

namespace DecoderExpr

theorem Refines.refl (decoder : DecoderExpr) : decoder.Refines decoder :=
  fun _ _ accepted => accepted

/-- A decoder that is not optional is compared by the values that it accepts. -/
theorem Refines.of_values {special general : DecoderExpr}
    (needed : ∀ decoder, special ≠ .call .optional [decoder])
    (values : ∀ (named : String → Json → Prop) (value : Json),
      special.Accepts named (some value) → general.Accepts named (some value)) :
    special.Refines general := by
  intro named place accepted
  cases place with
  | none =>
    obtain ⟨decoder, same⟩ := (accepts_none_iff special).mp accepted
    exact absurd same (needed decoder)
  | some value => exact values named value accepted

theorem Refines.array {special general : DecoderExpr} (elements : special.Refines general) :
    (call .array [special]).Refines (.call .array [general]) := by
  apply Refines.of_values (by simp)
  intro named value accepted
  rw [accepts_array_iff] at accepted ⊢
  obtain ⟨items, same, each⟩ := accepted
  exact ⟨items, same, fun item inside => elements named _ (each item inside)⟩

theorem Refines.optional {special general : DecoderExpr} (inner : special.Refines general) :
    (call .optional [special]).Refines (.call .optional [general]) := by
  intro named place accepted
  cases accepted with
  | missing => exact .missing general
  | present _ value accepted => exact .present general value (inner named _ accepted)

theorem Refines.tuple {specials generals : List DecoderExpr}
    (slots : List.Forall₂ Refines specials generals) :
    (call .tuple specials).Refines (.call .tuple generals) := by
  apply Refines.of_values (by simp)
  intro named value accepted
  rw [accepts_tuple_iff] at accepted ⊢
  obtain ⟨items, same, length, each⟩ := accepted
  refine ⟨items, same, slots.length_eq ▸ length, ?_⟩
  clear same length
  induction slots generalizing items with
  | nil => simp
  | cons head _ ih =>
    cases items with
    | nil => simp
    | cons item rest =>
      rw [List.zip_cons_cons, List.forall_mem_cons] at each ⊢
      exact ⟨head named _ each.1, ih rest each.2⟩

theorem Refines.object {specials generals : List (String × DecoderExpr)}
    (entries : Entries.Related Refines specials generals) :
    (call .object [.object specials]).Refines (.call .object [.object generals]) := by
  apply Refines.of_values (by simp)
  intro named value accepted
  rw [accepts_object_iff] at accepted ⊢
  obtain ⟨fields, same, each⟩ := accepted
  refine ⟨fields, same, ?_⟩
  rintro ⟨key, general⟩ inside
  obtain ⟨special, present, refines⟩ := entries.exists_left inside
  exact refines named _ (each (key, special) present)

theorem Refines.either {specials generals : List DecoderExpr}
    (members : List.Forall₂ Refines specials generals) :
    (call .either specials).Refines (.call .either generals) := by
  apply Refines.of_values (by simp)
  intro named value accepted
  rw [accepts_either_iff] at accepted ⊢
  obtain ⟨special, inside, inner⟩ := accepted
  induction members with
  | nil => exact absurd inside List.not_mem_nil
  | @cons _ general _ _ head _ ih =>
    rcases List.mem_cons.mp inside with rfl | rest
    · exact ⟨general, List.mem_cons_self, head named _ inner⟩
    · obtain ⟨decoder, member, accepts⟩ := ih rest
      exact ⟨decoder, List.mem_cons_of_mem _ member, accepts⟩

end DecoderExpr

namespace Descriptor

/-- A decoder of a type is never optional by itself. -/
theorem decoder?_ne_optional {tagField : Option String} {descriptor : Descriptor}
    {decoder : DecoderExpr} (compiled : descriptor.decoder? tagField = some decoder)
    (inner : DecoderExpr) : decoder ≠ .call .optional [inner] := by
  rintro rfl
  rw [decoder?_eq_assembled?] at compiled
  cases descriptor with
  | primitive kind => cases kind <;> simp [assembled?, Compile.primitive] at compiled
  | union members =>
    rw [assembled?, unionDecoder] at compiled
    revert compiled
    cases UnionShape.classify members tagField <;> simp
  | array element => simp [assembled?] at compiled
  | literal value => cases value <;> simp [assembled?] at compiled
  | _ => simp [assembled?] at compiled

/-- Two types have decoders with two tag fields of which one refines the other, or neither has. -/
def DecoderRefines (first second : Option String) (special general : Descriptor) : Prop :=
  Option.Rel DecoderExpr.Refines (special.decoder? first) (general.decoder? second)

variable {first second : Option String}

theorem DecoderRefines.exists_general {special general : Descriptor}
    (refines : DecoderRefines first second special general) {decoder : DecoderExpr}
    (compiled : special.decoder? first = some decoder) :
    ∃ wide, general.decoder? second = some wide ∧ decoder.Refines wide := by
  rw [DecoderRefines, compiled] at refines
  revert refines
  rcases general.decoder? second with _ | wide <;> rintro ⟨⟩
  exact ⟨wide, rfl, ‹_›⟩

theorem DecoderRefines.isSome_eq {special general : Descriptor}
    (refines : DecoderRefines first second special general) :
    (special.decoder? first).isSome = (general.decoder? second).isSome := by
  revert refines
  unfold DecoderRefines
  rcases special.decoder? first with _ | a <;> rcases general.decoder? second with _ | b <;>
    rintro ⟨⟩ <;> rfl

theorem DecoderRefines.of_eq {special general : Descriptor}
    (same : special.decoder? first = general.decoder? second) :
    DecoderRefines first second special general := by
  rw [DecoderRefines, same]
  rcases general.decoder? second with _ | decoder
  · exact .none
  · exact .some (.refl decoder)

theorem DecoderRefines.array {special general : Descriptor}
    (element : DecoderRefines first second special general) :
    DecoderRefines first second (.array special) (.array general) := by
  rw [DecoderRefines, decoder?_eq_assembled?, decoder?_eq_assembled?, assembled?, assembled?]
  revert element
  unfold DecoderRefines
  rcases special.decoder? first with _ | a <;> rcases general.decoder? second with _ | b <;>
    rintro ⟨⟩
  · exact .none
  · next refines => exact .some refines.array

/-- Slots are compared one by one; one without a decoder accepts anything in both. -/
theorem DecoderRefines.tuple {left right : List Descriptor}
    (slots : List.Forall₂ (DecoderRefines first second) left right) :
    DecoderRefines first second (.tuple left) (.tuple right) := by
  rw [DecoderRefines, decoder?_eq_assembled?, decoder?_eq_assembled?, assembled?, assembled?]
  refine .some (DecoderExpr.Refines.tuple ?_)
  rw [List.forall₂_map_left_iff, List.forall₂_map_right_iff]
  apply slots.imp
  unfold DecoderRefines
  intro special general
  rcases special.decoder? first with _ | a <;> rcases general.decoder? second with _ | b <;>
    rintro ⟨⟩
  · exact DecoderExpr.Refines.refl _
  · assumption

/-- Fields are compared one by one, also where a name is repeated. -/
theorem DecoderRefines.record {left right : List Field}
    (fields : List.Forall₂ (fun special general =>
      special.name = general.name ∧ special.optional = general.optional ∧
        DecoderRefines first second special.type general.type) left right) :
    DecoderRefines first second (.record left) (.record right) := by
  rw [DecoderRefines, decoder?_eq_assembled?, decoder?_eq_assembled?, assembled?, assembled?]
  refine .some (DecoderExpr.Refines.object (Entries.Related.ofList ?_))
  refine List.rel_filterMap ?_ fields
  rintro special general ⟨names, optional, refines⟩
  revert refines
  unfold DecoderRefines entryOf
  rcases special.type.decoder? first with _ | a <;>
    rcases general.type.decoder? second with _ | b <;> rintro ⟨⟩
  · exact .none
  · next refines =>
    refine .some ⟨names, ?_⟩
    rw [optional]
    cases general.optional with
    | false => exact refines
    | true => exact refines.optional

/-- Members are compared one by one. -/
theorem refines_either {left right : List Descriptor}
    (members : List.Forall₂ (DecoderRefines first second) left right) :
    (DecoderExpr.call .either (left.filterMap (decoder? first))).Refines
      (.call .either (right.filterMap (decoder? second))) :=
  DecoderExpr.Refines.either (List.rel_filterMap (fun _ _ refines => refines) members)

end Descriptor

end DecoderForge
