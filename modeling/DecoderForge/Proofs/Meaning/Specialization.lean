/-
This file proves that decoding unions by a tag field never accepts a value that decoding them member
by member does not.
-/

import DecoderForge.Proofs.Compile.Union
import DecoderForge.Proofs.Meaning.Refinement

namespace DecoderForge

namespace Descriptor

/-- The member that a tag chooses is one of those that are tried without tags. -/
theorem taggedUnion_refines_either {first : Option String} {members : List Descriptor}
    (each : ∀ member ∈ members, DecoderRefines first none member member) (tagField : String)
    (winners : List (String × Nat)) :
    (DecoderExpr.call .taggedUnion [.constant (.string tagField),
        .object (winners.filterMap (tagEntryOf first members))]).Refines
      (.call .either (members.filterMap (decoder? none))) := by
  apply DecoderExpr.Refines.of_values (by simp)
  intro named value accepted
  rw [DecoderExpr.accepts_taggedUnion_iff] at accepted
  obtain ⟨entries, tag, decoder, rfl, _, chosen, inner⟩ := accepted
  -- Other members with the tag may have given way, but the entry is still that of a member.
  obtain ⟨winner, _, entry⟩ := List.mem_filterMap.mp (Entries.mem_of_get?_eq_some _ _ _ chosen)
  obtain ⟨compiled, present, same⟩ := Option.map_eq_some_iff.mp entry
  obtain ⟨rfl, rfl⟩ := Prod.mk.inj same
  obtain ⟨member, found, compiled⟩ := Option.bind_eq_some_iff.mp present
  have inside : member ∈ members := List.mem_of_getElem? found
  obtain ⟨general, wide, refines⟩ := (each member inside).exists_general compiled
  rw [DecoderExpr.accepts_either_iff]
  exact ⟨general, List.mem_filterMap.mpr ⟨member, inside, wide⟩, refines named _ inner⟩

/-- At every depth the decoder with a tag field refines the one without. -/
theorem decoder_refines_untagged (tagField : String) (descriptor : Descriptor) :
    DecoderRefines (some tagField) none descriptor descriptor := by
  induction descriptor using induction_parts with
  | step descriptor ih =>
    cases descriptor with
    | union members =>
      rw [DecoderRefines, decoder?_union, decoder?_union, unionDecoder, unionDecoder,
        UnionShape.classify_none]
      refine .some ?_
      cases UnionShape.classify members (some tagField) with
      | tagged field tags => exact taggedUnion_refines_either ih field (Compile.winners tags)
      | plain => exact refines_either (List.forall₂_same.mpr ih)
    | array element => exact (ih element List.mem_cons_self).array
    | tuple elements => exact .tuple (List.forall₂_same.mpr ih)
    | literal value => cases value <;> exact .of_eq rfl
    | record fields =>
      have each (field : Field) (inside : field ∈ fields) :=
        ih field.type (List.mem_map_of_mem inside)
      exact .record (List.forall₂_same.mpr fun field inside => ⟨rfl, rfl, each field inside⟩)
    | _ => exact .of_eq rfl

end Descriptor

/-- With a tag field a type is compiled exactly when it is without, and to a decoder that accepts no
more. -/
theorem Compiler.compile_tagged_refines (tagged plain : Compiler) (tagField : String)
    (set : tagged.config.tagField = some tagField) (unset : plain.config.tagField = none)
    (descriptor : Descriptor) :
    (tagged.compile descriptor).2.isOk = (plain.compile descriptor).2.isOk ∧
      ∀ special general, (tagged.compile descriptor).2 = .ok special →
        (plain.compile descriptor).2 = .ok general →
        ∀ (named : String → Json → Prop) (value : Json),
          special.Accepts named (some value) → general.Accepts named (some value) := by
  have refines := descriptor.decoder_refines_untagged tagField
  simp only [Compiler.compile_eq_ok_iff, Compiler.compile_isOk, set, unset]
  constructor
  · exact refines.isSome_eq
  · intro special general compiled wide named value accepted
    obtain ⟨other, found, inner⟩ := refines.exists_general compiled
    obtain rfl := Option.some_inj.mp (found.symm.trans wide)
    exact inner named _ accepted

/-- Two members with one tag, of which the last decides. -/
theorem Compiler.compile_tagged_refines_repeated :
    ∃ special general,
      ((Compiler.unchecked ⟨some "kind", false⟩).compile (.array (.union
        [.record [⟨"kind", .literal (.string "a"), false⟩, ⟨"x", .primitive .number, false⟩],
          .record [⟨"kind", .literal (.string "a"), false⟩]]))).2 = .ok special ∧
      ((Compiler.unchecked ⟨none, false⟩).compile (.array (.union
        [.record [⟨"kind", .literal (.string "a"), false⟩, ⟨"x", .primitive .number, false⟩],
          .record [⟨"kind", .literal (.string "a"), false⟩]]))).2 = .ok general ∧
      general.Accepts (fun _ _ => False) (some (.arr [.obj [("kind", .str "a")]])) := by
  refine ⟨_, _, rfl, rfl, ?_⟩
  refine (compile_tagged_refines (.unchecked ⟨some "kind", false⟩) (.unchecked ⟨none, false⟩) "kind"
    rfl rfl (.array (.union
        [.record [⟨"kind", .literal (.string "a"), false⟩, ⟨"x", .primitive .number, false⟩],
          .record [⟨"kind", .literal (.string "a"), false⟩]]))).2 _ _ rfl rfl _ _ ?_
  refine .array _ _ fun item inside => ?_
  obtain rfl := List.mem_singleton.mp inside
  refine .taggedUnion "kind" "a" _ _ _ rfl rfl (.object _ _ fun entry inside => ?_)
  obtain rfl := List.mem_singleton.mp inside
  exact .constant (.string "a") _ rfl

end DecoderForge
