/-
This file proves when a union is tagged, and which member stands for a tag.
-/

import DecoderForge.Compile.Basic
import DecoderForge.Proofs.Entries

namespace DecoderForge

/-- A member has a tag when it is a record whose first field of that name is a string. -/
theorem Descriptor.tag?_eq_some_iff (tagField tag : String) (member : Descriptor) :
    member.tag? tagField = some tag ↔
      ∃ fields field, member = .record fields ∧
        fields.find? (fun field => field.name = tagField) = some field ∧
        field.type = .literal (.string tag) := by
  constructor
  · intro tagged
    obtain ⟨field, found, isString⟩ := Option.bind_eq_some_iff.mp tagged
    cases member with
    | record fields =>
      refine ⟨fields, field, rfl, found, ?_⟩
      cases type : field.type with
      | literal value =>
        rw [type] at isString
        cases value with
        | string s => exact congrArg (fun s => literal (.string s)) (Option.some_inj.mp isString)
        | _ => simp [stringLiteral?, LiteralValue.string?] at isString
      | _ => simp [type, stringLiteral?] at isString
    | _ => simp [field?] at found
  · rintro ⟨fields, field, rfl, found, isString⟩
    rw [tag?, field?, found, Option.bind_some, isString]
    rfl

theorem mapM_eq_some_iff {α β : Type} (f : α → Option β) (elements : List α) (results : List β) :
    elements.mapM f = some results ↔ elements.map f = results.map some := by
  induction elements generalizing results with
  | nil => cases results <;> simp
  | cons element rest ih =>
    rw [List.mapM_cons]
    cases results with
    | nil => simp [Option.bind_eq_some_iff]
    | cons result results => simp [Option.bind_eq_some_iff, ← ih]

/-- A union is tagged exactly when there is a tag field and each member has a tag. -/
theorem UnionShape.classify_eq_tagged_iff (members : List Descriptor) (tagField : Option String)
    (field : String) (tags : List String) :
    classify members tagField = .tagged field tags ↔
      tagField = some field ∧ members.map (Descriptor.tag? field) = tags.map some := by
  rcases tagField with _ | name
  · simp [classify]
  · simp only [classify, Option.some_inj]
    split
    · next all found =>
      rw [mapM_eq_some_iff] at found
      simp only [tagged.injEq, and_congr_right_iff]
      rintro rfl
      rw [found, (List.map_injective_iff.mpr fun _ _ => Option.some.inj).eq_iff]
    · next absent =>
      simp only [reduceCtorEq, false_iff, not_and]
      rintro rfl
      rw [← mapM_eq_some_iff, absent]
      exact nofun

@[simp] theorem UnionShape.classify_none (members : List Descriptor) :
    classify members none = .plain := rfl

/-- Each member of a tagged union has the tag at its place. -/
theorem UnionShape.tag_of_mem {members : List Descriptor} {field : String} {tags : List String}
    (tagged : members.map (Descriptor.tag? field) = tags.map some) {index : Nat}
    {member : Descriptor} (found : members[index]? = some member) :
    ∃ tag, tags[index]? = some tag ∧ member.tag? field = some tag := by
  have same := congrArg (fun list => list[index]?) tagged
  simp only [List.getElem?_map, found, Option.map_some] at same
  obtain ⟨tag, present, equal⟩ := Option.map_eq_some_iff.mp same.symm
  exact ⟨tag, present, equal.symm⟩

/-- Members whose tags are distinct all stand for theirs. -/
theorem Compile.winners_eq_zipIdx (tags : List String) (distinct : tags.Nodup) :
    winners tags = tags.zipIdx := by
  apply Entries.ofList_eq_self
  rwa [List.zipIdx_map_fst]

end DecoderForge
