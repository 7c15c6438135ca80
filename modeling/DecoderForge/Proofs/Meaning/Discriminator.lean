/-
This file proves which values are lost when unions are decoded by a tag field: those in which an
optional tag field is missing, and no others while tags are distinct.
-/

import DecoderForge.Proofs.Compile.Reports
import DecoderForge.Proofs.Meaning.Record
import DecoderForge.Proofs.Meaning.Specialization

namespace DecoderForge

namespace Descriptor

/-- The field is not optional where it has the given name. -/
def demand (name : String) (field : Field) : Field :=
  if field.name = name then { field with optional := false } else field

/-- A record with the named field no longer optional. -/
def requireField (name : String) : Descriptor → Descriptor
  | .record fields => .record (fields.map (demand name))
  | other => other

mutual

/-- A type with the tag field no longer optional in the members of unions that are decoded by it. -/
def requireTags (tagField : String) : Descriptor → Descriptor
  | .union members =>
    let required := requireTagsOfAll tagField members
    match UnionShape.classify members (some tagField) with
    | .tagged _ _ => .union (required.map (requireField tagField))
    | .plain => .union required
  | .array element => .array (requireTags tagField element)
  | .tuple elements => .tuple (requireTagsOfAll tagField elements)
  | .record fields => .record (requireTagsOfFields tagField fields)
  | other => other

def requireTagsOfAll (tagField : String) : List Descriptor → List Descriptor
  | [] => []
  | descriptor :: rest => requireTags tagField descriptor :: requireTagsOfAll tagField rest

def requireTagsOfFields (tagField : String) : List Field → List Field
  | [] => []
  | ⟨name, descriptor, optional⟩ :: rest =>
    ⟨name, requireTags tagField descriptor, optional⟩ :: requireTagsOfFields tagField rest

end

theorem requireTagsOfAll_eq_map (tagField : String) (descriptors : List Descriptor) :
    requireTagsOfAll tagField descriptors = descriptors.map (requireTags tagField) := by
  induction descriptors with
  | nil => simp [requireTagsOfAll]
  | cons descriptor rest ih => simp [requireTagsOfAll, ih]

theorem requireTagsOfFields_eq_map (tagField : String) (fields : List Field) :
    requireTagsOfFields tagField fields =
      fields.map fun field => { field with type := field.type.requireTags tagField } := by
  induction fields with
  | nil => simp [requireTagsOfFields]
  | cons field rest ih => simp [requireTagsOfFields, ih]

/-- The members of a union that is decoded by a tag field have distinct tags. -/
def TagsDistinct (tagField : String) : Descriptor → Prop
  | .union members => ∀ field tags,
    UnionShape.classify members (some tagField) = .tagged field tags → tags.Nodup
  | _ => True

/-- There are no unions in a type that has no decoder. -/
theorem tagsDistinct_of_lost (tagField : String) {descriptor : Descriptor} {reason : SkipReason}
    (lost : descriptor.lost? = some reason) : descriptor.Everywhere (TagsDistinct tagField) := by
  induction descriptor using induction_parts with
  | step descriptor ih =>
    cases descriptor with
    | array element =>
      refine .intro _ trivial fun part inside => ?_
      obtain rfl := List.mem_singleton.mp inside
      exact ih part inside lost
    | literal value => exact .leaf trivial rfl
    | unsupported construct => exact .leaf trivial rfl
    | unrecognized => exact .leaf trivial rfl
    | _ => simp [lost?] at lost

/-- Where tags are distinct every part of a type has a say in its decoder. -/
theorem parts_subset_visited {tagField : String} {descriptor : Descriptor}
    (distinct : TagsDistinct tagField descriptor) :
    descriptor.parts ⊆ descriptor.visited (some tagField) := by
  cases descriptor with
  | union members =>
    intro part inside
    change part ∈ visitedMembers (some tagField) members
    unfold visitedMembers
    split
    · next field tags shape =>
      obtain ⟨index, found⟩ := List.getElem?_of_mem inside
      obtain ⟨tag, present, _⟩ :=
        UnionShape.tag_of_mem ((UnionShape.classify_eq_tagged_iff _ _ _ _).mp shape).2 found
      rw [Compile.winners_eq_zipIdx tags (distinct field tags shape)]
      exact List.mem_filterMap.mpr
        ⟨(tag, index), List.mk_mem_zipIdx_iff_getElem?.mpr present, found⟩
    · exact inside
  | _ => exact List.Subset.refl _

/-- A walk without reports of repeated tags has met distinct tags everywhere. -/
theorem everywhere_tagsDistinct {tagField : String} {scope : Scope}
    (set : scope.tagField = some tagField) {path : NodePath} {descriptor : Descriptor}
    {decoder : DecoderExpr} {trace : Trace}
    (compiled : Compile.type scope path descriptor = .ok (decoder, trace))
    (clean : ∀ report ∈ trace.diagnostics, ∀ tag, report.kind ≠ .duplicateTag tag) :
    descriptor.Everywhere (TagsDistinct tagField) := by
  refine Compile.everywhere_of_reports scope path ?_ ?_ descriptor compiled clean
  · intro place part decoder trace compiled clean
    suffices distinct : TagsDistinct tagField part from
      ⟨distinct, set ▸ parts_subset_visited distinct⟩
    cases part with
    | union members =>
      intro field tags shape
      rw [Compile.type, Except.ok.injEq, Compile.union, set, shape] at compiled
      obtain rfl : _ = trace := congrArg Prod.snd compiled
      exact Compile.nodup_of_taggedUnion_reports place field tags _ clean
    | _ => trivial
  · intro part reason report lost _ _
    exact tagsDistinct_of_lost tagField lost

theorem demand_optional_iff (name : String) (field : Field) :
    (demand name field).optional = true ↔ field.optional = true ∧ field.name ≠ name := by
  unfold demand
  split <;> simp_all

@[simp] theorem demand_name (name : String) (field : Field) :
    (demand name field).name = field.name := by
  unfold demand
  split <;> rfl

@[simp] theorem demand_type (name : String) (field : Field) :
    (demand name field).type = field.type := by
  unfold demand
  split <;> rfl

/-- Where the named field is a string, to require it is to require the string. -/
theorem accepts_requireField_iff {fields : List Field} (distinct : NamesDistinct (.record fields))
    {field : Field} (inside : field ∈ fields) {tag : String}
    (isString : field.type = .literal (.string tag)) {loose strict : DecoderExpr}
    (before : (record fields).decoder? none = some loose)
    (behind : ((record fields).requireField field.name).decoder? none = some strict)
    (named : String → Json → Prop) (value : Json) :
    strict.Accepts named (some value) ↔
      ∃ entries, value = .obj entries ∧ Entries.get? field.name entries = some (.str tag) ∧
        loose.Accepts named (some value) := by
  have same : NamesDistinct (.record (fields.map (demand field.name))) := by
    simpa [NamesDistinct, Function.comp_def] using distinct
  have compiled : field.type.decoder? none =
      some (.call .constant [.constant (.string tag)]) := by
    rw [isString]
    rfl
  rw [accepts_record_iff same behind, accepts_record_iff distinct before]
  simp only [List.forall_mem_map, demand_name, demand_type, demand_optional_iff]
  constructor
  · rintro ⟨entries, rfl, each⟩
    obtain ⟨present, missing⟩ := each field inside _ compiled
    refine ⟨entries, rfl, ?_, entries, rfl, fun other member inner found => ?_⟩
    · rcases here : Entries.get? field.name entries with _ | found
      · exact absurd rfl (missing here).2
      · have same := (DecoderExpr.accepts_constant_iff _ found).mp (present found here)
        cases found with
        | str s => exact congrArg (fun s => some (Json.str s)) same.symm
        | _ => exact same.elim
    · have looked := each other member inner found
      exact ⟨looked.1, fun none => (looked.2 none).1⟩
  · rintro ⟨entries, rfl, tagged, _, ⟨⟩, each⟩
    refine ⟨entries, rfl, fun other member inner found => ?_⟩
    have looked := each other member inner found
    refine ⟨looked.1, fun none => ⟨looked.2 none, ?_⟩⟩
    intro same
    rw [same, tagged] at none
    contradiction

/-- The decoder with a tag field accepts what the one without accepts when tags are required. -/
def Agrees (tagField : String) (descriptor : Descriptor) : Prop :=
  DecoderRefines (some tagField) none descriptor (descriptor.requireTags tagField) ∧
    DecoderRefines none (some tagField) (descriptor.requireTags tagField) descriptor

theorem Agrees.exists_required {tagField : String} {descriptor : Descriptor}
    (agrees : Agrees tagField descriptor) {special : DecoderExpr}
    (compiled : descriptor.decoder? (some tagField) = some special) :
    ∃ required, (descriptor.requireTags tagField).decoder? none = some required ∧
      ∀ named place, special.Accepts named place ↔ required.Accepts named place := by
  obtain ⟨required, wide, narrows⟩ := agrees.1.exists_general compiled
  obtain ⟨other, found, widens⟩ := agrees.2.exists_general wide
  obtain rfl := Option.some_inj.mp (found.symm.trans compiled)
  exact ⟨required, wide, fun named place => ⟨narrows named place, widens named place⟩⟩

theorem namesDistinct_requireTags (tagField : String) {descriptor : Descriptor}
    (distinct : NamesDistinct descriptor) : NamesDistinct (descriptor.requireTags tagField) := by
  cases descriptor with
  | union members =>
    rw [requireTags]
    cases UnionShape.classify members (some tagField) <;> trivial
  | record fields =>
    rw [requireTags, requireTagsOfFields_eq_map]
    simpa [NamesDistinct, Function.comp_def] using distinct
  | _ => trivial

/-- A record keeps its tag. -/
theorem tag?_requireTags {tagField tag : String} {member : Descriptor}
    (isTagged : member.tag? tagField = some tag) :
    (member.requireTags tagField).tag? tagField = some tag := by
  obtain ⟨fields, field, rfl, found, isString⟩ := (tag?_eq_some_iff tagField tag member).mp isTagged
  rw [tag?_eq_some_iff, requireTags, requireTagsOfFields_eq_map]
  refine ⟨_, { field with type := field.type.requireTags tagField }, rfl, ?_, ?_⟩
  · rw [List.find?_map, Function.comp_def, found]
    rfl
  · rw [isString]
    rfl

/-- The entry of a tag accepts what its member accepts once the tag is required. -/
theorem accepts_tagged_member_iff {tagField tag : String} {member : Descriptor}
    (isTagged : member.tag? tagField = some tag) (distinct : NamesDistinct member)
    (agrees : Agrees tagField member) :
    ∃ special strict, member.decoder? (some tagField) = some special ∧
      ((member.requireTags tagField).requireField tagField).decoder? none = some strict ∧
      ∀ named value, strict.Accepts named (some value) ↔
        ∃ entries, value = .obj entries ∧ Entries.get? tagField entries = some (.str tag) ∧
          special.Accepts named (some value) := by
  obtain ⟨fields, _, isRecord, _, _⟩ := (tag?_eq_some_iff tagField tag member).mp isTagged
  obtain ⟨special, compiled⟩ : ∃ special, member.decoder? (some tagField) = some special := by
    rw [isRecord]
    exact ⟨_, decoder?_eq_assembled? (some tagField) _⟩
  obtain ⟨loose, plain, same⟩ := agrees.exists_required compiled
  obtain ⟨fields, field, shape, found, isString⟩ :=
    (tag?_eq_some_iff tagField tag _).mp (tag?_requireTags isTagged)
  have names := namesDistinct_requireTags tagField distinct
  obtain rfl : field.name = tagField := by simpa using List.find?_some found
  rw [shape] at plain names ⊢
  refine ⟨_, _, compiled, decoder?_eq_assembled? none _, fun named value => ?_⟩
  simp only [same]
  exact accepts_requireField_iff names (List.mem_of_find?_eq_some found) isString plain
    (decoder?_eq_assembled? none _) named value

section

variable {tagField : String} {members : List Descriptor} {tags : List String}
  (tagged : members.map (tag? tagField) = tags.map some) (distinct : tags.Nodup)

include tagged distinct

/-- With distinct tags the entry of a tag is that of the one member that has it. -/
theorem mem_tagEntries_iff {tag : String} {decoder : DecoderExpr} :
    (tag, decoder) ∈ (Compile.winners tags).filterMap (tagEntryOf (some tagField) members) ↔
      ∃ member ∈ members, member.tag? tagField = some tag ∧
        member.decoder? (some tagField) = some decoder := by
  rw [Compile.winners_eq_zipIdx tags distinct, List.mem_filterMap]
  constructor
  · rintro ⟨⟨_, index⟩, inside, made⟩
    obtain ⟨compiled, present, same⟩ := Option.map_eq_some_iff.mp made
    obtain ⟨rfl, rfl⟩ := Prod.mk.inj same
    obtain ⟨member, found, compiled⟩ := Option.bind_eq_some_iff.mp present
    obtain ⟨other, here, isTagged⟩ := UnionShape.tag_of_mem tagged found
    rw [List.mk_mem_zipIdx_iff_getElem?, here, Option.some_inj] at inside
    subst inside
    exact ⟨member, List.mem_of_getElem? found, isTagged, compiled⟩
  · rintro ⟨member, inside, isTagged, compiled⟩
    obtain ⟨index, found⟩ := List.getElem?_of_mem inside
    obtain ⟨other, here, same⟩ := UnionShape.tag_of_mem tagged found
    obtain rfl := Option.some_inj.mp (same.symm.trans isTagged)
    refine ⟨(other, index), List.mk_mem_zipIdx_iff_getElem?.mpr here, ?_⟩
    rw [tagEntryOf, found, Option.bind_some, compiled, Option.map_some]

/-- A union that is decoded by its distinct tags accepts what its members accept once their tags are
required. -/
theorem accepts_taggedUnion_required_iff (names : ∀ member ∈ members, NamesDistinct member)
    (agrees : ∀ member ∈ members, Agrees tagField member) (named : String → Json → Prop)
    (value : Json) :
    (DecoderExpr.call .taggedUnion [.constant (.string tagField),
        .object ((Compile.winners tags).filterMap (tagEntryOf (some tagField) members))]).Accepts
        named (some value) ↔
      (DecoderExpr.call .either ((members.map fun member =>
        (member.requireTags tagField).requireField tagField).filterMap (decoder? none))).Accepts
        named (some value) := by
  rw [DecoderExpr.accepts_taggedUnion_iff, DecoderExpr.accepts_either_iff]
  simp only [Entries.get?_eq_some_iff _ (nodup_keys_tagEntries (some tagField) members tags),
    mem_tagEntries_iff tagged distinct]
  constructor
  · rintro ⟨entries, tag, decoder, rfl, isTag, ⟨member, inside, isTagged, compiled⟩, accepted⟩
    obtain ⟨special, strict, same, wide, accepts⟩ :=
      accepts_tagged_member_iff isTagged (names member inside) (agrees member inside)
    obtain rfl := Option.some_inj.mp (same.symm.trans compiled)
    refine ⟨strict, ?_, (accepts named _).mpr ⟨entries, rfl, isTag, accepted⟩⟩
    exact List.mem_filterMap.mpr ⟨_, List.mem_map_of_mem inside, wide⟩
  · rintro ⟨strict, chosen, accepted⟩
    obtain ⟨_, required, wide⟩ := List.mem_filterMap.mp chosen
    obtain ⟨member, inside, rfl⟩ := List.mem_map.mp required
    obtain ⟨index, found⟩ := List.getElem?_of_mem inside
    obtain ⟨tag, here, isTagged⟩ := UnionShape.tag_of_mem tagged found
    obtain ⟨special, other, compiled, same, accepts⟩ :=
      accepts_tagged_member_iff isTagged (names member inside) (agrees member inside)
    obtain rfl := Option.some_inj.mp (same.symm.trans wide)
    obtain ⟨entries, rfl, isTag, accepted⟩ := (accepts named value).mp accepted
    exact ⟨entries, tag, special, rfl, isTag, ⟨member, inside, isTagged, compiled⟩, accepted⟩

end

theorem Agrees.forall₂_refines {tagField : String} {descriptors : List Descriptor}
    (agrees : ∀ descriptor ∈ descriptors, Agrees tagField descriptor) :
    List.Forall₂ (DecoderRefines (some tagField) none) descriptors
      (descriptors.map (requireTags tagField)) :=
  List.forall₂_map_right_iff.mpr (List.forall₂_same.mpr fun descriptor inside =>
    (agrees descriptor inside).1)

theorem Agrees.forall₂_refined {tagField : String} {descriptors : List Descriptor}
    (agrees : ∀ descriptor ∈ descriptors, Agrees tagField descriptor) :
    List.Forall₂ (DecoderRefines none (some tagField))
      (descriptors.map (requireTags tagField)) descriptors :=
  List.forall₂_map_left_iff.mpr (List.forall₂_same.mpr fun descriptor inside =>
    (agrees descriptor inside).2)

theorem Agrees.union {tagField : String} {members : List Descriptor}
    (distinct : TagsDistinct tagField (.union members))
    (names : ∀ member ∈ members, NamesDistinct member)
    (agrees : ∀ member ∈ members, Agrees tagField member) :
    Agrees tagField (.union members) := by
  rw [Agrees, requireTags, requireTagsOfAll_eq_map]
  cases shape : UnionShape.classify members (some tagField) with
  | tagged field tags =>
    obtain ⟨same, tagged⟩ := (UnionShape.classify_eq_tagged_iff _ _ _ _).mp shape
    obtain rfl := Option.some_inj.mp same
    have accepts :=
      accepts_taggedUnion_required_iff tagged (distinct tagField tags shape) names agrees
    rw [List.map_map]
    simp only [DecoderRefines, decoder?_union, unionDecoder, shape, UnionShape.classify_none]
    constructor
    · exact .some (.of_values (by simp) fun named value => (accepts named value).mp)
    · exact .some (.of_values (by simp) fun named value => (accepts named value).mpr)
  | plain =>
    simp only [DecoderRefines, decoder?_union, unionDecoder, shape, UnionShape.classify_none]
    constructor
    · exact .some (refines_either (Agrees.forall₂_refines agrees))
    · exact .some (refines_either (Agrees.forall₂_refined agrees))

theorem Agrees.tuple {tagField : String} {elements : List Descriptor}
    (agrees : ∀ element ∈ elements, Agrees tagField element) :
    Agrees tagField (.tuple elements) := by
  rw [Agrees, requireTags, requireTagsOfAll_eq_map]
  constructor
  · exact .tuple (Agrees.forall₂_refines agrees)
  · exact .tuple (Agrees.forall₂_refined agrees)

theorem Agrees.record {tagField : String} {fields : List Field}
    (agrees : ∀ field ∈ fields, Agrees tagField field.type) :
    Agrees tagField (.record fields) := by
  rw [Agrees, requireTags, requireTagsOfFields_eq_map]
  constructor
  · apply DecoderRefines.record
    exact List.forall₂_map_right_iff.mpr (List.forall₂_same.mpr fun field inside =>
      ⟨rfl, rfl, (agrees field inside).1⟩)
  · apply DecoderRefines.record
    exact List.forall₂_map_left_iff.mpr (List.forall₂_same.mpr fun field inside =>
      ⟨rfl, rfl, (agrees field inside).2⟩)

/-- At every depth the decoder with a tag field is the one without for required tags. -/
theorem agrees_of_distinct {tagField : String} {descriptor : Descriptor}
    (names : descriptor.Everywhere NamesDistinct)
    (tags : descriptor.Everywhere (TagsDistinct tagField)) : Agrees tagField descriptor := by
  induction descriptor using induction_parts with
  | step descriptor ih =>
    have each (part : Descriptor) (inside : part ∈ descriptor.parts) : Agrees tagField part :=
      ih part inside (names.inside part inside) (tags.inside part inside)
    cases descriptor with
    | union members =>
      have distinct (member : Descriptor) (inside : member ∈ members) : NamesDistinct member :=
        (names.inside member inside).here
      exact .union tags.here distinct each
    | array element =>
      have inner := each element List.mem_cons_self
      exact ⟨inner.1.array, inner.2.array⟩
    | tuple elements => exact .tuple each
    | literal value => cases value <;> exact ⟨.of_eq rfl, .of_eq rfl⟩
    | record fields =>
      exact .record fun field inside => each field.type (List.mem_map_of_mem inside)
    | _ => exact ⟨.of_eq rfl, .of_eq rfl⟩

end Descriptor

/-- While no tag is repeated, the decoder with a tag field accepts what the one without accepts when
tag fields are required. Nothing is lost exactly when that is all that is accepted without a tag
field, and so when no tag field is optional. -/
theorem Compiler.compile_tagged_accepts (tagged plain : Compiler) (tagField : String)
    (set : tagged.config.tagField = some tagField) (unset : plain.config.tagField = none)
    (descriptor : Descriptor) (distinct : descriptor.Everywhere Descriptor.NamesDistinct)
    (special : DecoderExpr) (compiled : (tagged.compile descriptor).2 = .ok special)
    (reports : List Diagnostic)
    (appended : (tagged.compile descriptor).1.trace.diagnostics =
      tagged.trace.diagnostics ++ reports)
    (clean : ∀ report ∈ reports, ∀ tag, report.kind ≠ .duplicateTag tag) :
    ∃ general required, (plain.compile descriptor).2 = .ok general ∧
      (plain.compile (descriptor.requireTags tagField)).2 = .ok required ∧
      (∀ named value, special.Accepts named (some value) ↔ required.Accepts named (some value)) ∧
      ((∀ named value, general.Accepts named (some value) → special.Accepts named (some value)) ↔
        ∀ named value, general.Accepts named (some value) → required.Accepts named (some value)) ∧
      (descriptor.requireTags tagField = descriptor → general = required) := by
  obtain ⟨trace, walk, rfl⟩ := exists_walk compiled appended
  have tags := Descriptor.everywhere_tagsDistinct set walk clean
  simp only [compile_eq_ok_iff, set, unset] at compiled ⊢
  obtain ⟨general, found, _⟩ :=
    (descriptor.decoder_refines_untagged tagField).exists_general compiled
  obtain ⟨required, wide, same⟩ :=
    (Descriptor.agrees_of_distinct distinct tags).exists_required compiled
  refine ⟨general, required, found, wide, fun named value => same named _, ?_, ?_⟩
  · simp only [same]
  · intro unchanged
    rw [unchanged, found] at wide
    exact Option.some_inj.mp wide

/-- A union in which one of two distinct tags is optional. -/
theorem Compiler.compile_tagged_accepts_optional :
    ∃ special required,
      ((Compiler.unchecked ⟨some "kind", false⟩).compile (.union
        [.record [⟨"kind", .literal (.string "a"), true⟩, ⟨"x", .primitive .number, false⟩],
          .record [⟨"kind", .literal (.string "b"), false⟩]])).2 = .ok special ∧
      ((Compiler.unchecked ⟨none, false⟩).compile (.union
        [.record [⟨"kind", .literal (.string "a"), false⟩, ⟨"x", .primitive .number, false⟩],
          .record [⟨"kind", .literal (.string "b"), false⟩]])).2 = .ok required ∧
      ∀ named value,
        special.Accepts named (some value) ↔ required.Accepts named (some value) := by
  have distinct : Descriptor.Everywhere Descriptor.NamesDistinct (.union
      [.record [⟨"kind", .literal (.string "a"), true⟩, ⟨"x", .primitive .number, false⟩],
        .record [⟨"kind", .literal (.string "b"), false⟩]]) := by
    refine .intro _ trivial ?_
    simp only [Descriptor.parts, List.forall_mem_cons]
    refine ⟨.intro _ (by simp [Descriptor.NamesDistinct]) ?_,
      .intro _ (by simp [Descriptor.NamesDistinct]) ?_, List.forall_mem_nil _⟩
    · simp only [Descriptor.parts, List.map_cons, List.map_nil, List.forall_mem_cons]
      exact ⟨.leaf trivial rfl, .leaf trivial rfl, List.forall_mem_nil _⟩
    · exact List.forall_mem_singleton.mpr (.leaf trivial rfl)
  obtain ⟨general, required, _, compiled, same, _⟩ :=
    compile_tagged_accepts (.unchecked ⟨some "kind", false⟩) (.unchecked ⟨none, false⟩) "kind" rfl
      rfl _ distinct _ rfl [] rfl (List.forall_mem_nil _)
  exact ⟨_, required, rfl, compiled, same⟩

/-- A value without the optional tag is lost, and nothing is reported. -/
theorem Compiler.compile_tagged_loses_optional :
    ∃ special general,
      ((Compiler.unchecked ⟨some "kind", false⟩).compile (.union
        [.record [⟨"kind", .literal (.string "a"), true⟩]])).2 = .ok special ∧
      ((Compiler.unchecked ⟨some "kind", false⟩).compile (.union
        [.record [⟨"kind", .literal (.string "a"), true⟩]])).1.trace.diagnostics = [] ∧
      ((Compiler.unchecked ⟨none, false⟩).compile (.union
        [.record [⟨"kind", .literal (.string "a"), true⟩]])).2 = .ok general ∧
      general.Accepts (fun _ _ => False) (some (.obj [])) ∧
      ¬ special.Accepts (fun _ _ => False) (some (.obj [])) := by
  refine ⟨_, _, rfl, rfl, rfl, ?_, ?_⟩
  · refine .either _ _ _ List.mem_cons_self (.object _ _ fun entry inside => ?_)
    obtain rfl := List.mem_singleton.mp inside
    exact .missing _
  · intro accepted
    obtain ⟨entries, tag, decoder, same, isTag, _⟩ :=
      (DecoderExpr.accepts_taggedUnion_iff _ _ _).mp accepted
    obtain rfl := Json.obj.inj same
    contradiction

end DecoderForge
