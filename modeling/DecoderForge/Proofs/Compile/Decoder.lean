/-
This file proves that the decoder of a type depends on nothing but the type and the tag field, and
how it is put together from the decoders of the parts of the type.
-/

import DecoderForge.Compile.Compiler
import DecoderForge.Proofs.Descriptor.Parts
import DecoderForge.Proofs.Entries
import DecoderForge.Proofs.Symbols
import Mathlib.Data.List.ReduceOption

namespace DecoderForge

/-- The decoder of a type, if it has one. -/
def Compiled.decoder? : Compiled → Option DecoderExpr
  | .ok (decoder, _) => some decoder
  | .error _ => none

/-- The decoder that a type has wherever it stands. -/
def Descriptor.decoder? (tagField : Option String) (descriptor : Descriptor) :
    Option DecoderExpr :=
  Compiled.decoder? (Compile.type ⟨tagField, none, 0⟩ .root descriptor)

/-- The entry of a field whose type has a decoder. -/
def Descriptor.entryOf (tagField : Option String) (field : Field) : Option (String × DecoderExpr) :=
  (field.type.decoder? tagField).map fun decoder =>
    (field.name, if field.optional then .call .optional [decoder] else decoder)

/-- The entry of a tag, with the decoder of the member that stands for it. -/
def Descriptor.tagEntryOf (tagField : Option String) (members : List Descriptor)
    (winner : String × Nat) : Option (String × DecoderExpr) :=
  (members[winner.2]?.bind (Descriptor.decoder? tagField)).map fun decoder => (winner.1, decoder)

/-- The decoder of a union by the decoders of its members. -/
def Descriptor.unionDecoder (tagField : Option String) (members : List Descriptor) : DecoderExpr :=
  match UnionShape.classify members tagField with
  | .tagged field tags =>
    .call .taggedUnion [.constant (.string field),
      .object ((Compile.winners tags).filterMap (tagEntryOf tagField members))]
  | .plain => .call .either (members.filterMap (Descriptor.decoder? tagField))

/-- The decoder of a type by the decoders of its parts. -/
def Descriptor.assembled? (tagField : Option String) : Descriptor → Option DecoderExpr
  | .primitive kind => some (.call (Compile.primitive kind) [])
  | .opaqueObject => some (.call .jsonObject [])
  | .union members => some (unionDecoder tagField members)
  | .array element => (element.decoder? tagField).map fun decoder => .call .array [decoder]
  | .tuple elements =>
    some (.call .tuple (elements.map fun element =>
      (element.decoder? tagField).getD (.call .json [])))
  | .literal (.string s) => some (.call .constant [.constant (.string s)])
  | .literal (.number n) => some (.call .constant [.constant (.number n)])
  | .reference name => some (.identifier (decoderName name))
  | .record fields =>
    some (.call .object [.object (Entries.ofList (fields.filterMap (entryOf tagField)))])
  | .literal _ | .unsupported _ | .unrecognized => none

/-- Why a type has no decoder: it is an array, of arrays or not, of something that has none. -/
def Descriptor.lost? : Descriptor → Option SkipReason
  | .array element => element.lost?
  | .literal (.string _) | .literal (.number _) => none
  | .literal other => some (.unsupportedLiteral other.kindName)
  | .unsupported construct => some (.unsupportedConstruct construct)
  | .unrecognized => some .unrecognizedDescriptor
  | _ => none

namespace Compile

theorem types_eq_mapIdx (scope : Scope) (path : NodePath) (segment : Nat → Segment) (index : Nat)
    (descriptors : List Descriptor) :
    types scope path segment index descriptors =
      descriptors.mapIdx fun i descriptor =>
        type scope (path.push (segment (index + i))) descriptor := by
  induction descriptors generalizing index with
  | nil => simp [types]
  | cons descriptor rest ih =>
    rw [types, ih, List.mapIdx_cons]
    simp only [Nat.add_zero, Nat.add_assoc, Nat.add_comm 1]

/-- Each of a list of types has its place in the walk. -/
theorem getElem?_types (scope : Scope) (path : NodePath) (segment : Nat → Segment)
    {descriptors : List Descriptor} {index : Nat} {part : Descriptor}
    (found : descriptors[index]? = some part) :
    (types scope path segment 0 descriptors)[index]? =
      some (type scope (path.push (segment index)) part) := by
  rw [types_eq_mapIdx, List.getElem?_mapIdx, found, Option.map_some, Nat.zero_add]

theorem fieldTypes_eq_map (scope : Scope) (path : NodePath) (fields : List Field) :
    fieldTypes scope path fields =
      fields.map fun field =>
        ⟨field.name, type scope (path.push (.field field.name)) field.type, field.optional⟩ := by
  induction fields with
  | nil => simp [fieldTypes]
  | cons field rest ih => simp [fieldTypes, ih]

/-- A type has no decoder exactly when it is lost. -/
theorem type_eq_error_iff (scope : Scope) (path : NodePath) (descriptor : Descriptor)
    (reason : SkipReason) :
    type scope path descriptor = .error reason ↔ descriptor.lost? = some reason := by
  induction descriptor using Descriptor.induction_parts generalizing path with
  | step descriptor ih =>
    cases descriptor with
    | array element =>
      have inner := ih element List.mem_cons_self (path.push .arrayElement)
      rw [Descriptor.lost?, ← inner, type]
      cases type scope (path.push .arrayElement) element <;> simp [Except.map]
    | literal value => cases value <;> simp [type, literal, Descriptor.lost?]
    | _ => simp [type, Descriptor.lost?]

/-- A map that forgets the place of each element. -/
theorem map_mapIdx_eq_map {α β γ : Type} (f : Nat → α → β) (g : β → γ) (h : α → γ)
    (elements : List α) (each : ∀ index, ∀ a ∈ elements, g (f index a) = h a) :
    (elements.mapIdx f).map g = elements.map h := by
  apply List.ext_getElem
  · simp
  · intro index inside _
    simp only [List.getElem_map, List.getElem_mapIdx]
    exact each index _ (List.getElem_mem _)

/-- What a reference leaves behind: it goes by the place of its type in the table. -/
def referenceTrace (scope : Scope) (path : NodePath) (name : String) : Trace :=
  match scope.symbols with
  | none => .empty
  | some symbols =>
    match symbols.position? name, scope.declared with
    | none, _ => .report path (.unresolvedReference name)
    | some _, 0 => .empty
    | some _, position + 1 => .ofReference ⟨name, path.text, position⟩

section

variable {tagField : Option String} (table : NamedTable) {name : String}

/-- A type that is not in the table is reported. -/
theorem referenceTrace_of_absent (absent : table.position? name = none) (declared : Nat)
    (path : NodePath) :
    referenceTrace ⟨tagField, some table, declared⟩ path name =
      .report path (.unresolvedReference name) := by
  simp only [referenceTrace, absent]

/-- A reference inside a declaration to a type in the table is put down. -/
theorem referenceTrace_of_present {target : Nat} (present : table.position? name = some target)
    (position : Nat) (path : NodePath) :
    referenceTrace ⟨tagField, some table, position + 1⟩ path name =
      .ofReference ⟨name, path.text, position⟩ := by
  simp only [referenceTrace, present]

end

/-- A reference is the decoder that is named after its type, also where the name comes out of a
table. -/
theorem reference_eq (scope : Scope) (path : NodePath) (name : String) :
    reference scope path name =
      (.identifier (decoderName name), referenceTrace scope path name) := by
  unfold reference referenceTrace
  cases scope.symbols with
  | none => rfl
  | some symbols =>
    dsimp only
    rw [symbols.named.decoder?_eq]
    cases symbols.position? name with
    | none => rfl
    | some target => cases scope.declared <;> rfl

theorem type_reference (scope : Scope) (path : NodePath) (name : String) :
    type scope path (.reference name) =
      .ok (.identifier (decoderName name), referenceTrace scope path name) := by
  rw [type, reference_eq]

theorem slot_fst (path : NodePath) (index : Nat) (compiled : Compiled) :
    (slot path index compiled).1 = compiled.decoder?.getD (.call .json []) := by
  rcases compiled with reason | ⟨decoder, trace⟩ <;> rfl

theorem field_fst (path : NodePath) (compiled : FieldOf Compiled) :
    (field path compiled).1 = compiled.type.decoder?.map fun decoder =>
      (compiled.name, if compiled.optional then .call .optional [decoder] else decoder) := by
  obtain ⟨name, type, optional⟩ := compiled
  rcases type with reason | ⟨decoder, trace⟩
  · rfl
  · cases optional <;> rfl

theorem member_fst (path : NodePath) (index : Nat) (compiled : Compiled) :
    (member path index compiled).1 = compiled.decoder? := by
  rcases compiled with reason | ⟨decoder, trace⟩ <;> rfl

theorem tuple_fst (path : NodePath) (slots : List Compiled) :
    (tuple path slots).1 =
      .call .tuple (slots.map fun compiled => compiled.decoder?.getD (.call .json [])) := by
  simp only [tuple, call]
  rw [map_mapIdx_eq_map _ _ _ slots fun index compiled _ => slot_fst path index compiled]

/-- The arguments of a union are the decoders of its members. -/
theorem members_fst (path : NodePath) (members : List Compiled) :
    (members.mapIdx (member path)).filterMap Prod.fst =
      members.filterMap Compiled.decoder? := by
  have firsts := map_mapIdx_eq_map _ _ _ members fun index compiled _ =>
    member_fst path index compiled
  simpa [List.filterMap_map] using congrArg (List.filterMap id) firsts

theorem either_fst (path : NodePath) (members : List Compiled) :
    (either path members).1 = .call .either (members.filterMap Compiled.decoder?) := by
  simp only [either, members_fst]
  split <;> rfl

theorem taggedUnion_fst (path : NodePath) (tagField : String) (tags : List String)
    (members : List Compiled) :
    (taggedUnion path tagField tags members).1 =
      .call .taggedUnion [.constant (.string tagField), .object ((winners tags).filterMap
        fun winner => (members[winner.2]?.bind Compiled.decoder?).map fun decoder =>
          (winner.1, decoder))] := by
  simp only [taggedUnion, call, List.map_filterMap]
  refine congrArg (fun entries => DecoderExpr.call .taggedUnion
    [.constant (.string tagField), .object entries]) (List.filterMap_congr fun winner _ => ?_)
  rcases members[winner.2]? with _ | reason | ⟨decoder, trace⟩ <;> rfl

section

variable (scope : Scope) (path : NodePath)

theorem types_decoders (segment : Nat → Segment) (descriptors : List Descriptor)
    (each : ∀ descriptor ∈ descriptors, ∀ place,
      (type scope place descriptor).decoder? = descriptor.decoder? scope.tagField) :
    (types scope path segment 0 descriptors).map Compiled.decoder? =
      descriptors.map (Descriptor.decoder? scope.tagField) := by
  rw [types_eq_mapIdx]
  exact map_mapIdx_eq_map _ _ _ _ fun _ descriptor inside => each descriptor inside _

theorem union_decoder (members : List Descriptor)
    (each : ∀ member ∈ members, ∀ place,
      (type scope place member).decoder? = member.decoder? scope.tagField) :
    (union scope path members (types scope path .unionMember 0 members)).1 =
      Descriptor.unionDecoder scope.tagField members := by
  have decoders := types_decoders scope path .unionMember members each
  unfold union Descriptor.unionDecoder
  cases UnionShape.classify members scope.tagField with
  | tagged field tags =>
    simp only [taggedUnion_fst]
    refine congrArg (fun entries => DecoderExpr.call .taggedUnion
      [.constant (.string field), .object entries]) (List.filterMap_congr fun winner _ => ?_)
    have found := congrArg (fun list => list[winner.2]?.bind id) decoders
    simp only [List.getElem?_map, Option.bind_map, Function.id_comp] at found
    rw [Descriptor.tagEntryOf, found]
  | plain =>
    have args := congrArg (List.filterMap id) decoders
    simp only [List.filterMap_map, Function.id_comp] at args
    simp only [either_fst, args]

/-- The entries of the fields of a record before those with one name are put together. -/
theorem fieldTypes_entries (fields : List Field)
    (each : ∀ field ∈ fields, ∀ place,
      (type scope place field.type).decoder? = field.type.decoder? scope.tagField) :
    ((fieldTypes scope path fields).map (field path)).filterMap Prod.fst =
      fields.filterMap (Descriptor.entryOf scope.tagField) := by
  rw [fieldTypes_eq_map, List.map_map, List.filterMap_map]
  apply List.filterMap_congr
  intro element inside
  simp only [Function.comp_apply, field_fst, Descriptor.entryOf, each element inside]

/-- A step of the walk puts the decoder together from those of the parts. -/
theorem type_decoder_of_parts (descriptor : Descriptor)
    (each : ∀ part ∈ descriptor.parts, ∀ place,
      (type scope place part).decoder? = part.decoder? scope.tagField) :
    (type scope path descriptor).decoder? = descriptor.assembled? scope.tagField := by
  cases descriptor with
  | union members =>
    rw [type, Compiled.decoder?, Descriptor.assembled?, union_decoder scope path members each]
  | array element =>
    have inner := each element List.mem_cons_self (path.push .arrayElement)
    rw [type, Descriptor.assembled?, ← inner]
    rcases type scope (path.push .arrayElement) element with reason | ⟨decoder, trace⟩ <;> rfl
  | tuple elements =>
    have slots := types_decoders scope path .tupleSlot elements each
    have args := congrArg (List.map fun decoder => decoder.getD (DecoderExpr.call .json [])) slots
    simp only [List.map_map, Function.comp_def] at args
    rw [type, Compiled.decoder?, Descriptor.assembled?, tuple_fst, args]
  | literal value => cases value <;> rfl
  | reference name =>
    rw [type_reference, Compiled.decoder?, Descriptor.assembled?]
  | record fields =>
    have parts (field : Field) (inside : field ∈ fields) :=
      each field.type (List.mem_map_of_mem inside)
    rw [type, Compiled.decoder?, Descriptor.assembled?, record,
      fieldTypes_entries scope path fields parts]
    rfl
  | _ => rfl

/-- The decoder of a type is the same at every place and in every run with the same tag field. -/
theorem type_decoder (descriptor : Descriptor) :
    (type scope path descriptor).decoder? = descriptor.decoder? scope.tagField := by
  induction descriptor using Descriptor.induction_parts generalizing scope path with
  | step descriptor ih =>
    rw [Descriptor.decoder?, type_decoder_of_parts scope path descriptor fun part inside place =>
        ih part inside scope place,
      type_decoder_of_parts ⟨scope.tagField, none, 0⟩ .root descriptor fun part inside place =>
        ih part inside ⟨scope.tagField, none, 0⟩ place]

end

end Compile

theorem Descriptor.decoder?_eq_assembled? (tagField : Option String) (descriptor : Descriptor) :
    descriptor.decoder? tagField = descriptor.assembled? tagField :=
  Compile.type_decoder_of_parts ⟨tagField, none, 0⟩ .root descriptor fun part _ place =>
    Compile.type_decoder ⟨tagField, none, 0⟩ place part

theorem Descriptor.decoder?_union (tagField : Option String) (members : List Descriptor) :
    (union members).decoder? tagField = some (unionDecoder tagField members) :=
  decoder?_eq_assembled? tagField (.union members)

/-- Entries of fields with distinct names have distinct keys. -/
theorem Descriptor.nodup_keys_entries {fields : List Field}
    (distinct : NamesDistinct (.record fields)) (tagField : Option String) :
    ((fields.filterMap (entryOf tagField)).map Prod.fst).Nodup := by
  refine (Entries.keys_filterMap_sublist _ FieldOf.name ?_ fields).nodup distinct
  intro field entry made
  obtain ⟨decoder, _, rfl⟩ := Option.map_eq_some_iff.mp made
  rfl

/-- The entries of a tagged union have distinct keys, as the winners have. -/
theorem Descriptor.nodup_keys_tagEntries (tagField : Option String) (members : List Descriptor)
    (tags : List String) :
    (((Compile.winners tags).filterMap (tagEntryOf tagField members)).map Prod.fst).Nodup := by
  refine (Entries.keys_filterMap_sublist _ Prod.fst ?_ _).nodup (Entries.nodup_keys_ofList _)
  intro winner entry made
  obtain ⟨decoder, _, rfl⟩ := Option.map_eq_some_iff.mp made
  rfl

/-- An entry of a record is that of a field, also where one of several under its key remains. -/
theorem Descriptor.exists_field_of_mem_entries {tagField : Option String} {fields : List Field}
    {entry : String × DecoderExpr}
    (inside : entry ∈ Entries.ofList (fields.filterMap (entryOf tagField))) :
    ∃ field ∈ fields, ∃ decoder ∈ field.type.decoder? tagField,
      entry = (field.name, if field.optional then .call .optional [decoder] else decoder) := by
  obtain ⟨before, after, split, _⟩ := (Entries.mem_ofList _ _).mp inside
  have kept : entry ∈ fields.filterMap (entryOf tagField) :=
    split ▸ List.mem_append_right _ List.mem_cons_self
  obtain ⟨field, found, made⟩ := List.mem_filterMap.mp kept
  obtain ⟨decoder, compiled, same⟩ := Option.map_eq_some_iff.mp made
  exact ⟨field, found, decoder, compiled, same.symm⟩

/-- An entry of a tagged union has the decoder of the member at a place. -/
theorem Descriptor.exists_member_of_mem_entries {tagField : Option String}
    {members : List Descriptor} {winners : List (String × Nat)} {entry : String × DecoderExpr}
    (inside : entry ∈ winners.filterMap (tagEntryOf tagField members)) :
    ∃ winner ∈ winners, ∃ member, members[winner.2]? = some member ∧
      ∃ decoder ∈ member.decoder? tagField, entry = (winner.1, decoder) := by
  obtain ⟨winner, chosen, made⟩ := List.mem_filterMap.mp inside
  obtain ⟨decoder, compiled, same⟩ := Option.map_eq_some_iff.mp made
  obtain ⟨member, found, compiled⟩ := Option.bind_eq_some_iff.mp compiled
  exact ⟨winner, chosen, member, found, decoder, compiled, same.symm⟩

/-- A run compiles a type to the decoder that the type has. -/
theorem Compiler.compile_toOption (compiler : Compiler) (descriptor : Descriptor) :
    (compiler.compile descriptor).2.toOption =
      descriptor.decoder? compiler.config.tagField := by
  rw [compile, show compiler.config.tagField = compiler.scope.tagField from rfl,
    ← Compile.type_decoder compiler.scope compiler.path descriptor]
  rcases Compile.type compiler.scope compiler.path descriptor with reason | ⟨decoder, trace⟩ <;> rfl

theorem Compiler.compile_eq_ok_iff (compiler : Compiler) (descriptor : Descriptor)
    (decoder : DecoderExpr) :
    (compiler.compile descriptor).2 = .ok decoder ↔
      descriptor.decoder? compiler.config.tagField = some decoder := by
  rw [← compile_toOption]
  cases (compiler.compile descriptor).2 <;> simp [Except.toOption]

theorem Compiler.compile_isOk (compiler : Compiler) (descriptor : Descriptor) :
    (compiler.compile descriptor).2.isOk =
      (descriptor.decoder? compiler.config.tagField).isSome := by
  rw [← compile_toOption]
  cases (compiler.compile descriptor).2 <;> rfl

end DecoderForge
