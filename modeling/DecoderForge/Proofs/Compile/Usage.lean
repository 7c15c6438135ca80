/-
This file proves which builtins are recorded while types are compiled: those that the decoders call,
and those of the entries of records that later fields of the same names take the places of.
-/

import DecoderForge.Proofs.Compile.Decoder
import DecoderForge.Proofs.Compile.Trace
import DecoderForge.Proofs.Compile.Union

namespace DecoderForge

namespace DecoderExpr

theorem mem_builtinsOfList (exprs : List DecoderExpr) (builtin : Builtin) :
    builtin ∈ builtinsOfList exprs ↔ ∃ expr ∈ exprs, builtin ∈ expr.builtins := by
  induction exprs with
  | nil => simp [builtinsOfList]
  | cons expr rest ih => simp [builtinsOfList, ih]

theorem mem_builtinsOfEntries (entries : List (String × DecoderExpr)) (builtin : Builtin) :
    builtin ∈ builtinsOfEntries entries ↔ ∃ entry ∈ entries, builtin ∈ entry.2.builtins := by
  induction entries with
  | nil => simp [builtinsOfEntries]
  | cons entry rest ih => simp [builtinsOfEntries, ih]

theorem mem_builtins_call (called : Builtin) (args : List DecoderExpr) (builtin : Builtin) :
    builtin ∈ (call called args).builtins ↔
      builtin = called ∨ ∃ arg ∈ args, builtin ∈ arg.builtins := by
  rw [builtins, Usage.mem_record, mem_builtinsOfList]

theorem mem_builtins_object (entries : List (String × DecoderExpr)) (builtin : Builtin) :
    builtin ∈ (object entries).builtins ↔ ∃ entry ∈ entries, builtin ∈ entry.2.builtins := by
  rw [builtins, mem_builtinsOfEntries]

end DecoderExpr

namespace Descriptor

/-- An entry of a record calls the builtin, and a later entry under the same key takes its place. -/
def DiscardsEntry (tagField : Option String) : Descriptor → Builtin → Prop
  | .record fields, builtin => ∃ before entry after,
    fields.filterMap (entryOf tagField) = before ++ entry :: after ∧
      entry.1 ∈ after.map Prod.fst ∧ builtin ∈ entry.2.builtins
  | _, _ => False

/-- A record that has a say in the decoder of a type discards a call of the builtin. -/
def Discards (tagField : Option String) (descriptor : Descriptor) (builtin : Builtin) : Prop :=
  ∃ inner, Visits tagField descriptor inner ∧ DiscardsEntry tagField inner builtin

theorem discards_iff (tagField : Option String) (descriptor : Descriptor) (builtin : Builtin) :
    descriptor.Discards tagField builtin ↔ descriptor.DiscardsEntry tagField builtin ∨
      ∃ part ∈ descriptor.visited tagField, part.Discards tagField builtin := by
  constructor
  · rintro ⟨inner, visits, discards⟩
    cases visits with
    | here => exact .inl discards
    | inside _ part _ member rest => exact .inr ⟨part, member, inner, rest, discards⟩
  · rintro (discards | ⟨part, member, inner, rest, discards⟩)
    · exact ⟨descriptor, .here descriptor, discards⟩
    · exact ⟨inner, .inside descriptor part inner member rest, discards⟩

/-- Of all types only records discard entries of their own. -/
theorem discards_iff_exists_part {tagField : Option String} {descriptor : Descriptor}
    {builtin : Builtin} (none : ¬ descriptor.DiscardsEntry tagField builtin) :
    descriptor.Discards tagField builtin ↔
      ∃ part ∈ descriptor.visited tagField, part.Discards tagField builtin :=
  (discards_iff tagField descriptor builtin).trans (or_iff_right none)

/-- Nothing is discarded in a type without parts. -/
theorem not_discards_of_leaf (tagField : Option String) (descriptor : Descriptor)
    (none : ∀ builtin, ¬ descriptor.DiscardsEntry tagField builtin)
    (leaf : descriptor.visited tagField = []) (builtin : Builtin) :
    ¬ descriptor.Discards tagField builtin := by
  rw [discards_iff_exists_part (none builtin), leaf]
  simp

/-- A type is visited only inside the types that have it as a part. -/
theorem Everywhere.of_visits {condition : Descriptor → Prop} {tagField : Option String}
    {descriptor inner : Descriptor} (visits : Visits tagField descriptor inner)
    (everywhere : descriptor.Everywhere condition) : inner.Everywhere condition := by
  induction visits with
  | here => exact everywhere
  | inside descriptor part inner member _ ih =>
    exact ih (everywhere.inside part (visited_subset_parts tagField descriptor part member))

/-- No entry takes the place of another while no record repeats a name. -/
theorem not_discards_of_distinct {descriptor : Descriptor}
    (distinct : descriptor.Everywhere NamesDistinct) (tagField : Option String)
    (builtin : Builtin) : ¬ descriptor.Discards tagField builtin := by
  rintro ⟨inner, visits, discards⟩
  have names := (Everywhere.of_visits visits distinct).here
  cases inner with
  | record fields =>
    obtain ⟨before, entry, after, split, again, _⟩ := discards
    have keys := nodup_keys_entries names tagField
    rw [split, List.map_append, List.map_cons] at keys
    exact (List.nodup_cons.mp (List.nodup_append.mp keys).2.1).1 again
  | _ => exact discards

end Descriptor

/-- What is recorded for a type is what its decoder calls and what is discarded. Nothing is
discarded in a type that has no decoder. -/
def Compiled.Accounts (discards : Builtin → Prop) : Compiled → Prop
  | .ok (decoder, trace) =>
    ∀ builtin, builtin ∈ trace.usage ↔ builtin ∈ decoder.builtins ∨ discards builtin
  | .error _ => ∀ builtin, ¬ discards builtin

namespace Compile

theorem call_accounts {discards : Prop} {builtin : Builtin} (called : Builtin)
    (args : List DecoderExpr) {steps : Trace}
    (inner : builtin ∈ steps.usage ↔ (∃ arg ∈ args, builtin ∈ arg.builtins) ∨ discards) :
    builtin ∈ (call called args steps).2.usage ↔
      builtin ∈ (call called args steps).1.builtins ∨ discards := by
  rw [call, DecoderExpr.mem_builtins_call, Trace.append_usage, Usage.mem_union,
    Trace.mem_ofBuiltin_usage, inner, or_right_comm, or_comm (a := builtin = called)]

/-- A call of constants by itself. -/
theorem call_constants_accounts {discards : Builtin → Prop} (none : ∀ builtin, ¬ discards builtin)
    (called : Builtin) {args : List DecoderExpr} (constants : ∀ arg ∈ args, arg.builtins = .empty) :
    Compiled.Accounts discards (.ok (call called args .empty)) := by
  intro builtin
  apply call_accounts
  refine iff_of_false (Usage.not_mem_empty builtin) (not_or_intro ?_ (none builtin))
  rintro ⟨arg, inside, calls⟩
  rw [constants arg inside] at calls
  exact Usage.not_mem_empty builtin calls

theorem slot_accounts {discards : Builtin → Prop} {compiled : Compiled}
    (accounts : compiled.Accounts discards) (path : NodePath) (index : Nat) (builtin : Builtin) :
    builtin ∈ (slot path index compiled).2.usage ↔
      builtin ∈ (slot path index compiled).1.builtins ∨ discards builtin := by
  rcases compiled with reason | ⟨decoder, trace⟩
  · simp [slot, call, DecoderExpr.mem_builtins_call, accounts builtin]
  · exact accounts builtin

theorem member_accounts {discards : Builtin → Prop} {compiled : Compiled}
    (accounts : compiled.Accounts discards) (path : NodePath) (index : Nat) (builtin : Builtin) :
    builtin ∈ (member path index compiled).2.usage ↔
      (∃ decoder ∈ (member path index compiled).1, builtin ∈ decoder.builtins) ∨
        discards builtin := by
  rcases compiled with reason | ⟨decoder, trace⟩
  · simp [member, accounts builtin]
  · simpa [member] using accounts builtin

theorem field_accounts {discards : Builtin → Prop} {compiled : FieldOf Compiled}
    (accounts : compiled.type.Accounts discards) (path : NodePath) (builtin : Builtin) :
    builtin ∈ (field path compiled).2.usage ↔
      (∃ entry ∈ (field path compiled).1, builtin ∈ entry.2.builtins) ∨ discards builtin := by
  obtain ⟨name, type, optional⟩ := compiled
  rcases type with reason | ⟨decoder, trace⟩
  · simp [field, accounts builtin]
  · have inner := accounts builtin
    cases optional with
    | false => simpa [field] using inner
    | true => simpa [field] using call_accounts .optional [decoder] (by simpa)

/-- A list of what is made from the elements of another, each from the one at its place. -/
theorem forall₂_mapIdx {α β : Type} {related : α → β → Prop} {f : Nat → α → β} {elements : List α}
    (each : ∀ element ∈ elements, ∀ index, related element (f index element)) :
    List.Forall₂ related elements (elements.mapIdx f) := by
  induction elements generalizing f with
  | nil => exact .nil
  | cons element rest ih =>
    rw [List.mapIdx_cons]
    rw [List.forall_mem_cons] at each
    exact .cons (each.1 0) (ih fun other inside index => each.2 other inside (index + 1))

/-- Of results of which some are missing, one has a property. -/
theorem exists_mem_filterMap_iff {α β : Type} {f : α → Option β} {elements : List α}
    {property : β → Prop} :
    (∃ result ∈ elements.filterMap f, property result) ↔
      ∃ result? ∈ elements.map f, ∃ result ∈ result?, property result := by
  constructor
  · rintro ⟨result, inside, holds⟩
    obtain ⟨element, member, made⟩ := List.mem_filterMap.mp inside
    exact ⟨some result, made ▸ List.mem_map_of_mem member, result, rfl, holds⟩
  · rintro ⟨_, inside, result, made, holds⟩
    obtain ⟨element, member, rfl⟩ := List.mem_map.mp inside
    exact ⟨result, List.mem_filterMap.mpr ⟨element, member, made⟩, holds⟩

section

variable (scope : Scope) (path : NodePath)

theorem tuple_accounts (elements : List Descriptor)
    (each : ∀ element ∈ elements, ∀ place,
      (type scope place element).Accounts (element.Discards scope.tagField)) (builtin : Builtin) :
    builtin ∈ (tuple path (types scope path .tupleSlot 0 elements)).2.usage ↔
      builtin ∈ (tuple path (types scope path .tupleSlot 0 elements)).1.builtins ∨
        ∃ element ∈ elements, element.Discards scope.tagField builtin := by
  apply call_accounts
  apply Trace.mem_join_usage_of_forall₂ fun decoder : DecoderExpr => builtin ∈ decoder.builtins
  rw [types_eq_mapIdx, List.mapIdx_mapIdx]
  exact forall₂_mapIdx fun element inside index =>
    slot_accounts (each element inside _) path index builtin

theorem either_accounts (members : List Descriptor)
    (each : ∀ member ∈ members, ∀ place,
      (type scope place member).Accounts (member.Discards scope.tagField)) (builtin : Builtin) :
    builtin ∈ (either path (types scope path .unionMember 0 members)).2.usage ↔
      builtin ∈ (either path (types scope path .unionMember 0 members)).1.builtins ∨
        ∃ member ∈ members, member.Discards scope.tagField builtin := by
  have steps : List.Forall₂ (fun descriptor step => builtin ∈ step.2.usage ↔
      (∃ decoder ∈ step.1, builtin ∈ decoder.builtins) ∨
        descriptor.Discards scope.tagField builtin)
      members ((types scope path .unionMember 0 members).mapIdx (member path)) := by
    rw [types_eq_mapIdx, List.mapIdx_mapIdx]
    exact forall₂_mapIdx fun descriptor inside index =>
      member_accounts (each descriptor inside _) path index builtin
  have recorded := Trace.mem_join_usage_of_forall₂
    (fun result : Option DecoderExpr => ∃ decoder ∈ result, builtin ∈ decoder.builtins) steps
  rw [← exists_mem_filterMap_iff] at recorded
  simp only [either]
  split
  · apply call_accounts
    rwa [Trace.append_usage, Usage.mem_union, or_iff_left (Trace.not_mem_report_usage _ _ _)]
  · exact call_accounts _ _ recorded

/-- What the entries of a record call is called by those that remain or is discarded. -/
theorem exists_mem_entries_iff (tagField : Option String) (fields : List Field)
    (builtin : Builtin) :
    (∃ entry ∈ fields.filterMap (Descriptor.entryOf tagField), builtin ∈ entry.2.builtins) ↔
      (∃ entry ∈ Entries.ofList (fields.filterMap (Descriptor.entryOf tagField)),
        builtin ∈ entry.2.builtins) ∨
        (Descriptor.record fields).DiscardsEntry tagField builtin := by
  constructor
  · rintro ⟨entry, inside, calls⟩
    obtain ⟨before, after, split⟩ := List.append_of_mem inside
    by_cases again : entry.1 ∈ after.map Prod.fst
    · -- The key comes again, so the entry does not reach the decoder.
      exact .inr ⟨before, entry, after, split, again, calls⟩
    · exact .inl ⟨entry, (Entries.mem_ofList _ _).mpr ⟨before, after, split, again⟩, calls⟩
  · rintro (⟨entry, inside, calls⟩ | ⟨before, entry, after, split, _, calls⟩)
    · obtain ⟨before, after, split, _⟩ := (Entries.mem_ofList _ _).mp inside
      exact ⟨entry, split ▸ List.mem_append_right _ List.mem_cons_self, calls⟩
    · exact ⟨entry, split ▸ List.mem_append_right _ List.mem_cons_self, calls⟩

theorem record_accounts (fields : List Field)
    (each : ∀ field ∈ fields, ∀ place,
      (type scope place field.type).Accounts (field.type.Discards scope.tagField))
    (builtin : Builtin) :
    builtin ∈ (record path (fieldTypes scope path fields)).2.usage ↔
      builtin ∈ (record path (fieldTypes scope path fields)).1.builtins ∨
        ((Descriptor.record fields).DiscardsEntry scope.tagField builtin ∨
          ∃ part ∈ fields.map FieldOf.type, part.Discards scope.tagField builtin) := by
  have steps : List.Forall₂ (fun descriptor step => builtin ∈ step.2.usage ↔
      (∃ entry ∈ step.1, builtin ∈ entry.2.builtins) ∨
        descriptor.Discards scope.tagField builtin)
      (fields.map FieldOf.type) ((fieldTypes scope path fields).map (field path)) := by
    rw [fieldTypes_eq_map, List.map_map, List.forall₂_map_left_iff, List.forall₂_map_right_iff]
    exact List.forall₂_same.mpr fun element inside =>
      field_accounts (each element inside _) path builtin
  have recorded := Trace.mem_join_usage_of_forall₂
    (fun result : Option (String × DecoderExpr) => ∃ entry ∈ result, builtin ∈ entry.2.builtins)
    steps
  have entries := fieldTypes_entries scope path fields fun field _ place =>
    type_decoder scope place field.type
  rw [← exists_mem_filterMap_iff, entries, exists_mem_entries_iff, or_assoc] at recorded
  apply call_accounts
  simp only [entries, List.mem_singleton, exists_eq_left, DecoderExpr.mem_builtins_object]
  exact recorded

theorem not_mem_duplicateTags_usage (tags : List String) (builtin : Builtin) :
    ¬ builtin ∈ (Trace.join (duplicateTags path tags)).usage := by
  rw [Trace.mem_join_usage]
  rintro ⟨trace, inside, recorded⟩
  obtain ⟨⟨tag, index⟩, _, made⟩ := List.mem_filterMap.mp inside
  obtain ⟨_, reported⟩ := Option.ite_none_right_eq_some.mp made
  obtain rfl := Option.some_inj.mp reported
  exact Trace.not_mem_report_usage _ _ _ recorded

/-- Only the members that stand for their tags are compiled. -/
theorem taggedUnion_accounts {members : List Descriptor} {tagField : String} {tags : List String}
    (tagged : members.map (Descriptor.tag? tagField) = tags.map some)
    (each : ∀ member ∈ members, ∀ place,
      (type scope place member).Accounts (member.Discards scope.tagField)) (builtin : Builtin) :
    builtin ∈ (taggedUnion path tagField tags (types scope path .unionMember 0 members)).2.usage ↔
      builtin ∈
        (taggedUnion path tagField tags (types scope path .unionMember 0 members)).1.builtins ∨
        ∃ member ∈ (winners tags).filterMap fun winner => members[winner.2]?,
          member.Discards scope.tagField builtin := by
  apply call_accounts
  rw [Trace.append_usage, Usage.mem_union,
    or_iff_right (not_mem_duplicateTags_usage path tags builtin)]
  simp only [List.exists_mem_cons_iff, List.not_mem_nil, false_and, exists_false, or_false,
    DecoderExpr.mem_builtins_object]
  have constant : ¬ builtin ∈ (DecoderExpr.constant (.string tagField)).builtins :=
    Usage.not_mem_empty builtin
  rw [or_iff_right constant]
  apply Trace.mem_join_usage_of_forall₂ fun entry : String × DecoderExpr =>
    builtin ∈ entry.2.builtins
  refine List.rel_filterMap (R := Eq) ?_ (List.forall₂_refl _)
  rintro ⟨tag, index⟩ _ rfl
  dsimp only
  rcases found : members[index]? with _ | member
  · rw [types_eq_mapIdx, List.getElem?_mapIdx, found]
    exact .none
  · obtain ⟨_, _, isTagged⟩ := UnionShape.tag_of_mem tagged found
    obtain ⟨fields, _, rfl, _, _⟩ := (Descriptor.tag?_eq_some_iff _ _ _).mp isTagged
    have accounts := each _ (List.mem_of_getElem? found) (path.push (.unionMember index))
    rw [getElem?_types scope path .unionMember found]
    rw [type] at accounts ⊢
    exact .some (accounts builtin)

theorem union_accounts (members : List Descriptor)
    (each : ∀ member ∈ members, ∀ place,
      (type scope place member).Accounts (member.Discards scope.tagField)) (builtin : Builtin) :
    builtin ∈ (union scope path members (types scope path .unionMember 0 members)).2.usage ↔
      builtin ∈ (union scope path members (types scope path .unionMember 0 members)).1.builtins ∨
        ∃ member ∈ Descriptor.visitedMembers scope.tagField members,
          member.Discards scope.tagField builtin := by
  unfold union Descriptor.visitedMembers
  cases shape : UnionShape.classify members scope.tagField with
  | tagged field tags =>
    have tagged := ((UnionShape.classify_eq_tagged_iff _ _ _ _).mp shape).2
    exact taggedUnion_accounts scope path tagged each builtin
  | plain => exact either_accounts scope path members each builtin

theorem not_mem_referenceTrace_usage (name : String) (builtin : Builtin) :
    ¬ builtin ∈ (referenceTrace scope path name).usage := by
  unfold referenceTrace
  split
  · exact Usage.not_mem_empty builtin
  · split <;> exact Usage.not_mem_empty builtin

/-- A list discards what its element does, also when that has no decoder. -/
theorem array_accounts (element : Descriptor)
    (each : (type scope (path.push .arrayElement) element).Accounts
      (element.Discards scope.tagField)) :
    (type scope path (.array element)).Accounts
      ((Descriptor.array element).Discards scope.tagField) := by
  rw [type]
  rcases compiled : type scope (path.push .arrayElement) element with reason | ⟨decoder, trace⟩
  · intro builtin
    rw [compiled] at each
    rw [Descriptor.discards_iff_exists_part id]
    simpa [Descriptor.visited, Descriptor.parts] using each builtin
  · intro builtin
    rw [compiled] at each
    rw [Descriptor.discards_iff_exists_part id]
    apply call_accounts
    simpa [Descriptor.visited, Descriptor.parts] using each builtin

/-- For each type the builtins are recorded that its decoder calls and that are discarded in it. -/
theorem type_accounts (descriptor : Descriptor) :
    (type scope path descriptor).Accounts (descriptor.Discards scope.tagField) := by
  induction descriptor using Descriptor.induction_parts generalizing path with
  | step descriptor ih =>
    cases descriptor with
    | primitive kind =>
      have none :=
        Descriptor.not_discards_of_leaf scope.tagField (.primitive kind) (fun _ => id) rfl
      exact call_constants_accounts none _ nofun
    | opaqueObject =>
      have none := Descriptor.not_discards_of_leaf scope.tagField .opaqueObject (fun _ => id) rfl
      exact call_constants_accounts none _ nofun
    | union members =>
      intro builtin
      rw [Descriptor.discards_iff_exists_part id]
      exact union_accounts scope path members ih builtin
    | array element =>
      exact array_accounts scope path element (ih element List.mem_cons_self _)
    | tuple elements =>
      intro builtin
      rw [Descriptor.discards_iff_exists_part id]
      exact tuple_accounts scope path elements ih builtin
    | literal value =>
      have none := Descriptor.not_discards_of_leaf scope.tagField (.literal value) (fun _ => id) rfl
      cases value with
      | string s => exact call_constants_accounts none _ (List.forall_mem_singleton.mpr rfl)
      | number n => exact call_constants_accounts none _ (List.forall_mem_singleton.mpr rfl)
      | _ => exact none
    | reference name =>
      have none :=
        Descriptor.not_discards_of_leaf scope.tagField (.reference name) (fun _ => id) rfl
      rw [type_reference]
      intro builtin
      exact iff_of_false (not_mem_referenceTrace_usage scope path name builtin)
        (not_or_intro (Usage.not_mem_empty builtin) (none builtin))
    | record fields =>
      intro builtin
      rw [Descriptor.discards_iff]
      exact record_accounts scope path fields (fun field inside =>
        ih field.type (List.mem_map_of_mem inside)) builtin
    | unsupported construct => exact Descriptor.not_discards_of_leaf _ _ (fun _ => id) rfl
    | unrecognized => exact Descriptor.not_discards_of_leaf _ _ (fun _ => id) rfl

end

end Compile

end DecoderForge
