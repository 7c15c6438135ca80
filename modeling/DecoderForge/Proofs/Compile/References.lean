/-
This file proves where the names of other decoders in a decoder come from: from references that are
met in a walk through the type.
-/

import DecoderForge.Proofs.Compile.Walk

namespace DecoderForge

namespace DecoderExpr

mutual

/-- Every name of another decoder that occurs somewhere in an expression. -/
def identifiers : DecoderExpr → List String
  | .call _ args => identifiersOfList args
  | .object entries => identifiersOfEntries entries
  | .identifier name => [name]
  | .constant _ => []

def identifiersOfList : List DecoderExpr → List String
  | [] => []
  | expr :: rest => expr.identifiers ++ identifiersOfList rest

def identifiersOfEntries : List (String × DecoderExpr) → List String
  | [] => []
  | (_, expr) :: rest => expr.identifiers ++ identifiersOfEntries rest

end

theorem mem_identifiersOfList (exprs : List DecoderExpr) (name : String) :
    name ∈ identifiersOfList exprs ↔ ∃ expr ∈ exprs, name ∈ expr.identifiers := by
  induction exprs with
  | nil => simp [identifiersOfList]
  | cons expr rest ih => simp [identifiersOfList, ih]

theorem mem_identifiersOfEntries (entries : List (String × DecoderExpr)) (name : String) :
    name ∈ identifiersOfEntries entries ↔ ∃ entry ∈ entries, name ∈ entry.2.identifiers := by
  induction entries with
  | nil => simp [identifiersOfEntries]
  | cons entry rest ih => simp [identifiersOfEntries, ih]

theorem mem_identifiers_call (builtin : Builtin) (args : List DecoderExpr) (name : String) :
    name ∈ (call builtin args).identifiers ↔ ∃ arg ∈ args, name ∈ arg.identifiers := by
  rw [identifiers, mem_identifiersOfList]

theorem mem_identifiers_object (entries : List (String × DecoderExpr)) (name : String) :
    name ∈ (object entries).identifiers ↔ ∃ entry ∈ entries, name ∈ entry.2.identifiers := by
  rw [identifiers, mem_identifiersOfEntries]

@[simp] theorem not_mem_identifiers_constant (value : Constant) (name : String) :
    name ∉ (constant value).identifiers := List.not_mem_nil

/-- An expression that calls nothing but a builtin has no names in it. -/
theorem not_mem_identifiers_call_nil (builtin : Builtin) (name : String) :
    name ∉ (call builtin []).identifiers := List.not_mem_nil

end DecoderExpr

namespace Descriptor

variable {tagField : Option String} {name : String}

/-- One of the types directly inside a type has a decoder with the name in it. -/
def PartNames (tagField : Option String) (name : String) (descriptor : Descriptor) : Prop :=
  ∃ part ∈ descriptor.visited tagField, ∃ decoder, part.decoder? tagField = some decoder ∧
    name ∈ decoder.identifiers

theorem partNames_of_mem_union {members : List Descriptor}
    (named : name ∈ (unionDecoder tagField members).identifiers) :
    (union members).PartNames tagField name := by
  simp only [PartNames, visited, visitedMembers]
  unfold unionDecoder at named
  cases shape : UnionShape.classify members tagField with
  | tagged field tags =>
    simp only [shape, DecoderExpr.mem_identifiers_call] at named
    obtain ⟨arg, inside, named⟩ := named
    rcases List.mem_cons.mp inside with rfl | last
    · simp at named
    · obtain rfl := List.mem_singleton.mp last
      obtain ⟨entry, inside, named⟩ := (DecoderExpr.mem_identifiers_object _ _).mp named
      obtain ⟨winner, chosen, member, found, decoder, compiled, rfl⟩ :=
        exists_member_of_mem_entries inside
      exact ⟨member, List.mem_filterMap.mpr ⟨winner, chosen, found⟩, decoder, compiled, named⟩
  | plain =>
    simp only [shape, DecoderExpr.mem_identifiers_call] at named
    obtain ⟨decoder, inside, named⟩ := named
    obtain ⟨member, found, compiled⟩ := List.mem_filterMap.mp inside
    exact ⟨member, found, decoder, compiled, named⟩

theorem partNames_of_mem_tuple {elements : List Descriptor}
    (named : name ∈ (DecoderExpr.call .tuple (elements.map fun element =>
      (element.decoder? tagField).getD (.call .json []))).identifiers) :
    (tuple elements).PartNames tagField name := by
  obtain ⟨arg, inside, named⟩ := (DecoderExpr.mem_identifiers_call _ _ _).mp named
  obtain ⟨element, found, rfl⟩ := List.mem_map.mp inside
  cases compiled : element.decoder? tagField with
  | none =>
    rw [compiled] at named
    exact absurd named (DecoderExpr.not_mem_identifiers_call_nil .json name)
  | some decoder =>
    rw [compiled] at named
    exact ⟨element, found, decoder, compiled, named⟩

/-- The entries that remain of those with one name are entries of fields. -/
theorem partNames_of_mem_record {fields : List Field}
    (named : name ∈ (DecoderExpr.call .object [.object
      (Entries.ofList (fields.filterMap (entryOf tagField)))]).identifiers) :
    (record fields).PartNames tagField name := by
  obtain ⟨arg, inside, named⟩ := (DecoderExpr.mem_identifiers_call _ _ _).mp named
  obtain rfl := List.mem_singleton.mp inside
  obtain ⟨entry, inside, named⟩ := (DecoderExpr.mem_identifiers_object _ _).mp named
  obtain ⟨field, found, decoder, compiled, rfl⟩ := exists_field_of_mem_entries inside
  refine ⟨field.type, List.mem_map_of_mem found, decoder, compiled, ?_⟩
  cases optional : field.optional with
  | false => simpa [optional] using named
  | true => simpa [optional, DecoderExpr.mem_identifiers_call] using named

/-- A name in a decoder is that of a reference or stands in the decoder of a part. -/
theorem reference_or_partNames {descriptor : Descriptor} {decoder : DecoderExpr}
    (compiled : descriptor.decoder? tagField = some decoder) (named : name ∈ decoder.identifiers) :
    (∃ typeName, descriptor = .reference typeName ∧ decoderName typeName = name) ∨
      descriptor.PartNames tagField name := by
  rw [decoder?_eq_assembled?] at compiled
  cases descriptor with
  | reference typeName =>
    obtain rfl := Option.some_inj.mp compiled
    exact .inl ⟨typeName, rfl, (List.mem_singleton.mp named).symm⟩
  | union members =>
    obtain rfl := Option.some_inj.mp compiled
    exact .inr (partNames_of_mem_union named)
  | array element =>
    obtain ⟨inner, found, rfl⟩ := Option.map_eq_some_iff.mp compiled
    obtain ⟨arg, inside, named⟩ := (DecoderExpr.mem_identifiers_call _ _ _).mp named
    rw [List.mem_singleton.mp inside] at named
    exact .inr ⟨element, List.mem_cons_self, inner, found, named⟩
  | tuple elements =>
    obtain rfl := Option.some_inj.mp compiled
    exact .inr (partNames_of_mem_tuple named)
  | record fields =>
    obtain rfl := Option.some_inj.mp compiled
    exact .inr (partNames_of_mem_record named)
  | primitive kind =>
    obtain rfl := Option.some_inj.mp compiled
    exact absurd named (DecoderExpr.not_mem_identifiers_call_nil _ name)
  | opaqueObject =>
    obtain rfl := Option.some_inj.mp compiled
    exact absurd named (DecoderExpr.not_mem_identifiers_call_nil _ name)
  | literal value =>
    cases value with
    | string s =>
      obtain rfl := Option.some_inj.mp compiled
      simp [DecoderExpr.mem_identifiers_call] at named
    | number n =>
      obtain rfl := Option.some_inj.mp compiled
      simp [DecoderExpr.mem_identifiers_call] at named
    | _ => contradiction
  | _ => contradiction

/-- Each name in a decoder is that of a reference that has a say in it. -/
theorem exists_reference_of_mem_identifiers {descriptor : Descriptor} {decoder : DecoderExpr}
    (compiled : descriptor.decoder? tagField = some decoder) (named : name ∈ decoder.identifiers) :
    ∃ typeName, descriptor.Visits tagField (.reference typeName) ∧
      decoderName typeName = name := by
  induction descriptor using induction_parts generalizing decoder with
  | step descriptor ih =>
    rcases reference_or_partNames compiled named with
      ⟨typeName, rfl, same⟩ | ⟨part, visited, inner, found, inside⟩
    · exact ⟨typeName, .here _, same⟩
    · have member := visited_subset_parts tagField descriptor part visited
      obtain ⟨typeName, visits, same⟩ := ih part member found inside
      exact ⟨typeName, .inside _ part _ visited visits, same⟩

end Descriptor

end DecoderForge
