/-
This file holds the parts of a type, induction over them, and the parts that a decoder is made from.
-/

import DecoderForge.Compile.Basic

namespace DecoderForge.Descriptor

/-- The types directly inside a type. -/
def parts : Descriptor → List Descriptor
  | .union members => members
  | .array element => [element]
  | .tuple elements => elements
  | .record fields => fields.map FieldOf.type
  | _ => []

theorem sizeOf_lt_of_mem_parts (descriptor part : Descriptor) (inside : part ∈ descriptor.parts) :
    sizeOf part < sizeOf descriptor := by
  cases descriptor with
  | union members =>
    have bound : sizeOf part < sizeOf members := List.sizeOf_lt_of_mem inside
    simp only [union.sizeOf_spec]
    omega
  | array element =>
    obtain rfl := List.mem_singleton.mp inside
    simp only [array.sizeOf_spec]
    omega
  | tuple elements =>
    have bound : sizeOf part < sizeOf elements := List.sizeOf_lt_of_mem inside
    simp only [tuple.sizeOf_spec]
    omega
  | record fields =>
    obtain ⟨⟨name, type, optional⟩, member, rfl⟩ := List.mem_map.mp inside
    have bound := List.sizeOf_lt_of_mem member
    simp only [FieldOf.mk.sizeOf_spec] at bound
    simp only [record.sizeOf_spec]
    omega
  | _ => exact absurd inside List.not_mem_nil

/-- What a type has whenever its parts have it, every type has. -/
theorem induction_parts {motive : Descriptor → Prop}
    (step : ∀ descriptor, (∀ part ∈ descriptor.parts, motive part) → motive descriptor)
    (descriptor : Descriptor) : motive descriptor :=
  step descriptor fun part _ => induction_parts step part
termination_by sizeOf descriptor
decreasing_by exact sizeOf_lt_of_mem_parts descriptor part ‹_›

/-- A condition on a type and on every type inside it. -/
inductive Everywhere (condition : Descriptor → Prop) : Descriptor → Prop
  | intro (descriptor : Descriptor) (here : condition descriptor)
      (inside : ∀ part ∈ descriptor.parts, Everywhere condition part) :
      Everywhere condition descriptor

theorem Everywhere.here {condition : Descriptor → Prop} {descriptor : Descriptor}
    (everywhere : Everywhere condition descriptor) : condition descriptor := by
  cases everywhere
  assumption

theorem Everywhere.inside {condition : Descriptor → Prop} {descriptor : Descriptor}
    (everywhere : Everywhere condition descriptor) (part : Descriptor)
    (member : part ∈ descriptor.parts) : Everywhere condition part := by
  cases everywhere with
  | intro _ _ inside => exact inside part member

theorem Everywhere.leaf {condition : Descriptor → Prop} {descriptor : Descriptor}
    (here : condition descriptor) (none : descriptor.parts = []) :
    Everywhere condition descriptor :=
  .intro descriptor here (none ▸ List.forall_mem_nil _)

/-- The members of a union that have a say in its decoder. -/
def visitedMembers (tagField : Option String) (members : List Descriptor) : List Descriptor :=
  match UnionShape.classify members tagField with
  | .tagged _ tags => (Compile.winners tags).filterMap fun winner => members[winner.2]?
  | .plain => members

/-- The parts of a type that have a say in its decoder. -/
def visited (tagField : Option String) : Descriptor → List Descriptor
  | .union members => visitedMembers tagField members
  | other => other.parts

theorem visited_subset_parts (tagField : Option String) (descriptor part : Descriptor)
    (inside : part ∈ descriptor.visited tagField) : part ∈ descriptor.parts := by
  cases descriptor with
  | union members =>
    change part ∈ visitedMembers tagField members at inside
    unfold visitedMembers at inside
    split at inside
    · obtain ⟨winner, _, found⟩ := List.mem_filterMap.mp inside
      exact List.mem_of_getElem? found
    · exact inside
  | _ => exact inside

/-- A type inside another, on a way on which every type has a say in the decoder. -/
inductive Visits (tagField : Option String) : Descriptor → Descriptor → Prop
  | here (descriptor : Descriptor) : Visits tagField descriptor descriptor
  | inside (descriptor part inner : Descriptor) (member : part ∈ descriptor.visited tagField)
      (rest : Visits tagField part inner) : Visits tagField descriptor inner

/-- The names of the fields of a record are distinct. -/
def NamesDistinct : Descriptor → Prop
  | .record fields => (fields.map FieldOf.name).Nodup
  | _ => True

end DecoderForge.Descriptor
