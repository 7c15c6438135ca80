/-
This file proves that no two types inside a declaration stand at places with the same text, where
the fields of each record have distinct names that are written without quotes.
-/

import DecoderForge.Proofs.Descriptor.Walk
import DecoderForge.Proofs.NodePath
import Mathlib.Data.List.Nodup

namespace DecoderForge

/-- The fields of a record have distinct names that are written without quotes. -/
def Descriptor.NamesBare : Descriptor → Prop
  | .record fields =>
    (fields.map FieldOf.name).Nodup ∧
      ∀ field ∈ fields, TypeScript.isName field.name.toList = true
  | _ => True

/-- The steps to the parts of a type. -/
def Descriptor.steps : Descriptor → List Segment
  | .union members => (List.range members.length).map .unionMember
  | .array _ => [.arrayElement]
  | .tuple elements => (List.range elements.length).map .tupleSlot
  | .record fields => (fields.map FieldOf.name).map .field
  | _ => []

namespace Descriptor

variable {descriptor : Descriptor} (bare : descriptor.NamesBare)

include bare

theorem nodup_steps : descriptor.steps.Nodup := by
  cases descriptor with
  | union members => exact List.nodup_range.map fun _ _ => Segment.unionMember.inj
  | array element => exact List.nodup_singleton _
  | tuple elements => exact List.nodup_range.map fun _ _ => Segment.tupleSlot.inj
  | record fields => exact bare.1.map fun _ _ => Segment.field.inj
  | _ => exact List.nodup_nil

theorem isStep_of_mem_steps : ∀ step ∈ descriptor.steps, step.isStep = true := by
  cases descriptor with
  | union members => exact List.forall_mem_map.mpr fun _ _ => rfl
  | array element => exact List.forall_mem_singleton.mpr rfl
  | tuple elements => exact List.forall_mem_map.mpr fun _ _ => rfl
  | record fields =>
    exact List.forall_mem_map.mpr (List.forall_mem_map.mpr fun field inside => bare.2 field inside)
  | _ => exact List.forall_mem_nil _

end Descriptor

namespace Node

theorem everywhere_of_mem_inner {condition : Descriptor → Prop} {tagField : Option String}
    {node part : Node} (everywhere : node.type.Everywhere condition)
    (inside : part ∈ node.inner tagField) : part.type.Everywhere condition := by
  have member := List.mem_map_of_mem (f := Node.type) inside
  rw [inner_types] at member
  exact everywhere.inside _ (Descriptor.visited_subset_parts tagField _ _ member)

section

variable (tagField : Option String)

/-- What a walk meets behind its start stands below the start. -/
theorem prefix_around_of_mem_inner {node part met : Node} (inside : part ∈ node.inner tagField)
    (found : met ∈ part.walk tagField) : node.path.segments <+: met.around.segments := by
  rw [← (of_mem_inner tagField inside).1]
  exact prefix_around_of_mem_walk tagField found

theorem prefix_path_of_mem_walk {node met : Node} (found : met ∈ node.walk tagField) :
    node.path.segments <+: met.path.segments := by
  rw [walk_eq, List.mem_cons] at found
  rcases found with rfl | found
  · exact List.prefix_rfl
  · obtain ⟨part, inside, later⟩ := List.mem_flatMap.mp found
    exact (prefix_around_of_mem_inner tagField inside later).trans (List.prefix_append _ _)

theorem path_ne_of_mem_inner {node part met : Node} (inside : part ∈ node.inner tagField)
    (found : met ∈ part.walk tagField) : met.path ≠ node.path := by
  intro same
  have shorter := (prefix_around_of_mem_inner tagField inside found).length_le
  have longer := congrArg (fun path => path.segments.length) same
  simp only [path, NodePath.push, List.length_append, List.length_singleton] at shorter longer
  omega

end

/-- Places below two parts of a type are the same only if the steps to the parts are. -/
theorem step_eq_of_path_eq {tagField : Option String} {node part other met below : Node}
    (inside : part ∈ node.inner tagField) (within : other ∈ node.inner tagField)
    (found : met ∈ part.walk tagField) (known : below ∈ other.walk tagField)
    (same : met.path = below.path) : part.step = other.step := by
  have first : node.path.segments ++ [part.step] <+: met.path.segments := by
    rw [← (of_mem_inner tagField inside).1]
    exact prefix_path_of_mem_walk tagField found
  have second : node.path.segments ++ [other.step] <+: met.path.segments := by
    rw [← (of_mem_inner tagField within).1, same]
    exact prefix_path_of_mem_walk tagField known
  have starts := (List.prefix_of_prefix_length_le first second (by simp)).eq_of_length (by simp)
  exact List.singleton_inj.mp (List.append_cancel_left starts)

theorem inner_steps (node : Node) : (node.inner none).map Node.step = node.type.steps := by
  obtain ⟨around, step, type⟩ := node
  have numbered (segment : Nat → Segment) (types : List Descriptor) :
      (types.mapIdx fun index type => (⟨around.push step, segment index, type⟩ : Node)).map
        Node.step = (List.range types.length).map segment := by
    apply List.ext_getElem <;> simp
  cases type with
  | union members => exact numbered .unionMember members
  | tuple elements => exact numbered .tupleSlot elements
  | record fields => simp [inner, Descriptor.steps]
  | _ => rfl

/-- Each place inside a type is met once. Without a tag field a walk passes over no member. -/
theorem nodup_paths {node : Node} (bare : node.type.Everywhere Descriptor.NamesBare) :
    ((node.walk none).map Node.path).Nodup := by
  induction node using induction_inner none with
  | step node ih =>
    -- Places below two parts differ already in the steps to the parts.
    have apart : (node.inner none).Pairwise fun part other =>
        List.Disjoint ((part.walk none).map Node.path) ((other.walk none).map Node.path) := by
      have steps := Descriptor.nodup_steps bare.here
      rw [← inner_steps] at steps
      refine (List.pairwise_map.mp steps).imp_of_mem ?_
      intro part other inside within differ path here there
      apply differ
      obtain ⟨met, found, rfl⟩ := List.mem_map.mp here
      obtain ⟨below, known, same⟩ := List.mem_map.mp there
      exact step_eq_of_path_eq inside within found known same.symm
    rw [walk_eq, List.map_cons, List.map_flatMap, List.nodup_cons, List.nodup_flatMap]
    refine ⟨?_, fun part inside => ih part inside (everywhere_of_mem_inner bare inside), apart⟩
    intro again
    obtain ⟨part, inside, later⟩ := List.mem_flatMap.mp again
    obtain ⟨met, found, same⟩ := List.mem_map.mp later
    exact path_ne_of_mem_inner none inside found same

/-- Steps inside lead from a type to what a walk through it meets. -/
theorem exists_steps_of_mem_walk {node met : Node}
    (bare : node.type.Everywhere Descriptor.NamesBare) (found : met ∈ node.walk none) :
    ∃ steps, met.path.segments = node.path.segments ++ steps ∧
      ∀ step ∈ steps, step.isStep = true := by
  induction node using induction_inner none with
  | step node ih =>
    rw [walk_eq, List.mem_cons] at found
    rcases found with rfl | found
    · exact ⟨[], (List.append_nil _).symm, List.forall_mem_nil _⟩
    · obtain ⟨part, inside, later⟩ := List.mem_flatMap.mp found
      obtain ⟨steps, segments, each⟩ := ih part inside (everywhere_of_mem_inner bare inside) later
      have first : part.step.isStep = true := by
        apply Descriptor.isStep_of_mem_steps bare.here
        rw [← inner_steps]
        exact List.mem_map_of_mem inside
      refine ⟨part.step :: steps, ?_, List.forall_mem_cons.mpr ⟨first, each⟩⟩
      rw [segments, path, NodePath.push, (of_mem_inner none inside).1, List.append_assoc,
        List.singleton_append]

/-- Places below one place are told apart by their texts. -/
theorem path_eq_of_text_eq {node met other : Node}
    (bare : node.type.Everywhere Descriptor.NamesBare) (found : met ∈ node.walk none)
    (known : other ∈ node.walk none) (same : met.path.text = other.path.text) :
    met.path = other.path := by
  obtain ⟨steps, segments, inner⟩ := exists_steps_of_mem_walk bare found
  obtain ⟨more, others, within⟩ := exists_steps_of_mem_walk bare known
  have chars := congrArg String.toList same
  rw [NodePath.toList_text, NodePath.toList_text, segments, others, List.flatMap_append,
    List.flatMap_append] at chars
  apply NodePath.eq_of_segments_eq
  rw [segments, others, Segment.steps_inj inner within (List.append_cancel_left chars)]

/-- The types inside a type stand at places with distinct texts. -/
theorem nodup_texts {node : Node} (bare : node.type.Everywhere Descriptor.NamesBare) :
    ((node.walk none).map fun met => met.path.text).Nodup := by
  have paths := nodup_paths bare
  rw [List.Nodup, List.pairwise_map] at paths ⊢
  refine paths.imp_of_mem fun {met other} found known apart same => apart ?_
  exact path_eq_of_text_eq bare found known same

end Node

end DecoderForge
