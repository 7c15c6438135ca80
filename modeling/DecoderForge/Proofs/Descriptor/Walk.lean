/-
This file walks through the types inside a type, in the order in which they are compiled.
-/

import DecoderForge.Proofs.Descriptor.Parts

namespace DecoderForge

/-- A type where it stands: the place around it, and the step from there to it. -/
structure Node where
  around : NodePath
  step : Segment
  type : Descriptor

namespace Node

def path (node : Node) : NodePath := node.around.push node.step

/-- A type that is declared. -/
def ofDeclaration (declaration : Declaration) : Node :=
  ⟨.root, .declaration declaration.name, declaration.type⟩

/-- The types directly inside a type that have a say in its decoder. Of the members of a tagged
union these are the ones that stand for their tags. -/
def inner (tagField : Option String) (node : Node) : List Node :=
  match node.type with
  | .union members =>
    match UnionShape.classify members tagField with
    | .tagged _ tags => (Compile.winners tags).filterMap fun winner =>
      members[winner.2]?.map fun member => ⟨node.path, .unionMember winner.2, member⟩
    | .plain => members.mapIdx fun index member => ⟨node.path, .unionMember index, member⟩
  | .array element => [⟨node.path, .arrayElement, element⟩]
  | .tuple elements => elements.mapIdx fun index element => ⟨node.path, .tupleSlot index, element⟩
  | .record fields => fields.map fun field => ⟨node.path, .field field.name, field.type⟩
  | _ => []

variable (tagField : Option String)

theorem inner_types (node : Node) :
    (node.inner tagField).map Node.type = node.type.visited tagField := by
  obtain ⟨around, step, type⟩ := node
  cases type with
  | union members =>
    simp only [inner, Descriptor.visited, Descriptor.visitedMembers]
    cases UnionShape.classify members tagField with
    | tagged field tags => simp [List.map_filterMap, Function.comp_def]
    | plain => apply List.ext_getElem <;> simp
  | tuple elements =>
    simp only [inner, Descriptor.visited, Descriptor.parts]
    apply List.ext_getElem <;> simp
  | record fields => simp [inner, Descriptor.visited, Descriptor.parts]
  | _ => rfl

/-- What is directly inside a type stands one step below it. Only in an array this is the step to
its element. -/
theorem of_mem_inner {node part : Node} (inside : part ∈ node.inner tagField) :
    part.around = node.path ∧ (part.step = .arrayElement → node.type = .array part.type) := by
  obtain ⟨around, step, type⟩ := node
  cases type with
  | union members =>
    simp only [inner] at inside
    split at inside
    · obtain ⟨winner, _, found⟩ := List.mem_filterMap.mp inside
      obtain ⟨member, _, rfl⟩ := Option.map_eq_some_iff.mp found
      exact ⟨rfl, nofun⟩
    · obtain ⟨index, _, rfl⟩ := List.mem_mapIdx.mp inside
      exact ⟨rfl, nofun⟩
  | array element =>
    obtain rfl := List.mem_singleton.mp inside
    exact ⟨rfl, fun _ => rfl⟩
  | tuple elements =>
    obtain ⟨index, _, rfl⟩ := List.mem_mapIdx.mp inside
    exact ⟨rfl, nofun⟩
  | record fields =>
    obtain ⟨field, _, rfl⟩ := List.mem_map.mp inside
    exact ⟨rfl, nofun⟩
  | _ => exact absurd inside List.not_mem_nil

theorem sizeOf_lt_of_mem_inner {node part : Node} (inside : part ∈ node.inner tagField) :
    sizeOf part.type < sizeOf node.type := by
  have member := List.mem_map_of_mem (f := Node.type) inside
  rw [inner_types] at member
  exact Descriptor.sizeOf_lt_of_mem_parts _ _
    (Descriptor.visited_subset_parts tagField _ _ member)

/-- What a type has whenever the types inside it that have a say have it, every type has. -/
theorem induction_inner {motive : Node → Prop}
    (step : ∀ node, (∀ part ∈ node.inner tagField, motive part) → motive node)
    (node : Node) : motive node :=
  step node fun part _ => induction_inner step part
termination_by sizeOf node.type
decreasing_by exact sizeOf_lt_of_mem_inner tagField ‹_›

/-- A type and all types inside it that have a say in its decoder, each behind the one around
it. -/
def walk (node : Node) : List Node :=
  node :: (node.inner tagField).attach.flatMap fun part => walk part.1
termination_by sizeOf node.type
decreasing_by exact sizeOf_lt_of_mem_inner tagField part.2

theorem walk_eq (node : Node) :
    node.walk tagField = node :: (node.inner tagField).flatMap (walk tagField) := by
  rw [walk]
  simp

/-- A walk meets the types that have a say in the decoder. -/
theorem exists_mem_walk_of_visits {node : Node} {type : Descriptor}
    (visits : node.type.Visits tagField type) : ∃ met ∈ node.walk tagField, met.type = type := by
  induction node using induction_inner tagField with
  | step node ih =>
    rw [walk_eq]
    cases visits with
    | here => exact ⟨node, List.mem_cons_self, rfl⟩
    | inside _ part _ member rest =>
      rw [← inner_types] at member
      obtain ⟨next, inside, rfl⟩ := List.mem_map.mp member
      obtain ⟨met, found, same⟩ := ih next inside rest
      exact ⟨met, List.mem_cons_of_mem _ (List.mem_flatMap.mpr ⟨next, inside, found⟩), same⟩

/-- What a walk meets stands nowhere but at or below the place where the walk starts. -/
theorem prefix_around_of_mem_walk {node met : Node} (found : met ∈ node.walk tagField) :
    node.around.segments <+: met.around.segments := by
  induction node using induction_inner tagField with
  | step node ih =>
    rw [walk_eq, List.mem_cons] at found
    rcases found with rfl | found
    · exact List.prefix_rfl
    · obtain ⟨part, inside, later⟩ := List.mem_flatMap.mp found
      have longer : part.around.segments <+: met.around.segments := ih part inside later
      rw [(of_mem_inner tagField inside).1] at longer
      exact (List.prefix_append _ _).trans longer

end Node

end DecoderForge
