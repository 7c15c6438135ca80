/-
This file proves that what compiling a type leaves behind is what the types that are met in a walk
through it leave behind one after the other.
-/

import DecoderForge.Proofs.Compile.Decoder
import DecoderForge.Proofs.Compile.Union
import DecoderForge.Proofs.Descriptor.Walk

namespace DecoderForge

/-- What is reported at a step to a type that has no decoder. An array has none either then, and
leaves the report to the step to itself. -/
def Segment.skip? (reason : SkipReason) : Segment → Option DiagnosticKind
  | .declaration _ => some (.declarationUninitialized reason)
  | .field name => some (.fieldDropped name reason)
  | .tupleSlot index => some (.tupleSlotPassthrough index reason)
  | .unionMember index => some (.unionMemberDropped index reason)
  | .arrayElement => none

theorem Compile.lost?_of_ok {scope : Scope} {path : NodePath} {descriptor : Descriptor}
    {result : DecoderExpr × Trace} (compiled : type scope path descriptor = .ok result) :
    descriptor.lost? = none := by
  rw [Option.eq_none_iff_forall_ne_some]
  intro reason lost
  rw [← type_eq_error_iff scope path, compiled] at lost
  contradiction

/-- A type has a decoder unless it is lost. -/
theorem Descriptor.decoder?_isSome (tagField : Option String) (descriptor : Descriptor) :
    (descriptor.decoder? tagField).isSome = descriptor.lost?.isNone := by
  rcases compiled : Compile.type ⟨tagField, none, 0⟩ .root descriptor with reason | result
  · have lost := (Compile.type_eq_error_iff _ _ _ _).mp compiled
    rw [decoder?, compiled, lost]
    rfl
  · have kept := Compile.lost?_of_ok compiled
    rw [decoder?, compiled, kept]
    rfl

namespace Node

/-- The report that a type is left out, if it is lost and the step to it does not go on. -/
def skip? (node : Node) : Option Diagnostic :=
  node.type.lost?.bind fun reason =>
    (node.step.skip? reason).map fun kind => ⟨node.path.text, kind⟩

/-- What a type leaves behind apart from the types inside it. -/
def own (scope : Scope) (node : Node) : Trace :=
  match node.type with
  | .reference name => Compile.referenceTrace scope node.path name
  | _ => ⟨.empty, node.skip?.toList, []⟩

/-- What a type leaves behind together with the types inside it. -/
def left (scope : Scope) (node : Node) : Trace :=
  match Compile.type scope node.path node.type with
  | .ok (_, trace) => trace
  | .error _ => ⟨.empty, node.skip?.toList, []⟩

variable {scope : Scope} (node : Node)

theorem own_of_reference {name : String} (type : node.type = .reference name) :
    node.own scope = Compile.referenceTrace scope node.path name := by
  rw [own, type]

theorem own_of_not_reference (other : ∀ name, node.type ≠ .reference name) :
    node.own scope = ⟨.empty, node.skip?.toList, []⟩ := by
  unfold own
  split
  · next name type => exact absurd type (other name)
  · rfl

theorem left_of_ok {decoder : DecoderExpr} {trace : Trace}
    (compiled : Compile.type scope node.path node.type = .ok (decoder, trace)) :
    node.left scope = trace := by
  rw [left, compiled]

/-- A type without a decoder leaves behind the report of the step to it. -/
theorem left_of_error {reason : SkipReason} {kind : DiagnosticKind}
    (compiled : Compile.type scope node.path node.type = .error reason)
    (swallowed : node.step.skip? reason = some kind) :
    node.left scope = .report node.path kind := by
  have lost : node.type.lost? = some reason :=
    (Compile.type_eq_error_iff scope node.path node.type reason).mp compiled
  have skip : node.skip? = some ⟨node.path.text, kind⟩ := by
    rw [skip?, lost, Option.bind_some, swallowed, Option.map_some]
  rw [left, compiled, skip]
  rfl

end Node

/-- A list that is read off what is left behind, step after step. Calls and what is said of a union
as a whole are passed over. -/
structure Trace.Reading (α : Type) where
  read : Trace → List α
  read_empty : read .empty = []
  read_append (first second : Trace) : read (first ++ second) = read first ++ read second
  read_ofBuiltin (builtin : Builtin) : read (.ofBuiltin builtin) = []
  read_emptyUnion (path : NodePath) : read (.report path .emptyUnion) = []
  read_duplicateTag (path : NodePath) (tag : String) :
    read (.report path (.duplicateTag tag)) = []

namespace Trace.Reading

/-- The references to declared types. -/
def references : Reading ReferenceSite where
  read := Trace.references
  read_empty := rfl
  read_append _ _ := rfl
  read_ofBuiltin _ := rfl
  read_emptyUnion _ := rfl
  read_duplicateTag _ _ := rfl

/-- The reports of some kinds. -/
def reports (test : DiagnosticKind → Bool) (emptyUnion : test .emptyUnion = false)
    (duplicateTag : ∀ tag, test (.duplicateTag tag) = false) : Reading Diagnostic where
  read trace := trace.diagnostics.filter fun report => test report.kind
  read_empty := rfl
  read_append _ _ := List.filter_append _ _
  read_ofBuiltin _ := rfl
  read_emptyUnion _ := by simp [Trace.report, emptyUnion]
  read_duplicateTag _ tag := by simp [Trace.report, duplicateTag tag]

/-- The reports of types that are left out. -/
def skips : Reading Diagnostic := reports DiagnosticKind.isSkip rfl fun _ => rfl

variable {α : Type} (reading : Reading α)

theorem read_join (traces : List Trace) :
    reading.read (.join traces) = traces.flatMap reading.read := by
  induction traces with
  | nil => exact reading.read_empty
  | cons trace rest ih => rw [join, reading.read_append, ih, List.flatMap_cons]

theorem read_call (builtin : Builtin) (args : List DecoderExpr) (steps : Trace) :
    reading.read (Compile.call builtin args steps).2 = reading.read steps := by
  rw [Compile.call, reading.read_append, reading.read_ofBuiltin, List.append_nil]

variable (scope : Scope) (path : NodePath)

/-- A slot is read as the type in it, although one without a decoder calls a builtin. -/
theorem read_slot (index : Nat) (element : Descriptor) :
    reading.read (Compile.slot path index
        (Compile.type scope (path.push (.tupleSlot index)) element)).2 =
      reading.read (Node.left scope ⟨path, .tupleSlot index, element⟩) := by
  rcases compiled : Compile.type scope (path.push (.tupleSlot index)) element with
    reason | ⟨decoder, trace⟩
  · rw [Node.left_of_error ⟨path, .tupleSlot index, element⟩ compiled rfl]
    exact reading.read_call .json [] _
  · rw [Node.left_of_ok ⟨path, .tupleSlot index, element⟩ compiled]
    rfl

theorem read_member (index : Nat) (member : Descriptor) :
    reading.read (Compile.member path index
        (Compile.type scope (path.push (.unionMember index)) member)).2 =
      reading.read (Node.left scope ⟨path, .unionMember index, member⟩) := by
  rcases compiled : Compile.type scope (path.push (.unionMember index)) member with
    reason | ⟨decoder, trace⟩
  · rw [Node.left_of_error ⟨path, .unionMember index, member⟩ compiled rfl]
    rfl
  · rw [Node.left_of_ok ⟨path, .unionMember index, member⟩ compiled]
    rfl

theorem read_field (field : Field) :
    reading.read (Compile.field path ⟨field.name,
        Compile.type scope (path.push (.field field.name)) field.type, field.optional⟩).2 =
      reading.read (Node.left scope ⟨path, .field field.name, field.type⟩) := by
  rcases compiled : Compile.type scope (path.push (.field field.name)) field.type with
    reason | ⟨decoder, trace⟩
  · rw [Node.left_of_error ⟨path, .field field.name, field.type⟩ compiled rfl]
    rfl
  · rw [Node.left_of_ok ⟨path, .field field.name, field.type⟩ compiled]
    cases optional : field.optional with
    | false => rfl
    | true => exact reading.read_call .optional [decoder] trace

/-- What is read off steps that are taken for elements is read off the types that they compile. -/
theorem read_join_mapIdx {β γ : Type} (step : Nat → β → γ × Trace) (node : Nat → β → Node)
    (elements : List β)
    (each : ∀ index element, reading.read (step index element).2 =
      reading.read ((node index element).left scope)) :
    reading.read (.join ((elements.mapIdx step).map Prod.snd)) =
      (elements.mapIdx node).flatMap fun part => reading.read (part.left scope) := by
  induction elements generalizing step node with
  | nil => exact reading.read_empty
  | cons element rest ih =>
    have later := ih (fun index => step (index + 1)) (fun index => node (index + 1))
      fun index element => each (index + 1) element
    rw [List.mapIdx_cons, List.mapIdx_cons, List.map_cons, join, reading.read_append, each, later,
      List.flatMap_cons]

theorem read_tuple (elements : List Descriptor) :
    reading.read (Compile.tuple path (Compile.types scope path .tupleSlot 0 elements)).2 =
      (elements.mapIdx fun index element => (⟨path, .tupleSlot index, element⟩ : Node)).flatMap
        fun part => reading.read (part.left scope) := by
  simp only [Compile.tuple, read_call]
  rw [Compile.types_eq_mapIdx, List.mapIdx_mapIdx]
  apply read_join_mapIdx
  intro index element
  simpa only [Function.comp_apply, Nat.zero_add] using reading.read_slot scope path index element

theorem read_record (fields : List Field) :
    reading.read (Compile.record path (Compile.fieldTypes scope path fields)).2 =
      (fields.map fun field => (⟨path, .field field.name, field.type⟩ : Node)).flatMap
        fun part => reading.read (part.left scope) := by
  simp only [Compile.record, read_call]
  rw [Compile.fieldTypes_eq_map, read_join]
  simp only [List.flatMap_map, read_field]

theorem read_either (members : List Descriptor) :
    reading.read (Compile.either path (Compile.types scope path .unionMember 0 members)).2 =
      (members.mapIdx fun index member => (⟨path, .unionMember index, member⟩ : Node)).flatMap
        fun part => reading.read (part.left scope) := by
  have joined : reading.read (.join (((Compile.types scope path .unionMember 0 members).mapIdx
      (Compile.member path)).map Prod.snd)) =
      (members.mapIdx fun index member => (⟨path, .unionMember index, member⟩ : Node)).flatMap
        fun part => reading.read (part.left scope) := by
    rw [Compile.types_eq_mapIdx, List.mapIdx_mapIdx]
    apply read_join_mapIdx
    intro index member
    simpa only [Function.comp_apply, Nat.zero_add] using reading.read_member scope path index member
  simp only [Compile.either]
  split
  · rw [read_call, reading.read_append, reading.read_emptyUnion, List.append_nil, joined]
  · rw [read_call, joined]

theorem read_duplicateTags (tags : List String) :
    reading.read (.join (Compile.duplicateTags path tags)) = [] := by
  rw [read_join, List.flatMap_eq_nil_iff]
  intro trace inside
  obtain ⟨⟨tag, index⟩, _, made⟩ := List.mem_filterMap.mp inside
  obtain ⟨_, reported⟩ := Option.ite_none_right_eq_some.mp made
  obtain rfl := Option.some_inj.mp reported
  exact reading.read_duplicateTag _ tag

/-- Only the members that stand for their tags are read. They are records and have decoders. -/
theorem read_taggedUnion {members : List Descriptor} {tagField : String} {tags : List String}
    (tagged : members.map (Descriptor.tag? tagField) = tags.map some) :
    reading.read (Compile.taggedUnion path tagField tags
        (Compile.types scope path .unionMember 0 members)).2 =
      ((Compile.winners tags).filterMap fun winner => members[winner.2]?.map fun member =>
        (⟨path, .unionMember winner.2, member⟩ : Node)).flatMap
          fun part => reading.read (part.left scope) := by
  simp only [Compile.taggedUnion]
  rw [read_call, reading.read_append, read_duplicateTags, List.nil_append, read_join,
    List.map_filterMap, ← List.flatMap_map (Node.left scope), List.map_filterMap]
  refine congrArg (List.flatMap reading.read) (List.filterMap_congr ?_)
  rintro ⟨tag, index⟩ _
  dsimp only
  cases found : members[index]? with
  | none =>
    rw [Compile.types_eq_mapIdx, List.getElem?_mapIdx, found]
    rfl
  | some member =>
    obtain ⟨_, _, isTagged⟩ := UnionShape.tag_of_mem tagged found
    obtain ⟨fields, _, rfl, _, _⟩ := (Descriptor.tag?_eq_some_iff _ _ _).mp isTagged
    rw [Compile.getElem?_types scope path .unionMember found, Compile.type]
    rfl

theorem read_union (members : List Descriptor) (around : NodePath) (step : Segment) :
    reading.read (Compile.union scope (around.push step) members
        (Compile.types scope (around.push step) .unionMember 0 members)).2 =
      (Node.inner scope.tagField ⟨around, step, .union members⟩).flatMap
        fun part => reading.read (part.left scope) := by
  simp only [Compile.union, Node.inner]
  cases shape : UnionShape.classify members scope.tagField with
  | tagged field tags =>
    have tagged := ((UnionShape.classify_eq_tagged_iff _ _ _ _).mp shape).2
    exact reading.read_taggedUnion scope (around.push step) tagged
  | plain => exact reading.read_either scope (around.push step) members

/-- The element of an array is read as the array, also when neither has a decoder. -/
theorem read_array (element : Descriptor) (around : NodePath) (step : Segment) :
    reading.read (Node.left scope ⟨around, step, .array element⟩) =
      reading.read (Node.own scope ⟨around, step, .array element⟩) ++
        reading.read (Node.left scope ⟨around.push step, .arrayElement, element⟩) := by
  rcases compiled : Compile.type scope ((around.push step).push .arrayElement) element with
    reason | ⟨decoder, trace⟩
  · have inside : Node.skip? ⟨around.push step, .arrayElement, element⟩ = none := by
      rw [Node.skip?, Option.bind_eq_none_iff]
      exact fun _ _ => rfl
    have below : Node.left scope ⟨around.push step, .arrayElement, element⟩ = .empty := by
      rw [Node.left, Node.path, compiled, inside]
      rfl
    have above : Node.left scope ⟨around, step, .array element⟩ =
        Node.own scope ⟨around, step, .array element⟩ := by
      rw [Node.left, Node.path, Compile.type, compiled]
      rfl
    rw [below, above, reading.read_empty, List.append_nil]
  · have below : Node.left scope ⟨around.push step, .arrayElement, element⟩ = trace :=
      Node.left_of_ok _ compiled
    have above : Node.left scope ⟨around, step, .array element⟩ =
        (Compile.call .array [decoder] trace).2 := by
      rw [Node.left, Node.path, Compile.type, compiled]
      rfl
    have kept : element.lost? = none := Compile.lost?_of_ok compiled
    have alone : Node.own scope ⟨around, step, .array element⟩ = .empty := by
      simp only [Node.own, Node.skip?, Descriptor.lost?, kept]
      rfl
    rw [below, above, alone, read_call, reading.read_empty, List.nil_append]

/-- What is read off a type is read off the type itself and then off the types directly inside. -/
theorem read_left_eq (node : Node) :
    reading.read (node.left scope) = reading.read (node.own scope) ++
      (node.inner scope.tagField).flatMap fun part => reading.read (part.left scope) := by
  obtain ⟨around, step, type⟩ := node
  cases type with
  | primitive kind =>
    change reading.read (Compile.call (Compile.primitive kind) [] .empty).2 =
      reading.read .empty ++ []
    rw [read_call, List.append_nil]
  | opaqueObject =>
    change reading.read (Compile.call .jsonObject [] .empty).2 = reading.read .empty ++ []
    rw [read_call, List.append_nil]
  | union members =>
    change reading.read (Compile.union scope (around.push step) members
      (Compile.types scope (around.push step) .unionMember 0 members)).2 =
      reading.read .empty ++ _
    rw [reading.read_empty, List.nil_append, read_union]
  | array element =>
    rw [read_array, Node.inner, List.flatMap_singleton]
    rfl
  | tuple elements =>
    change reading.read (Compile.tuple (around.push step)
      (Compile.types scope (around.push step) .tupleSlot 0 elements)).2 = reading.read .empty ++ _
    rw [reading.read_empty, List.nil_append, read_tuple]
    rfl
  | literal value =>
    cases value with
    | string s =>
      change reading.read (Compile.call .constant [.constant (.string s)] .empty).2 =
        reading.read .empty ++ []
      rw [read_call, List.append_nil]
    | number n =>
      change reading.read (Compile.call .constant [.constant (.number n)] .empty).2 =
        reading.read .empty ++ []
      rw [read_call, List.append_nil]
    | _ => exact (List.append_nil _).symm
  | reference name =>
    rw [Node.left_of_ok _ (Compile.type_reference scope _ name)]
    exact (List.append_nil _).symm
  | record fields =>
    change reading.read (Compile.record (around.push step)
      (Compile.fieldTypes scope (around.push step) fields)).2 = reading.read .empty ++ _
    rw [reading.read_empty, List.nil_append, read_record]
    rfl
  | _ => exact (List.append_nil _).symm

/-- What is read off a type is what is read off each type that is met in a walk through it. -/
theorem read_left (node : Node) :
    reading.read (node.left scope) =
      (node.walk scope.tagField).flatMap fun met => reading.read (met.own scope) := by
  induction node using Node.induction_inner scope.tagField with
  | step node ih =>
    rw [read_left_eq, Node.walk_eq, List.flatMap_cons, List.flatMap_assoc]
    exact congrArg _ (List.flatMap_congr ih)

end Trace.Reading

end DecoderForge
