/-
This file proves that whatever is reported where a type is compiled is reported of one of the types
inside it, at the place of that type.
-/

import DecoderForge.Proofs.Compile.Reports
import DecoderForge.Proofs.Compile.Walk

namespace DecoderForge

namespace Node

/-- What may be reported of a type where it stands. -/
inductive Reports (node : Node) : DiagnosticKind → Prop
  | skip {reason : SkipReason} {kind : DiagnosticKind} (lost : node.type.lost? = some reason)
      (swallowed : node.step.skip? reason = some kind) : Reports node kind
  | emptyUnion {members : List Descriptor} (type : node.type = .union members)
      (some : members ≠ []) (lost : ∀ member ∈ members, member.lost?.isSome = true) :
      Reports node .emptyUnion
  | duplicateTag {tagField tag : String} {index : Nat} (step : node.step = .unionMember index)
      (isTagged : node.type.tag? tagField = some tag) : Reports node (.duplicateTag tag)
  | unresolved {name : String} (type : node.type = .reference name) :
      Reports node (.unresolvedReference name)
  | forward {name : String} (type : node.type = .reference name) :
      Reports node (.forwardReference name)
  | uninitialized {name : String} (type : node.type = .reference name) :
      Reports node (.uninitializedReference name)
  | duplicateDeclaration {name : String} (step : node.step = .declaration name) :
      Reports node (.duplicateDeclaration name)

theorem mem_walk_self (tagField : Option String) (node : Node) : node ∈ node.walk tagField := by
  rw [walk_eq]
  exact List.mem_cons_self

theorem walk_subset_of_mem_inner {tagField : Option String} {node part : Node}
    (inside : part ∈ node.inner tagField) : part.walk tagField ⊆ node.walk tagField := by
  rw [walk_eq tagField node]
  exact fun met found => List.mem_cons_of_mem _ (List.mem_flatMap.mpr ⟨part, inside, found⟩)

theorem mem_walk_of_mem_inner {tagField : Option String} {node part : Node}
    (inside : part ∈ node.inner tagField) : part ∈ node.walk tagField :=
  walk_subset_of_mem_inner inside (part.mem_walk_self tagField)

end Node

namespace Trace

/-- Each report is on one of the types, and each reference that is put down is one of them. -/
structure On (nodes : List Node) (trace : Trace) : Prop where
  reports : ∀ report ∈ trace.diagnostics,
    ∃ node ∈ nodes, report.path = node.path.text ∧ node.Reports report.kind
  references : ∀ site ∈ trace.references,
    ∃ node ∈ nodes, site.path = node.path.text ∧ node.type = .reference site.name

variable {nodes : List Node}

theorem on_empty : Trace.empty.On nodes := ⟨nofun, nofun⟩

theorem on_ofBuiltin (builtin : Builtin) : (ofBuiltin builtin).On nodes := ⟨nofun, nofun⟩

theorem on_report {node : Node} (inside : node ∈ nodes) {kind : DiagnosticKind}
    (reports : node.Reports kind) : (report node.path kind).On nodes := by
  refine ⟨?_, nofun⟩
  intro report reported
  obtain rfl := List.mem_singleton.mp reported
  exact ⟨node, inside, rfl, reports⟩

theorem on_ofReference {node : Node} (inside : node ∈ nodes) {name : String} {position : Nat}
    (type : node.type = .reference name) :
    (ofReference ⟨name, node.path.text, position⟩).On nodes := by
  refine ⟨nofun, ?_⟩
  intro site put
  obtain rfl := List.mem_singleton.mp put
  exact ⟨node, inside, rfl, type⟩

theorem On.append {first second : Trace} (before : first.On nodes) (after : second.On nodes) :
    (first ++ second).On nodes where
  reports report reported :=
    (List.mem_append.mp reported).elim (before.reports report) (after.reports report)
  references site put :=
    (List.mem_append.mp put).elim (before.references site) (after.references site)

/-- A call has nothing to report. -/
theorem On.andCall {steps : Trace} {builtin : Builtin} (on : steps.On nodes) :
    (steps ++ ofBuiltin builtin).On nodes :=
  on.append (on_ofBuiltin builtin)

theorem On.mono {trace : Trace} {more : List Node} (on : trace.On nodes) (among : nodes ⊆ more) :
    trace.On more where
  reports report reported :=
    let ⟨node, inside, rest⟩ := on.reports report reported
    ⟨node, among inside, rest⟩
  references site put :=
    let ⟨node, inside, rest⟩ := on.references site put
    ⟨node, among inside, rest⟩

theorem on_join {traces : List Trace} (each : ∀ trace ∈ traces, trace.On nodes) :
    (join traces).On nodes := by
  induction traces with
  | nil => exact on_empty
  | cons trace rest ih =>
    obtain ⟨head, tail⟩ := List.forall_mem_cons.mp each
    exact head.append (ih tail)

/-- Steps that are taken for elements report what each of them reports. -/
theorem on_join_mapIdx {α β : Type} {step : Nat → α → β × Trace} {elements : List α}
    (each : ∀ index element, elements[index]? = some element → (step index element).2.On nodes) :
    (join ((elements.mapIdx step).map Prod.snd)).On nodes := by
  apply on_join
  intro trace inside
  obtain ⟨made, taken, rfl⟩ := List.mem_map.mp inside
  obtain ⟨index, bound, rfl⟩ := List.mem_mapIdx.mp taken
  exact each index _ (List.getElem?_eq_getElem bound)

end Trace

namespace Compile

variable {scope : Scope} {path : NodePath} {nodes : List Node}

theorem slot_on {index : Nat} {element : Descriptor}
    (on : (Node.left scope ⟨path, .tupleSlot index, element⟩).On nodes) :
    (slot path index (type scope (path.push (.tupleSlot index)) element)).2.On nodes := by
  rcases compiled : type scope (path.push (.tupleSlot index)) element with
    reason | ⟨decoder, trace⟩
  · rw [Node.left_of_error ⟨path, .tupleSlot index, element⟩ compiled rfl] at on
    exact on.andCall
  · rwa [Node.left_of_ok ⟨path, .tupleSlot index, element⟩ compiled] at on

theorem member_on {index : Nat} {element : Descriptor}
    (on : (Node.left scope ⟨path, .unionMember index, element⟩).On nodes) :
    (member path index (type scope (path.push (.unionMember index)) element)).2.On nodes := by
  rcases compiled : type scope (path.push (.unionMember index)) element with
    reason | ⟨decoder, trace⟩
  · rwa [Node.left_of_error ⟨path, .unionMember index, element⟩ compiled rfl] at on
  · rwa [Node.left_of_ok ⟨path, .unionMember index, element⟩ compiled] at on

theorem field_on {part : Field}
    (on : (Node.left scope ⟨path, .field part.name, part.type⟩).On nodes) :
    (field path ⟨part.name, type scope (path.push (.field part.name)) part.type,
      part.optional⟩).2.On nodes := by
  rcases compiled : type scope (path.push (.field part.name)) part.type with
    reason | ⟨decoder, trace⟩
  · rwa [Node.left_of_error ⟨path, .field part.name, part.type⟩ compiled rfl] at on
  · rw [Node.left_of_ok ⟨path, .field part.name, part.type⟩ compiled] at on
    cases optional : part.optional with
    | false => exact on
    | true => exact on.andCall

/-- Only types that are lost have no decoders. -/
theorem lost_of_no_decoders {segment : Nat → Segment} {members : List Descriptor}
    (none : (types scope path segment 0 members).filterMap Compiled.decoder? = []) :
    ∀ member ∈ members, member.lost?.isSome = true := by
  intro member inside
  obtain ⟨index, found⟩ := List.getElem?_of_mem inside
  have place := List.mem_of_getElem? (getElem?_types scope path segment found)
  have nothing := List.filterMap_eq_nil_iff.mp none _ place
  rcases compiled : type scope (path.push (segment index)) member with reason | ⟨decoder, trace⟩
  · rw [(type_eq_error_iff _ _ _ _).mp compiled]
    rfl
  · rw [compiled] at nothing
    contradiction

theorem referenceTrace_on {node : Node} (inside : node ∈ nodes) {name : String}
    (type : node.type = .reference name) : (referenceTrace scope node.path name).On nodes := by
  unfold referenceTrace
  split
  · exact Trace.on_empty
  · split
    · exact Trace.on_report inside (.unresolved type)
    · exact Trace.on_empty
    · exact Trace.on_ofReference inside type

variable (scope) {node : Node}

theorem either_on {members : List Descriptor} (type : node.type = .union members)
    (parts : ∀ index member, members[index]? = some member →
      (Node.left scope ⟨node.path, .unionMember index, member⟩).On (node.walk none)) :
    (either node.path (types scope node.path .unionMember 0 members)).2.On (node.walk none) := by
  have joined : (Trace.join (((types scope node.path .unionMember 0 members).mapIdx
      (member node.path)).map Prod.snd)).On (node.walk none) := by
    rw [types_eq_mapIdx, List.mapIdx_mapIdx]
    apply Trace.on_join_mapIdx
    intro index member found
    rw [Function.comp_apply, Nat.zero_add]
    exact member_on (parts index member found)
  simp only [either, members_fst]
  split
  · next empty =>
    obtain ⟨none, some⟩ := (Bool.and_eq_true _ _).mp empty
    have lost := lost_of_no_decoders (List.isEmpty_iff.mp none)
    have members' : members ≠ [] := by
      rintro rfl
      contradiction
    exact (joined.append (Trace.on_report (node.mem_walk_self _)
      (.emptyUnion type members' lost))).andCall
  · exact joined.andCall

section

variable {members : List Descriptor} {tagField : String} {tags : List String}
  (tagged : members.map (Descriptor.tag? tagField) = tags.map some)
  (parts : ∀ index member, members[index]? = some member →
    (⟨node.path, .unionMember index, member⟩ : Node) ∈ nodes)

include tagged parts

theorem duplicateTags_on : (Trace.join (duplicateTags node.path tags)).On nodes := by
  apply Trace.on_join
  intro trace inside
  obtain ⟨⟨tag, index⟩, place, made⟩ := List.mem_filterMap.mp inside
  obtain ⟨_, reported⟩ := Option.ite_none_right_eq_some.mp made
  obtain rfl := Option.some_inj.mp reported
  have found : (tags.map some)[index]? = some (some tag) := by
    rw [List.getElem?_map, List.mem_zipIdx_iff_getElem?.mp place, Option.map_some]
  rw [← tagged, List.getElem?_map] at found
  obtain ⟨member, present, isTagged⟩ := Option.map_eq_some_iff.mp found
  exact Trace.on_report (parts index member present) (.duplicateTag rfl isTagged)

theorem taggedUnion_on
    (each : ∀ index member, members[index]? = some member →
      (Node.left scope ⟨node.path, .unionMember index, member⟩).On nodes) :
    (taggedUnion node.path tagField tags
      (types scope node.path .unionMember 0 members)).2.On nodes := by
  apply Trace.On.andCall
  apply (duplicateTags_on tagged parts).append
  apply Trace.on_join
  intro trace inside
  obtain ⟨made, taken, rfl⟩ := List.mem_map.mp inside
  obtain ⟨⟨tag, index⟩, _, chosen⟩ := List.mem_filterMap.mp taken
  dsimp only at chosen
  cases found : members[index]? with
  | none =>
    rw [types_eq_mapIdx, List.getElem?_mapIdx, found] at chosen
    contradiction
  | some member =>
    have on := each index member found
    rw [getElem?_types scope node.path .unionMember found] at chosen
    rcases compiled : type scope (node.path.push (.unionMember index)) member with
      reason | ⟨decoder, left⟩
    · rw [compiled] at chosen
      contradiction
    · rw [compiled] at chosen
      rw [Node.left_of_ok ⟨node.path, .unionMember index, member⟩ compiled] at on
      obtain rfl := Option.some_inj.mp chosen
      exact on

end

section

variable (each : ∀ part ∈ node.inner none, (part.left scope).On (node.walk none))

include each

theorem union_on {members : List Descriptor} (descriptor : node.type = .union members) :
    (union scope node.path members
      (types scope node.path .unionMember 0 members)).2.On (node.walk none) := by
  have parts (index : Nat) (member : Descriptor) (found : members[index]? = some member) :
      (⟨node.path, .unionMember index, member⟩ : Node) ∈ node.inner none := by
    rw [Node.inner, descriptor]
    exact mapIdx_mem_of_getElem? _ found
  simp only [union]
  cases shape : UnionShape.classify members scope.tagField with
  | tagged field tags =>
    have tagged := ((UnionShape.classify_eq_tagged_iff _ _ _ _).mp shape).2
    exact taggedUnion_on scope tagged
      (fun index member found => Node.mem_walk_of_mem_inner (parts index member found))
      fun index member found => each _ (parts index member found)
  | plain =>
    exact either_on scope descriptor fun index member found => each _ (parts index member found)

theorem element_on {element : Descriptor} (descriptor : node.type = .array element)
    {decoder : DecoderExpr} {left : Trace}
    (inside : type scope (node.path.push .arrayElement) element = .ok (decoder, left)) :
    left.On (node.walk none) := by
  have on := each ⟨node.path, .arrayElement, element⟩ (by simp [Node.inner, descriptor])
  rwa [Node.left_of_ok ⟨node.path, .arrayElement, element⟩ inside] at on

theorem tuple_on {elements : List Descriptor} (descriptor : node.type = .tuple elements) :
    (tuple node.path (types scope node.path .tupleSlot 0 elements)).2.On (node.walk none) := by
  apply Trace.On.andCall
  rw [types_eq_mapIdx, List.mapIdx_mapIdx]
  apply Trace.on_join_mapIdx
  intro index element found
  rw [Function.comp_apply, Nat.zero_add]
  refine slot_on (each _ ?_)
  rw [Node.inner, descriptor]
  exact mapIdx_mem_of_getElem? _ found

theorem record_on {fields : List Field} (descriptor : node.type = .record fields) :
    (record node.path (fieldTypes scope node.path fields)).2.On (node.walk none) := by
  apply Trace.On.andCall
  apply Trace.on_join
  rw [fieldTypes_eq_map, List.map_map, List.map_map]
  intro trace inside
  obtain ⟨part, found, rfl⟩ := List.mem_map.mp inside
  refine field_on (each _ ?_)
  rw [Node.inner, descriptor]
  exact List.mem_map_of_mem found

/-- What a type with a decoder leaves behind is on the types inside it, if what the types directly
inside leave behind is. -/
theorem type_on {decoder : DecoderExpr} {trace : Trace}
    (compiled : type scope node.path node.type = .ok (decoder, trace)) :
    trace.On (node.walk none) := by
  have made {result : DecoderExpr × Trace} (same : (.ok result : Compiled) = .ok (decoder, trace))
      (on : result.2.On (node.walk none)) : trace.On (node.walk none) := by
    obtain rfl := Except.ok.inj same
    exact on
  cases descriptor : node.type with
  | primitive kind => exact made (descriptor ▸ compiled) Trace.on_empty.andCall
  | opaqueObject => exact made (descriptor ▸ compiled) Trace.on_empty.andCall
  | union members =>
    rw [descriptor, type] at compiled
    exact made compiled (union_on scope each descriptor)
  | array element =>
    rw [descriptor, type] at compiled
    rcases inside : type scope (node.path.push .arrayElement) element with
      reason | ⟨inner, left⟩
    · rw [inside] at compiled
      contradiction
    · rw [inside] at compiled
      exact made compiled (element_on scope each descriptor inside).andCall
  | tuple elements =>
    rw [descriptor, type] at compiled
    exact made compiled (tuple_on scope each descriptor)
  | record fields =>
    rw [descriptor, type] at compiled
    exact made compiled (record_on scope each descriptor)
  | literal value =>
    rw [descriptor] at compiled
    cases value with
    | string s => exact made compiled Trace.on_empty.andCall
    | number n => exact made compiled Trace.on_empty.andCall
    | _ => contradiction
  | reference name =>
    rw [descriptor, type_reference] at compiled
    exact made compiled (referenceTrace_on (node.mem_walk_self none) descriptor)
  | unsupported construct =>
    rw [descriptor] at compiled
    contradiction
  | unrecognized =>
    rw [descriptor] at compiled
    contradiction

end

end Compile

/-- Everything that a type leaves behind is on the types inside it. -/
theorem Node.left_on (scope : Scope) (node : Node) : (node.left scope).On (node.walk none) := by
  induction node using induction_inner none with
  | step node ih =>
    rcases compiled : Compile.type scope node.path node.type with reason | ⟨decoder, trace⟩
    · rw [left, compiled]
      refine ⟨?_, List.forall_mem_nil _⟩
      intro report reported
      obtain ⟨reason, lost, swallowed⟩ := Option.bind_eq_some_iff.mp (Option.mem_toList.mp reported)
      obtain ⟨kind, known, rfl⟩ := Option.map_eq_some_iff.mp swallowed
      exact ⟨node, node.mem_walk_self none, rfl, .skip lost known⟩
    · rw [left_of_ok node compiled]
      exact Compile.type_on scope (fun part inside =>
        (ih part inside).mono (walk_subset_of_mem_inner inside)) compiled

end DecoderForge
