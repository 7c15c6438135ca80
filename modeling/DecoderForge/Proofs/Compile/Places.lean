/-
This file proves that everything that is reported of a type stands at the place of the type or
further inside.
-/

import DecoderForge.Proofs.Compile.InPlace

namespace DecoderForge

/-- All reports stand at a place or further inside. -/
def Trace.Within (path : NodePath) (trace : Trace) : Prop :=
  ∀ report ∈ trace.diagnostics, ∃ rest, report.path = path.text ++ rest

namespace Trace

variable {path : NodePath}

theorem within_empty : Trace.empty.Within path := nofun

theorem within_ofBuiltin (builtin : Builtin) : (ofBuiltin builtin).Within path := nofun

theorem within_ofReference (site : ReferenceSite) : (ofReference site).Within path := nofun

theorem within_report (kind : DiagnosticKind) : (report path kind).Within path := by
  intro report reported
  obtain rfl := List.mem_singleton.mp reported
  exact ⟨"", String.append_empty.symm⟩

theorem Within.append {first second : Trace} (before : first.Within path)
    (after : second.Within path) : (first ++ second).Within path := by
  intro report reported
  rcases List.mem_append.mp reported with inside | inside
  · exact before report inside
  · exact after report inside

/-- A call has nothing to report. -/
theorem Within.andCall {steps : Trace} {builtin : Builtin} (within : steps.Within path) :
    (steps ++ ofBuiltin builtin).Within path :=
  within.append (within_ofBuiltin builtin)

theorem within_join {traces : List Trace} (each : ∀ trace ∈ traces, trace.Within path) :
    (join traces).Within path := by
  intro report reported
  rw [join_diagnostics] at reported
  obtain ⟨trace, inside, member⟩ := List.mem_flatMap.mp reported
  exact each trace inside report member

/-- What stands further inside a part stands inside the whole. -/
theorem Within.around {trace : Trace} {segment : Segment}
    (within : trace.Within (path.push segment)) : trace.Within path := by
  intro report reported
  obtain ⟨rest, same⟩ := within report reported
  exact ⟨segment.text ++ rest, by rw [same, NodePath.text_push, String.append_assoc]⟩

/-- Nothing inside a part is reported at the place of the whole. -/
theorem Within.path_ne {trace : Trace} {segment : Segment}
    (within : trace.Within (path.push segment)) (visible : segment.text ≠ "") :
    ∀ report ∈ trace.diagnostics, report.path ≠ path.text := by
  intro report reported same
  obtain ⟨rest, longer⟩ := within report reported
  have lengths := congrArg String.length (same.symm.trans longer)
  rw [NodePath.text_push, String.length_append, String.length_append] at lengths
  have some : segment.text.length ≠ 0 := by simpa using visible
  omega

end Trace

namespace Compile

variable {scope : Scope} {path : NodePath}

theorem slot_within {index : Nat} {compiled : Compiled}
    (within : compiled.left.Within (path.push (.tupleSlot index))) :
    (slot path index compiled).2.Within (path.push (.tupleSlot index)) := by
  rcases compiled with reason | ⟨decoder, trace⟩
  · exact (Trace.within_report _).andCall
  · exact within

theorem member_within {index : Nat} {compiled : Compiled}
    (within : compiled.left.Within (path.push (.unionMember index))) :
    (member path index compiled).2.Within (path.push (.unionMember index)) := by
  rcases compiled with reason | ⟨decoder, trace⟩
  · exact Trace.within_report _
  · exact within

theorem field_within {compiled : FieldOf Compiled}
    (within : compiled.type.left.Within (path.push (.field compiled.name))) :
    (field path compiled).2.Within (path.push (.field compiled.name)) := by
  obtain ⟨name, type, optional⟩ := compiled
  rcases type with reason | ⟨decoder, trace⟩
  · exact Trace.within_report _
  · cases optional with
    | false => exact within
    | true => exact within.andCall

/-- Steps that are taken for elements report what each of them reports. -/
theorem join_mapIdx_within {α β : Type} {step : Nat → α → β × Trace} {elements : List α}
    (each : ∀ index, ∀ element ∈ elements, (step index element).2.Within path) :
    (Trace.join ((elements.mapIdx step).map Prod.snd)).Within path := by
  apply Trace.within_join
  intro trace inside
  obtain ⟨made, taken, rfl⟩ := List.mem_map.mp inside
  obtain ⟨index, bound, rfl⟩ := List.mem_mapIdx.mp taken
  exact each index _ (List.getElem_mem bound)

theorem duplicateTags_within (tags : List String) :
    (Trace.join (duplicateTags path tags)).Within path := by
  apply Trace.within_join
  intro trace inside
  obtain ⟨⟨tag, index⟩, _, made⟩ := List.mem_filterMap.mp inside
  obtain ⟨_, reported⟩ := Option.ite_none_right_eq_some.mp made
  obtain rfl := Option.some_inj.mp reported
  exact (Trace.within_report _).around

section

variable (scope) (path)

theorem union_within {members : List Descriptor}
    (each : ∀ member ∈ members, ∀ place, (type scope place member).left.Within place) :
    (union scope path members (types scope path .unionMember 0 members)).2.Within path := by
  unfold union
  cases UnionShape.classify members scope.tagField with
  | tagged field tags =>
    apply Trace.Within.andCall
    apply (duplicateTags_within tags).append
    apply Trace.within_join
    intro trace inside
    obtain ⟨made, taken, rfl⟩ := List.mem_map.mp inside
    obtain ⟨⟨tag, index⟩, _, chosen⟩ := List.mem_filterMap.mp taken
    dsimp only at chosen
    rw [types_eq_mapIdx, List.getElem?_mapIdx] at chosen
    cases found : members[index]? with
    | none => simp [found] at chosen
    | some member =>
      rw [found, Option.map_some, Nat.zero_add] at chosen
      have within := each member (List.mem_of_getElem? found) (path.push (.unionMember index))
      rcases compiled : type scope (path.push (.unionMember index)) member with
        reason | ⟨decoder, left⟩
      · simp [compiled] at chosen
      · rw [compiled] at chosen within
        obtain rfl := Option.some_inj.mp chosen
        exact within.around
  | plain =>
    have joined : (Trace.join (((types scope path .unionMember 0 members).mapIdx
        (Compile.member path)).map Prod.snd)).Within path := by
      rw [types_eq_mapIdx, List.mapIdx_mapIdx]
      apply join_mapIdx_within
      intro index member inside
      rw [Function.comp_apply, Nat.zero_add]
      exact (member_within (each member inside _)).around
    simp only [either]
    split
    · exact (joined.append (Trace.within_report .emptyUnion)).andCall
    · exact joined.andCall

theorem referenceTrace_within (name : String) : (referenceTrace scope path name).Within path := by
  unfold referenceTrace
  split
  · exact Trace.within_empty
  · split
    · exact Trace.within_report _
    · exact Trace.within_empty
    · exact Trace.within_ofReference _

/-- Whatever is reported of a type stands at its place or further inside. -/
theorem type_within (descriptor : Descriptor) :
    (type scope path descriptor).left.Within path := by
  induction descriptor using Descriptor.induction_parts generalizing path with
  | step descriptor ih =>
    cases descriptor with
    | union members => exact union_within scope path ih
    | array element =>
      have within := ih element List.mem_cons_self (path.push .arrayElement)
      rw [type]
      rcases compiled : type scope (path.push .arrayElement) element with
        reason | ⟨decoder, trace⟩
      · exact Trace.within_empty
      · rw [compiled] at within
        exact within.around.andCall
    | tuple elements =>
      apply Trace.Within.andCall
      rw [types_eq_mapIdx, List.mapIdx_mapIdx]
      apply join_mapIdx_within
      intro index element inside
      rw [Function.comp_apply, Nat.zero_add]
      exact (slot_within (ih element inside _)).around
    | record fields =>
      apply Trace.Within.andCall
      apply Trace.within_join
      rw [fieldTypes_eq_map, List.map_map, List.map_map]
      intro trace inside
      obtain ⟨part, found, rfl⟩ := List.mem_map.mp inside
      exact (field_within (ih part.type (List.mem_map_of_mem found) _)).around
    | primitive kind => exact Trace.within_empty.andCall
    | opaqueObject => exact Trace.within_empty.andCall
    | literal value => cases value <;> exact List.forall_mem_nil _
    | reference name =>
      rw [type_reference]
      exact referenceTrace_within scope path name
    | unsupported construct => exact Trace.within_empty
    | unrecognized => exact Trace.within_empty

end

end Compile

end DecoderForge
