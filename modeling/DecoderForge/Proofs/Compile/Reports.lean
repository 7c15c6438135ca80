/-
This file proves that a walk reports what it meets at every part of a type, and what a walk without
reports says of the type.
-/

import DecoderForge.Proofs.Compile.Decoder
import DecoderForge.Proofs.Compile.Trace
import DecoderForge.Proofs.Compile.Union

namespace DecoderForge

/-- The reports hold those of a type that has a decoder, or that it has none. -/
def Compiled.ReportedIn (reports : List Diagnostic) : Compiled → Prop
  | .ok (_, trace) => trace.diagnostics ⊆ reports
  | .error _ => ∃ report ∈ reports, report.isSkip = true

theorem Compiled.ReportedIn.mono {few many : List Diagnostic} (fewer : few ⊆ many)
    {compiled : Compiled} (reported : compiled.ReportedIn few) : compiled.ReportedIn many := by
  rcases compiled with reason | ⟨decoder, trace⟩
  · obtain ⟨report, inside, skip⟩ := reported
    exact ⟨report, fewer inside, skip⟩
  · exact List.Subset.trans reported fewer

namespace Compile

theorem slot_reports (path : NodePath) (index : Nat) (compiled : Compiled) :
    compiled.ReportedIn (slot path index compiled).2.diagnostics := by
  rcases compiled with reason | ⟨decoder, trace⟩
  · exact ⟨_, List.mem_cons_self, rfl⟩
  · exact List.Subset.refl _

theorem member_reports (path : NodePath) (index : Nat) (compiled : Compiled) :
    compiled.ReportedIn (member path index compiled).2.diagnostics := by
  rcases compiled with reason | ⟨decoder, trace⟩
  · exact ⟨_, List.mem_cons_self, rfl⟩
  · exact List.Subset.refl _

theorem field_reports (path : NodePath) (compiled : FieldOf Compiled) :
    compiled.type.ReportedIn (field path compiled).2.diagnostics := by
  obtain ⟨name, type, optional⟩ := compiled
  rcases type with reason | ⟨decoder, trace⟩
  · exact ⟨_, List.mem_cons_self, rfl⟩
  · cases optional
    · exact List.Subset.refl _
    · exact List.subset_append_left _ _

/-- The reports of steps hold those of each step. -/
theorem diagnostics_subset_join {trace : Trace} {traces : List Trace} (inside : trace ∈ traces) :
    trace.diagnostics ⊆ (Trace.join traces).diagnostics := by
  rw [Trace.join_diagnostics]
  intro report reported
  exact List.mem_flatMap.mpr ⟨trace, inside, reported⟩

theorem mapIdx_mem_of_getElem? {α β : Type} (f : Nat → α → β) {elements : List α} {index : Nat}
    {element : α} (found : elements[index]? = some element) :
    f index element ∈ elements.mapIdx f := by
  apply List.mem_of_getElem? (i := index)
  rw [List.getElem?_mapIdx, found, Option.map_some]

theorem tuple_reports (path : NodePath) {slots : List Compiled} {index : Nat} {compiled : Compiled}
    (found : slots[index]? = some compiled) :
    compiled.ReportedIn (tuple path slots).2.diagnostics := by
  have inside := List.mem_map_of_mem (f := Prod.snd) (mapIdx_mem_of_getElem? (slot path) found)
  exact (slot_reports path index compiled).mono
    (List.Subset.trans (diagnostics_subset_join inside) (List.subset_append_left _ _))

theorem record_reports (path : NodePath) {fields : List (FieldOf Compiled)}
    {compiled : FieldOf Compiled} (inside : compiled ∈ fields) :
    compiled.type.ReportedIn (record path fields).2.diagnostics := by
  have inside := List.mem_map_of_mem (f := Prod.snd) (List.mem_map_of_mem (f := field path) inside)
  exact (field_reports path compiled).mono
    (List.Subset.trans (diagnostics_subset_join inside) (List.subset_append_left _ _))

theorem either_reports (path : NodePath) {members : List Compiled} {index : Nat}
    {compiled : Compiled} (found : members[index]? = some compiled) :
    compiled.ReportedIn (either path members).2.diagnostics := by
  have inside := List.mem_map_of_mem (f := Prod.snd) (mapIdx_mem_of_getElem? (member path) found)
  refine (member_reports path index compiled).mono
    (List.Subset.trans (diagnostics_subset_join inside) ?_)
  simp only [either]
  split
  · exact List.Subset.trans (List.subset_append_left _ _) (List.subset_append_left _ _)
  · exact List.subset_append_left _ _

theorem taggedUnion_reports (path : NodePath) (tagField : String) {tags : List String}
    {members : List Compiled} {winner : String × Nat} (chosen : winner ∈ winners tags)
    {decoder : DecoderExpr} {trace : Trace}
    (found : members[winner.2]? = some (.ok (decoder, trace))) :
    trace.diagnostics ⊆ (taggedUnion path tagField tags members).2.diagnostics := by
  refine List.Subset.trans (diagnostics_subset_join ?_)
    (List.Subset.trans (List.subset_append_right _ _) (List.subset_append_left _ _))
  refine List.mem_map.mpr ⟨((winner.1, decoder), trace), List.mem_filterMap.mpr ?_, rfl⟩
  exact ⟨winner, chosen, by simp only [found]⟩

/-- A walk without reports of repeated tags has met distinct tags. -/
theorem nodup_of_taggedUnion_reports (path : NodePath) (tagField : String) (tags : List String)
    (members : List Compiled)
    (clean : ∀ report ∈ (taggedUnion path tagField tags members).2.diagnostics,
      ∀ tag, report.kind ≠ .duplicateTag tag) : tags.Nodup := by
  rw [List.Nodup, List.pairwise_iff_getElem]
  intro i j _ inside before same
  have earlier : tags[j] ∈ tags.take j :=
    List.mem_take_iff_getElem.mpr ⟨i, by omega, same⟩
  have reported : Trace.report (path.push (.unionMember j)) (.duplicateTag tags[j]) ∈
      duplicateTags path tags := by
    refine List.mem_filterMap.mpr ⟨(tags[j], j), ?_, if_pos earlier⟩
    exact List.mk_mem_zipIdx_iff_getElem?.mpr (List.getElem?_eq_getElem inside)
  refine clean ⟨(path.push (.unionMember j)).text, .duplicateTag tags[j]⟩ ?_ tags[j] rfl
  exact List.mem_append_left _ (List.mem_append_left _
    (diagnostics_subset_join reported List.mem_cons_self))

section

variable (scope : Scope) (path : NodePath)

/-- What is met at a member that has a say is reported of the union. -/
theorem union_reports (members : List Descriptor) (part : Descriptor)
    (visited : part ∈ Descriptor.visitedMembers scope.tagField members) :
    ∃ place, (type scope place part).ReportedIn
      (union scope path members (types scope path .unionMember 0 members)).2.diagnostics := by
  unfold Descriptor.visitedMembers at visited
  unfold union
  cases shape : UnionShape.classify members scope.tagField with
  | tagged field tags =>
    simp only [shape] at visited
    obtain ⟨winner, chosen, found⟩ := List.mem_filterMap.mp visited
    have tagged := ((UnionShape.classify_eq_tagged_iff _ _ _ _).mp shape).2
    obtain ⟨tag, _, isTagged⟩ := UnionShape.tag_of_mem tagged found
    obtain ⟨fields, _, rfl, _, _⟩ := (Descriptor.tag?_eq_some_iff field tag part).mp isTagged
    refine ⟨path.push (.unionMember winner.2), ?_⟩
    exact taggedUnion_reports path field chosen (getElem?_types scope path .unionMember found)
  | plain =>
    simp only [shape] at visited
    obtain ⟨index, found⟩ := List.getElem?_of_mem visited
    exact ⟨_, either_reports path (getElem?_types scope path .unionMember found)⟩

/-- What is met at a part that has a say is reported of the whole. -/
theorem type_reports {descriptor : Descriptor} {decoder : DecoderExpr} {trace : Trace}
    (compiled : type scope path descriptor = .ok (decoder, trace)) (part : Descriptor)
    (visited : part ∈ descriptor.visited scope.tagField) :
    ∃ place, (type scope place part).ReportedIn trace.diagnostics := by
  cases descriptor with
  | union members =>
    rw [type, Except.ok.injEq] at compiled
    obtain rfl : _ = trace := congrArg Prod.snd compiled
    exact union_reports scope path members part visited
  | array element =>
    obtain rfl := List.mem_singleton.mp visited
    refine ⟨path.push .arrayElement, ?_⟩
    rw [type] at compiled
    rcases inner : type scope (path.push .arrayElement) part with reason | ⟨found, reports⟩
    · simp [inner, Except.map] at compiled
    · rw [inner] at compiled
      obtain rfl : _ = trace := congrArg Prod.snd (Except.ok.inj compiled)
      exact List.subset_append_left _ _
  | tuple elements =>
    rw [type, Except.ok.injEq] at compiled
    obtain rfl : _ = trace := congrArg Prod.snd compiled
    obtain ⟨index, found⟩ := List.getElem?_of_mem visited
    exact ⟨_, tuple_reports path (getElem?_types scope path .tupleSlot found)⟩
  | record fields =>
    rw [type, Except.ok.injEq, fieldTypes_eq_map] at compiled
    obtain rfl : _ = trace := congrArg Prod.snd compiled
    obtain ⟨field, inside, rfl⟩ := List.mem_map.mp visited
    exact ⟨_, record_reports path (List.mem_map_of_mem inside)⟩
  | _ => exact absurd visited List.not_mem_nil

/-- What clean reports show of one type they show of every type inside, as long as all parts have a
say in the decoder. A type that has no decoder is covered by itself. -/
theorem everywhere_of_reports {condition : Descriptor → Prop} {clean : Diagnostic → Prop}
    (walk : ∀ (place : NodePath) (part : Descriptor) (decoder : DecoderExpr) (trace : Trace),
      type scope place part = .ok (decoder, trace) → (∀ report ∈ trace.diagnostics, clean report) →
        condition part ∧ part.parts ⊆ part.visited scope.tagField)
    (lost : ∀ (part : Descriptor) (reason : SkipReason) (report : Diagnostic),
      part.lost? = some reason → report.isSkip = true → clean report → part.Everywhere condition)
    (descriptor : Descriptor) {decoder : DecoderExpr} {trace : Trace}
    (compiled : type scope path descriptor = .ok (decoder, trace))
    (reports : ∀ report ∈ trace.diagnostics, clean report) : descriptor.Everywhere condition := by
  induction descriptor using Descriptor.induction_parts generalizing path decoder trace with
  | step descriptor ih =>
    obtain ⟨here, parts⟩ := walk path descriptor decoder trace compiled reports
    refine .intro descriptor here fun part inside => ?_
    -- The reports of a part are among those of the whole, also the one that says that it is lost.
    obtain ⟨place, reported⟩ := type_reports scope path compiled part (parts inside)
    rcases inner : type scope place part with reason | ⟨found, left⟩
    · rw [inner] at reported
      obtain ⟨report, member, skip⟩ := reported
      exact lost part reason report ((type_eq_error_iff scope place part reason).mp inner) skip
        (reports report member)
    · rw [inner] at reported
      exact ih part inside place inner fun report member => reports report (reported member)

end

end Compile

/-- What a run reports while it compiles a type is what the walk over the type reports. -/
theorem Compiler.exists_walk {compiler : Compiler} {descriptor : Descriptor} {decoder : DecoderExpr}
    (compiled : (compiler.compile descriptor).2 = .ok decoder) {reports : List Diagnostic}
    (appended : (compiler.compile descriptor).1.trace.diagnostics =
      compiler.trace.diagnostics ++ reports) :
    ∃ trace, Compile.type compiler.scope compiler.path descriptor = .ok (decoder, trace) ∧
      trace.diagnostics = reports := by
  rcases walk : Compile.type compiler.scope compiler.path descriptor with reason | ⟨found, trace⟩
  · simp [compile, walk] at compiled
  · simp only [compile, walk, Except.ok.injEq] at compiled
    simp only [compile, walk, Trace.append_diagnostics] at appended
    exact ⟨trace, by rw [compiled], List.append_cancel_left appended⟩

end DecoderForge
