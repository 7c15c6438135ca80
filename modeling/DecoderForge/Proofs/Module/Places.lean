/-
This file proves that the reports of a module tell the places that they are on: each is on one type
in a declaration, and the texts of no two places in a declaration are the same.
-/

import DecoderForge.Proofs.Compile.Reported
import DecoderForge.Proofs.Descriptor.Places
import DecoderForge.Proofs.Module.Run
import DecoderForge.Proofs.Symbols

namespace DecoderForge

theorem NodePath.text_declaration (name : String) :
    (root.push (.declaration name)).text = name := by
  rw [text_push]
  exact String.empty_append

namespace Compiler

/-- A run leaves nothing behind that is not on a type in one of its declarations. -/
theorem compileDeclarations_on {nodes : List Node} (compiler : Compiler)
    (declarations : List Declaration) (before : compiler.trace.On nodes)
    (among : ∀ declaration ∈ declarations, (Node.ofDeclaration declaration).walk none ⊆ nodes) :
    (compiler.compileDeclarations declarations).1.trace.On nodes := by
  induction declarations generalizing compiler with
  | nil => exact before
  | cons declaration rest ih =>
    obtain ⟨here, later⟩ := List.forall_mem_cons.mp among
    simp only [compileDeclarations]
    refine ih _ ?_ later
    rw [compileDeclaration_fst]
    exact before.append (((Node.ofDeclaration declaration).left_on _).mono here)

end Compiler

namespace Generate

variable (config : CompileConfig) (source : SourceModule)

theorem run_on : (run config source).1.trace.On (source.walk none) := by
  apply Compiler.compileDeclarations_on
  · exact Trace.on_empty
  · intro declaration inside met found
    exact List.mem_flatMap.mpr ⟨declaration, inside, found⟩

/-- A name that is declared again is reported of a declaration that has it. -/
theorem duplicateReports_on {report : Diagnostic}
    (reported : report ∈ (SymbolTable.ofDeclarations source.declarations).duplicateReports) :
    ∃ node ∈ source.walk none, report.path = node.path.text ∧ node.Reports report.kind := by
  obtain ⟨name, again, rfl⟩ := List.mem_map.mp reported
  have twice := (SymbolTable.mem_duplicates_ofNames _ name).mp again
  have declared : name ∈ source.declarations.map Declaration.name :=
    List.one_le_count_iff.mp (by omega)
  obtain ⟨declaration, inside, rfl⟩ := List.mem_map.mp declared
  exact ⟨.ofDeclaration declaration, List.mem_flatMap.mpr ⟨declaration, inside,
    Node.mem_walk_self none _⟩, (NodePath.text_declaration _).symm, .duplicateDeclaration rfl⟩

/-- A reference that fails while the module is loaded is reported where it stands. -/
theorem checkReference_on {table : SymbolTable} {initialized : List Bool} {site : ReferenceSite}
    {node : Node} (path : site.path = node.path.text) (type : node.type = .reference site.name)
    {report : Diagnostic} (reported : table.checkReference initialized site = some report) :
    report.path = node.path.text ∧ node.Reports report.kind := by
  unfold SymbolTable.checkReference at reported
  split at reported
  · contradiction
  · split at reported
    · obtain rfl := Option.some_inj.mp reported
      exact ⟨path, .forward type⟩
    · split at reported
      · contradiction
      · obtain rfl := Option.some_inj.mp reported
        exact ⟨path, .uninitialized type⟩

theorem module_reports {report : Diagnostic}
    (reported : report ∈ (module config source).diagnostics) :
    ∃ node ∈ source.walk none, report.path = node.path.text ∧ node.Reports report.kind := by
  rw [module_diagnostics, List.mem_append, List.mem_append] at reported
  rcases reported with (again | compiled) | loaded
  · exact duplicateReports_on source again
  · exact (run_on config source).reports report compiled
  · obtain ⟨site, put, failed⟩ := List.mem_filterMap.mp loaded
    obtain ⟨node, inside, path, type⟩ := (run_on config source).references site put
    exact ⟨node, inside, checkReference_on path type failed⟩

/-- Named places are told apart by their texts. So are the places of all types in a declaration, if
its fields have bare names that are distinct in each record; and whatever is reported is reported of
one type in a declaration, with the text of its place. -/
theorem reports_tell_places :
    (∀ path other : NodePath, path.isNamed = true → other.isNamed = true →
      path.text = other.text → path = other) ∧
    (∀ declaration : Declaration, declaration.type.Everywhere Descriptor.NamesBare →
      (((Node.ofDeclaration declaration).walk none).map fun node => node.path.text).Nodup) ∧
    ∀ report ∈ (module config source).diagnostics, ∃ declaration ∈ source.declarations,
      ∃ node ∈ (Node.ofDeclaration declaration).walk none,
        report.path = node.path.text ∧ node.Reports report.kind := by
  refine ⟨fun _ _ => NodePath.eq_of_text_eq, fun _ bare => Node.nodup_texts bare, ?_⟩
  intro report reported
  obtain ⟨node, inside, told⟩ := module_reports config source reported
  obtain ⟨declaration, declared, found⟩ := List.mem_flatMap.mp inside
  exact ⟨declaration, declared, node, found, told⟩

/-- The second slot in the second member of a union refers to a type that is not declared. -/
theorem reports_tell_places_nested :
    (NodePath.mk [.declaration "Api", .unionMember 1, .tupleSlot 0]).isNamed = true ∧
      (NodePath.root.push (.declaration "Api")).push (.unionMember 1) =
        ⟨[.declaration "Api", .unionMember 1]⟩ ∧
      (⟨[.declaration "Api", .unionMember 1, .tupleSlot 0]⟩ : NodePath).text ≠
        (⟨[.declaration "Api", .unionMember 10, .arrayElement]⟩ : NodePath).text ∧
      (((Node.ofDeclaration ⟨"Api", .record [⟨"items", .array (.union
        [.primitive .string, .tuple [.unrecognized, .reference "Gone"]]), false⟩]⟩).walk none).map
          fun node => node.path.text).Nodup ∧
      ∃ declaration ∈ [(⟨"Api", .record [⟨"items", .array (.union
          [.primitive .string, .tuple [.unrecognized, .reference "Gone"]]), false⟩]⟩ :
            Declaration)],
        ∃ node ∈ (Node.ofDeclaration declaration).walk none,
          "Api.items[]|1[1]" = node.path.text ∧ node.Reports (.unresolvedReference "Gone") := by
  obtain ⟨told, distinct, reports⟩ := reports_tell_places ⟨none, false⟩ ⟨[⟨"Api", .record
    [⟨"items", .array (.union
      [.primitive .string, .tuple [.unrecognized, .reference "Gone"]]), false⟩]⟩]⟩
  refine ⟨by decide, told _ _ (by decide) (by decide) rfl, ?_, ?_, ?_⟩
  · intro same
    have equal := told _ _ (by decide) (by decide) same
    simp at equal
  · have record : Descriptor.NamesBare (.record [⟨"items", .array (.union
        [.primitive .string, .tuple [.unrecognized, .reference "Gone"]]), false⟩]) :=
      ⟨List.nodup_singleton _, List.forall_mem_singleton.mpr (by decide)⟩
    refine distinct _ (.intro _ record ?_)
    refine List.forall_mem_singleton.mpr (.intro _ trivial ?_)
    refine List.forall_mem_singleton.mpr (.intro _ trivial ?_)
    refine List.forall_mem_cons.mpr ⟨.leaf trivial rfl, List.forall_mem_singleton.mpr
      (.intro _ trivial (List.forall_mem_cons.mpr ⟨.leaf trivial rfl,
        List.forall_mem_singleton.mpr (.leaf trivial rfl)⟩))⟩
  · exact reports ⟨"Api.items[]|1[1]", .unresolvedReference "Gone"⟩ (by decide +kernel)

end Generate

end DecoderForge
