/-
This file proves that a module without reports on references can be loaded from its beginning to its
end: whatever a decoder refers to is there before it.
-/

import DecoderForge.Proofs.Compile.References
import DecoderForge.Proofs.Module.Run
import DecoderForge.Proofs.Symbols

namespace DecoderForge

/-- A reference that finds nothing when the module is loaded. -/
def DiagnosticKind.isReference : DiagnosticKind → Bool
  | .unresolvedReference _ | .forwardReference _ | .uninitializedReference _ => true
  | _ => false

namespace Generate

variable {config : CompileConfig} {source : SourceModule} {declaration : Declaration} {index : Nat}

/-- What is left behind by a reference that has a say in a declaration is left behind by the
module. -/
theorem exists_read_reference {typeName : String}
    (declared : source.declarations[index]? = some declaration)
    (visits : declaration.type.Visits config.tagField (.reference typeName)) :
    ∃ path : NodePath, ∀ {α : Type} (reading : Trace.Reading α),
      reading.read (Compile.referenceTrace ⟨config.tagField,
        some (.ofDeclarations source.declarations), index + 1⟩ path typeName) ⊆
      reading.read (run config source).1.trace := by
  obtain ⟨met, inside, type⟩ : ∃ met ∈ (Node.ofDeclaration declaration).walk config.tagField,
      met.type = .reference typeName := Node.exists_mem_walk_of_visits config.tagField visits
  refine ⟨met.path, ?_⟩
  intro α reading mark left
  have place : (declaration, index) ∈ source.declarations.zipIdx :=
    List.mk_mem_zipIdx_iff_getElem?.mpr declared
  rw [← met.own_of_reference type] at left
  rw [read_run]
  exact List.mem_flatMap.mpr ⟨_, place, List.mem_flatMap.mpr ⟨met, inside, left⟩⟩

/-- A reference to a type that is not declared is reported. -/
theorem reported_of_position?_eq_none {typeName : String}
    (declared : source.declarations[index]? = some declaration)
    (visits : declaration.type.Visits config.tagField (.reference typeName))
    (absent : (SymbolTable.ofDeclarations source.declarations).position? typeName = none) :
    ∃ report ∈ (module config source).diagnostics,
      report.kind = .unresolvedReference typeName := by
  obtain ⟨path, read⟩ := exists_read_reference declared visits
  have reported : ⟨path.text, .unresolvedReference typeName⟩ ∈
      (run config source).1.trace.diagnostics.filter fun report => report.kind.isReference := by
    apply read (.reports DiagnosticKind.isReference rfl fun _ => rfl)
    rw [Compile.referenceTrace_of_absent (.ofDeclarations source.declarations) absent]
    exact List.mem_singleton_self _
  have inside := (List.mem_filter.mp reported).1
  refine ⟨⟨path.text, .unresolvedReference typeName⟩, ?_, rfl⟩
  rw [module_diagnostics]
  exact List.mem_append_left _ (List.mem_append_right _ inside)

/-- A reference to a declared type is put down with the position of the declaration around it. -/
theorem exists_site_of_position? {typeName : String} {target : Nat}
    (declared : source.declarations[index]? = some declaration)
    (visits : declaration.type.Visits config.tagField (.reference typeName))
    (present : (SymbolTable.ofDeclarations source.declarations).position? typeName =
      some target) :
    ∃ path, ReferenceSite.mk typeName path index ∈ (run config source).1.trace.references := by
  obtain ⟨path, read⟩ := exists_read_reference declared visits
  refine ⟨path.text, read .references ?_⟩
  rw [Compile.referenceTrace_of_present (.ofDeclarations source.declarations) present]
  exact List.mem_singleton_self _

/-- A reference that is put down is passed by a module without reports on references. -/
theorem checkReference_eq_none_of_clean
    (clean : ∀ report ∈ (module config source).diagnostics, report.kind.isReference = false)
    {site : ReferenceSite} (recorded : site ∈ (run config source).1.trace.references) :
    (SymbolTable.ofDeclarations source.declarations).checkReference
      ((module config source).bindings.map Binding.isInitialized) site = none := by
  rw [Option.eq_none_iff_forall_ne_some]
  intro report checked
  have reported : report ∈ (module config source).diagnostics := by
    rw [module_diagnostics]
    exact List.mem_append_right _ (List.mem_filterMap.mpr ⟨site, recorded, checked⟩)
  have passed := clean report reported
  rcases SymbolTable.report_of_checkReference checked with rfl | rfl <;> contradiction

/-- A binding has the decoder of the declaration at its place. -/
theorem exists_declaration_of_bindings {binding : Binding}
    (bound : (module config source).bindings[index]? = some binding) :
    ∃ declaration, source.declarations[index]? = some declaration ∧
      declaration.binding config.tagField = binding := by
  rw [module_bindings, List.getElem?_map] at bound
  exact Option.map_eq_some_iff.mp bound

/-- Where nothing is reported of references, each name in a decoder is that of an earlier binding
with a decoder. -/
theorem module_loads_in_order
    (clean : ∀ report ∈ (module config source).diagnostics, report.kind.isReference = false)
    {binding : Binding} {decoder : DecoderExpr} {name : String}
    (bound : (module config source).bindings[index]? = some binding)
    (value : binding.expr = some decoder) (named : name ∈ decoder.identifiers) :
    ∃ earlier < index, ∃ other, (module config source).bindings[earlier]? = some other ∧
      other.name = name ∧ other.isInitialized = true := by
  obtain ⟨declaration, declared, rfl⟩ := exists_declaration_of_bindings bound
  obtain ⟨typeName, visits, rfl⟩ := Descriptor.exists_reference_of_mem_identifiers value named
  cases found : (SymbolTable.ofDeclarations source.declarations).position? typeName with
  | none =>
    obtain ⟨report, reported, kind⟩ := reported_of_position?_eq_none declared visits found
    have failing := clean report reported
    rw [kind] at failing
    contradiction
  | some target =>
    obtain ⟨path, recorded⟩ := exists_site_of_position? declared visits found
    have passed := checkReference_eq_none_of_clean clean recorded
    obtain ⟨before, initialized⟩ := (SymbolTable.checkReference_eq_none_iff _ _ found).mp passed
    obtain ⟨other, present, same⟩ := SymbolTable.exists_declaration_of_position? found
    have there : (module config source).bindings[target]? =
        some (other.binding config.tagField) := by
      rw [module_bindings, List.getElem?_map, present, Option.map_some]
    rw [List.getElem?_map, there] at initialized
    exact ⟨target, before, _, there, congrArg decoderName same, Option.some_inj.mp initialized⟩

/-- A list of a type that is declared before it and once more behind it. -/
theorem module_loads_in_order_array :
    (∀ report ∈ (module ⟨none, false⟩ ⟨[⟨"A", .primitive .string⟩,
        ⟨"B", .array (.reference "A")⟩, ⟨"A", .unrecognized⟩]⟩).diagnostics,
      report.kind.isReference = false) ∧
    ∃ earlier < 1, ∃ other, (module ⟨none, false⟩ ⟨[⟨"A", .primitive .string⟩,
        ⟨"B", .array (.reference "A")⟩, ⟨"A", .unrecognized⟩]⟩).bindings[earlier]? = some other ∧
      other.name = "aDecoder" ∧ other.isInitialized = true := by
  have clean : ∀ report ∈ (module ⟨none, false⟩ ⟨[⟨"A", .primitive .string⟩,
      ⟨"B", .array (.reference "A")⟩, ⟨"A", .unrecognized⟩]⟩).diagnostics,
      report.kind.isReference = false := by
    decide
  have bound : (module ⟨none, false⟩ ⟨[⟨"A", .primitive .string⟩,
      ⟨"B", .array (.reference "A")⟩, ⟨"A", .unrecognized⟩]⟩).bindings[1]? =
      some ⟨"bDecoder", some "Decoder<B>", some (.call .array [.identifier "aDecoder"])⟩ := rfl
  exact ⟨clean, module_loads_in_order clean bound rfl (by decide)⟩

end Generate

end DecoderForge
