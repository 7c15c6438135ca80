/-
This file proves which types a generated module reports as left out: each that has no decoder, once,
at the field, slot, member or declaration that goes without it.
-/

import DecoderForge.Proofs.Compile.Skips
import DecoderForge.Proofs.Module.Run
import DecoderForge.Proofs.Symbols

namespace DecoderForge

namespace SymbolTable

theorem not_isSkip_of_mem_duplicateReports {table : SymbolTable} {report : Diagnostic}
    (inside : report ∈ table.duplicateReports) : report.isSkip = false := by
  obtain ⟨name, _, rfl⟩ := List.mem_map.mp inside
  rfl

theorem not_isSkip_of_mem_checkReferences {table : SymbolTable} {sites : List ReferenceSite}
    {initialized : List Bool} {report : Diagnostic}
    (inside : report ∈ table.checkReferences sites initialized) : report.isSkip = false := by
  obtain ⟨site, _, checked⟩ := List.mem_filterMap.mp inside
  rcases report_of_checkReference checked with rfl | rfl <;> rfl

end SymbolTable

namespace Generate

variable (config : CompileConfig) (source : SourceModule)

/-- The skips of a module are those of its run, in the order of the walk. -/
theorem filter_isSkip_module :
    (module config source).diagnostics.filter Diagnostic.isSkip =
      (source.walk config.tagField).filterMap Node.skip? := by
  have walked : (run config source).1.trace.diagnostics.filter Diagnostic.isSkip =
      (source.walk config.tagField).flatMap fun met => met.skip?.toList :=
    read_run_eq_walk config source .skips _ Node.read_skips_own
  have before : (SymbolTable.ofDeclarations source.declarations).duplicateReports.filter
      Diagnostic.isSkip = [] := by
    rw [List.filter_eq_nil_iff]
    intro report inside
    simp [SymbolTable.not_isSkip_of_mem_duplicateReports inside]
  have after (sites : List ReferenceSite) (initialized : List Bool) :
      ((SymbolTable.ofDeclarations source.declarations).checkReferences sites initialized).filter
        Diagnostic.isSkip = [] := by
    rw [List.filter_eq_nil_iff]
    intro report inside
    simp [SymbolTable.not_isSkip_of_mem_checkReferences inside]
  rw [module_diagnostics, List.filter_append, List.filter_append, before, after, walked,
    List.nil_append, List.append_nil, List.filterMap_eq_flatMap_toList]

/-- There are as many skips as types that are lost for their own sake. -/
theorem skipCount_module :
    (module config source).skipCount =
      (source.walk config.tagField).countP fun met => met.type.isLostLeaf := by
  have each (declaration : Declaration) :
      ((Node.ofDeclaration declaration).walk config.tagField).countP
          (fun met => met.type.isLostLeaf) =
        ((Node.ofDeclaration declaration).walk config.tagField).countP
          fun met => met.skip?.isSome := by
    have step : (Node.ofDeclaration declaration).step ≠ .arrayElement := Segment.noConfusion
    rw [Node.countP_isLostLeaf, Node.handsOn_of_not_array step]
    rfl
  calc (module config source).skipCount
    _ = ((module config source).diagnostics.filter Diagnostic.isSkip).length :=
      List.countP_eq_length_filter
    _ = (source.walk config.tagField).countP fun met => met.skip?.isSome := by
      rw [filter_isSkip_module, List.length_filterMap_eq_countP]
    _ = (source.walk config.tagField).countP fun met => met.type.isLostLeaf := by
      rw [SourceModule.walk, List.countP_flatMap, List.countP_flatMap]
      exact congrArg List.sum (List.map_congr_left fun declaration _ => (each declaration).symm)

/-- Each lost type that a walk through the declarations meets is reported once, in this order, at
the field, slot, member or declaration that goes without it, and nothing else is a skip. The walk
passes over the members of a tagged union whose tags come again further on. -/
theorem module_skips :
    (module config source).diagnostics.filter Diagnostic.isSkip =
        (source.walk config.tagField).filterMap Node.skip? ∧
      (module config source).skipCount =
        ((source.walk config.tagField).countP fun met => met.type.isLostLeaf) ∧
      ∀ (node : Node) (members : List Descriptor) (field : String) (tags : List String),
        node.type = .union members →
        UnionShape.classify members config.tagField = .tagged field tags →
        ∀ index, (∃ part ∈ node.inner config.tagField, part.step = .unionMember index) ↔
          ∃ tag, tags[index]? = some tag ∧ tag ∉ tags.drop (index + 1) := by
  refine ⟨filter_isSkip_module config source, skipCount_module config source, ?_⟩
  intro node members field tags type shape index
  exact Node.exists_mem_inner_iff config.tagField type shape index

/-- The first of two members with one tag is passed over, and a list of what has no decoder is
reported as the field that holds it. -/
theorem module_skips_overwritten :
    (module ⟨some "kind", false⟩ ⟨[⟨"A", .union
        [.record [⟨"kind", .literal (.string "a"), false⟩, ⟨"x", .unrecognized, false⟩],
          .record [⟨"kind", .literal (.string "a"), false⟩,
            ⟨"y", .array (.unsupported "function"), true⟩]]⟩]⟩).diagnostics.filter
        Diagnostic.isSkip =
      [⟨"A|1.y", .fieldDropped "y" (.unsupportedConstruct "function")⟩] ∧
    ¬ ∃ part ∈ (Node.mk .root (.declaration "A") (.union
        [.record [⟨"kind", .literal (.string "a"), false⟩, ⟨"x", .unrecognized, false⟩],
          .record [⟨"kind", .literal (.string "a"), false⟩,
            ⟨"y", .array (.unsupported "function"), true⟩]])).inner (some "kind"),
        part.step = .unionMember 0 := by
  obtain ⟨_, _, passed⟩ := module_skips ⟨some "kind", false⟩ ⟨[⟨"A", .union
    [.record [⟨"kind", .literal (.string "a"), false⟩, ⟨"x", .unrecognized, false⟩],
      .record [⟨"kind", .literal (.string "a"), false⟩,
        ⟨"y", .array (.unsupported "function"), true⟩]]⟩]⟩
  constructor
  · rfl
  · rw [passed (Node.mk .root (.declaration "A") (.union
      [.record [⟨"kind", .literal (.string "a"), false⟩, ⟨"x", .unrecognized, false⟩],
        .record [⟨"kind", .literal (.string "a"), false⟩,
          ⟨"y", .array (.unsupported "function"), true⟩]])) _ "kind" ["a", "a"] rfl rfl 0]
    rintro ⟨tag, present, last⟩
    obtain rfl : "a" = tag := Option.some_inj.mp present
    exact last (by decide)

end Generate

end DecoderForge
