/-
This file proves which reports a generated module has on names: on types that are declared again, on
references to types that are not declared, and on references that fail while the module is loaded.
-/

import DecoderForge.Proofs.Compile.Skips
import DecoderForge.Proofs.Module.Run
import DecoderForge.Proofs.Symbols

namespace DecoderForge

namespace DiagnosticKind

def isUnresolved : DiagnosticKind → Bool
  | .unresolvedReference _ => true
  | _ => false

/-- The kinds of reports that no type has by itself: they are on names that are declared again, and
on the order in which a module is loaded. -/
def isOfModule : DiagnosticKind → Bool
  | .duplicateDeclaration _ | .forwardReference _ | .uninitializedReference _ => true
  | _ => false

end DiagnosticKind

namespace SourceModule

def names (source : SourceModule) : List String := source.declarations.map Declaration.name

/-- The types that have a say in the decoders of a module, each with the position of the declaration
that holds it, as they are compiled one after the other. -/
def placedWalk (tagField : Option String) (source : SourceModule) : List (Node × Nat) :=
  source.declarations.zipIdx.flatMap fun entry =>
    ((Node.ofDeclaration entry.1).walk tagField).map fun met => (met, entry.2)

end SourceModule

/-- The report that a type refers to one that is not declared. -/
def Node.unresolved? (names : List String) (met : Node) : Option Diagnostic :=
  match met.type with
  | .reference name =>
    if name ∈ names then none else some ⟨met.path.text, .unresolvedReference name⟩
  | _ => none

/-- The report that a type in the declaration at a position refers to one whose first declaration
does not stand before it, or is bound without a decoder. -/
def Node.loadFailure? (names : List String) (bindings : List Binding) (met : Node)
    (position : Nat) : Option Diagnostic :=
  match met.type with
  | .reference name =>
    (names.idxOf? name).bind fun target =>
      if position ≤ target then some ⟨met.path.text, .forwardReference name⟩
      else if (bindings[target]?.bind Binding.expr).isNone then
        some ⟨met.path.text, .uninitializedReference name⟩
      else none
  | _ => none

namespace Node

/-- A type that is no reference leaves behind at most that it is left out. -/
theorem read_reports_own_of_not_reference {test : DiagnosticKind → Bool}
    (emptyUnion : test .emptyUnion = false)
    (duplicateTag : ∀ tag, test (.duplicateTag tag) = false)
    (noSkip : ∀ kind, kind.isSkip = true → test kind = false) (scope : Scope) {met : Node}
    (other : ∀ name, met.type ≠ .reference name) :
    (Trace.Reading.reports test emptyUnion duplicateTag).read (met.own scope) = [] := by
  rw [met.own_of_not_reference other]
  apply List.filter_eq_nil_iff.mpr
  intro report inside
  have skip : report.isSkip = true := isSkip_of_skip? (Option.mem_toList.mp inside)
  simp [noSkip report.kind skip]

theorem unresolved?_of_not_reference (names : List String) {met : Node}
    (other : ∀ name, met.type ≠ .reference name) : met.unresolved? names = none := by
  unfold unresolved?
  split
  · next name type => exact absurd type (other name)
  · rfl

theorem loadFailure?_of_not_reference (names : List String) (bindings : List Binding) {met : Node}
    (position : Nat) (other : ∀ name, met.type ≠ .reference name) :
    met.loadFailure? names bindings position = none := by
  unfold loadFailure?
  split
  · next name type => exact absurd type (other name)
  · rfl

variable (tagField : Option String) (names : List String) (position : Nat) (met : Node)

/-- A reference is reported where it is met, unless its type is declared somewhere. -/
theorem read_unresolved_own :
    (Trace.Reading.reports DiagnosticKind.isUnresolved rfl fun _ => rfl).read
        (met.own ⟨tagField, some (.ofNames names), position + 1⟩) =
      (met.unresolved? names).toList := by
  by_cases reference : ∃ name, met.type = .reference name
  · obtain ⟨name, type⟩ := reference
    have known := SymbolTable.isSome_position?_ofNames names name
    rw [met.own_of_reference type, unresolved?, type]
    cases found : (SymbolTable.ofNames names).position? name with
    | none =>
      have absent : name ∉ names := by
        intro inside
        rw [← known, found] at inside
        contradiction
      rw [Compile.referenceTrace_of_absent (.ofNames names) found]
      simp only [if_neg absent]
      rfl
    | some target =>
      have inside : name ∈ names := known.mp (by rw [found]; rfl)
      rw [Compile.referenceTrace_of_present (.ofNames names) found]
      simp only [if_pos inside]
      rfl
  · have other := not_exists.mp reference
    rw [unresolved?_of_not_reference names other]
    apply read_reports_own_of_not_reference _ _ _ _ other
    intro kind skip
    cases kind <;> first | rfl | contradiction

/-- No type by itself is reported as a matter of the whole module. -/
theorem read_isOfModule_own (scope : Scope) :
    (Trace.Reading.reports DiagnosticKind.isOfModule rfl fun _ => rfl).read (met.own scope) =
      [] := by
  by_cases reference : ∃ name, met.type = .reference name
  · obtain ⟨name, type⟩ := reference
    rw [met.own_of_reference type]
    unfold Compile.referenceTrace
    split
    · rfl
    · split <;> rfl
  · apply read_reports_own_of_not_reference _ _ _ _ (not_exists.mp reference)
    intro kind skip
    cases kind <;> first | rfl | contradiction

/-- A reference that is put down is checked by the place of the first declaration of its type. -/
theorem filterMap_checkReference_own (bindings : List Binding) :
    (met.own ⟨tagField, some (.ofNames names), position + 1⟩).references.filterMap
        ((SymbolTable.ofNames names).checkReference (bindings.map Binding.isInitialized)) =
      (met.loadFailure? names bindings position).toList := by
  by_cases reference : ∃ name, met.type = .reference name
  · obtain ⟨name, type⟩ := reference
    rw [met.own_of_reference type, loadFailure?, type]
    dsimp only
    rw [← SymbolTable.position?_ofNames names name]
    cases found : (SymbolTable.ofNames names).position? name with
    | none =>
      rw [Compile.referenceTrace_of_absent (.ofNames names) found]
      rfl
    | some target =>
      have value : ((bindings.map Binding.isInitialized)[target]?).getD false =
          !(bindings[target]?.bind Binding.expr).isNone := by
        rw [List.getElem?_map]
        cases bindings[target]? with
        | none => rfl
        | some binding => exact (Option.not_isNone _).symm
      have checked : (SymbolTable.ofNames names).checkReference
          (bindings.map Binding.isInitialized) ⟨name, met.path.text, position⟩ =
          if position ≤ target then some ⟨met.path.text, .forwardReference name⟩
          else if (bindings[target]?.bind Binding.expr).isNone then
            some ⟨met.path.text, .uninitializedReference name⟩
          else none := by
        simp only [SymbolTable.checkReference, found, value]
        cases (bindings[target]?.bind Binding.expr).isNone <;> rfl
      rw [Compile.referenceTrace_of_present (.ofNames names) found, Option.bind_some, ← checked,
        Trace.ofReference, List.filterMap_eq_flatMap_toList, List.flatMap_singleton]
  · have other := not_exists.mp reference
    rw [met.own_of_not_reference other, loadFailure?_of_not_reference names bindings position other]
    rfl

end Node

namespace Generate

variable (config : CompileConfig) (source : SourceModule)

/-- What a run leaves behind is read off the types that it meets. -/
theorem read_run_placedWalk {α : Type} (reading : Trace.Reading α) :
    reading.read (run config source).1.trace =
      (source.placedWalk config.tagField).flatMap fun entry =>
        reading.read (entry.1.own
          ⟨config.tagField, some (.ofDeclarations source.declarations), entry.2 + 1⟩) := by
  rw [read_run, SourceModule.placedWalk, List.flatMap_assoc]
  simp only [List.flatMap_map]

/-- A run reports each reference that it meets to a type that is not declared. -/
theorem run_unresolved :
    (run config source).1.trace.diagnostics.filter (fun report => report.kind.isUnresolved) =
      (source.placedWalk config.tagField).filterMap
        fun entry => entry.1.unresolved? source.names := by
  rw [List.filterMap_eq_flatMap_toList]
  refine (read_run_placedWalk config source
    (.reports DiagnosticKind.isUnresolved rfl fun _ => rfl)).trans (List.flatMap_congr ?_)
  exact fun entry _ => entry.1.read_unresolved_own config.tagField source.names entry.2

/-- While a run lasts, nothing is reported that is a matter of the whole module. -/
theorem run_isOfModule {report : Diagnostic}
    (inside : report ∈ (run config source).1.trace.diagnostics) :
    report.kind.isOfModule = false := by
  have none : (run config source).1.trace.diagnostics.filter
      (fun report => report.kind.isOfModule) = [] := by
    refine (read_run_placedWalk config source
      (.reports DiagnosticKind.isOfModule rfl fun _ => rfl)).trans ?_
    exact List.flatMap_eq_nil_iff.mpr fun entry _ => entry.1.read_isOfModule_own _
  exact Bool.eq_false_iff.mpr (List.filter_eq_nil_iff.mp none report inside)

/-- Behind a run, the references that it met are judged in the order in which it met them. -/
theorem checkReferences_run :
    (SymbolTable.ofDeclarations source.declarations).checkReferences
        (run config source).1.trace.references
        ((module config source).bindings.map Binding.isInitialized) =
      (source.placedWalk config.tagField).filterMap fun entry =>
        entry.1.loadFailure? source.names (module config source).bindings entry.2 := by
  have sites := read_run_placedWalk config source .references
  change (run config source).1.trace.references = _ at sites
  rw [SymbolTable.checkReferences, sites, List.filterMap_flatMap]
  refine Eq.trans (List.flatMap_congr ?_) (List.filterMap_eq_flatMap_toList _ _).symm
  exact fun entry _ => entry.1.filterMap_checkReference_own config.tagField source.names entry.2 _

/-- The reports of a module on names. First each name that is declared again is reported once. Then
the types are walked through; each reference to a type that is not declared is reported as it is
met, and nothing is said of the order in which the module is loaded. Last each reference is judged
by the position of the first declaration of its type: it is reported when this does not stand before
the declaration around the reference, or is bound without a decoder. The walk passes over the
members of a tagged union whose tags come again further on. -/
theorem module_reports_references :
    (∃ (repeated : List String) (walked : List Diagnostic),
      (module config source).diagnostics =
        repeated.map (fun name => ⟨name, .duplicateDeclaration name⟩) ++ walked ++
          (source.placedWalk config.tagField).filterMap (fun entry =>
            entry.1.loadFailure? source.names (module config source).bindings entry.2) ∧
      repeated.Nodup ∧ (∀ name, name ∈ repeated ↔ 2 ≤ source.names.count name) ∧
      walked.filter (fun report => report.kind.isUnresolved) =
        (source.placedWalk config.tagField).filterMap
          (fun entry => entry.1.unresolved? source.names) ∧
      ∀ report ∈ walked, report.kind.isOfModule = false) ∧
    ∀ (node : Node) (members : List Descriptor) (field : String) (tags : List String),
      node.type = .union members →
      UnionShape.classify members config.tagField = .tagged field tags →
      ∀ index, (∃ part ∈ node.inner config.tagField, part.step = .unionMember index) ↔
        ∃ tag, tags[index]? = some tag ∧ tag ∉ tags.drop (index + 1) := by
  refine ⟨⟨(SymbolTable.ofDeclarations source.declarations).duplicates,
    (run config source).1.trace.diagnostics, ?_, SymbolTable.nodup_duplicates_ofNames _,
    SymbolTable.mem_duplicates_ofNames _, run_unresolved config source,
    fun report => run_isOfModule config source⟩, ?_⟩
  · rw [module_diagnostics, checkReferences_run]
    rfl
  · intro node members field tags type shape index
    exact Node.exists_mem_inner_iff config.tagField type shape index

/-- The first of two members with one tag is passed over with the reference in it. The second one
refers to the type itself, to one that is declared behind it and to one that is not declared. A pair
refers to types that are declared before it, of which one is bound without a decoder. -/
theorem module_reports_references_overwritten :
    (module ⟨some "kind", false⟩ ⟨[⟨"A", .union
        [.record [⟨"kind", .literal (.string "a"), false⟩, ⟨"x", .reference "X", false⟩],
          .record [⟨"kind", .literal (.string "a"), false⟩, ⟨"a", .reference "A", true⟩,
            ⟨"b", .array (.reference "B"), false⟩, ⟨"x", .reference "X", false⟩]]⟩,
        ⟨"N", .unrecognized⟩, ⟨"B", .tuple [.reference "N", .reference "A"]⟩,
        ⟨"A", .primitive .string⟩]⟩).diagnostics =
      [⟨"A", .duplicateDeclaration "A"⟩, ⟨"A|1", .duplicateTag "a"⟩,
        ⟨"A|1.x", .unresolvedReference "X"⟩,
        ⟨"N", .declarationUninitialized .unrecognizedDescriptor⟩,
        ⟨"A|1.a", .forwardReference "A"⟩, ⟨"A|1.b[]", .forwardReference "B"⟩,
        ⟨"B[0]", .uninitializedReference "N"⟩] ∧
    ¬ ∃ part ∈ (Node.mk .root (.declaration "A") (.union
        [.record [⟨"kind", .literal (.string "a"), false⟩, ⟨"x", .reference "X", false⟩],
          .record [⟨"kind", .literal (.string "a"), false⟩, ⟨"a", .reference "A", true⟩,
            ⟨"b", .array (.reference "B"), false⟩, ⟨"x", .reference "X", false⟩]])).inner
        (some "kind"), part.step = .unionMember 0 := by
  obtain ⟨_, passed⟩ := module_reports_references ⟨some "kind", false⟩ ⟨[⟨"A", .union
      [.record [⟨"kind", .literal (.string "a"), false⟩, ⟨"x", .reference "X", false⟩],
        .record [⟨"kind", .literal (.string "a"), false⟩, ⟨"a", .reference "A", true⟩,
          ⟨"b", .array (.reference "B"), false⟩, ⟨"x", .reference "X", false⟩]]⟩,
      ⟨"N", .unrecognized⟩, ⟨"B", .tuple [.reference "N", .reference "A"]⟩,
      ⟨"A", .primitive .string⟩]⟩
  constructor
  · rfl
  · rw [passed (Node.mk .root (.declaration "A") (.union
      [.record [⟨"kind", .literal (.string "a"), false⟩, ⟨"x", .reference "X", false⟩],
        .record [⟨"kind", .literal (.string "a"), false⟩, ⟨"a", .reference "A", true⟩,
          ⟨"b", .array (.reference "B"), false⟩, ⟨"x", .reference "X", false⟩]]))
      _ "kind" ["a", "a"] rfl rfl 0]
    rintro ⟨tag, present, last⟩
    obtain rfl : "a" = tag := Option.some_inj.mp present
    exact last (by decide)

end Generate

end DecoderForge
