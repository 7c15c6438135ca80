/-
This file proves how the items of a generated module follow each other: the imports that are needed,
and then the bindings of all declarations with one blank line before each, unless it stands first.
-/

import DecoderForge.Proofs.Module.Names
import Mathlib.Data.List.Chain

namespace DecoderForge

namespace Generate

/-- Bindings, each behind a blank line. -/
def spaced (bindings : List Binding) : List ModuleItem :=
  bindings.flatMap fun binding => [.blank, .declaration binding]

theorem spaced_cons (binding : Binding) (rest : List Binding) :
    spaced (binding :: rest) = .blank :: .declaration binding :: spaced rest := rfl

/-- Only what stands first in the module goes without a blank line. -/
theorem separate_eq_drop (first : Bool) (bindings : List Binding) :
    separate first bindings = (spaced bindings).drop (if first then 1 else 0) := by
  have behind (bindings : List Binding) : separate false bindings = spaced bindings := by
    induction bindings with
    | nil => rfl
    | cons binding rest ih => exact congrArg (.blank :: .declaration binding :: ·) ih
  cases first with
  | false => exact behind bindings
  | true =>
    cases bindings with
    | nil => rfl
    | cons binding rest => exact congrArg (.declaration binding :: ·) (behind rest)

/-- Of two items that follow each other at most one is a blank line. -/
def Apart (item next : ModuleItem) : Prop := ¬ (item = .blank ∧ next = .blank)

theorem isChain_spaced (bindings : List Binding) : (spaced bindings).IsChain Apart := by
  induction bindings with
  | nil => exact .nil
  | cons binding rest ih =>
    rw [spaced_cons]
    refine .cons_cons (fun both => nomatch both.2) ?_
    exact List.isChain_cons.mpr ⟨fun next _ both => (nomatch both.1), ih⟩

theorem getLast?_spaced_ne (bindings : List Binding) :
    (spaced bindings).getLast? ≠ some .blank := by
  cases bindings using List.reverseRecOn with
  | nil => nofun
  | append_singleton rest last =>
    rw [spaced, List.flatMap_append, List.getLast?_append]
    nofun

theorem getLast?_separate_ne (first : Bool) (bindings : List Binding) :
    (separate first bindings).getLast? ≠ some .blank := by
  rw [separate_eq_drop, List.getLast?_drop]
  generalize (if first then 1 else 0) = dropped
  split
  · nofun
  · exact getLast?_spaced_ne bindings

section

variable (imports : List Import) (bindings : List Binding)

theorem head?_layout_ne : (layout imports bindings).head? ≠ some .blank := by
  cases imports with
  | cons what rest => nofun
  | nil => cases bindings <;> nofun

theorem getLast?_layout_ne : (layout imports bindings).getLast? ≠ some .blank := by
  intro blank
  rw [layout, List.getLast?_append] at blank
  rcases Option.or_eq_some_iff.mp blank with last | ⟨_, last⟩
  · exact getLast?_separate_ne _ _ last
  · obtain ⟨what, _, same⟩ := List.mem_map.mp (List.mem_of_getLast? last)
    contradiction

theorem isChain_layout : (layout imports bindings).IsChain Apart := by
  have never : ∀ item ∈ imports.map ModuleItem.importing, ∀ next, Apart item next := by
    rintro _ inside next ⟨rfl, _⟩
    obtain ⟨what, _, same⟩ := List.mem_map.mp inside
    contradiction
  rw [layout, separate_eq_drop, List.isChain_append]
  refine ⟨?_, (isChain_spaced bindings).drop _, ?_⟩
  · exact (List.pairwise_of_forall_mem_list
      fun item inside next _ => never item inside next).isChain
  · exact fun item last next _ => never item (List.mem_of_getLast? last) next

end

variable (config : CompileConfig) (source : SourceModule)

/-- The type of decoders is imported just when a binding has a decoder. -/
theorem exists_types :
    ∃ types : Option Import,
      (if (module config source).bindings.any Binding.isInitialized then
        [Import.types [decoderType] libraryName] else []) = types.toList ∧
      (types = some (.types [decoderType] libraryName) ∧
          (∃ binding ∈ (module config source).bindings, binding.isInitialized = true) ∨
        types = none ∧
          ∀ binding ∈ (module config source).bindings, binding.isInitialized = false) := by
  split
  · next used => exact ⟨some _, rfl, .inl ⟨rfl, List.any_eq_true.mp used⟩⟩
  · next unused => exact ⟨none, rfl, .inr ⟨rfl, by simpa using unused⟩⟩

/-- Builtins are imported as members of a name, or else those that are recorded, if there are
any. -/
theorem exists_library :
    ∃ library : Option Import,
      (if config.namedImports then
        if (module config source).usage.isEmpty then []
        else [.named (module config source).usage.names libraryName]
      else [.everything libraryName libraryName]) = library.toList ∧
      (config.namedImports = false ∧ library = some (.everything libraryName libraryName) ∨
        config.namedImports = true ∧ (module config source).usage.isEmpty = false ∧
          library = some (.named (module config source).usage.names libraryName) ∨
        config.namedImports = true ∧ (module config source).usage.isEmpty = true ∧
          library = none) := by
  cases config.namedImports with
  | false => exact ⟨some _, rfl, .inl ⟨rfl, rfl⟩⟩
  | true =>
    cases (module config source).usage.isEmpty with
    | false => exact ⟨some _, rfl, .inr (.inl ⟨rfl, rfl, rfl⟩)⟩
    | true => exact ⟨none, rfl, .inr (.inr ⟨rfl, rfl, rfl⟩)⟩

/-- The items of a module are at most one import of types, which is there just when a binding has a
decoder, at most one import of builtins, and then the bindings of all declarations in their order.
Each binding stands behind one blank line, unless nothing stands before it; there is no blank line
at the beginning, at the end or behind another one. -/
theorem module_layout :
    (∃ types library : Option Import,
      (module config source).items =
        (types.toList ++ library.toList).map .importing ++
          (spaced (module config source).bindings).drop
            (if types.isNone && library.isNone then 1 else 0) ∧
      (types = some (.types [decoderType] libraryName) ∧
          (∃ binding ∈ (module config source).bindings, binding.isInitialized = true) ∨
        types = none ∧
          ∀ binding ∈ (module config source).bindings, binding.isInitialized = false) ∧
      (config.namedImports = false ∧ library = some (.everything libraryName libraryName) ∨
        config.namedImports = true ∧ (module config source).usage.isEmpty = false ∧
          library = some (.named (module config source).usage.names libraryName) ∨
        config.namedImports = true ∧ (module config source).usage.isEmpty = true ∧
          library = none)) ∧
    (module config source).items.head? ≠ some .blank ∧
    (module config source).items.getLast? ≠ some .blank ∧
    (∀ before after, (module config source).items ≠ before ++ .blank :: .blank :: after) ∧
    List.Forall₂ (fun declaration binding => binding.name = decoderName declaration.name ∧
        binding.resultType = if binding.isInitialized then
          some (decoderType ++ "<" ++ declaration.name ++ ">") else none)
      source.declarations (module config source).bindings := by
  have items : (module config source).items = layout (module config source).imports
      (module config source).bindings := module_items config source
  refine ⟨?_, ?_, ?_, ?_, ?_⟩
  · obtain ⟨types, annotations, used⟩ := exists_types config source
    obtain ⟨library, builtins, needed⟩ := exists_library config source
    refine ⟨types, library, ?_, used, needed⟩
    rw [items, layout, separate_eq_drop, module_imports, imports, annotations, builtins]
    cases types <;> cases library <;> rfl
  · rw [items]
    exact head?_layout_ne _ _
  · rw [items]
    exact getLast?_layout_ne _ _
  · intro before after doubled
    have chain := isChain_layout (module config source).imports (module config source).bindings
    rw [← items] at chain
    exact List.isChain_iff_forall_rel_of_append_cons_cons.mp chain doubled ⟨rfl, rfl⟩
  · rw [module_bindings, List.forall₂_map_right_iff, List.forall₂_same]
    intro declaration _
    refine ⟨rfl, ?_⟩
    unfold Binding.isInitialized Declaration.binding
    cases declaration.type.decoder? config.tagField <;> rfl

end Generate

end DecoderForge
