/-
This file proves that a generated module has every name that occurs in it: builtins are imported,
decoders of other types are bound or reported, and the type of decoders is imported if it is used.
-/

import DecoderForge.Proofs.Module.Imports
import DecoderForge.Proofs.Module.LoadOrder

namespace DecoderForge

namespace Import

def isNamed : Import → Bool
  | .named .. => true
  | _ => false

def isEverything : Import → Bool
  | .everything .. => true
  | _ => false

end Import

/-- A decoder of the module refers to a name. -/
def GeneratedModule.Mentions (m : GeneratedModule) (name : String) : Prop :=
  ∃ binding ∈ m.bindings, ∃ decoder ∈ binding.expr, name ∈ decoder.identifiers

namespace Generate

theorem separate_alias? (first : Bool) (bindings : List Binding) :
    (separate first bindings).findSome? ModuleItem.alias? = none := by
  induction bindings generalizing first with
  | nil => rfl
  | cons binding rest ih => cases first <;> exact ih false

theorem layout_alias? (imports : List Import) (bindings : List Binding) :
    (layout imports bindings).findSome? ModuleItem.alias? =
      imports.findSome? fun what => (ModuleItem.importing what).alias? := by
  rw [layout, List.findSome?_append, separate_alias?, Option.or_none, List.findSome?_map]
  rfl

variable (config : CompileConfig) (source : SourceModule)

/-- The items of a module are its imports and its bindings. -/
theorem module_items :
    (module config source).items =
      layout (module config source).imports (module config source).bindings := by
  unfold GeneratedModule.imports GeneratedModule.bindings
  simp only [module, layout_imports, layout_bindings]

/-- The imports of a module are those that its bindings and the recorded builtins need. -/
theorem module_imports :
    (module config source).imports =
      imports config (module config source).bindings (module config source).usage := by
  unfold GeneratedModule.imports GeneratedModule.bindings
  simp only [module, layout_imports, layout_bindings]

/-- Builtins are members of a name unless they are imported one by one. -/
theorem module_alias? :
    (module config source).alias? = if config.namedImports then none else some libraryName := by
  have items : (module config source).alias? =
      (module config source).imports.findSome? fun what => (ModuleItem.importing what).alias? := by
    rw [module_imports]
    unfold GeneratedModule.alias? GeneratedModule.bindings
    simp only [module, layout_alias?, layout_bindings]
  rw [items, module_imports]
  unfold imports
  cases config.namedImports with
  | true => cases (module config source).usage.isEmpty <;> split <;> rfl
  | false => split <;> rfl

/-- Where some builtin is called, one import has all that are called by their names. -/
theorem named_of_calls (style : config.namedImports = true) {builtin : Builtin}
    (called : (module config source).Calls builtin) :
    ∃ names, (module config source).imports.filter Import.isNamed = [.named names libraryName] ∧
      builtin.name ∈ names := by
  have recorded : builtin ∈ (module config source).usage :=
    (mem_module_usage_iff config source builtin).mpr (.inl called)
  have some : (module config source).usage.isEmpty = false :=
    (Usage.isEmpty_eq_false_iff _).mpr ⟨builtin, recorded⟩
  refine ⟨(module config source).usage.names, ?_, List.mem_map_of_mem recorded⟩
  rw [module_imports]
  simp only [imports, style, some, if_true, Bool.false_eq_true, if_false]
  split <;> rfl

/-- One import has everything, and its name is that of which builtins are members. -/
theorem everything_of_not_named (style : config.namedImports = false) :
    ∃ binding, (module config source).imports.filter Import.isEverything =
        [.everything binding libraryName] ∧
      (module config source).alias? = some binding := by
  refine ⟨libraryName, ?_, by rw [module_alias?, style]; rfl⟩
  rw [module_imports]
  simp only [imports, style, Bool.false_eq_true, if_false]
  split <;> rfl

/-- A name in a decoder is bound, or its type is reported as not declared. -/
theorem bound_or_reported_of_mentions {name : String}
    (mentioned : (module config source).Mentions name) :
    (∃ binding ∈ (module config source).bindings, binding.name = name) ∨
      ∃ report ∈ (module config source).diagnostics, ∃ typeName,
        report.kind = .unresolvedReference typeName ∧ decoderName typeName = name := by
  obtain ⟨binding, inside, decoder, value, named⟩ := mentioned
  obtain ⟨index, bound⟩ := List.mem_iff_getElem?.mp inside
  obtain ⟨declaration, declared, rfl⟩ := exists_declaration_of_bindings bound
  obtain ⟨typeName, visits, rfl⟩ := Descriptor.exists_reference_of_mem_identifiers value named
  cases found : (SymbolTable.ofDeclarations source.declarations).position? typeName with
  | none =>
    obtain ⟨report, reported, kind⟩ := reported_of_position?_eq_none declared visits found
    exact .inr ⟨report, reported, typeName, kind, rfl⟩
  | some target =>
    obtain ⟨other, present, same⟩ := SymbolTable.exists_declaration_of_position? found
    refine .inl ⟨other.binding config.tagField, ?_, congrArg decoderName same⟩
    rw [module_bindings]
    exact List.mem_map_of_mem (List.mem_of_getElem? present)

/-- A binding is annotated just when it has a decoder. -/
theorem resultType_isSome_of_mem_bindings {binding : Binding}
    (inside : binding ∈ (module config source).bindings) :
    binding.resultType.isSome = binding.isInitialized := by
  rw [module_bindings] at inside
  obtain ⟨declaration, _, rfl⟩ := List.mem_map.mp inside
  exact Option.isSome_map

/-- The type of decoders is imported just when a binding is annotated with it, and no other type
is. -/
theorem mem_module_types_iff (names : List String) (library : String) :
    Import.types names library ∈ (module config source).imports ↔
      (names = [decoderType] ∧ library = libraryName) ∧
        ∃ binding ∈ (module config source).bindings, binding.resultType.isSome = true := by
  have builtins : Import.types names library ∉ (if config.namedImports then
      if (module config source).usage.isEmpty then []
      else [.named (module config source).usage.names libraryName]
    else [Import.everything libraryName libraryName]) := by
    split
    · split <;> simp
    · simp
  have annotated : (module config source).bindings.any Binding.isInitialized = true ↔
      ∃ binding ∈ (module config source).bindings, binding.resultType.isSome = true := by
    rw [List.any_eq_true]
    refine exists_congr fun binding => and_congr_right fun inside => ?_
    rw [resultType_isSome_of_mem_bindings config source inside]
  rw [module_imports, imports, List.mem_append, or_iff_left builtins, ← annotated]
  split
  · next some => simp [some]
  · next none => simp [none]

/-- Every name in a module stands for something: builtins are imported by name or as members of the
only name for everything, other decoders are bound unless their types are reported as not declared,
and the type of decoders is imported just when a binding is annotated with it. -/
theorem module_names_closed :
    (config.namedImports = true → (module config source).alias? = none ∧
      ∀ builtin, (module config source).Calls builtin → ∃ names,
        (module config source).imports.filter Import.isNamed = [.named names libraryName] ∧
          builtin.name ∈ names) ∧
    (config.namedImports = false → ∃ binding,
      (module config source).imports.filter Import.isEverything =
          [.everything binding libraryName] ∧
        (module config source).alias? = some binding) ∧
    (∀ name, (module config source).Mentions name →
      (∃ binding ∈ (module config source).bindings, binding.name = name) ∨
        ∃ report ∈ (module config source).diagnostics, ∃ typeName,
          report.kind = .unresolvedReference typeName ∧ decoderName typeName = name) ∧
    ∀ names library, Import.types names library ∈ (module config source).imports ↔
      (names = [decoderType] ∧ library = libraryName) ∧
        ∃ binding ∈ (module config source).bindings, binding.resultType.isSome = true := by
  refine ⟨?_, everything_of_not_named config source, ?_, mem_module_types_iff config source⟩
  · intro style
    refine ⟨by rw [module_alias?, style]; rfl, ?_⟩
    exact fun builtin called => named_of_calls config source style called
  · exact fun name mentioned => bound_or_reported_of_mentions config source mentioned

/-- A list of a type that is not declared: the builtin is imported and the type is reported. -/
theorem module_names_closed_undeclared :
    (∃ names, (module ⟨none, true⟩ ⟨[⟨"A", .array (.reference "B")⟩]⟩).imports.filter
        Import.isNamed = [.named names libraryName] ∧ "array" ∈ names) ∧
      ∃ report ∈ (module ⟨none, true⟩ ⟨[⟨"A", .array (.reference "B")⟩]⟩).diagnostics,
        ∃ typeName, report.kind = .unresolvedReference typeName ∧
          decoderName typeName = "bDecoder" := by
  have closed := module_names_closed ⟨none, true⟩ ⟨[⟨"A", .array (.reference "B")⟩]⟩
  constructor
  · exact (closed.1 rfl).2 .array ⟨_, List.mem_cons_self, _, rfl, by decide⟩
  · have found := closed.2.2.1 "bDecoder" ⟨_, List.mem_cons_self, _, rfl, by decide⟩
    rcases found with ⟨binding, inside, same⟩ | reported
    · obtain rfl := List.mem_singleton.mp inside
      exact absurd same (by decide)
    · exact reported

end Generate

end DecoderForge
