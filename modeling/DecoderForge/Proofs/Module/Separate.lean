/-
This file proves that the declarations of a module are compiled as if each stood by itself.
-/

import DecoderForge.Proofs.Compile.InPlace
import DecoderForge.Proofs.Module.Imports
import DecoderForge.Proofs.Module.Skips

namespace DecoderForge

theorem Usage.mem_foldl_record (usage : Usage) (recorded : List Builtin) (builtin : Builtin) :
    builtin ∈ recorded.foldl record usage ↔ builtin ∈ usage ∨ builtin ∈ recorded := by
  induction recorded generalizing usage with
  | nil => simp
  | cons first rest ih =>
    rw [List.foldl_cons, ih, mem_record, List.mem_cons, or_left_comm, or_assoc]

/-- The builtins that are in at least one of some sets. -/
def Usage.unionAll (usages : List Usage) : Usage := usages.foldr union empty

@[simp] theorem Usage.mem_unionAll (usages : List Usage) (builtin : Builtin) :
    builtin ∈ unionAll usages ↔ ∃ usage ∈ usages, builtin ∈ usage := by
  induction usages with
  | nil => simp [unionAll]
  | cons usage rest ih =>
    change builtin ∈ usage.union (unionAll rest) ↔ _
    rw [mem_union, ih, List.exists_mem_cons_iff]

/-- A run records what the decoder of a type calls and what is discarded in the type. -/
theorem Compiler.mem_compile_usage_iff (compiler : Compiler) (descriptor : Descriptor)
    (builtin : Builtin) :
    builtin ∈ (compiler.compile descriptor).1.trace.usage ↔
      builtin ∈ compiler.trace.usage ∨
        (∃ decoder ∈ descriptor.decoder? compiler.config.tagField, builtin ∈ decoder.builtins) ∨
          descriptor.Discards compiler.config.tagField builtin := by
  have accounts := Compile.type_accounts compiler.scope compiler.path descriptor
  change Compiled.Accounts (descriptor.Discards compiler.config.tagField) _ at accounts
  rw [← compiler.compile_toOption, compile]
  cases compiled : Compile.type compiler.scope compiler.path descriptor with
  | error reason =>
    rw [compiled] at accounts
    simp [Except.toOption, accounts builtin]
  | ok result =>
    rw [compiled] at accounts
    simp [Except.toOption, accounts builtin]

namespace Compile

variable (config : CompileConfig) (descriptor : Descriptor) (usage : Usage)

/-- Outside of a run a type has the decoder that it has everywhere. -/
theorem oneOff_fst : (oneOff config descriptor usage).1 = descriptor.decoder? config.tagField :=
  (Compiler.unchecked config).compile_toOption descriptor

/-- Outside of a run a type adds what its decoder calls and what is discarded in it to the builtins
that are given. -/
theorem mem_oneOff_snd_iff (builtin : Builtin) :
    builtin ∈ (oneOff config descriptor usage).2 ↔
      builtin ∈ usage ∨ (∃ decoder ∈ descriptor.decoder? config.tagField,
        builtin ∈ decoder.builtins) ∨ descriptor.Discards config.tagField builtin := by
  have recorded := (Compiler.unchecked config).mem_compile_usage_iff descriptor builtin
  have nothing : ¬ builtin ∈ (Compiler.unchecked config).trace.usage := Usage.not_mem_empty builtin
  rw [oneOff, Usage.mem_foldl_record]
  exact or_congr_right (recorded.trans (or_iff_right nothing))

end Compile

/-- In the middle of a run a type has the decoder that it has outside of runs. -/
theorem Compiler.compileInPlace_snd (compiler : Compiler) (descriptor : Descriptor)
    (usage : Usage) :
    (compiler.compileInPlace descriptor).2.toOption =
      (Compile.oneOff compiler.config descriptor usage).1 := by
  rw [compileInPlace_eq, compile_toOption, Compile.oneOff_fst]

/-- One module behind another. -/
instance : Append SourceModule :=
  ⟨fun first second => ⟨first.declarations ++ second.declarations⟩⟩

theorem SourceModule.append_declarations (first second : SourceModule) :
    (first ++ second).declarations = first.declarations ++ second.declarations := rfl

theorem SourceModule.walk_append (tagField : Option String) (first second : SourceModule) :
    (first ++ second).walk tagField = first.walk tagField ++ second.walk tagField :=
  List.flatMap_append

namespace Generate

variable (config : CompileConfig) (source : SourceModule)

/-- A binding is made from the declaration at its place, with the decoder that its type has outside
of every run. -/
theorem module_binding_oneOff (index : Nat) (usage : Usage) :
    (module config source).bindings[index]? = source.declarations[index]?.map fun declaration =>
      ⟨decoderName declaration.name,
        (Compile.oneOff config declaration.type usage).1.map fun _ =>
          decoderType ++ "<" ++ declaration.name ++ ">",
        (Compile.oneOff config declaration.type usage).1⟩ := by
  rw [module_bindings, List.getElem?_map]
  simp only [Compile.oneOff_fst]
  rfl

/-- The builtins of a module are those that its types add outside of every run. -/
theorem module_usage_oneOff :
    (module config source).usage = .unionAll (source.declarations.map fun declaration =>
      (Compile.oneOff config declaration.type .empty).2) := by
  apply Usage.ext
  intro builtin
  have calls : (module config source).Calls builtin ↔ ∃ declaration ∈ source.declarations,
      ∃ decoder ∈ declaration.type.decoder? config.tagField, builtin ∈ decoder.builtins := by
    rw [GeneratedModule.Calls, module_bindings]
    simp only [List.mem_map, exists_exists_and_eq_and, Declaration.binding]
  rw [mem_module_usage_iff, calls, SourceModule.Discards, Usage.mem_unionAll]
  simp only [List.mem_map, exists_exists_and_eq_and, Compile.mem_oneOff_snd_iff,
    Usage.not_mem_empty, false_or, and_or_left, exists_or]

/-- The table of a module names every decoder after its type, so each binding depends on nothing but
its declaration. Wherever a run stands and whatever types are declared, a type has the decoder that
it has outside of runs, where there is no table, whatever builtins were recorded before, and this is
the decoder of its binding. The builtins of the module are those that its types add outside of runs.
So a module that is put together from two has the bindings of the first and then those of the
second, and what they leave out is reported in the same order. -/
theorem module_compiles_separately :
    (SymbolTable.ofDeclarations source.declarations).IsNamed ∧
    (∀ (compiler : Compiler) (descriptor : Descriptor) (usage : Usage),
      (compiler.compileInPlace descriptor).2.toOption =
        (Compile.oneOff compiler.config descriptor usage).1) ∧
    (∀ (index : Nat) (usage : Usage),
      (module config source).bindings[index]? = source.declarations[index]?.map fun declaration =>
        ⟨decoderName declaration.name,
          (Compile.oneOff config declaration.type usage).1.map fun _ =>
            decoderType ++ "<" ++ declaration.name ++ ">",
          (Compile.oneOff config declaration.type usage).1⟩) ∧
    (module config source).usage = .unionAll (source.declarations.map fun declaration =>
      (Compile.oneOff config declaration.type .empty).2) ∧
    ∀ behind : SourceModule,
      (module config (source ++ behind)).bindings =
        (module config source).bindings ++ (module config behind).bindings ∧
      (module config (source ++ behind)).diagnostics.filter Diagnostic.isSkip =
        (module config source).diagnostics.filter Diagnostic.isSkip ++
          (module config behind).diagnostics.filter Diagnostic.isSkip := by
  refine ⟨SymbolTable.isNamed_ofNames _, Compiler.compileInPlace_snd,
    module_binding_oneOff config source, module_usage_oneOff config source, ?_⟩
  intro behind
  constructor
  · simp only [module_bindings, SourceModule.append_declarations, List.map_append]
  · simp only [filter_isSkip_module, SourceModule.walk_append, List.filterMap_append]

end Generate

end DecoderForge
