/-
This file proves which builtins a generated module imports: those that its decoders call, and those
that are called by entries that a record discards.
-/

import DecoderForge.Proofs.Compile.Usage
import DecoderForge.Proofs.Module.Run

namespace DecoderForge

namespace Compiler

theorem compileDeclaration_config (compiler : Compiler) (declaration : Declaration) :
    (compiler.compileDeclaration declaration).1.config = compiler.config := by
  obtain ⟨_, _, _, same⟩ | ⟨_, _, same⟩ := compiler.compileDeclaration_cases declaration
  · rw [same]
  · rw [same]

/-- A declaration adds what its decoder calls and what is discarded in its type. -/
theorem compileDeclaration_usage (compiler : Compiler) (declaration : Declaration)
    (builtin : Builtin) :
    builtin ∈ (compiler.compileDeclaration declaration).1.trace.usage ↔
      builtin ∈ compiler.trace.usage ∨
        (∃ decoder, (compiler.compileDeclaration declaration).2 = .ok decoder ∧
          builtin ∈ decoder.builtins) ∨
        declaration.type.Discards compiler.config.tagField builtin := by
  have accounts : (compiler.declarationWalk declaration).Accounts
      (declaration.type.Discards compiler.config.tagField) :=
    Compile.type_accounts _ _ declaration.type
  obtain ⟨decoder, trace, walk, same⟩ | ⟨reason, walk, same⟩ :=
    compiler.compileDeclaration_cases declaration
  · rw [walk] at accounts
    simp [same, accounts builtin]
  · rw [walk] at accounts
    simp [same, accounts builtin]

/-- A run adds what each of its decoders calls and what is discarded in each of its types. -/
theorem compileDeclarations_usage (compiler : Compiler) (declarations : List Declaration)
    (builtin : Builtin) :
    builtin ∈ (compiler.compileDeclarations declarations).1.trace.usage ↔
      builtin ∈ compiler.trace.usage ∨
        (∃ result ∈ (compiler.compileDeclarations declarations).2, ∃ decoder,
          result = .ok decoder ∧ builtin ∈ decoder.builtins) ∨
        ∃ declaration ∈ declarations,
          declaration.type.Discards compiler.config.tagField builtin := by
  induction declarations generalizing compiler with
  | nil => simp [compileDeclarations]
  | cons declaration rest ih =>
    simp only [compileDeclarations]
    rw [ih, compileDeclaration_usage, compileDeclaration_config]
    rw [List.exists_mem_cons_iff, List.exists_mem_cons_iff]
    simp only [or_assoc, or_left_comm]

theorem compileDeclarations_length (compiler : Compiler) (declarations : List Declaration) :
    (compiler.compileDeclarations declarations).2.length = declarations.length := by
  induction declarations generalizing compiler with
  | nil => rfl
  | cons declaration rest ih => simp [compileDeclarations, ih]

end Compiler

/-- The decoders of bindings are those that were compiled. -/
theorem Binding.exists_ofDeclaration_iff (property : DecoderExpr → Prop)
    (declarations : List Declaration) (results : List (Except SkipReason DecoderExpr))
    (length : results.length = declarations.length) :
    (∃ binding ∈ declarations.zipWith Binding.ofDeclaration results,
        ∃ decoder ∈ binding.expr, property decoder) ↔
      ∃ result ∈ results, ∃ decoder, result = .ok decoder ∧ property decoder := by
  induction declarations generalizing results with
  | nil =>
    obtain rfl := List.eq_nil_of_length_eq_zero length
    simp
  | cons declaration rest ih =>
    cases results with
    | nil => simp at length
    | cons result results =>
      rw [List.zipWith_cons_cons, List.exists_mem_cons_iff, List.exists_mem_cons_iff,
        ih results (Nat.succ.inj length)]
      refine or_congr_left ?_
      cases result with
      | error reason => simp [ofDeclaration]
      | ok decoder => simp [ofDeclaration]

namespace Generate

theorem separate_imports (first : Bool) (bindings : List Binding) :
    (separate first bindings).filterMap ModuleItem.import? = [] := by
  induction bindings generalizing first with
  | nil => rfl
  | cons binding rest ih => cases first <;> exact ih false

theorem layout_imports (imports : List Import) (bindings : List Binding) :
    (layout imports bindings).filterMap ModuleItem.import? = imports := by
  rw [layout, List.filterMap_append, separate_imports]
  simp [Function.comp_def, ModuleItem.import?]

end Generate

/-- The names of builtins stand in the order of the builtins. -/
theorem Builtin.name_lt_of_rank_lt (a b : Builtin) (before : a.rank < b.rank) :
    a.name < b.name := by
  revert before
  cases a <;> cases b <;> decide

theorem Usage.names_sorted (usage : Usage) : usage.names.Pairwise (· < ·) :=
  List.pairwise_map.mpr (usage.sorted.imp fun {a b} before => a.name_lt_of_rank_lt b before)

theorem Usage.isEmpty_eq_false_iff (usage : Usage) :
    usage.isEmpty = false ↔ ∃ builtin, builtin ∈ usage :=
  List.isEmpty_eq_false_iff_exists_mem

/-- A decoder of the module calls the builtin. -/
def GeneratedModule.Calls (m : GeneratedModule) (builtin : Builtin) : Prop :=
  ∃ binding ∈ m.bindings, ∃ decoder ∈ binding.expr, builtin ∈ decoder.builtins

/-- A call of the builtin is discarded in one of the declared types. -/
def SourceModule.Discards (tagField : Option String) (source : SourceModule) (builtin : Builtin) :
    Prop :=
  ∃ declaration ∈ source.declarations, declaration.type.Discards tagField builtin

namespace Generate

variable (config : CompileConfig) (source : SourceModule)

/-- The builtins that are recorded for a module are those that its decoders call and those of which
a call is discarded. -/
theorem mem_module_usage_iff (builtin : Builtin) :
    builtin ∈ (module config source).usage ↔
      (module config source).Calls builtin ∨ source.Discards config.tagField builtin := by
  have recorded := Compiler.compileDeclarations_usage
    (.new config (.ofDeclarations source.declarations)) source.declarations builtin
  rw [← Binding.exists_ofDeclaration_iff _ source.declarations _
    (Compiler.compileDeclarations_length _ _)] at recorded
  unfold GeneratedModule.Calls GeneratedModule.bindings
  simp only [module, layout_bindings]
  exact recorded.trans (or_iff_right (Usage.not_mem_empty builtin))

/-- What the module imports by name are the builtins that are recorded. -/
theorem mem_module_imports_iff (style : config.namedImports = true) (names : List String)
    (library : String) :
    Import.named names library ∈ (module config source).imports ↔
      (module config source).usage.isEmpty = false ∧
        names = (module config source).usage.names ∧ library = libraryName := by
  unfold GeneratedModule.imports
  simp only [module, layout_imports, imports, style, if_true]
  have types (bindings : List Binding) : Import.named names library ∉
      (if bindings.any Binding.isInitialized then [.types [decoderType] libraryName] else []) := by
    split <;> simp
  rw [List.mem_append, or_iff_right (types _)]
  split
  · next none => simp [none]
  · next some =>
    rw [List.mem_singleton, Import.named.injEq]
    simp [some]

/-- The builtins that are recorded are exactly those that the decoders call as long as whatever
discarded entries call is called elsewhere too, and so when no record repeats a name. They are then
the builtins that are imported by name. -/
theorem module_imports_called :
    ((∀ builtin, builtin ∈ (module config source).usage ↔ (module config source).Calls builtin) ↔
      ∀ builtin, source.Discards config.tagField builtin →
        (module config source).Calls builtin) ∧
    ((∀ declaration ∈ source.declarations,
        declaration.type.Everywhere Descriptor.NamesDistinct) →
      ∀ builtin, ¬ source.Discards config.tagField builtin) ∧
    (config.namedImports = true →
      (∀ builtin, source.Discards config.tagField builtin →
        (module config source).Calls builtin) →
      ((∃ names library, Import.named names library ∈ (module config source).imports) ↔
        ∃ builtin, (module config source).Calls builtin) ∧
      ∀ names library, Import.named names library ∈ (module config source).imports →
        names.Pairwise (· < ·) ∧
        ∀ name, name ∈ names ↔
          ∃ builtin, (module config source).Calls builtin ∧ builtin.name = name) := by
  have recorded := mem_module_usage_iff config source
  refine ⟨?_, ?_, ?_⟩
  · constructor
    · intro same builtin discarded
      exact (same builtin).mp ((recorded builtin).mpr (.inr discarded))
    · intro called builtin
      rw [recorded builtin]
      exact or_iff_left_of_imp (called builtin)
  · rintro distinct builtin ⟨declaration, inside, discards⟩
    exact Descriptor.not_discards_of_distinct (distinct declaration inside) _ _ discards
  · intro style called
    have same (builtin : Builtin) :
        builtin ∈ (module config source).usage ↔ (module config source).Calls builtin :=
      (recorded builtin).trans (or_iff_left_of_imp (called builtin))
    simp only [mem_module_imports_iff config source style, ← same]
    constructor
    · rw [← Usage.isEmpty_eq_false_iff]
      constructor
      · rintro ⟨names, library, some, _⟩
        exact some
      · intro some
        exact ⟨_, _, some, rfl, rfl⟩
    · rintro names library ⟨_, rfl, _⟩
      exact ⟨Usage.names_sorted _, fun name => List.mem_map⟩

/-- What a discarded entry calls is called by the entry of another field. -/
theorem module_imports_called_elsewhere :
    ∃ names library, Import.named names library ∈ (module ⟨none, true⟩
        ⟨[⟨"A", .record [⟨"a", .primitive .string, false⟩, ⟨"a", .primitive .number, false⟩,
          ⟨"b", .primitive .string, false⟩]⟩]⟩).imports ∧
      names.Pairwise (· < ·) ∧ "string" ∈ names := by
  have calls (builtin : Builtin) (inside : builtin ∈ [Builtin.number, .object, .string]) :
      (module ⟨none, true⟩
        ⟨[⟨"A", .record [⟨"a", .primitive .string, false⟩, ⟨"a", .primitive .number, false⟩,
          ⟨"b", .primitive .string, false⟩]⟩]⟩).Calls builtin := by
    refine ⟨_, List.mem_cons_self, _, rfl, ?_⟩
    simp only [List.mem_cons, List.not_mem_nil, or_false] at inside
    rcases inside with rfl | rfl | rfl <;> decide
  have imported := (module_imports_called ⟨none, true⟩
    ⟨[⟨"A", .record [⟨"a", .primitive .string, false⟩, ⟨"a", .primitive .number, false⟩,
      ⟨"b", .primitive .string, false⟩]⟩]⟩).2.2 rfl
    fun builtin discards => calls builtin ((mem_module_usage_iff _ _ builtin).mpr (.inr discards))
  obtain ⟨names, library, inside⟩ := imported.1.mpr ⟨.object, calls _ (by simp)⟩
  obtain ⟨sorted, names_iff⟩ := imported.2 names library inside
  exact ⟨names, library, inside, sorted, (names_iff _).mpr ⟨.string, calls _ (by simp), rfl⟩⟩

/-- The decoder of a field that is declared again is not called, but it is imported. -/
theorem module_imports_discarded :
    Builtin.number ∈ (module ⟨none, true⟩
        ⟨[⟨"A", .record [⟨"a", .primitive .number, false⟩,
          ⟨"a", .primitive .string, false⟩]⟩]⟩).usage ∧
      ¬ (module ⟨none, true⟩
        ⟨[⟨"A", .record [⟨"a", .primitive .number, false⟩,
          ⟨"a", .primitive .string, false⟩]⟩]⟩).Calls .number := by
  constructor
  · decide
  · rintro ⟨binding, inside, decoder, called, calls⟩
    obtain rfl := List.mem_singleton.mp inside
    obtain rfl := Option.some_inj.mp called
    revert calls
    decide

end Generate

end DecoderForge
