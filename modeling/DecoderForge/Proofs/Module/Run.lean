/-
This file proves what a run over the declarations of a module leaves behind, and which bindings it
makes.
-/

import DecoderForge.Module.Generated
import DecoderForge.Proofs.Compile.Walk

namespace DecoderForge

namespace Compiler

/-- The walk over the type of the next declaration. -/
def declarationWalk (compiler : Compiler) (declaration : Declaration) : Compiled :=
  Compile.type ⟨compiler.config.tagField, compiler.symbols, compiler.declared + 1⟩
    (NodePath.root.push (.declaration declaration.name)) declaration.type

/-- A declaration is compiled to the decoder of its type, or else it is reported. -/
theorem compileDeclaration_cases (compiler : Compiler) (declaration : Declaration) :
    (∃ decoder trace, compiler.declarationWalk declaration = .ok (decoder, trace) ∧
      compiler.compileDeclaration declaration =
        (⟨compiler.config, compiler.symbols, compiler.trace ++ trace, .root,
          compiler.declared + 1⟩, .ok decoder)) ∨
    ∃ reason, compiler.declarationWalk declaration = .error reason ∧
      compiler.compileDeclaration declaration =
        (⟨compiler.config, compiler.symbols, compiler.trace ++
          .report (NodePath.root.push (.declaration declaration.name))
            (.declarationUninitialized reason), .root, compiler.declared + 1⟩, .error reason) := by
  unfold compileDeclaration compile
  rcases walk : compiler.declarationWalk declaration with reason | ⟨decoder, trace⟩
  · refine .inr ⟨reason, rfl, ?_⟩
    simp only [declarationWalk] at walk
    simp only [scope, walk, report]
  · refine .inl ⟨decoder, trace, rfl, ?_⟩
    simp only [declarationWalk] at walk
    simp only [scope, walk]

/-- A declaration adds what its type leaves behind at its place. -/
theorem compileDeclaration_fst (compiler : Compiler) (declaration : Declaration) :
    (compiler.compileDeclaration declaration).1 =
      ⟨compiler.config, compiler.symbols, compiler.trace ++ (Node.ofDeclaration declaration).left
        ⟨compiler.config.tagField, compiler.symbols, compiler.declared + 1⟩, .root,
        compiler.declared + 1⟩ := by
  obtain ⟨decoder, trace, walk, same⟩ | ⟨reason, walk, same⟩ :=
    compiler.compileDeclaration_cases declaration
  · rw [same, Node.left_of_ok (.ofDeclaration declaration) walk]
  · rw [same, Node.left_of_error (.ofDeclaration declaration) walk rfl]
    rfl

/-- The decoder of a declaration is that of its type, whatever was compiled before. -/
theorem compileDeclaration_snd (compiler : Compiler) (declaration : Declaration) :
    (compiler.compileDeclaration declaration).2.toOption =
      declaration.type.decoder? compiler.config.tagField := by
  have found : (compiler.declarationWalk declaration).decoder? =
      declaration.type.decoder? compiler.config.tagField := Compile.type_decoder _ _ _
  obtain ⟨decoder, trace, walk, same⟩ | ⟨reason, walk, same⟩ :=
    compiler.compileDeclaration_cases declaration
  · rw [same, ← found, walk]
    rfl
  · rw [same, ← found, walk]
    rfl

/-- A run leaves behind what is met in its types, one declaration after the other. -/
theorem read_compileDeclarations {α : Type} (reading : Trace.Reading α) (compiler : Compiler)
    (declarations : List Declaration) :
    reading.read (compiler.compileDeclarations declarations).1.trace =
      reading.read compiler.trace ++
        (declarations.zipIdx compiler.declared).flatMap fun entry =>
          ((Node.ofDeclaration entry.1).walk compiler.config.tagField).flatMap fun met =>
            reading.read
              (met.own ⟨compiler.config.tagField, compiler.symbols, entry.2 + 1⟩) := by
  induction declarations generalizing compiler with
  | nil => exact (List.append_nil _).symm
  | cons declaration rest ih =>
    simp only [compileDeclarations]
    rw [ih, compileDeclaration_fst, reading.read_append, reading.read_left, List.zipIdx_cons,
      List.flatMap_cons, List.append_assoc]

/-- The decoders of a run are those of its types. -/
theorem compileDeclarations_snd (compiler : Compiler) (declarations : List Declaration) :
    (compiler.compileDeclarations declarations).2.map Except.toOption =
      declarations.map fun declaration =>
        declaration.type.decoder? compiler.config.tagField := by
  induction declarations generalizing compiler with
  | nil => rfl
  | cons declaration rest ih =>
    simp only [compileDeclarations, List.map_cons]
    rw [ih, compileDeclaration_snd, compileDeclaration_fst]

end Compiler

/-- The binding of a declaration in every module that has it. -/
def Declaration.binding (tagField : Option String) (declaration : Declaration) : Binding where
  name := decoderName declaration.name
  resultType := (declaration.type.decoder? tagField).map fun _ =>
    decoderType ++ "<" ++ declaration.name ++ ">"
  expr := declaration.type.decoder? tagField

/-- The bindings of compiled declarations depend on nothing but the declarations. -/
theorem Binding.zipWith_ofDeclaration {tagField : Option String} {declarations : List Declaration}
    {results : List (Except SkipReason DecoderExpr)}
    (decoders : results.map Except.toOption =
      declarations.map fun declaration => declaration.type.decoder? tagField) :
    declarations.zipWith ofDeclaration results =
      declarations.map (Declaration.binding tagField) := by
  induction declarations generalizing results with
  | nil => rfl
  | cons declaration rest ih =>
    obtain ⟨result, later, rfl, head, tail⟩ := List.map_eq_cons_iff.mp decoders
    change result.toOption = declaration.type.decoder? tagField at head
    have first : ofDeclaration declaration result = declaration.binding tagField := by
      rw [Declaration.binding, ← head]
      cases result <;> rfl
    rw [List.zipWith_cons_cons, List.map_cons, first, ih tail]

/-- The types that have a say in the decoders of a module, as they are compiled one after the
other. -/
def SourceModule.walk (tagField : Option String) (source : SourceModule) : List Node :=
  source.declarations.flatMap fun declaration => (Node.ofDeclaration declaration).walk tagField

namespace Generate

theorem separate_bindings (first : Bool) (bindings : List Binding) :
    (separate first bindings).filterMap ModuleItem.binding? = bindings := by
  induction bindings generalizing first with
  | nil => rfl
  | cons binding rest ih => cases first <;> exact congrArg (binding :: ·) (ih false)

theorem layout_bindings (imports : List Import) (bindings : List Binding) :
    (layout imports bindings).filterMap ModuleItem.binding? = bindings := by
  rw [layout, List.filterMap_append, separate_bindings]
  simp [ModuleItem.binding?]

variable (config : CompileConfig) (source : SourceModule)

/-- A module binds each declaration, in their order. -/
theorem module_bindings :
    (module config source).bindings =
      source.declarations.map (Declaration.binding config.tagField) := by
  have decoders := Compiler.compileDeclarations_snd
    (.new config (.ofDeclarations source.declarations)) source.declarations
  unfold GeneratedModule.bindings
  simp only [module, layout_bindings]
  exact Binding.zipWith_ofDeclaration decoders

/-- The reports of a module: repeated names, then those of the run, then those of the order in which
the bindings are loaded. -/
theorem module_diagnostics :
    (module config source).diagnostics =
      (SymbolTable.ofDeclarations source.declarations).duplicateReports ++
        (run config source).1.trace.diagnostics ++
        (SymbolTable.ofDeclarations source.declarations).checkReferences
          (run config source).1.trace.references
          ((module config source).bindings.map Binding.isInitialized) := by
  unfold GeneratedModule.bindings
  simp only [module, layout_bindings]

/-- A module is compiled by a walk through each declared type. -/
theorem read_run {α : Type} (reading : Trace.Reading α) :
    reading.read (run config source).1.trace =
      source.declarations.zipIdx.flatMap fun entry =>
        ((Node.ofDeclaration entry.1).walk config.tagField).flatMap fun met =>
          reading.read (met.own
            ⟨config.tagField, some (.ofDeclarations source.declarations), entry.2 + 1⟩) := by
  have read := Compiler.read_compileDeclarations reading
    (.new config (.ofDeclarations source.declarations)) source.declarations
  have start : reading.read
      (Compiler.new config (.ofDeclarations source.declarations)).trace = [] := reading.read_empty
  rwa [start, List.nil_append] at read

/-- Where the declaration that holds a type does not matter, one walk through the module is read. -/
theorem read_run_eq_walk {α : Type} (reading : Trace.Reading α) (each : Node → List α)
    (own : ∀ scope met, reading.read (Node.own scope met) = each met) :
    reading.read (run config source).1.trace = (source.walk config.tagField).flatMap each := by
  rw [read_run, SourceModule.walk, List.flatMap_assoc]
  simp only [own]
  rw [← List.flatMap_map Prod.fst fun declaration =>
    ((Node.ofDeclaration declaration).walk config.tagField).flatMap each, List.zipIdx_map_fst]

end Generate

end DecoderForge
