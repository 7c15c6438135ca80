/-
This file proves that the text of a generated module determines the items of the module.
-/

import DecoderForge.Proofs.Compile.Assembly
import DecoderForge.Proofs.Module.Names
import DecoderForge.Proofs.TypeScript.Item

namespace DecoderForge

open Text

/-- A reference is to a type that has a name, and a numeric literal is one that was read or made. -/
def Descriptor.IsSpelled : Descriptor → Prop
  | .reference name => TypeScript.isName name.toList = true
  | .literal (.number n) => n.IsWritten
  | _ => True

/-- Every type that is declared or referred to in a module has a name. -/
def SourceModule.IsSpelled (source : SourceModule) : Prop :=
  ∀ declaration ∈ source.declarations, TypeScript.isName declaration.name.toList = true ∧
    declaration.type.Everywhere Descriptor.IsSpelled

/-- The names and numbers in a decoder are those in its type. -/
theorem Descriptor.proper_of_decoder? {tagField : Option String} {descriptor : Descriptor}
    (spelled : descriptor.Everywhere IsSpelled) {decoder : DecoderExpr}
    (compiled : descriptor.decoder? tagField = some decoder) : decoder.Proper := by
  have handsOn : HandsOn IsSpelled DecoderExpr.Proper :=
    { call := .call
      object := fun entries _ each => .object entries each
      string := .string
      number := fun n written => .number n written.isNumeric
      identifier := .identifier }
  exact handsOn.of_decoder? spelled compiled

theorem Declaration.proper_binding {declaration : Declaration}
    (named : TypeScript.isName declaration.name.toList = true)
    (spelled : declaration.type.Everywhere Descriptor.IsSpelled) (tagField : Option String) :
    (declaration.binding tagField).Proper := by
  have name := TypeScript.isName_decoderName named
  have typed : ∀ c ∈ (decoderType ++ "<" ++ declaration.name ++ ">").toList, c ≠ ' ' := by
    rintro c inside rfl
    simp only [String.toList_append, List.mem_append] at inside
    rcases inside with ((inside | inside) | inside) | inside
    · exact absurd inside (by decide)
    · exact absurd inside (by decide)
    · exact absurd (TypeScript.isNamePart_of_isName named ' ' inside) (by decide)
    · exact absurd inside (by decide)
  unfold binding
  cases compiled : declaration.type.decoder? tagField with
  | none => exact .uninitialized _ name
  | some decoder =>
    exact .initialized _ _ _ name typed (Descriptor.proper_of_decoder? spelled compiled)

namespace TypeScript

variable {owner : Option String}

/-- The lines of bindings with blank lines between them. -/
def separateChars (owner : Option String) (first : Bool) (bindings : List Binding) : List Char :=
  (Generate.separate first bindings).flatMap fun item => itemChars owner item ++ ['\n']

theorem separateChars_false (bindings : List Binding) :
    separateChars owner false bindings =
      bindings.flatMap fun binding => '\n' :: bindingLine owner binding := by
  induction bindings with
  | nil => rfl
  | cons binding rest ih =>
    exact congrArg (fun later => '\n' :: (bindingLine owner binding ++ later)) ih

theorem separateChars_true (binding : Binding) (rest : List Binding) :
    separateChars owner true (binding :: rest) =
      bindingLine owner binding ++ separateChars owner false rest := rfl

/-- Bindings do not begin as imports do. -/
theorem head?_separateChars_ne (first : Bool) (bindings : List Binding) :
    (separateChars owner first bindings).head? ≠ some 'i' := by
  cases bindings with
  | nil => nofun
  | cons binding rest =>
    cases first with
    | false =>
      rw [separateChars_false]
      nofun
    | true =>
      rw [separateChars_true, bindingLine, List.append_assoc, head?_bindingChars]
      split <;> decide

theorem separateChars_injective (style : ∀ name ∈ owner, name = libraryName) {first : Bool}
    {bindings others : List Binding} (proper : ∀ binding ∈ bindings, binding.Proper)
    (known : ∀ binding ∈ others, binding.Proper)
    (same : separateChars owner first bindings = separateChars owner first others) :
    bindings = others := by
  have behind {bindings others : List Binding} (proper : ∀ binding ∈ bindings, binding.Proper)
      (known : ∀ binding ∈ others, binding.Proper)
      (same : separateChars owner false bindings = separateChars owner false others) :
      bindings = others := by
    have closes : Closes (fun binding => '\n' :: bindingLine owner binding) Binding.Proper
        (fun _ => True) [] := ⟨trivial, fun _ _ _ => List.cons_ne_nil _ _⟩
    rw [separateChars_false, separateChars_false, ← List.append_nil (bindings.flatMap _),
      ← List.append_nil (others.flatMap _)] at same
    exact (flatMap_append_inj (fun _ _ _ => trivial) closes closes
      (fun binding inside => bindingLine_legible style (proper binding inside)) proper known
      same).1
  cases first with
  | false => exact behind proper known same
  | true =>
    have opens (binding : Binding) (rest : List Binding) :
        separateChars owner true (binding :: rest) ≠ [] := by
      intro none
      have start := congrArg List.head? none
      rw [separateChars_true, bindingLine, List.append_assoc, head?_bindingChars] at start
      contradiction
    cases bindings with
    | nil =>
      cases others with
      | nil => rfl
      | cons declared others => exact absurd same.symm (opens declared others)
    | cons binding bindings =>
      cases others with
      | nil => exact absurd same (opens binding bindings)
      | cons declared others =>
        obtain ⟨head, tail⟩ := List.forall_mem_cons.mp proper
        obtain ⟨start, rest⟩ := List.forall_mem_cons.mp known
        rw [separateChars_true, separateChars_true, bindingLine, bindingLine, List.append_assoc,
          List.append_assoc] at same
        obtain ⟨rfl, last⟩ := bindingChars_append_inj style head start same
        rw [behind tail rest (List.cons.inj last).2]

end TypeScript

namespace Generate

section

variable (config : CompileConfig) (source : SourceModule)

theorem module_alias?_eq_findSome? :
    (module config source).alias? = (module config source).imports.findSome? fun what =>
      (ModuleItem.importing what).alias? := by
  rw [GeneratedModule.alias?, module_items, layout_alias?]

theorem module_style : ∀ name ∈ (module config source).alias?, name = libraryName := by
  rw [module_alias?]
  cases config.namedImports <;> simp

theorem proper_of_mem_imports :
    ∀ what ∈ (module config source).imports, what.Proper := by
  rw [module_imports, imports]
  refine List.forall_mem_append.mpr ⟨?_, ?_⟩
  · split
    · exact List.forall_mem_singleton.mpr .types
    · exact List.forall_mem_nil _
  · split
    · split
      · exact List.forall_mem_nil _
      · next some => exact List.forall_mem_singleton.mpr (.named _ (Bool.eq_false_iff.mpr some))
    · exact List.forall_mem_singleton.mpr .everything

theorem proper_of_mem_bindings (spelled : source.IsSpelled) :
    ∀ binding ∈ (module config source).bindings, binding.Proper := by
  rw [module_bindings]
  intro binding inside
  obtain ⟨declaration, declared, rfl⟩ := List.mem_map.mp inside
  obtain ⟨named, spelled⟩ := spelled declaration declared
  exact declaration.proper_binding named spelled config.tagField

/-- A module is written as the lines of its imports and then those of its bindings. -/
theorem moduleChars_eq :
    TypeScript.moduleChars (module config source) =
      (module config source).imports.flatMap TypeScript.importLine ++
        TypeScript.separateChars (module config source).alias?
          (module config source).imports.isEmpty (module config source).bindings := by
  rw [TypeScript.moduleChars, module_items, layout, List.flatMap_append, List.flatMap_map]
  rfl

end

variable {config other : CompileConfig} {source target : SourceModule}

/-- Modules that are written in the same way have the same items: the same imports, and the same
bindings with the same types and the same decoders. -/
theorem module_items_of_render (spelled : source.IsSpelled) (written : target.IsSpelled)
    (same : TypeScript.render (module config source) = TypeScript.render (module other target)) :
    (module config source).items = (module other target).items := by
  have chars := String.ofList_injective same
  rw [moduleChars_eq, moduleChars_eq] at chars
  have closes (config : CompileConfig) (source : SourceModule) :
      Closes TypeScript.importLine Import.Proper (fun _ => True)
        (TypeScript.separateChars (module config source).alias?
          (module config source).imports.isEmpty (module config source).bindings) := by
    refine ⟨trivial, ?_⟩
    intro what _ behind begins
    have start : (TypeScript.importLine what ++ behind).head? = some 'i' := by
      cases what <;> rfl
    rw [begins] at start
    exact TypeScript.head?_separateChars_ne _ _ start
  obtain ⟨imports, bindings⟩ := flatMap_append_inj (fun _ _ _ => trivial) (closes config source)
    (closes other target)
    (fun what inside =>
      TypeScript.importLine_legible (proper_of_mem_imports config source what inside))
    (proper_of_mem_imports config source) (proper_of_mem_imports other target) chars
  have owners : (module config source).alias? = (module other target).alias? := by
    rw [module_alias?_eq_findSome?, module_alias?_eq_findSome?, imports]
  rw [owners, imports] at bindings
  have equal := TypeScript.separateChars_injective (module_style other target)
    (proper_of_mem_bindings config source spelled) (proper_of_mem_bindings other target written)
    bindings
  rw [module_items, module_items, imports, equal]

/-- A field that has no decoder and a tag field that no union has leave no mark on the text, nor on
the items. -/
theorem module_items_of_render_dropped :
    TypeScript.render (module ⟨some "kind", true⟩ ⟨[⟨"A", .record
        [⟨"a b", .array (.reference "B"), false⟩, ⟨"n", .literal (.number ⟨"0xF"⟩), true⟩,
          ⟨"x", .unrecognized, false⟩]⟩]⟩) =
      TypeScript.render (module ⟨none, true⟩ ⟨[⟨"A", .record
        [⟨"a b", .array (.reference "B"), false⟩,
          ⟨"n", .literal (.number ⟨"0xF"⟩), true⟩]⟩]⟩) ∧
    (module ⟨some "kind", true⟩ ⟨[⟨"A", .record
        [⟨"a b", .array (.reference "B"), false⟩, ⟨"n", .literal (.number ⟨"0xF"⟩), true⟩,
          ⟨"x", .unrecognized, false⟩]⟩]⟩).items =
      (module ⟨none, true⟩ ⟨[⟨"A", .record
        [⟨"a b", .array (.reference "B"), false⟩,
          ⟨"n", .literal (.number ⟨"0xF"⟩), true⟩]⟩]⟩).items := by
  have named : TypeScript.isName "B".toList = true := by decide
  have list : (Descriptor.array (.reference "B")).Everywhere Descriptor.IsSpelled :=
    .intro _ trivial (List.forall_mem_singleton.mpr (.leaf named rfl))
  have number : (Descriptor.literal (.number ⟨"0xF"⟩)).Everywhere Descriptor.IsSpelled :=
    .leaf (.inl ⟨"0xF", by decide⟩) rfl
  have lost : Descriptor.unrecognized.Everywhere Descriptor.IsSpelled := .leaf trivial rfl
  have spelled : SourceModule.IsSpelled ⟨[⟨"A", .record
      [⟨"a b", .array (.reference "B"), false⟩, ⟨"n", .literal (.number ⟨"0xF"⟩), true⟩,
        ⟨"x", .unrecognized, false⟩]⟩]⟩ := by
    refine List.forall_mem_singleton.mpr ⟨by decide, .intro _ trivial ?_⟩
    simpa [Descriptor.parts] using ⟨list, number, lost⟩
  have written : SourceModule.IsSpelled ⟨[⟨"A", .record
      [⟨"a b", .array (.reference "B"), false⟩,
        ⟨"n", .literal (.number ⟨"0xF"⟩), true⟩]⟩]⟩ := by
    refine List.forall_mem_singleton.mpr ⟨by decide, .intro _ trivial ?_⟩
    simpa [Descriptor.parts] using ⟨list, number⟩
  have chars : TypeScript.moduleChars (module ⟨some "kind", true⟩ ⟨[⟨"A", .record
        [⟨"a b", .array (.reference "B"), false⟩, ⟨"n", .literal (.number ⟨"0xF"⟩), true⟩,
          ⟨"x", .unrecognized, false⟩]⟩]⟩) =
      TypeScript.moduleChars (module ⟨none, true⟩ ⟨[⟨"A", .record
        [⟨"a b", .array (.reference "B"), false⟩,
          ⟨"n", .literal (.number ⟨"0xF"⟩), true⟩]⟩]⟩) := rfl
  have same := congrArg String.ofList chars
  exact ⟨same, module_items_of_render spelled written same⟩

end Generate

end DecoderForge
