/-
This file proves when the names at the top of a generated module are introduced once: those of its
bindings, and those that its imports bring in.
-/

import DecoderForge.Proofs.Module.Names
import DecoderForge.Proofs.TypeScript.Word

namespace DecoderForge

/-- What the name of a decoder keeps of the name of its type. -/
def decoderStem (typeName : String) : List Char :=
  match typeName.toList with
  | [] => []
  | first :: rest => Text.lowercase first ++ rest

theorem toList_decoderName (typeName : String) :
    (decoderName typeName).toList = decoderStem typeName ++ "Decoder".toList :=
  String.toList_ofList

/-- Two types share the name of their decoders when they have the same stem. -/
theorem decoderName_eq_iff (typeName other : String) :
    decoderName typeName = decoderName other ↔ decoderStem typeName = decoderStem other := by
  rw [← String.toList_inj, toList_decoderName, toList_decoderName, List.append_left_inj]

theorem Text.lowercase_ne_nil (c : Char) : Text.lowercase c ≠ [] := by
  unfold Text.lowercase
  dsimp only
  split
  · apply List.cons_ne_nil
  · split <;> apply List.cons_ne_nil

theorem decoderStem_eq_nil_iff (typeName : String) : decoderStem typeName = [] ↔ typeName = "" := by
  rw [← String.toList_eq_nil_iff]
  unfold decoderStem
  split
  · next empty => exact iff_of_true rfl empty
  · next first rest chars =>
    rw [chars]
    refine iff_of_false ?_ (List.cons_ne_nil first rest)
    intro none
    exact Text.lowercase_ne_nil first (List.append_eq_nil_iff.mp none).1

/-- Only the decoder of the type without a name is named as the type of decoders. -/
theorem decoderName_eq_decoderType_iff (typeName : String) :
    decoderName typeName = decoderType ↔ typeName = "" := by
  have bare : decoderType = decoderName "" := rfl
  rw [bare, decoderName_eq_iff]
  exact decoderStem_eq_nil_iff typeName

theorem decoderName_ne_libraryName (typeName : String) : decoderName typeName ≠ libraryName := by
  intro same
  have capital := TypeScript.mem_decoderName typeName (c := 'D') (by decide)
  rw [same] at capital
  exact absurd capital (by decide)

theorem decoderName_ne_builtinName (typeName : String) (builtin : Builtin) :
    decoderName typeName ≠ builtin.name := by
  intro same
  have capital := TypeScript.mem_decoderName typeName (c := 'D') (by decide)
  have absent : 'D' ∉ builtin.name.toList := by cases builtin <;> decide
  rw [same] at capital
  exact absent capital

/-- The lower case of a capital of ASCII is that of no other capital. -/
theorem lt_and_toUpper_toLower_of_isUpper {c : Char} (capital : c.isUpper = true) :
    c.toNat < 0x80 ∧ c.toLower.toUpper = c := by
  have inside : 'A' ≤ c ∧ c ≤ 'Z' := of_decide_eq_true capital
  have ascii : c.toNat < 0x80 := Nat.lt_of_le_of_lt (m := 'Z'.toNat) inside.2 (by decide)
  have back : c.isUpper = true → c.toLower.toUpper = c := Text.of_ascii (by decide +kernel) ascii
  exact ⟨ascii, back capital⟩

/-- A name that begins with a capital of ASCII. -/
def IsCapitalized (name : String) : Prop :=
  ∃ first rest, name.toList = first :: rest ∧ first.isUpper = true

theorem IsCapitalized.ne_empty {name : String} (capitalized : IsCapitalized name) :
    name ≠ "" := by
  obtain ⟨first, rest, chars, _⟩ := capitalized
  intro empty
  rw [empty] at chars
  contradiction

theorem decoderStem_of_chars {name : String} {first : Char} {rest : List Char}
    (chars : name.toList = first :: rest) (capital : first.isUpper = true) :
    decoderStem name = first.toLower :: rest := by
  rw [decoderStem, chars]
  dsimp only
  rw [Text.lowercase_of_lt (lt_and_toUpper_toLower_of_isUpper capital).1, List.singleton_append]

theorem decoderStem_inj_of_capitalized {typeName other : String}
    (capitalized : IsCapitalized typeName) (written : IsCapitalized other)
    (same : decoderStem typeName = decoderStem other) : typeName = other := by
  obtain ⟨first, rest, chars, capital⟩ := capitalized
  obtain ⟨initial, tail, letters, upper⟩ := written
  rw [decoderStem_of_chars chars capital, decoderStem_of_chars letters upper] at same
  obtain ⟨lower, behind⟩ := List.cons.inj same
  have begin := congrArg Char.toUpper lower
  rw [(lt_and_toUpper_toLower_of_isUpper capital).2,
    (lt_and_toUpper_toLower_of_isUpper upper).2] at begin
  rw [← String.toList_inj, chars, letters, begin, behind]

/-- The names that an import brings into its module. -/
def Import.introduced : Import → List String
  | .types names _ | .named names _ => names
  | .everything binding _ => [binding]

/-- The names that the imports of a module bring in. -/
def GeneratedModule.imported (m : GeneratedModule) : List String :=
  m.imports.flatMap Import.introduced

/-- A module introduces each name once: its bindings have different names, and no import brings in
one of them. -/
structure GeneratedModule.IntroducesOnce (m : GeneratedModule) : Prop where
  distinct : (m.bindings.map Binding.name).Nodup
  apart : ∀ binding ∈ m.bindings, binding.name ∉ m.imported

namespace SymbolTable

/-- No type is reported as declared again just when the names of the types are distinct. -/
theorem duplicates_ofDeclarations_eq_nil_iff (declarations : List Declaration) :
    (ofDeclarations declarations).duplicates = [] ↔
      (declarations.map Declaration.name).Nodup := by
  rw [List.nodup_iff_count_le_one, List.eq_nil_iff_forall_not_mem]
  apply forall_congr'
  intro name
  rw [ofDeclarations, mem_duplicates_ofNames, Nat.not_le, Nat.lt_succ_iff]

end SymbolTable

namespace Generate

variable (config : CompileConfig) (source : SourceModule)

/-- What the imports of a module bring in: the type of decoders if a binding has a decoder, and
the builtins that are recorded or else the name of which all of them are members. -/
theorem module_imported :
    (module config source).imported =
      (if (module config source).bindings.any Binding.isInitialized then [decoderType] else []) ++
        if config.namedImports then (module config source).usage.names else [libraryName] := by
  have types (some : Bool) : (if some then [Import.types [decoderType] libraryName] else []).flatMap
      Import.introduced = if some then [decoderType] else [] := by
    cases some <;> rfl
  have named (usage : Usage) : (if usage.isEmpty then []
      else [Import.named usage.names libraryName]).flatMap Import.introduced = usage.names := by
    split
    · next empty =>
      rw [Usage.names, List.isEmpty_iff.mp empty]
      rfl
    · exact List.append_nil usage.names
  rw [GeneratedModule.imported, module_imports, imports, List.flatMap_append, types]
  cases config.namedImports with
  | true => exact congrArg _ (named _)
  | false => rfl

/-- The names of types are distinct where none is reported as declared again. -/
theorem names_nodup_of_not_reported
    (unreported : ∀ report ∈ (module config source).diagnostics, ∀ typeName,
      report.kind ≠ .duplicateDeclaration typeName) :
    (source.declarations.map Declaration.name).Nodup := by
  rw [← SymbolTable.duplicates_ofDeclarations_eq_nil_iff, List.eq_nil_iff_forall_not_mem]
  intro typeName again
  have reported : ⟨typeName, .duplicateDeclaration typeName⟩ ∈
      (module config source).diagnostics := by
    rw [module_diagnostics, List.append_assoc]
    exact List.mem_append_left _ (List.mem_map_of_mem again)
  exact unreported _ reported typeName rfl

theorem module_binding_names :
    (module config source).bindings.map Binding.name =
      (source.declarations.map Declaration.name).map decoderName := by
  rw [module_bindings, List.map_map, List.map_map]
  rfl

/-- A decoder is named as something that is imported only if its type has no name, and then as the
type of decoders. -/
theorem decoderName_mem_imported_iff (typeName : String) :
    decoderName typeName ∈ (module config source).imported ↔
      (∃ binding ∈ (module config source).bindings, binding.isInitialized = true) ∧
        typeName = "" := by
  have builtins : decoderName typeName ∉
      if config.namedImports then (module config source).usage.names else [libraryName] := by
    split
    · intro inside
      obtain ⟨builtin, _, same⟩ := List.mem_map.mp inside
      exact decoderName_ne_builtinName typeName builtin same.symm
    · intro inside
      exact decoderName_ne_libraryName typeName (List.mem_singleton.mp inside)
  rw [module_imported, List.mem_append, or_iff_left builtins, ← List.any_eq_true]
  split
  · next some => rw [List.mem_singleton, decoderName_eq_decoderType_iff, and_iff_right some]
  · next none => exact iff_of_false List.not_mem_nil fun both => none both.1

/-- Types with different names have bindings with different names unless two of them have the same
stem. -/
theorem bindings_nodup_iff (names : (source.declarations.map Declaration.name).Nodup) :
    ((module config source).bindings.map Binding.name).Nodup ↔
      ∀ one ∈ source.declarations, ∀ other ∈ source.declarations,
        decoderStem one.name = decoderStem other.name → one.name = other.name := by
  rw [module_binding_names, List.nodup_map_iff_inj_on names]
  simp only [List.forall_mem_map, decoderName_eq_iff]

/-- No import brings in the name of a binding unless a type has no name. -/
theorem bindings_apart_iff :
    (∀ binding ∈ (module config source).bindings,
        binding.name ∉ (module config source).imported) ↔
      ((∃ binding ∈ (module config source).bindings, binding.isInitialized = true) →
        ∀ declaration ∈ source.declarations, declaration.name ≠ "") := by
  rw [module_bindings, List.forall_mem_map, ← module_bindings]
  simp only [Declaration.binding, decoderName_mem_imported_iff, not_and]
  constructor
  · exact fun each some declaration inside => each declaration inside some
  · exact fun each declaration inside some => each some declaration inside

/-- Where no type is reported as declared again, every name at the top of a module is introduced
once just when the decoders of different types have different names, and a module in which some
binding has a decoder has no type without a name. It is so if the names of all types begin with
capitals. -/
theorem module_introduces_once
    (unreported : ∀ report ∈ (module config source).diagnostics, ∀ typeName,
      report.kind ≠ .duplicateDeclaration typeName) :
    ((module config source).IntroducesOnce ↔
      (∀ one ∈ source.declarations, ∀ other ∈ source.declarations,
        decoderStem one.name = decoderStem other.name → one.name = other.name) ∧
      ((∃ binding ∈ (module config source).bindings, binding.isInitialized = true) →
        ∀ declaration ∈ source.declarations, declaration.name ≠ "")) ∧
    ((∀ declaration ∈ source.declarations, IsCapitalized declaration.name) →
      (module config source).IntroducesOnce) := by
  have distinct := bindings_nodup_iff config source
    (names_nodup_of_not_reported config source unreported)
  have apart := bindings_apart_iff config source
  constructor
  · constructor
    · exact fun once => ⟨distinct.mp once.distinct, apart.mp once.apart⟩
    · exact fun both => ⟨distinct.mpr both.1, apart.mpr both.2⟩
  · intro capitalized
    constructor
    · apply distinct.mpr
      intro one inside other present same
      exact decoderStem_inj_of_capitalized (capitalized one inside) (capitalized other present) same
    · apply apart.mpr
      intro _ declaration inside
      exact (capitalized declaration inside).ne_empty

/-- Names that differ in more than the case of their first characters. -/
theorem module_introduces_once_mixed :
    (module ⟨none, true⟩
      ⟨[⟨"Item", .primitive .string⟩, ⟨"items", .array (.reference "Item")⟩]⟩).IntroducesOnce := by
  have once := module_introduces_once ⟨none, true⟩
    ⟨[⟨"Item", .primitive .string⟩, ⟨"items", .array (.reference "Item")⟩]⟩ (by
      have none : (module ⟨none, true⟩ ⟨[⟨"Item", .primitive .string⟩,
          ⟨"items", .array (.reference "Item")⟩]⟩).diagnostics = [] := rfl
      simp [none])
  exact once.1.mpr ⟨by decide, by decide⟩

/-- Nothing is reported of two types whose decoders have the same name, nor of a type without a
name, whose decoder is named as the type of decoders. -/
theorem module_introduces_twice :
    ((module ⟨none, false⟩
        ⟨[⟨"Foo", .primitive .string⟩, ⟨"foo", .primitive .number⟩]⟩).diagnostics = [] ∧
      ¬ (module ⟨none, false⟩
        ⟨[⟨"Foo", .primitive .string⟩, ⟨"foo", .primitive .number⟩]⟩).IntroducesOnce) ∧
    (module ⟨none, false⟩ ⟨[⟨"", .primitive .string⟩]⟩).diagnostics = [] ∧
      ¬ (module ⟨none, false⟩ ⟨[⟨"", .primitive .string⟩]⟩).IntroducesOnce := by
  constructor
  · refine ⟨rfl, fun once => ?_⟩
    have distinct : ["fooDecoder", "fooDecoder"].Nodup := once.distinct
    exact absurd distinct (by decide)
  · refine ⟨rfl, fun once => ?_⟩
    have apart : "Decoder" ∉ ["Decoder", "decoders"] := once.apart _ List.mem_cons_self
    exact apart List.mem_cons_self

end Generate

end DecoderForge
