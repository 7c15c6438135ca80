/-
This file proves how the text of a generated module ends: with one end of a line, unless the module
has no items at all.
-/

import DecoderForge.Proofs.Module.Layout
import DecoderForge.TypeScript.Printer

namespace DecoderForge

namespace TypeScript

/-- A text ends with exactly one end of a line: before the last character, which is one, stands a
character that is none. -/
def EndsOnce (text : String) : Prop :=
  ∃ before last, last ≠ '\n' ∧ text.toList = before ++ [last, '\n']

/-- Every import and every binding ends with a semicolon. -/
theorem exists_itemChars_eq (owner : Option String) {item : ModuleItem} (filled : item ≠ .blank) :
    ∃ before, itemChars owner item = before ++ [';'] := by
  cases item with
  | blank => contradiction
  | importing what => cases what <;> exact ⟨_, rfl⟩
  | declaration binding =>
    obtain ⟨name, type, expr⟩ := binding
    cases expr <;> exact ⟨_, rfl⟩

/-- A module ends with the line of its last item. -/
theorem endsOnce_render {m : GeneratedModule} {item : ModuleItem}
    (last : m.items.getLast? = some item) (filled : item ≠ .blank) : EndsOnce (render m) := by
  obtain ⟨items, split⟩ := List.getLast?_eq_some_iff.mp last
  obtain ⟨before, line⟩ := exists_itemChars_eq m.alias? filled
  refine ⟨(items.flatMap fun item => itemChars m.alias? item ++ ['\n']) ++ before, ';',
    by decide, ?_⟩
  rw [render, String.toList_ofList, moduleChars, split, List.flatMap_append, List.flatMap_singleton,
    line, List.append_assoc, List.append_assoc]
  rfl

theorem not_endsOnce_empty : ¬ EndsOnce "" := by
  rintro ⟨before, last, _, chars⟩
  exact absurd (congrArg List.length chars) (by simp)

end TypeScript

namespace Generate

theorem layout_eq_nil_iff (imports : List Import) (bindings : List Binding) :
    layout imports bindings = [] ↔ imports = [] ∧ bindings = [] := by
  rw [layout, List.append_eq_nil_iff, List.map_eq_nil_iff]
  refine and_congr_right fun none => ?_
  rw [none]
  cases bindings with
  | nil => exact iff_of_true rfl rfl
  | cons binding rest => exact iff_of_false (List.cons_ne_nil _ _) (List.cons_ne_nil _ _)

/-- A module has no items when there is nothing to bind and nothing is imported whether it is used
or not. -/
theorem module_items_eq_nil_iff (config : CompileConfig) (source : SourceModule) :
    (module config source).items = [] ↔
      source.declarations = [] ∧ config.namedImports = true := by
  rw [module_items, layout_eq_nil_iff, module_bindings, List.map_eq_nil_iff, and_comm]
  refine and_congr_right fun none => ?_
  obtain ⟨declarations⟩ := source
  obtain rfl : declarations = [] := none
  have bindings : (module config ⟨[]⟩).bindings = [] := module_bindings config ⟨[]⟩
  have usage : (module config ⟨[]⟩).usage = .empty := rfl
  rw [module_imports, bindings, usage, imports]
  cases config.namedImports with
  | false => exact iff_of_false (List.cons_ne_nil _ _) Bool.false_ne_true
  | true => exact iff_of_true rfl rfl

/-- The text of a module ends with exactly one end of a line just when the module declares something
or imports all builtins as members of a name. -/
theorem module_ends_once (config : CompileConfig) (source : SourceModule) :
    TypeScript.EndsOnce (TypeScript.render (module config source)) ↔
      source.declarations ≠ [] ∨ config.namedImports = false := by
  rw [← Bool.not_eq_true, ← not_and_or, ← module_items_eq_nil_iff]
  constructor
  · rintro ends none
    rw [TypeScript.render, TypeScript.moduleChars, none] at ends
    exact TypeScript.not_endsOnce_empty ends
  · intro some
    obtain ⟨item, last⟩ := Option.isSome_iff_exists.mp (List.getLast?_isSome.mpr some)
    refine TypeScript.endsOnce_render last ?_
    rintro rfl
    rw [module_items] at last
    exact getLast?_layout_ne _ _ last

/-- A module that declares nothing and would import builtins one by one is written as nothing. -/
theorem module_of_nothing_is_empty :
    TypeScript.render (module ⟨none, true⟩ ⟨[]⟩) = "" ∧
      ¬ TypeScript.EndsOnce (TypeScript.render (module ⟨none, true⟩ ⟨[]⟩)) := by
  have empty : TypeScript.render (module ⟨none, true⟩ ⟨[]⟩) = "" := rfl
  rw [empty]
  exact ⟨rfl, TypeScript.not_endsOnce_empty⟩

end Generate

end DecoderForge
