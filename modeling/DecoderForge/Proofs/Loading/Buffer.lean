/-
This file proves what is loaded from buffered values that are written in their usual form: records
as objects, with the tag before all other entries.
-/

import DecoderForge.Loading.TagAndContent
import DecoderForge.Proofs.Loading.Result

namespace DecoderForge.Loading

variable {α β τ : Type}

namespace Buffer

/-- A list is loaded if each of its items is. -/
theorem list_of_each {load : Json → Except Cause α} {write : α → Json} {elements : List α}
    (each : ∀ element ∈ elements, load (write element) = .ok element) :
    list load (.arr (elements.map write)) = .ok elements := by
  rw [list, mapM_eq_ok_iff, List.forall₂_map_left_iff, List.forall₂_same]
  exact each

theorem variant_of_lookup {names : List (String × τ)} {name : String} {v : τ}
    (found : names.lookup name = some v) (other : Option τ) :
    variant names other (.str name) = .ok v := by
  simp only [variant, found, Option.some_or]

theorem choice_of_lookup {names : List (String × τ)} {name : String} {v : τ}
    (found : names.lookup name = some v) : choice names (.str name) = .ok v :=
  variant_of_lookup found none

/-- Behind the tag all entries are kept. -/
theorem tagEntries_of_fresh (key : String) (tag : Json → Except Cause τ)
    {pairs : List (String × Json)} (fresh : key ∉ pairs.map Prod.fst) (found : τ) :
    tagEntries key tag pairs (some found) = .ok (found, pairs) := by
  induction pairs with
  | nil => rfl
  | cons pair rest ih =>
    rw [List.map_cons, List.mem_cons, not_or] at fresh
    rw [tagEntries, if_neg (Ne.symm fresh.1), ih fresh.2]
    rfl

/-- A value with its tag first is told by the tag, and the other entries are kept. -/
theorem tagged_of_lookup (title : String) {key name : String} {names : List (String × τ)} {v : τ}
    {others : List (String × Json)} (found : names.lookup name = some v)
    (fresh : key ∉ others.map Prod.fst) (other : Option τ) :
    tagged title key (variant names other) (.obj ((key, .str name) :: others)) =
      .ok (v, .obj others) := by
  rw [tagged, tagEntries, if_pos rfl, variant_of_lookup found]
  simp [Except.bind, tagEntries_of_fresh key _ fresh, Except.map]

/-- A record with one field is loaded from its only entry. -/
theorem single_of_entry (key : String) (record listed : Expected) (load : Json → Except Cause α)
    (value : Json) : single key record listed load (.obj [(key, value)]) = load value := by
  simp only [single, entries, Columns.one, if_true, Option.isSome_none]
  cases load value <;> rfl

/-- A record with two fields is loaded from an entry for each of them. -/
theorem double_of_entries {key key' : String} (different : key ≠ key') (record listed : Expected)
    {load : Json → Except Cause α} {load' : Json → Except Cause β} {value value' : Json} {a : α}
    {b : β} (first : load value = .ok a) (second : load' value' = .ok b) :
    double key key' record listed load load' (.obj [(key, value), (key', value')]) =
      .ok (a, b) := by
  simp only [double, entries, Columns.and, Columns.one, if_true, Option.isSome_none,
    Option.some_or, Option.isSome_some, first, Except.map, Except.bind,
    if_neg (Ne.symm different), if_neg different, Option.none_or, second]
  rfl

/-- A content behind its tag is loaded as the tag says. -/
theorem tagAndContent_of_entries {shape : TagAndContent} {names : List (String × τ)}
    {loader : ContentLoader Json Cause τ α} {name : String} {v : τ} {value : Json} {a : α}
    (different : shape.contentKey ≠ shape.tagKey) (found : names.lookup name = some v)
    (content : loader.content v value = .ok a) :
    tagAndContent shape names loader
      (.obj [(shape.tagKey, .str name), (shape.contentKey, value)]) = .ok a := by
  simp only [tagAndContent, tagAndContentEntries, if_true, choice_of_lookup found, Except.bind,
    if_neg different, content]
  rfl

end Buffer

end DecoderForge.Loading
