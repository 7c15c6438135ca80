/-
This file proves how the texts of JSON values are put together, and that the parts of a value nest
less deep than the value.
-/

import DecoderForge.Json.Cursor
import DecoderForge.Json.Printer

namespace DecoderForge

namespace Json

/-- A value in which no number stands. -/
inductive Numberless : Json → Prop
  | null : Numberless .null
  | bool (b : Bool) : Numberless (.bool b)
  | str (s : String) : Numberless (.str s)
  | arr (items : List Json) (each : ∀ item ∈ items, Numberless item) : Numberless (.arr items)
  | obj (entries : List (String × Json)) (each : ∀ entry ∈ entries, Numberless entry.2) :
    Numberless (.obj entries)

@[simp] theorem numberless_null : Json.null.Numberless := .null

@[simp] theorem numberless_str (s : String) : (Json.str s).Numberless := .str s

@[simp] theorem numberless_arr_iff {items : List Json} :
    (Json.arr items).Numberless ↔ ∀ item ∈ items, item.Numberless := by
  refine ⟨fun numberless => ?_, .arr items⟩
  cases numberless with
  | arr _ each => exact each

@[simp] theorem numberless_obj_iff {entries : List (String × Json)} :
    (Json.obj entries).Numberless ↔ ∀ entry ∈ entries, entry.2.Numberless := by
  refine ⟨fun numberless => ?_, .obj entries⟩
  cases numberless with
  | obj _ each => exact each

/-- The text of a value begins with a character that is neither blank nor the end of a list. -/
theorem Numberless.compactChars_head {value : Json} (numberless : value.Numberless) :
    ∃ c rest, value.compactChars = c :: rest ∧ Cursor.isBlank c = false ∧ c ≠ ']' := by
  cases numberless with
  | bool b => cases b <;> exact ⟨_, _, rfl, by decide, by decide⟩
  | _ => exact ⟨_, _, rfl, by decide, by decide⟩

/-- Items have a comma before all but the first. -/
theorem compactItems_cons (item : Json) (rest : List Json) :
    compactItems (item :: rest) =
      item.compactChars ++ rest.flatMap fun item => ',' :: item.compactChars := by
  induction rest generalizing item with
  | nil => simp [compactItems]
  | cons next rest ih => rw [compactItems, ih, List.flatMap_cons, List.cons_append]

/-- The text of a key and its value. -/
def entryChars (entry : String × Json) : List Char :=
  quoteChars entry.1 ++ ':' :: entry.2.compactChars

/-- Entries have a comma before all but the first. -/
theorem compactEntries_cons (entry : String × Json) (rest : List (String × Json)) :
    compactEntries (entry :: rest) =
      entryChars entry ++ rest.flatMap fun entry => ',' :: entryChars entry := by
  induction rest generalizing entry with
  | nil => simp [compactEntries, entryChars]
  | cons next rest ih =>
    rw [compactEntries, ih, List.flatMap_cons]
    simp only [entryChars, List.append_assoc, List.cons_append]

theorem depth_le_depthItems {items : List Json} {item : Json} (inside : item ∈ items) :
    item.depth ≤ depthItems items := by
  induction items with
  | nil => contradiction
  | cons first rest ih =>
    rw [depthItems]
    rcases List.mem_cons.mp inside with rfl | later
    · exact Nat.le_max_left _ _
    · exact Nat.le_trans (ih later) (Nat.le_max_right _ _)

theorem depth_le_depthEntries {entries : List (String × Json)} {entry : String × Json}
    (inside : entry ∈ entries) : entry.2.depth ≤ depthEntries entries := by
  induction entries with
  | nil => contradiction
  | cons first rest ih =>
    rw [depthEntries]
    rcases List.mem_cons.mp inside with rfl | later
    · exact Nat.le_max_left _ _
    · exact Nat.le_trans (ih later) (Nat.le_max_right _ _)

end Json

end DecoderForge
