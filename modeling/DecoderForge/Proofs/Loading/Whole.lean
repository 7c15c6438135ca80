/-
This file proves what readers make of documents that are whole, with nothing wrong in them, whether
they are texts or values.
-/

import DecoderForge.Loading.Reader
import DecoderForge.Proofs.Loading.Result

namespace DecoderForge.Loading

open Json (Document Item Entry Ending)

variable {α τ : Type}

/-- A document is whole, and this is its value. -/
def Holds (document : Document) (value : Json) : Prop := Reader.buffer document = .ok value

/-- The items of a list are whole. -/
def HoldItems : List Item → List Json → Prop :=
  List.Forall₂ fun item value => Holds item.value value

/-- The entries of an object are whole. -/
def HoldEntries : List Entry → List (String × Json) → Prop :=
  List.Forall₂ fun entry pair => entry.key = pair.1 ∧ Holds entry.value pair.2

/-- The first of whole entries. -/
theorem HoldEntries.exists_cons {entries : List Entry} {key : String} {value : Json}
    {pairs : List (String × Json)} (held : HoldEntries entries ((key, value) :: pairs)) :
    ∃ entry rest, entries = entry :: rest ∧ entry.key = key ∧ Holds entry.value value ∧
      HoldEntries rest pairs := by
  obtain ⟨entry, rest, ⟨same, holds⟩, later, rfl⟩ := List.forall₂_cons_right_iff.mp held
  exact ⟨entry, rest, rfl, same, holds, later⟩

theorem HoldEntries.eq_nil {entries : List Entry} (held : HoldEntries entries []) : entries = [] :=
  List.forall₂_nil_right_iff.mp held

namespace Reader

/-- A list is whole when it ends as it should and its items are whole. -/
theorem bufferItems_eq_ok_iff (i : Nat) (ending : Ending) (items : List Item)
    (values : List Json) :
    bufferItems i ending items = .ok values ↔
      endingFailure ending = none ∧ HoldItems items values := by
  refine collect_eq_ok_iff (fun i => bufferItems i ending) ?_ ?_ i items values
  · intro i values
    rw [bufferItems]
    cases endingFailure ending <;> simp [eq_comm]
  · intro i item rest values
    have step : bufferItems i ending (item :: rest) =
        ((buffer item.value).mapError (Failure.within (.index i))).bind fun value =>
          (bufferItems (i + 1) ending rest).map (value :: ·) := by
      rw [bufferItems]
      cases (buffer item.value).mapError (Failure.within (.index i)) <;> rfl
    simp [step, Holds]

/-- An object is whole when it ends as it should and its entries are whole. -/
theorem bufferEntries_eq_ok_iff (ending : Ending) (entries : List Entry)
    (pairs : List (String × Json)) :
    bufferEntries ending entries = .ok pairs ↔
      endingFailure ending = none ∧ HoldEntries entries pairs := by
  refine collect_eq_ok_iff (fun _ => bufferEntries ending) ?_ ?_ 0 entries pairs
  · intro _ pairs
    rw [bufferEntries]
    cases endingFailure ending <;> simp [eq_comm]
  · intro _ entry rest pairs
    have step : bufferEntries ending (entry :: rest) =
        ((buffer entry.value).mapError (withinValue entry.key entry.value)).bind fun value =>
          (bufferEntries ending rest).map ((entry.key, value) :: ·) := by
      rw [bufferEntries]
      cases (buffer entry.value).mapError (withinValue entry.key entry.value) <;> rfl
    simp [step, Holds]

end Reader

theorem holds_list_iff {start opened : Option Nat} {items : List Item} {ending : Ending}
    {value : Json} :
    Holds (.list start opened items ending) value ↔
      ∃ values, (Reader.endingFailure ending = none ∧ HoldItems items values) ∧
        .arr values = value := by
  simp only [Holds, Reader.buffer, Except.map_eq_ok_iff, Reader.bufferItems_eq_ok_iff]

theorem holds_object_iff {start opened : Option Nat} {entries : List Entry} {ending : Ending}
    {value : Json} :
    Holds (.object start opened entries ending) value ↔
      ∃ pairs, (Reader.endingFailure ending = none ∧ HoldEntries entries pairs) ∧
        .obj pairs = value := by
  simp only [Holds, Reader.buffer, Except.map_eq_ok_iff, Reader.bufferEntries_eq_ok_iff]

mutual

/-- A value is whole as a document. -/
theorem holds_ofJson : (value : Json) → Holds (.ofJson value) value
  | .null | .bool _ | .num _ | .str _ => rfl
  | .arr items => holds_list_iff.mpr ⟨items, ⟨rfl, holdItems_ofJson items⟩, rfl⟩
  | .obj entries => holds_object_iff.mpr ⟨entries, ⟨rfl, holdEntries_ofJson entries⟩, rfl⟩

theorem holdItems_ofJson : (items : List Json) → HoldItems (Document.itemsOfJson items) items
  | [] => .nil
  | item :: rest => .cons (holds_ofJson item) (holdItems_ofJson rest)

theorem holdEntries_ofJson : (entries : List (String × Json)) →
    HoldEntries (Document.entriesOfJson entries) entries
  | [] => .nil
  | (_, value) :: rest => .cons ⟨rfl, holds_ofJson value⟩ (holdEntries_ofJson rest)

end

namespace Holds

variable {document : Document}

/-- A document that holds a text is the text. -/
theorem text {s : String} (holds : Holds document (.str s)) :
    ∃ start stop, document = .atom (.str s) start stop := by
  cases document with
  | atom value start stop =>
    cases value with
    | str other =>
      obtain rfl : other = s := by simpa [Holds, Reader.buffer, Json.Atom.toJson] using holds
      exact ⟨start, stop, rfl⟩
    | _ => simp [Holds, Reader.buffer, Json.Atom.toJson] at holds
  | list => simp [holds_list_iff] at holds
  | object => simp [holds_object_iff] at holds
  | _ => simp [Holds, Reader.buffer] at holds

/-- A document that holds a list has its items. -/
theorem list {values : List Json} (holds : Holds document (.arr values)) :
    ∃ start opened items ending, document = .list start opened items ending ∧
      Reader.endingFailure ending = none ∧ HoldItems items values := by
  cases document with
  | atom value => cases value <;> simp [Holds, Reader.buffer, Json.Atom.toJson] at holds
  | list start opened items ending =>
    obtain ⟨_, ⟨whole, held⟩, same⟩ := holds_list_iff.mp holds
    obtain rfl := Json.arr.inj same
    exact ⟨start, opened, items, ending, rfl, whole, held⟩
  | object => simp [holds_object_iff] at holds
  | _ => simp [Holds, Reader.buffer] at holds

/-- A document that holds an object has its entries. -/
theorem object {pairs : List (String × Json)} (holds : Holds document (.obj pairs)) :
    ∃ start opened entries ending, document = .object start opened entries ending ∧
      Reader.endingFailure ending = none ∧ HoldEntries entries pairs := by
  cases document with
  | atom value => cases value <;> simp [Holds, Reader.buffer, Json.Atom.toJson] at holds
  | list => simp [holds_list_iff] at holds
  | object start opened entries ending =>
    obtain ⟨_, ⟨whole, held⟩, same⟩ := holds_object_iff.mp holds
    obtain rfl := Json.obj.inj same
    exact ⟨start, opened, entries, ending, rfl, whole, held⟩
  | _ => simp [Holds, Reader.buffer] at holds

end Holds

namespace Reader

variable {document : Document}

theorem text_of_holds {s : String} (holds : Holds document (.str s)) :
    Reader.text document = .ok s := by
  obtain ⟨start, stop, rfl⟩ := holds.text
  rfl

/-- A list is loaded when it ends as it should and its items are loaded. -/
theorem items_eq_ok_iff (load : Loader α) (ending : Ending) (i : Nat) (items : List Item)
    (elements : List α) :
    Reader.items load ending i items = .ok elements ↔
      endingFailure ending = none ∧
        List.Forall₂ (fun item element => load item.value = .ok element) items elements := by
  refine collect_eq_ok_iff (Reader.items load ending) ?_ ?_ i items elements
  · intro i elements
    rw [Reader.items]
    cases endingFailure ending <;> simp [eq_comm]
  · intro i item rest elements
    have step : Reader.items load ending i (item :: rest) =
        ((load item.value).mapError (inItem i item)).bind fun element =>
          (Reader.items load ending (i + 1) rest).map (element :: ·) := by
      rw [Reader.items]
      cases (load item.value).mapError (inItem i item) <;> rfl
    simp [step]

/-- A list that is whole is loaded if each of its items is. -/
theorem list_of_holds {load : Loader α} {write : α → Json} {elements : List α}
    (each : ∀ element ∈ elements, ∀ document, Holds document (write element) →
      load document = .ok element)
    (holds : Holds document (.arr (elements.map write))) : list load document = .ok elements := by
  obtain ⟨start, opened, items, ending, rfl, whole, held⟩ := holds.list
  have written := (List.forall₂_map_right_iff.mp held).flip
  have loaded := (List.forall₂_and_left _ _ ).mpr ⟨each, written⟩
  refine (items_eq_ok_iff load ending 0 items elements).mpr ⟨whole, loaded.flip.imp ?_⟩
  intro item element both
  exact both.1 item.value both.2

theorem variant_of_holds {names : List (String × τ)} {other : Option τ} {name : String} {v : τ}
    (found : names.lookup name = some v) (holds : Holds document (.str name)) :
    variant names other document = .ok v := by
  obtain ⟨start, stop, rfl⟩ := holds.text
  simp only [variant, found, Option.some_or]

/-- Behind the tag all entries are kept. -/
theorem tagEntries_of_held (key : String) (tag : Loader τ) {ending : Ending}
    {entries : List Entry} {pairs : List (String × Json)} (whole : endingFailure ending = none)
    (held : HoldEntries entries pairs) (fresh : key ∉ pairs.map Prod.fst) (found : τ) :
    tagEntries key tag ending entries (some found) = .ok (found, pairs) := by
  induction held with
  | nil => simp only [tagEntries, whole]
  | @cons entry pair rest others here _ ih =>
    obtain ⟨same, value⟩ := here
    rw [List.map_cons, List.mem_cons, not_or] at fresh
    have different : ¬ entry.key = key := fun equal => fresh.1 (equal.symm.trans same)
    change buffer entry.value = .ok pair.2 at value
    rw [tagEntries, if_neg different, value]
    simp only [Except.mapError, ih fresh.2, Except.map, same]

/-- A value with its tag first is told by the tag, and the other entries are kept. -/
theorem tagged_of_holds (title : String) {key name : String} {names : List (String × τ)}
    {other : Option τ} {v : τ} {others : List (String × Json)}
    (found : names.lookup name = some v) (fresh : key ∉ others.map Prod.fst)
    (holds : Holds document (.obj ((key, .str name) :: others))) :
    tagged title key (variant names other) document = .ok (v, .obj others) := by
  obtain ⟨start, opened, entries, ending, rfl, whole, held⟩ := holds.object
  obtain ⟨entry, rest, rfl, same, value, later⟩ := held.exists_cons
  rw [tagged, tagEntries, if_pos same, variant_of_holds found value]
  simp [Except.mapError, tagEntries_of_held key _ whole later fresh, Except.map]

end Reader

end DecoderForge.Loading
