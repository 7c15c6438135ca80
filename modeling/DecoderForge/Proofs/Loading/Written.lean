/-
This file proves that a value that is written as text without blanks is read back from the text. It
is about values without numbers, which is what modules of decoders are written as: a number in them
is a text.
-/

import DecoderForge.Proofs.Json.Compact
import DecoderForge.Proofs.Json.StringToken
import DecoderForge.Proofs.Loading.Whole

namespace DecoderForge

namespace Loading

open Json

theorem skipBlank_of_solid {c : Char} (solid : Cursor.isBlank c = false) (rest : List Char)
    (offset : Nat) : Cursor.skipBlank ⟨c :: rest, offset⟩ = ⟨c :: rest, offset⟩ := by
  simp [Cursor.skipBlank, solid]

/-- A reader comes upon the text of a value, whatever follows it, and stops behind it with a whole
document. -/
def ReadsBack (read : Cursor → Document × Option Cursor) (value : Json) : Prop :=
  ∀ offset rest, ∃ document stop,
    read ⟨value.compactChars ++ rest, offset⟩ = (document, some ⟨rest, stop⟩) ∧
      Holds document value

/-- What is read behind the bracket of a list: whole items, and the cursor behind the list. -/
def EndsList (result : List Item × Ending × Option Cursor) (items : List Json)
    (rest : List Char) : Prop :=
  Reader.endingFailure result.2.1 = none ∧ HoldItems result.1 items ∧
    ∃ stop, result.2.2 = some ⟨rest, stop⟩

theorem readItems_close (read : Cursor → Document × Option Cursor) (fuel : Nat) (first : Bool)
    (offset : Nat) (rest : List Char) :
    EndsList (readItems read (fuel + 1) first ⟨']' :: rest, offset⟩) [] rest := by
  have solid : Cursor.isBlank ']' = false := by decide
  simp only [readItems, nextItem, skipBlank_of_solid solid, if_true]
  exact ⟨rfl, .nil, _, rfl⟩

section

variable {item : Json} (numberless : item.Numberless) (offset : Nat) (behind : List Char)

include numberless

theorem nextItem_first :
    nextItem true ⟨item.compactChars ++ behind, offset⟩ =
      .ok ⟨item.compactChars ++ behind, offset⟩ := by
  obtain ⟨c, chars, begins, solid, inside⟩ := numberless.compactChars_head
  rw [begins, List.cons_append]
  simp only [nextItem, skipBlank_of_solid solid, if_neg inside, if_true]

theorem nextItem_later :
    nextItem false ⟨',' :: (item.compactChars ++ behind), offset⟩ =
      .ok ⟨item.compactChars ++ behind, offset + 1⟩ := by
  obtain ⟨c, chars, begins, solid, inside⟩ := numberless.compactChars_head
  have comma : Cursor.isBlank ',' = false := by decide
  have other : ¬ ',' = ']' := by decide
  rw [begins, List.cons_append]
  simp only [nextItem, skipBlank_of_solid comma, if_neg other, Bool.false_eq_true,
    if_false, if_true, Cursor.skip, List.drop_succ_cons, List.drop_zero,
    skipBlank_of_solid solid, if_neg inside]

end

section

variable {read : Cursor → Document × Option Cursor}

/-- An item that is read is put before those behind it. -/
theorem readItems_step {fuel : Nat} {first : Bool} {cursor start : Cursor} {item : Json}
    {items : List Json} {behind rest : List Char}
    (next : nextItem first cursor = .ok start)
    (begins : start.chars = item.compactChars ++ behind) (reads : ReadsBack read item)
    (others : ∀ offset, EndsList (readItems read fuel false ⟨behind, offset⟩) items rest) :
    EndsList (readItems read (fuel + 1) first cursor) (item :: items) rest := by
  obtain ⟨chars, offset⟩ := start
  obtain rfl : chars = item.compactChars ++ behind := begins
  obtain ⟨document, stop, here, holds⟩ := reads offset behind
  obtain ⟨whole, held, last⟩ := others stop
  simp only [readItems, next, here]
  exact ⟨whole, .cons holds held, last⟩

/-- The items behind the first one are read, each behind its comma. -/
theorem readItems_later {items : List Json} (numberless : ∀ item ∈ items, item.Numberless)
    (reads : ∀ item ∈ items, ReadsBack read item) {fuel : Nat} (enough : items.length < fuel)
    (offset : Nat) (rest : List Char) :
    EndsList (readItems read fuel false
      ⟨(items.flatMap fun item => ',' :: item.compactChars) ++ ']' :: rest, offset⟩)
      items rest := by
  induction items generalizing fuel offset with
  | nil =>
    obtain ⟨fuel, rfl⟩ := Nat.exists_eq_add_one_of_ne_zero (Nat.ne_zero_of_lt enough)
    exact readItems_close read fuel false offset rest
  | cons item items ih =>
    obtain ⟨fuel, rfl⟩ := Nat.exists_eq_add_one_of_ne_zero (Nat.ne_zero_of_lt enough)
    obtain ⟨plain, others⟩ := List.forall_mem_cons.mp numberless
    obtain ⟨here, later⟩ := List.forall_mem_cons.mp reads
    rw [List.flatMap_cons, List.append_assoc, List.cons_append]
    apply readItems_step (nextItem_later plain offset _) rfl here
    intro stop
    exact ih others later (Nat.lt_of_succ_lt_succ enough) stop

/-- The items of a list that is written are read back. -/
theorem readItems_written {items : List Json} (numberless : ∀ item ∈ items, item.Numberless)
    (reads : ∀ item ∈ items, ReadsBack read item) {fuel : Nat} (enough : items.length < fuel)
    (offset : Nat) (rest : List Char) :
    EndsList (readItems read fuel true ⟨compactItems items ++ ']' :: rest, offset⟩)
      items rest := by
  obtain ⟨fuel, rfl⟩ := Nat.exists_eq_add_one_of_ne_zero (Nat.ne_zero_of_lt enough)
  cases items with
  | nil => exact readItems_close read fuel true offset rest
  | cons item items =>
    obtain ⟨plain, others⟩ := List.forall_mem_cons.mp numberless
    obtain ⟨here, later⟩ := List.forall_mem_cons.mp reads
    rw [compactItems_cons, List.append_assoc]
    apply readItems_step (nextItem_first plain offset _) rfl here
    intro stop
    exact readItems_later others later (Nat.lt_of_succ_lt_succ enough) stop rest

end

/-- What is read behind the bracket of an object: whole entries, and the cursor behind the
object. -/
def EndsObject (result : List Entry × Ending × Option Cursor) (entries : List (String × Json))
    (rest : List Char) : Prop :=
  Reader.endingFailure result.2.1 = none ∧ HoldEntries result.1 entries ∧
    ∃ stop, result.2.2 = some ⟨rest, stop⟩

theorem readEntries_close (read : Cursor → Document × Option Cursor) (fuel : Nat) (first : Bool)
    (offset : Nat) (rest : List Char) :
    EndsObject (readEntries read (fuel + 1) first ⟨'\x7d' :: rest, offset⟩) [] rest := by
  have solid : Cursor.isBlank '\x7d' = false := by decide
  simp only [readEntries, nextKey, skipBlank_of_solid solid, if_true]
  exact ⟨rfl, .nil, _, rfl⟩

/-- The rest of a string that is written, behind its first quotation mark. -/
theorem stringToken_written (s : String) (offset : Nat) (rest : List Char) :
    ∃ stop, stringToken .keep ⟨s.toList.flatMap escapeChar ++ '"' :: rest, offset⟩ =
      .ok (s, ⟨rest, stop⟩) := by
  obtain ⟨stop, read⟩ := stringFrom_written offset rest s.toList
  refine ⟨stop, ?_⟩
  simp only [stringToken, read, Except.map, String.ofList_toList]

theorem quoteChars_append (s : String) (rest : List Char) :
    quoteChars s ++ rest = '"' :: (s.toList.flatMap escapeChar ++ '"' :: rest) := by
  simp [quoteChars]

/-- A key that is written is read up to its colon. -/
theorem nextKey_first (key : String) (offset : Nat) (behind : List Char) :
    ∃ stop, nextKey true ⟨quoteChars key ++ behind, offset⟩ = .ok (key, ⟨behind, stop⟩) := by
  obtain ⟨stop, read⟩ := stringToken_written key (offset + 1) behind
  have solid : Cursor.isBlank '"' = false := by decide
  have other : ¬ '"' = '\x7d' := by decide
  refine ⟨stop, ?_⟩
  rw [quoteChars_append]
  simp only [nextKey, skipBlank_of_solid solid, if_neg other, if_true, Cursor.skip,
    List.drop_succ_cons, List.drop_zero, read, Except.mapError]

theorem nextKey_later (key : String) (offset : Nat) (behind : List Char) :
    ∃ stop, nextKey false ⟨',' :: (quoteChars key ++ behind), offset⟩ =
      .ok (key, ⟨behind, stop⟩) := by
  obtain ⟨stop, read⟩ := stringToken_written key (offset + 1 + 1) behind
  have comma : Cursor.isBlank ',' = false := by decide
  have solid : Cursor.isBlank '"' = false := by decide
  have other : ¬ ',' = '\x7d' := by decide
  refine ⟨stop, ?_⟩
  rw [quoteChars_append]
  simp only [nextKey, skipBlank_of_solid comma, if_neg other, Bool.false_eq_true, if_false,
    if_true, Cursor.skip, List.drop_succ_cons, List.drop_zero, skipBlank_of_solid solid, read,
    Except.mapError]

theorem colon_written (offset : Nat) (behind : List Char) :
    colon ⟨':' :: behind, offset⟩ = .ok ⟨behind, offset + 1⟩ := by
  have solid : Cursor.isBlank ':' = false := by decide
  simp only [colon, skipBlank_of_solid solid, if_true, Cursor.skip, List.drop_succ_cons,
    List.drop_zero]

section

variable {read : Cursor → Document × Option Cursor}

/-- An entry that is read is put before those behind it. -/
theorem readEntries_step {fuel : Nat} {first : Bool} {cursor start : Cursor}
    {entry : String × Json} {entries : List (String × Json)} {behind rest : List Char}
    (next : nextKey first cursor = .ok (entry.1, start))
    (begins : start.chars = ':' :: (entry.2.compactChars ++ behind))
    (reads : ReadsBack read entry.2)
    (others : ∀ offset, EndsObject (readEntries read fuel false ⟨behind, offset⟩) entries rest) :
    EndsObject (readEntries read (fuel + 1) first cursor) (entry :: entries) rest := by
  obtain ⟨chars, offset⟩ := start
  obtain rfl : chars = ':' :: (entry.2.compactChars ++ behind) := begins
  obtain ⟨document, stop, here, holds⟩ := reads (offset + 1) behind
  obtain ⟨whole, held, last⟩ := others stop
  simp only [readEntries, next, colon_written, here]
  exact ⟨whole, .cons ⟨rfl, holds⟩ held, last⟩

/-- The entries behind the first one are read, each behind its comma. -/
theorem readEntries_later {entries : List (String × Json)}
    (reads : ∀ entry ∈ entries, ReadsBack read entry.2) {fuel : Nat}
    (enough : entries.length < fuel) (offset : Nat) (rest : List Char) :
    EndsObject (readEntries read fuel false
      ⟨(entries.flatMap fun entry => ',' :: entryChars entry) ++ '\x7d' :: rest, offset⟩)
      entries rest := by
  induction entries generalizing fuel offset with
  | nil =>
    obtain ⟨fuel, rfl⟩ := Nat.exists_eq_add_one_of_ne_zero (Nat.ne_zero_of_lt enough)
    exact readEntries_close read fuel false offset rest
  | cons entry entries ih =>
    obtain ⟨fuel, rfl⟩ := Nat.exists_eq_add_one_of_ne_zero (Nat.ne_zero_of_lt enough)
    obtain ⟨here, later⟩ := List.forall_mem_cons.mp reads
    rw [List.flatMap_cons, List.append_assoc, entryChars, List.cons_append, List.append_assoc,
      List.cons_append]
    obtain ⟨stop, next⟩ := nextKey_later entry.1 offset _
    apply readEntries_step next rfl here
    intro stop
    exact ih later (Nat.lt_of_succ_lt_succ enough) stop

/-- The entries of an object that is written are read back. -/
theorem readEntries_written {entries : List (String × Json)}
    (reads : ∀ entry ∈ entries, ReadsBack read entry.2) {fuel : Nat}
    (enough : entries.length < fuel) (offset : Nat) (rest : List Char) :
    EndsObject (readEntries read fuel true ⟨compactEntries entries ++ '\x7d' :: rest, offset⟩)
      entries rest := by
  obtain ⟨fuel, rfl⟩ := Nat.exists_eq_add_one_of_ne_zero (Nat.ne_zero_of_lt enough)
  cases entries with
  | nil => exact readEntries_close read fuel true offset rest
  | cons entry entries =>
    obtain ⟨here, later⟩ := List.forall_mem_cons.mp reads
    rw [compactEntries_cons, List.append_assoc, entryChars, List.append_assoc, List.cons_append]
    obtain ⟨stop, next⟩ := nextKey_first entry.1 offset _
    apply readEntries_step next rfl here
    intro stop
    exact readEntries_later later (Nat.lt_of_succ_lt_succ enough) stop rest

end

/-- Every part behind the first one has at least a comma. -/
theorem length_le_length_flatMap {α : Type} (parts : List α) (text : α → List Char) :
    parts.length ≤ (parts.flatMap fun part => ',' :: text part).length := by
  induction parts with
  | nil => exact Nat.le_refl _
  | cons part rest ih =>
    rw [List.flatMap_cons, List.length_append, List.length_cons, List.length_cons]
    omega

theorem length_le_length_compactItems (items : List Json) (rest : List Char) :
    items.length ≤ (compactItems items ++ ']' :: rest).length := by
  cases items with
  | nil => exact Nat.zero_le _
  | cons item items =>
    have later := length_le_length_flatMap items compactChars
    rw [compactItems_cons]
    simp only [List.length_append, List.length_cons]
    omega

theorem length_le_length_compactEntries (entries : List (String × Json)) (rest : List Char) :
    entries.length ≤ (compactEntries entries ++ '\x7d' :: rest).length := by
  cases entries with
  | nil => exact Nat.zero_le _
  | cons entry entries =>
    have later := length_le_length_flatMap entries entryChars
    rw [compactEntries_cons]
    simp only [List.length_append, List.length_cons]
    omega

/-- A value that is no container is read as an atom. -/
theorem readValue_atom {c : Char} (solid : Cursor.isBlank c = false)
    (single : Container.ofOpening? c = none) (levels : Nat) (rest : List Char) (offset : Nat) :
    readValue levels ⟨c :: rest, offset⟩ = readAtom ⟨c :: rest, offset⟩ := by
  unfold readValue
  simp only [skipBlank_of_solid solid, List.head?_cons, Option.bind_some, single]

theorem readAtom_str (s : String) (offset : Nat) (rest : List Char) :
    ∃ start stop behind, readAtom ⟨quoteChars s ++ rest, offset⟩ =
      (.atom (.str s) start stop, some ⟨rest, behind⟩) := by
  obtain ⟨stop, read⟩ := stringToken_written s (offset + 1) rest
  refine ⟨some offset, some stop, stop, ?_⟩
  have others : ¬ '"' = 'n' ∧ ¬ '"' = 't' ∧ ¬ '"' = 'f' := by decide
  rw [quoteChars_append]
  simp only [readAtom, if_neg others.1, if_neg others.2.1, if_neg others.2.2, if_true, Cursor.skip,
    List.drop_succ_cons, List.drop_zero, read]

/-- A list is whole when its items end as they should. -/
theorem readValue_list {levels : Nat} {chars rest : List Char} {offset : Nat} {items : List Json}
    (ends : EndsList (readItems (readValue levels) (chars.length + 2) true ⟨chars, offset + 1⟩)
      items rest) :
    ∃ document stop, readValue (levels + 1) ⟨'[' :: chars, offset⟩ = (document, some ⟨rest, stop⟩) ∧
      Holds document (.arr items) := by
  have solid : Cursor.isBlank '[' = false := by decide
  obtain ⟨whole, held, stop, last⟩ := ends
  have holds : Holds (.list (some offset) (some (endOfList ⟨chars, offset + 1⟩).1) _ _)
      (.arr items) := holds_list_iff.mpr ⟨items, ⟨whole, held⟩, rfl⟩
  refine ⟨_, stop, ?_, holds⟩
  unfold readValue
  simp only [skipBlank_of_solid solid]
  exact congrArg (Prod.mk _) last

/-- An object is whole when its entries end as they should. -/
theorem readValue_object {levels : Nat} {chars rest : List Char} {offset : Nat}
    {entries : List (String × Json)}
    (ends : EndsObject (readEntries (readValue levels) (chars.length + 2) true ⟨chars, offset + 1⟩)
      entries rest) :
    ∃ document stop, readValue (levels + 1) ⟨'\x7b' :: chars, offset⟩ =
        (document, some ⟨rest, stop⟩) ∧
      Holds document (.obj entries) := by
  have solid : Cursor.isBlank '\x7b' = false := by decide
  obtain ⟨whole, held, stop, last⟩ := ends
  have holds : Holds (.object (some offset) (some (endOfObject ⟨chars, offset + 1⟩)) _ _)
      (.obj entries) := holds_object_iff.mpr ⟨entries, ⟨whole, held⟩, rfl⟩
  refine ⟨_, stop, ?_, holds⟩
  unfold readValue
  simp only [skipBlank_of_solid solid]
  exact congrArg (Prod.mk _) last

/-- A value without numbers is read back from its text, unless it nests too deep. -/
theorem readValue_written {value : Json} (numberless : value.Numberless) {levels : Nat}
    (shallow : value.depth ≤ levels) : ReadsBack (readValue levels) value := by
  induction numberless generalizing levels with
  | null =>
    intro offset rest
    change ∃ document stop, readValue levels ⟨'n' :: _, offset⟩ = _ ∧ _
    rw [readValue_atom (by decide) (by decide)]
    exact ⟨_, _, rfl, rfl⟩
  | bool b =>
    intro offset rest
    cases b with
    | true =>
      change ∃ document stop, readValue levels ⟨'t' :: _, offset⟩ = _ ∧ _
      rw [readValue_atom (by decide) (by decide)]
      exact ⟨_, _, rfl, rfl⟩
    | false =>
      change ∃ document stop, readValue levels ⟨'f' :: _, offset⟩ = _ ∧ _
      rw [readValue_atom (by decide) (by decide)]
      exact ⟨_, _, rfl, rfl⟩
  | str s =>
    intro offset rest
    obtain ⟨start, stop, behind, read⟩ := readAtom_str s offset rest
    refine ⟨.atom (.str s) start stop, behind, ?_, rfl⟩
    rw [← read]
    exact readValue_atom (by decide) (by decide) levels _ offset
  | arr items each ih =>
    intro offset rest
    obtain ⟨levels, rfl⟩ := Nat.exists_eq_add_one_of_ne_zero (Nat.ne_zero_of_lt shallow)
    have reads : ∀ item ∈ items, ReadsBack (readValue levels) item := fun item inside =>
      ih item inside (Nat.le_trans (depth_le_depthItems inside) (Nat.le_of_succ_le_succ shallow))
    rw [compactChars, List.cons_append, List.append_assoc, List.singleton_append]
    -- The reader has as much fuel as there are characters, and every item has at least one.
    apply readValue_list
    apply readItems_written each reads
    exact Nat.lt_succ_of_le (Nat.le_succ_of_le (length_le_length_compactItems items _))
  | obj entries each ih =>
    intro offset rest
    obtain ⟨levels, rfl⟩ := Nat.exists_eq_add_one_of_ne_zero (Nat.ne_zero_of_lt shallow)
    have reads : ∀ entry ∈ entries, ReadsBack (readValue levels) entry.2 := fun entry inside =>
      ih entry inside (Nat.le_trans (depth_le_depthEntries inside) (Nat.le_of_succ_le_succ shallow))
    rw [compactChars, List.cons_append, List.append_assoc, List.singleton_append]
    apply readValue_object
    apply readEntries_written reads
    exact Nat.lt_succ_of_le (Nat.le_succ_of_le (length_le_length_compactEntries entries _))

/-- The text of a value without numbers is a whole document with this value, unless it nests too
deep. -/
theorem holds_ofText {value : Json} (numberless : value.Numberless)
    (shallow : value.depth ≤ greatestDepth) : Holds (.ofText value.compact) value := by
  obtain ⟨document, stop, read, holds⟩ := readValue_written numberless shallow 0 []
  have chars : value.compact.toList = value.compactChars ++ [] := by
    rw [compact, String.toList_ofList, List.append_nil]
  rw [Document.ofText, Document.ofChars, Cursor.ofChars, chars, read]
  exact holds

end Loading

end DecoderForge
