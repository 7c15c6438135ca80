/-
This file proves that nothing is loaded from a text in which the end of the first value is not
found.
-/

import DecoderForge.Loading.Settings
import DecoderForge.Proofs.Json.Extent
import DecoderForge.Proofs.Loading.Document

namespace DecoderForge.Loading

open Json Reader

variable {α σ τ : Type}

mutual

/-- A document from a text in which the end of the value is not found. -/
inductive Unfinished : Document → Prop
  | unreadable {fault asName : Fault} : Unfinished (.unreadable fault asName)
  | list {start opened : Option Nat} {items : List Item} {ending : Ending}
    (inside : UnfinishedItems ending items) : Unfinished (.list start opened items ending)
  | object {start opened : Option Nat} {entries : List Entry} {ending : Ending}
    (broken : endingFailure ending ≠ none) : Unfinished (.object start opened entries ending)

/-- Something is wrong behind the last item of a list, or inside it. Behind the items before it the
list goes on. -/
inductive UnfinishedItems : Ending → List Item → Prop
  | behind {ending : Ending} (broken : endingFailure ending ≠ none) : UnfinishedItems ending []
  | inside {ending : Ending} {item : Item} (unfinished : Unfinished item.value) :
    UnfinishedItems ending [item]
  | later {ending : Ending} {item : Item} {rest : List Item} (goesOn : item.overlong ≠ none)
    (more : UnfinishedItems ending rest) : UnfinishedItems ending (item :: rest)

end

/-- Where nothing stands instead of the end of a list, the list ends. -/
theorem nextItem_of_endOfList {cursor : Cursor} (ends : (endOfList cursor).2 = none)
    (first : Bool) : ∃ ending stop, nextItem first cursor = .error (ending, some stop) := by
  unfold endOfList at ends
  dsimp only at ends
  split at ends
  · contradiction
  next c rest ahead =>
  split at ends
  · next closing =>
    exact ⟨.closed cursor.skipBlank.skip.offset, cursor.skipBlank.skip, by
      simp only [nextItem, ahead, if_pos closing]⟩
  · split at ends <;> contradiction

/-- What is not read to its end is an unfinished document. -/
def GivesUnfinished (value : Cursor → Document × Option Cursor) : Prop :=
  ∀ cursor document, value cursor = (document, none) → Unfinished document

theorem unfinishedItems_of_readItems {value : Cursor → Document × Option Cursor}
    (takes : TakesValues value) (gives : GivesUnfinished value) {fuel : Nat} {first : Bool}
    {cursor : Cursor} {items : List Item} {ending : Ending} (enough : cursor.chars.length < fuel)
    (read : readItems value fuel first cursor = (items, ending, none)) :
    UnfinishedItems ending items := by
  induction fuel generalizing first cursor items with
  | zero => exact absurd enough (Nat.not_lt_zero _)
  | succ fuel ih =>
    have next := nextItem_cases first cursor
    rw [readItems] at read
    generalize nextItem first cursor = found at next read
    cases next with
    | closed front chars => simp at read
    | broken fault =>
      obtain ⟨rfl, rfl, _⟩ := read
      exact .behind (Option.some_ne_none _)
    | @item _ _ start separated front chars =>
      cases here : value start with
      | mk document stop =>
        cases stop with
        | none =>
          simp only [here, Prod.mk.injEq] at read
          obtain ⟨rfl, rfl, _⟩ := read
          exact .inside (gives _ _ here)
        | some stop =>
          simp only [here, Prod.mk.injEq] at read
          obtain ⟨rfl, ended, none⟩ := read
          obtain ⟨text, spelled, split, _⟩ := takes _ _ _ here
          have positive := spelled.length_pos
          have shorter : stop.chars.length < fuel := by
            rw [chars, split] at enough
            simp only [List.length_append] at enough
            omega
          refine .later (fun closed => ?_) (ih shorter (Prod.ext rfl (Prod.ext ended none)))
          obtain ⟨ending, behind, last⟩ := nextItem_of_endOfList closed false
          cases fuel with
          | zero => exact absurd shorter (Nat.not_lt_zero _)
          | succ fuel =>
            rw [readItems, last] at none
            contradiction

theorem endingFailure_of_readEntries {value : Cursor → Document × Option Cursor}
    (takes : TakesValues value) {fuel : Nat} {first : Bool} {cursor : Cursor}
    {entries : List Entry} {ending : Ending} (enough : cursor.chars.length < fuel)
    (read : readEntries value fuel first cursor = (entries, ending, none)) :
    endingFailure ending ≠ none := by
  induction fuel generalizing first cursor entries with
  | zero => exact absurd enough (Nat.not_lt_zero _)
  | succ fuel ih =>
    have next := nextKey_cases first cursor
    rw [readEntries] at read
    generalize nextKey first cursor = found at next read
    cases next with
    | closed front chars => simp at read
    | broken fault =>
      obtain ⟨_, rfl, _⟩ := read
      exact Option.some_ne_none _
    | @key _ _ _ _ keyStop separated front string chars =>
      cases coloned : colon keyStop with
      | error fault =>
        simp only [coloned, Prod.mk.injEq] at read
        obtain ⟨_, rfl, _⟩ := read
        exact Option.some_ne_none _
      | ok start =>
        obtain ⟨space, _, after⟩ := colon_sound coloned
        have shorter {stop : Cursor} (value : BeginsWithValue start.chars stop.chars) :
            stop.chars.length < fuel := by
          obtain ⟨text, _, split, _⟩ := value
          rw [chars, after, split] at enough
          simp only [List.length_append, List.length_cons] at enough
          omega
        cases here : value start with
        | mk document stop =>
          cases stop with
          | some stop =>
            simp only [coloned, here, Prod.mk.injEq] at read
            exact ih (shorter (takes _ _ _ here)) (Prod.ext rfl (Prod.ext read.2.1 read.2.2))
          | none =>
            cases passed : passValue start with
            | error fault =>
              simp only [coloned, here, passed, Prod.mk.injEq] at read
              obtain ⟨_, rfl, _⟩ := read
              exact Option.some_ne_none _
            | ok stop =>
              simp only [coloned, here, passed, Prod.mk.injEq] at read
              exact ih (shorter (passValue_sound passed))
                (Prod.ext rfl (Prod.ext read.2.1 read.2.2))

theorem unfinished_of_readAtom {cursor : Cursor} {document : Document}
    (read : readAtom cursor = (document, none)) : Unfinished document := by
  rw [readAtom_eq] at read
  cases token : atomToken cursor with
  | error fault =>
    rw [token] at read
    obtain ⟨rfl, _⟩ := Prod.mk.inj read
    exact .unreadable
  | ok found =>
    rw [token] at read
    cases (Prod.mk.inj read).2

theorem unfinished_of_readValue (levels : Nat) : GivesUnfinished (readValue levels) := by
  induction levels with
  | zero =>
    intro cursor document read
    cases opens : cursor.skipBlank.chars.head?.bind Container.ofOpening? with
    | none =>
      rw [readValue_of_plain 0 opens] at read
      exact unfinished_of_readAtom read
    | some container =>
      rw [readValue_zero opens] at read
      obtain ⟨rfl, _⟩ := Prod.mk.inj read
      exact .unreadable
  | succ levels ih =>
    intro cursor document read
    have fewer : cursor.skipBlank.skip.chars.length < cursor.skipBlank.chars.length + 1 := by
      simp only [Cursor.skip, List.length_drop]
      omega
    cases opens : cursor.skipBlank.chars.head?.bind Container.ofOpening? with
    | none =>
      rw [readValue_of_plain _ opens] at read
      exact unfinished_of_readAtom read
    | some container =>
      cases container with
      | list =>
        simp only [readValue, opens, Prod.mk.injEq] at read
        obtain ⟨rfl, none⟩ := read
        exact .list (unfinishedItems_of_readItems (readValue_sound levels) ih fewer
          (Prod.ext rfl (Prod.ext rfl none)))
      | object =>
        simp only [readValue, opens, Prod.mk.injEq] at read
        obtain ⟨rfl, none⟩ := read
        exact .object (endingFailure_of_readEntries (readValue_sound levels) fewer
          (Prod.ext rfl (Prod.ext rfl none)))

mutual

/-- An unfinished document has no value. -/
theorem Unfinished.not_holds {document : Document} {value : Json} :
    Unfinished document → ¬ Holds document value
  | .unreadable => nofun
  | .list inside => fun holds => by
    obtain ⟨values, ⟨whole, held⟩, _⟩ := holds_list_iff.mp holds
    exact inside.not_held whole held
  | .object broken => fun holds => by
    obtain ⟨pairs, ⟨whole, _⟩, _⟩ := holds_object_iff.mp holds
    exact broken whole

theorem UnfinishedItems.not_held {ending : Ending} {items : List Item} {values : List Json} :
    UnfinishedItems ending items → endingFailure ending = none → ¬ HoldItems items values
  | .behind broken => fun whole _ => broken whole
  | .inside unfinished => fun _ held => by
    obtain ⟨value, _, holds, _⟩ := List.forall₂_cons_left_iff.mp held
    exact unfinished.not_holds holds
  | .later _ more => fun whole held => by
    obtain ⟨_, rest, _, later, _⟩ := List.forall₂_cons_left_iff.mp held
    exact more.not_held whole later

end

/-- A loader that takes nothing from an unfinished document. -/
def Finishes (load : Loader α) : Prop := ∀ document a, load document = .ok a → ¬ Unfinished document

/-- The item at an index is read to its end, or there is none and the list ends. -/
def FinishedAt (ending : Ending) (items : List Item) (i : Nat) : Prop :=
  match items[i]? with
  | some item => ¬ Unfinished item.value
  | none => endingFailure ending = none

/-- A list that is wrong behind the items that are asked for is seen to go on there. -/
theorem UnfinishedItems.overlong {ending : Ending} {items : List Item} :
    UnfinishedItems ending items → ∀ last, (∀ i ≤ last, FinishedAt ending items i) →
      (items[last]?).bind (·.overlong) ≠ none
  | .behind broken => fun _ finished => absurd (finished 0 (Nat.zero_le _)) broken
  | .inside unfinished => fun _ finished => absurd unfinished (finished 0 (Nat.zero_le _))
  | .later goesOn more => fun last finished =>
    match last with
    | 0 => goesOn
    | last + 1 => more.overlong last fun i below => finished (i + 1) (Nat.succ_le_succ below)

theorem UnfinishedItems.exists_unfinished {ending : Ending} {items : List Item} :
    UnfinishedItems ending items → endingFailure ending = none →
      ∃ item ∈ items, Unfinished item.value
  | .behind broken => fun ends => absurd ends broken
  | .inside unfinished => fun _ => ⟨_, List.mem_cons_self, unfinished⟩
  | .later _ more => fun ends => by
    obtain ⟨item, inside, unfinished⟩ := more.exists_unfinished ends
    exact ⟨item, List.mem_cons_of_mem _ inside, unfinished⟩

theorem finishedAt_of_element? {load : Loader α} (finishes : Finishes load) {items : List Item}
    {ending : Ending} {i : Nat} {found : Option α}
    (loaded : element? items ending i load = .ok found) : FinishedAt ending items i := by
  unfold element? at loaded
  unfold FinishedAt
  cases present : items[i]? with
  | some item =>
    simp only [present, Except.map_eq_ok_iff, Except.mapError_eq_ok_iff] at loaded
    obtain ⟨a, here, _⟩ := loaded
    exact finishes _ a here
  | none =>
    cases broken : endingFailure ending with
    | none => rfl
    | some failure => simp [present, broken] at loaded

theorem finishedAt_of_element {load : Loader α} (finishes : Finishes load) {items : List Item}
    {ending : Ending} {i : Nat} {expected : Expected} {a : α}
    (loaded : element items ending i expected load = .ok a) : FinishedAt ending items i := by
  obtain ⟨found, here, _⟩ := Except.step_eq_ok_iff.mp loaded
  exact finishedAt_of_element? finishes here

theorem endingFailure_of_entries {columns : Columns Document Failure σ}
    {known : Option (List String)} {ending : Ending} {es : List Entry} {state last : σ}
    (loaded : entries columns known ending es state = .ok last) : endingFailure ending = none := by
  induction es generalizing state with
  | nil =>
    rw [entries] at loaded
    split at loaded
    · contradiction
    · assumption
  | cons entry rest ih =>
    unfold entries at loaded
    split at loaded
    · exact ih loaded
    · contradiction
    · contradiction
    · split at loaded
      · contradiction
      · exact ih loaded

theorem endingFailure_of_tagEntries {key : String} {tag : Loader τ} {ending : Ending}
    {es : List Entry} {found : Option τ} {result : τ × List (String × Json)}
    (loaded : tagEntries key tag ending es found = .ok result) : endingFailure ending = none := by
  induction es generalizing found result with
  | nil =>
    unfold tagEntries at loaded
    split at loaded
    · contradiction
    · assumption
    · contradiction
  | cons entry rest ih =>
    rw [tagEntries] at loaded
    split at loaded
    · split at loaded
      · contradiction
      split at loaded
      · contradiction
      · exact ih loaded
    · split at loaded
      · contradiction
      · obtain ⟨_, later, _⟩ := Except.map_eq_ok_iff.mp loaded
        exact ih later

theorem finishes_text : Finishes text := by
  rintro _ s loaded (_ | _ | _) <;> simp [text] at loaded

theorem finishes_flag : Finishes flag := by
  rintro _ b loaded (_ | _ | _) <;> simp [flag] at loaded

theorem finishes_variant (names : List (String × τ)) (other : Option τ) :
    Finishes (variant names other) := by
  rintro _ v loaded (_ | _ | _) <;> simp [variant] at loaded

theorem finishes_optional {load : Loader α} (finishes : Finishes load) :
    Finishes (Reader.optional load) := by
  intro document found loaded
  unfold Reader.optional at loaded
  split at loaded
  · nofun
  · obtain ⟨a, here, _⟩ := Except.map_eq_ok_iff.mp loaded
    exact finishes document a here

theorem finishes_anything : Finishes anything := by
  intro document value loaded
  obtain ⟨whole, holds, _⟩ := Except.map_eq_ok_iff.mp loaded
  exact fun unfinished => unfinished.not_holds holds

theorem finishes_list {load : Loader α} (finishes : Finishes load) : Finishes (list load) := by
  rintro _ as loaded (_ | inside | _)
  · simp [list] at loaded
  · obtain ⟨ends, each⟩ := (items_eq_ok_iff load _ 0 _ as).mp loaded
    obtain ⟨item, present, unfinished⟩ := inside.exists_unfinished ends
    have finished := (List.forall₂_and_left _ _).mp (each.imp fun item a here =>
      (⟨finishes item.value a here, here⟩ : ¬ Unfinished item.value ∧ load item.value = .ok a))
    exact finished.1 item present unfinished
  · simp [list] at loaded

theorem finishes_tagged (name key : String) {tag : Loader τ} (finishes : Finishes tag) :
    Finishes (tagged name key tag) := by
  rintro _ result loaded (_ | inside | broken)
  · simp [tagged] at loaded
  · simp only [tagged, Except.step_eq_ok_iff] at loaded
    obtain ⟨found, first, others⟩ := loaded
    have finished := finishedAt_of_element? finishes first
    cases found with
    | none => cases others
    | some t =>
      simp only [Except.step_eq_ok_iff, bufferItems_eq_ok_iff] at others
      obtain ⟨values, ⟨ends, held⟩, _⟩ := others
      cases inside with
      | behind broken => exact broken ends
      | inside unfinished => exact finished unfinished
      | later _ more => exact more.not_held ends held
  · obtain ⟨_, entries, _⟩ := Except.map_eq_ok_iff.mp loaded
    exact broken (endingFailure_of_tagEntries entries)

theorem finishes_descriptor : Finishes descriptor := by
  intro document loaded read
  simp only [descriptor, Except.step_eq_ok_iff] at read
  obtain ⟨tagged, here, _⟩ := read
  exact finishes_tagged _ _ (finishes_variant _ _) document tagged here

theorem finishes_declaration : Finishes declaration := by
  rintro _ declared loaded (_ | inside | broken)
  · simp [declaration] at loaded
  · simp only [declaration, Except.step_eq_ok_iff, noMore_eq_ok_iff] at loaded
    obtain ⟨_, name, _, type, _, ⟨few, _⟩, _⟩ := loaded
    refine inside.overlong 1 (fun i below => ?_) few
    obtain rfl | rfl := Nat.le_one_iff_eq_zero_or_eq_one.mp below
    · exact finishedAt_of_element finishes_text name
    · exact finishedAt_of_element finishes_descriptor type
  · obtain ⟨_, here, _⟩ := Except.step_eq_ok_iff.mp loaded
    exact broken (endingFailure_of_entries here)

theorem finishes_sourceModule : Finishes sourceModule := by
  rintro _ source loaded (_ | inside | broken)
  · simp [sourceModule] at loaded
  · simp only [sourceModule, Except.step_eq_ok_iff, noMore_eq_ok_iff] at loaded
    obtain ⟨_, declarations, _, ⟨few, _⟩, _⟩ := loaded
    refine inside.overlong 0 (fun i below => ?_) few
    obtain rfl := Nat.le_zero.mp below
    exact finishedAt_of_element (finishes_list finishes_declaration) declarations
  · obtain ⟨_, here, _⟩ := Except.step_eq_ok_iff.mp loaded
    exact broken (endingFailure_of_entries here)

theorem finishes_config : Finishes config := by
  rintro _ settings loaded (_ | inside | broken)
  · simp [config] at loaded
  · simp only [config, Except.step_eq_ok_iff, noMore_eq_ok_iff] at loaded
    obtain ⟨_, tagField, _, namedImports, _, ⟨few, _⟩, _⟩ := loaded
    refine inside.overlong 1 (fun i below => ?_) few
    obtain rfl | rfl := Nat.le_one_iff_eq_zero_or_eq_one.mp below
    · exact finishedAt_of_element? (finishes_optional finishes_text) tagField
    · exact finishedAt_of_element? finishes_flag namedImports
  · obtain ⟨_, here, _⟩ := Except.step_eq_ok_iff.mp loaded
    exact broken (endingFailure_of_entries here)

end DecoderForge.Loading
