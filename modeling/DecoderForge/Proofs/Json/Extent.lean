/-
This file proves how far the reader of documents looks: up to the end of the value with which a text
begins. What stands behind the value has no part in the document.
-/

import DecoderForge.Json.Document
import DecoderForge.Proofs.Json.Passing

namespace DecoderForge.Json

open Text

theorem numberToken_sound {negative : Bool} {cursor stop : Cursor} {n : Number}
    (read : numberToken negative cursor = .ok (n, stop)) :
    BeginsWithAtom ((if negative then ['-'] else []) ++ cursor.chars) stop.chars := by
  obtain ⟨⟨parts, behind⟩, whole, named⟩ := Except.step_eq_ok_iff.mp read
  dsimp only at named
  split at named
  · cases named
    exact beginsWithAtom_of_numeral whole
  · contradiction

/-- The value without parts with which a text begins. -/
def atomToken (cursor : Cursor) : Except Fault (Atom × Cursor) :=
  match cursor.chars with
  | [] => .error (cursor.fault .unfinishedValue)
  | c :: _ =>
    if c = 'n' then (cursor.skip.word "ull".toList).map (.null, ·)
    else if c = 't' then (cursor.skip.word "rue".toList).map (.bool true, ·)
    else if c = 'f' then (cursor.skip.word "alse".toList).map (.bool false, ·)
    else if c = '"' then (stringToken .keep cursor.skip).map fun (s, stop) => (.str s, stop)
    else if c = '-' then (numberToken true cursor.skip).map fun (n, stop) => (.num n, stop)
    else if c.isDigit then (numberToken false cursor).map fun (n, stop) => (.num n, stop)
    else .error (cursor.faultAhead .expectedValue)

theorem atomToken_of_isDigit {c : Char} (digit : c.isDigit = true) (rest : List Char)
    (offset : Nat) :
    atomToken ⟨c :: rest, offset⟩ =
      (numberToken false ⟨c :: rest, offset⟩).map fun (n, stop) => (.num n, stop) := by
  simp [atomToken, ne_of_isDigit digit, digit]

/-- What is read where a value without parts is expected. -/
def atomDocument (cursor : Cursor) (result : Except Fault (Atom × Cursor)) :
    Document × Option Cursor :=
  match result with
  | .ok (atom, stop) => (.atom atom cursor.offset stop.offset, some stop)
  | .error fault =>
    (.unreadable fault (if cursor.chars.head? = none ∨ cursor.chars.head? = some '"' then fault
      else cursor.faultAhead .expectedValue), none)

theorem readAtom_eq (cursor : Cursor) :
    readAtom cursor = atomDocument cursor (atomToken cursor) := by
  obtain ⟨chars, offset⟩ := cursor
  match chars with
  | [] => rfl
  | c :: rest =>
    by_cases quotation : c = '"'
    · subst quotation
      cases read : stringToken .keep (Cursor.skip ⟨'"' :: rest, offset⟩) <;>
        simp [readAtom, atomToken, atomDocument, read, Except.map]
    · simp only [readAtom, atomToken, atomDocument, List.head?_cons, Option.some.injEq, quotation,
        reduceCtorEq, or_self, if_false]
      split_ifs <;> rfl

theorem atomToken_sound {cursor stop : Cursor} {atom : Atom}
    (read : atomToken cursor = .ok (atom, stop)) : BeginsWithAtom cursor.chars stop.chars := by
  obtain ⟨chars, offset⟩ := cursor
  match chars with
  | [] => contradiction
  | c :: chars =>
    simp only [atomToken] at read
    split at read
    · next letter =>
      obtain ⟨_, word, ⟨⟩⟩ := Except.map_eq_ok_iff.mp read
      exact letter ▸ beginsWithAtom_of_word (by decide) word
    split at read
    · next letter =>
      obtain ⟨_, word, ⟨⟩⟩ := Except.map_eq_ok_iff.mp read
      exact letter ▸ beginsWithAtom_of_word (by decide) word
    split at read
    · next letter =>
      obtain ⟨_, word, ⟨⟩⟩ := Except.map_eq_ok_iff.mp read
      exact letter ▸ beginsWithAtom_of_word (by decide) word
    split at read
    · next quotation =>
      obtain ⟨_, string, ⟨⟩⟩ := Except.map_eq_ok_iff.mp read
      exact quotation ▸ beginsWithAtom_of_string string
    split at read
    · next minus =>
      obtain ⟨_, number, ⟨⟩⟩ := Except.map_eq_ok_iff.mp read
      exact minus ▸ numberToken_sound number
    split at read
    · next digit =>
      obtain ⟨_, number, ⟨⟩⟩ := Except.map_eq_ok_iff.mp read
      exact numberToken_sound number
    · contradiction

theorem readAtom_sound {cursor stop : Cursor} {document : Document}
    (read : readAtom cursor = (document, some stop)) : BeginsWithAtom cursor.chars stop.chars := by
  rw [readAtom_eq] at read
  cases token : atomToken cursor with
  | error fault =>
    rw [token] at read
    simp [atomDocument] at read
  | ok found =>
    rw [token] at read
    obtain ⟨_, same⟩ := Prod.mk.inj read
    exact atomToken_sound (token.trans (by rw [← Option.some_inj.mp same]))

/-- The number that a text names, with the cursor in front of what stands behind the text. -/
theorem numberToken_of_stops {n : Numeral} {text : List Char} (unsigned : n.Unsigned text)
    (offset : Nat) :
    ∃ result : Except Fault (Number × Nat), ∀ rest, Stops n.goesOn rest →
      numberToken n.negative ⟨text ++ rest, offset⟩ =
        result.map fun (number, stop) => (number, ⟨rest, stop⟩) := by
  cases named : n.number with
  | ok number =>
    refine ⟨.ok (number, offset + text.length), fun rest stops => ?_⟩
    rw [numberToken, numeral_of_stops .keep unsigned stops]
    simp only [bind, Except.bind, named]
    rfl
  | error back =>
    refine ⟨.error ⟨.numberOutOfRange, offset + text.length - back⟩, fun rest stops => ?_⟩
    rw [numberToken, numeral_of_stops .keep unsigned stops]
    simp only [bind, Except.bind, named]
    rfl

/-- What a string is read as depends on the string alone. -/
theorem stringToken_keep {body : List Char} (string : StringBody body) (offset : Nat) :
    ∃ result : Except Fault (String × Nat), ∀ rest,
      stringToken .keep ⟨body ++ rest, offset⟩ = result.map fun (s, stop) => (s, ⟨rest, stop⟩) := by
  obtain ⟨result, read, _⟩ := stringFrom_append .keep .plain string offset
  refine ⟨result.map (Prod.map String.ofList id), fun rest => ?_⟩
  rw [stringToken, read rest]
  cases result <;> rfl

/-- What a value without parts is read as depends on its text alone. -/
theorem atomToken_of_text {text : List Char} (atom : AtomText text) (offset : Nat) :
    ∃ result : Except Fault (Atom × Nat), ∀ rest,
      (∀ n : Numeral, n.Spelled text → Stops n.goesOn rest) →
        atomToken ⟨text ++ rest, offset⟩ = result.map fun (atom, stop) => (atom, ⟨rest, stop⟩) := by
  cases atom with
  | word known =>
    have word (letters rest : List Char) :
        Cursor.word ⟨letters ++ rest, offset + 1⟩ letters =
          .ok ⟨rest, offset + 1 + letters.length⟩ := Cursor.word_eq_ok_iff.mpr ⟨rfl, rfl⟩
    simp only [List.mem_cons, List.not_mem_nil, or_false] at known
    rcases known with rfl | rfl | rfl
    · refine ⟨.ok (.null, offset + 1 + 3), fun rest _ => ?_⟩
      exact congrArg (Except.map (Atom.null, ·)) (word "ull".toList rest)
    · refine ⟨.ok (.bool true, offset + 1 + 3), fun rest _ => ?_⟩
      exact congrArg (Except.map (Atom.bool true, ·)) (word "rue".toList rest)
    · refine ⟨.ok (.bool false, offset + 1 + 4), fun rest _ => ?_⟩
      exact congrArg (Except.map (Atom.bool false, ·)) (word "alse".toList rest)
  | @number n _ numeral =>
    cases numeral with
    | positive sign unsigned =>
      obtain ⟨result, read⟩ := numberToken_of_stops unsigned offset
      refine ⟨result.map fun (number, stop) => (.num number, stop), fun rest ends => ?_⟩
      have here := read rest (ends n (.positive sign unsigned))
      obtain ⟨c, more, rfl, digit⟩ := unsigned.head
      rw [sign, List.cons_append] at here
      rw [List.cons_append, atomToken_of_isDigit digit, here]
      cases result <;> rfl
    | @negative chars sign unsigned =>
      obtain ⟨result, read⟩ := numberToken_of_stops unsigned (offset + 1)
      refine ⟨result.map fun (number, stop) => (.num number, stop), fun rest ends => ?_⟩
      have here := read rest (ends n (.negative sign unsigned))
      rw [sign] at here
      show (numberToken true ⟨chars ++ rest, offset + 1⟩).map
        (fun (n, stop) => (Atom.num n, stop)) = _
      rw [here]
      cases result <;> rfl
  | @string body string =>
    obtain ⟨result, read⟩ := stringToken_keep string (offset + 1)
    refine ⟨result.map fun (s, stop) => (.str s, stop), fun rest _ => ?_⟩
    show (stringToken .keep ⟨body ++ rest, offset + 1⟩).map
      (fun (s, stop) => (Atom.str s, stop)) = _
    rw [read rest]
    cases result <;> rfl

/-- Behind a comma that stands ahead, what comes next is read after the blanks there. -/
theorem chars_behind_comma {cursor : Cursor} {rest : List Char}
    (ahead : cursor.skipBlank.chars = ',' :: rest) :
    ∃ indent gap, Blank indent ∧ Blank gap ∧
      cursor.chars = indent ++ [','] ++ gap ++ cursor.skipBlank.skip.skipBlank.chars := by
  obtain ⟨indent, front, split⟩ := cursor.skipBlank_sound
  obtain ⟨gap, space, after⟩ := cursor.skipBlank.skip.skipBlank_sound
  have tail : cursor.skipBlank.skip.chars = rest := by rw [Cursor.skip, ahead]; rfl
  refine ⟨indent, gap, front, space, ?_⟩
  rw [split, ahead, ← tail, after]
  simp

/-- What a list does next: it ends at its bracket, goes on with an item, behind a comma unless that
is the first, or is broken. -/
inductive NextItem (first : Bool) (cursor : Cursor) :
    Except (Ending × Option Cursor) Cursor → Prop
  | closed {indent : List Char} {stop : Cursor} (front : Blank indent)
    (chars : cursor.chars = indent ++ ']' :: stop.chars) :
    NextItem first cursor (.error (.closed stop.offset, some stop))
  | item {separator indent : List Char} {start : Cursor} (separated : Separator first separator)
    (front : Blank indent) (chars : cursor.chars = separator ++ indent ++ start.chars) :
    NextItem first cursor (.ok start)
  | broken (fault : Fault) : NextItem first cursor (.error (.broken fault, none))

theorem nextItem_cases (first : Bool) (cursor : Cursor) :
    NextItem first cursor (nextItem first cursor) := by
  obtain ⟨indent, front, split⟩ := cursor.skipBlank_sound
  cases ahead : cursor.skipBlank.chars with
  | nil =>
    simp only [nextItem, ahead]
    exact .broken _
  | cons c rest =>
    by_cases closing : c = ']'
    · have tail : cursor.skipBlank.skip.chars = rest := by rw [Cursor.skip, ahead]; rfl
      simp only [nextItem, ahead, if_pos closing]
      exact .closed front (by rw [split, ahead, closing, tail])
    cases first with
    | true =>
      simp only [nextItem, ahead, if_neg closing, if_true]
      exact .item .none front split
    | false =>
      by_cases comma : c = ','
      · subst comma
        obtain ⟨indent, gap, front, space, chars⟩ := chars_behind_comma ahead
        simp only [nextItem, ahead, if_neg closing, Bool.false_eq_true, if_false, if_true]
        split
        · exact .broken _
        split
        · exact .broken _
        · exact .item (.comma front) space chars
      · simp only [nextItem, ahead, if_neg closing, if_neg comma, Bool.false_eq_true, if_false]
        exact .broken _

/-- The key behind a quotation mark, or how the object ends within it. -/
def keyToken (start : Cursor) : Except (Ending × Option Cursor) (String × Cursor) :=
  (stringToken .keep start).mapError fun fault => (.brokenKey fault, none)

/-- What an object does next: it ends at its bracket, goes on with a key, behind a comma unless that
is the first, or is broken. -/
inductive NextKey (first : Bool) (cursor : Cursor) :
    Except (Ending × Option Cursor) (String × Cursor) → Prop
  | closed {indent : List Char} {stop : Cursor} (front : Blank indent)
    (chars : cursor.chars = indent ++ '\x7d' :: stop.chars) :
    NextKey first cursor (.error (.closed stop.offset, some stop))
  | key {separator indent body : List Char} {key : String} {stop : Cursor}
    (separated : Separator first separator) (front : Blank indent) (string : StringBody body)
    (chars : cursor.chars = separator ++ indent ++ '"' :: body ++ stop.chars) :
    NextKey first cursor (.ok (key, stop))
  | broken (fault : Fault) : NextKey first cursor (.error (.brokenKey fault, none))

theorem NextKey.ofToken {first : Bool} {cursor start : Cursor} {separator indent rest : List Char}
    (separated : Separator first separator) (front : Blank indent)
    (tail : start.chars = rest) (chars : cursor.chars = separator ++ indent ++ '"' :: rest) :
    NextKey first cursor (keyToken start) := by
  unfold keyToken
  cases token : stringToken .keep start with
  | error fault => exact .broken fault
  | ok found =>
    obtain ⟨key, stop⟩ := found
    obtain ⟨body, string, inside⟩ := stringToken_sound token
    refine .key separated front string ?_
    rw [chars, ← tail, inside]
    simp

theorem nextKey_cases (first : Bool) (cursor : Cursor) :
    NextKey first cursor (nextKey first cursor) := by
  obtain ⟨indent, front, split⟩ := cursor.skipBlank_sound
  cases ahead : cursor.skipBlank.chars with
  | nil =>
    simp only [nextKey, ahead]
    exact .broken _
  | cons c rest =>
    have tail : cursor.skipBlank.skip.chars = rest := by rw [Cursor.skip, ahead]; rfl
    by_cases closing : c = '\x7d'
    · simp only [nextKey, ahead, if_pos closing]
      exact .closed front (by rw [split, ahead, closing, tail])
    cases first with
    | true =>
      simp only [nextKey, ahead, if_neg closing, if_true]
      split
      · next quotation =>
        exact .ofToken .none front tail (by rw [split, ahead, quotation, List.nil_append])
      · exact .broken _
    | false =>
      by_cases comma : c = ','
      · subst comma
        obtain ⟨indent, gap, front, space, chars⟩ := chars_behind_comma ahead
        simp only [nextKey, ahead, if_neg closing, Bool.false_eq_true, if_false, if_true]
        split
        · exact .broken _
        next d later next =>
        split
        · next quotation =>
          have tail : cursor.skipBlank.skip.skipBlank.skip.chars = later := by
            rw [Cursor.skip, next]
            rfl
          exact .ofToken (.comma front) space tail (by rw [chars, next, quotation])
        split <;> exact .broken _
      · simp only [nextKey, ahead, if_neg closing, if_neg comma, Bool.false_eq_true, if_false]
        exact .broken _

/-- A reader of values takes a value wherever it stops. -/
def TakesValues (value : Cursor → Document × Option Cursor) : Prop :=
  ∀ cursor document stop, value cursor = (document, some stop) →
    BeginsWithValue cursor.chars stop.chars

theorem readItems_sound {value : Cursor → Document × Option Cursor} (takes : TakesValues value)
    {fuel : Nat} {first : Bool} {cursor stop : Cursor} {items : List Item} {ending : Ending}
    (read : readItems value fuel first cursor = (items, ending, some stop)) :
    BeginsWithParts .list first cursor.chars stop.chars := by
  induction fuel generalizing first cursor items with
  | zero => simp [readItems] at read
  | succ fuel ih =>
    have next := nextItem_cases first cursor
    rw [readItems] at read
    generalize nextItem first cursor = found at next read
    cases next with
    | broken fault => simp at read
    | closed front chars =>
      simp only [Prod.mk.injEq, Option.some_inj] at read
      obtain ⟨_, _, rfl⟩ := read
      exact ⟨_, .close front, by rw [chars, List.append_assoc]; rfl⟩
    | @item _ _ start separated front chars =>
      cases here : value start with
      | mk document behind =>
        cases behind with
        | none => simp [here] at read
        | some behind =>
          simp only [here, Prod.mk.injEq] at read
          obtain ⟨_, ended, stopped⟩ := read
          have more : BeginsWithParts .list false behind.chars stop.chars :=
            ih (Prod.ext rfl (Prod.ext ended stopped))
          have all := beginsWithParts_of_part separated front .item (takes _ _ _ here) more
          rwa [List.append_nil, ← chars] at all

theorem readEntries_sound {value : Cursor → Document × Option Cursor} (takes : TakesValues value)
    {fuel : Nat} {first : Bool} {cursor stop : Cursor} {entries : List Entry} {ending : Ending}
    (read : readEntries value fuel first cursor = (entries, ending, some stop)) :
    BeginsWithParts .object first cursor.chars stop.chars := by
  induction fuel generalizing first cursor entries with
  | zero => simp [readEntries] at read
  | succ fuel ih =>
    have next := nextKey_cases first cursor
    rw [readEntries] at read
    generalize nextKey first cursor = found at next read
    cases next with
    | broken fault => simp at read
    | closed front chars =>
      simp only [Prod.mk.injEq, Option.some_inj] at read
      obtain ⟨_, _, rfl⟩ := read
      exact ⟨_, .close front, by rw [chars, List.append_assoc]; rfl⟩
    | @key _ _ _ _ keyStop separated front string chars =>
      cases coloned : colon keyStop with
      | error fault => simp [coloned] at read
      | ok start =>
        obtain ⟨space, blank, after⟩ := colon_sound coloned
        -- The value is kept or passed over, and the other entries stand behind it.
        have goOn {behind : Cursor} (inner : BeginsWithValue start.chars behind.chars)
            (ended : (readEntries value fuel false behind).2.1 = ending)
            (stopped : (readEntries value fuel false behind).2.2 = some stop) :
            BeginsWithParts .object first cursor.chars stop.chars := by
          have more : BeginsWithParts .object false behind.chars stop.chars :=
            ih (Prod.ext rfl (Prod.ext ended stopped))
          have all := beginsWithParts_of_part separated (List.forall_mem_nil _)
            (.key front string blank) inner more
          rw [chars, after]
          simpa using all
        cases here : value start with
        | mk document behind =>
          cases behind with
          | some behind =>
            simp only [coloned, here, Prod.mk.injEq] at read
            exact goOn (takes _ _ _ here) read.2.1 read.2.2
          | none =>
            cases passed : passValue start with
            | error fault => simp [coloned, here, passed] at read
            | ok behind =>
              simp only [coloned, here, passed, Prod.mk.injEq] at read
              exact goOn (passValue_sound passed) read.2.1 read.2.2

theorem readValue_of_plain {cursor : Cursor} (levels : Nat)
    (plain : cursor.skipBlank.chars.head?.bind Container.ofOpening? = none) :
    readValue levels cursor = readAtom cursor.skipBlank := by
  cases levels <;> simp only [readValue, plain]

theorem readValue_zero {cursor : Cursor} {container : Container}
    (opens : cursor.skipBlank.chars.head?.bind Container.ofOpening? = some container) :
    readValue 0 cursor = (.unreadable (cursor.skipBlank.faultAhead .tooDeep)
      (cursor.skipBlank.faultAhead (if container = .object then .tooDeep else .expectedValue)),
        none) := by
  rw [readValue.eq_def]
  simp only [opens]
  cases container <;> rfl

theorem readValue_sound_of_plain {levels : Nat} {cursor stop : Cursor} {document : Document}
    (plain : cursor.skipBlank.chars.head?.bind Container.ofOpening? = none)
    (read : readValue levels cursor = (document, some stop)) :
    BeginsWithValue cursor.chars stop.chars := by
  obtain ⟨indent, front, split⟩ := cursor.skipBlank_sound
  rw [readValue_of_plain levels plain] at read
  rw [split]
  exact (readAtom_sound read).value front

/-- What is read up to a place is a value. -/
theorem readValue_sound (levels : Nat) : TakesValues (readValue levels) := by
  induction levels with
  | zero =>
    intro cursor document stop read
    cases opens : cursor.skipBlank.chars.head?.bind Container.ofOpening? with
    | none => exact readValue_sound_of_plain opens read
    | some container =>
      rw [readValue_zero opens] at read
      cases (Prod.mk.inj read).2
  | succ levels ih =>
    intro cursor document stop read
    cases opens : cursor.skipBlank.chars.head?.bind Container.ofOpening? with
    | none => exact readValue_sound_of_plain opens read
    | some container =>
      obtain ⟨bracket, head, opening⟩ := Option.bind_eq_some_iff.mp opens
      obtain ⟨rest, first⟩ := List.head?_eq_some_iff.mp head
      have tail : cursor.skipBlank.skip.chars = rest := by rw [Cursor.skip, first]; rfl
      have parts : BeginsWithParts container true cursor.skipBlank.skip.chars stop.chars := by
        cases container with
        | list =>
          simp only [readValue, opens, Prod.mk.injEq] at read
          exact readItems_sound ih (Prod.ext rfl (Prod.ext rfl read.2))
        | object =>
          simp only [readValue, opens, Prod.mk.injEq] at read
          exact readEntries_sound ih (Prod.ext rfl (Prod.ext rfl read.2))
      obtain ⟨indent, front, split⟩ := cursor.skipBlank_sound
      rw [tail] at parts
      rw [split, first]
      exact (beginsWithValue_of_parts opening parts).indent front

/-- Where a list does not end is seen from what it goes on with. -/
theorem endOfList_of_parts {first : Bool} {text : List Char}
    (spelled : (Phrase.parts .list first).Spelled text) (offset : Nat) :
    ∃ result, ∀ rest, endOfList ⟨text ++ rest, offset⟩ = result := by
  cases spelled with
  | @close _ _ indent front =>
    refine ⟨(offset + indent.length + 1, none), fun rest => ?_⟩
    have skips : Cursor.skipBlank ⟨indent ++ ']' :: rest, offset⟩ =
        ⟨']' :: rest, offset + indent.length⟩ := Cursor.skipBlank_append front (by decide) offset
    have chars : indent ++ [Container.list.closing] ++ rest = indent ++ ']' :: rest := by
      simp [Container.closing]
    simp only [endOfList, chars, skips, if_true]
  | @part _ _ separator label value last separated labelled inner later =>
    obtain ⟨indent, c, more, front, ahead, same⟩ := front_of_part labelled inner
    have other := isBlank_of_isFront ahead
    obtain ⟨closing, comma⟩ : c ≠ ']' ∧ c ≠ ',' := by
      constructor <;> rintro rfl <;> contradiction
    cases separated with
    | none =>
      refine ⟨(offset + indent.length,
        some ⟨.trailingCharacters, offset + indent.length + 1⟩), fun rest => ?_⟩
      have chars : [] ++ label ++ value ++ last ++ rest =
          indent ++ c :: (more ++ last ++ rest) := by
        rw [List.nil_append, same]
        simp
      simp only [endOfList, chars, Cursor.skipBlank_append front other, if_neg closing,
        if_neg comma, Cursor.faultAhead, List.isEmpty_cons, Bool.false_eq_true, if_false]
    | @comma gap space =>
      refine ⟨(offset + gap.length + 1 + indent.length,
        some ⟨.trailingCharacters, offset + gap.length + 1 + indent.length + 1⟩), fun rest => ?_⟩
      have chars : gap ++ [','] ++ label ++ value ++ last ++ rest =
          gap ++ ',' :: (indent ++ c :: (more ++ last ++ rest)) := by
        rw [List.append_assoc _ label, same]
        simp
      have before : Cursor.isBlank ',' = false := by decide
      simp only [endOfList, chars, Cursor.skipBlank_append space before, show ',' ≠ ']' by decide,
        if_true, if_false, Cursor.skip, List.drop_succ_cons, List.drop_zero,
        Cursor.skipBlank_append front other, List.head?_cons, Option.some.injEq, if_neg closing,
        Cursor.faultAhead, List.isEmpty_cons, Bool.false_eq_true]

/-- Every phrase has a character that is no blank. -/
theorem Phrase.Spelled.nonblank {phrase : Phrase} {text : List Char}
    (spelled : phrase.Spelled text) :
    ∃ indent c more, Blank indent ∧ Cursor.isBlank c = false ∧ text = indent ++ c :: more := by
  cases spelled with
  | @atom indent chars front atom =>
    obtain ⟨c, more, rfl, first, _⟩ := atom.front
    exact ⟨indent, c, more, front, isBlank_of_isFront first, rfl⟩
  | container front opens parts =>
    exact ⟨_, _, _, front, isBlank_of_isFront (isFront_of_ofOpening? opens).1, rfl⟩
  | @close container _ indent front =>
    exact ⟨indent, container.closing, [], front, by cases container <;> rfl, rfl⟩
  | @part container _ separator label value last separated labelled inner later =>
    cases separated with
    | none =>
      obtain ⟨indent, c, more, front, ahead, same⟩ := front_of_part labelled inner
      refine ⟨indent, c, more ++ last, front, isBlank_of_isFront ahead, ?_⟩
      rw [List.nil_append, same, List.append_assoc, List.cons_append]
    | @comma indent front =>
      refine ⟨indent, ',', label ++ value ++ last, front, by decide, ?_⟩
      simp

/-- Whether an object ends is seen from the first character that is no blank. -/
theorem endOfObject_append {indent : List Char} {c : Char} (front : Blank indent)
    (other : Cursor.isBlank c = false) (rest : List Char) (offset : Nat) :
    endOfObject ⟨indent ++ c :: rest, offset⟩ =
      if c = '\x7d' then offset + indent.length + 1 else offset + indent.length := by
  simp only [endOfObject, Cursor.skipBlank_append front other, List.head?_cons, Option.some.injEq]

theorem endOfObject_of_spelled {phrase : Phrase} {text : List Char}
    (spelled : phrase.Spelled text) (offset : Nat) :
    ∃ result, ∀ rest, endOfObject ⟨text ++ rest, offset⟩ = result := by
  obtain ⟨indent, c, more, front, other, rfl⟩ := spelled.nonblank
  refine ⟨if c = '\x7d' then offset + indent.length + 1 else offset + indent.length,
    fun rest => ?_⟩
  rw [List.append_assoc, List.cons_append]
  exact endOfObject_append front other (more ++ rest) offset

theorem readValue_skipBlank (levels : Nat) (cursor : Cursor) :
    readValue levels cursor.skipBlank = readValue levels cursor := by
  rw [readValue.eq_def, readValue.eq_def levels cursor]
  dsimp only
  rw [Cursor.skipBlank_skipBlank]

/-- A cursor in front of what stands behind a text, if a reader of the text stops. -/
def Cursor.at? (rest : List Char) (stop : Option Nat) : Option Cursor :=
  stop.map fun offset => ⟨rest, offset⟩

/-- What the text of a phrase is read as, whatever stands behind it. -/
def Phrase.IsLocal : Phrase → List Char → Prop
  | .value, text => ∀ levels offset, ∃ document stop, ∀ rest, Ends text rest →
    readValue levels ⟨text ++ rest, offset⟩ = (document, Cursor.at? rest stop)
  | .parts .list first, text => ∀ levels offset, ∃ items ending stop, ∀ fuel rest,
    text.length ≤ fuel → readItems (readValue levels) fuel first ⟨text ++ rest, offset⟩ =
      (items, ending, Cursor.at? rest stop)
  | .parts .object first, text => ∀ levels offset, ∃ entries ending stop, ∀ fuel rest,
    text.length ≤ fuel → readEntries (readValue levels) fuel first ⟨text ++ rest, offset⟩ =
      (entries, ending, Cursor.at? rest stop)

theorem isLocal_atom {indent text : List Char} (front : Blank indent) (atom : AtomText text) :
    Phrase.value.IsLocal (indent ++ text) := by
  intro levels offset
  obtain ⟨result, read⟩ := atomToken_of_text atom (offset + indent.length)
  obtain ⟨c, more, rfl, first, plain⟩ := atom.front
  have other := isBlank_of_isFront first
  have begins (rest : List Char) : Cursor.skipBlank ⟨indent ++ c :: more ++ rest, offset⟩ =
      ⟨c :: more ++ rest, offset + indent.length⟩ := by
    rw [List.append_assoc]
    exact Cursor.skipBlank_append front other offset
  have found (rest : List Char) (ends : Ends (indent ++ c :: more) rest) :
      readValue levels ⟨indent ++ c :: more ++ rest, offset⟩ =
        atomDocument ⟨c :: more ++ rest, offset + indent.length⟩
          (result.map fun (atom, stop) => (atom, ⟨rest, stop⟩)) := by
    have here := read rest ((ends_append_iff front other).mp ends)
    rw [readValue_of_plain levels (by rw [begins]; exact plain), begins, readAtom_eq, here]
  cases result with
  | ok pair =>
    exact ⟨.atom pair.1 (offset + indent.length) pair.2, some pair.2,
      fun rest ends => (found rest ends).trans rfl⟩
  | error fault =>
    exact ⟨.unreadable fault (if some c = none ∨ some c = some '"' then fault
      else ⟨.expectedValue, offset + indent.length + 1⟩), none,
      fun rest ends => (found rest ends).trans rfl⟩

theorem isLocal_container {indent rest : List Char} {bracket : Char} {container : Container}
    (front : Blank indent) (opens : Container.ofOpening? bracket = some container)
    (parts : (Phrase.parts container true).Spelled rest)
    (inside : (Phrase.parts container true).IsLocal rest) :
    Phrase.value.IsLocal (indent ++ bracket :: rest) := by
  intro levels offset
  have other := isBlank_of_isFront (isFront_of_ofOpening? opens).1
  have begins (behind : List Char) :
      Cursor.skipBlank ⟨indent ++ bracket :: rest ++ behind, offset⟩ =
        ⟨bracket :: (rest ++ behind), offset + indent.length⟩ := by
    rw [List.append_assoc]
    exact Cursor.skipBlank_append front other offset
  match levels with
  | 0 =>
    refine ⟨.unreadable ⟨.tooDeep, offset + indent.length + 1⟩
      ⟨if container = .object then .tooDeep else .expectedValue, offset + indent.length + 1⟩, none,
      fun behind _ => ?_⟩
    rw [readValue_zero (by rw [begins]; exact opens), begins]
    rfl
  | levels + 1 =>
    have enough (behind : List Char) :
        rest.length ≤ (bracket :: (rest ++ behind)).length + 1 := by
      simp
      omega
    cases container with
    | list =>
      obtain ⟨items, ending, stop, read⟩ := inside levels (offset + indent.length + 1)
      obtain ⟨result, ended⟩ := endOfList_of_parts parts (offset + indent.length + 1)
      refine ⟨.list (offset + indent.length) result.1 items ending, stop, fun behind _ => ?_⟩
      simp only [readValue, begins, List.head?_cons, Option.bind_some, opens, Cursor.skip,
        List.drop_succ_cons, List.drop_zero, read _ _ (enough behind), ended]
    | object =>
      obtain ⟨entries, ending, stop, read⟩ := inside levels (offset + indent.length + 1)
      obtain ⟨result, ended⟩ := endOfObject_of_spelled parts (offset + indent.length + 1)
      refine ⟨.object (offset + indent.length) result entries ending, stop, fun behind _ => ?_⟩
      simp only [readValue, begins, List.head?_cons, Option.bind_some, opens, Cursor.skip,
        List.drop_succ_cons, List.drop_zero, read _ _ (enough behind), ended]

theorem isLocal_close {container : Container} {first : Bool} {indent : List Char}
    (front : Blank indent) :
    (Phrase.parts container first).IsLocal (indent ++ [container.closing]) := by
  cases container with
  | list =>
    intro levels offset
    refine ⟨[], .closed (some (offset + indent.length + 1)), some (offset + indent.length + 1),
      fun fuel rest enough => ?_⟩
    match fuel with
    | 0 => simp at enough
    | fuel + 1 =>
      have skips : Cursor.skipBlank ⟨indent ++ ']' :: rest, offset⟩ =
          ⟨']' :: rest, offset + indent.length⟩ := Cursor.skipBlank_append front (by decide) offset
      rw [List.append_assoc, readItems, nextItem]
      simp only [Container.closing, List.singleton_append, skips, if_true]
      rfl
  | object =>
    intro levels offset
    refine ⟨[], .closed (some (offset + indent.length + 1)), some (offset + indent.length + 1),
      fun fuel rest enough => ?_⟩
    match fuel with
    | 0 => simp at enough
    | fuel + 1 =>
      have skips : Cursor.skipBlank ⟨indent ++ '\x7d' :: rest, offset⟩ =
          ⟨'\x7d' :: rest, offset + indent.length⟩ :=
        Cursor.skipBlank_append front (by decide) offset
      rw [List.append_assoc, readEntries, nextKey]
      simp only [Container.closing, List.singleton_append, skips, if_true]
      rfl

/-- A list goes on with the item behind the comma, if there is one before it. -/
theorem nextItem_of_part {first : Bool} {separator value : List Char}
    (separated : Separator first separator) (inner : IsValue value) (rest : List Char)
    (offset : Nat) :
    nextItem first ⟨separator ++ value ++ rest, offset⟩ =
      .ok (Cursor.skipBlank ⟨value ++ rest, offset + separator.length⟩) := by
  obtain ⟨indent, c, more, front, ahead, rfl⟩ := inner.front
  have other := isBlank_of_isFront ahead
  have closing : c ≠ ']' := by
    rintro rfl
    contradiction
  have skips (offset : Nat) : Cursor.skipBlank ⟨indent ++ c :: more ++ rest, offset⟩ =
      ⟨c :: (more ++ rest), offset + indent.length⟩ := by
    rw [List.append_assoc]
    exact Cursor.skipBlank_append front other offset
  cases separated with
  | none =>
    simp only [nextItem, List.nil_append, List.length_nil, Nat.add_zero, skips, if_neg closing,
      if_true]
  | @comma gap space =>
    have before : Cursor.skipBlank ⟨gap ++ ',' :: (indent ++ c :: more ++ rest), offset⟩ =
        ⟨',' :: (indent ++ c :: more ++ rest), offset + gap.length⟩ :=
      Cursor.skipBlank_append space (by decide) offset
    have chars : gap ++ [','] ++ (indent ++ c :: more) ++ rest =
        gap ++ ',' :: (indent ++ c :: more ++ rest) := by simp
    have behind : Cursor.skip ⟨',' :: (indent ++ c :: more ++ rest), offset + gap.length⟩ =
        ⟨indent ++ c :: more ++ rest, offset + (gap ++ [',']).length⟩ := by
      simp [Cursor.skip, Nat.add_assoc]
    simp only [nextItem, chars, before, behind, skips, if_neg closing, if_true, if_false,
      Bool.false_eq_true, show ',' ≠ ']' by decide]

/-- An object goes on with the key behind the comma, if there is one before it. -/
theorem nextKey_of_part {first : Bool} {separator indent : List Char}
    (separated : Separator first separator) (front : Blank indent) (rest : List Char)
    (offset : Nat) :
    nextKey first ⟨separator ++ (indent ++ '"' :: rest), offset⟩ =
      keyToken ⟨rest, offset + separator.length + indent.length + 1⟩ := by
  have skips (offset : Nat) : Cursor.skipBlank ⟨indent ++ '"' :: rest, offset⟩ =
      ⟨'"' :: rest, offset + indent.length⟩ := Cursor.skipBlank_append front (by decide) offset
  cases separated with
  | none =>
    simp only [nextKey, List.nil_append, List.length_nil, Nat.add_zero, skips, if_true, if_false,
      show '"' ≠ '\x7d' by decide]
    rfl
  | @comma gap space =>
    have before : Cursor.skipBlank ⟨gap ++ ',' :: (indent ++ '"' :: rest), offset⟩ =
        ⟨',' :: (indent ++ '"' :: rest), offset + gap.length⟩ :=
      Cursor.skipBlank_append space (by decide) offset
    have chars : gap ++ [','] ++ (indent ++ '"' :: rest) =
        gap ++ ',' :: (indent ++ '"' :: rest) := by simp
    have behind : Cursor.skip ⟨',' :: (indent ++ '"' :: rest), offset + gap.length⟩ =
        ⟨indent ++ '"' :: rest, offset + (gap ++ [',']).length⟩ := by
      simp [Cursor.skip, Nat.add_assoc]
    simp only [nextKey, chars, before, behind, skips, if_true, if_false, Bool.false_eq_true,
      show ',' ≠ '\x7d' by decide]
    rfl

theorem isLocal_item {first : Bool} {separator value last : List Char}
    (separated : Separator first separator) (inner : IsValue value)
    (later : (Phrase.parts .list false).Spelled last) (here : Phrase.value.IsLocal value)
    (others : (Phrase.parts .list false).IsLocal last) :
    (Phrase.parts .list first).IsLocal (separator ++ value ++ last) := by
  intro levels offset
  have positive := inner.length_pos
  obtain ⟨document, stop, read⟩ := here levels (offset + separator.length)
  have found (rest : List Char) : readValue levels
      (Cursor.skipBlank ⟨value ++ (last ++ rest), offset + separator.length⟩) =
        (document, Cursor.at? (last ++ rest) stop) := by
    rw [readValue_skipBlank]
    exact read _ (ends_of_parts later rest)
  have next (rest : List Char) := nextItem_of_part separated inner (last ++ rest) offset
  cases stop with
  | none =>
    refine ⟨[⟨document, none, none⟩], .lost, none, fun fuel rest enough => ?_⟩
    match fuel with
    | 0 =>
      simp only [List.length_append] at enough
      omega
    | fuel + 1 =>
      rw [List.append_assoc _ last, readItems, next]
      simp only [found]
      rfl
  | some stop =>
    obtain ⟨items, ending, behind, more⟩ := others levels stop
    obtain ⟨result, ended⟩ := endOfList_of_parts later stop
    refine ⟨⟨document, some result.1, result.2⟩ :: items, ending, behind,
      fun fuel rest enough => ?_⟩
    match fuel with
    | 0 =>
      simp only [List.length_append] at enough
      omega
    | fuel + 1 =>
      have fewer : last.length ≤ fuel := by
        simp only [List.length_append] at enough
        omega
      rw [List.append_assoc _ last, readItems, next]
      simp only [found, Cursor.at?, Option.map_some, ended, more fuel rest fewer]

theorem isLocal_entry {first : Bool} {separator label value last : List Char}
    (separated : Separator first separator) (labelled : Label .object label)
    (inner : IsValue value) (later : (Phrase.parts .object false).Spelled last)
    (here : Phrase.value.IsLocal value) (others : (Phrase.parts .object false).IsLocal last) :
    (Phrase.parts .object first).IsLocal (separator ++ label ++ value ++ last) := by
  intro levels offset
  have positive := inner.length_pos
  cases labelled with | @key indent body space front string blank =>
  obtain ⟨result, token⟩ :=
    stringToken_keep string (offset + separator.length + indent.length + 1)
  have next (rest : List Char) := nextKey_of_part separated front
    (body ++ (space ++ ':' :: (value ++ (last ++ rest)))) offset
  have chars (rest : List Char) :
      separator ++ (indent ++ '"' :: body ++ space ++ [':']) ++ value ++ last ++ rest =
        separator ++ (indent ++ '"' :: (body ++ (space ++ ':' :: (value ++ (last ++ rest))))) := by
    simp
  cases result with
  | error fault =>
    refine ⟨[], .brokenKey fault, none, fun fuel rest enough => ?_⟩
    match fuel with
    | 0 => simp at enough
    | fuel + 1 =>
      rw [chars, readEntries, next, keyToken, token]
      rfl
  | ok found =>
    obtain ⟨key, keyStop⟩ := found
    obtain ⟨document, stop, read⟩ := here levels (keyStop + space.length + 1)
    have ended (rest : List Char) : endOfObject ⟨space ++ ':' :: rest, keyStop⟩ =
        keyStop + space.length := endOfObject_append blank (by decide) rest keyStop
    cases stop with
    | some stop =>
      obtain ⟨entries, ending, behind, more⟩ := others levels stop
      obtain ⟨result, closed⟩ := endOfObject_of_spelled later stop
      refine ⟨⟨key, keyStop, keyStop + space.length, document, result⟩ :: entries, ending, behind,
        fun fuel rest enough => ?_⟩
      match fuel with
      | 0 => simp at enough
      | fuel + 1 =>
        have fewer : last.length ≤ fuel := by
          simp only [List.length_append] at enough
          omega
        rw [chars, readEntries, next, keyToken, token]
        simp only [Except.map, Except.mapError, ended, colon_of_blank blank,
          read _ (ends_of_parts later rest), Cursor.at?, Option.map_some, closed,
          more fuel rest fewer]
    | none =>
      obtain ⟨stop, passed⟩ := passValue_of_value inner (keyStop + space.length + 1)
      obtain ⟨entries, ending, behind, more⟩ := others levels stop
      refine ⟨⟨key, keyStop, keyStop + space.length, document, none⟩ :: entries, ending, behind,
        fun fuel rest enough => ?_⟩
      match fuel with
      | 0 => simp at enough
      | fuel + 1 =>
        have fewer : last.length ≤ fuel := by
          simp only [List.length_append] at enough
          omega
        rw [chars, readEntries, next, keyToken, token]
        simp only [Except.map, Except.mapError, ended, colon_of_blank blank,
          read _ (ends_of_parts later rest), passed _ (ends_of_parts later rest), Cursor.at?,
          Option.map_none, more fuel rest fewer]

theorem isLocal_of_spelled {phrase : Phrase} {text : List Char} (spelled : phrase.Spelled text) :
    phrase.IsLocal text := by
  induction spelled with
  | atom front atom => exact isLocal_atom front atom
  | container front opens parts inside => exact isLocal_container front opens parts inside
  | close front => exact isLocal_close front
  | @part container _ _ _ _ _ separated labelled inner later here others =>
    cases container with
    | list =>
      cases labelled with
      | item =>
        rw [List.append_nil]
        exact isLocal_item separated inner later here others
    | object => exact isLocal_entry separated labelled inner later here others

end DecoderForge.Json
