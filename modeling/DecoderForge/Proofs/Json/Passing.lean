/-
This file proves that exactly the values of the grammar are passed over.
-/

import DecoderForge.Proofs.Json.NumberToken
import DecoderForge.Proofs.Json.StringBody

namespace DecoderForge.Json

open Text

namespace Cursor

theorem skipBlank_append {indent rest : List Char} {c : Char} (front : Blank indent)
    (other : isBlank c = false) (offset : Nat) :
    skipBlank ⟨indent ++ c :: rest, offset⟩ = ⟨c :: rest, offset + indent.length⟩ := by
  have stops : Stops isBlank (c :: rest) := .of_head other rest
  simp only [skipBlank, takeWhile_word front stops, dropWhile_word front stops]

@[simp] theorem skipBlank_skipBlank (cursor : Cursor) :
    cursor.skipBlank.skipBlank = cursor.skipBlank := by
  have stops := stops_dropWhile isBlank cursor.chars
  have again := dropWhile_word (List.forall_mem_nil _) stops
  have none := takeWhile_word (List.forall_mem_nil _) stops
  rw [List.nil_append] at again none
  simp only [skipBlank, again, none, List.length_nil, Nat.add_zero]

theorem skipBlank_sound (cursor : Cursor) :
    ∃ indent, Blank indent ∧ cursor.chars = indent ++ cursor.skipBlank.chars :=
  ⟨_, fun _ => List.mem_takeWhile_imp, List.takeWhile_append_dropWhile.symm⟩

theorem word_eq_ok_iff {cursor stop : Cursor} {letters : List Char} :
    cursor.word letters = .ok stop ↔ cursor.Passes letters stop := by
  obtain ⟨chars, offset⟩ := cursor
  induction letters generalizing chars offset with
  | nil =>
    obtain ⟨rest, behind⟩ := stop
    simp [word, Passes, eq_comm]
  | cons letter letters ih =>
    cases chars with
    | nil => simp [word, Passes]
    | cons c chars =>
      rw [word]
      dsimp only
      split
      · next same =>
        rw [skip, ih]
        simp [Passes, same, Nat.add_comm, Nat.add_left_comm]
      · next other => simp [Passes, other]

end Cursor

namespace Numeral

theorem Unsigned.head {n : Numeral} {text : List Char} (unsigned : n.Unsigned text) :
    ∃ c more, text = c :: more ∧ c.isDigit = true := by
  obtain @⟨negative, whole, fraction, point, power, exponent, before, places, scale⟩ := unsigned
  obtain ⟨c, more, rfl⟩ := List.exists_cons_of_ne_nil before.nonempty
  exact ⟨c, more ++ point ++ power, rfl, before.each c List.mem_cons_self⟩

/-- A text spells one number at most. -/
theorem Unsigned.unique {n other : Numeral} {text : List Char} (unsigned : n.Unsigned text)
    (again : other.Unsigned text) (sign : n.negative = other.negative) : n = other := by
  have read := numeral_of_stops .keep unsigned (stops_nil _) 0
  rw [sign, numeral_of_stops .keep again (stops_nil _) 0] at read
  exact (Prod.mk.inj (Except.ok.inj read)).1.symm

theorem Spelled.unique {n other : Numeral} {text : List Char} (spelled : n.Spelled text)
    (again : other.Spelled text) : n = other := by
  have digital {rest : List Char} {m : Numeral} : ¬ m.Unsigned ('-' :: rest) := by
    intro unsigned
    obtain ⟨c, more, same, digit⟩ := unsigned.head
    rw [← (List.cons.inj same).1] at digit
    contradiction
  cases spelled with
  | positive sign unsigned =>
    cases again with
    | positive sign' unsigned' => exact unsigned.unique unsigned' (sign.trans sign'.symm)
    | negative sign' unsigned' => exact absurd unsigned digital
  | negative sign unsigned =>
    cases again with
    | positive sign' unsigned' => exact absurd unsigned' digital
    | negative sign' unsigned' => exact unsigned.unique unsigned' (sign.trans sign'.symm)

theorem Spelled.head {n : Numeral} {text : List Char} (spelled : n.Spelled text) :
    ∃ c more, text = c :: more ∧ (c = '-' ∨ c.isDigit = true) := by
  cases spelled with
  | positive sign unsigned =>
    obtain ⟨c, more, rfl, digit⟩ := unsigned.head
    exact ⟨c, more, rfl, .inr digit⟩
  | negative sign unsigned => exact ⟨'-', _, rfl, .inl rfl⟩

end Numeral

/-- A digit is no other first character of a value. -/
theorem ne_of_isDigit {c : Char} (digit : c.isDigit = true) :
    c ≠ 'n' ∧ c ≠ 't' ∧ c ≠ 'f' ∧ c ≠ '"' ∧ c ≠ '-' := by
  refine ⟨?_, ?_, ?_, ?_, ?_⟩ <;> rintro rfl <;> contradiction

theorem passAtom_of_isDigit {c : Char} (digit : c.isDigit = true) (rest : List Char)
    (offset : Nat) :
    passAtom ⟨c :: rest, offset⟩ = (numeral .pass false ⟨c :: rest, offset⟩).map Prod.snd := by
  simp [passAtom, ne_of_isDigit digit, digit]

/-- A string is passed over, whatever follows it. -/
theorem stringToken_pass {body : List Char} (string : StringBody body) (offset : Nat) :
    ∃ found stop, ∀ rest, stringToken .pass ⟨body ++ rest, offset⟩ = .ok (found, ⟨rest, stop⟩) := by
  obtain ⟨result, read, passed⟩ := stringFrom_append .pass .plain string offset
  cases result with
  | ok found =>
    refine ⟨String.ofList found.1, found.2, fun rest => ?_⟩
    rw [stringToken, read rest]
    rfl
  | error fault => exact absurd (passed rfl trivial) Bool.false_ne_true

/-- A value without parts is passed over as a whole. -/
theorem passAtom_of_text {text : List Char} (atom : AtomText text) (offset : Nat) :
    ∃ stop, ∀ rest, (∀ n : Numeral, n.Spelled text → Stops n.goesOn rest) →
      passAtom ⟨text ++ rest, offset⟩ = .ok ⟨rest, stop⟩ := by
  cases atom with
  | word known =>
    simp only [List.mem_cons, List.not_mem_nil, or_false] at known
    rcases known with rfl | rfl | rfl
    · exact ⟨offset + 1 + 3, fun rest _ => Cursor.word_eq_ok_iff.mpr ⟨rfl, rfl⟩⟩
    · exact ⟨offset + 1 + 3, fun rest _ => Cursor.word_eq_ok_iff.mpr ⟨rfl, rfl⟩⟩
    · exact ⟨offset + 1 + 4, fun rest _ => Cursor.word_eq_ok_iff.mpr ⟨rfl, rfl⟩⟩
  | @number n _ numeral =>
    cases numeral with
    | positive sign unsigned =>
      refine ⟨offset + text.length, fun rest ends => ?_⟩
      have read := numeral_of_stops .pass unsigned (ends n (.positive sign unsigned)) offset
      obtain ⟨c, more, rfl, digit⟩ := unsigned.head
      rw [sign, List.cons_append] at read
      rw [List.cons_append, passAtom_of_isDigit digit, read]
      rfl
    | @negative chars sign unsigned =>
      refine ⟨offset + 1 + chars.length, fun rest ends => ?_⟩
      have read := numeral_of_stops .pass unsigned (ends n (.negative sign unsigned)) (offset + 1)
      rw [sign] at read
      show (numeral .pass true ⟨chars ++ rest, offset + 1⟩).map Prod.snd = _
      rw [read]
      rfl
  | @string body string =>
    obtain ⟨found, stop, read⟩ := stringToken_pass string (offset + 1)
    refine ⟨stop, fun rest _ => ?_⟩
    show (stringToken .pass ⟨body ++ rest, offset + 1⟩).map Prod.snd = _
    rw [read rest]
    rfl

/-- A value without parts in front of other characters. -/
def BeginsWithAtom (chars rest : List Char) : Prop :=
  ∃ text, AtomText text ∧ chars = text ++ rest ∧ ∀ n : Numeral, n.Spelled text → Stops n.goesOn rest

theorem beginsWithAtom_of_word {letter : Char} {letters : List Char} {cursor stop : Cursor}
    (known : letter :: letters ∈ ["null".toList, "true".toList, "false".toList])
    (read : cursor.word letters = .ok stop) :
    BeginsWithAtom (letter :: cursor.chars) stop.chars := by
  refine ⟨_, .word known, congrArg _ (Cursor.word_eq_ok_iff.mp read).1, fun n spelled => ?_⟩
  obtain ⟨c, more, same, first⟩ := spelled.head
  rw [same] at known
  simp only [List.mem_cons, List.not_mem_nil, or_false] at known
  have heads : c = 'n' ∨ c = 't' ∨ c = 'f' :=
    known.imp (fun word => (List.cons.inj word).1)
      (.imp (fun word => (List.cons.inj word).1) fun word => (List.cons.inj word).1)
  rcases heads with rfl | rfl | rfl <;> exact absurd first (by decide)

theorem beginsWithAtom_of_string {mode : Mode} {cursor stop : Cursor} {found : String}
    (read : stringToken mode cursor = .ok (found, stop)) :
    BeginsWithAtom ('"' :: cursor.chars) stop.chars := by
  obtain ⟨text, body, split⟩ := stringToken_sound read
  refine ⟨'"' :: text, .string body, congrArg _ split, fun n spelled => ?_⟩
  obtain ⟨c, more, same, first⟩ := spelled.head
  rw [← (List.cons.inj same).1] at first
  exact absurd first (by decide)

theorem beginsWithAtom_of_numeral {mode : Mode} {negative : Bool} {cursor stop : Cursor}
    {n : Numeral} (read : numeral mode negative cursor = .ok (n, stop)) :
    BeginsWithAtom ((if negative then ['-'] else []) ++ cursor.chars) stop.chars := by
  obtain ⟨sign, text, unsigned, passes, stops⟩ := numeral_sound read
  have spelled : n.Spelled ((if negative then ['-'] else []) ++ text) := by
    cases negative with
    | true => exact .negative sign unsigned
    | false => exact .positive sign unsigned
  refine ⟨_, .number spelled, by rw [passes.1, List.append_assoc], fun other again => ?_⟩
  rwa [again.unique spelled]

theorem passAtom_sound {cursor stop : Cursor} (passed : passAtom cursor = .ok stop) :
    BeginsWithAtom cursor.chars stop.chars := by
  obtain ⟨chars, offset⟩ := cursor
  match chars with
  | [] => contradiction
  | c :: chars =>
    simp only [passAtom] at passed
    split at passed
    · next letter =>
      exact letter ▸ beginsWithAtom_of_word (by decide) passed
    split at passed
    · next letter =>
      exact letter ▸ beginsWithAtom_of_word (by decide) passed
    split at passed
    · next letter =>
      exact letter ▸ beginsWithAtom_of_word (by decide) passed
    split at passed
    · next quotation =>
      obtain ⟨⟨found, stop⟩, read, rfl⟩ := Except.map_eq_ok_iff.mp passed
      exact quotation ▸ beginsWithAtom_of_string read
    split at passed
    · next minus =>
      obtain ⟨⟨n, stop⟩, read, rfl⟩ := Except.map_eq_ok_iff.mp passed
      exact minus ▸ beginsWithAtom_of_numeral read
    split at passed
    · next digit =>
      obtain ⟨⟨n, stop⟩, read, rfl⟩ := Except.map_eq_ok_iff.mp passed
      exact beginsWithAtom_of_numeral read
    · contradiction

/-- The first characters of values and keys. They close no container and separate no parts. -/
def isFront (c : Char) : Bool := !Cursor.isBlank c && !([']', '\x7d', ','].contains c)

theorem isFront_of_isDigit {c : Char} (digit : c.isDigit = true) :
    isFront c = true ∧ Container.ofOpening? c = none := by
  have ascii : c.toNat < 0x80 := by
    have top : c.toNat ≤ 57 := of_decide_eq_true ((Bool.and_eq_true _ _).mp digit).2
    omega
  have each : c.isDigit = true → isFront c = true ∧ Container.ofOpening? c = none :=
    of_ascii (by decide +kernel) ascii
  exact each digit

theorem AtomText.front {text : List Char} (atom : AtomText text) :
    ∃ c more, text = c :: more ∧ isFront c = true ∧ Container.ofOpening? c = none := by
  cases atom with
  | word known =>
    simp only [List.mem_cons, List.not_mem_nil, or_false] at known
    rcases known with rfl | rfl | rfl
    · exact ⟨'n', _, rfl, by decide⟩
    · exact ⟨'t', _, rfl, by decide⟩
    · exact ⟨'f', _, rfl, by decide⟩
  | number numeral =>
    obtain ⟨c, more, rfl, rfl | digit⟩ := numeral.head
    · exact ⟨'-', more, rfl, by decide⟩
    · exact ⟨c, more, rfl, isFront_of_isDigit digit⟩
  | string body => exact ⟨'"', _, rfl, by decide⟩

theorem isBlank_of_isFront {c : Char} (front : isFront c = true) : Cursor.isBlank c = false := by
  simpa using ((Bool.and_eq_true _ _).mp front).1

/-- What stands behind a value is told from the value without the blanks before it. -/
theorem ends_append_iff {indent text behind : List Char} {c : Char} (front : Blank indent)
    (other : Cursor.isBlank c = false) :
    Ends (indent ++ c :: text) behind ↔
      ∀ n : Numeral, n.Spelled (c :: text) → Stops n.goesOn behind := by
  constructor
  · intro ends n spelled
    exact ends indent _ n front spelled rfl
  · intro ends indent' chars n front' spelled same
    obtain ⟨d, more, rfl, first⟩ := spelled.head
    have nonblank : Cursor.isBlank d = false := by
      rcases first with rfl | digit
      · rfl
      · exact isBlank_of_isFront (isFront_of_isDigit digit).1
    obtain ⟨_, rest⟩ :=
      word_append_inj front front' (.of_head other text) (.of_head nonblank more) same
    exact ends n (rest ▸ spelled)

theorem isFront_of_ofOpening? {c : Char} {container : Container}
    (opens : Container.ofOpening? c = some container) :
    isFront c = true ∧ c ≠ '-' ∧ c.isDigit = false := by
  unfold Container.ofOpening? at opens
  split at opens
  · next bracket => exact bracket ▸ by decide
  split at opens
  · next brace => exact brace ▸ by decide
  · contradiction

/-- Behind a value with parts anything may stand. -/
theorem ends_container {indent rest : List Char} {bracket : Char} {container : Container}
    (front : Blank indent) (opens : Container.ofOpening? bracket = some container)
    (behind : List Char) : Ends (indent ++ bracket :: rest) behind := by
  obtain ⟨first, minus, digit⟩ := isFront_of_ofOpening? opens
  refine (ends_append_iff front (isBlank_of_isFront first)).mpr fun n spelled => ?_
  obtain ⟨c, more, same, either⟩ := spelled.head
  rw [← (List.cons.inj same).1] at either
  rcases either with rfl | other
  · exact absurd rfl minus
  · rw [digit] at other
    contradiction

theorem IsValue.front {value : List Char} (spelled : IsValue value) :
    ∃ indent c more, Blank indent ∧ isFront c = true ∧ value = indent ++ c :: more := by
  cases spelled with
  | @atom indent chars front atom =>
    obtain ⟨c, more, rfl, first, _⟩ := atom.front
    exact ⟨indent, c, more, front, first, rfl⟩
  | container front opens parts =>
    exact ⟨_, _, _, front, (isFront_of_ofOpening? opens).1, rfl⟩

/-- A part begins with the quotation mark of its key, or as its value does. -/
theorem front_of_part {container : Container} {label value : List Char}
    (labelled : Label container label) (spelled : IsValue value) :
    ∃ indent c more, Blank indent ∧ isFront c = true ∧ label ++ value = indent ++ c :: more := by
  cases labelled with
  | item => exact spelled.front
  | @key indent body space front string behind =>
    refine ⟨indent, '"', body ++ space ++ [':'] ++ value, front, by decide, ?_⟩
    simp only [List.append_assoc, List.cons_append]

theorem colon_of_blank {space : List Char} (blank : Blank space) (rest : List Char)
    (offset : Nat) :
    colon ⟨space ++ ':' :: rest, offset⟩ = .ok ⟨rest, offset + space.length + 1⟩ := by
  rw [colon, Cursor.skipBlank_append blank (by decide)]
  rfl

theorem colon_sound {cursor stop : Cursor} (read : colon cursor = .ok stop) :
    ∃ space, Blank space ∧ cursor.chars = space ++ ':' :: stop.chars := by
  obtain ⟨space, blank, split⟩ := cursor.skipBlank_sound
  unfold colon at read
  dsimp only at read
  split at read
  · contradiction
  · next c rest first =>
    split at read
    · next same =>
      cases read
      refine ⟨space, blank, ?_⟩
      rw [split, Cursor.skip, first, same]
      rfl
    · contradiction

theorem passLabel_skipBlank (cursor : Cursor) :
    passLabel .object cursor.skipBlank = passLabel .object cursor := by
  simp only [passLabel, Cursor.skipBlank_skipBlank]

theorem passLabel_of_label {container : Container} {label : List Char}
    (labelled : Label container label) (offset : Nat) :
    ∃ stop, ∀ rest, passLabel container ⟨label ++ rest, offset⟩ = .ok ⟨rest, stop⟩ := by
  cases labelled with
  | item => exact ⟨offset, fun rest => rfl⟩
  | @key indent body space front string behind =>
    obtain ⟨found, stop, read⟩ := stringToken_pass string (offset + indent.length + 1)
    refine ⟨stop + space.length + 1, fun rest => ?_⟩
    have chars : indent ++ '"' :: body ++ space ++ [':'] ++ rest =
        indent ++ '"' :: (body ++ (space ++ ':' :: rest)) := by
      simp only [List.append_assoc, List.cons_append, List.nil_append]
    rw [chars, passLabel, Cursor.skipBlank_append front (by decide)]
    show (stringToken .pass ⟨body ++ (space ++ ':' :: rest), offset + indent.length + 1⟩).bind
      (colon ∘ Prod.snd) = _
    rw [read]
    exact colon_of_blank behind rest stop

theorem passLabel_sound {container : Container} {cursor stop : Cursor}
    (passed : passLabel container cursor = .ok stop) :
    ∃ label, Label container label ∧ cursor.chars = label ++ stop.chars := by
  cases container with
  | list =>
    cases passed
    exact ⟨[], .item, rfl⟩
  | object =>
    obtain ⟨indent, front, split⟩ := cursor.skipBlank_sound
    unfold passLabel at passed
    dsimp only at passed
    split at passed
    · contradiction
    · next c rest first =>
      split at passed
      · next quotation =>
        obtain ⟨⟨found, behind⟩, string, coloned⟩ := Except.bind_eq_ok_iff.mp passed
        obtain ⟨space, blank, after⟩ := colon_sound coloned
        obtain ⟨body, spelled, text⟩ := stringToken_sound string
        refine ⟨_, .key front spelled blank, ?_⟩
        have inside : rest = body ++ behind.chars := by simpa [Cursor.skip, first] using text
        rw [split, first, quotation, inside, after]
        simp only [List.append_assoc, List.cons_append, List.nil_append]
      · contradiction

/-- A value in front of other characters. -/
def BeginsWithValue (chars rest : List Char) : Prop :=
  ∃ value, IsValue value ∧ chars = value ++ rest ∧ Ends value rest

theorem BeginsWithAtom.value {indent chars rest : List Char} (front : Blank indent)
    (begins : BeginsWithAtom chars rest) : BeginsWithValue (indent ++ chars) rest := by
  obtain ⟨text, atom, rfl, stops⟩ := begins
  obtain ⟨c, more, rfl, first, _⟩ := atom.front
  exact ⟨_, .atom front atom, (List.append_assoc _ _ _).symm,
    (ends_append_iff front (isBlank_of_isFront first)).mpr stops⟩

theorem Blank.append {chars more : List Char} (front : Blank chars) (behind : Blank more) :
    Blank (chars ++ more) :=
  List.forall_mem_append.mpr ⟨front, behind⟩

theorem BeginsWithValue.indent {indent chars rest : List Char} (front : Blank indent)
    (begins : BeginsWithValue chars rest) : BeginsWithValue (indent ++ chars) rest := by
  obtain ⟨value, spelled, rfl, ends⟩ := begins
  cases spelled with
  | atom blank atom =>
    rw [← List.append_assoc, ← List.append_assoc]
    refine ⟨_, .atom (front.append blank) atom, rfl, ?_⟩
    obtain ⟨c, more, rfl, first, _⟩ := atom.front
    have other := isBlank_of_isFront first
    exact (ends_append_iff (front.append blank) other).mpr ((ends_append_iff blank other).mp ends)
  | container blank opens parts =>
    have both := front.append blank
    rw [← List.append_assoc, ← List.append_assoc]
    exact ⟨_, .container both opens parts, rfl, ends_container both opens rest⟩

/-- The rest of a container in front of other characters. -/
def BeginsWithParts (container : Container) (first : Bool) (chars rest : List Char) : Prop :=
  ∃ parts, (Phrase.parts container first).Spelled parts ∧ chars = parts ++ rest

/-- A part with its label and a comma, if there is one before it. -/
theorem beginsWithParts_of_part {container : Container} {first : Bool}
    {separator indent label chars later rest : List Char} (separated : Separator first separator)
    (front : Blank indent) (labelled : Label container label)
    (inner : BeginsWithValue chars later) (parts : BeginsWithParts container false later rest) :
    BeginsWithParts container first (separator ++ indent ++ label ++ chars) rest := by
  obtain ⟨last, spelled, rfl⟩ := parts
  cases labelled with
  | item =>
    obtain ⟨value, inside, same, _⟩ := inner.indent front
    refine ⟨_, .part separated .item inside spelled, ?_⟩
    simp only [List.append_assoc, List.nil_append, same]
  | key before string behind =>
    obtain ⟨value, inside, rfl, _⟩ := inner
    refine ⟨_, .part separated (.key (front.append before) string behind) inside spelled, ?_⟩
    simp only [List.append_assoc, List.cons_append, List.nil_append]

theorem beginsWithValue_of_parts {container : Container} {bracket : Char} {chars rest : List Char}
    (opens : Container.ofOpening? bracket = some container)
    (parts : BeginsWithParts container true chars rest) :
    BeginsWithValue (bracket :: chars) rest := by
  obtain ⟨text, spelled, rfl⟩ := parts
  have none : Blank [] := List.forall_mem_nil _
  exact ⟨_, .container none opens spelled, rfl, ends_container none opens rest⟩

section

variable {fuel : Nat}
  (values : ∀ cursor stop, passFrom fuel cursor = .ok stop →
    BeginsWithValue cursor.chars stop.chars)
  (parts : ∀ container first cursor stop, passParts fuel container first cursor = .ok stop →
    BeginsWithParts container first cursor.chars stop.chars)

include parts

theorem passFrom_succ_sound {cursor stop : Cursor}
    (passed : passFrom (fuel + 1) cursor = .ok stop) :
    BeginsWithValue cursor.chars stop.chars := by
  obtain ⟨indent, front, split⟩ := cursor.skipBlank_sound
  rw [split]
  unfold passFrom at passed
  dsimp only at passed
  split at passed
  · next container opens =>
    obtain ⟨bracket, head, opens⟩ := Option.bind_eq_some_iff.mp opens
    obtain ⟨rest, first⟩ := List.head?_eq_some_iff.mp head
    have inside := parts container true _ _ passed
    rw [Cursor.skip, first] at inside
    rw [first]
    exact (beginsWithValue_of_parts opens inside).indent front
  · exact (passAtom_sound passed).value front

include values

/-- A part, its label and the parts behind it, with a comma in front of them or without. -/
theorem passPart_sound {container : Container} {first : Bool} {separator indent : List Char}
    {next stop : Cursor} (separated : Separator first separator) (front : Blank indent)
    (passed : ((passLabel container next).bind fun start =>
      (passFrom fuel start).bind (passParts fuel container false)) = .ok stop) :
    BeginsWithParts container first (separator ++ indent ++ next.chars) stop.chars := by
  simp only [Except.bind_eq_ok_iff] at passed
  obtain ⟨start, label, behind, value, last⟩ := passed
  obtain ⟨text, labelled, same⟩ := passLabel_sound label
  rw [same, ← List.append_assoc]
  exact beginsWithParts_of_part separated front labelled (values _ _ value) (parts _ _ _ _ last)

theorem passParts_succ_sound {container : Container} {first : Bool} {cursor stop : Cursor}
    (passed : passParts (fuel + 1) container first cursor = .ok stop) :
    BeginsWithParts container first cursor.chars stop.chars := by
  obtain ⟨indent, front, split⟩ := cursor.skipBlank_sound
  unfold passParts at passed
  dsimp only at passed
  split at passed
  · contradiction
  next c rest ahead =>
  split at passed
  · next closing =>
    cases passed
    refine ⟨_, .close front, ?_⟩
    rw [split, Cursor.skip, ahead, closing, List.append_assoc]
    rfl
  split at passed
  · next alone =>
    obtain rfl : first = true := alone
    rw [split]
    exact passPart_sound values parts .none front passed
  split at passed
  · next alone comma =>
    obtain rfl : first = false := Bool.not_eq_true _ ▸ alone
    have more := passPart_sound values parts (.comma front) (List.forall_mem_nil _) passed
    have chars : cursor.chars = indent ++ [','] ++ [] ++ cursor.skipBlank.skip.chars := by
      rw [split, Cursor.skip, ahead, comma]
      simp
    rwa [chars]
  · contradiction

end

/-- What is passed over is a value, and what is passed over behind an opening bracket is the rest
of a container. -/
theorem passFrom_sound (fuel : Nat) :
    (∀ cursor stop, passFrom fuel cursor = .ok stop → BeginsWithValue cursor.chars stop.chars) ∧
      ∀ container first cursor stop, passParts fuel container first cursor = .ok stop →
        BeginsWithParts container first cursor.chars stop.chars := by
  induction fuel with
  | zero => exact ⟨nofun, nofun⟩
  | succ fuel ih =>
    obtain ⟨values, parts⟩ := ih
    exact ⟨fun _ _ => passFrom_succ_sound parts,
      fun _ _ _ _ => passParts_succ_sound values parts⟩

/-- No phrase is without characters. -/
theorem Phrase.Spelled.length_pos {phrase : Phrase} {text : List Char}
    (spelled : phrase.Spelled text) : 0 < text.length := by
  induction spelled with
  | atom front atom =>
    obtain ⟨c, more, rfl, _⟩ := atom.front
    simp only [List.length_append, List.length_cons]
    omega
  | container front opens parts ih =>
    simp only [List.length_append, List.length_cons]
    omega
  | close front => simp
  | part separated labelled inner later value parts =>
    simp only [List.length_append]
    omega

/-- What a reader that passes over a phrase does with its text, whatever stands behind it. -/
def Phrase.Passes : Phrase → List Char → Prop
  | .value, text => ∀ offset, ∃ stop, ∀ fuel rest, 2 * text.length ≤ fuel → Ends text rest →
    passFrom fuel ⟨text ++ rest, offset⟩ = .ok ⟨rest, stop⟩
  | .parts container first, text => ∀ offset, ∃ stop, ∀ fuel rest, 2 * text.length ≤ fuel →
    passParts fuel container first ⟨text ++ rest, offset⟩ = .ok ⟨rest, stop⟩

theorem passFrom_skipBlank (fuel : Nat) (cursor : Cursor) :
    passFrom (fuel + 1) cursor.skipBlank = passFrom (fuel + 1) cursor := by
  simp only [passFrom, Cursor.skipBlank_skipBlank]

/-- Blanks before a part are passed over with its label or its value. -/
theorem passLabel_bind_skipBlank {γ : Type} (container : Container) (fuel : Nat) (cursor : Cursor)
    (next : Cursor → Except Fault γ) :
    ((passLabel container cursor.skipBlank).bind fun start =>
        (passFrom (fuel + 1) start).bind next) =
      (passLabel container cursor).bind fun start => (passFrom (fuel + 1) start).bind next := by
  cases container with
  | list => simp only [passLabel, Except.bind, passFrom_skipBlank]
  | object => rw [passLabel_skipBlank]

/-- Behind a part comes the closing bracket or a comma. -/
theorem parts_begin {container : Container} {parts : List Char}
    (spelled : (Phrase.parts container false).Spelled parts) :
    ∃ indent c more, Blank indent ∧ (c = container.closing ∨ c = ',') ∧
      parts = indent ++ c :: more := by
  cases spelled with
  | close front => exact ⟨_, _, [], front, .inl rfl, rfl⟩
  | @part _ _ separator label value rest separated labelled inner later =>
    cases separated with
    | @comma indent front =>
      refine ⟨indent, ',', label ++ value ++ rest, front, .inr rfl, ?_⟩
      simp only [List.append_assoc, List.cons_append, List.nil_append]

/-- No value goes on with the rest of its container. -/
theorem ends_of_parts {container : Container} {value parts : List Char}
    (spelled : (Phrase.parts container false).Spelled parts) (rest : List Char) :
    Ends value (parts ++ rest) := by
  have stops {n : Numeral} {c : Char} (other : c ∈ [' ', '\n', '\t', '\r', ']', '\x7d', ','])
      (more : List Char) : Stops n.goesOn (c :: more) := by
    have each : ([' ', '\n', '\t', '\r', ']', '\x7d', ','].all fun c =>
        !c.isDigit && c != 'e' && c != 'E' && c != '.') = true := by decide
    have here := List.all_eq_true.mp each c other
    simp only [Bool.and_eq_true, Bool.not_eq_true', bne_iff_ne] at here
    refine .of_head ?_ more
    simp [Numeral.goesOn, here]
  obtain ⟨indent, c, more, front, either, rfl⟩ := parts_begin spelled
  intro _ _ n _ _ _
  cases indent with
  | nil =>
    refine stops ?_ _
    rcases either with rfl | rfl
    · cases container <;> decide
    · decide
  | cons blank indent =>
    refine stops ?_ _
    have first := front blank List.mem_cons_self
    simp only [Cursor.isBlank, Bool.or_eq_true, beq_iff_eq] at first
    rcases first with ((rfl | rfl) | rfl) | rfl <;> decide

theorem passes_atom {indent text : List Char} (front : Blank indent) (atom : AtomText text) :
    Phrase.value.Passes (indent ++ text) := by
  intro offset
  obtain ⟨c, more, rfl, first, plain⟩ := atom.front
  obtain ⟨stop, passed⟩ := passAtom_of_text atom (offset + indent.length)
  refine ⟨stop, fun fuel rest enough ends => ?_⟩
  match fuel with
  | 0 => simp at enough
  | fuel + 1 =>
    have other := isBlank_of_isFront first
    have here := passed rest ((ends_append_iff front other).mp ends)
    rw [List.append_assoc, List.cons_append, passFrom, Cursor.skipBlank_append front other]
    simp only [List.head?_cons, Option.bind_some, plain]
    exact here

theorem passes_container {indent parts : List Char} {bracket : Char} {container : Container}
    (front : Blank indent) (opens : Container.ofOpening? bracket = some container)
    (inside : (Phrase.parts container true).Passes parts) :
    Phrase.value.Passes (indent ++ bracket :: parts) := by
  intro offset
  obtain ⟨stop, passed⟩ := inside (offset + indent.length + 1)
  refine ⟨stop, fun fuel rest enough ends => ?_⟩
  match fuel with
  | 0 => simp at enough
  | fuel + 1 =>
    have other := isBlank_of_isFront (isFront_of_ofOpening? opens).1
    rw [List.append_assoc, List.cons_append, passFrom, Cursor.skipBlank_append front other]
    simp only [List.head?_cons, Option.bind_some, opens]
    refine passed fuel rest ?_
    simp at enough
    omega

theorem passes_close {container : Container} {first : Bool} {indent : List Char}
    (front : Blank indent) :
    (Phrase.parts container first).Passes (indent ++ [container.closing]) := by
  intro offset
  refine ⟨offset + indent.length + 1, fun fuel rest enough => ?_⟩
  match fuel with
  | 0 => simp at enough
  | fuel + 1 =>
    have other : Cursor.isBlank container.closing = false := by cases container <;> rfl
    rw [List.append_assoc, List.singleton_append, passParts, Cursor.skipBlank_append front other]
    simp only [if_true]
    rfl

/-- In front of its first part a container goes on with the label. -/
theorem passParts_first {container : Container} {indent rest : List Char} {c : Char}
    (front : Blank indent) (first : isFront c = true) (fuel offset : Nat) :
    passParts (fuel + 2) container true ⟨indent ++ c :: rest, offset⟩ =
      (passLabel container ⟨indent ++ c :: rest, offset⟩).bind fun start =>
        (passFrom (fuel + 1) start).bind (passParts (fuel + 1) container false) := by
  have skips : Cursor.skipBlank ⟨indent ++ c :: rest, offset⟩ =
      ⟨c :: rest, offset + indent.length⟩ :=
    Cursor.skipBlank_append front (isBlank_of_isFront first) offset
  have other : c ≠ container.closing := by
    rintro rfl
    cases container <;> contradiction
  rw [← passLabel_bind_skipBlank container fuel ⟨indent ++ c :: rest, offset⟩, passParts,
    skips]
  simp only [if_neg other, if_true]

/-- Behind a comma a container goes on with the label of the next part. -/
theorem passParts_comma {container : Container} {indent rest : List Char} (front : Blank indent)
    (fuel offset : Nat) :
    passParts (fuel + 1) container false ⟨indent ++ ',' :: rest, offset⟩ =
      (passLabel container ⟨rest, offset + indent.length + 1⟩).bind fun start =>
        (passFrom fuel start).bind (passParts fuel container false) := by
  have other : ',' ≠ container.closing := by cases container <;> decide
  rw [passParts, Cursor.skipBlank_append front (by decide)]
  simp only [if_neg other, if_true, Bool.false_eq_true, if_false]
  rfl

section

variable {container : Container} {label value last : List Char}
  (labelled : Label container label) (inner : IsValue value)
  (later : (Phrase.parts container false).Spelled last) (here : Phrase.value.Passes value)
  (others : (Phrase.parts container false).Passes last)

include labelled inner later here others

/-- A label is passed over with its value and the parts behind it. -/
theorem passes_labelled (offset : Nat) : ∃ stop, ∀ fuel rest,
    2 * (value.length + last.length) ≤ fuel + 1 →
      ((passLabel container ⟨label ++ value ++ last ++ rest, offset⟩).bind fun start =>
        (passFrom fuel start).bind (passParts fuel container false)) = .ok ⟨rest, stop⟩ := by
  obtain ⟨start, labels⟩ := passLabel_of_label labelled offset
  obtain ⟨behind, passed⟩ := here start
  obtain ⟨stop, parts⟩ := others behind
  have some := inner.length_pos
  have more := later.length_pos
  refine ⟨stop, fun fuel rest enough => ?_⟩
  rw [List.append_assoc, List.append_assoc, labels]
  simp only [Except.bind]
  rw [passed fuel (last ++ rest) (by omega) (ends_of_parts later rest)]
  exact parts fuel rest (by omega)

theorem passes_part {first : Bool} {separator : List Char}
    (separated : Separator first separator) :
    (Phrase.parts container first).Passes (separator ++ label ++ value ++ last) := by
  intro offset
  cases separated with
  | none =>
    obtain ⟨indent, c, more, front, ahead, same⟩ := front_of_part labelled inner
    obtain ⟨stop, passed⟩ := passes_labelled labelled inner later here others offset
    refine ⟨stop, fun fuel rest enough => ?_⟩
    have some := inner.length_pos
    have more := later.length_pos
    simp only [List.nil_append, List.length_append] at enough
    match fuel with
    | 0 => omega
    | 1 => omega
    | fuel + 2 =>
      have goOn := passed (fuel + 1) rest (by omega)
      rw [same, List.append_assoc, List.append_assoc, List.cons_append] at goOn
      rw [List.nil_append, same, List.append_assoc, List.append_assoc, List.cons_append,
        passParts_first front ahead]
      exact goOn
  | @comma indent front =>
    obtain ⟨stop, passed⟩ :=
      passes_labelled labelled inner later here others (offset + indent.length + 1)
    refine ⟨stop, fun fuel rest enough => ?_⟩
    match fuel with
    | 0 => simp at enough
    | fuel + 1 =>
      have chars : indent ++ [','] ++ label ++ value ++ last ++ rest =
          indent ++ ',' :: (label ++ value ++ last ++ rest) := by simp
      rw [chars, passParts_comma front]
      refine passed fuel rest ?_
      simp at enough
      omega

end

theorem passes_of_spelled {phrase : Phrase} {text : List Char} (spelled : phrase.Spelled text) :
    phrase.Passes text := by
  induction spelled with
  | atom front atom => exact passes_atom front atom
  | container front opens _ inside => exact passes_container front opens inside
  | close front => exact passes_close front
  | part separated labelled inner later here others =>
    exact passes_part labelled inner later here others separated

theorem passValue_sound {cursor stop : Cursor} (passed : passValue cursor = .ok stop) :
    BeginsWithValue cursor.chars stop.chars :=
  (passFrom_sound _).1 cursor stop passed

/-- A value is passed over up to its end. -/
theorem passValue_of_value {value : List Char} (spelled : IsValue value) (offset : Nat) :
    ∃ stop, ∀ rest, Ends value rest → passValue ⟨value ++ rest, offset⟩ = .ok ⟨rest, stop⟩ := by
  obtain ⟨stop, passed⟩ := passes_of_spelled spelled offset
  refine ⟨stop, fun rest ends => passed _ rest ?_ ends⟩
  simp only [List.length_append]
  omega

end DecoderForge.Json
