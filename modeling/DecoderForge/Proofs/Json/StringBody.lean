/-
This file proves which texts are read as strings, and that what stands behind a string has no part
in what the string is read as.
-/

import DecoderForge.Proofs.Json.Grammar
import DecoderForge.Proofs.Loading.Result

namespace DecoderForge.Json

open Text

theorem isSome_hexValue?_iff {c : Char} :
    (hexValue? c).isSome = true ↔ c ∈ "0123456789abcdefABCDEF".toList := by
  rcases Nat.lt_or_ge c.toNat 0x80 with ascii | other
  · have each : (hexValue? c).isSome = true ↔ c ∈ "0123456789abcdefABCDEF".toList :=
      of_ascii (by decide +kernel) ascii
    exact each
  · have beyond {top : Char} (small : top.toNat < 0x80) : ¬ c ≤ top := by
      intro below
      have bound : c.toNat ≤ top.toNat := below
      omega
    have each : ("0123456789abcdefABCDEF".toList.all (·.toNat < 0x80)) = true := by decide
    have absent : c ∉ "0123456789abcdefABCDEF".toList := by
      intro inside
      have small := of_decide_eq_true (List.all_eq_true.mp each c inside)
      omega
    have none : hexValue? c = none := by simp [hexValue?, beyond]
    rw [none]
    exact iff_of_false Bool.false_ne_true absent

theorem isSome_escaped?_iff {c : Char} :
    (escaped? c).isSome = true ↔ c ∈ ['"', '\\', '/', 'b', 'f', 'n', 'r', 't'] := by
  unfold escaped?
  split
  · next same => simpa using same.imp_right (·.imp_right .inl)
  repeat' split
  all_goals simp_all

/-- The rest of a string that a reader in a state may take. -/
def StringState.Awaits : StringState → List Char → Prop
  | .plain, chars | .pairBackslash _, chars => StringBody chars
  | .escape, chars | .pairLetter _, chars => StringBody ('\\' :: chars)
  | .digits _ _ count _, chars => ∃ digits rest, digits.length = 3 - count + 1 ∧
    (∀ c ∈ digits, c ∈ "0123456789abcdefABCDEF".toList) ∧ StringBody rest ∧ chars = digits ++ rest

theorem StringState.Awaits.ne_nil {state : StringState} {chars : List Char}
    (awaits : state.Awaits chars) : chars ≠ [] := by
  rintro rfl
  have escape : ¬ StringBody ['\\'] := by
    intro body
    cases body with
    | plain quotation backslash control more => exact backslash rfl
  have plain : ¬ StringBody [] := nofun
  cases state with
  | plain => exact plain awaits
  | pairBackslash lead => exact plain awaits
  | escape => exact escape awaits
  | pairLetter lead => exact escape awaits
  | digits lead start count value =>
    obtain ⟨digits, rest, four, _, _, none⟩ := awaits
    obtain ⟨rfl, _⟩ := List.append_eq_nil_iff.mp none.symm
    contradiction

/-- Behind a backslash stands the letter u with digits, or another letter. -/
theorem escape_cases {c : Char} {chars : List Char} (body : StringBody ('\\' :: c :: chars)) :
    (c = 'u' ∧ ∀ lead start, (StringState.digits lead start 0 0).Awaits chars) ∨
      (c ≠ 'u' ∧ (escaped? c).isSome = true ∧ StringBody chars) := by
  cases body with
  | plain quotation backslash control more => exact absurd rfl backslash
  | escape named more =>
    refine .inr ⟨?_, isSome_escaped?_iff.mpr named, more⟩
    rintro rfl
    exact absurd named (by decide)
  | unit four each more => exact .inl ⟨rfl, fun _ _ => ⟨_, _, four, each, more, rfl⟩⟩

/-- Behind a code unit the string goes on. -/
theorem awaits_afterUnit_iff {lead : Option Nat} {unit : Nat} {state : StringState}
    {complete chars : List Char}
    (found : StringState.afterUnit lead unit = some (state, complete)) :
    state.Awaits chars ↔ StringBody chars := by
  unfold StringState.afterUnit at found
  split at found
  · split at found
    · contradiction
    split at found <;> cases found <;> exact Iff.rfl
  · split at found
    · cases found
      exact Iff.rfl
    · contradiction

/-- What is read of a string, with the cursor in front of what stands behind the string. -/
def inFrontOf (rest : List Char) (result : Except Fault (List Char × Nat)) :
    Except Fault (List Char × Cursor) :=
  result.map fun (chars, stop) => (chars, ⟨rest, stop⟩)

theorem map_inFrontOf (rest : List Char) (result : Except Fault (List Char × Nat))
    (f : List Char → List Char) :
    (inFrontOf rest result).map (fun (chars, cursor) => (f chars, cursor)) =
      inFrontOf rest (result.map fun (chars, stop) => (f chars, stop)) := by
  cases result <;> rfl

/-- The states in which no half of a pair is awaited. -/
def StringState.IsSingle : StringState → Prop
  | .pairBackslash _ | .pairLetter _ => False
  | _ => True

/-- What a reader in a state does with one character: it closes the string, goes on in another
state, refuses a character that no string has there, or misses the other half of a pair. -/
inductive ReadsChar (mode : Mode) (state : StringState) (offset : Nat) (c : Char) : Prop
  | closes (awaits : ∀ text, state.Awaits (c :: text) ↔ text = [])
    (read : ∀ rest, stringFrom mode state offset (c :: rest) =
      .ok ([], ⟨rest, offset + c.utf8Size⟩))
  | goesOn (next : StringState) (f : List Char → List Char)
    (awaits : ∀ text, state.Awaits (c :: text) ↔ next.Awaits text)
    (single : mode = .pass → state.IsSingle → next.IsSingle)
    (read : ∀ rest, stringFrom mode state offset (c :: rest) =
      (stringFrom mode next (offset + c.utf8Size) rest).map fun (chars, cursor) =>
        (f chars, cursor))
  | refuses (awaits : ∀ text, ¬ state.Awaits (c :: text))
    (read : ∀ rest, ∃ fault, stringFrom mode state offset (c :: rest) = .error fault)
  | misses (fault : Fault) (single : mode = .pass → ¬ state.IsSingle)
    (read : ∀ rest, stringFrom mode state offset (c :: rest) = .error fault)

section

variable {mode : Mode} {state : StringState} {offset : Nat} {c : Char}

/-- A character that adds nothing to what is read. -/
theorem ReadsChar.passes (next : StringState)
    (awaits : ∀ text, state.Awaits (c :: text) ↔ next.Awaits text)
    (single : mode = .pass → state.IsSingle → next.IsSingle)
    (read : ∀ rest, stringFrom mode state offset (c :: rest) =
      stringFrom mode next (offset + c.utf8Size) rest) :
    ReadsChar mode state offset c := by
  refine .goesOn next id awaits single fun rest => ?_
  rw [read]
  cases stringFrom mode next (offset + c.utf8Size) rest <;> rfl

/-- The letter u opens the digits of a code unit. -/
theorem awaits_unit_iff {lead : Option Nat} {start : Nat} {text : List Char} :
    StringBody ('\\' :: 'u' :: text) ↔ (StringState.digits lead start 0 0).Awaits text := by
  constructor
  · intro body
    obtain ⟨_, more⟩ | ⟨other, _⟩ := escape_cases body
    · exact more lead start
    · exact absurd rfl other
  · rintro ⟨digits, rest, four, each, more, rfl⟩
    exact .unit four each more

theorem readsChar_plain : ReadsChar mode .plain offset c := by
  by_cases quotation : c = '"'
  · subst quotation
    refine .closes (fun text => ⟨?_, fun none => none ▸ .close⟩) fun rest => rfl
    rintro (_ | _)
    · rfl
    · contradiction
  by_cases backslash : c = '\\'
  · subst backslash
    exact .passes .escape (fun text => Iff.rfl) (fun _ => id) fun rest => by simp [stringFrom]
  by_cases control : c.toNat < 0x20
  · refine .refuses (fun text body => ?_) fun rest => ?_
    · cases body with
      | close => exact quotation rfl
      | plain _ _ bound _ => omega
      | escape | unit => exact backslash rfl
    · simp only [stringFrom, if_neg quotation, if_neg backslash, if_pos control]
      exact ⟨_, rfl⟩
  · refine .goesOn .plain (c :: ·) (fun text => ⟨fun body => ?_, ?_⟩)
      (fun _ => id) fun rest => ?_
    · cases body with
      | close => exact absurd rfl quotation
      | plain _ _ _ more => exact more
      | escape | unit => exact absurd rfl backslash
    · exact .plain quotation backslash (Nat.not_lt.mp control)
    · simp only [stringFrom, if_neg quotation, if_neg backslash, if_neg control]

theorem readsChar_escape : ReadsChar mode .escape offset c := by
  by_cases letter : c = 'u'
  · subst letter
    exact .passes (.digits none (offset + 'u'.utf8Size) 0 0) (fun text => awaits_unit_iff)
      (fun _ => id) fun rest => by simp only [stringFrom, if_true]
  cases names : escaped? c with
  | none =>
    refine .refuses (fun text body => ?_) fun rest => ?_
    · obtain ⟨same, _⟩ | ⟨_, named, _⟩ := escape_cases body
      · exact letter same
      · rw [names] at named
        contradiction
    · simp only [stringFrom, if_neg letter, names]
      exact ⟨_, rfl⟩
  | some named =>
    refine .goesOn .plain (named :: ·) (fun text => ⟨fun body => ?_, ?_⟩)
      (fun _ => id) fun rest => ?_
    · obtain ⟨same, _⟩ | ⟨_, _, more⟩ := escape_cases body
      · exact absurd same letter
      · exact more
    · exact .escape (isSome_escaped?_iff.mp (Option.isSome_of_eq_some names))
    · simp only [stringFrom, if_neg letter, names]

/-- One more digit in front of those that are awaited. -/
theorem awaits_digit_iff {lead : Option Nat} {start count value : Nat} {text : List Char} :
    (StringState.digits lead start count value).Awaits (c :: text) ↔
      c ∈ "0123456789abcdefABCDEF".toList ∧ ∃ digits rest, digits.length = 3 - count ∧
        (∀ c ∈ digits, c ∈ "0123456789abcdefABCDEF".toList) ∧ StringBody rest ∧
        text = digits ++ rest := by
  constructor
  · rintro ⟨digits, rest, length, each, more, same⟩
    match digits with
    | d :: digits =>
      obtain ⟨rfl, rfl⟩ := List.cons.inj same
      obtain ⟨hexadecimal, others⟩ := List.forall_mem_cons.mp each
      exact ⟨hexadecimal, digits, rest, by simpa using length, others, more, rfl⟩
  · rintro ⟨hexadecimal, digits, rest, length, each, more, rfl⟩
    exact ⟨c :: digits, rest, by simpa using length, List.forall_mem_cons.mpr ⟨hexadecimal, each⟩,
      more, rfl⟩

/-- With the fourth digit the code unit is complete. -/
theorem awaits_lastDigit_iff {lead : Option Nat} {start count value : Nat} {text : List Char}
    (many : ¬ count < 3) (hexadecimal : c ∈ "0123456789abcdefABCDEF".toList) :
    (StringState.digits lead start count value).Awaits (c :: text) ↔ StringBody text := by
  have last : 3 - count = 0 := by omega
  simp only [awaits_digit_iff, hexadecimal, true_and, last, List.length_eq_zero_iff]
  constructor
  · rintro ⟨_, rest, rfl, _, more, rfl⟩
    exact more
  · exact fun more => ⟨[], text, rfl, nofun, more, rfl⟩

theorem readsChar_digits {lead : Option Nat} {start count value : Nat} :
    ReadsChar mode (.digits lead start count value) offset c := by
  cases known : hexValue? c with
  | none =>
    refine .refuses (fun text awaits => ?_) fun rest => ?_
    · have named := isSome_hexValue?_iff.mpr (awaits_digit_iff.mp awaits).1
      rw [known] at named
      contradiction
    · simp only [stringFrom, known]
      split <;> exact ⟨_, rfl⟩
  | some digit =>
    have hexadecimal := isSome_hexValue?_iff.mp (Option.isSome_of_eq_some known)
    by_cases fewer : count < 3
    · refine .passes (.digits lead start (count + 1) (16 * value + digit)) (fun text => ?_)
        (fun _ => id) fun rest => by simp only [stringFrom, known, if_pos fewer]
      have left : 3 - (count + 1) + 1 = 3 - count := by omega
      rw [awaits_digit_iff]
      simp only [hexadecimal, true_and, StringState.Awaits, left]
    by_cases pass : mode = .pass
    · exact .passes .plain (fun text => awaits_lastDigit_iff fewer hexadecimal) (fun _ => id)
        fun rest => by simp only [stringFrom, known, if_neg fewer, if_pos pass]
    cases complete : StringState.afterUnit lead (16 * value + digit) with
    | none =>
      refine .misses ⟨.loneSurrogate, offset + c.utf8Size⟩ (fun passed => absurd passed pass)
        fun rest => ?_
      simp only [stringFrom, known, if_neg fewer, if_neg pass, complete]
    | some found =>
      refine .goesOn found.1 (found.2 ++ ·) (fun text => ?_) (fun passed => absurd passed pass)
        fun rest => by simp only [stringFrom, known, if_neg fewer, if_neg pass, complete]
      rw [awaits_lastDigit_iff fewer hexadecimal, awaits_afterUnit_iff complete]

theorem readsChar_pairBackslash {lead : Nat} : ReadsChar mode (.pairBackslash lead) offset c := by
  by_cases backslash : c = '\\'
  · subst backslash
    exact .passes (.pairLetter lead) (fun text => Iff.rfl) (fun _ => id) fun rest => by
      simp only [stringFrom, if_true]
  · exact .misses ⟨.unfinishedSurrogates, offset + 1⟩ (fun _ => id) fun rest => by
      simp only [stringFrom, if_neg backslash]

theorem readsChar_pairLetter {lead : Nat} : ReadsChar mode (.pairLetter lead) offset c := by
  by_cases letter : c = 'u'
  · subst letter
    exact .passes (.digits (some lead) (offset + 'u'.utf8Size) 0 0)
      (fun text => awaits_unit_iff) (fun _ => False.elim) fun rest => by
        simp only [stringFrom, if_true]
  · exact .misses ⟨.unfinishedSurrogates, offset + 1⟩ (fun _ => id) fun rest => by
      simp only [stringFrom, if_neg letter]

theorem readsChar (mode : Mode) (state : StringState) (offset : Nat) (c : Char) :
    ReadsChar mode state offset c := by
  cases state with
  | plain => exact readsChar_plain
  | escape => exact readsChar_escape
  | digits lead start count value => exact readsChar_digits
  | pairBackslash lead => exact readsChar_pairBackslash
  | pairLetter lead => exact readsChar_pairLetter

end

/-- What a string is read as depends on the string alone. Every string can be passed over. -/
theorem stringFrom_append (mode : Mode) (state : StringState) {chars : List Char}
    (awaits : state.Awaits chars) (offset : Nat) :
    ∃ result, (∀ rest, stringFrom mode state offset (chars ++ rest) = inFrontOf rest result) ∧
      (mode = .pass → state.IsSingle → result.isOk = true) := by
  induction chars generalizing state offset with
  | nil => exact absurd rfl awaits.ne_nil
  | cons c chars ih =>
    cases readsChar mode state offset c with
    | closes only read =>
      obtain rfl := (only chars).mp awaits
      exact ⟨.ok ([], offset + c.utf8Size), read, fun _ _ => rfl⟩
    | goesOn next f goOn single read =>
      obtain ⟨result, behind, passed⟩ :=
        ih next ((goOn chars).mp awaits) (offset + c.utf8Size)
      refine ⟨result.map fun (chars, stop) => (f chars, stop), fun rest => ?_, fun pass here => ?_⟩
      · rw [List.cons_append, read, behind, map_inFrontOf]
      · have ok := passed pass (single pass here)
        cases result with
        | ok found => rfl
        | error fault => contradiction
    | refuses none _ => exact absurd awaits (none chars)
    | misses fault paired read =>
      exact ⟨.error fault, fun rest => read (chars ++ rest),
        fun pass single => absurd single (paired pass)⟩

/-- What is read as a string is one. -/
theorem stringFrom_sound {mode : Mode} {state : StringState} {offset : Nat}
    {chars found : List Char} {stop : Cursor}
    (read : stringFrom mode state offset chars = .ok (found, stop)) :
    ∃ text, state.Awaits text ∧ chars = text ++ stop.chars := by
  induction chars generalizing state offset found with
  | nil =>
    rw [stringFrom] at read
    contradiction
  | cons c chars ih =>
    cases readsChar mode state offset c with
    | closes only closed =>
      rw [closed] at read
      cases read
      exact ⟨[c], (only []).mpr rfl, rfl⟩
    | goesOn next f goOn _ step =>
      rw [step] at read
      obtain ⟨behind, inner, ⟨⟩⟩ := Except.map_eq_ok_iff.mp read
      obtain ⟨text, awaits, rfl⟩ := ih inner
      exact ⟨c :: text, (goOn text).mpr awaits, rfl⟩
    | refuses _ failed =>
      obtain ⟨fault, failed⟩ := failed chars
      rw [failed] at read
      contradiction
    | misses fault _ failed =>
      rw [failed] at read
      contradiction

theorem stringToken_sound {mode : Mode} {cursor stop : Cursor} {found : String}
    (read : stringToken mode cursor = .ok (found, stop)) :
    ∃ body, StringBody body ∧ cursor.chars = body ++ stop.chars := by
  obtain ⟨behind, string, ⟨⟩⟩ := Except.map_eq_ok_iff.mp read
  exact stringFrom_sound string

end DecoderForge.Json
