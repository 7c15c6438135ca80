/-
This file holds when texts can be told from what follows them: words, and texts of lists whose
elements have such texts.
-/

import Mathlib.Data.List.TakeWhile

namespace DecoderForge.Text

/-- What is checked of all ASCII characters holds of each. -/
@[elab_as_elim]
theorem of_ascii {property : Char → Prop} (each : ∀ n : Fin 0x80, property (Char.ofNat n))
    {c : Char} (ascii : c.toNat < 0x80) : property c := by
  have here := each ⟨c.toNat, ascii⟩
  rwa [Char.ofNat_toNat] at here

theorem lt_of_isDigit {c : Char} (digit : c.isDigit = true) : c.toNat < 0x80 := by
  obtain ⟨_, bound⟩ := (Bool.and_eq_true _ _).mp digit
  exact Nat.lt_of_le_of_lt (m := '9'.toNat) (of_decide_eq_true bound) (by decide)

/-- Only ASCII letters have another case. -/
theorem toLower_of_ge {c : Char} (other : 0x80 ≤ c.toNat) : c.toLower = c := by
  unfold Char.toLower
  split
  · next upper =>
    have bound : c.toNat ≤ 90 := upper.2
    omega
  · rfl

/-- A character is the small or the capital form of its small form. -/
theorem eq_toLower_or (c : Char) : c = c.toLower ∨ c = c.toLower.toUpper := by
  rcases Nat.lt_or_ge c.toNat 0x80 with ascii | other
  · exact of_ascii (by decide +kernel) ascii
  · exact .inl (toLower_of_ge other).symm

/-- What does not begin with a character that passes a test. -/
def Stops (test : Char → Bool) (rest : List Char) : Prop := ∀ c ∈ rest.head?, test c = false

@[simp] theorem stops_nil (test : Char → Bool) : Stops test [] := nofun

@[simp] theorem stops_cons (test : Char → Bool) (c : Char) (rest : List Char) :
    Stops test (c :: rest) ↔ test c = false := by
  simp [Stops]

theorem Stops.of_head {test : Char → Bool} {c : Char} (stop : test c = false)
    (rest : List Char) : Stops test (c :: rest) :=
  (stops_cons test c rest).mpr stop

theorem takeWhile_word {test : Char → Bool} {word rest : List Char}
    (inside : ∀ c ∈ word, test c = true) (stops : Stops test rest) :
    (word ++ rest).takeWhile test = word := by
  have behind : rest.takeWhile test = [] := by
    cases rest with
    | nil => rfl
    | cons c rest => exact List.takeWhile_cons_of_neg (by simpa using stops)
  rw [List.takeWhile_append_of_pos inside, behind, List.append_nil]

theorem dropWhile_word {test : Char → Bool} {word rest : List Char}
    (inside : ∀ c ∈ word, test c = true) (stops : Stops test rest) :
    (word ++ rest).dropWhile test = rest := by
  have split := List.takeWhile_append_dropWhile (p := test) (l := word ++ rest)
  rw [takeWhile_word inside stops] at split
  exact List.append_cancel_left split

/-- A word ends where a character fails its test. -/
theorem word_append_inj {test : Char → Bool} {word name rest other : List Char}
    (inside : ∀ c ∈ word, test c = true) (within : ∀ c ∈ name, test c = true)
    (stops : Stops test rest) (ends : Stops test other)
    (same : word ++ rest = name ++ other) : word = name ∧ rest = other := by
  have words := congrArg (List.takeWhile test) same
  rw [takeWhile_word inside stops, takeWhile_word within ends] at words
  refine ⟨words, ?_⟩
  rw [words] at same
  exact List.append_cancel_left same

/-- A word does not begin with a character that fails its test. -/
theorem word_append_ne {test : Char → Bool} {word : List Char} {c : Char}
    (inside : ∀ c ∈ word, test c = true) (some : word ≠ []) (other : test c = false)
    (rest behind : List Char) : word ++ rest ≠ c :: behind := by
  obtain ⟨first, more, rfl⟩ := List.exists_cons_of_ne_nil some
  intro same
  have part := inside first List.mem_cons_self
  rw [(List.cons.inj same).1, other] at part
  contradiction

section

variable {α : Type} (text : α → List Char) (valid : α → Prop) (follows : List Char → Prop)

/-- Where something permitted follows the text of an element, no other element can be read. -/
def Legible (a : α) : Prop :=
  ∀ b, valid b → ∀ rest other, follows rest → follows other →
    text a ++ rest = text b ++ other → a = b ∧ rest = other

/-- What may follow the last element of a list, and cannot be taken for one more element. -/
structure Closes (rest : List Char) : Prop where
  permitted : follows rest
  apart : ∀ a, valid a → ∀ behind, text a ++ behind ≠ rest

end

section

variable {α : Type} {text : α → List Char} {valid : α → Prop} {follows : List Char → Prop}
  {rest other : List Char}

theorem follows_flatMap (next : ∀ a, valid a → ∀ behind, follows (text a ++ behind))
    (closes : Closes text valid follows rest) {elements : List α}
    (sound : ∀ a ∈ elements, valid a) : follows (elements.flatMap text ++ rest) := by
  cases elements with
  | nil => exact closes.permitted
  | cons a elements =>
    rw [List.flatMap_cons, List.append_assoc]
    exact next a (sound a List.mem_cons_self) _

/-- Elements that stand one after the other are read one after the other. -/
theorem flatMap_append_inj (next : ∀ a, valid a → ∀ behind, follows (text a ++ behind))
    (closes : Closes text valid follows rest) (ends : Closes text valid follows other)
    {elements others : List α} (legible : ∀ a ∈ elements, Legible text valid follows a)
    (sound : ∀ a ∈ elements, valid a) (proper : ∀ a ∈ others, valid a)
    (same : elements.flatMap text ++ rest = others.flatMap text ++ other) :
    elements = others ∧ rest = other := by
  induction elements generalizing others with
  | nil =>
    cases others with
    | nil => exact ⟨rfl, same⟩
    | cons b others =>
      rw [List.flatMap_nil, List.nil_append, List.flatMap_cons, List.append_assoc] at same
      exact absurd same.symm (closes.apart b (proper b List.mem_cons_self) _)
  | cons a elements ih =>
    cases others with
    | nil =>
      rw [List.flatMap_nil, List.nil_append, List.flatMap_cons, List.append_assoc] at same
      exact absurd same (ends.apart a (sound a List.mem_cons_self) _)
    | cons b others =>
      have sound' := fun c inside => sound c (List.mem_cons_of_mem a inside)
      have proper' := fun c inside => proper c (List.mem_cons_of_mem b inside)
      rw [List.flatMap_cons, List.append_assoc, List.flatMap_cons, List.append_assoc] at same
      obtain ⟨rfl, behind⟩ := legible a List.mem_cons_self b (proper b List.mem_cons_self) _ _
        (follows_flatMap next closes sound') (follows_flatMap next ends proper') same
      obtain ⟨rfl, last⟩ :=
        ih (fun c inside => legible c (List.mem_cons_of_mem a inside)) sound' proper' behind
      exact ⟨rfl, last⟩

/-- A text that stands behind a fixed beginning is read as it is without it. -/
theorem Legible.prefixed {a : α} (legible : Legible text valid follows a) (start : List Char) :
    Legible (fun a => start ++ text a) valid follows a := by
  intro b proper rest other permitted allowed same
  rw [List.append_assoc, List.append_assoc] at same
  exact legible b proper rest other permitted allowed (List.append_cancel_left same)

/-- Elements with separators between them are read up to a character that closes the list. -/
theorem joined_append_inj {separator close : Char} {more : List Char} (apart : separator ≠ close)
    (next : ∀ behind, follows (separator :: behind)) (closes : ∀ behind, follows (close :: behind))
    {a b : α} {elements others : List α}
    (legible : ∀ c ∈ a :: elements, Legible text valid follows c)
    (sound : ∀ c ∈ a :: elements, valid c) (proper : ∀ c ∈ b :: others, valid c)
    (same : text a ++ (elements.flatMap (fun c => separator :: more ++ text c) ++ close :: rest) =
      text b ++ (others.flatMap (fun c => separator :: more ++ text c) ++ close :: other)) :
    a :: elements = b :: others ∧ rest = other := by
  have ends (behind : List Char) :
      Closes (fun c => separator :: more ++ text c) valid follows (close :: behind) :=
    ⟨closes behind, fun c _ later begins => apart (List.cons.inj begins).1⟩
  have goesOn (c : α) (_ : valid c) (behind : List Char) :
      follows (separator :: more ++ text c ++ behind) := next _
  obtain ⟨head, tail⟩ := List.forall_mem_cons.mp legible
  obtain ⟨_, soundTail⟩ := List.forall_mem_cons.mp sound
  obtain ⟨properHead, properTail⟩ := List.forall_mem_cons.mp proper
  obtain ⟨rfl, behind⟩ := head b properHead _ _ (follows_flatMap goesOn (ends rest) soundTail)
    (follows_flatMap goesOn (ends other) properTail) same
  obtain ⟨rfl, last⟩ := flatMap_append_inj goesOn (ends rest) (ends other)
    (fun c inside => (tail c inside).prefixed _) soundTail properTail behind
  exact ⟨rfl, (List.cons.inj last).2⟩

end

end DecoderForge.Text
