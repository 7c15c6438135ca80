/-
This file reads the expressions of generated programs: words, strings, calls and object literals,
with the rule for the one key under which an object literal defines no property.
-/

import DecoderForge.Proofs.Entries
import DecoderForge.Proofs.TypeScript.Expr
import DecoderForge.Text.Blank

namespace DecoderForge.TypeScript

open Text

/-- The characters between words. -/
def isSpace (c : Char) : Bool := isBlank c || c.toNat == 0xFEFF

/-- The characters of names, of members of names and of numbers. -/
def isWordChar (c : Char) : Bool := isWordPart c || (0x80 ≤ c.toNat && !isSpace c)

def skip (text : List Char) : List Char := text.dropWhile isSpace

theorem lt_of_isWordPart {c : Char} (part : isWordPart c = true) : c.toNat < 0x80 := by
  rcases (Bool.or_eq_true _ _).mp part with name | sign
  · rcases (Bool.or_eq_true _ _).mp name with start | digit
    · exact lt_of_isNameStart start
    · exact lt_of_isDigit digit
  · have each : ['.', '+', '-'].all (fun c => c.toNat < 0x80) = true := by decide
    exact of_decide_eq_true (List.all_eq_true.mp each c (List.contains_iff_mem.mp sign))

theorem isWordChar_of_isWordPart {c : Char} (part : isWordPart c = true) :
    isWordChar c = true := by
  simp [isWordChar, part]

theorem isSpace_of_isWordChar {c : Char} (inside : isWordChar c = true) : isSpace c = false := by
  rcases (Bool.or_eq_true _ _).mp inside with part | other
  · have each : isWordPart c = true → isSpace c = false :=
      of_ascii (by decide +kernel) (lt_of_isWordPart part)
    exact each part
  · simpa using ((Bool.and_eq_true _ _).mp other).2

theorem skip_cons {c : Char} (solid : isSpace c = false) (rest : List Char) :
    skip (c :: rest) = c :: rest :=
  List.dropWhile_cons_of_neg (by simp [solid])

theorem skip_space {c : Char} (blank : isSpace c = true) (rest : List Char) :
    skip (c :: rest) = skip rest :=
  List.dropWhile_cons_of_pos blank

theorem skip_append {spaces : List Char} (blank : ∀ c ∈ spaces, isSpace c = true)
    (rest : List Char) : skip (spaces ++ rest) = skip rest :=
  List.dropWhile_append_of_pos blank

theorem skip_word {word : List Char} (inside : ∀ c ∈ word, isWordChar c = true)
    (some : word ≠ []) (rest : List Char) : skip (word ++ rest) = word ++ rest := by
  obtain ⟨first, more, rfl⟩ := List.exists_cons_of_ne_nil some
  exact skip_cons (isSpace_of_isWordChar (inside first List.mem_cons_self)) _

/-- The word that a text begins with. -/
def wordAt (text : List Char) : List Char := (skip text).takeWhile isWordChar

def behindWord (text : List Char) : List Char := (skip text).dropWhile isWordChar

/-- The string that a text begins with, and the text behind it. What is a string of JSON is the same
string in a program. -/
def string? (text : List Char) : Option (String × List Char) :=
  match skip text with
  | '"' :: inner =>
    match Json.stringFrom .keep .plain 0 inner with
    | .ok (chars, behind) => some (String.ofList chars, behind.chars)
    | .error _ => none
  | _ => none

/-- The key that a text begins with, and the text behind it. -/
def key? (text : List Char) : Option (String × List Char) :=
  let name := (skip text).takeWhile isNamePart
  if isName name then some (String.ofList name, (skip text).dropWhile isNamePart) else string? text

/-- What an expression stands for, as far as its text tells: words are taken as they are. -/
inductive Value where
  | word (chars : List Char)
  | string (s : String)
  | call (callee : List Char) (args : List Value)
  /-- An object with its own properties, in the order in which they are defined. -/
  | object (own : List (String × Value))

/-- A definition with this key sets the prototype of the object, and makes no property of it. -/
def baseKey : String := "__proto__"

/-- The object that an object literal makes: the last definition with a key counts. -/
def Value.ofDefinitions (definitions : List (String × Value)) : Value :=
  .object (Entries.ofList (definitions.filter fun definition => definition.1 ≠ baseKey))

def Value.form : Value → Form
  | .word _ => .identifier
  | .string _ => .string
  | .call .. => .call
  | .object _ => .object

/-- The form of the value that a text begins with, which its first characters tell. -/
def formAt (text : List Char) : Form :=
  match skip text with
  | '"' :: _ => .string
  | '\x7b' :: _ => .object
  | _ =>
    match skip (behindWord text) with
    | '(' :: _ => .call
    | _ => .identifier

/-- An element of a list begins where the list does, or behind a comma. -/
def Separated (first : Bool) (text inner : List Char) : Prop :=
  if first then inner = text else skip text = ',' :: inner

mutual

/-- A text begins with an expression of a value, behind which the rest is left. -/
inductive Evaluates : List Char → Value → List Char → Prop
  | word (text : List Char) (some : wordAt text ≠ [])
      (alone : ∀ inner, skip (behindWord text) ≠ '(' :: inner) :
      Evaluates text (.word (wordAt text)) (behindWord text)
  | string (text : List Char) (s : String) (rest : List Char)
      (read : string? text = some (s, rest)) : Evaluates text (.string s) rest
  | call (text inner : List Char) (args : List Value) (rest : List Char) (some : wordAt text ≠ [])
      (opens : skip (behindWord text) = '(' :: inner) (each : Arguments true inner args rest) :
      Evaluates text (.call (wordAt text) args) rest
  /-- Only one definition may set the prototype. -/
  | object (text inner : List Char) (definitions : List (String × Value)) (rest : List Char)
      (opens : skip text = '\x7b' :: inner) (each : Definitions true inner definitions rest)
      (once : (definitions.map Prod.fst).count baseKey ≤ 1) :
      Evaluates text (.ofDefinitions definitions) rest

/-- A text begins with arguments up to the closing parenthesis. -/
inductive Arguments : Bool → List Char → List Value → List Char → Prop
  | close (first : Bool) (text rest : List Char) (closes : skip text = ')' :: rest) :
      Arguments first text [] rest
  | more (first : Bool) (text inner : List Char) (v : Value) (after : List Char)
      (args : List Value) (rest : List Char) (separated : Separated first text inner)
      (head : Evaluates inner v after) (tail : Arguments false after args rest) :
      Arguments first text (v :: args) rest

/-- A text begins with definitions up to the closing brace. -/
inductive Definitions : Bool → List Char → List (String × Value) → List Char → Prop
  | close (first : Bool) (text rest : List Char) (closes : skip text = '\x7d' :: rest) :
      Definitions first text [] rest
  | more (first : Bool) (text inner : List Char) (key : String) (behind inside : List Char)
      (v : Value) (after : List Char) (definitions : List (String × Value)) (rest : List Char)
      (separated : Separated first text inner) (named : key? inner = some (key, behind))
      (colon : skip behind = ':' :: inside) (head : Evaluates inside v after)
      (tail : Definitions false after definitions rest) :
      Definitions first text ((key, v) :: definitions) rest

end

section

variable {text inner rest other : List Char} {c : Char}

/-- Blanks in front of an expression are passed over. -/
theorem Evaluates.of_skip_eq {v : Value} (evaluates : Evaluates text v rest)
    (same : skip other = skip text) : Evaluates other v rest := by
  have words : wordAt other = wordAt text := by rw [wordAt, wordAt, same]
  have behind : behindWord other = behindWord text := by rw [behindWord, behindWord, same]
  cases evaluates with
  | word _ some alone =>
    rw [← words, ← behind]
    exact .word other (words ▸ some) (behind ▸ alone)
  | string _ s _ read =>
    refine .string other s rest ?_
    rwa [string?, same, ← string?]
  | call _ inner args _ some opens each =>
    rw [← words]
    exact .call other inner args rest (words ▸ some) (behind ▸ opens) each
  | object _ inner definitions _ opens each once =>
    exact .object other inner definitions rest (same.trans opens) each once

theorem key?_of_skip_eq (same : skip other = skip text) : key? other = key? text := by
  rw [key?, key?, string?, string?, same]

theorem wordAt_eq_nil (opens : skip text = c :: inner) (delimits : isWordChar c = false) :
    wordAt text = [] := by
  rw [wordAt, opens]
  exact List.takeWhile_cons_of_neg (by simp [delimits])

theorem string?_opens {s : String} (read : string? text = some (s, rest)) :
    ∃ inner, skip text = '"' :: inner := by
  unfold string? at read
  split at read
  · next inner opens => exact ⟨inner, opens⟩
  · contradiction

theorem key?_not_closes {key : String} (read : key? text = some (key, rest)) :
    skip text ≠ '\x7d' :: inner := by
  intro closes
  have name : (skip text).takeWhile isNamePart = [] := by
    rw [closes]
    exact List.takeWhile_cons_of_neg (by decide)
  simp only [key?, name, isName, Bool.false_eq_true, if_false] at read
  obtain ⟨_, opens⟩ := string?_opens read
  exact absurd (List.cons.inj (closes.symm.trans opens)).1 (by decide)

theorem Evaluates.form_eq {v : Value} (evaluates : Evaluates text v rest) :
    v.form = formAt text := by
  have apart {c : Char} (some : wordAt text ≠ []) (delimits : isWordChar c = false)
      (inner : List Char) : skip text ≠ c :: inner := fun opens =>
    some (wordAt_eq_nil opens delimits)
  unfold formAt
  cases evaluates with
  | word _ some alone =>
    split
    · next inner opens => exact absurd opens (apart some (by decide) inner)
    · next inner opens => exact absurd opens (apart some (by decide) inner)
    split
    · next inner opens => exact absurd opens (alone inner)
    · rfl
  | string _ _ _ read =>
    obtain ⟨inner, opens⟩ := string?_opens read
    rw [opens]
    rfl
  | call _ inside _ _ some opens _ =>
    split
    · next inner opens => exact absurd opens (apart some (by decide) inner)
    · next inner opens => exact absurd opens (apart some (by decide) inner)
    rw [opens]
    rfl
  | object _ inner _ _ opens _ _ =>
    rw [opens]
    rfl

/-- An expression is no closing parenthesis. -/
theorem Evaluates.not_closes {v : Value} (evaluates : Evaluates text v rest) :
    skip text ≠ ')' :: inner := by
  intro closes
  have none : wordAt text = [] := wordAt_eq_nil closes (by decide)
  cases evaluates with
  | word _ some _ => exact some none
  | string _ _ _ read =>
    obtain ⟨_, opens⟩ := string?_opens read
    exact absurd (List.cons.inj (closes.symm.trans opens)).1 (by decide)
  | call _ _ _ _ some _ _ => exact some none
  | object _ _ _ _ opens _ _ =>
    exact absurd (List.cons.inj (closes.symm.trans opens)).1 (by decide)

theorem Separated.unique {first : Bool} {inside : List Char}
    (separated : Separated first text inner) (again : Separated first text inside) :
    inner = inside := by
  cases first with
  | true => exact Eq.trans separated (Eq.symm again)
  | false => exact (List.cons.inj (Eq.trans (Eq.symm separated) again)).2

/-- A list goes on with an element, unless it is closed. -/
theorem Separated.eq_of_closes {first : Bool} (separated : Separated first text inner)
    (closes : skip text = c :: rest) (apart : c ≠ ',') : inner = text := by
  cases first with
  | true => exact separated
  | false => exact absurd (List.cons.inj (closes.symm.trans separated)).1 apart

end

mutual

/-- A text begins with one expression only, of one value. -/
theorem Evaluates.unique {text rest other : List Char} {v w : Value}
    (evaluates : Evaluates text v rest) (again : Evaluates text w other) :
    v = w ∧ rest = other := by
  have forms := evaluates.form_eq.trans again.form_eq.symm
  match evaluates, again, forms with
  | .word .., .word .., _ => exact ⟨rfl, rfl⟩
  | .string _ _ _ read, .string _ _ _ found, _ =>
    obtain ⟨rfl, rfl⟩ := Prod.mk.inj (Option.some_inj.mp (read.symm.trans found))
    exact ⟨rfl, rfl⟩
  | .call _ _ _ _ _ opens each, .call _ _ _ _ _ started others, _ =>
    obtain rfl := (List.cons.inj (opens.symm.trans started)).2
    obtain ⟨rfl, rfl⟩ := each.unique others
    exact ⟨rfl, rfl⟩
  | .object _ _ _ _ opens each _, .object _ _ _ _ started others _, _ =>
    obtain rfl := (List.cons.inj (opens.symm.trans started)).2
    obtain ⟨rfl, rfl⟩ := each.unique others
    exact ⟨rfl, rfl⟩

theorem Arguments.unique {first : Bool} {text rest other : List Char} {args others : List Value}
    (evaluated : Arguments first text args rest) (again : Arguments first text others other) :
    args = others ∧ rest = other := by
  match evaluated, again with
  | .close _ _ _ closes, .close _ _ _ ends =>
    exact ⟨rfl, (List.cons.inj (closes.symm.trans ends)).2⟩
  | .close _ _ _ closes, .more _ _ _ _ _ _ _ separated head _ =>
    obtain rfl := separated.eq_of_closes closes (by decide)
    exact absurd closes head.not_closes
  | .more _ _ _ _ _ _ _ separated head _, .close _ _ _ closes =>
    obtain rfl := separated.eq_of_closes closes (by decide)
    exact absurd closes head.not_closes
  | .more _ _ _ _ _ _ _ separated head tail, .more _ _ _ _ _ _ _ apart start behind =>
    obtain rfl := separated.unique apart
    obtain ⟨rfl, rfl⟩ := head.unique start
    obtain ⟨rfl, rfl⟩ := tail.unique behind
    exact ⟨rfl, rfl⟩

theorem Definitions.unique {first : Bool} {text rest other : List Char}
    {definitions others : List (String × Value)}
    (evaluated : Definitions first text definitions rest)
    (again : Definitions first text others other) : definitions = others ∧ rest = other := by
  match evaluated, again with
  | .close _ _ _ closes, .close _ _ _ ends =>
    exact ⟨rfl, (List.cons.inj (closes.symm.trans ends)).2⟩
  | .close _ _ _ closes, .more _ _ _ _ _ _ _ _ _ _ separated named _ _ _ =>
    obtain rfl := separated.eq_of_closes closes (by decide)
    exact absurd closes (key?_not_closes named)
  | .more _ _ _ _ _ _ _ _ _ _ separated named _ _ _, .close _ _ _ closes =>
    obtain rfl := separated.eq_of_closes closes (by decide)
    exact absurd closes (key?_not_closes named)
  | .more _ _ _ _ _ _ _ _ _ _ separated named colon head tail,
      .more _ _ _ _ _ _ _ _ _ _ apart known stop start behind =>
    obtain rfl := separated.unique apart
    obtain ⟨rfl, rfl⟩ := Prod.mk.inj (Option.some_inj.mp (named.symm.trans known))
    obtain rfl := (List.cons.inj (colon.symm.trans stop)).2
    obtain ⟨rfl, rfl⟩ := head.unique start
    obtain ⟨rfl, rfl⟩ := tail.unique behind
    exact ⟨rfl, rfl⟩

end

/-- The properties of an object are its definitions exactly when none of them sets the prototype. -/
theorem Value.ofDefinitions_eq_object_iff {definitions own : List (String × Value)}
    (distinct : (definitions.map Prod.fst).Nodup)
    (keyed : own.map Prod.fst = definitions.map Prod.fst) :
    ofDefinitions definitions = .object own ↔
      definitions = own ∧ baseKey ∉ definitions.map Prod.fst := by
  have kept : ((definitions.filter fun definition => definition.1 ≠ baseKey).map
      Prod.fst).Nodup := (List.filter_sublist.map Prod.fst).nodup distinct
  have all : (definitions.filter fun definition => definition.1 ≠ baseKey) = definitions ↔
      baseKey ∉ definitions.map Prod.fst := by
    simp only [List.filter_eq_self, decide_eq_true_eq, List.mem_map, not_exists, not_and]
  have length : own.length = definitions.length := by
    simpa using congrArg List.length keyed
  rw [ofDefinitions, Entries.ofList_eq_self _ kept, Value.object.injEq, ← all]
  constructor
  · intro same
    have whole := List.filter_sublist.eq_of_length ((congrArg List.length same).trans length)
    exact ⟨whole.symm.trans same, whole⟩
  · rintro ⟨rfl, whole⟩
    exact whole

end DecoderForge.TypeScript
