/-
This file proves that the text of a place tells the steps to it, where fields have names that are
written without quotes.
-/

import DecoderForge.NodePath
import DecoderForge.Proofs.TypeScript.Word

namespace DecoderForge

open Text TypeScript

namespace Segment

/-- A step inside a declaration. A field is a step if its name is written without quotes. -/
def isStep : Segment → Bool
  | .declaration _ => false
  | .field name => isName name.toList
  | .tupleSlot _ | .unionMember _ | .arrayElement => true

theorem toList_text_field (name : String) : (field name).text.toList = '.' :: name.toList := by
  simp [text]

theorem toList_text_tupleSlot (index : Nat) :
    (tupleSlot index).text.toList = '[' :: (Nat.toDigits 10 index ++ [']']) := by
  simp [text]

theorem toList_text_unionMember (index : Nat) :
    (unionMember index).text.toList = '|' :: Nat.toDigits 10 index := by
  simp [text]

theorem toList_text_arrayElement : arrayElement.text.toList = ['[', ']'] := by
  simp [text]

/-- The text of a step begins with a character that is in no name. -/
theorem stops_text_append {step : Segment} (inner : step.isStep = true) (rest : List Char) :
    Stops isNamePart (step.text.toList ++ rest) := by
  cases step with
  | declaration name => contradiction
  | field name => exact toList_text_field name ▸ .of_head (by decide) _
  | tupleSlot index => exact toList_text_tupleSlot index ▸ .of_head (by decide) _
  | unionMember index => exact toList_text_unionMember index ▸ .of_head (by decide) _
  | arrayElement => exact toList_text_arrayElement ▸ .of_head (by decide) _

theorem text_append_ne_nil {step : Segment} (inner : step.isStep = true) (rest : List Char) :
    step.text.toList ++ rest ≠ [] := by
  cases step with
  | declaration name => contradiction
  | _ => simp [text]

end Segment

theorem Text.isDigit_toDigits (n : Nat) : ∀ c ∈ Nat.toDigits 10 n, c.isDigit = true :=
  fun _ inside => Nat.isDigit_of_mem_toDigits (by decide) (by decide) inside

/-- A number ends where it is followed by something else than a digit. -/
theorem Text.toDigits_append_inj {m n : Nat} {rest other : List Char}
    (stops : Stops Char.isDigit rest) (ends : Stops Char.isDigit other)
    (same : Nat.toDigits 10 m ++ rest = Nat.toDigits 10 n ++ other) : m = n ∧ rest = other := by
  obtain ⟨digits, behind⟩ :=
    word_append_inj (isDigit_toDigits m) (isDigit_toDigits n) stops ends same
  refine ⟨?_, behind⟩
  have value := congrArg (Nat.ofDigitChars 10 · 0) digits
  simpa only [Nat.ofDigitChars_ten_toDigits] using value

theorem TypeScript.stops_isDigit {rest : List Char} (stops : Stops isNamePart rest) :
    Stops Char.isDigit rest := by
  intro c first
  have other := stops c first
  simp only [isNamePart, Bool.or_eq_false_iff] at other
  exact other.2

namespace Segment

/-- Slots have numbers, and the elements of an array have none. -/
theorem tupleSlot_append_ne (index : Nat) (rest behind : List Char) :
    (tupleSlot index).text.toList ++ rest ≠ arrayElement.text.toList ++ behind := by
  intro same
  simp only [toList_text_tupleSlot, toList_text_arrayElement, List.cons_append, List.append_assoc,
    List.nil_append, List.cons.injEq, true_and] at same
  exact word_append_ne (isDigit_toDigits index) Nat.toDigits_ne_nil (by decide) _ _ same

theorem tupleSlot_append_inj {index slot : Nat} {rest behind : List Char}
    (same : (tupleSlot index).text.toList ++ rest = (tupleSlot slot).text.toList ++ behind) :
    index = slot ∧ rest = behind := by
  have closes (behind : List Char) : Stops Char.isDigit (']' :: behind) := .of_head (by decide) _
  simp only [toList_text_tupleSlot, List.cons_append, List.append_assoc, List.nil_append,
    List.cons.injEq, true_and] at same
  obtain ⟨indices, last⟩ := toDigits_append_inj (closes rest) (closes behind) same
  exact ⟨indices, (List.cons.inj last).2⟩

/-- A step is told from what follows it where no character of a name follows. -/
theorem legible_of_isStep {step : Segment} (inner : step.isStep = true) :
    Legible (fun step => step.text.toList) (fun step => step.isStep = true) (Stops isNamePart)
      step := by
  intro next known rest behind stops ends same
  dsimp only at same
  -- Steps of most kinds begin with different characters.
  cases step with
  | declaration name => contradiction
  | field name =>
    cases next with
    | field key =>
      rw [toList_text_field, toList_text_field] at same
      obtain ⟨names, last⟩ := word_append_inj (isNamePart_of_isName inner)
        (isNamePart_of_isName known) stops ends (List.cons.inj same).2
      exact ⟨congrArg field (String.toList_inj.mp names), last⟩
    | declaration key => contradiction
    | _ => simp [text] at same
  | tupleSlot index =>
    cases next with
    | tupleSlot slot =>
      obtain ⟨rfl, last⟩ := tupleSlot_append_inj same
      exact ⟨rfl, last⟩
    | arrayElement => exact absurd same (tupleSlot_append_ne index rest behind)
    | declaration key => contradiction
    | _ => simp [text] at same
  | unionMember index =>
    cases next with
    | unionMember member =>
      rw [toList_text_unionMember, toList_text_unionMember] at same
      obtain ⟨rfl, last⟩ := toDigits_append_inj (stops_isDigit stops) (stops_isDigit ends)
        (List.cons.inj same).2
      exact ⟨rfl, last⟩
    | declaration key => contradiction
    | _ => simp [text] at same
  | arrayElement =>
    cases next with
    | arrayElement => exact ⟨rfl, List.append_cancel_left same⟩
    | tupleSlot slot => exact absurd same.symm (tupleSlot_append_ne slot behind rest)
    | declaration key => contradiction
    | _ => simp [text] at same

theorem closes_nil : Closes (fun step : Segment => step.text.toList)
    (fun step => step.isStep = true) (Stops isNamePart) [] :=
  ⟨stops_nil _, fun _ inner behind => text_append_ne_nil inner behind⟩

theorem stops_steps {steps : List Segment} (inner : ∀ step ∈ steps, step.isStep = true) :
    Stops isNamePart (steps.flatMap fun step => step.text.toList) := by
  simpa only [List.append_nil] using
    follows_flatMap (fun _ inner behind => stops_text_append inner behind) closes_nil inner

/-- Steps are told from the text of them all. -/
theorem steps_inj {steps others : List Segment} (inner : ∀ step ∈ steps, step.isStep = true)
    (within : ∀ step ∈ others, step.isStep = true)
    (same : (steps.flatMap fun step => step.text.toList) =
      others.flatMap fun step => step.text.toList) : steps = others := by
  have texts := congrArg (· ++ ([] : List Char)) same
  exact (flatMap_append_inj (fun _ inner behind => stops_text_append inner behind) closes_nil
    closes_nil (fun step inside => legible_of_isStep (inner step inside)) inner within texts).1

end Segment

namespace NodePath

/-- A place in a declaration, with names that are written without quotes. -/
def isNamed (path : NodePath) : Bool :=
  match path.segments with
  | .declaration name :: steps => isName name.toList && steps.all Segment.isStep
  | _ => false

theorem isNamed_iff (path : NodePath) :
    path.isNamed = true ↔ ∃ name steps, path.segments = .declaration name :: steps ∧
      isName name.toList = true ∧ ∀ step ∈ steps, step.isStep = true := by
  unfold isNamed
  split
  · next name steps segments =>
    rw [Bool.and_eq_true, List.all_eq_true]
    constructor
    · rintro ⟨bare, inner⟩
      exact ⟨name, steps, segments, bare, inner⟩
    · rintro ⟨key, more, others, bare, inner⟩
      obtain ⟨rfl, rfl⟩ : name = key ∧ steps = more := by simpa [segments] using others
      exact ⟨bare, inner⟩
  · next other => simpa using fun name steps segments => absurd segments (other name steps)

theorem toList_text (path : NodePath) :
    path.text.toList = path.segments.flatMap fun segment => segment.text.toList := by
  simp [text, List.flatMap_map]

theorem eq_of_segments_eq {path other : NodePath} (same : path.segments = other.segments) :
    path = other := by
  cases path
  cases other
  exact congrArg mk same

/-- No two named places have the same text. -/
theorem eq_of_text_eq {path other : NodePath} (named : path.isNamed = true)
    (known : other.isNamed = true) (same : path.text = other.text) : path = other := by
  obtain ⟨name, steps, segments, bare, inner⟩ := (isNamed_iff path).mp named
  obtain ⟨key, more, others, plain, within⟩ := (isNamed_iff other).mp known
  have chars := congrArg String.toList same
  rw [toList_text, toList_text, segments, others, List.flatMap_cons, List.flatMap_cons] at chars
  obtain ⟨names, behind⟩ := word_append_inj (isNamePart_of_isName bare)
    (isNamePart_of_isName plain) (Segment.stops_steps inner) (Segment.stops_steps within) chars
  apply eq_of_segments_eq
  rw [segments, others, String.toList_inj.mp names, Segment.steps_inj inner within behind]

end NodePath

end DecoderForge
