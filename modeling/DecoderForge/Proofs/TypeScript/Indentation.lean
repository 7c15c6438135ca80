/-
This file proves that the text of an expression inside objects is the text that it has by itself,
with blanks behind each line break, and that no string or key brings a line break with it.
-/

import DecoderForge.Proofs.TypeScript.Expr
import Mathlib.Data.List.Basic

namespace DecoderForge

/-- The identifiers in an expression stand on one line, and the numbers in it are numeric
literals. -/
inductive DecoderExpr.OnOneLine : DecoderExpr → Prop
  | call (builtin : Builtin) (args : List DecoderExpr) (each : ∀ arg ∈ args, OnOneLine arg) :
      OnOneLine (.call builtin args)
  | identifier (name : String) (line : '\n' ∉ name.toList) : OnOneLine (.identifier name)
  | object (entries : List (String × DecoderExpr)) (each : ∀ entry ∈ entries, OnOneLine entry.2) :
      OnOneLine (.object entries)
  | string (s : String) : OnOneLine (.constant (.string s))
  | number (n : NumericLiteral) (written : n.IsWritten) : OnOneLine (.constant (.number n))

namespace Json

/-- A line break is escaped, and so is whatever else is a control character. -/
theorem newline_not_mem_escapeChar (c : Char) : '\n' ∉ escapeChar c := by
  rcases Nat.lt_or_ge c.toNat 0x80 with ascii | other
  · exact Text.of_ascii (by decide +kernel) ascii
  · have apart {d : Char} (low : d.toNat < 0x80) : c ≠ d := by
      rintro rfl
      omega
    have plain : escapeChar c = [c] := by
      rw [escapeChar, if_neg (apart (by decide)), if_neg (apart (by decide)),
        if_neg (apart (by decide)), if_neg (apart (by decide)), if_neg (apart (by decide)),
        if_neg (apart (by decide)), if_neg (apart (by decide)), if_neg (by omega)]
    rw [plain, List.mem_singleton]
    exact (apart (by decide)).symm

theorem newline_not_mem_quoteChars (s : String) : '\n' ∉ quoteChars s := by
  simp [quoteChars, newline_not_mem_escapeChar]

end Json

namespace TypeScript

theorem newline_not_mem_name {name : List Char} (named : isName name = true) : '\n' ∉ name :=
  fun inside => absurd (isNamePart_of_isName named _ inside) (by decide)

theorem newline_not_mem_keyChars (key : String) : '\n' ∉ keyChars key := by
  unfold keyChars
  split
  · next bare => exact newline_not_mem_name bare
  · exact Json.newline_not_mem_quoteChars key

theorem newline_not_mem_number {n : NumericLiteral} (written : n.IsWritten) :
    '\n' ∉ n.text.toList :=
  fun inside =>
    absurd (NumericLiteral.isPart_of_isNumeric written.isNumeric _ inside) (by decide)

theorem newline_not_mem_calleeChars {owner : Option String}
    (line : ∀ name ∈ owner, '\n' ∉ name.toList) (builtin : Builtin) :
    '\n' ∉ calleeChars owner builtin := by
  have own : '\n' ∉ builtin.name.toList := by cases builtin <;> decide
  cases owner with
  | none => exact own
  | some name =>
    simpa [calleeChars, own] using line name rfl

/-- A text with four blanks for each of some levels behind each line break. -/
def deepen (levels : Nat) (text : List Char) : List Char :=
  text.flatMap fun c => if c = '\n' then c :: List.replicate (4 * levels) ' ' else [c]

section

variable (levels : Nat)

@[simp] theorem deepen_append (text rest : List Char) :
    deepen levels (text ++ rest) = deepen levels text ++ deepen levels rest := by
  simp [deepen]

theorem deepen_flatMap {α : Type} (parts : List α) (text : α → List Char) :
    deepen levels (parts.flatMap text) = parts.flatMap fun part => deepen levels (text part) := by
  simp [deepen, List.flatMap_assoc]

theorem deepen_cons {c : Char} (other : c ≠ '\n') (rest : List Char) :
    deepen levels (c :: rest) = c :: deepen levels rest := by
  simp [deepen, other]

/-- A text on one line stays as it is. -/
theorem deepen_of_line {text : List Char} (line : '\n' ∉ text) : deepen levels text = text := by
  induction text with
  | nil => rfl
  | cons c rest ih =>
    obtain ⟨other, later⟩ := not_or.mp (mt List.mem_cons.mpr line)
    rw [deepen_cons levels (Ne.symm other), ih later]

theorem deepen_newline (rest : List Char) :
    deepen levels ('\n' :: rest) = '\n' :: (indentation levels ++ deepen levels rest) := by
  simp [deepen, indentation]

theorem newline_not_mem_indentation : '\n' ∉ indentation levels := by
  simp [indentation]

/-- Deeper blanks are the same blanks behind others. -/
theorem indentation_add (level : Nat) :
    indentation (level + levels) = indentation levels ++ indentation level := by
  rw [indentation, indentation, indentation, List.replicate_append_replicate]
  congr 1
  omega

end

section

variable {owner : Option String} (line : ∀ name ∈ owner, '\n' ∉ name.toList) (levels : Nat)

/-- Arguments go deeper when each of them does. -/
theorem argsChars_deepen {args : List DecoderExpr} {level : Nat}
    (each : ∀ arg ∈ args, exprChars owner (level + levels) arg =
      deepen levels (exprChars owner level arg)) :
    argsChars owner (level + levels) args = deepen levels (argsChars owner level args) := by
  cases args with
  | nil => rfl
  | cons arg rest =>
    obtain ⟨here, later⟩ := List.forall_mem_cons.mp each
    rw [argsChars_cons, argsChars_cons, deepen_append, deepen_flatMap, here]
    refine congrArg _ (List.flatMap_congr fun next inside => ?_)
    rw [deepen_append, later next inside]
    rfl

/-- The line of an entry has its own blanks in front of it. -/
theorem entryChars_deepen {entry : String × DecoderExpr} {level : Nat}
    (value : exprChars owner (level + levels) entry.2 =
      deepen levels (exprChars owner level entry.2)) :
    entryChars owner (level + levels) entry =
      indentation levels ++ deepen levels (entryChars owner level entry) := by
  rw [entryChars, entryChars, deepen_append, deepen_append, deepen_cons levels (by decide),
    deepen_cons levels (by decide), deepen_of_line levels (newline_not_mem_indentation level),
    deepen_of_line levels (newline_not_mem_keyChars entry.1), value, indentation_add,
    List.append_assoc]

theorem entriesChars_deepen {entry : String × DecoderExpr} {rest : List (String × DecoderExpr)}
    {level : Nat}
    (each : ∀ part ∈ entry :: rest, exprChars owner (level + levels) part.2 =
      deepen levels (exprChars owner level part.2)) :
    entriesChars owner (level + levels) (entry :: rest) =
      indentation levels ++ deepen levels (entriesChars owner level (entry :: rest)) := by
  obtain ⟨here, later⟩ := List.forall_mem_cons.mp each
  rw [entriesChars_cons, entriesChars_cons, deepen_append, deepen_flatMap,
    entryChars_deepen levels here, List.append_assoc]
  refine congrArg _ (congrArg _ (List.flatMap_congr fun next inside => ?_))
  rw [entryChars_deepen levels (later next inside), List.cons_append, List.singleton_append,
    List.cons_append, List.singleton_append, deepen_cons levels (by decide), deepen_newline]

include line

/-- An expression inside further objects has the text that it has by itself, with further blanks
behind each line break. -/
theorem exprChars_deepen {expr : DecoderExpr} (onOneLine : expr.OnOneLine) (level : Nat) :
    exprChars owner (level + levels) expr = deepen levels (exprChars owner level expr) := by
  induction onOneLine generalizing level with
  | call builtin args each ih =>
    rw [exprChars_call, exprChars_call, deepen_append,
      deepen_of_line levels (newline_not_mem_calleeChars line builtin)]
    refine congrArg _ ?_
    unfold parenthesized
    split
    · rfl
    · rw [argsChars_deepen levels fun arg inside => ih arg inside level,
        deepen_cons levels (by decide), deepen_append]
      rfl
  | identifier name own => exact (deepen_of_line levels own).symm
  | object entries each ih =>
    cases entries with
    | nil =>
      have braces : '\n' ∉ ['\x7b', '\x7d'] := by decide
      exact (deepen_of_line levels braces).symm
    | cons entry rest =>
      -- The entries stand one level deeper than the brace that closes them.
      have inner := entriesChars_deepen levels fun part inside => ih part inside (level + 1)
      rw [Nat.add_right_comm] at inner
      rw [exprChars, exprChars, inner, deepen_cons levels (by decide), deepen_newline,
        deepen_append, deepen_newline, deepen_append,
        deepen_of_line levels (newline_not_mem_indentation level), indentation_add,
        List.append_assoc, List.append_assoc]
      rfl
  | string s => exact (deepen_of_line levels (Json.newline_not_mem_quoteChars s)).symm
  | number n written => exact (deepen_of_line levels (newline_not_mem_number written)).symm

end

/-- How many objects are around an expression shows in nothing but the blanks behind its line
breaks: four more for each of them. Only objects have line breaks; strings and keys have none. -/
theorem exprChars_eq_deepen {owner : Option String} (line : ∀ name ∈ owner, '\n' ∉ name.toList)
    {expr : DecoderExpr} (onOneLine : expr.OnOneLine) (levels : Nat) :
    exprChars owner levels expr = deepen levels (exprChars owner 0 expr) ∧
      (∀ s, '\n' ∉ constantChars (.string s)) ∧ ∀ key, '\n' ∉ keyChars key := by
  refine ⟨?_, Json.newline_not_mem_quoteChars, newline_not_mem_keyChars⟩
  have deeper := exprChars_deepen line levels onOneLine 0
  rwa [Nat.zero_add] at deeper

/-- Line breaks in a key and in a string are written with letters. -/
theorem exprChars_eq_deepen_nested :
    (∀ name ∈ some "d", '\n' ∉ name.toList) ∧
    DecoderExpr.OnOneLine (.call .object [.object [("a\nb", .call .object
      [.object [("c", .call .constant [.constant (.string "\n")])]])]]) ∧
    exprChars (some "d") 1 (.call .object [.object [("a\nb", .call .object
      [.object [("c", .call .constant [.constant (.string "\n")])]])]]) =
      "d.object(\x7b\n        \"a\\nb\": d.object(\x7b\n".toList ++
        "            c: d.constant(\"\\n\")\n        \x7d)\n    \x7d)".toList := by
  have line : ∀ name ∈ some "d", '\n' ∉ name.toList := by simp
  have constant : DecoderExpr.OnOneLine (.call .constant [.constant (.string "\n")]) :=
    .call _ _ (List.forall_mem_singleton.mpr (.string _))
  have onOneLine : DecoderExpr.OnOneLine (.call .object [.object [("a\nb", .call .object
      [.object [("c", .call .constant [.constant (.string "\n")])]])]]) :=
    .call _ _ (List.forall_mem_singleton.mpr (.object _ (List.forall_mem_singleton.mpr
      (.call _ _ (List.forall_mem_singleton.mpr (.object _
        (List.forall_mem_singleton.mpr constant)))))))
  refine ⟨line, onOneLine, ?_⟩
  rw [(exprChars_eq_deepen line onOneLine 1).1]
  decide +kernel

end TypeScript

end DecoderForge
