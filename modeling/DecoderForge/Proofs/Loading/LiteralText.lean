/-
This file proves that every numeric literal that can be had is the text of one, so that it is
written as it stands, and is read back from what it is written as.
-/

import DecoderForge.Proofs.Loading.Descriptor
import DecoderForge.Proofs.Loading.NumericLiteral
import DecoderForge.Proofs.Loading.Written
import DecoderForge.TypeScript.Printer

namespace DecoderForge

theorem Number.text_int (value : Int) : (Number.int value).text = toString value := by
  apply String.toList_inj.mp
  rw [text, String.toList_ofList]
  cases value with
  | ofNat n =>
    change Nat.toDigits 10 n = (Nat.repr n).toList
    rw [Nat.toList_repr]
  | negSucc n =>
    change '-' :: Nat.toDigits 10 (n + 1) = ("-" ++ Nat.repr (n + 1)).toList
    rw [String.toList_append, Nat.toList_repr]
    rfl

namespace NumericLiteral

/-- The ways to a numeric literal. -/
inductive Obtained : NumericLiteral → Prop
  | parsed {text : String} {n : NumericLiteral} (found : parse? text = some n) : Obtained n
  | whole (value : Int64) : Obtained (ofInt64 value)
  /-- From a document, or from a part of one. -/
  | loaded {document : Json.Document} {n : NumericLiteral}
      (found : Loading.Reader.numericLiteral document = .ok n) : Obtained n
  /-- From a part of a document that is kept until its kind is known. -/
  | buffered {value : Json} {n : NumericLiteral}
      (found : Loading.Buffer.numericLiteral value = .ok n) : Obtained n

theorem Obtained.isWritten {n : NumericLiteral} (obtained : n.Obtained) : n.IsWritten := by
  cases obtained with
  | parsed found => exact .inl ⟨_, found⟩
  | whole value => exact .inr ⟨.int value.toInt, congrArg mk (Number.text_int _).symm⟩
  | buffered found => exact Loading.Buffer.numericLiteral_yields _ _ found
  | @loaded document _ found =>
    unfold Loading.Reader.numericLiteral Loading.Reader.buffered at found
    cases whole : Loading.Reader.buffer document with
    | error failure =>
      rw [whole] at found
      contradiction
    | ok value =>
      rw [whole] at found
      exact Loading.Buffer.numericLiteral_yields _ _ (Except.mapError_eq_ok_iff.mp found)

theorem lt_of_isPart {c : Char} (part : isPart c = true) : c.toNat < 0x80 := by
  simp only [isPart, isHexadecimal, Bool.or_eq_true, Bool.and_eq_true, decide_eq_true_eq] at part
  rcases part with ((digit | ⟨_, small⟩) | ⟨_, capital⟩) | other
  · exact Text.lt_of_isDigit digit
  · exact Nat.lt_of_le_of_lt (m := 'f'.toNat) small (by decide)
  · exact Nat.lt_of_le_of_lt (m := 'F'.toNat) capital (by decide)
  · have each : (['x', 'X', 'o', 'O', '_', '.', '+', '-'].all fun c => c.toNat < 0x80) = true := by
      decide
    exact of_decide_eq_true (List.all_eq_true.mp each c (List.contains_iff_mem.mp other))

/-- The characters of numeric literals are ASCII letters, digits, and four others. -/
theorem isAlphanum_of_isPart {c : Char} (part : isPart c = true) :
    c.isAlphanum = true ∨ c ∈ ['_', '.', '+', '-'] := by
  have each : isPart c = true → c.isAlphanum = true ∨ c ∈ ['_', '.', '+', '-'] :=
    Text.of_ascii (by decide +kernel) (lt_of_isPart part)
  exact each part

end NumericLiteral

namespace Loading

open Json

theorem Reader.numericLiteral_of_holds {n : NumericLiteral} (written : n.IsWritten)
    {document : Document} (holds : Holds document n.toJson) :
    Reader.numericLiteral document = .ok n := by
  unfold Reader.numericLiteral Reader.buffered
  rw [holds]
  exact Except.mapError_eq_ok_iff.mpr (Buffer.numericLiteral_toJson written)

/-- Whichever way a numeric literal was had, its text is one. So it comes back from the value and
from the text that it is written as. In generated TypeScript it stands as it is, with no characters
but ASCII letters, digits and four others. -/
theorem numericLiteral_obtained {n : NumericLiteral} (obtained : n.Obtained) :
    NumericLiteral.parse? n.text = some n ∧
      Buffer.numericLiteral n.toJson = .ok n ∧
      Loader.fromValue Reader.numericLiteral n.toJson = .ok n ∧
      Loader.fromText Reader.numericLiteral n.toJson.compact = .ok n ∧
      (∀ owner, TypeScript.renderExpr owner (.constant (.number n)) = n.text) ∧
      ∀ c ∈ n.text.toList, c.isAlphanum = true ∨ c ∈ ['_', '.', '+', '-'] := by
  have written := obtained.isWritten
  have back {document : Document} (holds : Holds document n.toJson) :
      Reader.numericLiteral document = .ok n := Reader.numericLiteral_of_holds written holds
  refine ⟨if_pos written.isNumeric, Buffer.numericLiteral_toJson written, ?_, ?_, ?_, ?_⟩
  · exact Except.mapError_eq_ok_iff.mpr (back (holds_ofJson _))
  · exact Except.mapError_eq_ok_iff.mpr (back (holds_ofText (.str n.text) (Nat.zero_le _)))
  · exact fun _ => String.ofList_toList
  · intro c inside
    exact NumericLiteral.isAlphanum_of_isPart
      (NumericLiteral.isPart_of_isNumeric written.isNumeric c inside)

/-- A small number is loaded with an exponent, and the least number of 64 bits with its sign. -/
theorem numericLiteral_obtained_signed :
    (NumericLiteral.Obtained ⟨"-2.5e-6"⟩ ∧
        Loader.fromText Reader.numericLiteral (NumericLiteral.toJson ⟨"-2.5e-6"⟩).compact =
          .ok ⟨"-2.5e-6"⟩) ∧
      (NumericLiteral.Obtained ⟨"-9223372036854775808"⟩ ∧
        NumericLiteral.parse? "-9223372036854775808" = some ⟨"-9223372036854775808"⟩) := by
  have loaded : Reader.numericLiteral (.ofText "-0.25E-5 ") = .ok ⟨"-2.5e-6"⟩ :=
    ok_of_toOption (by decide +kernel)
  have whole : NumericLiteral.Obtained ⟨"-9223372036854775808"⟩ := .whole Int64.minValue
  obtain ⟨_, _, _, fromText, _, _⟩ := numericLiteral_obtained (.loaded loaded)
  exact ⟨⟨.loaded loaded, fromText⟩, whole, (numericLiteral_obtained whole).1⟩

end Loading

end DecoderForge
