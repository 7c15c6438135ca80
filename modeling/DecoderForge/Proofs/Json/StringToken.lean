/-
This file proves that a string that is written as JSON is read back, whatever follows it.
-/

import DecoderForge.Json.Printer
import DecoderForge.Json.StringToken

namespace DecoderForge.Json

theorem hexValue?_hexDigit {n : Nat} (small : n < 16) : hexValue? (hexDigit n) = some n := by
  have each : ∀ digit : Fin 16, hexValue? (hexDigit digit) = some digit.val := by decide
  exact each ⟨n, small⟩

section

variable (offset : Nat) (rest : List Char)

/-- A letter behind a backslash is read as the character that it names. -/
theorem stringFrom_letter {letter named : Char} (other : letter ≠ 'u')
    (names : escaped? letter = some named) :
    ∃ next, stringFrom .keep .plain offset ('\\' :: letter :: rest) =
      (stringFrom .keep .plain next rest).map fun (chars, cursor) => (named :: chars, cursor) := by
  have backslash : ¬ '\\' = '"' := by decide
  refine ⟨offset + '\\'.utf8Size + letter.utf8Size, ?_⟩
  simp only [stringFrom, if_neg backslash, if_true, if_neg other, names]

/-- The four digits of a control character are read as the character. -/
theorem stringFrom_control {c : Char} (control : c.toNat < 0x20) :
    ∃ next, stringFrom .keep .plain offset
        ('\\' :: 'u' :: '0' :: '0' :: hexDigit (c.toNat / 16) :: hexDigit (c.toNat % 16) :: rest) =
      (stringFrom .keep .plain next rest).map fun (chars, cursor) => (c :: chars, cursor) := by
  have zero : hexValue? '0' = some 0 := by decide
  have high : hexValue? (hexDigit (c.toNat / 16)) = some (c.toNat / 16) :=
    hexValue?_hexDigit (by omega)
  have low : hexValue? (hexDigit (c.toNat % 16)) = some (c.toNat % 16) :=
    hexValue?_hexDigit (by omega)
  have value : 16 * (16 * (16 * (16 * 0 + 0) + 0) + c.toNat / 16) + c.toNat % 16 = c.toNat := by
    omega
  have unit : StringState.afterUnit none c.toNat = some (.plain, [c]) := by
    have trail : isTrail c.toNat = false := by
      simp only [isTrail, Bool.and_eq_false_iff, decide_eq_false_iff_not]
      omega
    have lead : isLead c.toNat = false := by
      simp only [isLead, Bool.and_eq_false_iff, decide_eq_false_iff_not]
      omega
    simp [StringState.afterUnit, trail, lead]
  simp only [stringFrom, zero, high, low, value, unit]
  exact ⟨_, rfl⟩

/-- A character that is written in a string is read back. -/
theorem stringFrom_escapeChar (c : Char) :
    ∃ next, stringFrom .keep .plain offset (escapeChar c ++ rest) =
      (stringFrom .keep .plain next rest).map fun (chars, cursor) => (c :: chars, cursor) := by
  unfold escapeChar
  split
  · next quotation =>
    rw [quotation]
    exact stringFrom_letter offset rest (by decide) rfl
  split
  · next backslash =>
    rw [backslash]
    exact stringFrom_letter offset rest (by decide) rfl
  split
  · next backspace => exact backspace ▸ stringFrom_letter offset rest (by decide) rfl
  split
  · next feed => exact feed ▸ stringFrom_letter offset rest (by decide) rfl
  split
  · next line => exact line ▸ stringFrom_letter offset rest (by decide) rfl
  split
  · next carriage => exact carriage ▸ stringFrom_letter offset rest (by decide) rfl
  split
  · next tabulator => exact tabulator ▸ stringFrom_letter offset rest (by decide) rfl
  split
  · next control => exact stringFrom_control offset rest control
  · next quotation backslash _ _ _ _ _ control =>
    refine ⟨offset + c.utf8Size, ?_⟩
    simp only [List.singleton_append, stringFrom, if_neg quotation, if_neg backslash,
      if_neg control]

/-- A string that is written is read back up to its closing quotation mark. -/
theorem stringFrom_written (chars : List Char) :
    ∃ stop, stringFrom .keep .plain offset (chars.flatMap escapeChar ++ '"' :: rest) =
      .ok (chars, ⟨rest, stop⟩) := by
  induction chars generalizing offset with
  | nil =>
    refine ⟨offset + '"'.utf8Size, ?_⟩
    simp only [List.flatMap_nil, List.nil_append, stringFrom, if_true]
  | cons c chars ih =>
    rw [List.flatMap_cons, List.append_assoc]
    obtain ⟨next, first⟩ := stringFrom_escapeChar offset (chars.flatMap escapeChar ++ '"' :: rest) c
    obtain ⟨stop, others⟩ := ih next
    refine ⟨stop, ?_⟩
    rw [first, others]
    rfl

end

/-- A written string is told from what follows it. -/
theorem quoteChars_append_inj {s t : String} {rest other : List Char}
    (same : quoteChars s ++ rest = quoteChars t ++ other) : s = t ∧ rest = other := by
  have inside : s.toList.flatMap escapeChar ++ '"' :: rest =
      t.toList.flatMap escapeChar ++ '"' :: other := by
    simpa [quoteChars] using same
  obtain ⟨stop, read⟩ := stringFrom_written 0 rest s.toList
  obtain ⟨close, again⟩ := stringFrom_written 0 other t.toList
  rw [inside, again] at read
  obtain ⟨chars, cursor⟩ := Prod.mk.inj (Except.ok.inj read)
  exact ⟨(String.toList_inj.mp chars).symm, (Cursor.mk.inj cursor).1.symm⟩

end DecoderForge.Json
