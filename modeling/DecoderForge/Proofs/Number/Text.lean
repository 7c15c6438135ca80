/-
This file proves that numbers are written as numeric literals, and of which characters numeric
literals consist.
-/

import DecoderForge.Descriptor.NumericLiteral
import DecoderForge.Proofs.Text.Legible

namespace DecoderForge

open Text

namespace NumericLiteral

theorem isDigitOrSeparator_of_isDigit {c : Char} (digit : c.isDigit = true) :
    isDigitOrSeparator c = true := by
  simp [isDigitOrSeparator, digit]

/-- Digits, a point and more digits are a decimal number, with an exponent or without. -/
theorem isDecimal_point {whole fraction exponent : List Char}
    (digits : ∀ c ∈ whole, c.isDigit = true) (places : ∀ c ∈ fraction, c.isDigit = true)
    (some : fraction ≠ []) (last : isExponent exponent = true)
    (stops : Stops isDigitOrSeparator exponent) :
    isDecimal (whole ++ '.' :: (fraction ++ exponent)) = true := by
  have point : Stops isDigitOrSeparator ('.' :: (fraction ++ exponent)) := by simp; decide
  have behind : (fraction ++ exponent).dropWhile isDigitOrSeparator = exponent :=
    dropWhile_word (fun c inside => isDigitOrSeparator_of_isDigit (places c inside)) stops
  have first : (fraction ++ exponent).head?.any Char.isDigit = true := by
    obtain ⟨c, rest, rfl⟩ := List.exists_cons_of_ne_nil some
    exact places c List.mem_cons_self
  unfold isDecimal
  rw [dropWhile_word (fun c inside => isDigitOrSeparator_of_isDigit (digits c inside)) point]
  simp only [behind, first, last, Bool.and_self]

/-- Digits are a decimal number, with an exponent or without. -/
theorem isDecimal_whole {whole exponent : List Char} (digits : ∀ c ∈ whole, c.isDigit = true)
    (some : whole ≠ []) (last : isExponent exponent = true)
    (stops : Stops isDigitOrSeparator exponent) (other : ∀ rest, exponent ≠ '.' :: rest) :
    isDecimal (whole ++ exponent) = true := by
  have inside : ∀ c ∈ whole, isDigitOrSeparator c = true :=
    fun c inside => isDigitOrSeparator_of_isDigit (digits c inside)
  have digit : whole.any Char.isDigit = true := by
    obtain ⟨c, rest, rfl⟩ := List.exists_cons_of_ne_nil some
    exact List.any_eq_true.mpr ⟨c, List.mem_cons_self, digits c List.mem_cons_self⟩
  unfold isDecimal
  rw [takeWhile_word inside stops, dropWhile_word inside stops]
  split
  · next point => exact absurd rfl (other _)
  · simp only [digit, last, Bool.and_self]

end NumericLiteral

namespace Magnitude

theorem isExponent_exponentText (exponent : Int) :
    NumericLiteral.isExponent (exponentText exponent) = true := by
  have digits : ∀ c ∈ Nat.toDigits 10 exponent.natAbs, c.isDigit = true :=
    fun c inside => Nat.isDigit_of_mem_toDigits (by decide) (by decide) inside
  have some : Nat.toDigits 10 exponent.natAbs ≠ [] := Nat.toDigits_ne_nil
  unfold exponentText
  split <;> simpa [NumericLiteral.isExponent, some] using digits

theorem stops_exponentText (exponent : Int) :
    Stops NumericLiteral.isDigitOrSeparator (exponentText exponent) := by
  rw [exponentText, stops_cons]
  decide

theorem isDigit_of_mem_replicate_zero {count : Nat} {c : Char}
    (inside : c ∈ List.replicate count '0') : c.isDigit = true := by
  rw [List.eq_of_mem_replicate inside]
  decide

theorem shortest_digits (m : Magnitude) :
    (∀ c ∈ m.shortest.1, c.isDigit = true) ∧ m.shortest.1 ≠ [] := by
  unfold shortest
  split
  · simp
  · exact ⟨fun c inside => Nat.isDigit_of_mem_toDigits (by decide) (by decide) inside,
      Nat.toDigits_ne_nil⟩

section

variable {digits : List Char} (each : ∀ c ∈ digits, c.isDigit = true)

include each

/-- Digits behind zeros of the fraction. -/
theorem isDecimal_fraction (some : digits ≠ []) (zeros : Nat) :
    NumericLiteral.isDecimal ('0' :: '.' :: (List.replicate zeros '0' ++ digits)) = true := by
  have whole : ∀ c ∈ ['0'], c.isDigit = true := List.forall_mem_singleton.mpr rfl
  have places : ∀ c ∈ List.replicate zeros '0' ++ digits, c.isDigit = true :=
    List.forall_mem_append.mpr ⟨fun c => isDigit_of_mem_replicate_zero, each⟩
  have left : List.replicate zeros '0' ++ digits ≠ [] :=
    List.append_ne_nil_of_right_ne_nil _ some
  have decimal := NumericLiteral.isDecimal_point whole places left rfl (stops_nil _)
  rwa [List.append_nil] at decimal

/-- Digits with a point between them, or with zeros up to the point and one behind it. -/
theorem isDecimal_positional (point zeros : Nat) :
    NumericLiteral.isDecimal (digits.take point ++ List.replicate zeros '0' ++
      '.' :: (if (digits.drop point).isEmpty then ['0'] else digits.drop point)) = true := by
  have whole : ∀ c ∈ digits.take point ++ List.replicate zeros '0', c.isDigit = true :=
    List.forall_mem_append.mpr
      ⟨fun c taken => each c (List.mem_of_mem_take taken), fun c => isDigit_of_mem_replicate_zero⟩
  have fraction : ∀ places, places = (if (digits.drop point).isEmpty then ['0'] else
      digits.drop point) → (∀ c ∈ places, c.isDigit = true) ∧ places ≠ [] := by
    rintro places rfl
    split
    · exact ⟨List.forall_mem_singleton.mpr rfl, List.cons_ne_nil _ _⟩
    · next other =>
      exact ⟨fun c dropped => each c (List.mem_of_mem_drop dropped), by simpa using other⟩
  obtain ⟨places, left⟩ := fraction _ rfl
  have decimal := NumericLiteral.isDecimal_point whole places left rfl (stops_nil _)
  rwa [List.append_nil] at decimal

/-- Digits and an exponent. -/
theorem isDecimal_scientific (some : digits ≠ []) (exponent : Int) :
    NumericLiteral.isDecimal (digits ++ exponentText exponent) = true := by
  have other (rest : List Char) : exponentText exponent ≠ '.' :: rest := by
    intro point
    exact absurd (List.cons.inj point).1 (by decide +kernel)
  exact NumericLiteral.isDecimal_whole each some (isExponent_exponentText exponent)
    (stops_exponentText exponent) other

end

/-- A magnitude is written as a decimal number. -/
theorem isDecimal_text (m : Magnitude) : NumericLiteral.isDecimal m.text = true := by
  obtain ⟨each, some⟩ := m.shortest_digits
  unfold text
  dsimp only
  split
  · exact isDecimal_fraction each some _
  split
  · exact isDecimal_positional each _ _
  split
  · contradiction
  · next digit single =>
    rw [single] at each
    exact isDecimal_scientific each (List.cons_ne_nil _ _) _
  · next digit rest more several =>
    rw [several] at each
    obtain ⟨first, places⟩ := List.forall_mem_cons.mp each
    exact NumericLiteral.isDecimal_point (List.forall_mem_singleton.mpr first) places more
      (isExponent_exponentText _) (stops_exponentText _)

end Magnitude

namespace NumericLiteral

theorem isNumeric_of_isDecimal {chars : List Char} (decimal : isDecimal chars = true) :
    isNumeric chars = true := by
  have unsigned : ∀ rest, chars ≠ '-' :: rest := by
    rintro rest rfl
    have never : isDecimal ('-' :: rest) = false := rfl
    rw [never] at decimal
    contradiction
  unfold isNumeric
  split
  · exact absurd rfl (unsigned _)
  · simp [decimal]

theorem isNumeric_negative {chars : List Char} (decimal : isDecimal chars = true) :
    isNumeric ('-' :: chars) = true := by
  simp [isNumeric, decimal]

/-- A whole number is written as a decimal number. -/
theorem isDecimal_toDigits (n : Nat) : isDecimal (Nat.toDigits 10 n) = true := by
  have digits : ∀ c ∈ Nat.toDigits 10 n, c.isDigit = true :=
    fun c inside => Nat.isDigit_of_mem_toDigits (by decide) (by decide) inside
  simpa using isDecimal_whole digits Nat.toDigits_ne_nil rfl (stops_nil _) nofun

/-- A number is written as a numeric literal. -/
theorem isNumeric_chars (n : Number) : isNumeric n.chars = true := by
  match n with
  | .int (.ofNat n) => exact isNumeric_of_isDecimal (isDecimal_toDigits n)
  | .int (.negSucc n) => exact isNumeric_negative (isDecimal_toDigits (n + 1))
  | .float true m => exact isNumeric_negative m.isDecimal_text
  | .float false m => exact isNumeric_of_isDecimal m.isDecimal_text

theorem isNumeric_ofNumber (n : Number) : isNumeric (ofNumber n).text.toList = true := by
  have text : (ofNumber n).text.toList = n.chars := String.toList_ofList
  rw [text]
  exact isNumeric_chars n

/-- A literal that is read from a text or made from a number. -/
def IsWritten (n : NumericLiteral) : Prop :=
  (∃ text, parse? text = some n) ∨ ∃ number, n = ofNumber number

theorem IsWritten.isNumeric {n : NumericLiteral} (written : n.IsWritten) :
    isNumeric n.text.toList = true := by
  obtain ⟨text, parsed⟩ | ⟨number, rfl⟩ := written
  · obtain ⟨numeric, same⟩ := Option.ite_none_right_eq_some.mp parsed
    obtain rfl := Option.some_inj.mp same
    exact numeric
  · exact isNumeric_ofNumber number

/-- The characters of which numeric literals consist. -/
def isPart (c : Char) : Bool :=
  isHexadecimal c || ['x', 'X', 'o', 'O', '_', '.', '+', '-'].contains c

theorem isPart_of_isDigit {c : Char} (digit : c.isDigit = true) : isPart c = true := by
  simp [isPart, isHexadecimal, digit]

theorem isPart_of_isDigitOrSeparator {c : Char} (part : isDigitOrSeparator c = true) :
    isPart c = true := by
  rcases (Bool.or_eq_true _ _).mp part with digit | separator
  · exact isPart_of_isDigit digit
  · rw [beq_iff_eq.mp separator]
    decide

theorem isPart_of_isExponent {chars : List Char} (exponent : isExponent chars = true) :
    ∀ c ∈ chars, isPart c = true := by
  match chars with
  | [] => exact nofun
  | [letter] => simp [isExponent] at exponent
  | letter :: sign :: rest =>
    simp only [isExponent, Bool.and_eq_true, Bool.or_eq_true, beq_iff_eq] at exponent
    obtain ⟨⟨exponential, _⟩, digits⟩ := exponent
    have first : isPart letter = true := by
      rcases exponential with rfl | rfl <;> decide
    refine List.forall_mem_cons.mpr ⟨first, ?_⟩
    split at digits
    · next signed =>
      have second : isPart sign = true := by
        rcases signed with rfl | rfl <;> decide
      refine List.forall_mem_cons.mpr ⟨second, ?_⟩
      exact fun c inside => isPart_of_isDigit (List.all_eq_true.mp digits c inside)
    · exact fun c inside => isPart_of_isDigit (List.all_eq_true.mp digits c inside)

theorem isPart_of_mem_takeWhile {chars : List Char} {c : Char}
    (inside : c ∈ chars.takeWhile isDigitOrSeparator) : isPart c = true :=
  isPart_of_isDigitOrSeparator (List.mem_takeWhile_imp inside)

theorem isPart_of_isDecimal {chars : List Char} (decimal : isDecimal chars = true) :
    ∀ c ∈ chars, isPart c = true := by
  have exponent {rest : List Char} (last : isExponent rest = true) {c : Char}
      (inside : c ∈ rest) : isPart c = true := isPart_of_isExponent last c inside
  unfold isDecimal at decimal
  rw [← List.takeWhile_append_dropWhile (p := isDigitOrSeparator) (l := chars)]
  refine List.forall_mem_append.mpr ⟨fun c => isPart_of_mem_takeWhile, ?_⟩
  split at decimal
  · next rest split =>
    rw [split]
    refine List.forall_mem_cons.mpr ⟨by decide, ?_⟩
    rw [← List.takeWhile_append_dropWhile (p := isDigitOrSeparator) (l := rest)]
    have last := ((Bool.and_eq_true _ _).mp decimal).2
    exact List.forall_mem_append.mpr ⟨fun c => isPart_of_mem_takeWhile, fun c => exponent last⟩
  · have last := ((Bool.and_eq_true _ _).mp decimal).2
    exact fun c => exponent last

/-- The letter of a base is small or capital. -/
theorem isPart_of_toLower {letter : Char} (base : letter.toLower ∈ ['x', 'o', 'b']) :
    isPart letter = true := by
  have each : ['x', 'o', 'b'].all (fun small => isPart small && isPart small.toUpper) = true := by
    decide
  obtain ⟨small, capital⟩ := (Bool.and_eq_true _ _).mp (List.all_eq_true.mp each _ base)
  rcases eq_toLower_or letter with same | same
  · rwa [same]
  · rwa [same]

/-- A letter that names a base and the digits of the base are characters of numeric literals. -/
theorem isPart_of_ofBase? {letter : Char} {isDigit : Char → Bool}
    (base : ofBase? letter = some isDigit) :
    isPart letter = true ∧ ∀ c, isDigit c = true → isPart c = true := by
  unfold ofBase? at base
  split at base
  · next lower =>
    obtain rfl := Option.some_inj.mp base
    refine ⟨isPart_of_toLower (by rw [lower]; decide), ?_⟩
    intro c digit
    simp [isPart, digit]
  · next lower =>
    obtain rfl := Option.some_inj.mp base
    refine ⟨isPart_of_toLower (by rw [lower]; decide), ?_⟩
    intro c digit
    obtain ⟨low, high⟩ := (Bool.and_eq_true _ _).mp digit
    have top : c ≤ '9' := Char.le_trans (of_decide_eq_true high) (by decide)
    have isDigit : c.isDigit = true :=
      (Bool.and_eq_true _ _).mpr ⟨low, decide_eq_true top⟩
    exact isPart_of_isDigit isDigit
  · next lower =>
    obtain rfl := Option.some_inj.mp base
    refine ⟨isPart_of_toLower (by rw [lower]; decide), ?_⟩
    intro c digit
    rcases (Bool.or_eq_true _ _).mp digit with zero | one
    · rw [beq_iff_eq.mp zero]
      decide
    · rw [beq_iff_eq.mp one]
      decide
  · contradiction

theorem isPart_of_isBased {chars : List Char} (based : isBased chars = true) :
    ∀ c ∈ chars, isPart c = true := by
  unfold isBased at based
  split at based
  · next letter digits =>
    cases base : ofBase? letter with
    | none =>
      rw [base] at based
      contradiction
    | some isDigit =>
      rw [base] at based
      obtain ⟨first, each⟩ := isPart_of_ofBase? base
      have rest : ∀ c ∈ digits, isPart c = true := by
        intro c inside
        have digit := List.all_eq_true.mp ((Bool.and_eq_true _ _).mp based).2 c inside
        rcases (Bool.or_eq_true _ _).mp digit with digit | separator
        · exact each c digit
        · rw [beq_iff_eq.mp separator]
          decide
      exact List.forall_mem_cons.mpr ⟨by decide, List.forall_mem_cons.mpr ⟨first, rest⟩⟩
  · contradiction

/-- A numeric literal is a word of its own characters. -/
theorem isPart_of_isNumeric {chars : List Char} (numeric : isNumeric chars = true) :
    ∀ c ∈ chars, isPart c = true := by
  have unsigned {rest : List Char} (number : (isBased rest || isDecimal rest) = true) :
      ∀ c ∈ rest, isPart c = true :=
    ((Bool.or_eq_true _ _).mp number).elim isPart_of_isBased isPart_of_isDecimal
  unfold isNumeric at numeric
  split at numeric
  · exact List.forall_mem_cons.mpr ⟨by decide, unsigned numeric⟩
  · exact unsigned numeric

theorem ne_nil_of_isNumeric {chars : List Char} (numeric : isNumeric chars = true) :
    chars ≠ [] := by
  rintro rfl
  contradiction

end NumericLiteral

end DecoderForge
