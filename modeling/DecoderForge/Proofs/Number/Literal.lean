/-
This file proves which numbers the texts of numbers stand for when they are read as literals: whole
numbers stand for themselves, and magnitudes for the number that their digits name.
-/

import DecoderForge.Proofs.Number.Digits
import DecoderForge.Proofs.Number.Text
import DecoderForge.Proofs.Number.Value

namespace DecoderForge

open Text

namespace NumericLiteral

/-- Digits without separators stand for what they do anywhere. -/
theorem wholeValue_of_isDigit {digits : List Char} (each : ∀ c ∈ digits, c.isDigit = true) :
    wholeValue 10 digits = Nat.ofDigitChars 10 digits 0 := by
  have plain : digits.filter (· != '_') = digits := by
    refine List.filter_eq_self.mpr fun c inside => bne_iff_ne.mpr ?_
    rintro rfl
    exact absurd (each '_' inside) (by decide)
  rw [wholeValue, plain, Nat.ofDigitChars_eq_foldl]
  refine List.foldl_ext _ _ _ fun n c inside => ?_
  rw [digitValue, if_pos (each c inside)]

theorem decimalValue_point {whole fraction exponent : List Char}
    (digits : ∀ c ∈ whole, c.isDigit = true) (places : ∀ c ∈ fraction, c.isDigit = true)
    (stops : Stops isDigitOrSeparator exponent) :
    decimalValue (whole ++ '.' :: (fraction ++ exponent)) =
      Nat.ofDigitChars 10 (whole ++ fraction) 0 *
        10 ^ (exponentValue exponent - fraction.length) := by
  have point : Stops isDigitOrSeparator ('.' :: (fraction ++ exponent)) :=
    .of_head (by decide) _
  have inside : ∀ c ∈ whole, isDigitOrSeparator c = true :=
    fun c member => isDigitOrSeparator_of_isDigit (digits c member)
  have behind : ∀ c ∈ fraction, isDigitOrSeparator c = true :=
    fun c member => isDigitOrSeparator_of_isDigit (places c member)
  have plain : fraction.filter (· != '_') = fraction := by
    refine List.filter_eq_self.mpr fun c member => bne_iff_ne.mpr ?_
    rintro rfl
    exact absurd (places '_' member) (by decide)
  rw [← wholeValue_of_isDigit (List.forall_mem_append.mpr ⟨digits, places⟩)]
  simp only [decimalValue, takeWhile_word inside point, dropWhile_word inside point,
    takeWhile_word behind stops, dropWhile_word behind stops, plain]

theorem decimalValue_whole {whole exponent : List Char} (digits : ∀ c ∈ whole, c.isDigit = true)
    (stops : Stops isDigitOrSeparator exponent) (other : ∀ rest, exponent ≠ '.' :: rest) :
    decimalValue (whole ++ exponent) =
      Nat.ofDigitChars 10 whole 0 * 10 ^ exponentValue exponent := by
  have inside : ∀ c ∈ whole, isDigitOrSeparator c = true :=
    fun c member => isDigitOrSeparator_of_isDigit (digits c member)
  unfold decimalValue
  rw [takeWhile_word inside stops, dropWhile_word inside stops]
  dsimp only
  split
  · exact absurd rfl (other _)
  · rw [wholeValue_of_isDigit digits]

/-- A decimal number names no base. -/
theorem ofBase?_of_isDecimal {letter : Char} {rest : List Char}
    (decimal : isDecimal ('0' :: letter :: rest) = true) : ofBase? letter = none := by
  by_cases part : isDigitOrSeparator letter = true
  · rcases (Bool.or_eq_true _ _).mp part with digit | separator
    · have each : letter.isDigit = true → ofBase? letter = none :=
        of_ascii (by decide +kernel) (lt_of_isDigit digit)
      exact each digit
    · rw [beq_iff_eq.mp separator]
      rfl
  · have zero : isDigitOrSeparator '0' = true := by decide
    have behind : ('0' :: letter :: rest).dropWhile isDigitOrSeparator = letter :: rest := by
      rw [List.dropWhile_cons_of_pos zero, List.dropWhile_cons_of_neg part]
    unfold isDecimal at decimal
    rw [behind] at decimal
    split at decimal
    · next point =>
      rw [(List.cons.inj point).1]
      rfl
    · have last := ((Bool.and_eq_true _ _).mp decimal).2
      simp only [isExponent, Bool.and_eq_true, Bool.or_eq_true, beq_iff_eq] at last
      rcases last.1.1 with rfl | rfl <;> rfl

theorem unsignedValue_of_isDecimal {chars : List Char} (decimal : isDecimal chars = true) :
    unsignedValue chars = decimalValue chars := by
  unfold unsignedValue
  split
  · next letter rest =>
    have based : isBased ('0' :: letter :: rest) = false := by
      simp only [isBased, ofBase?_of_isDecimal decimal]
    rw [based, if_neg Bool.false_ne_true]
  · rfl

end NumericLiteral

namespace Magnitude

theorem exponentValue_exponentText (exponent : Int) :
    NumericLiteral.exponentValue (exponentText exponent) = exponent := by
  have digits : ∀ c ∈ Nat.toDigits 10 exponent.natAbs, c.isDigit = true :=
    fun c inside => Nat.isDigit_of_mem_toDigits (by decide) (by decide) inside
  unfold exponentText
  split
  · next negative =>
    rw [NumericLiteral.exponentValue, NumericLiteral.wholeValue_of_isDigit digits,
      Nat.ofDigitChars_ten_toDigits]
    omega
  · next positive =>
    rw [NumericLiteral.exponentValue, NumericLiteral.wholeValue_of_isDigit digits,
      Nat.ofDigitChars_ten_toDigits]
    omega

section

variable {digits : List Char} (each : ∀ c ∈ digits, c.isDigit = true)

include each

theorem decimalValue_fraction (zeros : Nat) :
    NumericLiteral.decimalValue ('0' :: '.' :: (List.replicate zeros '0' ++ digits)) =
      Nat.ofDigitChars 10 digits 0 * 10 ^ (-(zeros : Int) - digits.length) := by
  have places : ∀ c ∈ List.replicate zeros '0' ++ digits, c.isDigit = true :=
    List.forall_mem_append.mpr ⟨fun c => isDigit_of_mem_replicate_zero, each⟩
  have value := NumericLiteral.decimalValue_point
    (List.forall_mem_singleton.mpr (rfl : '0'.isDigit = true)) places (stops_nil _)
  rw [List.append_nil, List.singleton_append, List.singleton_append] at value
  rw [value, ← List.cons_append, ← List.replicate_succ, Nat.ofDigitChars_append,
    Nat.ofDigitChars_replicate_zero, Nat.mul_zero, List.length_append, List.length_replicate]
  congr 2
  rw [NumericLiteral.exponentValue]
  push_cast
  ring

theorem decimalValue_positional (point : Nat) :
    NumericLiteral.decimalValue (digits.take point ++
        List.replicate (point - digits.length) '0' ++
        '.' :: (if (digits.drop point).isEmpty then ['0'] else digits.drop point)) =
      Nat.ofDigitChars 10 digits 0 * 10 ^ ((point : Int) - digits.length) := by
  have whole : ∀ c ∈ digits.take point ++ List.replicate (point - digits.length) '0',
      c.isDigit = true :=
    List.forall_mem_append.mpr
      ⟨fun c taken => each c (List.mem_of_mem_take taken), fun c => isDigit_of_mem_replicate_zero⟩
  have dropped : ∀ c ∈ digits.drop point, c.isDigit = true :=
    fun c inside => each c (List.mem_of_mem_drop inside)
  split
  · next none =>
    have short := List.drop_eq_nil_iff.mp (List.isEmpty_iff.mp none)
    have value := NumericLiteral.decimalValue_point whole
      (List.forall_mem_singleton.mpr (rfl : '0'.isDigit = true)) (stops_nil _)
    rw [List.append_nil] at value
    rw [value, List.take_of_length_le short, List.append_assoc, ← List.replicate_succ',
      Nat.ofDigitChars_append, Nat.ofDigitChars_replicate_zero, pow_succ]
    have size : (point : Int) - digits.length = (point - digits.length : Nat) := by omega
    have tenth : NumericLiteral.exponentValue [] - (['0'].length : Int) = -1 := rfl
    rw [size, zpow_natCast, tenth, zpow_neg_one]
    push_cast
    ring
  · next some =>
    have long : point < digits.length := by
      by_contra short
      exact some (List.isEmpty_iff.mpr (List.drop_eq_nil_iff.mpr (Nat.le_of_not_lt short)))
    have value := NumericLiteral.decimalValue_point whole dropped (stops_nil _)
    rw [List.append_nil] at value
    rw [value, Nat.sub_eq_zero_of_le long.le, List.replicate_zero, List.append_nil,
      List.take_append_drop, List.length_drop, NumericLiteral.exponentValue]
    congr 2
    omega

end

/-- The text of a magnitude stands for the number that its digits name. -/
theorem decimalValue_text (m : Magnitude) : NumericLiteral.decimalValue m.text = m.decimal := by
  obtain ⟨each, some⟩ := m.shortest_digits
  unfold text decimal
  dsimp only
  split
  · next within =>
    rw [decimalValue_fraction each]
    congr 2
    omega
  split
  · next within =>
    have whole : ((m.shortest.2.toNat : Nat) : Int) = m.shortest.2 := by omega
    rw [decimalValue_positional each, whole]
  split
  · contradiction
  · next digit single =>
    rw [single] at each ⊢
    have value := NumericLiteral.decimalValue_whole each (stops_exponentText (m.shortest.2 - 1))
      fun rest point => absurd (List.cons.inj point).1 (by decide)
    rw [List.singleton_append] at value
    rw [value, exponentValue_exponentText, List.length_singleton]
    rfl
  · next digit rest more several =>
    rw [several] at each ⊢
    obtain ⟨first, places⟩ := List.forall_mem_cons.mp each
    have value := NumericLiteral.decimalValue_point (List.forall_mem_singleton.mpr first) places
      (stops_exponentText (m.shortest.2 - 1))
    rw [List.singleton_append, List.singleton_append] at value
    rw [value, exponentValue_exponentText, List.length_cons]
    congr 2
    push_cast
    ring

end Magnitude

namespace NumericLiteral

theorem value_of_isDecimal {chars : List Char} (decimal : isDecimal chars = true) :
    value ⟨String.ofList chars⟩ = decimalValue chars := by
  have unsigned : ∀ rest, chars ≠ '-' :: rest := by
    rintro rest rfl
    have never : isDecimal ('-' :: rest) = false := rfl
    rw [never] at decimal
    contradiction
  unfold value
  rw [String.toList_ofList]
  split
  · exact absurd rfl (unsigned _)
  · exact unsignedValue_of_isDecimal decimal

theorem value_negative {chars : List Char} (decimal : isDecimal chars = true) :
    value ⟨String.ofList ('-' :: chars)⟩ = -decimalValue chars := by
  rw [← unsignedValue_of_isDecimal decimal, value, String.toList_ofList]
  rfl

/-- A whole number is written as itself. -/
theorem ofNumber_int (n : Int) : (ofNumber (.int n)).value = n := by
  have digits (n : Nat) : decimalValue (Nat.toDigits 10 n) = n := by
    have each : ∀ c ∈ Nat.toDigits 10 n, c.isDigit = true :=
      fun c inside => Nat.isDigit_of_mem_toDigits (by decide) (by decide) inside
    have value := decimalValue_whole each (stops_nil _) nofun
    rwa [List.append_nil, Nat.ofDigitChars_ten_toDigits, exponentValue, zpow_zero, mul_one] at value
  cases n with
  | ofNat n => exact (value_of_isDecimal (isDecimal_toDigits n)).trans (digits n)
  | negSucc n =>
    have value := value_negative (isDecimal_toDigits (n + 1))
    rw [digits] at value
    rw [Int.cast_negSucc]
    exact value

/-- A binary number is written as its sign and the decimal of its magnitude. -/
theorem ofNumber_float (negative : Bool) (m : Magnitude) :
    (ofNumber (.float negative m)).value = if negative then -m.decimal else m.decimal := by
  rw [← m.decimalValue_text]
  cases negative with
  | false => exact value_of_isDecimal m.isDecimal_text
  | true => exact value_negative m.isDecimal_text

end NumericLiteral

end DecoderForge
