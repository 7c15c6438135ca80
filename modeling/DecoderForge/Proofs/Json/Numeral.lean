/-
This file proves which number a JSON number token is read as: the whole number that it denotes if 64
bits hold it, and else a binary number.
-/

import DecoderForge.Proofs.Json.Grammar
import DecoderForge.Proofs.Number.Literal

namespace DecoderForge.Json

open Text

namespace Numeral

/-- The whole number that the digits of a token denote when the point is left out. -/
def digits (n : Numeral) : Nat := Nat.ofDigitChars 10 (n.whole ++ n.fraction) 0

def exponentValue (n : Numeral) : Int :=
  match n.exponent with
  | none => 0
  | some (true, digits) => -(Nat.ofDigitChars 10 digits 0 : Int)
  | some (false, digits) => Nat.ofDigitChars 10 digits 0

/-- The power of ten that belongs to the digits. -/
def power (n : Numeral) : Int := n.exponentValue - n.fraction.length

/-- The number that a token denotes, but for its sign. -/
def size (n : Numeral) : ℚ := n.digits * 10 ^ n.power

def value (n : Numeral) : ℚ := if n.negative then -n.size else n.size

/-- A whole number without point and exponent that 64 bits hold, with a sign or without. -/
structure IsInteger64 (n : Numeral) : Prop where
  fraction : n.fraction = []
  exponent : n.exponent = none
  lower : -(Number.signedLimit : ℚ) ≤ n.value
  upper : n.value < Number.unsignedLimit

/-- The text of an exponent is one in a literal, too. -/
theorem exponentText_literal {n : Numeral} {text : List Char}
    (scale : ExponentText n.exponent text) :
    NumericLiteral.isExponent text = true ∧
      Stops NumericLiteral.isDigitOrSeparator text ∧ (∀ rest, text ≠ '.' :: rest) ∧
      NumericLiteral.exponentValue text = n.exponentValue := by
  obtain ⟨negative, whole, fraction, exponent⟩ := n
  cases scale with
  | missing => exact ⟨rfl, stops_nil _, nofun, rfl⟩
  | @present letter _ sign digits known signed some each =>
    have value := NumericLiteral.wholeValue_of_isDigit each
    have all : digits.all Char.isDigit = true := List.all_eq_true.mpr each
    have exponential : (letter == 'e' || letter == 'E') = true := by
      rcases known with rfl | rfl <;> rfl
    refine ⟨?_, .of_head ?_ _, ?_, ?_⟩
    · obtain ⟨d, more, rfl⟩ := List.exists_cons_of_ne_nil some
      have digit := each d List.mem_cons_self
      have unsigned : (d == '+' || d == '-') = false := by
        simp only [Bool.or_eq_false_iff, beq_eq_false_iff_ne]
        constructor <;> rintro rfl <;> contradiction
      cases signed <;>
        simp_all [NumericLiteral.isExponent]
    · rcases known with rfl | rfl <;> decide
    · rintro rest point
      obtain ⟨rfl, _⟩ := List.cons.inj point
      rcases known with same | same <;> contradiction
    · cases signed with
      | missing =>
        obtain ⟨d, more, rfl⟩ := List.exists_cons_of_ne_nil some
        have digit := each d List.mem_cons_self
        unfold NumericLiteral.exponentValue
        split
        · next minus =>
          obtain ⟨rfl, _⟩ := List.cons.inj (List.cons.inj minus).2
          contradiction
        · next plus =>
          obtain ⟨rfl, _⟩ := List.cons.inj (List.cons.inj plus).2
          contradiction
        · next same =>
          obtain rfl := (List.cons.inj same).2
          exact congrArg Nat.cast value
        · contradiction
      | plus => exact congrArg Nat.cast value
      | minus => exact congrArg (fun n : Nat => -(n : Int)) value

/-- Behind its sign a token is a decimal number of its size. -/
theorem Unsigned.literal {n : Numeral} {text : List Char} (unsigned : n.Unsigned text) :
    NumericLiteral.isDecimal text = true ∧ NumericLiteral.decimalValue text = n.size := by
  obtain @⟨negative, whole, fraction, point, power, exponent, before, places, scale⟩ := unsigned
  obtain ⟨last, stops, other, value⟩ :=
    exponentText_literal (n := ⟨negative, whole, fraction, exponent⟩) scale
  cases places with
  | missing =>
    rw [List.append_nil]
    refine ⟨NumericLiteral.isDecimal_whole before.each before.nonempty last stops other, ?_⟩
    rw [NumericLiteral.decimalValue_whole before.each stops other, value, size, digits,
      Numeral.power, List.append_nil, List.length_nil, Nat.cast_zero, sub_zero]
  | present some each =>
    rw [List.append_assoc, List.cons_append]
    refine ⟨NumericLiteral.isDecimal_point before.each each some last stops, ?_⟩
    rw [NumericLiteral.decimalValue_point before.each each stops, value]
    rfl

/-- As a literal a token denotes the same number. -/
theorem Spelled.literal_value {n : Numeral} {chars : List Char} (token : n.Spelled chars) :
    NumericLiteral.value ⟨String.ofList chars⟩ = n.value := by
  cases token with
  | positive sign unsigned =>
    obtain ⟨decimal, size⟩ := unsigned.literal
    rw [NumericLiteral.value_of_isDecimal decimal, size, Numeral.value, sign]
    rfl
  | negative sign unsigned =>
    obtain ⟨decimal, size⟩ := unsigned.literal
    rw [NumericLiteral.value_negative decimal, size, Numeral.value, sign]
    rfl

end Numeral

theorem le_ofDigitChars (chars : List Char) (n : Nat) : n ≤ Nat.ofDigitChars 10 chars n := by
  rw [Nat.ofDigitChars_eq_ofDigitChars_zero]
  exact (Nat.le_mul_of_pos_left n (Nat.pow_pos (by decide))).trans (Nat.le_add_right _ _)

/-- Digits are all appended when the number that they make is below the limit. -/
theorem appendDigits_of_lt {limit n : Nat} {chars : List Char}
    (small : Nat.ofDigitChars 10 chars n < limit) :
    appendDigits limit n chars = (Nat.ofDigitChars 10 chars n, 0) := by
  induction chars generalizing n with
  | nil => rfl
  | cons c rest ih =>
    rw [Nat.ofDigitChars_cons] at small ⊢
    have longer : 10 * n + digitValue c < limit := (le_ofDigitChars rest _).trans_lt small
    rw [appendDigits, if_pos longer]
    exact ih small

/-- What is appended without anything left over is the number that the digits make. -/
theorem appendDigits_of_all {limit n : Nat} {chars : List Char}
    (all : (appendDigits limit n chars).2 = 0) :
    (appendDigits limit n chars).1 = Nat.ofDigitChars 10 chars n := by
  induction chars generalizing n with
  | nil => rfl
  | cons c rest ih =>
    rw [appendDigits] at all ⊢
    rw [Nat.ofDigitChars_cons]
    split at all
    · next longer =>
      rw [if_pos longer]
      exact ih all
    · contradiction

namespace Numeral

variable {n : Numeral} {number : Number}

/-- The digits before the point that are kept, and how many are left over. -/
def keptWhole (n : Numeral) : Nat × Nat := appendDigits Number.unsignedLimit 0 n.whole

/-- All digits that are kept, and how many behind the point are left over. -/
def kept (n : Numeral) : Nat × Nat := appendDigits Number.unsignedLimit n.keptWhole.1 n.fraction

/-- The power of ten of the digits that are kept, but for the exponent. -/
def shift (n : Numeral) : Int := n.keptWhole.2 - ((n.fraction.length - n.kept.2 : Nat) : Int)

/-- Digits that 64 bits hold are all kept. -/
theorem kept_of_few (few : n.digits < Number.unsignedLimit) :
    n.keptWhole.2 = 0 ∧ n.kept = (n.digits, 0) := by
  have parts : Nat.ofDigitChars 10 n.fraction (Nat.ofDigitChars 10 n.whole 0) = n.digits :=
    (Nat.ofDigitChars_append 0).symm
  have first := (le_ofDigitChars n.fraction _).trans_lt (parts.trans_lt few)
  have whole : n.keptWhole = (Nat.ofDigitChars 10 n.whole 0, 0) := appendDigits_of_lt first
  rw [kept, whole, appendDigits_of_lt (parts.trans_lt few), parts]
  exact ⟨rfl, rfl⟩

theorem shift_of_few (few : n.digits < Number.unsignedLimit) :
    n.shift = -n.fraction.length := by
  obtain ⟨whole, all⟩ := kept_of_few few
  rw [shift, whole, all, Nat.sub_zero, Nat.cast_zero, zero_sub]

/-- Without a fraction the digits are all kept when none is left over. -/
theorem kept_of_whole (fraction : n.fraction = []) (all : n.keptWhole.2 = 0) :
    n.kept.1 = n.digits := by
  rw [kept, digits, fraction, List.append_nil]
  exact appendDigits_of_all all

/-- Digits of an exponent that is counted in full are all taken. -/
theorem appendDigits_exponent {negative : Bool} {digits : List Char}
    (exponent : n.exponent = some (negative, digits))
    (counted : n.exponentValue.natAbs < exponentLimit) :
    appendDigits exponentLimit 0 digits = (Nat.ofDigitChars 10 digits 0, 0) := by
  refine appendDigits_of_lt ?_
  rw [exponentValue, exponent] at counted
  cases negative <;> simpa using counted

theorem size_of_whole (fraction : n.fraction = []) (exponent : n.exponent = none) :
    n.size = n.digits := by
  rw [size, power, exponentValue, exponent, fraction, List.length_nil, Nat.cast_zero, sub_zero,
    zpow_zero, mul_one]

theorem ofDigits?_value {n : Numeral} (fraction : n.fraction = []) (exponent : n.exponent = none)
    (some : Number.ofDigits? n.negative n.digits = some number) :
    n.IsInteger64 ∧ ∃ v : Int, number = .int v ∧ v = n.value := by
  have size := size_of_whole fraction exponent
  have limits : (Number.signedLimit : ℚ) < Number.unsignedLimit := by
    norm_num [Number.signedLimit, Number.unsignedLimit]
  have least : (0 : ℚ) ≤ n.digits := Nat.cast_nonneg _
  have signed : (0 : ℚ) ≤ Number.signedLimit := Nat.cast_nonneg _
  unfold Number.ofDigits? at some
  cases sign : n.negative with
  | true =>
    have value : n.value = -n.digits := by rw [value, sign, if_pos rfl, size]
    rw [sign, if_pos rfl] at some
    split at some
    · next bound =>
      obtain rfl := Option.some_inj.mp some
      have upper : (n.digits : ℚ) ≤ Number.signedLimit := Nat.cast_le.mpr bound.2
      refine ⟨⟨fraction, exponent, ?_, ?_⟩, _, rfl, ?_⟩
      · rw [value]
        linarith
      · rw [value]
        linarith
      · rw [value]
        push_cast
        rfl
    · contradiction
  | false =>
    have value : n.value = n.digits := by
      rw [value, sign, if_neg Bool.false_ne_true, size]
    rw [sign, if_neg Bool.false_ne_true] at some
    split at some
    · next bound =>
      obtain rfl := Option.some_inj.mp some
      have upper : (n.digits : ℚ) < Number.unsignedLimit := Nat.cast_lt.mpr bound
      refine ⟨⟨fraction, exponent, ?_, ?_⟩, _, rfl, ?_⟩
      · rw [value]
        linarith
      · rw [value]
        exact upper
      · rw [value]
        push_cast
        rfl
    · contradiction

/-- The digits of a whole number that 64 bits hold are below the limit, too. -/
theorem IsInteger64.digits_bounds (integer : n.IsInteger64) :
    n.digits < Number.unsignedLimit ∧
      (n.negative = true → n.digits ≤ Number.signedLimit) := by
  obtain ⟨fraction, exponent, lower, upper⟩ := integer
  have limits : Number.signedLimit < Number.unsignedLimit := by decide
  rw [value, size_of_whole fraction exponent] at lower upper
  cases sign : n.negative with
  | true =>
    rw [sign, if_pos rfl] at lower
    have bound : n.digits ≤ Number.signedLimit := by exact_mod_cast neg_le_neg_iff.mp lower
    exact ⟨bound.trans_lt limits, fun _ => bound⟩
  | false =>
    rw [sign, if_neg Bool.false_ne_true] at upper
    exact ⟨by exact_mod_cast upper, nofun⟩

/-- Of the whole numbers that 64 bits hold only a zero with a sign is not read as such. -/
theorem IsInteger64.digits_eq_zero (integer : n.IsInteger64)
    (none : Number.ofDigits? n.negative n.digits = none) : n.digits = 0 := by
  obtain ⟨few, signed⟩ := integer.digits_bounds
  unfold Number.ofDigits? at none
  split at none
  · next sign =>
    have bound := signed sign
    split at none
    · contradiction
    · omega
  · contradiction

/-- What the binary number as which a token is read has to do with the token: it is scaled from all
digits that the token has if 64 bits hold them. -/
structure ReadsBinary (n : Numeral) (m : Magnitude) : Prop where
  canonical : m.IsCanonical
  apart : n.IsInteger64 → n.digits = 0
  scaled : n.digits < Number.unsignedLimit → n.exponentValue.natAbs < exponentLimit →
    Magnitude.ofScientific n.digits n.power = some m

/-- The binary number that the digits scaled with a power of ten give, if there is one. -/
def scaledNumber (n : Numeral) (e : Int) : Except Nat Number :=
  match Magnitude.ofScientific n.kept.1 e with
  | some m => .ok (.float n.negative m)
  | none => .error 0

theorem scaledNumber_eq_ok {e : Int} (read : n.scaledNumber e = .ok number) :
    ∃ m, number = .float n.negative m ∧ Magnitude.ofScientific n.kept.1 e = some m := by
  unfold scaledNumber at read
  split at read
  · next m scaled => exact ⟨m, (Except.ok.inj read).symm, scaled⟩
  · contradiction

theorem number_of_none (exponent : n.exponent = none) :
    n.number =
      if n.fraction.isEmpty ∧ n.keptWhole.2 = 0 then
        match Number.ofDigits? n.negative n.kept.1 with
        | some whole => .ok whole
        | none => n.scaledNumber 0
      else n.scaledNumber n.shift := by
  rw [number, scaledNumber, scaledNumber, shift, kept, keptWhole]
  -- The two sides are the same whatever the digits and the scale are: nothing is computed here.
  generalize Magnitude.ofScientific = scale
  generalize Number.ofDigits? = integer
  generalize appendDigits = append
  obtain ⟨negative, whole, fraction, _⟩ := n
  cases exponent
  rfl

theorem number_of_some {negative : Bool} {digits : List Char}
    (exponent : n.exponent = some (negative, digits)) :
    n.number =
      if (appendDigits exponentLimit 0 digits).2 = 0 then
        n.scaledNumber (if negative then n.shift - (appendDigits exponentLimit 0 digits).1
          else n.shift + (appendDigits exponentLimit 0 digits).1)
      else if n.kept.1 = 0 ∨ negative then .ok (.float n.negative .zero)
      else .error ((appendDigits exponentLimit 0 digits).2 - 1) := by
  rw [number, scaledNumber, shift, kept, keptWhole]
  generalize Magnitude.ofScientific = scale
  generalize appendDigits = append
  obtain ⟨_, whole, fraction, _⟩ := n
  cases exponent
  rfl

/-- What is scaled with the power of the token has to do with the token. -/
theorem readsBinary_of_scaledNumber {e : Int} (apart : n.IsInteger64 → n.digits = 0)
    (power : n.digits < Number.unsignedLimit → n.exponentValue.natAbs < exponentLimit →
      e = n.power)
    (read : n.scaledNumber e = .ok number) :
    ∃ m : Magnitude, number = .float n.negative m ∧ n.ReadsBinary m := by
  obtain ⟨m, same, scaled⟩ := scaledNumber_eq_ok read
  refine ⟨m, same, Magnitude.ofScientific_isCanonical scaled, apart, fun few counted => ?_⟩
  rw [← power few counted, ← scaled, (kept_of_few few).2]

/-- The number of a token without an exponent. -/
theorem number_cases_of_none (exponent : n.exponent = none) (read : n.number = .ok number) :
    (n.IsInteger64 ∧ ∃ v : Int, number = .int v ∧ v = n.value) ∨
      ∃ m : Magnitude, number = .float n.negative m ∧ n.ReadsBinary m := by
  have power : n.power = -n.fraction.length := by
    rw [power, exponentValue, exponent, zero_sub]
  rw [number_of_none exponent] at read
  split at read
  · next plain =>
    have fraction := List.isEmpty_iff.mp plain.1
    rw [kept_of_whole fraction plain.2] at read
    split at read
    · next v found =>
      obtain rfl := Except.ok.inj read
      exact .inl (ofDigits?_value fraction exponent found)
    · next none =>
      refine .inr (readsBinary_of_scaledNumber (fun integer => integer.digits_eq_zero none)
        (fun _ _ => ?_) read)
      rw [power, fraction]
      rfl
  · next other =>
    refine .inr (readsBinary_of_scaledNumber (fun integer => ?_) (fun few _ => ?_) read)
    · exact absurd ⟨List.isEmpty_iff.mpr integer.fraction,
        (kept_of_few integer.digits_bounds.1).1⟩ other
    · rw [shift_of_few few, power]

/-- With an exponent a token is read as a binary number. -/
theorem readsBinary_of_some {negative : Bool} {digits : List Char}
    (exponent : n.exponent = some (negative, digits)) (read : n.number = .ok number) :
    ∃ m : Magnitude, number = .float n.negative m ∧ n.ReadsBinary m := by
  have apart (integer : n.IsInteger64) : n.digits = 0 := by
    rw [integer.exponent] at exponent
    contradiction
  rw [number_of_some exponent] at read
  split at read
  · refine readsBinary_of_scaledNumber apart (fun few counted => ?_) read
    rw [appendDigits_exponent exponent counted, shift_of_few few, power, exponentValue, exponent]
    cases negative with
    | true =>
      rw [if_pos rfl]
      ring
    | false =>
      rw [if_neg Bool.false_ne_true]
      ring
  · next overflows =>
    split at read
    · refine ⟨.zero, (Except.ok.inj read).symm, Magnitude.isCanonical_zero, apart,
        fun _ counted => absurd ?_ overflows⟩
      rw [appendDigits_exponent exponent counted]
    · contradiction

/-- A token is read as a whole number that 64 bits hold, or as a binary number with its sign. -/
theorem number_cases (read : n.number = .ok number) :
    (n.IsInteger64 ∧ ∃ v : Int, number = .int v ∧ v = n.value) ∨
      ∃ m : Magnitude, number = .float n.negative m ∧ n.ReadsBinary m := by
  match exponent : n.exponent with
  | none => exact number_cases_of_none exponent read
  | some (negative, digits) => exact .inr (readsBinary_of_some exponent read)

/-- A zero is written as a zero. -/
theorem ReadsBinary.decimal_of_zero {m : Magnitude} (binary : n.ReadsBinary m)
    (zero : n.digits = 0) (counted : n.exponentValue.natAbs < exponentLimit) :
    m.decimal = n.size := by
  have scaled := binary.scaled (zero.trans_lt (by decide)) counted
  rw [zero] at scaled
  rw [Magnitude.decimal_zero (Magnitude.ofScientific_zero scaled), size, zero, Nat.cast_zero,
    zero_mul]

/-- What is written for a token denotes the number of the token exactly if that is a whole number
that 64 bits hold, or the shortest number that rounds to the binary number as which it is read. -/
theorem ofNumber_value_iff (read : n.number = .ok number) :
    (NumericLiteral.ofNumber number).value = n.value ↔
      n.IsInteger64 ∨ ∃ m : Magnitude, number = .float n.negative m ∧ m.IsShortest n.size := by
  obtain ⟨integer, v, rfl, same⟩ | ⟨m, rfl, binary⟩ := number_cases read
  · exact iff_of_true ((NumericLiteral.ofNumber_int v).trans same) (.inl integer)
  have sized : (NumericLiteral.ofNumber (.float n.negative m)).value = n.value ↔
      m.decimal = n.size := by
    rw [NumericLiteral.ofNumber_float, value]
    cases n.negative
    · rfl
    · exact neg_inj
  rw [sized]
  constructor
  · intro same
    exact .inr ⟨m, rfl, (Magnitude.isShortest_iff binary.canonical).mpr same.symm⟩
  · rintro (integer | ⟨k, same, shortest⟩)
    · refine binary.decimal_of_zero (binary.apart integer) ?_
      rw [exponentValue, integer.exponent]
      decide
    · obtain ⟨_, rfl⟩ := Number.float.inj same
      exact ((Magnitude.isShortest_iff binary.canonical).mp shortest).symm

/-- Fifteen digits and a small power of ten are written as they are read. -/
theorem ofNumber_value_of_few (read : n.number = .ok number) (few : n.digits < 10 ^ 15)
    (small : n.power.natAbs ≤ Magnitude.exactTenPow)
    (counted : n.exponentValue.natAbs < exponentLimit) :
    (NumericLiteral.ofNumber number).value = n.value := by
  rw [ofNumber_value_iff read]
  obtain ⟨integer, -⟩ | ⟨m, rfl, binary⟩ := number_cases read
  · exact .inl integer
  have canonical := binary.canonical
  refine .inr ⟨m, rfl, (Magnitude.isShortest_iff canonical).mpr ?_⟩
  rcases Nat.eq_zero_or_pos n.digits with zero | some
  · exact (binary.decimal_of_zero zero counted).symm
  · have within : (10 : Nat) ^ 15 ≤ Number.unsignedLimit := by decide
    have bits : (10 : Nat) ^ 15 ≤ 2 * Magnitude.leastNormal := by decide
    have scaled := binary.scaled (few.trans_le within) counted
    have reads := Magnitude.ofScientific_reads scaled some (few.trans_le bits) small
    have large : (10 : ℚ) ^ (-(Magnitude.exactTenPow : Int)) ≤ n.digits * 10 ^ n.power := by
      have one : (1 : ℚ) ≤ n.digits := Nat.one_le_cast.mpr some
      calc (10 : ℚ) ^ (-(Magnitude.exactTenPow : Int)) ≤ 1 * 10 ^ n.power := by
            rw [one_mul]
            exact zpow_le_zpow_right₀ (by norm_num) (by omega)
        _ ≤ n.digits * 10 ^ n.power := by gcongr
    exact (Magnitude.decimal_fifteen canonical (reads.normal canonical large) few reads).symm

/-- What is written as it is read has at most seventeen digits, unless it is a whole number. -/
theorem exists_seventeen (read : n.number = .ok number)
    (kept : (NumericLiteral.ofNumber number).value = n.value) :
    n.IsInteger64 ∨ ∃ (k : Nat) (e : Int), k < 10 ^ 17 ∧ n.size = k * 10 ^ e := by
  obtain integer | ⟨m, rfl, shortest⟩ := (ofNumber_value_iff read).mp kept
  · exact .inl integer
  obtain ⟨_, v, same, _⟩ | ⟨k, same, binary⟩ := number_cases read
  · contradiction
  obtain ⟨_, rfl⟩ := Number.float.inj same
  have canonical := binary.canonical
  obtain ⟨k, e, few, decimal⟩ := Magnitude.decimal_seventeen canonical
  exact .inr ⟨k, e, few, ((Magnitude.isShortest_iff canonical).mp shortest).trans decimal⟩

end Numeral

end DecoderForge.Json
