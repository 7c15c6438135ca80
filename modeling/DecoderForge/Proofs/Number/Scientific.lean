/-
This file proves that a whole number times a power of ten is rounded once if both are small: the
number itself, its power and so the only step that rounds are then exact.
-/

import DecoderForge.Proofs.Number.Rounding

namespace DecoderForge

namespace Magnitude

theorem fraction_pos (n : Nat) (e : Int) : 0 < (fraction n e).2 := by
  exact Nat.pow_pos two_pos

theorem fraction_numerator_pos {n : Nat} (some : 0 < n) (e : Int) : 0 < (fraction n e).1 :=
  Nat.mul_pos some (Nat.pow_pos two_pos)

theorem fraction_value (n : Nat) (e : Int) :
    ((fraction n e).1 : ℚ) / (fraction n e).2 = n * 2 ^ e := by
  have scaled := scaled_ratio n 1 (-e)
  rwa [neg_neg, Nat.one_mul, Nat.cast_one, div_one, zpow_neg, div_inv_eq_mul] at scaled

theorem value_pos_iff {m : Magnitude} : 0 < m.value ↔ 0 < m.mantissa := by
  rw [value, mul_pos_iff_of_pos_right (two_zpow_pos _), Nat.cast_pos]

theorem ofNat_value {n : Nat} (bits : n < 2 * leastNormal) : (ofNat n).value = n := by
  have least : leastExponent ≤ 0 := by decide
  have same : (n : ℚ) / (1 : Nat) = n * 2 ^ (0 : Int) := by simp
  have exact := ofRatio_value Nat.one_pos bits least same
  rwa [Nat.cast_one, div_one] at exact

/-- The powers of ten that have at most 53 bits behind their zeros. -/
def exactTenPow : Nat := 22

theorem tenPow_value {k : Nat} (small : k ≤ exactTenPow) : (tenPow k).value = 10 ^ k := by
  have bits : 5 ^ k < 2 * leastNormal :=
    (Nat.pow_le_pow_right (by decide) small).trans_lt (by decide)
  have least : leastExponent ≤ k := (by decide : leastExponent ≤ 0).trans (Int.natCast_nonneg k)
  have parts : ((Nat.pow 10 k : Nat) : ℚ) / (1 : Nat) = (5 ^ k : Nat) * 2 ^ (k : Int) := by
    rw [Nat.pow_eq, zpow_natCast]
    push_cast
    rw [div_one, ← mul_pow]
    norm_num
  have exact := ofRatio_value Nat.one_pos bits least parts
  rwa [Nat.pow_eq, Nat.cast_one, div_one, Nat.cast_pow] at exact

/-- What rounds to zero is small. -/
theorem Reads.lt_one {m : Magnitude} {x : ℚ} (reads : m.Reads x) (canonical : m.IsCanonical)
    (zero : m.mantissa = 0) : x < 1 := by
  have least : m.exponent = leastExponent := by
    refine canonical.normal.resolve_left fun normal => ?_
    rw [zero] at normal
    contradiction
  have upper := reads.upper
  rw [least] at upper
  have high : (m.quarters.2.2 : ℚ) = 2 := by simp [quarters, zero]
  rw [high] at upper
  refine upper.trans_lt ?_
  rw [← zpow_one_add₀ two_ne_zero]
  exact zpow_lt_one_of_neg₀ one_lt_two (by decide)

theorem tenPow_pos (k : Nat) : 0 < (tenPow k).mantissa := by
  have some : 0 < Nat.pow 10 k := Nat.pow_pos (by decide)
  refine Nat.pos_of_ne_zero fun zero => ?_
  have small := (ofRatio_reads Nat.one_pos some).lt_one (ofRatio_isCanonical Nat.one_pos) zero
  rw [Nat.cast_one, div_one, Nat.cast_lt_one] at small
  exact some.ne' small

theorem mul_isCanonical (a b : Magnitude) : (a.mul b).IsCanonical :=
  ofRatio_isCanonical (fraction_pos (a.mantissa * b.mantissa) _)

/-- A product is rounded once. -/
theorem mul_reads {a b : Magnitude} (some : 0 < a.mantissa) (positive : 0 < b.mantissa) :
    (a.mul b).Reads (a.value * b.value) := by
  have parts := fraction_value (a.mantissa * b.mantissa) (a.exponent + b.exponent)
  have exact : a.value * b.value =
      (a.mantissa * b.mantissa : Nat) * 2 ^ (a.exponent + b.exponent) := by
    rw [value, value, zpow_add₀ two_ne_zero, Nat.cast_mul]
    ring
  rw [exact, ← parts]
  exact ofRatio_reads (fraction_pos (a.mantissa * b.mantissa) _)
    (fraction_numerator_pos (Nat.mul_pos some positive) _)

theorem div_isCanonical (a : Magnitude) {b : Magnitude} (positive : 0 < b.mantissa) :
    (a.div b).IsCanonical :=
  ofRatio_isCanonical (Nat.mul_pos (fraction_pos a.mantissa _) positive)

/-- A quotient is rounded once. -/
theorem div_reads {a b : Magnitude} (some : 0 < a.mantissa) (positive : 0 < b.mantissa) :
    (a.div b).Reads (a.value / b.value) := by
  have parts := fraction_value a.mantissa (a.exponent - b.exponent)
  have exact : a.value / b.value =
      ((fraction a.mantissa (a.exponent - b.exponent)).1 : ℚ) /
        ((fraction a.mantissa (a.exponent - b.exponent)).2 * b.mantissa : Nat) := by
    rw [Nat.cast_mul, ← div_div, parts, value, value, zpow_sub₀ two_ne_zero]
    field_simp
  rw [exact]
  exact ofRatio_reads (Nat.mul_pos (fraction_pos a.mantissa _) positive)
    (fraction_numerator_pos some _)

theorem divTens_isCanonical {m : Magnitude} (canonical : m.IsCanonical) (chunks rest : Nat) :
    (m.divTens chunks rest).IsCanonical := by
  induction chunks generalizing m with
  | zero => exact div_isCanonical m (tenPow_pos rest)
  | succ chunks ih =>
    rw [divTens]
    split
    · exact canonical
    · exact ih (div_isCanonical m (tenPow_pos _))

theorem ofRatio_zero (denominator : Nat) : ofRatio 0 denominator = zero := if_pos rfl

theorem isCanonical_zero : zero.IsCanonical := by
  rw [← ofRatio_zero 1]
  exact ofRatio_isCanonical Nat.one_pos

theorem mul_of_zero {a : Magnitude} (none : a.mantissa = 0) (b : Magnitude) : a.mul b = zero := by
  simp only [mul, fraction, none, Nat.zero_mul, ofRatio_zero]

theorem div_of_zero {a : Magnitude} (none : a.mantissa = 0) (b : Magnitude) : a.div b = zero := by
  simp only [div, fraction, none, Nat.zero_mul, ofRatio_zero]

theorem divTens_of_zero {m : Magnitude} (none : m.mantissa = 0) (chunks rest : Nat) :
    (m.divTens chunks rest).mantissa = 0 := by
  cases chunks with
  | zero => rw [divTens, div_of_zero none, zero]
  | succ chunks =>
    have isZero : m.isZero = true := beq_iff_eq.mpr none
    rw [divTens, if_pos isZero, none]

/-- A zero stays one. -/
theorem ofScientific_zero {exponent : Int} {m : Magnitude}
    (made : ofScientific 0 exponent = some m) : m.mantissa = 0 := by
  have none : (ofNat 0).mantissa = 0 := by rw [ofNat, ofRatio_zero, zero]
  unfold ofScientific at made
  dsimp only at made
  split at made
  · split at made
    · split at made
      · obtain rfl := Option.some_inj.mp made
        rw [mul_of_zero none, zero]
      · contradiction
    · split at made
      · obtain rfl := Option.some_inj.mp made
        exact none
      · contradiction
  · obtain rfl := Option.some_inj.mp made
    exact divTens_of_zero none _ _

/-- Only small numbers round to magnitudes without all their bits. -/
theorem Reads.normal {m : Magnitude} {x : ℚ} (reads : m.Reads x) (canonical : m.IsCanonical)
    (large : (10 : ℚ) ^ (-(exactTenPow : Int)) ≤ x) : leastNormal ≤ m.mantissa := by
  refine canonical.normal.resolve_right fun least => absurd large (not_le.mpr ?_)
  have upper := reads.upper
  have high : (m.quarters.2.2 : ℚ) = 4 * m.mantissa + 2 := by simp [quarters]
  have bits : (m.mantissa : ℚ) < 2 ^ 53 := by exact_mod_cast canonical.mantissa_lt
  calc x ≤ (4 * m.mantissa + 2) * 2 ^ (leastExponent - 2) := by rwa [high, least] at upper
    _ ≤ 2 ^ (56 : Int) * 2 ^ (leastExponent - 2) := by
        gcongr
        norm_num
        linarith
    _ = 2 ^ (56 + (leastExponent - 2)) := (zpow_add₀ two_ne_zero _ _).symm
    _ < 2 ^ (-88 : Int) := zpow_lt_zpow_right₀ one_lt_two (by decide)
    _ ≤ 10 ^ (-(exactTenPow : Int)) := by norm_num [exactTenPow]

section

variable {significand : Nat} {exponent : Int} {m : Magnitude}
  (made : ofScientific significand exponent = some m)

include made

theorem ofScientific_isCanonical : m.IsCanonical := by
  have whole : (ofNat significand).IsCanonical := ofRatio_isCanonical Nat.one_pos
  unfold ofScientific at made
  dsimp only at made
  split at made
  · split at made
    · split at made
      · obtain rfl := Option.some_inj.mp made
        exact mul_isCanonical _ _
      · contradiction
    · split at made
      · obtain rfl := Option.some_inj.mp made
        exact whole
      · contradiction
  · obtain rfl := Option.some_inj.mp made
    exact divTens_isCanonical whole _ _

/-- A number of at most 53 bits times or by a small power of ten is rounded once. -/
theorem ofScientific_reads (some : 0 < significand) (bits : significand < 2 * leastNormal)
    (small : exponent.natAbs ≤ exactTenPow) : m.Reads (significand * 10 ^ exponent) := by
  have whole := ofNat_value bits
  have positive : 0 < (ofNat significand).mantissa := by
    rw [← value_pos_iff, whole]
    exact Nat.cast_pos.mpr some
  have within : exactTenPow ≤ greatestTenPow := by decide
  unfold ofScientific at made
  dsimp only at made
  split at made
  · next k =>
    rw [Int.ofNat_eq_natCast, Int.natAbs_natCast] at small
    rw [if_pos (small.trans within)] at made
    split at made
    · obtain rfl := Option.some_inj.mp made
      rw [Int.ofNat_eq_natCast, zpow_natCast, ← tenPow_value small, ← whole]
      exact mul_reads positive (tenPow_pos k)
    · contradiction
  · next k =>
    rw [Int.natAbs_negSucc] at small
    have once : k / greatestTenPow = 0 := Nat.div_eq_of_lt (small.trans within)
    rw [once, Nat.zero_mul, Nat.sub_zero, divTens] at made
    obtain rfl := Option.some_inj.mp made
    rw [zpow_negSucc, ← div_eq_mul_inv, ← tenPow_value small, ← whole]
    exact div_reads positive (tenPow_pos _)

end

end Magnitude

end DecoderForge
