/-
This file proves that fractions are rounded to the nearest magnitude: each lies between the ends of
the numbers that round to its magnitude.
-/

import DecoderForge.Number.Shortest
import Mathlib.Algebra.Order.Field.Power
import Mathlib.Algebra.Order.Field.Rat
import Mathlib.Tactic.FieldSimp
import Mathlib.Tactic.GCongr
import Mathlib.Tactic.Linarith
import Mathlib.Tactic.Positivity
import Mathlib.Tactic.Ring

namespace DecoderForge

namespace Magnitude

/-- The number that a magnitude is. -/
def value (m : Magnitude) : ℚ := m.mantissa * 2 ^ m.exponent

/-- A whole number next to a number. An odd one is nearer than any other. -/
structure IsNearest (n : Nat) (x : ℚ) : Prop where
  lower : n - 1 / 2 ≤ x
  upper : x ≤ n + 1 / 2
  odd : n % 2 ≠ 0 → n - 1 / 2 < x ∧ x < n + 1 / 2

/-- A magnitude with as many bits as there can be. -/
structure IsCanonical (m : Magnitude) : Prop where
  mantissa_lt : m.mantissa < 2 * leastNormal
  least : leastExponent ≤ m.exponent
  normal : leastNormal ≤ m.mantissa ∨ m.exponent = leastExponent

/-- A number that rounds to a magnitude: it lies between the ends, or on one of them if the mantissa
is even. -/
structure Reads (m : Magnitude) (x : ℚ) : Prop where
  lower : m.quarters.1 * 2 ^ (m.exponent - 2) ≤ x
  upper : x ≤ m.quarters.2.2 * 2 ^ (m.exponent - 2)
  odd : m.mantissa % 2 ≠ 0 →
    m.quarters.1 * 2 ^ (m.exponent - 2) < x ∧ x < m.quarters.2.2 * 2 ^ (m.exponent - 2)

theorem two_zpow_pos (e : Int) : (0 : ℚ) < 2 ^ e := zpow_pos (by norm_num) e

theorem roundHalfEven_isNearest {numerator denominator : Nat} (positive : 0 < denominator) :
    IsNearest (roundHalfEven numerator denominator) (numerator / denominator) := by
  have size : (0 : ℚ) < denominator := Nat.cast_pos.mpr positive
  have parts : (numerator : ℚ) / denominator =
      (numerator / denominator : Nat) + (numerator % denominator : Nat) / (denominator : ℚ) := by
    have whole := Nat.div_add_mod numerator denominator
    field_simp
    exact_mod_cast whole.symm
  have small := Nat.mod_lt numerator positive
  rw [parts]
  unfold roundHalfEven
  generalize numerator / denominator = quotient
  generalize numerator % denominator = remainder at small
  have least : 0 ≤ (remainder : ℚ) / denominator := by positivity
  have greatest : (remainder : ℚ) / denominator < 1 := by
    rw [div_lt_one size]
    exact_mod_cast small
  have successor : ((quotient + 1 : Nat) : ℚ) = quotient + 1 := Nat.cast_succ quotient
  dsimp only
  split
  · next less =>
    have half : (remainder : ℚ) / denominator < 1 / 2 := by
      rw [div_lt_div_iff₀ size two_pos]
      exact_mod_cast (by omega : remainder * 2 < 1 * denominator)
    exact ⟨by linarith, by linarith, fun _ => ⟨by linarith, by linarith⟩⟩
  split
  · next more =>
    have half : 1 / 2 < (remainder : ℚ) / denominator := by
      rw [div_lt_div_iff₀ two_pos size]
      exact_mod_cast (by omega : 1 * denominator < remainder * 2)
    exact ⟨by linarith, by linarith, fun _ => ⟨by linarith, by linarith⟩⟩
  · have half : (remainder : ℚ) / denominator = 1 / 2 := by
      rw [div_eq_div_iff size.ne' two_ne_zero]
      exact_mod_cast (by omega : remainder * 2 = 1 * denominator)
    rcases Nat.mod_two_eq_zero_or_one quotient with even | odd
    · rw [even, Nat.add_zero]
      exact ⟨by linarith, by linarith, fun other => absurd even other⟩
    · rw [odd]
      exact ⟨by linarith, by linarith, fun other => absurd (by omega) other⟩

/-- A numerator and a denominator in which a power of two is divided out. -/
theorem scaled_ratio (numerator denominator : Nat) (e : Int) :
    ((numerator * Nat.pow 2 (-e).toNat : Nat) : ℚ) / (denominator * Nat.pow 2 e.toNat : Nat) =
      numerator / denominator / 2 ^ e := by
  rw [Nat.pow_eq, Nat.pow_eq]
  push_cast
  cases e with
  | ofNat k =>
    simp only [Int.ofNat_eq_natCast, Int.toNat_natCast, Int.toNat_neg_natCast, pow_zero, mul_one,
      zpow_natCast, div_div]
  | negSucc k =>
    simp only [Int.neg_negSucc, Int.toNat_natCast, Int.toNat_negSucc, pow_zero, mul_one,
      zpow_negSucc, div_inv_eq_mul]
    ring

/-- The logarithms of a numerator and a denominator tell how great the fraction is. -/
theorem ratio_bounds {numerator denominator : Nat} (some : 0 < numerator)
    (positive : 0 < denominator) :
    let guess : Int := (numerator.log2 : Int) - denominator.log2 - 52
    (2 : ℚ) ^ (51 : Int) < numerator / denominator / 2 ^ guess ∧
      (numerator : ℚ) / denominator / 2 ^ guess < 2 ^ (53 : Int) := by
  intro guess
  have size : (0 : ℚ) < denominator := Nat.cast_pos.mpr positive
  have two : (2 : ℚ) ≠ 0 := two_ne_zero
  have unit := two_zpow_pos guess
  have least : (2 : ℚ) ^ (numerator.log2 : Int) ≤ numerator := by
    exact_mod_cast Nat.log2_self_le some.ne'
  have greatest : (numerator : ℚ) < 2 ^ ((numerator.log2 : Int) + 1) := by
    exact_mod_cast Nat.lt_log2_self
  have least' : (2 : ℚ) ^ (denominator.log2 : Int) ≤ denominator := by
    exact_mod_cast Nat.log2_self_le positive.ne'
  have greatest' : (denominator : ℚ) < 2 ^ ((denominator.log2 : Int) + 1) := by
    exact_mod_cast Nat.lt_log2_self
  rw [div_div, lt_div_iff₀ (mul_pos size unit), div_lt_iff₀ (mul_pos size unit)]
  constructor
  · calc (2 : ℚ) ^ (51 : Int) * (denominator * 2 ^ guess)
        < 2 ^ (51 : Int) * (2 ^ ((denominator.log2 : Int) + 1) * 2 ^ guess) := by gcongr
      _ = 2 ^ (numerator.log2 : Int) := by
          rw [← zpow_add₀ two, ← zpow_add₀ two]
          congr 1
          omega
      _ ≤ numerator := least
  · calc (numerator : ℚ) < 2 ^ ((numerator.log2 : Int) + 1) := greatest
      _ = 2 ^ (53 : Int) * (2 ^ (denominator.log2 : Int) * 2 ^ guess) := by
          rw [← zpow_add₀ two, ← zpow_add₀ two]
          congr 1
          omega
      _ ≤ 2 ^ (53 : Int) * (denominator * 2 ^ guess) := by gcongr

theorem div_lt_iff_ratio {a b c : Nat} (positive : 0 < b) : a / b < c ↔ (a : ℚ) / b < c := by
  have size : (0 : ℚ) < b := Nat.cast_pos.mpr positive
  rw [Nat.div_lt_iff_lt_mul positive, div_lt_iff₀ size]
  exact_mod_cast Iff.rfl

/-- From a guess that is right or one too great comes the exponent with 53 bits before the point, or
the least exponent. -/
theorem scale_of_guess {x : ℚ} {guess e : Int} (above : 2 ^ (51 : Int) < x / 2 ^ guess)
    (below : x / 2 ^ guess < 2 ^ (53 : Int))
    (chosen : e = max (if x / 2 ^ guess < leastNormal then guess - 1 else guess) leastExponent) :
    x / 2 ^ e < 2 * leastNormal ∧ (leastNormal ≤ x / 2 ^ e ∨ e = leastExponent) := by
  have normal : (leastNormal : ℚ) = 2 ^ (52 : Int) := by norm_num [leastNormal]
  have positive : 0 < x := by
    have here := (two_zpow_pos 51).trans above
    exact (div_pos_iff_of_pos_right (two_zpow_pos guess)).mp here
  have first : ∀ e, e = (if x / 2 ^ guess < leastNormal then guess - 1 else guess) →
      leastNormal ≤ x / 2 ^ e ∧ x / 2 ^ e < 2 * leastNormal := by
    rintro e rfl
    rw [normal] at *
    split
    · next less =>
      have twice : x / 2 ^ (guess - 1) = 2 * (x / 2 ^ guess) := by
        rw [zpow_sub_one₀ two_ne_zero]
        field_simp
      rw [twice]
      norm_num at above less ⊢
      exact ⟨by linarith, by linarith⟩
    · next more =>
      norm_num at below more ⊢
      exact ⟨by linarith, by linarith⟩
  generalize (if x / 2 ^ guess < leastNormal then guess - 1 else guess) = exponent at first chosen
  obtain ⟨low, high⟩ := first exponent rfl
  rcases le_total leastExponent exponent with least | less
  · rw [max_eq_left least] at chosen
    rw [chosen]
    exact ⟨high, .inl low⟩
  · rw [max_eq_right less] at chosen
    refine ⟨lt_of_le_of_lt ?_ high, .inr chosen⟩
    rw [chosen]
    have unit := two_zpow_pos exponent
    gcongr
    norm_num

/-- A fraction is scaled so that 53 bits stand before the point, or fewer at the least exponent, and
rounded to a whole number. -/
theorem exists_scale {numerator denominator : Nat} (some : 0 < numerator)
    (positive : 0 < denominator) :
    ∃ (e : Int) (n : Nat), leastExponent ≤ e ∧
      IsNearest n ((numerator : ℚ) / denominator / 2 ^ e) ∧
      (numerator : ℚ) / denominator / 2 ^ e < 2 * leastNormal ∧
      (leastNormal ≤ (numerator : ℚ) / denominator / 2 ^ e ∨ e = leastExponent) ∧
      ofRatio numerator denominator =
        if n = 2 * leastNormal then ⟨leastNormal, e + 1⟩ else ⟨n, e⟩ := by
  have whole (e : Int) : 0 < denominator * Nat.pow 2 e.toNat := by
    rw [Nat.pow_eq]
    positivity
  have nearest (e : Int) : IsNearest (roundHalfEven (numerator * Nat.pow 2 (-e).toNat)
      (denominator * Nat.pow 2 e.toNat)) (numerator / denominator / 2 ^ e) := by
    rw [← scaled_ratio]
    exact roundHalfEven_isNearest (whole e)
  obtain ⟨above, below⟩ := ratio_bounds some positive
  obtain ⟨high, low⟩ := scale_of_guess above below rfl
  rw [ofRatio, if_neg some.ne']
  simp only [div_lt_iff_ratio (whole _), scaled_ratio]
  exact ⟨_, _, le_max_right _ _, nearest _, high, low, rfl⟩

/-- A number rounds to a magnitude if it does in places of the magnitude. -/
theorem reads_iff {m : Magnitude} {x : ℚ} :
    Reads m x ↔ m.quarters.1 ≤ 4 * (x / 2 ^ m.exponent) ∧
      4 * (x / 2 ^ m.exponent) ≤ m.quarters.2.2 ∧
      (m.mantissa % 2 ≠ 0 → m.quarters.1 < 4 * (x / 2 ^ m.exponent) ∧
        4 * (x / 2 ^ m.exponent) < m.quarters.2.2) := by
  have unit : (0 : ℚ) < 2 ^ (m.exponent - 2) := two_zpow_pos _
  have places : 4 * (x / 2 ^ m.exponent) = x / 2 ^ (m.exponent - 2) := by
    rw [zpow_sub₀ two_ne_zero]
    field_simp
    ring
  rw [places, le_div_iff₀ unit, div_le_iff₀ unit, lt_div_iff₀ unit, div_lt_iff₀ unit]
  exact ⟨fun ⟨lower, upper, odd⟩ => ⟨lower, upper, odd⟩,
    fun ⟨lower, upper, odd⟩ => ⟨lower, upper, odd⟩⟩

/-- The lower end is at most half a place below a magnitude, and closer below a power of two. -/
theorem quarters_le {m : Magnitude} {y : ℚ} (some : 0 ≤ y)
    (below : m.mantissa - 1 / 2 ≤ y)
    (power : m.mantissa = leastNormal ∧ leastExponent < m.exponent → m.mantissa - 1 / 4 ≤ y) :
    m.quarters.1 ≤ 4 * y := by
  have cut {b : Nat} (less : (4 * m.mantissa : ℚ) - b ≤ 4 * y) :
      ((4 * m.mantissa - b : Nat) : ℚ) ≤ 4 * y := by
    rcases le_total b (4 * m.mantissa) with within | beyond
    · rw [Nat.cast_sub within]
      push_cast
      exact less
    · rw [Nat.sub_eq_zero_of_le beyond, Nat.cast_zero]
      positivity
  unfold quarters
  dsimp only
  split
  · next power' =>
    have here := power power'
    exact cut (by push_cast; linarith)
  · exact cut (by push_cast; linarith)

/-- An odd mantissa is no power of two. -/
theorem quarters_odd {m : Magnitude} (odd : m.mantissa % 2 ≠ 0) :
    (m.quarters.1 : ℚ) = 4 * m.mantissa - 2 := by
  have other : ¬ (m.mantissa = leastNormal ∧ leastExponent < m.exponent) := by
    rintro ⟨same, _⟩
    rw [same] at odd
    contradiction
  unfold quarters
  dsimp only
  rw [if_neg other, Nat.cast_sub (by omega)]
  push_cast
  rfl

theorem reads_of_isNearest {n : Nat} {e : Int} {x : ℚ} (positive : 0 < x)
    (nearest : IsNearest n (x / 2 ^ e))
    (low : leastNormal ≤ x / 2 ^ e ∨ e = leastExponent) : Reads ⟨n, e⟩ x := by
  have some : 0 ≤ x / 2 ^ e := (div_pos positive (two_zpow_pos e)).le
  have upper : ((Magnitude.mk n e).quarters.2.2 : ℚ) = 4 * n + 2 := by
    simp [quarters]
  refine reads_iff.mpr ⟨quarters_le some nearest.lower ?_, ?_, ?_⟩
  · rintro ⟨power, above⟩
    obtain normal | least := low
    · have power : (n : ℚ) = leastNormal := congrArg _ power
      dsimp only
      linarith
    · exact absurd least above.ne'
  · rw [upper]
    linarith [nearest.upper]
  · intro odd
    obtain ⟨above, below⟩ := nearest.odd odd
    rw [upper, quarters_odd odd]
    dsimp only
    exact ⟨by linarith, by linarith⟩

/-- What is rounded up to a power of two lies below it by at most a quarter of its last place. -/
theorem reads_of_carry {e : Int} {x : ℚ} (positive : 0 < x)
    (nearest : IsNearest (2 * leastNormal) (x / 2 ^ e)) (below : x / 2 ^ e < 2 * leastNormal) :
    Reads ⟨leastNormal, e + 1⟩ x := by
  have lower := nearest.lower
  have places : x / 2 ^ e = 2 * (x / 2 ^ (e + 1)) := by
    rw [zpow_add_one₀ two_ne_zero]
    field_simp
  rw [places] at lower below
  push_cast at lower
  refine reads_iff.mpr ⟨quarters_le (div_pos positive (two_zpow_pos _)).le ?_ ?_, ?_, ?_⟩
  · dsimp only
    linarith
  · intro _
    dsimp only
    linarith
  · have upper : ((Magnitude.mk leastNormal (e + 1)).quarters.2.2 : ℚ) = 4 * leastNormal + 2 := by
      simp [quarters]
    rw [upper]
    linarith
  · intro odd
    exact absurd (rfl : leastNormal % 2 = 0) odd

section

variable {numerator denominator : Nat} (positive : 0 < denominator)

include positive

theorem ofRatio_isCanonical : (ofRatio numerator denominator).IsCanonical := by
  rcases Nat.eq_zero_or_pos numerator with rfl | some
  · exact ⟨Nat.mul_pos two_pos (by decide), le_refl _, .inr rfl⟩
  obtain ⟨e, n, least, nearest, below, low, same⟩ := exists_scale some positive
  rw [same]
  split
  · have carried : leastNormal < 2 * leastNormal := by decide
    exact ⟨carried, least.trans (Int.le_add_of_nonneg_right Int.one_nonneg), .inl le_rfl⟩
  · next less =>
    have size : n ≤ 2 * leastNormal := by
      have above : (n : ℚ) < (2 * leastNormal : Nat) + 1 := by
        push_cast
        linarith [nearest.lower]
      exact Nat.lt_succ_iff.mp (by exact_mod_cast above)
    refine ⟨lt_of_le_of_ne size less, least, low.imp_left fun normal => ?_⟩
    have above : (leastNormal : ℚ) < n + 1 := by linarith [nearest.upper]
    exact Nat.lt_succ_iff.mp (by exact_mod_cast above)

/-- A fraction rounds to its magnitude. -/
theorem ofRatio_reads (some : 0 < numerator) :
    Reads (ofRatio numerator denominator) (numerator / denominator) := by
  have above : (0 : ℚ) < numerator / denominator :=
    div_pos (Nat.cast_pos.mpr some) (Nat.cast_pos.mpr positive)
  obtain ⟨e, n, _, nearest, below, low, same⟩ := exists_scale some positive
  rw [same]
  split
  · next carry =>
    rw [carry] at nearest
    exact reads_of_carry above nearest below
  · exact reads_of_isNearest above nearest low

/-- A fraction with at most 53 bits is not rounded. -/
theorem ofRatio_value {mantissa : Nat} {exponent : Int} (bits : mantissa < 2 * leastNormal)
    (least : leastExponent ≤ exponent)
    (same : (numerator : ℚ) / denominator = mantissa * 2 ^ exponent) :
    (ofRatio numerator denominator).value = numerator / denominator := by
  rcases Nat.eq_zero_or_pos numerator with rfl | some
  · simp [ofRatio, value, zero]
  obtain ⟨e, n, _, nearest, below, low, result⟩ := exists_scale some positive
  have within : e ≤ exponent := by
    rcases low with normal | rfl
    · by_contra beyond
      have halved : (2 : ℚ) ^ exponent / 2 ^ e ≤ 1 / 2 := by
        rw [← zpow_sub₀ two_ne_zero, one_div, ← zpow_neg_one]
        exact zpow_le_zpow_right₀ one_le_two (by omega)
      have bits : (mantissa : ℚ) < 2 * leastNormal := by exact_mod_cast bits
      rw [same, mul_div_assoc] at normal
      have least : (mantissa : ℚ) * (2 ^ exponent / 2 ^ e) ≤ mantissa * (1 / 2) := by gcongr
      linarith
    · exact least
  have whole : (numerator : ℚ) / denominator / 2 ^ e =
      (mantissa * 2 ^ (exponent - e).toNat : Nat) := by
    push_cast
    rw [same, mul_div_assoc, ← zpow_sub₀ two_ne_zero, ← zpow_natCast,
      Int.toNat_of_nonneg (by omega)]
  rw [whole] at nearest below
  have exact : n = mantissa * 2 ^ (exponent - e).toNat := by
    have above : (n : ℚ) < (mantissa * 2 ^ (exponent - e).toNat : Nat) + 1 := by
      linarith [nearest.lower]
    have under : ((mantissa * 2 ^ (exponent - e).toNat : Nat) : ℚ) < n + 1 := by
      linarith [nearest.upper]
    have above := Nat.lt_succ_iff.mp (by exact_mod_cast above)
    exact le_antisymm above (Nat.lt_succ_iff.mp (by exact_mod_cast under))
  rw [← exact] at whole below
  rw [result, if_neg (by exact_mod_cast below.ne), value, ← whole,
    div_mul_cancel₀ _ (two_zpow_pos e).ne']

end

end Magnitude

end DecoderForge
