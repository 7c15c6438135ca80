/-
This file proves how many digits magnitudes have: at most seventeen, and a number with at most
fifteen digits is written with the digits that it has.
-/

import DecoderForge.Proofs.Number.Shortest
import Mathlib.Data.Rat.Floor

namespace DecoderForge

namespace Magnitude

theorem exists_multiple {x grid : ℚ} (positive : 0 ≤ x) (step : 0 < grid) :
    ∃ n : Nat, n * grid ≤ x + grid / 2 ∧ x - grid / 2 ≤ n * grid := by
  have some : 0 ≤ x / grid + 1 / 2 := by positivity
  refine ⟨⌊x / grid + 1 / 2⌋₊, ?_, ?_⟩
  · calc ⌊x / grid + 1 / 2⌋₊ * grid ≤ (x / grid + 1 / 2) * grid := by
          gcongr
          exact Nat.floor_le some
      _ = x + grid / 2 := by field_simp
  · have above := Nat.lt_floor_add_one (x / grid + 1 / 2)
    calc x - grid / 2 = (x / grid - 1 / 2) * grid := by field_simp
      _ ≤ ⌊x / grid + 1 / 2⌋₊ * grid := by
          gcongr
          linarith

/-- Of the multiples of a power of ten with seventeen digits one rounds to the magnitude. -/
theorem exists_reads_seventeen {m : Magnitude} (canonical : m.IsCanonical)
    (some : m.mantissa ≠ 0) : ∃ n : Nat, m.Reads (n * 10 ^ (m.decimalPoint - 17)) := by
  have ten : (10 : ℚ) ≠ 0 := by norm_num
  have unit := two_zpow_pos m.exponent
  have bits : (m.mantissa : ℚ) < 2 ^ 53 := by exact_mod_cast canonical.mantissa_lt
  have step : 0 < 10 ^ (m.decimalPoint - 17) / (2 : ℚ) ^ m.exponent :=
    div_pos (ten_zpow_pos _) unit
  -- A step of the grid is less than one place, and less than half a place at a power of two.
  have fine : 10 ^ (m.decimalPoint - 17) / 2 ^ m.exponent * 10 ^ 16 ≤ (m.mantissa : ℚ) := by
    obtain ⟨low, -⟩ := decimalPoint_bounds some canonical.least
    have whole : (10 : ℚ) ^ (m.decimalPoint - 1) = 10 ^ (m.decimalPoint - 17) * 10 ^ 16 := by
      rw [← zpow_natCast, ← zpow_add₀ ten]
      congr 1
      omega
    rwa [whole, value, ← div_le_iff₀ unit, mul_div_right_comm] at low
  simp only [reads_iff, mul_div_assoc]
  generalize 10 ^ (m.decimalPoint - 17) / (2 : ℚ) ^ m.exponent = grid at step fine
  obtain ⟨n, upper, lower⟩ := exists_multiple (Nat.cast_nonneg m.mantissa) step
  have high : (m.quarters.2.2 : ℚ) = 4 * m.mantissa + 2 := by simp [quarters]
  refine ⟨n, quarters_le (by positivity) (by linarith) ?_, ?_, ?_⟩
  · rintro ⟨power, -⟩
    have power : (m.mantissa : ℚ) = 2 ^ 52 := by
      rw [power]
      norm_num [leastNormal]
    linarith
  · rw [high]
    linarith
  · intro odd
    rw [high, quarters_odd odd]
    exact ⟨by linarith, by linarith⟩

theorem exists_hasDigits_seventeen {m : Magnitude} (canonical : m.IsCanonical)
    (some : m.mantissa ≠ 0) : ∃ digits n, digits ≤ 17 ∧ m.HasDigits digits n := by
  obtain ⟨k, reads⟩ := exists_reads_seventeen canonical some
  exact exists_hasDigits some (by decide) le_rfl
    (exists_neighbour? (reads_value canonical some) reads)

/-- Seventeen digits are enough for any magnitude. -/
theorem decimal_seventeen {m : Magnitude} (canonical : m.IsCanonical) :
    ∃ (n : Nat) (power : Int), n < 10 ^ 17 ∧ m.decimal = n * 10 ^ power := by
  by_cases zero : m.mantissa = 0
  · exact ⟨0, 0, by decide, by rw [decimal_zero zero, Nat.cast_zero, zero_mul]⟩
  have ten : (10 : ℚ) ≠ 0 := by norm_num
  obtain ⟨digits, n, few, -, -, chosen, decimal⟩ := exists_hasDigits_seventeen canonical zero
  have whole : (10 : ℚ) ^ m.decimalPoint = 10 ^ digits * 10 ^ (m.decimalPoint - digits) := by
    rw [← zpow_natCast, ← zpow_add₀ ten, add_sub_cancel]
  have small : n ≤ 10 ^ digits := by
    obtain ⟨-, above⟩ := neighbour?_reads chosen
    obtain ⟨-, high⟩ := decimalPoint_bounds zero canonical.least
    have less : (n : ℚ) * 10 ^ (m.decimalPoint - digits) <
        (10 ^ digits + 1) * 10 ^ (m.decimalPoint - digits) := by
      rw [add_mul, one_mul, ← whole]
      linarith
    have less := lt_of_mul_lt_mul_right less (ten_zpow_pos _).le
    exact Nat.lt_succ_iff.mp (by exact_mod_cast less)
  rcases Nat.lt_or_eq_of_le small with less | same
  · exact ⟨n, _, less.trans_le (Nat.pow_le_pow_right (by decide) few), decimal⟩
  · refine ⟨1, m.decimalPoint, by decide, ?_⟩
    rw [decimal, same, Nat.cast_one, one_mul, whole, Nat.cast_pow, Nat.cast_ofNat]

/-- A number rounds to a magnitude with the fewest digits there can be, counted from the first digit
of the magnitude, and it is the closest with as many digits. -/
def IsShortest (m : Magnitude) (x : ℚ) : Prop :=
  ∃ digits n : Nat, 1 ≤ digits ∧ x = n * 10 ^ (m.decimalPoint - digits) ∧
    m.IsClosest (m.decimalPoint - digits) n ∧
    ∀ fewer : Nat, 1 ≤ fewer → fewer < digits →
      ∀ k : Nat, ¬ m.Reads (k * 10 ^ (m.decimalPoint - fewer))

theorem IsShortest.unique {m : Magnitude} {x y : ℚ} (first : m.IsShortest x)
    (second : m.IsShortest y) : x = y := by
  obtain ⟨digits, n, some, rfl, closest, least⟩ := first
  obtain ⟨count, k, positive, rfl, nearest, fewest⟩ := second
  rcases lt_trichotomy digits count with less | rfl | more
  · exact absurd closest.reads (fewest digits some less n)
  · rw [closest.unique nearest]
  · exact absurd nearest.reads (least count positive more k)

theorem isShortest_zero {m : Magnitude} (zero : m.mantissa = 0) : m.IsShortest 0 := by
  have low : m.quarters.1 = 0 := by
    unfold quarters
    dsimp only
    omega
  have value : m.value = 0 := by rw [value, zero, Nat.cast_zero, zero_mul]
  refine ⟨1, 0, le_rfl, by simp, ⟨?_, fun k other _ => .inl ?_⟩, fun _ _ _ => by omega⟩
  · refine reads_iff.mpr ⟨by simp [low], by simp, fun odd => ?_⟩
    rw [zero] at odd
    contradiction
  · have far : 0 < (k : ℚ) * 10 ^ (m.decimalPoint - (1 : Nat)) :=
      mul_pos (Nat.cast_pos.mpr (Nat.pos_of_ne_zero other)) (ten_zpow_pos _)
    rw [value, sub_zero, sub_zero, Nat.cast_zero, zero_mul, abs_zero]
    exact abs_pos.mpr far.ne'

/-- A magnitude is written as the shortest number that rounds to it, and as no other one. -/
theorem isShortest_iff {m : Magnitude} (canonical : m.IsCanonical) {x : ℚ} :
    m.IsShortest x ↔ x = m.decimal := by
  have shortest : m.IsShortest m.decimal := by
    by_cases zero : m.mantissa = 0
    · rw [decimal_zero zero]
      exact isShortest_zero zero
    have itself := reads_value canonical zero
    obtain ⟨digits, n, -, positive, first, chosen, decimal⟩ :=
      exists_hasDigits_seventeen canonical zero
    refine ⟨digits, n, positive, decimal, neighbour?_isClosest itself chosen, ?_⟩
    intro fewer some less k reads
    obtain ⟨i, found⟩ := exists_neighbour? itself reads
    rw [first fewer some less] at found
    contradiction
  exact ⟨fun other => other.unique shortest, fun same => same ▸ shortest⟩

theorem mantissa_ne_zero {m : Magnitude} (normal : leastNormal ≤ m.mantissa) : m.mantissa ≠ 0 := by
  intro zero
  rw [zero] at normal
  contradiction

section

variable {m : Magnitude} (canonical : m.IsCanonical) (normal : leastNormal ≤ m.mantissa)

include canonical normal

/-- Multiples of a power of ten with fifteen digits are further apart than the numbers that round to
a magnitude. -/
theorem Reads.unique {i j : Nat} (first : m.Reads (i * 10 ^ (m.decimalPoint - 15)))
    (second : m.Reads (j * 10 ^ (m.decimalPoint - 15))) : i = j := by
  obtain ⟨-, high⟩ := decimalPoint_bounds (mantissa_ne_zero normal) canonical.least
  have whole : (10 : ℚ) ^ m.decimalPoint = 10 ^ (m.decimalPoint - 15) * 10 ^ 15 := by
    rw [← zpow_natCast, ← zpow_add₀ (by norm_num)]
    congr 1
    omega
  rw [whole] at high
  have below {i j : Nat} (first : m.Reads (i * 10 ^ (m.decimalPoint - 15)))
      (second : m.Reads (j * 10 ^ (m.decimalPoint - 15))) : i ≤ j := by
    have less : (i : ℚ) * 10 ^ (m.decimalPoint - 15) < (j + 1) * 10 ^ (m.decimalPoint - 15) := by
      linarith [(first.near normal).2, (second.near normal).1, ten_zpow_pos (m.decimalPoint - 15)]
    have less := lt_of_mul_lt_mul_right less (ten_zpow_pos _).le
    exact Nat.lt_succ_iff.mp (by exact_mod_cast less)
  exact Nat.le_antisymm (below first second) (below second first)

/-- A number with at most fifteen digits that rounds to a magnitude is such a multiple. -/
theorem Reads.exists_multiple {n : Nat} {power : Int} (few : n < 10 ^ 15)
    (reads : m.Reads (n * 10 ^ power)) :
    ∃ j : Nat, (n * 10 ^ power : ℚ) = j * 10 ^ (m.decimalPoint - 15) := by
  have ten : (10 : ℚ) ≠ 0 := by norm_num
  have some := mantissa_ne_zero normal
  have within : m.decimalPoint - 15 ≤ power := by
    by_contra less
    obtain ⟨low, -⟩ := decimalPoint_bounds some canonical.least
    have unit := ten_zpow_pos power
    have few : (n : ℚ) ≤ 10 ^ 15 - 1 := by
      have few : n + 1 ≤ 10 ^ 15 := few
      have few : (n : ℚ) + 1 ≤ 10 ^ 15 := by exact_mod_cast few
      linarith
    have below : (10 : ℚ) ^ power * 10 ^ 15 ≤ m.value := by
      rw [← zpow_natCast, ← zpow_add₀ ten]
      exact (zpow_le_zpow_right₀ (by norm_num) (by omega)).trans low
    have cut : (n : ℚ) * 10 ^ power ≤ (10 ^ 15 - 1) * 10 ^ power := by gcongr
    linarith [(reads.near normal).1, value_pos some]
  refine ⟨n * 10 ^ (power - (m.decimalPoint - 15)).toNat, ?_⟩
  rw [Nat.cast_mul, Nat.cast_pow, Nat.cast_ofNat, mul_assoc, ← zpow_natCast, ← zpow_add₀ ten,
    Int.toNat_of_nonneg (by omega), sub_add_cancel]

/-- A number with at most fifteen digits is the decimal of the magnitude to which it rounds. -/
theorem decimal_fifteen {n : Nat} {power : Int} (few : n < 10 ^ 15)
    (reads : m.Reads (n * 10 ^ power)) : m.decimal = n * 10 ^ power := by
  have ten : (10 : ℚ) ≠ 0 := by norm_num
  have some := mantissa_ne_zero normal
  obtain ⟨j, same⟩ := reads.exists_multiple canonical normal few
  rw [same] at reads ⊢
  obtain ⟨digits, i, within, -, -, chosen, decimal⟩ := exists_hasDigits some (by decide)
    (by decide : 15 ≤ 17) (exists_neighbour? (reads_value canonical some) reads)
  rw [decimal]
  -- Fewer digits are fifteen digits with zeros at the end.
  have finer : (i : ℚ) * 10 ^ (m.decimalPoint - digits) =
      (i * 10 ^ (15 - digits) : Nat) * 10 ^ (m.decimalPoint - 15) := by
    rw [Nat.cast_mul, Nat.cast_pow, Nat.cast_ofNat, mul_assoc, ← zpow_natCast, ← zpow_add₀ ten]
    congr 2
    omega
  have other := (neighbour?_reads chosen).1
  rw [finer] at other ⊢
  rw [other.unique canonical normal reads]

end

end Magnitude

end DecoderForge
