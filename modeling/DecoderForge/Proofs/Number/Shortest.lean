/-
This file proves how the decimal digits of a magnitude are found: among the multiples of a power of
ten the closest one that rounds to the magnitude is chosen, for the greatest power that has one.
-/

import DecoderForge.Proofs.Number.Scientific

namespace DecoderForge

namespace Magnitude

theorem ten_zpow_pos (e : Int) : (0 : ℚ) < 10 ^ e := zpow_pos (by norm_num) e

theorem value_div (m : Magnitude) : m.value / 2 ^ m.exponent = m.mantissa := by
  rw [value, mul_div_assoc, div_self (two_zpow_pos _).ne', mul_one]

theorem value_pos {m : Magnitude} (some : m.mantissa ≠ 0) : 0 < m.value :=
  mul_pos (Nat.cast_pos.mpr (Nat.pos_of_ne_zero some)) (two_zpow_pos _)

theorem reads_value {m : Magnitude} (canonical : m.IsCanonical) (some : m.mantissa ≠ 0) :
    m.Reads m.value := by
  have nearest : IsNearest m.mantissa (m.value / 2 ^ m.exponent) := by
    rw [value_div]
    exact ⟨by linarith, by linarith, fun _ => ⟨by linarith, by linarith⟩⟩
  refine reads_of_isNearest (value_pos some) nearest ?_
  rw [value_div]
  exact canonical.normal.imp_left fun normal => Nat.cast_le.mpr normal

/-- The numbers that round to a magnitude lie together. -/
theorem Reads.between {m : Magnitude} {x y z : ℚ} (low : m.Reads x) (high : m.Reads z)
    (above : x ≤ y) (below : y ≤ z) : m.Reads y where
  lower := low.lower.trans above
  upper := below.trans high.upper
  odd := fun odd => ⟨(low.odd odd).1.trans_le above, below.trans_lt (high.odd odd).2⟩

/-- What rounds to a magnitude with all its bits lies next to it. -/
theorem Reads.near {m : Magnitude} {x : ℚ} (reads : m.Reads x)
    (normal : leastNormal ≤ m.mantissa) :
    m.value * (1 - 1 / 2 ^ 53) ≤ x ∧ x ≤ m.value * (1 + 1 / 2 ^ 53) := by
  obtain ⟨lower, upper, _⟩ := reads_iff.mp reads
  have unit := two_zpow_pos m.exponent
  have size : (2 ^ 52 : ℚ) ≤ m.mantissa := by exact_mod_cast normal
  have low : (4 * m.mantissa - 2 : ℚ) ≤ m.quarters.1 := by
    have cut : 4 * m.mantissa - 2 ≤ m.quarters.1 := by
      unfold quarters
      dsimp only
      split <;> omega
    have cut : 4 * m.mantissa ≤ m.quarters.1 + 2 := by omega
    have cut : (4 * m.mantissa : ℚ) ≤ m.quarters.1 + 2 := by exact_mod_cast cut
    linarith
  have high : (m.quarters.2.2 : ℚ) = 4 * m.mantissa + 2 := by simp [quarters]
  rw [value, mul_right_comm, mul_right_comm _ (2 ^ m.exponent), ← le_div_iff₀ unit,
    ← div_le_iff₀ unit]
  constructor <;> linarith

/-- A power with a whole exponent is a quotient of powers with natural ones. -/
theorem pow_toNat {base : ℚ} (some : base ≠ 0) (e : Int) :
    base ^ e.toNat = base ^ e * base ^ (-e).toNat := by
  rw [← zpow_natCast, ← zpow_natCast, ← zpow_add₀ some]
  congr 1
  omega

theorem length_toDigits_bounds {n : Nat} (some : n ≠ 0) :
    10 ^ ((Nat.toDigits 10 n).length - 1) ≤ n ∧ n < 10 ^ (Nat.toDigits 10 n).length := by
  have ten : 1 < 10 := by decide
  refine ⟨?_, (Nat.length_toDigits_le_iff ten Nat.length_toDigits_pos).mp le_rfl⟩
  rcases Nat.eq_zero_or_pos ((Nat.toDigits 10 n).length - 1) with one | more
  · rw [one, pow_zero]
    exact Nat.pos_of_ne_zero some
  · refine Nat.le_of_not_lt fun less => ?_
    have shorter := (Nat.length_toDigits_le_iff ten more).mpr less
    omega

/-- The digits of a fraction begin where those of its whole part do when its point is moved. -/
theorem point_bounds {x : ℚ} {moved denominator places : Nat} (positive : 0 < denominator)
    (scaled : x * 10 ^ places = moved / denominator) (large : 1 ≤ x * 10 ^ places)
    {point shift : Int} (same : places = shift)
    (digits : point = (Nat.toDigits 10 (moved / denominator)).length - shift) :
    10 ^ (point - 1) ≤ x ∧ x < 10 ^ point := by
  have ten : (10 : ℚ) ≠ 0 := by norm_num
  have size : (0 : ℚ) < denominator := Nat.cast_pos.mpr positive
  have unit : (0 : ℚ) < 10 ^ places := by positivity
  have some : moved / denominator ≠ 0 := by
    rw [scaled, one_le_div size, Nat.cast_le] at large
    exact (Nat.div_pos large positive).ne'
  obtain ⟨low, high⟩ := length_toDigits_bounds some
  have length := Nat.length_toDigits_pos (b := 10) (n := moved / denominator)
  rw [Nat.le_div_iff_mul_le positive] at low
  rw [Nat.div_lt_iff_lt_mul positive] at high
  have first : point - 1 + places =
      ((Nat.toDigits 10 (moved / denominator)).length - 1 : Nat) := by omega
  have last : point + places = (Nat.toDigits 10 (moved / denominator)).length := by omega
  rw [← mul_le_mul_iff_left₀ unit, ← mul_lt_mul_iff_left₀ unit, scaled, ← zpow_natCast,
    ← zpow_add₀ ten, ← zpow_add₀ ten, le_div_iff₀ size, div_lt_iff₀ size, first, last,
    zpow_natCast, zpow_natCast]
  exact_mod_cast And.intro low high

theorem value_moved (m : Magnitude) {unit places : Nat} (same : unit = Nat.pow 10 places) :
    m.value * 10 ^ places = ((fraction m.mantissa m.exponent).1 * unit : Nat) /
      (fraction m.mantissa m.exponent).2 := by
  rw [value, ← fraction_value, same, Nat.pow_eq, Nat.cast_mul, Nat.cast_pow, Nat.cast_ofNat]
  exact (mul_div_right_comm _ _ _).symm

/-- The digits of a magnitude begin at its decimal point. -/
theorem decimalPoint_bounds {m : Magnitude} (some : m.mantissa ≠ 0)
    (least : leastExponent ≤ m.exponent) :
    10 ^ (m.decimalPoint - 1) ≤ m.value ∧ m.value < 10 ^ m.decimalPoint := by
  -- The least magnitude has fewer than 400 zeros behind its point.
  have large : 1 ≤ m.value * 10 ^ 400 := by
    have size : (1 : ℚ) ≤ m.mantissa := Nat.one_le_cast.mpr (Nat.pos_of_ne_zero some)
    calc (1 : ℚ) ≤ 2 ^ leastExponent * 2 ^ (1200 : Int) := by
          rw [← zpow_add₀ two_ne_zero]
          exact one_le_zpow₀ one_le_two (by decide)
      _ ≤ 1 * 2 ^ m.exponent * 10 ^ 400 := by
          rw [one_mul, zpow_ofNat, show (1200 : Nat) = 3 * 400 from rfl, pow_mul]
          gcongr
          · exact one_le_two
          · norm_num
      _ ≤ m.value * 10 ^ 400 := by
          rw [value]
          gcongr
  obtain ⟨unit, power, point⟩ : ∃ unit, unit = Nat.pow 10 400 ∧ m.decimalPoint =
      (Nat.toDigits 10 ((fraction m.mantissa m.exponent).1 * unit /
        (fraction m.mantissa m.exponent).2)).length - 400 := ⟨_, rfl, rfl⟩
  exact point_bounds (fraction_pos m.mantissa m.exponent) (value_moved m power) large rfl point

section

variable {a b c d : Nat} {x y scale : ℚ} (positive : 0 < scale) (first : c = x * scale)
  (second : d = y * scale)

include positive first second

theorem mul_le_iff_of_scaled : a * c ≤ b * d ↔ a * x ≤ b * y := by
  rw [← Nat.cast_le (α := ℚ), Nat.cast_mul, Nat.cast_mul, first, second, ← mul_assoc,
    ← mul_assoc, mul_le_mul_iff_left₀ positive]

theorem mul_lt_iff_of_scaled : a * c < b * d ↔ a * x < b * y := by
  rw [← Nat.cast_lt (α := ℚ), Nat.cast_mul, Nat.cast_mul, first, second, ← mul_assoc,
    ← mul_assoc, mul_lt_mul_iff_left₀ positive]

end

/-- A power of ten and the quarter of a place become whole numbers by one factor. -/
theorem exists_grid (power exponent : Int) : ∃ scale : ℚ, 0 < scale ∧
    (Nat.pow 10 power.toNat * Nat.pow 2 (2 - exponent).toNat : Nat) = 10 ^ power * scale ∧
    (Nat.pow 2 (exponent - 2).toNat * Nat.pow 10 (-power).toNat : Nat) =
      2 ^ (exponent - 2) * scale := by
  have ten : (10 : ℚ) ≠ 0 := by norm_num
  refine ⟨10 ^ (-power).toNat * 2 ^ (2 - exponent).toNat, by positivity, ?_, ?_⟩
  · rw [Nat.pow_eq, Nat.pow_eq]
    push_cast
    rw [pow_toNat ten power, mul_assoc]
  · rw [Nat.pow_eq, Nat.pow_eq]
    push_cast
    rw [pow_toNat two_ne_zero (exponent - 2), neg_sub, mul_assoc,
      mul_comm (2 ^ (2 - exponent).toNat)]

theorem roundHalfEven_eq_or (numerator denominator : Nat) :
    roundHalfEven numerator denominator = numerator / denominator ∨
      roundHalfEven numerator denominator = numerator / denominator + 1 := by
  unfold roundHalfEven
  dsimp only
  split
  · exact .inl rfl
  split
  · exact .inr rfl
  · rcases Nat.mod_two_eq_zero_or_one (numerator / denominator) with even | odd
    · exact .inl (by rw [even, Nat.add_zero])
    · exact .inr (by rw [odd])

/-- Of two neighbours on a grid the other one is on the other side. -/
theorem other_neighbour {nearest floor : Nat} (either : nearest = floor ∨ nearest = floor + 1) :
    nearest = floor ∧ (if nearest = floor then floor + 1 else floor) = floor + 1 ∨
      nearest = floor + 1 ∧ (if nearest = floor then floor + 1 else floor) = floor := by
  rcases either with rfl | rfl
  · exact .inl ⟨rfl, if_pos rfl⟩
  · exact .inr ⟨rfl, if_neg (Nat.succ_ne_self _)⟩

section

variable {m : Magnitude} {power : Int} {grid unit : Nat} {scale : ℚ} (positive : 0 < scale)
  (gridScaled : (grid : ℚ) = 10 ^ power * scale)
  (unitScaled : (unit : ℚ) = 2 ^ (m.exponent - 2) * scale)

include positive gridScaled

theorem grid_pos : 0 < grid := by
  rw [← Nat.cast_pos (α := ℚ), gridScaled]
  exact mul_pos (ten_zpow_pos power) positive

include unitScaled

theorem cast_div_grid :
    ((4 * m.mantissa * unit : Nat) : ℚ) / grid = m.value / 10 ^ power := by
  have two : (2 : ℚ) ^ (2 : Int) = 4 := by norm_num
  rw [Nat.cast_mul, Nat.cast_mul, Nat.cast_ofNat, gridScaled, unitScaled, value,
    zpow_sub₀ two_ne_zero, two, ← mul_assoc, mul_div_mul_right _ _ positive.ne']
  congr 1
  ring

theorem floor_grid_bounds :
    (4 * m.mantissa * unit / grid : Nat) * 10 ^ power ≤ m.value ∧
      m.value < ((4 * m.mantissa * unit / grid : Nat) + 1) * 10 ^ power := by
  have gridPos := grid_pos positive gridScaled
  have ten := ten_zpow_pos power
  rw [← le_div_iff₀ ten, ← div_lt_iff₀ ten, ← cast_div_grid positive gridScaled unitScaled]
  constructor
  · rw [le_div_iff₀ (Nat.cast_pos.mpr gridPos)]
    exact_mod_cast Nat.div_mul_le_self _ _
  · rw [← Nat.cast_succ, ← div_lt_iff_ratio gridPos]
    exact Nat.lt_succ_self _

/-- Bounds on the grid are those between which a number rounds to the magnitude. -/
theorem grid_reads_iff (n : Nat) :
    (if m.mantissa % 2 = 0 then
        m.quarters.1 * unit ≤ n * grid && n * grid ≤ m.quarters.2.2 * unit
      else m.quarters.1 * unit < n * grid && n * grid < m.quarters.2.2 * unit) = true ↔
      m.Reads (n * 10 ^ power) := by
  split
  · next even =>
    rw [Bool.and_eq_true, decide_eq_true_iff, decide_eq_true_iff,
      mul_le_iff_of_scaled positive unitScaled gridScaled,
      mul_le_iff_of_scaled positive gridScaled unitScaled]
    exact ⟨fun within => ⟨within.1, within.2, fun odd => absurd even odd⟩,
      fun reads => ⟨reads.lower, reads.upper⟩⟩
  · next odd =>
    rw [Bool.and_eq_true, decide_eq_true_iff, decide_eq_true_iff,
      mul_lt_iff_of_scaled positive unitScaled gridScaled,
      mul_lt_iff_of_scaled positive gridScaled unitScaled]
    exact ⟨fun strict => ⟨strict.1.le, strict.2.le, fun _ => strict⟩, fun reads => reads.odd odd⟩

end

/-- Of the two neighbours of a magnitude on a grid, the better one that rounds to it is chosen. -/
theorem neighbour?_eq (m : Magnitude) (power : Int) :
    ∃ (readsBack : Nat → Bool) (floor nearest other : Nat),
      (∀ n, readsBack n = true ↔ m.Reads (n * 10 ^ power)) ∧
      floor * 10 ^ power ≤ m.value ∧ m.value < (floor + 1) * 10 ^ power ∧
      (nearest = floor ∧ other = floor + 1 ∨ nearest = floor + 1 ∧ other = floor) ∧
      IsNearest nearest (m.value / 10 ^ power) ∧
      m.neighbour? power =
        if readsBack nearest then some nearest
        else if readsBack other then some other
        else none := by
  obtain ⟨scale, positive, gridScaled, unitScaled⟩ := exists_grid power m.exponent
  unfold neighbour?
  generalize Nat.pow 10 power.toNat * Nat.pow 2 (2 - m.exponent).toNat = grid at gridScaled ⊢
  generalize Nat.pow 2 (m.exponent - 2).toNat * Nat.pow 10 (-power).toNat = unit at unitScaled ⊢
  obtain ⟨below, above⟩ := floor_grid_bounds positive gridScaled unitScaled
  have nearest : IsNearest (roundHalfEven (4 * m.mantissa * unit) grid) _ :=
    roundHalfEven_isNearest (grid_pos positive gridScaled)
  rw [cast_div_grid positive gridScaled unitScaled] at nearest
  exact ⟨_, _, _, _, grid_reads_iff positive gridScaled unitScaled, below, above,
    other_neighbour (roundHalfEven_eq_or _ _), nearest, rfl⟩

/-- What is chosen on a grid rounds to the magnitude and is at most one step above it. -/
theorem neighbour?_reads {m : Magnitude} {power : Int} {n : Nat}
    (chosen : m.neighbour? power = some n) :
    m.Reads (n * 10 ^ power) ∧ n * 10 ^ power ≤ m.value + 10 ^ power := by
  obtain ⟨readsBack, floor, nearest, other, back, below, _, sides, _, search⟩ :=
    m.neighbour?_eq power
  have ten := ten_zpow_pos power
  have near {n : Nat} (side : n ≤ floor + 1) : n * 10 ^ power ≤ m.value + 10 ^ power := by
    have side : (n : ℚ) ≤ floor + 1 := by exact_mod_cast side
    calc (n : ℚ) * 10 ^ power ≤ (floor + 1) * 10 ^ power := by gcongr
      _ ≤ m.value + 10 ^ power := by linarith
  rw [search] at chosen
  split at chosen
  · next reads =>
    obtain rfl := Option.some_inj.mp chosen
    exact ⟨(back _).mp reads, near (by omega)⟩
  split at chosen
  · next reads =>
    obtain rfl := Option.some_inj.mp chosen
    exact ⟨(back _).mp reads, near (by omega)⟩
  · contradiction

/-- If anything on a grid rounds to a magnitude, then a neighbour of the magnitude does. -/
theorem exists_neighbour? {m : Magnitude} (itself : m.Reads m.value) {power : Int} {n : Nat}
    (reads : m.Reads (n * 10 ^ power)) : ∃ k, m.neighbour? power = some k := by
  obtain ⟨readsBack, floor, nearest, other, back, below, above, sides, _, search⟩ :=
    m.neighbour?_eq power
  have ten := ten_zpow_pos power
  have either : m.Reads (floor * 10 ^ power) ∨ m.Reads ((floor + 1 : Nat) * 10 ^ power) := by
    rcases Nat.lt_or_ge floor n with beyond | within
    · have step : ((floor + 1 : Nat) : ℚ) * 10 ^ power ≤ n * 10 ^ power := by
        gcongr
        exact beyond
      push_cast at step ⊢
      exact .inr (itself.between reads above.le step)
    · have step : (n : ℚ) * 10 ^ power ≤ floor * 10 ^ power := by gcongr
      exact .inl (reads.between itself step below)
  rw [search]
  split
  · exact ⟨_, rfl⟩
  split
  · exact ⟨_, rfl⟩
  · next first second =>
    rw [back] at first second
    obtain ⟨rfl, rfl⟩ | ⟨rfl, rfl⟩ := sides
    · exact absurd either (not_or.mpr ⟨first, second⟩)
    · exact absurd either (not_or.mpr ⟨second, first⟩)

/-- On a grid a number rounds to a magnitude and is closer to it than any other that does, or as
close and even. -/
structure IsClosest (m : Magnitude) (power : Int) (n : Nat) : Prop where
  reads : m.Reads (n * 10 ^ power)
  closer : ∀ k : Nat, k ≠ n → m.Reads (k * 10 ^ power) →
    |n * 10 ^ power - m.value| < |k * 10 ^ power - m.value| ∨
      |n * 10 ^ power - m.value| = |k * 10 ^ power - m.value| ∧ n % 2 = 0

theorem distance (m : Magnitude) (power : Int) (n : Nat) :
    |n * 10 ^ power - m.value| = |n - m.value / 10 ^ power| * 10 ^ power := by
  have ten := ten_zpow_pos power
  rw [← abs_of_pos ten, ← abs_mul, sub_mul, abs_of_pos ten, div_mul_cancel₀ _ ten.ne']

theorem isClosest_iff {m : Magnitude} {power : Int} {n : Nat} :
    m.IsClosest power n ↔ m.Reads (n * 10 ^ power) ∧ ∀ k : Nat, k ≠ n →
      m.Reads (k * 10 ^ power) →
      |n - m.value / 10 ^ power| < |k - m.value / 10 ^ power| ∨
        |n - m.value / 10 ^ power| = |k - m.value / 10 ^ power| ∧ n % 2 = 0 := by
  have ten := ten_zpow_pos power
  have scaled (k : Nat) :
      (|n * 10 ^ power - m.value| < |k * 10 ^ power - m.value| ∨
        |n * 10 ^ power - m.value| = |k * 10 ^ power - m.value| ∧ n % 2 = 0) ↔
      (|n - m.value / 10 ^ power| < |k - m.value / 10 ^ power| ∨
        |n - m.value / 10 ^ power| = |k - m.value / 10 ^ power| ∧ n % 2 = 0) := by
    rw [distance, distance, mul_lt_mul_iff_left₀ ten, mul_left_inj' ten.ne']
  constructor
  · rintro ⟨reads, closer⟩
    exact ⟨reads, fun k other back => (scaled k).mp (closer k other back)⟩
  · rintro ⟨reads, closer⟩
    exact ⟨reads, fun k other back => (scaled k).mpr (closer k other back)⟩

/-- What is nearest to a number is not further away than anything else. -/
theorem IsNearest.closer {n k : Nat} {x : ℚ} (nearest : IsNearest n x) (other : k ≠ n) :
    |n - x| < |k - x| ∨ |n - x| = |k - x| ∧ n % 2 = 0 := by
  have near : |n - x| ≤ 1 / 2 :=
    abs_le.mpr ⟨by linarith [nearest.upper], by linarith [nearest.lower]⟩
  have far : 1 / 2 ≤ |k - x| := by
    rcases Nat.lt_or_gt_of_ne other with less | more
    · have step : (k : ℚ) + 1 ≤ n := by exact_mod_cast less
      exact le_abs.mpr (.inr (by linarith [nearest.lower]))
    · have step : (n : ℚ) + 1 ≤ k := by exact_mod_cast more
      exact le_abs.mpr (.inl (by linarith [nearest.upper]))
  rcases (near.trans far).lt_or_eq with less | same
  · exact .inl less
  · refine .inr ⟨same, by_contra fun odd => ?_⟩
    obtain ⟨above, below⟩ := nearest.odd odd
    have strict : |n - x| < 1 / 2 := abs_lt.mpr ⟨by linarith, by linarith⟩
    linarith

/-- The chosen neighbour is the closest one. -/
theorem neighbour?_isClosest {m : Magnitude} (itself : m.Reads m.value) {power : Int} {n : Nat}
    (chosen : m.neighbour? power = some n) : m.IsClosest power n := by
  obtain ⟨readsBack, floor, nearest, other, back, below, above, sides, near, search⟩ :=
    m.neighbour?_eq power
  have ten := ten_zpow_pos power
  have lower : (floor : ℚ) ≤ m.value / 10 ^ power := (le_div_iff₀ ten).mpr below
  have upper : m.value / 10 ^ power < floor + 1 := (div_lt_iff₀ ten).mpr above
  rw [isClosest_iff]
  rw [search] at chosen
  split at chosen
  · next reads =>
    obtain rfl := Option.some_inj.mp chosen
    exact ⟨(back _).mp reads, fun k apart _ => near.closer apart⟩
  split at chosen
  · next lost reads =>
    obtain rfl := Option.some_inj.mp chosen
    refine ⟨(back _).mp reads, fun k apart again => .inl ?_⟩
    rw [back] at lost
    -- On the side of the nearest number nothing rounds to the magnitude, since that does not.
    obtain ⟨rfl, rfl⟩ | ⟨rfl, rfl⟩ := sides
    · have beyond : nearest < k := by
        by_contra within
        have step : (k : ℚ) ≤ nearest := by exact_mod_cast Nat.le_of_not_lt within
        exact lost (again.between itself (by gcongr) below)
      have step : (nearest : ℚ) + 1 + 1 ≤ k := by exact_mod_cast (by omega : nearest + 1 + 1 ≤ k)
      push_cast
      rw [abs_of_pos (by linarith), abs_of_pos (by linarith)]
      linarith
    · have beyond : k ≤ other := by
        by_contra within
        have step : (other : ℚ) + 1 ≤ k := by exact_mod_cast Nat.lt_of_not_le within
        refine lost (itself.between again ?_ ?_)
        · push_cast
          exact above.le
        · push_cast
          gcongr
      have step : (k : ℚ) + 1 ≤ other := by exact_mod_cast (by omega : k + 1 ≤ other)
      rw [abs_sub_comm, abs_sub_comm (k : ℚ), abs_of_nonneg (by linarith),
        abs_of_pos (by linarith)]
      linarith
  · contradiction

/-- Only one number of a grid is the closest. -/
theorem IsClosest.unique {m : Magnitude} {power : Int} {n k : Nat}
    (first : m.IsClosest power n) (second : m.IsClosest power k) : n = k := by
  rw [isClosest_iff] at first second
  by_contra apart
  wlog less : n < k generalizing n k
  · exact this second first (Ne.symm apart) (by omega)
  obtain ⟨low, closer⟩ := first
  obtain ⟨high, nearer⟩ := second
  obtain ⟨same, even, even'⟩ : |n - m.value / 10 ^ power| = |k - m.value / 10 ^ power| ∧
      n % 2 = 0 ∧ k % 2 = 0 := by
    rcases closer k (Ne.symm apart) high with less | ⟨same, even⟩
    · rcases nearer n apart low with more | ⟨same, _⟩
      · exact absurd more less.not_gt
      · exact absurd same less.ne'
    · rcases nearer n apart low with more | ⟨_, even'⟩
      · exact absurd same more.ne'
      · exact ⟨same, even, even'⟩
  -- Both are even, so a number between them would be closer than either.
  have step : (n : ℚ) + 2 ≤ k := by exact_mod_cast (by omega : n + 2 ≤ k)
  have ten := ten_zpow_pos power
  have between : m.Reads ((n + 1 : Nat) * 10 ^ power) := by
    refine low.between high ?_ ?_
    · gcongr
      exact Nat.le_succ n
    · gcongr
      exact less
  have middle : m.value / 10 ^ power = (n + k) / 2 := by
    have apart : (n : ℚ) - m.value / 10 ^ power ≠ k - m.value / 10 ^ power := by
      intro equal
      linarith
    have mirrored := (abs_eq_abs.mp same).resolve_left apart
    linarith
  have far : |n - m.value / 10 ^ power| = (k - n) / 2 := by
    rw [middle, abs_of_nonpos (by linarith)]
    ring
  have near : |((n + 1 : Nat) : ℚ) - m.value / 10 ^ power| = (k - n) / 2 - 1 := by
    rw [middle, abs_of_nonpos (by push_cast; linarith)]
    push_cast
    ring
  rcases closer (n + 1) (Nat.succ_ne_self n) between with closer | ⟨equal, _⟩
  · linarith
  · linarith

/-- The search ends at the first number of digits for which there is a neighbour. -/
theorem exists_firstNeighbour {m : Magnitude} {point : Int} {start count some : Nat}
    (least : start ≤ some) (within : some < start + count)
    (found : ∃ n, m.neighbour? (point - some) = .some n) :
    ∃ digits n, start ≤ digits ∧ digits ≤ some ∧
      (∀ fewer, start ≤ fewer → fewer < digits → m.neighbour? (point - fewer) = none) ∧
      m.neighbour? (point - digits) = .some n ∧
      m.firstNeighbour point (List.range' start count) = (n, point - digits) := by
  induction count generalizing start with
  | zero => omega
  | succ count ih =>
    rw [List.range'_succ, firstNeighbour]
    cases search : m.neighbour? (point - start) with
    | some n => exact ⟨start, n, le_rfl, least, fun _ _ _ => by omega, search, rfl⟩
    | none =>
      have later : start + 1 ≤ some := by
        refine Nat.lt_of_le_of_ne least ?_
        rintro rfl
        obtain ⟨n, found⟩ := found
        rw [search] at found
        contradiction
      obtain ⟨digits, n, above, below, first, chosen, result⟩ := ih later (by omega)
      refine ⟨digits, n, by omega, below, fun fewer least less => ?_, chosen, result⟩
      rcases Nat.lt_or_eq_of_le least with more | rfl
      · exact first fewer more less
      · exact search

/-- Zeros at the end of a number are counted as powers of ten. -/
theorem stripZeros_value (fuel n zeros : Nat) :
    (stripZeros fuel n zeros).1 * 10 ^ (stripZeros fuel n zeros).2 = n * 10 ^ zeros := by
  induction fuel generalizing n zeros with
  | zero => rfl
  | succ fuel ih =>
    rw [stripZeros]
    split
    · next tenfold =>
      rw [ih, Nat.pow_succ', ← Nat.mul_assoc, Nat.div_mul_cancel (Nat.dvd_of_mod_eq_zero tenfold)]
    · rfl

/-- The number that the digits of a magnitude stand for. -/
def decimal (m : Magnitude) : ℚ :=
  Nat.ofDigitChars 10 m.shortest.1 0 * 10 ^ (m.shortest.2 - m.shortest.1.length)

theorem decimal_zero {m : Magnitude} (zero : m.mantissa = 0) : m.decimal = 0 := by
  have digits : m.shortest.1 = ['0'] := by
    have isZero : m.isZero = true := beq_iff_eq.mpr zero
    rw [shortest, if_pos isZero]
  rw [decimal, digits]
  exact zero_mul _

/-- The first grid on which a magnitude has a neighbour gives its digits. -/
structure HasDigits (m : Magnitude) (digits n : Nat) : Prop where
  positive : 1 ≤ digits
  first : ∀ fewer : Nat, 1 ≤ fewer → fewer < digits →
    m.neighbour? (m.decimalPoint - fewer) = none
  chosen : m.neighbour? (m.decimalPoint - digits) = some n
  decimal : m.decimal = n * 10 ^ (m.decimalPoint - digits)

theorem exists_hasDigits {m : Magnitude} (some : m.mantissa ≠ 0) {count : Nat}
    (positive : 1 ≤ count) (few : count ≤ 17)
    (found : ∃ n, m.neighbour? (m.decimalPoint - count) = .some n) :
    ∃ digits n, digits ≤ count ∧ m.HasDigits digits n := by
  have numbers : (List.range 17).map (· + 1) = List.range' 1 17 := by decide
  obtain ⟨digits, n, least, within, first, chosen, result⟩ :=
    exists_firstNeighbour positive (by omega : count < 1 + 17) found
  refine ⟨digits, n, within, least, first, chosen, ?_⟩
  have stripped := stripZeros_value 20 n 0
  have parts : m.shortest = (Nat.toDigits 10 (stripZeros 20 n 0).1,
      m.decimalPoint - digits + (stripZeros 20 n 0).2 +
        (Nat.toDigits 10 (stripZeros 20 n 0).1).length) := by
    rw [shortest, if_neg (by simpa [isZero] using some), numbers, result]
  rw [decimal, parts]
  dsimp only
  rw [Nat.ofDigitChars_ten_toDigits, add_sub_cancel_right, zpow_add₀ (by norm_num),
    zpow_natCast, mul_comm (10 ^ (m.decimalPoint - digits)), ← mul_assoc]
  congr 1
  exact_mod_cast stripped.trans (Nat.mul_one n)

end Magnitude

end DecoderForge
