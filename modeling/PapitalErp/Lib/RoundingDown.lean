import PapitalErp.Lib.Rounding

/-!
# Rounding down by way of rounding half up

A decimal library that only rounds half up rounds down by taking a unit off what has come out above the
value. Where a quotient is first rounded to many decimals, the number rounded down is that of the exact
quotient as long as its denominator is small enough.
-/

namespace Rounding

/-- `x` with `n` decimals, rounded down. -/
def roundDown (n : ℕ) (x : ℚ) : ℚ := ⌊x * 10 ^ n⌋ / 10 ^ n

/-- One unit less, when the nearest whole number is above. -/
theorem floor_of_nearestInt {x : ℚ} (h : 0 ≤ x) :
    ⌊x⌋ = if x < nearestInt x then nearestInt x - 1 else nearestInt x := by
  rw [nearestInt, if_pos h]
  have lower := Int.floor_le (x + 1 / 2)
  have upper := Int.lt_floor_add_one (x + 1 / 2)
  split_ifs with above <;> rw [Int.floor_eq_iff] <;> push_cast
  · constructor <;> linarith
  · constructor <;> linarith

theorem roundDown_eq {n : ℕ} {x : ℚ} (h : 0 ≤ x) :
    (if x < roundHalfUp n x then roundHalfUp n x - 1 / 10 ^ n else roundHalfUp n x) = roundDown n x := by
  have unit : (0 : ℚ) < 10 ^ n := by positivity
  have above : x < roundHalfUp n x ↔ x * 10 ^ n < nearestInt (x * 10 ^ n) := lt_div_iff₀ unit
  rw [roundDown, floor_of_nearestInt (mul_nonneg h unit.le), roundHalfUp]
  rw [roundHalfUp] at above
  split_ifs with low low'
  · push_cast
    ring
  · exact absurd (above.mp low) low'
  · exact absurd (above.mpr ‹_›) low
  · rfl

/-- What is on the grid, no lower than the number rounded down and at most a unit above it, is rounded down by
taking the unit off where it has come out above. -/
theorem roundDown_of_near {n : ℕ} {x r : ℚ} (grid : AtScale n r) (lower : roundDown n x ≤ r)
    (upper : r ≤ roundDown n x + 1 / 10 ^ n) : (if x < r then r - 1 / 10 ^ n else r) = roundDown n x := by
  have unit : (0 : ℚ) < 10 ^ n := by positivity
  obtain ⟨j, rfl⟩ := grid
  have least : ⌊x * 10 ^ n⌋ ≤ j := by
    rw [roundDown, div_le_div_iff_of_pos_right unit] at lower
    exact_mod_cast lower
  have most : j ≤ ⌊x * 10 ^ n⌋ + 1 := by
    rw [roundDown, ← add_div, div_le_div_iff_of_pos_right unit] at upper
    exact_mod_cast upper
  simp only [lt_div_iff₀ unit, ← Int.floor_lt]
  split_ifs with above
  · have next : j = ⌊x * 10 ^ n⌋ + 1 := by omega
    rw [next, roundDown, ← sub_div]
    push_cast
    rw [add_sub_cancel_right]
  · have same : j = ⌊x * 10 ^ n⌋ := by omega
    rw [same, roundDown]

/-- Rounding to more decimals first does not pass the units next to the number. -/
theorem roundDown_of_twice {n m : ℕ} (finer : n ≤ m) (x : ℚ) :
    (if x < roundHalfUp n (roundHalfUp m x) then roundHalfUp n (roundHalfUp m x) - 1 / 10 ^ n
      else roundHalfUp n (roundHalfUp m x)) = roundDown n x := by
  have unit : (0 : ℚ) < 10 ^ n := by positivity
  have low : AtScale n (roundDown n x) := ⟨⌊x * 10 ^ n⌋, rfl⟩
  have high : AtScale n (roundDown n x + 1 / 10 ^ n) := low.add ⟨1, by norm_num⟩
  have lower : roundDown n x ≤ x := by
    rw [roundDown, div_le_iff₀ unit]
    exact Int.floor_le _
  have upper : x ≤ roundDown n x + 1 / 10 ^ n := by
    rw [roundDown, ← add_div, le_div_iff₀ unit]
    exact (Int.lt_floor_add_one _).le
  exact roundDown_of_near (atScale_roundHalfUp n _) (le_roundHalfUp (le_roundHalfUp lower (low.mono finer)) low)
    (roundHalfUp_le (roundHalfUp_le upper (high.mono finer)) high)

theorem roundDown_le (n : ℕ) (x : ℚ) : roundDown n x ≤ x := by
  have unit : (0 : ℚ) < 10 ^ n := by positivity
  rw [roundDown, div_le_iff₀ unit]
  exact Int.floor_le _

/-- A fraction that is no whole number stays below the next one when it is rounded to decimals at least as
fine as its denominator. -/
theorem floor_roundHalfUp_of_fraction {n : ℕ} {x : ℚ} {p m : ℕ} (hx : x = p / m) (hm : 0 < m)
    (fine : m ≤ 10 ^ n) : ⌊roundHalfUp n x⌋ = ⌊x⌋ := by
  have mpos : (0 : ℚ) < m := by exact_mod_cast hm
  set r : ℤ := ⌊x⌋ with floor
  have lower : (r : ℚ) ≤ x := Int.floor_le _
  have upper : x < r + 1 := Int.lt_floor_add_one _
  -- the next whole number is at least one part away
  have gap : x + 1 / m ≤ r + 1 := by
    have below : (p : ℤ) < (r + 1) * m := by
      have scaled : (p : ℚ) < (r + 1) * m := (div_lt_iff₀ mpos).mp (hx ▸ upper)
      exact_mod_cast scaled
    have parts : (p : ℚ) + 1 ≤ (r + 1) * m := by exact_mod_cast below
    rw [hx, ← add_div, div_le_iff₀ mpos]
    exact parts
  have small : halfUnit n < 1 / m := by
    have fineQ : (m : ℚ) ≤ 10 ^ n := by exact_mod_cast fine
    rw [halfUnit, one_div_lt_one_div (by positivity) mpos]
    linarith
  have moved := (abs_le.mp (abs_roundHalfUp_sub_le n x)).2
  rw [Int.floor_eq_iff]
  have whole : AtScale 0 (r : ℚ) := ⟨r, by simp⟩
  refine ⟨le_roundHalfUp lower (whole.mono n.zero_le), ?_⟩
  linarith

end Rounding
