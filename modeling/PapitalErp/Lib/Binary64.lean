import Mathlib

/-!
# Numbers read as binary64 numbers

A binary64 number has 53 significant bits. A larger integer is rounded to the nearest number
with as many, and to the even one of two equally near. Below `2 ^ 53` every integer is kept,
so that a fraction there stays between the integers around it. The bounds of the exponent
are left out.
-/

namespace Binary64

/-- The nearest number of 53 significant bits, ties to even. -/
def roundNat (m : ℕ) : ℕ :=
  let unit := 2 ^ (m.log2 - 52)
  let quotient := m / unit
  let rest := m % unit
  if 2 * rest < unit ∨ 2 * rest = unit ∧ quotient % 2 = 0 then quotient * unit else (quotient + 1) * unit

def roundInt (n : ℤ) : ℤ := n.sign * roundNat n.natAbs

theorem roundNat_of_lt {m : ℕ} (h : m < 2 ^ 53) : roundNat m = m := by
  have bits : m.log2 - 52 = 0 := by
    by_cases zero : m = 0
    · simp [zero]
    · have below := (Nat.log2_lt zero).mpr h
      omega
  simp [roundNat, bits, Nat.mod_one]

theorem roundInt_of_lt {n : ℤ} (h : n.natAbs < 2 ^ 53) : roundInt n = n := by
  rw [roundInt, roundNat_of_lt h]
  exact Int.sign_mul_natAbs n

/-! ## Fractions -/

/-- The nearest integer, ties to even. -/
def roundEven (y : ℚ) : ℤ :=
  if y - ⌊y⌋ < 1 / 2 ∨ y - ⌊y⌋ = 1 / 2 ∧ ⌊y⌋ % 2 = 0 then ⌊y⌋ else ⌊y⌋ + 1

theorem le_roundEven {n : ℤ} {y : ℚ} (h : n ≤ y) : n ≤ roundEven y := by
  have floor : n ≤ ⌊y⌋ := Int.le_floor.mpr h
  unfold roundEven
  split_ifs <;> omega

theorem roundEven_le {n : ℤ} {y : ℚ} (h : y ≤ n) : roundEven y ≤ n := by
  have floor : ⌊y⌋ ≤ n := Int.floor_le_iff.mpr (h.trans_lt (lt_add_one _))
  unfold roundEven
  split_ifs with down
  · exact floor
  · have fraction : y ≠ ⌊y⌋ := fun whole => down (Or.inl (by rw [← whole, sub_self]; norm_num))
    have below : (⌊y⌋ : ℚ) < n := (lt_of_le_of_ne (Int.floor_le y) fraction.symm).trans_le h
    exact_mod_cast below

/-- The nearest number of 53 significant bits, ties to even. -/
def nearest (x : ℚ) : ℚ :=
  if x = 0 then 0
  else roundEven (x / (2 : ℚ) ^ (Int.log 2 |x| - 52)) * (2 : ℚ) ^ (Int.log 2 |x| - 52)

@[simp] theorem nearest_zero : nearest 0 = 0 := if_pos rfl

/-- Below `2 ^ 53` the unit of the last bit divides every integer. -/
theorem exists_unit {x : ℚ} (nonzero : x ≠ 0) (small : |x| < 2 ^ 53) :
    ∃ k : ℕ, nearest x = roundEven (x * 2 ^ k) / 2 ^ k := by
  have log : Int.log 2 |x| ≤ 52 := by
    by_contra large
    have power : ((2 : ℕ) : ℚ) ^ (53 : ℤ) ≤ |x| :=
      (zpow_le_zpow_right₀ (by norm_num) (by omega)).trans
        (Int.zpow_log_le_self (by norm_num) (abs_pos.mpr nonzero))
    norm_num at power small
    linarith
  obtain ⟨k, hk⟩ := Int.eq_ofNat_of_zero_le (show 0 ≤ 52 - Int.log 2 |x| by omega)
  have unit : (2 : ℚ) ^ (Int.log 2 |x| - 52) = (2 ^ k)⁻¹ := by
    rw [show Int.log 2 |x| - 52 = -(k : ℤ) by omega, zpow_neg, zpow_natCast]
  refine ⟨k, ?_⟩
  rw [nearest, if_neg nonzero, unit, div_inv_eq_mul, ← div_eq_mul_inv]

/-- A number stays above the integers below it. -/
theorem le_nearest {n : ℤ} {x : ℚ} (h : n ≤ x) (small : |x| < 2 ^ 53) : n ≤ nearest x := by
  by_cases zero : x = 0
  · rwa [zero, nearest_zero, ← zero]
  · obtain ⟨k, unit⟩ := exists_unit zero small
    have power : (0 : ℚ) < 2 ^ k := by positivity
    have scaled : ((n * 2 ^ k : ℤ) : ℚ) ≤ x * 2 ^ k := by
      push_cast
      exact mul_le_mul_of_nonneg_right h power.le
    have rounded : ((n * 2 ^ k : ℤ) : ℚ) ≤ roundEven (x * 2 ^ k) := by
      exact_mod_cast le_roundEven scaled
    rw [unit, le_div_iff₀ power]
    push_cast at rounded
    exact rounded

/-- And below the integers above it. -/
theorem nearest_le {n : ℤ} {x : ℚ} (h : x ≤ n) (small : |x| < 2 ^ 53) : nearest x ≤ n := by
  by_cases zero : x = 0
  · rwa [zero, nearest_zero, ← zero]
  · obtain ⟨k, unit⟩ := exists_unit zero small
    have power : (0 : ℚ) < 2 ^ k := by positivity
    have scaled : x * 2 ^ k ≤ ((n * 2 ^ k : ℤ) : ℚ) := by
      push_cast
      exact mul_le_mul_of_nonneg_right h power.le
    have rounded : (roundEven (x * 2 ^ k) : ℚ) ≤ ((n * 2 ^ k : ℤ) : ℚ) := by
      exact_mod_cast roundEven_le scaled
    rw [unit, div_le_iff₀ power]
    push_cast at rounded
    exact rounded

/-- Integers are kept. -/
theorem nearest_intCast {n : ℤ} (small : |(n : ℚ)| < 2 ^ 53) : nearest n = n :=
  le_antisymm (nearest_le le_rfl small) (le_nearest le_rfl small)

theorem nearest_eq_zero_iff {x : ℚ} : nearest x = 0 ↔ x = 0 := by
  constructor
  · intro h
    by_contra nonzero
    -- the unit of the last bit is at most the number, so that it is not rounded away
    have log := Int.zpow_log_le_self (b := 2) (r := |x|) (by norm_num) (abs_pos.mpr nonzero)
    rw [nearest, if_neg nonzero] at h
    have unit : (0 : ℚ) < (2 : ℚ) ^ (Int.log 2 |x| - 52) := by positivity
    have rounded : roundEven (x / (2 : ℚ) ^ (Int.log 2 |x| - 52)) = 0 := by
      have := (mul_eq_zero.mp h).resolve_right unit.ne'
      exact_mod_cast this
    have size : 1 ≤ |x| / (2 : ℚ) ^ (Int.log 2 |x| - 52) := by
      have fewer : (2 : ℚ) ^ (Int.log 2 |x| - 52) ≤ 2 ^ Int.log 2 |x| :=
        zpow_le_zpow_right₀ (by norm_num) (by omega)
      rw [le_div_iff₀ unit, one_mul]
      exact fewer.trans (by exact_mod_cast log)
    rcases le_total 0 x with positive | negative
    · rw [abs_of_nonneg positive] at size
      have := le_roundEven (n := 1) (by exact_mod_cast size)
      rw [abs_of_nonneg positive] at rounded
      omega
    · rw [abs_of_nonpos negative, neg_div] at size
      have := roundEven_le (n := -1) (y := x / (2 : ℚ) ^ (Int.log 2 (-x) - 52)) (by
        push_cast
        linarith)
      rw [abs_of_nonpos negative] at rounded
      omega
  · rintro rfl
    exact nearest_zero

theorem nearest_neg_iff {x : ℚ} (small : |x| < 2 ^ 53) : nearest x < 0 ↔ x < 0 := by
  rcases lt_or_ge x 0 with negative | positive
  · have below : nearest x ≤ 0 := by exact_mod_cast nearest_le (n := 0) (by exact_mod_cast negative.le) small
    exact iff_of_true (lt_of_le_of_ne below (mt nearest_eq_zero_iff.mp negative.ne)) negative
  · have above : 0 ≤ nearest x := by exact_mod_cast le_nearest (n := 0) (by exact_mod_cast positive) small
    exact iff_of_false above.not_gt positive.not_gt

theorem le_abs_nearest {n : ℕ} {x : ℚ} (h : n ≤ |x|) (small : |x| < 2 ^ 53) : n ≤ |nearest x| := by
  rcases abs_cases x with ⟨same, -⟩ | ⟨same, -⟩
  · rw [same] at h
    have above := le_nearest (n := n) (by exact_mod_cast h) small
    exact le_abs.mpr (Or.inl (by exact_mod_cast above))
  · rw [same] at h
    have below := nearest_le (n := -n) (by push_cast; linarith) small
    push_cast at below
    exact le_abs.mpr (Or.inr (by linarith))

theorem abs_nearest_le {n : ℕ} {x : ℚ} (h : |x| ≤ n) (small : |x| < 2 ^ 53) : |nearest x| ≤ n := by
  obtain ⟨low, high⟩ := abs_le.mp h
  have above := le_nearest (n := -n) (by push_cast; linarith) small
  have below := nearest_le (n := n) (by exact_mod_cast high) small
  push_cast at above below
  exact abs_le.mpr ⟨above, below⟩

end Binary64
