import Mathlib

/-!
# Decimal rounding, half away from zero

Rationals stand for exact decimal amounts. `roundHalfUp n` keeps `n` decimals
and sends a tie away from zero, the rule decimal libraries call `ROUND_HALF_UP`
and SQL databases apply to a `numeric(p, n)` column. `AtScale n` is the set of
values such a column can hold.

Nothing here mentions a currency or a program. The two facts every client uses
are that rounding is the identity on `AtScale` values and that it moves any
other value by at most half a unit of the last kept decimal.
-/

namespace Rounding

/-- The integer nearest to `x`, ties away from zero. -/
def nearestInt (x : ℚ) : ℤ :=
  if 0 ≤ x then ⌊x + 1 / 2⌋ else -⌊-x + 1 / 2⌋

/-- `x` with `n` decimals, ties away from zero. -/
def roundHalfUp (n : ℕ) (x : ℚ) : ℚ :=
  (nearestInt (x * 10 ^ n) : ℚ) / 10 ^ n

/-- `x` has at most `n` decimals. -/
def AtScale (n : ℕ) (x : ℚ) : Prop :=
  ∃ k : ℤ, x = k / 10 ^ n

/-- Half a unit of the `n`th decimal, the most one rounding can move a value. -/
def halfUnit (n : ℕ) : ℚ := 1 / (2 * 10 ^ n)

theorem halfUnit_pos (n : ℕ) : 0 < halfUnit n := by
  unfold halfUnit
  positivity

theorem nearestInt_intCast (k : ℤ) : nearestInt (k : ℚ) = k := by
  have floor_eq : ∀ m : ℤ, ⌊(m : ℚ) + 1 / 2⌋ = m := by
    intro m
    rw [Int.floor_eq_iff]
    constructor <;> norm_num
  unfold nearestInt
  split
  · exact floor_eq k
  · have h := floor_eq (-k)
    push_cast at h
    rw [h, neg_neg]

theorem nearestInt_neg (x : ℚ) : nearestInt (-x) = -nearestInt x := by
  unfold nearestInt
  rcases lt_trichotomy x 0 with hx | hx | hx
  · rw [if_pos (by linarith), if_neg (by linarith), neg_neg]
  · subst hx
    norm_num
  · rw [if_neg (by linarith), if_pos hx.le, neg_neg]

theorem abs_nearestInt_sub_le (x : ℚ) : |(nearestInt x : ℚ) - x| ≤ 1 / 2 := by
  have floor_bound : ∀ y : ℚ, |(⌊y + 1 / 2⌋ : ℚ) - y| ≤ 1 / 2 := by
    intro y
    have lower := Int.lt_floor_add_one (y + 1 / 2)
    have upper := Int.floor_le (y + 1 / 2)
    rw [abs_le]
    constructor <;> linarith
  unfold nearestInt
  split
  · exact floor_bound x
  · have h := floor_bound (-x)
    rw [abs_sub_comm] at h
    push_cast
    convert h using 2
    ring

theorem nearestInt_mono {x y : ℚ} (h : x ≤ y) : nearestInt x ≤ nearestInt y := by
  unfold nearestInt
  by_cases hx : 0 ≤ x
  · rw [if_pos hx, if_pos (hx.trans h)]
    exact Int.floor_mono (by linarith)
  · rw [if_neg hx]
    have left : 0 ≤ ⌊-x + 1 / 2⌋ := Int.floor_nonneg.mpr (by linarith)
    by_cases hy : 0 ≤ y
    · rw [if_pos hy]
      have right : 0 ≤ ⌊y + 1 / 2⌋ := Int.floor_nonneg.mpr (by linarith)
      omega
    · rw [if_neg hy]
      exact neg_le_neg (Int.floor_mono (by linarith))

/-! ## Values a decimal column holds -/

theorem atScale_iff (n : ℕ) (x : ℚ) : AtScale n x ↔ (x * 10 ^ n).den = 1 := by
  have hpow : (10 : ℚ) ^ n ≠ 0 := by positivity
  rw [Rat.den_eq_one_iff]
  constructor
  · rintro ⟨k, rfl⟩
    rw [div_mul_cancel₀ _ hpow, Rat.num_intCast]
  · intro h
    exact ⟨(x * 10 ^ n).num, by rw [h]; field_simp⟩

instance (n : ℕ) (x : ℚ) : Decidable (AtScale n x) :=
  decidable_of_iff _ (atScale_iff n x).symm

theorem AtScale.zero (n : ℕ) : AtScale n 0 := ⟨0, by simp⟩

theorem atScale_four_zero : AtScale 4 0 := AtScale.zero 4

theorem AtScale.natCast (n k : ℕ) : AtScale n k := ⟨k * 10 ^ n, by simp⟩

/-- More decimals hold every amount of fewer. -/
theorem AtScale.mono {m n : ℕ} (h : m ≤ n) {x : ℚ} (hx : AtScale m x) : AtScale n x := by
  obtain ⟨k, rfl⟩ := hx
  refine ⟨k * 10 ^ (n - m), ?_⟩
  have hpow : (10 : ℚ) ^ n = 10 ^ (n - m) * 10 ^ m := by
    rw [← pow_add, Nat.sub_add_cancel h]
  have hm : (10 : ℚ) ^ m ≠ 0 := by positivity
  have hn : (10 : ℚ) ^ (n - m) ≠ 0 := by positivity
  push_cast
  rw [hpow]
  field_simp

theorem AtScale.add {n : ℕ} {x y : ℚ} (hx : AtScale n x) (hy : AtScale n y) :
    AtScale n (x + y) := by
  obtain ⟨a, rfl⟩ := hx
  obtain ⟨b, rfl⟩ := hy
  exact ⟨a + b, by push_cast; ring⟩

theorem AtScale.neg {n : ℕ} {x : ℚ} (hx : AtScale n x) : AtScale n (-x) := by
  obtain ⟨a, rfl⟩ := hx
  exact ⟨-a, by push_cast; ring⟩

theorem AtScale.sub {n : ℕ} {x y : ℚ} (hx : AtScale n x) (hy : AtScale n y) :
    AtScale n (x - y) := by
  rw [sub_eq_add_neg]
  exact hx.add hy.neg

theorem AtScale.sum {n : ℕ} {l : List ℚ} (h : ∀ x ∈ l, AtScale n x) : AtScale n l.sum := by
  induction l with
  | nil => exact AtScale.zero n
  | cons x xs ih =>
      rw [List.sum_cons]
      exact (h x (by simp)).add (ih fun y hy => h y (by simp [hy]))

/-- A column value above `-ε` is not negative when `ε` is below one unit of the
last decimal: the tolerance of a comparison does not matter at this scale. -/
theorem AtScale.nonneg_of_neg_lt {n : ℕ} {x ε : ℚ} (hx : AtScale n x) (h : -ε ≤ x)
    (hε : ε * 10 ^ n < 1) : 0 ≤ x := by
  obtain ⟨k, rfl⟩ := hx
  have hpow : (0 : ℚ) < 10 ^ n := by positivity
  have scaled : -1 < (k : ℚ) := by
    rw [le_div_iff₀ hpow] at h
    linarith
  have : (0 : ℤ) ≤ k := by
    have : (-1 : ℤ) < k := by exact_mod_cast scaled
    omega
  exact div_nonneg (by exact_mod_cast this) hpow.le

/-- The least positive column value is one unit of its last decimal. -/
theorem AtScale.unit_le {n : ℕ} {x : ℚ} (hx : AtScale n x) (h : 0 < x) : 1 / 10 ^ n ≤ x := by
  obtain ⟨k, rfl⟩ := hx
  have hpow : (0 : ℚ) < 10 ^ n := by positivity
  have positive : (0 : ℚ) < k := by
    rw [lt_div_iff₀ hpow, zero_mul] at h
    exact h
  have : (1 : ℤ) ≤ k := by exact_mod_cast positive
  gcongr
  exact_mod_cast this

/-! ## The rounding rule -/

theorem atScale_roundHalfUp (n : ℕ) (x : ℚ) : AtScale n (roundHalfUp n x) :=
  ⟨nearestInt (x * 10 ^ n), rfl⟩

theorem roundHalfUp_of_atScale {n : ℕ} {x : ℚ} (h : AtScale n x) : roundHalfUp n x = x := by
  obtain ⟨k, rfl⟩ := h
  have hpow : (10 : ℚ) ^ n ≠ 0 := by positivity
  rw [roundHalfUp, div_mul_cancel₀ _ hpow, nearestInt_intCast]

@[simp] theorem roundHalfUp_roundHalfUp (n : ℕ) (x : ℚ) :
    roundHalfUp n (roundHalfUp n x) = roundHalfUp n x :=
  roundHalfUp_of_atScale (atScale_roundHalfUp n x)

@[simp] theorem roundHalfUp_zero (n : ℕ) : roundHalfUp n 0 = 0 :=
  roundHalfUp_of_atScale (AtScale.zero n)

theorem roundHalfUp_neg (n : ℕ) (x : ℚ) : roundHalfUp n (-x) = -roundHalfUp n x := by
  unfold roundHalfUp
  rw [neg_mul, nearestInt_neg]
  push_cast
  ring

theorem abs_roundHalfUp_sub_le (n : ℕ) (x : ℚ) : |roundHalfUp n x - x| ≤ halfUnit n := by
  have hpow : (0 : ℚ) < 10 ^ n := by positivity
  have factored : roundHalfUp n x - x =
      ((nearestInt (x * 10 ^ n) : ℚ) - x * 10 ^ n) / 10 ^ n := by
    unfold roundHalfUp
    field_simp
  have bound := abs_nearestInt_sub_le (x * 10 ^ n)
  rw [factored, abs_div, abs_of_pos hpow, div_le_iff₀ hpow]
  refine bound.trans (le_of_eq ?_)
  unfold halfUnit
  field_simp

/-- Rounding every term moves a sum by at most half a unit a term. -/
theorem abs_sum_roundHalfUp_sub_le {α : Type*} (n : ℕ) (f : α → ℚ) (l : List α) :
    |(l.map fun a => roundHalfUp n (f a)).sum - (l.map f).sum| ≤ l.length * halfUnit n := by
  induction l with
  | nil => simp
  | cons a l ih =>
      have head := abs_le.mp (abs_roundHalfUp_sub_le n (f a))
      have tail := abs_le.mp ih
      simp only [List.map_cons, List.sum_cons, List.length_cons, abs_le]
      push_cast
      constructor <;> linarith [head.1, head.2, tail.1, tail.2]

theorem roundHalfUp_mono (n : ℕ) {x y : ℚ} (h : x ≤ y) : roundHalfUp n x ≤ roundHalfUp n y := by
  have hpow : (0 : ℚ) < 10 ^ n := by positivity
  unfold roundHalfUp
  gcongr
  exact nearestInt_mono (by gcongr)

theorem roundHalfUp_nonneg (n : ℕ) {x : ℚ} (h : 0 ≤ x) : 0 ≤ roundHalfUp n x := by
  simpa using roundHalfUp_mono n h

theorem roundHalfUp_le {n : ℕ} {x y : ℚ} (h : x ≤ y) (hy : AtScale n y) :
    roundHalfUp n x ≤ y :=
  (roundHalfUp_mono n h).trans_eq (roundHalfUp_of_atScale hy)

theorem le_roundHalfUp {n : ℕ} {x y : ℚ} (h : x ≤ y) (hx : AtScale n x) :
    x ≤ roundHalfUp n y :=
  (roundHalfUp_of_atScale hx).symm.trans_le (roundHalfUp_mono n h)

theorem roundHalfUp_zero_eq_floor {x : ℚ} (h : 0 ≤ x) : roundHalfUp 0 x = ⌊x + 1 / 2⌋ := by
  simp [roundHalfUp, nearestInt, h]

/-! ## Comparing a rounded value -/

/-- A rounded value exceeds a column value when the value is half a unit above it. -/
theorem roundHalfUp_le_iff {n : ℕ} {x y : ℚ} (hx : 0 ≤ x) (hy : AtScale n y) :
    roundHalfUp n x ≤ y ↔ x * 10 ^ n < y * 10 ^ n + 1 / 2 := by
  obtain ⟨k, rfl⟩ := hy
  have hpow : (0 : ℚ) < 10 ^ n := by positivity
  have scaled : 0 ≤ x * 10 ^ n := by positivity
  rw [roundHalfUp, nearestInt, if_pos scaled, div_le_div_iff_of_pos_right hpow,
    div_mul_cancel₀ _ hpow.ne', Int.cast_le, ← Int.lt_add_one_iff, Int.floor_lt]
  push_cast
  constructor <;> intro h <;> linarith

/-- A rounded value is below a bound when the value, in units of the last decimal, is
more than a half below the least whole number of units the bound does not exceed. -/
theorem roundHalfUp_lt_iff {n : ℕ} {x y : ℚ} (hx : 0 ≤ x) :
    roundHalfUp n x < y ↔ x * 10 ^ n + 1 / 2 < ⌈y * 10 ^ n⌉ := by
  have hpow : (0 : ℚ) < 10 ^ n := by positivity
  have scaled : 0 ≤ x * 10 ^ n := by positivity
  rw [roundHalfUp, nearestInt, if_pos scaled, div_lt_iff₀ hpow, ← Int.lt_ceil, Int.floor_lt]

/-- Whole amounts come out of a rounding to whole amounts. -/
theorem roundHalfUp_zero_sub {x k : ℚ} (hk : AtScale 0 k) (h : 0 ≤ k) (le : k ≤ x) :
    roundHalfUp 0 (x - k) = roundHalfUp 0 x - k := by
  obtain ⟨n, rfl⟩ := hk
  rw [pow_zero, div_one] at *
  rw [roundHalfUp_zero_eq_floor (sub_nonneg.mpr le), roundHalfUp_zero_eq_floor (h.trans le),
    sub_add_eq_add_sub, Int.floor_sub_intCast]
  push_cast
  rfl

/-- Rounding a fraction to decimals finer than its denominator first does not
change the whole number it rounds to. -/
theorem roundHalfUp_zero_of_fraction {n : ℕ} {x : ℚ} {p m : ℤ} (hx : x = p / m) (hm : 0 < m)
    (h : 0 ≤ x) (fine : (m : ℚ) < 10 ^ n) :
    roundHalfUp 0 (roundHalfUp n x) = roundHalfUp 0 x := by
  rw [roundHalfUp_zero_eq_floor h, roundHalfUp_zero_eq_floor (roundHalfUp_nonneg n h)]
  congr 1
  have mpos : (0 : ℚ) < m := by exact_mod_cast hm
  set r : ℤ := ⌊x + 1 / 2⌋ with hr
  have lower : (r : ℚ) ≤ x + 1 / 2 := Int.floor_le _
  have upper : x + 1 / 2 < r + 1 := Int.lt_floor_add_one _
  have half : AtScale n ((r : ℚ) - 1 / 2) := by
    have one : 1 ≤ n := by
      by_contra small
      have : n = 0 := by omega
      subst this
      have : (1 : ℚ) ≤ m := by exact_mod_cast hm
      simp at fine
      linarith
    refine AtScale.mono one ⟨10 * r - 5, ?_⟩
    push_cast
    ring
  -- a fraction below `r + 1/2` is at least half a part below it
  have gap : x ≤ r + 1 / 2 - 1 / (2 * m) := by
    have whole : 2 * p < m * (2 * r + 1) := by
      have : 2 * (p : ℚ) < m * (2 * r + 1) := by
        have := (div_lt_iff₀ mpos).mp (hx ▸ show x < r + 1 / 2 by linarith)
        linarith
      exact_mod_cast this
    have : 2 * (p : ℚ) + 1 ≤ m * (2 * r + 1) := by exact_mod_cast whole
    rw [hx, div_le_iff₀ mpos]
    field_simp
    linarith
  rw [Int.floor_eq_iff]
  constructor
  · have := le_roundHalfUp (show (r : ℚ) - 1 / 2 ≤ x by linarith) half
    linarith
  · have moved := (abs_le.mp (abs_roundHalfUp_sub_le n x)).2
    have small : halfUnit n < 1 / (2 * m) := by
      unfold halfUnit
      gcongr
    linarith

example : roundHalfUp 0 (5 / 2) = 3 ∧ roundHalfUp 0 (-5 / 2) = -3 := by decide +kernel

end Rounding
