import Mathlib

/-!
# The order of decimal texts

Numbers with equally many decimal digits are ordered as their texts are, character
by character, and whatever stands after the digits.
-/

namespace DecimalTexts

theorem digitChar_lt {a b : ℕ} (h : a < b) (hb : b < 10) : Nat.digitChar a < Nat.digitChar b := by
  interval_cases b <;> interval_cases a <;> decide

/-- By induction on the number: all digits but the last decide, or the last one does. -/
theorem toDigits_append_lt {n m : ℕ} (h : n < m)
    (length : (Nat.toDigits 10 n).length = (Nat.toDigits 10 m).length) (s t : List Char) :
    Nat.toDigits 10 n ++ s < Nat.toDigits 10 m ++ t := by
  induction n using Nat.strongRecOn generalizing m s t with
  | ind n ih =>
    by_cases one : n < 10
    · rw [Nat.toDigits_of_lt_base one] at length ⊢
      have small : m < 10 := by
        by_contra large
        rw [Nat.toDigits_of_base_le (by decide) (not_lt.mp large), List.length_append] at length
        have := @Nat.length_toDigits_pos 10 (m / 10)
        simp at length
      rw [Nat.toDigits_of_lt_base small]
      exact List.cons_lt_cons_iff.mpr (Or.inl (digitChar_lt h small))
    · have large : 10 ≤ n := not_lt.mp one
      rw [Nat.toDigits_of_base_le (by decide) large,
        Nat.toDigits_of_base_le (by decide) (large.trans h.le)] at length ⊢
      simp only [List.length_append, List.length_singleton, Nat.add_right_cancel_iff] at length
      rw [List.append_assoc, List.append_assoc]
      rcases (Nat.div_le_div_right h.le : n / 10 ≤ m / 10).lt_or_eq with before | same
      · exact ih _ (by omega) before length _ _
      · rw [same]
        refine List.append_left_lt ?_
        exact List.cons_lt_cons_iff.mpr (Or.inl (digitChar_lt (by omega) (by omega)))

/-- Numbers of four digits have texts of four characters. -/
theorem length_toDigits_four {n : ℕ} (low : 1000 ≤ n) (high : n < 10000) :
    (Nat.toDigits 10 n).length = 4 := by
  have atMost := (Nat.length_toDigits_le_iff (b := 10) (n := n) (k := 4) (by decide) (by decide)).mpr
    high
  have more : ¬(Nat.toDigits 10 n).length ≤ 3 := fun h =>
    absurd ((Nat.length_toDigits_le_iff (by decide) (by decide)).mp h) (by omega)
  omega

end DecimalTexts
