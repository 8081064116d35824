import Mathlib.Algebra.Order.Group.Defs
import Mathlib.Algebra.Order.Monoid.Unbundled.Basic
import Mathlib.Data.List.Count

/-!
# Limits over a sliding window

A request is admitted when fewer than `limit` of the rows that count are younger
than `length`. Whatever the order of the rows' times, every half-open window of
that length then holds at most `limit` of them.
-/

namespace SlidingWindow

variable {α T : Type*} [AddCommGroup T] [LinearOrder T]

/-- The rows that count and came after a moment. -/
def since (p : α → Bool) (time : α → T) (moment : T) (rows : List α) : ℕ :=
  rows.countP fun a => p a && decide (moment < time a)

/-- The rows that count in the window of a length that starts after a moment. -/
def within (p : α → Bool) (time : α → T) (moment length : T) (rows : List α) : ℕ :=
  rows.countP fun a => p a && decide (moment < time a ∧ time a ≤ moment + length)

/-- No window holds more than the limit. -/
def Limited (p : α → Bool) (time : α → T) (length : T) (limit : ℕ) (rows : List α) : Prop :=
  ∀ moment, within p time moment length rows ≤ limit

variable {p : α → Bool} {time : α → T} {length : T} {limit : ℕ} {rows : List α} {a : α}

theorem limited_nil : Limited p time length limit [] := fun _ => Nat.zero_le _

/-- A window that holds a new row holds only rows that were younger than the length. -/
theorem Limited.append [IsOrderedAddMonoid T] (h : Limited p time length limit rows)
    (below : p a = true → since p time (time a - length) rows < limit) :
    Limited p time length limit (rows ++ [a]) := by
  intro moment
  rw [within, List.countP_append, List.countP_singleton]
  split
  · rename_i inside
    simp only [Bool.and_eq_true, decide_eq_true_eq] at inside
    obtain ⟨counts, -, before⟩ := inside
    have younger : within p time moment length rows ≤ since p time (time a - length) rows := by
      refine List.countP_mono_left fun b _ there => ?_
      simp only [Bool.and_eq_true, decide_eq_true_eq] at there ⊢
      exact ⟨there.1, (sub_le_iff_le_add.mpr before).trans_lt there.2.1⟩
    exact (younger.trans_lt (below counts))
  · exact h moment

/-- Rows rewritten in place with their time and what counts of them stay limited. -/
theorem Limited.map (h : Limited p time length limit rows) {update : α → α}
    (counts : ∀ a, p (update a) = p a) (times : ∀ a, time (update a) = time a) :
    Limited p time length limit (rows.map update) := by
  intro moment
  have same : within p time moment length (rows.map update) = within p time moment length rows := by
    rw [within, within, List.countP_map]
    simp only [Function.comp_def, counts, times]
  exact same ▸ h moment

end SlidingWindow
