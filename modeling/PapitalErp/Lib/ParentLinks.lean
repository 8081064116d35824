import Mathlib.Data.Nat.Basic
import Mathlib.Logic.Relation

/-!
# Parent links without cycles

`parent a b` says that the row `a` names `b` as its parent. A change of the links
of one row leaves no cycle when none runs through that row, and none runs through
a row from which every link leads to a row of the same kind with a lower rank.
-/

namespace ParentLinks

open Relation

variable {α : Type*} {parent parent' : α → α → Prop} {a b x : α}

/-- Following parents never comes back to a row. -/
def Acyclic (parent : α → α → Prop) : Prop := ∀ a, ¬TransGen parent a a

/-- A path over links that differ at `x` only is an old one or passes `x`. -/
theorem transGen_or_through (same : ∀ a b, a ≠ x → parent' a b → parent a b)
    (path : TransGen parent' a b) :
    TransGen parent a b ∨ ReflTransGen parent' a x ∧ TransGen parent' x b := by
  induction path with
  | @single b link =>
      by_cases here : a = x
      · subst here
        exact Or.inr ⟨.refl, .single link⟩
      · exact Or.inl (.single (same a b here link))
  | @tail b c path link ih =>
      by_cases here : b = x
      · subst here
        exact Or.inr ⟨path.to_reflTransGen, .single link⟩
      · rcases ih with old | ⟨before, after⟩
        · exact Or.inl (old.tail (same b c here link))
        · exact Or.inr ⟨before, after.tail link⟩

/-- New links at one row close no cycle unless one runs through that row. -/
theorem Acyclic.change (acyclic : Acyclic parent) (same : ∀ a b, a ≠ x → parent' a b → parent a b)
    (clear : ¬TransGen parent' x x) : Acyclic parent' := by
  intro a cycle
  rcases transGen_or_through same cycle with old | ⟨before, after⟩
  · exact acyclic a old
  · exact clear (after.trans_left before)

section Rank

variable {live : α → Prop} {rank : α → ℕ}

/-- From a live row the parents are live and the rank goes down. -/
theorem rank_lt (down : ∀ a b, live a → parent a b → live b ∧ rank b < rank a) (ha : live a)
    (path : TransGen parent a b) : live b ∧ rank b < rank a := by
  induction path with
  | single link => exact down _ _ ha link
  | tail _ link ih =>
      obtain ⟨alive, lower⟩ := ih
      obtain ⟨alive', lower'⟩ := down _ _ alive link
      exact ⟨alive', Nat.lt_trans lower' lower⟩

theorem no_cycle_of_rank (down : ∀ a b, live a → parent a b → live b ∧ rank b < rank a)
    (ha : live a) : ¬TransGen parent a a :=
  fun cycle => Nat.lt_irrefl _ (rank_lt down ha cycle).2

end Rank

end ParentLinks
