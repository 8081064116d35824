import Mathlib

/-!
# The largest closed subset

Groups of elements, and sets that hold each group whole or not at all. A set that is
reached from an initial one by taking out elements, each of which shares a group with an
element that is already out, loses no closed subset; once it is closed it is the largest one.
-/

namespace ClosedSubsets

variable {α ι : Type*} {group : ι → Set α} {I S T T' : Set α}

/-- Every group lies inside the set or outside it. -/
def Closed (group : ι → Set α) (S : Set α) : Prop := ∀ i, ∀ a ∈ group i, a ∈ S → group i ⊆ S

/-- Elements are taken out that share a group with an element outside. -/
structure Demotes (group : ι → Set α) (T T' : Set α) : Prop where
  subset : T' ⊆ T
  reason : ∀ a ∈ T, a ∉ T' → ∃ i, a ∈ group i ∧ ¬group i ⊆ T

/-- Any number of times. -/
abbrev Demotion (group : ι → Set α) : Set α → Set α → Prop :=
  Relation.ReflTransGen (Demotes group)

theorem Demotes.keeps (h : Demotes group T T') (closed : Closed group S) (inside : S ⊆ T) : S ⊆ T' := by
  intro a ha
  by_contra out
  obtain ⟨i, member, other⟩ := h.reason a (inside ha) out
  exact other ((closed i a member ha).trans inside)

theorem Demotion.subset (h : Demotion group I T) : T ⊆ I := by
  induction h with
  | refl => exact subset_rfl
  | tail _ step ih => exact step.subset.trans ih

theorem Demotion.keeps (h : Demotion group I T) (closed : Closed group S) (inside : S ⊆ I) : S ⊆ T := by
  induction h with
  | refl => exact inside
  | tail _ step ih => exact step.keeps closed ih

/-- A closed end of a demotion is the largest closed subset of its start. -/
theorem Demotion.isGreatest (h : Demotion group I T) (closed : Closed group T) :
    IsGreatest { S | S ⊆ I ∧ Closed group S } T :=
  ⟨⟨h.subset, closed⟩, fun _ hS => h.keeps hS.2 hS.1⟩

end ClosedSubsets
