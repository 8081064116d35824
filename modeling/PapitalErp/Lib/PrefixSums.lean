import Mathlib

/-!
# Running balances

A ledger read in order is never overdrawn when every prefix of its amounts has
a non-negative sum. These are the rules for splitting such a list, for putting
an entry into the middle of it, and for a list that is the sorted form of a set
of entries: a sort is determined by its members, so adding or removing entries
can be described on the unsorted side.
-/

namespace PrefixSums

variable {α : Type*}

/-- No prefix of the ledger is overdrawn. -/
def NeverNegative (f : α → ℚ) (l : List α) : Prop :=
  ∀ p, p <+: l → 0 ≤ (p.map f).sum

theorem neverNegative_nil (f : α → ℚ) : NeverNegative f [] := by
  intro p hp
  rw [List.prefix_nil.mp hp]
  simp

theorem NeverNegative.sum_nonneg {f : α → ℚ} {l : List α} (h : NeverNegative f l) :
    0 ≤ (l.map f).sum :=
  h l (List.prefix_refl l)

/-- A prefix of a concatenation ends in the first part, or contains it. -/
theorem neverNegative_append {f : α → ℚ} {a b : List α} :
    NeverNegative f (a ++ b) ↔
      NeverNegative f a ∧ ∀ p, p <+: b → 0 ≤ (a.map f).sum + (p.map f).sum := by
  constructor
  · intro h
    refine ⟨fun p hp => h p (hp.trans (List.prefix_append a b)), fun p hp => ?_⟩
    have := h (a ++ p) ((List.prefix_append_right_inj a).mpr hp)
    simpa using this
  · rintro ⟨first, second⟩ p hp
    rcases List.prefix_or_prefix_of_prefix hp (List.prefix_append a b) with hp' | ⟨q, rfl⟩
    · exact first p hp'
    · simpa using second q ((List.prefix_append_right_inj a).mp hp)

/-- Put an entry into the middle: only the balances from there on must bear it. -/
theorem NeverNegative.insert {f : α → ℚ} {a b : List α} {x : α}
    (h : NeverNegative f (a ++ b))
    (bears : ∀ p, p <+: b → 0 ≤ (a.map f).sum + (p.map f).sum + f x) :
    NeverNegative f (a ++ x :: b) := by
  rw [neverNegative_append] at h ⊢
  obtain ⟨first, second⟩ := h
  refine ⟨first, fun p hp => ?_⟩
  cases p with
  | nil => simpa using second [] List.nil_prefix
  | cons y q =>
      obtain ⟨rfl, hq⟩ := List.cons_prefix_cons.mp hp
      have := bears q hq
      simp only [List.map_cons, List.sum_cons]
      linarith

/-- An entry that brings something in can go anywhere. -/
theorem NeverNegative.insert_of_nonneg {f : α → ℚ} {a b : List α} {x : α}
    (h : NeverNegative f (a ++ b)) (hx : 0 ≤ f x) : NeverNegative f (a ++ x :: b) := by
  refine h.insert fun p hp => ?_
  have := (neverNegative_append.mp h).2 p hp
  linarith

/-! ## Entries taken out -/

theorem sum_filter (keep : α → Bool) (f : α → ℚ) (l : List α) :
    ((l.filter keep).map f).sum = (l.map fun x => if keep x then f x else 0).sum := by
  induction l with
  | nil => rfl
  | cons x rest ih => by_cases h : keep x = true <;> simp [h, ih]

/-- Taking out the one entry of a key takes its amount off the sum. -/
theorem sum_filter_ne_key {κ : Type*} [DecidableEq κ] (key : α → κ) (f : α → ℚ) {l : List α}
    (distinct : (l.map key).Nodup) {x : α} (hx : x ∈ l) :
    ((l.filter fun y => !decide (key y = key x)).map f).sum = (l.map f).sum - f x := by
  induction l with
  | nil => simp at hx
  | cons head rest ih =>
      rw [List.map_cons, List.nodup_cons] at distinct
      rcases List.mem_cons.mp hx with rfl | hx
      · have all : (rest.filter fun y => !decide (key y = key x)) = rest := by
          refine List.filter_eq_self.mpr fun y hy => ?_
          have : key y ≠ key x := fun h => distinct.1 (h ▸ List.mem_map_of_mem hy)
          simpa using this
        simp [all]
      · have apart : key head ≠ key x := fun h => distinct.1 (h ▸ List.mem_map_of_mem hx)
        simp [apart, ih distinct.2 hx, add_sub_assoc]

/-- A ledger without some entries runs like the ledger in which they are zero. -/
theorem neverNegative_filter {keep : α → Bool} {f : α → ℚ} {l : List α}
    (h : NeverNegative (fun x => if keep x then f x else 0) l) :
    NeverNegative f (l.filter keep) := by
  intro p hp
  obtain ⟨q, hq, rfl⟩ := List.prefix_filter_iff.mp hp
  rw [sum_filter]
  exact h q hq

/-- Entries that take something out can be removed anywhere. -/
theorem NeverNegative.filter_of_nonpos {keep : α → Bool} {f : α → ℚ} {l : List α}
    (h : NeverNegative f l) (removed : ∀ x ∈ l, keep x = false → f x ≤ 0) :
    NeverNegative f (l.filter keep) := by
  refine neverNegative_filter fun p hp => (h p hp).trans ?_
  refine List.sum_le_sum fun x hx => ?_
  split
  · exact le_rfl
  · exact removed x (hp.subset hx) (by simpa using ‹¬keep x = true›)

/-! ## Sorted ledgers -/

section Sorted

variable {r : α → α → Prop} [DecidableRel r] [Std.Total r] [IsTrans α r]

/-- The sorted form of `l` is the only sorted list with the same entries, when
no two different entries are tied. -/
theorem insertionSort_unique {l s : List α} (sorted : s.Pairwise r) (perm : l.Perm s)
    (strict : ∀ a ∈ l, ∀ b ∈ l, r a b → r b a → a = b) : l.insertionSort r = s := by
  refine @List.Perm.eq_of_pairwise _ r _ _ ?_ (List.pairwise_insertionSort r l) sorted
    ((List.perm_insertionSort r l).trans perm)
  intro a b ha hb
  exact strict a ((List.mem_insertionSort r).mp ha) b (perm.mem_iff.mpr hb)

/-- Removing entries commutes with sorting. -/
theorem insertionSort_filter (keep : α → Bool) {l : List α}
    (strict : ∀ a ∈ l, ∀ b ∈ l, r a b → r b a → a = b) :
    (l.filter keep).insertionSort r = (l.insertionSort r).filter keep := by
  refine insertionSort_unique ?_ ((List.perm_insertionSort r l).symm.filter keep) ?_
  · exact (List.pairwise_insertionSort r l).filter keep
  · intro a ha b hb
    exact strict a (List.mem_of_mem_filter ha) b (List.mem_of_mem_filter hb)

/-- A new entry goes behind exactly the entries that `before` marks. -/
theorem insertionSort_append_singleton {l : List α} {x : α} (before : α → Bool)
    (strict : ∀ a ∈ l ++ [x], ∀ b ∈ l ++ [x], r a b → r b a → a = b)
    (left : ∀ a ∈ l, before a = true → r a x) (right : ∀ a ∈ l, before a = false → r x a)
    (apart : ∀ a ∈ l, ∀ b ∈ l, before a = true → before b = false → r a b) :
    (l ++ [x]).insertionSort r =
      (l.filter before).insertionSort r ++
        x :: (l.filter fun a => !before a).insertionSort r := by
  refine insertionSort_unique ?_ ?_ strict
  · rw [List.pairwise_append]
    refine ⟨List.pairwise_insertionSort r _, ?_, ?_⟩
    · rw [List.pairwise_cons]
      refine ⟨fun a ha => ?_, List.pairwise_insertionSort r _⟩
      simp only [List.mem_insertionSort, List.mem_filter, Bool.not_eq_true'] at ha
      exact right a ha.1 ha.2
    · intro a ha b hb
      simp only [List.mem_insertionSort, List.mem_filter] at ha
      simp only [List.mem_cons, List.mem_insertionSort, List.mem_filter,
        Bool.not_eq_true'] at hb
      rcases hb with rfl | hb
      · exact left a ha.1 ha.2
      · exact apart a ha.1 b hb.1 ha.2 hb.2
  · have split : l.Perm (l.filter before ++ l.filter fun a => !before a) :=
      (List.filter_append_perm before l).symm
    have sorted : (l.filter before ++ x :: l.filter fun a => !before a).Perm
        ((l.filter before).insertionSort r ++
          x :: (l.filter fun a => !before a).insertionSort r) :=
      (List.perm_insertionSort r _).symm.append ((List.perm_insertionSort r _).symm.cons x)
    exact (List.perm_append_singleton x l).trans
      ((split.cons x).trans (List.perm_middle.symm.trans sorted))

/-- Without the new entry the two parts are the old sorted list. -/
theorem insertionSort_split {l : List α} (before : α → Bool)
    (strict : ∀ a ∈ l, ∀ b ∈ l, r a b → r b a → a = b)
    (apart : ∀ a ∈ l, ∀ b ∈ l, before a = true → before b = false → r a b) :
    l.insertionSort r =
      (l.filter before).insertionSort r ++ (l.filter fun a => !before a).insertionSort r := by
  refine insertionSort_unique ?_ ?_ strict
  · rw [List.pairwise_append]
    refine ⟨List.pairwise_insertionSort r _, List.pairwise_insertionSort r _, ?_⟩
    intro a ha b hb
    simp only [List.mem_insertionSort, List.mem_filter] at ha
    simp only [List.mem_insertionSort, List.mem_filter, Bool.not_eq_true'] at hb
    exact apart a ha.1 b hb.1 ha.2 hb.2
  · exact (List.filter_append_perm before l).symm.trans
      ((List.perm_insertionSort r _).symm.append (List.perm_insertionSort r _).symm)

end Sorted

end PrefixSums
