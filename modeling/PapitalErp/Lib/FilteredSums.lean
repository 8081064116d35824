import Mathlib

/-!
# Sums over the rows of a table that meet a condition

`sumWhere p f rows` is what `SELECT SUM(f) … WHERE p` reads. A table changes in
two ways: rows are appended, and some of its rows are rewritten in place. The
rules below say what either does to such a sum.
-/

namespace FilteredSums

variable {α β : Type*} [AddCommMonoid β]

/-- The sum of `f` over the rows that meet `p`. -/
def sumWhere (p : α → Bool) (f : α → β) (rows : List α) : β :=
  ((rows.filter p).map f).sum

variable {p q : α → Bool} {f g : α → β} {rows : List α}

@[simp] theorem sumWhere_nil : sumWhere p f [] = 0 := rfl

@[simp] theorem sumWhere_cons (a : α) :
    sumWhere p f (a :: rows) = (if p a then f a else 0) + sumWhere p f rows := by
  unfold sumWhere
  by_cases h : p a <;> simp [h]

@[simp] theorem sumWhere_append (rows' : List α) :
    sumWhere p f (rows ++ rows') = sumWhere p f rows + sumWhere p f rows' := by
  simp [sumWhere]

/-- Conditions and values that agree on the rows give the same sum. -/
theorem sumWhere_congr (hp : ∀ a ∈ rows, p a = q a)
    (hf : ∀ a ∈ rows, p a = true → f a = g a) : sumWhere p f rows = sumWhere q g rows := by
  induction rows with
  | nil => rfl
  | cons a rows ih =>
      have tail := ih (fun b hb => hp b (List.mem_cons_of_mem a hb))
        (fun b hb => hf b (List.mem_cons_of_mem a hb))
      rw [sumWhere_cons, sumWhere_cons, tail, ← hp a List.mem_cons_self]
      split
      · rw [hf a List.mem_cons_self ‹_›]
      · rfl

/-- Conditions may differ on rows whose value is nothing. -/
theorem sumWhere_eq_of_terms (h : ∀ a ∈ rows, (if p a then f a else 0) = if q a then g a else 0) :
    sumWhere p f rows = sumWhere q g rows := by
  induction rows with
  | nil => rfl
  | cons a rows ih =>
      rw [sumWhere_cons, sumWhere_cons, h a List.mem_cons_self,
        ih fun b hb => h b (List.mem_cons_of_mem a hb)]

theorem sumWhere_eq_zero (h : ∀ a ∈ rows, p a = false) : sumWhere p f rows = 0 := by
  induction rows with
  | nil => rfl
  | cons a rows ih =>
      rw [sumWhere_cons, h a List.mem_cons_self, ih fun b hb => h b (List.mem_cons_of_mem a hb)]
      simp

/-- Rewriting rows in place moves the condition and the value through the rewriting. -/
theorem sumWhere_map {γ : Type*} (update : γ → α) (rows : List γ) :
    sumWhere p f (rows.map update) = sumWhere (p ∘ update) (f ∘ update) rows := by
  induction rows with
  | nil => rfl
  | cons a rows ih => simp [ih]

theorem sumWhere_filter : sumWhere p f (rows.filter q) = sumWhere (fun a => q a && p a) f rows := by
  simp [sumWhere, List.filter_filter, Bool.and_comm]

theorem sumWhere_perm {rows' : List α} (h : rows.Perm rows') :
    sumWhere p f rows = sumWhere p f rows' :=
  ((h.filter p).map f).sum_eq

theorem sumWhere_true (f : α → β) (rows : List α) :
    sumWhere (fun _ => true) f rows = (rows.map f).sum := by
  simp [sumWhere]

theorem sumWhere_flatMap {γ : Type*} (g : γ → List α) (rows : List γ) :
    sumWhere p f (rows.flatMap g) = (rows.map fun c => sumWhere p f (g c)).sum := by
  induction rows with
  | nil => rfl
  | cons c rows ih => rw [List.flatMap_cons, sumWhere_append, ih, List.map_cons, List.sum_cons]

theorem sum_map_flatMap {γ : Type*} (g : γ → List α) (rows : List γ) :
    ((rows.flatMap g).map f).sum = (rows.map fun c => ((g c).map f).sum).sum := by
  simp only [← sumWhere_true, sumWhere_flatMap]

theorem sum_map_filterMap {γ : Type*} (g : γ → Option α) (rows : List γ) :
    ((rows.filterMap g).map f).sum = (rows.map fun c => (g c).elim 0 f).sum := by
  induction rows with
  | nil => rfl
  | cons c rows ih =>
      rw [List.filterMap_cons, List.map_cons, List.sum_cons, ← ih]
      cases g c <;> simp

theorem sum_map_filter (f : α → β) (rows : List α) :
    ((rows.filter p).map f).sum = (rows.map fun a => if p a then f a else 0).sum := by
  induction rows with
  | nil => rfl
  | cons a rows ih => rw [← sumWhere, sumWhere_cons, List.map_cons, List.sum_cons, ← ih, sumWhere]

/-- Two conditions that no row meets together. -/
theorem sumWhere_add_sumWhere (apart : ∀ a ∈ rows, (p a && q a) = false) :
    sumWhere p f rows + sumWhere q f rows = sumWhere (fun a => p a || q a) f rows := by
  induction rows with
  | nil => simp
  | cons a rows ih =>
      have here : (if p a then f a else 0) + (if q a then f a else 0) =
          if p a || q a then f a else 0 := by
        have not_both := apart a List.mem_cons_self
        cases hp : p a <;> cases hq : q a <;> simp_all
      rw [sumWhere_cons, sumWhere_cons, sumWhere_cons, add_add_add_comm, here,
        ih fun b mem => apart b (List.mem_cons_of_mem a mem)]

theorem sum_map_sub {G : Type*} [AddCommGroup G] (rows : List α) (f g : α → G) :
    (rows.map fun a => f a - g a).sum = (rows.map f).sum - (rows.map g).sum := by
  induction rows with
  | nil => simp
  | cons a rows ih =>
      rw [List.map_cons, List.sum_cons, ih, List.map_cons, List.sum_cons, List.map_cons,
        List.sum_cons]
      abel

/-- What goes in less what goes out, row by row. -/
theorem sumWhere_sub_sumWhere {G : Type*} [AddCommGroup G] {f : α → G} (p q : α → Bool)
    (rows : List α) :
    sumWhere p f rows - sumWhere q f rows =
      (rows.map fun a => (if p a then f a else 0) - if q a then f a else 0).sum := by
  induction rows with
  | nil => simp
  | cons a rows ih =>
      rw [sumWhere_cons, sumWhere_cons, List.map_cons, List.sum_cons, ← ih]
      abel

/-- A table's sum is the sum of its groups. -/
theorem sum_sumWhere_key {κ : Type*} [DecidableEq κ] {key : α → κ} {keys : List κ}
    (nodup : keys.Nodup) (cover : ∀ a ∈ rows, key a ∈ keys) :
    (keys.map fun k => sumWhere (fun a => decide (key a = k)) f rows).sum =
      (rows.map f).sum := by
  induction rows with
  | nil => simp
  | cons a rows ih =>
      have one : (keys.map fun k => if key a = k then f a else 0).sum = f a := by
        have mem := cover a List.mem_cons_self
        rw [← List.sum_toFinset _ nodup, Finset.sum_ite_eq, if_pos (List.mem_toFinset.mpr mem)]
      have rest := ih fun b hb => cover b (List.mem_cons_of_mem a hb)
      simp only [sumWhere_cons, decide_eq_true_eq, List.sum_map_add, one, rest, List.map_cons,
        List.sum_cons]

/-- The same for a filtered sum: each group's rows are summed under the condition. -/
theorem sum_sumWhere_groups {κ : Type*} [DecidableEq κ] {key : α → κ} {keys : List κ}
    (nodup : keys.Nodup) (cover : ∀ a ∈ rows, key a ∈ keys) :
    (keys.map fun k => sumWhere p f (rows.filter fun a => decide (key a = k))).sum =
      sumWhere p f rows := by
  have swap : ∀ k, sumWhere p f (rows.filter fun a => decide (key a = k)) =
      sumWhere (fun a => decide (key a = k)) f (rows.filter p) := by
    intro k
    rw [sumWhere_filter, sumWhere_filter]
    exact sumWhere_congr (fun a _ => Bool.and_comm _ _) fun _ _ _ => rfl
  simp only [swap]
  exact sum_sumWhere_key nodup fun a ha => cover a (List.mem_of_mem_filter ha)

/-- A table is put together from the rows of each value of a column. -/
theorem flatMap_filter_perm {κ : Type*} [DecidableEq κ] {key : α → κ} {values : List κ}
    (nodup : values.Nodup) (cover : ∀ a ∈ rows, key a ∈ values) :
    (values.flatMap fun v => rows.filter fun a => decide (key a = v)).Perm rows := by
  induction values generalizing rows with
  | nil =>
      have empty : rows = [] :=
        List.eq_nil_iff_forall_not_mem.mpr fun a ha => List.not_mem_nil (cover a ha)
      rw [empty, List.flatMap_nil]
  | cons v values ih =>
      obtain ⟨fresh, nodup⟩ := List.nodup_cons.mp nodup
      have others : ∀ a ∈ rows.filter fun a => !decide (key a = v), key a ∈ values := by
        intro a ha
        obtain ⟨member, other⟩ := List.mem_filter.mp ha
        exact (List.mem_cons.mp (cover a member)).resolve_left (by simpa using other)
      have rest := ih nodup others
      have same : (values.flatMap fun w => (rows.filter fun a => !decide (key a = v)).filter
          fun a => decide (key a = w)) =
            values.flatMap fun w => rows.filter fun a => decide (key a = w) := by
        refine List.flatMap_congr fun w hw => ?_
        rw [List.filter_filter]
        refine List.filter_congr fun a _ => ?_
        have apart : w ≠ v := fun h => fresh (h ▸ hw)
        by_cases h : key a = w <;> simp [h, apart]
      rw [List.flatMap_cons, ← same]
      exact (rest.append_left _).trans (List.filter_append_perm _ rows)

/-- Two sums whose terms are close are close. -/
theorem abs_sum_sub_sum_le {G : Type*} [AddCommGroup G] [LinearOrder G] [IsOrderedAddMonoid G]
    {f g b : α → G} (h : ∀ a ∈ rows, |f a - g a| ≤ b a) :
    |(rows.map f).sum - (rows.map g).sum| ≤ (rows.map b).sum := by
  rw [← sum_map_sub]
  induction rows with
  | nil => simp
  | cons a rows ih =>
      rw [List.map_cons, List.sum_cons, List.map_cons, List.sum_cons]
      exact (abs_add_le _ _).trans
        (add_le_add (h a List.mem_cons_self) (ih fun c hc => h c (List.mem_cons_of_mem a hc)))

/-! ## Rows found by their key -/

section Keyed

variable {κ : Type*} {key : α → κ} {a b : α}

/-- Rows with distinct keys: a key is of one row. -/
theorem eq_of_key_eq (apart : rows.Pairwise fun b c => key b ≠ key c) (ha : a ∈ rows)
    (hb : b ∈ rows) (same : key a = key b) : a = b := by
  by_contra different
  have symmetric : Std.Symm fun b c : α => key b ≠ key c := ⟨fun _ _ => Ne.symm⟩
  exact apart.forall ha hb different same

variable [DecidableEq κ] {update : α → α} {k : κ}

theorem key_update (keeps : ∀ b, key (update b) = key b) (b : α) :
    key (if key b = k then update b else b) = key b := by
  split_ifs
  · exact keeps b
  · rfl

/-- Rewriting rows in place keeps their keys distinct. -/
theorem pairwise_update (apart : rows.Pairwise fun b c => key b ≠ key c)
    (keeps : ∀ b, key (update b) = key b) :
    (rows.map fun b => if key b = k then update b else b).Pairwise fun b c => key b ≠ key c := by
  refine List.pairwise_map.mpr (apart.imp ?_)
  intro b c apart
  rw [key_update keeps, key_update keeps]
  exact apart

/-- A row of another key stays. -/
theorem mem_update_of_ne (member : a ∈ rows) (other : key a ≠ k) :
    a ∈ rows.map fun b => if key b = k then update b else b :=
  List.mem_map.mpr ⟨a, member, if_neg other⟩

end Keyed

/-- One row rewritten, found by its key: its old share goes and its new one comes. -/
theorem sumWhere_update {κ : Type*} [DecidableEq κ] {key : α → κ} {a : α} (update : α → α)
    (apart : rows.Pairwise fun b c => key b ≠ key c) (member : a ∈ rows) :
    sumWhere p f (rows.map fun b => if key b = key a then update b else b) +
        (if p a then f a else 0) =
      sumWhere p f rows + (if p (update a) then f (update a) else 0) := by
  induction rows with
  | nil => exact absurd member List.not_mem_nil
  | cons b rows ih =>
      rw [List.pairwise_cons] at apart
      obtain ⟨first, apart⟩ := apart
      rw [List.map_cons, sumWhere_cons, sumWhere_cons]
      rcases List.mem_cons.mp member with rfl | later
      · have same : (rows.map fun b => if key b = key a then update b else b) = rows := by
          conv_rhs => rw [← List.map_id rows]
          refine List.map_congr_left fun c hc => ?_
          rw [if_neg (first c hc).symm, id]
        rw [same, if_pos rfl]
        abel
      · rw [if_neg (first a later), add_assoc, ih apart later, add_assoc]

theorem sumWhere_one (p : α → Bool) (rows : List α) :
    sumWhere p (fun _ => (1 : ℕ)) rows = rows.countP p := by
  simp [sumWhere, List.countP_eq_length_filter]

/-- One row rewritten, found by its key: what counts of it is counted anew. -/
theorem countP_update {κ : Type*} [DecidableEq κ] {key : α → κ} {a : α} (p : α → Bool) (update : α → α)
    (apart : rows.Pairwise fun b c => key b ≠ key c) (member : a ∈ rows) :
    (rows.map fun b => if key b = key a then update b else b).countP p + (if p a then 1 else 0) =
      rows.countP p + if p (update a) then 1 else 0 := by
  have replaced := sumWhere_update (p := p) (f := fun _ => (1 : ℕ)) update apart member
  rwa [sumWhere_one, sumWhere_one] at replaced

/-- At most one row of the list meets the condition: the sum is its value. -/
theorem sumWhere_of_unique {a : α} (member : a ∈ rows) (meets : p a = true)
    (nodup : rows.Pairwise fun b c => ¬(p b = true ∧ p c = true)) :
    sumWhere p f rows = f a := by
  induction rows with
  | nil => exact absurd member List.not_mem_nil
  | cons b rows ih =>
      rw [List.pairwise_cons] at nodup
      obtain ⟨apart, nodup⟩ := nodup
      rw [sumWhere_cons]
      rcases List.mem_cons.mp member with rfl | later
      · rw [if_pos meets, sumWhere_eq_zero, add_zero]
        intro c hc
        simpa [meets] using apart c hc
      · have other : ¬p b = true := fun hb => apart a later ⟨hb, meets⟩
        rw [if_neg other, ih later nodup, zero_add]

end FilteredSums
