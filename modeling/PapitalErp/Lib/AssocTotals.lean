import Mathlib

/-!
# Keyed amounts and their total

A table with one amount per key, as a list of pairs. A missing key reads as
zero, a write replaces the first row of its key or appends one. The total moves
by exactly the difference between the written and the replaced amount, with no
assumption about repeated keys.
-/

namespace AssocTotals

variable {κ M : Type*}

/-- The amount of `k`, zero when the table has no row for it. -/
def get [DecidableEq κ] [Zero M] : List (κ × M) → κ → M
  | [], _ => 0
  | row :: rest, k => if row.1 = k then row.2 else get rest k

/-- Replace the amount of `k`, or append a row for it. -/
def set [DecidableEq κ] : List (κ × M) → κ → M → List (κ × M)
  | [], k, v => [(k, v)]
  | row :: rest, k, v => if row.1 = k then (k, v) :: rest else row :: set rest k v

/-- The sum of all amounts. -/
def total [AddMonoid M] (l : List (κ × M)) : M := (l.map Prod.snd).sum

@[simp] theorem total_nil [AddMonoid M] : total ([] : List (κ × M)) = 0 := rfl

@[simp] theorem total_cons [AddMonoid M] (row : κ × M) (rest : List (κ × M)) :
    total (row :: rest) = row.2 + total rest := by
  simp [total]

variable [DecidableEq κ]

@[simp] theorem get_set_self [Zero M] (l : List (κ × M)) (k : κ) (v : M) : get (set l k v) k = v := by
  induction l with
  | nil => simp [get, set]
  | cons row rest ih =>
      by_cases h : row.1 = k
      · simp [get, set, h]
      · simp [get, set, h, ih]

theorem get_set_of_ne [Zero M] (l : List (κ × M)) {k k' : κ} (v : M) (hne : k' ≠ k) :
    get (set l k v) k' = get l k' := by
  induction l with
  | nil => simp [get, set, hne.symm]
  | cons row rest ih =>
      by_cases h : row.1 = k
      · simp [get, set, h, hne.symm]
      · by_cases h' : row.1 = k' <;> simp [get, set, h, h', ih, hne]

theorem get_set [Zero M] (l : List (κ × M)) (k k' : κ) (v : M) :
    get (set l k v) k' = if k' = k then v else get l k' := by
  split
  · rename_i h
    rw [h, get_set_self]
  · exact get_set_of_ne l v ‹_›

theorem keys_set (l : List (κ × M)) (k k' : κ) (v : M) :
    k' ∈ (set l k v).map Prod.fst ↔ k' = k ∨ k' ∈ l.map Prod.fst := by
  induction l with
  | nil => simp [set]
  | cons row rest ih =>
      by_cases h : row.1 = k
      · simp [set, h]
      · simp only [set, h, if_false, List.map_cons, List.mem_cons, ih]
        tauto

/-- A key of the table is there with the amount a read returns. -/
theorem mem_of_key [Zero M] {l : List (κ × M)} {k : κ} (h : k ∈ l.map Prod.fst) :
    (k, get l k) ∈ l := by
  induction l with
  | nil => simp at h
  | cons row rest ih =>
      by_cases hk : row.1 = k
      · simp [get, ← hk]
      · rw [List.map_cons, List.mem_cons] at h
        simp only [get, hk, if_false]
        exact List.mem_cons_of_mem _ (ih (h.resolve_left (Ne.symm hk)))

/-- With distinct keys every row is what a read returns. -/
theorem get_of_mem [Zero M] {l : List (κ × M)} (distinct : (l.map Prod.fst).Nodup) {row : κ × M}
    (h : row ∈ l) : get l row.1 = row.2 := by
  induction l with
  | nil => simp at h
  | cons head rest ih =>
      rw [List.map_cons, List.nodup_cons] at distinct
      rcases List.mem_cons.mp h with rfl | h
      · simp [get]
      · have : head.1 ≠ row.1 := by
          rintro heq
          exact distinct.1 (heq ▸ List.mem_map_of_mem h)
        simp [get, this, ih distinct.2 h]

theorem nodup_set {l : List (κ × M)} (distinct : (l.map Prod.fst).Nodup) (k : κ) (v : M) :
    ((set l k v).map Prod.fst).Nodup := by
  induction l with
  | nil => simp [set]
  | cons row rest ih =>
      rw [List.map_cons, List.nodup_cons] at distinct
      by_cases h : row.1 = k
      · simp only [set, h, if_true, List.map_cons, List.nodup_cons]
        exact h ▸ distinct
      · simp only [set, h, if_false, List.map_cons, List.nodup_cons]
        refine ⟨fun hmem => ?_, ih distinct.2⟩
        rcases (keys_set rest k row.1 v).mp hmem with heq | hmem
        · exact h heq
        · exact distinct.1 hmem

/-- A write moves the total by what it replaced. -/
theorem total_set [AddCommGroup M] (l : List (κ × M)) (k : κ) (v : M) :
    total (set l k v) = total l - get l k + v := by
  induction l with
  | nil => simp [get, set]
  | cons row rest ih =>
      by_cases h : row.1 = k
      · simp only [set, get, h, if_true, total_cons]
        abel
      · simp only [set, get, h, if_false, total_cons, ih]
        abel

/-- A read of a table without negative amounts is at most the total. -/
theorem get_le_total [AddCommMonoid M] [PartialOrder M] [IsOrderedAddMonoid M] {l : List (κ × M)}
    (nonneg : ∀ row ∈ l, 0 ≤ row.2) (k : κ) : get l k ≤ total l := by
  induction l with
  | nil => exact le_rfl
  | cons row rest ih =>
      rw [List.forall_mem_cons] at nonneg
      have rest_nonneg : 0 ≤ total rest := by
        refine List.sum_nonneg fun x hx => ?_
        obtain ⟨r, hr, rfl⟩ := List.mem_map.mp hx
        exact nonneg.2 r hr
      rw [total_cons, get]
      split
      · exact le_add_of_nonneg_right rest_nonneg
      · exact (ih nonneg.2).trans (le_add_of_nonneg_left nonneg.1)

theorem mem_set {l : List (κ × M)} {k : κ} {v : M} {row : κ × M} (h : row ∈ set l k v) :
    row = (k, v) ∨ row ∈ l := by
  induction l with
  | nil => simpa [set] using h
  | cons head rest ih =>
      by_cases hk : head.1 = k
      · simp only [set, hk, if_true, List.mem_cons] at h
        rcases h with h | h
        · exact .inl h
        · exact .inr (List.mem_cons_of_mem _ h)
      · simp only [set, hk, if_false, List.mem_cons] at h
        rcases h with h | h
        · exact .inr (h ▸ List.mem_cons_self)
        · exact (ih h).imp_right (List.mem_cons_of_mem _)

/-- What holds of zero and of every amount in the table holds of every read. -/
theorem get_of_forall [Zero M] {P : M → Prop} (h0 : P 0) {l : List (κ × M)}
    (h : ∀ row ∈ l, P row.2) (k : κ) : P (get l k) := by
  induction l with
  | nil => exact h0
  | cons row rest ih =>
      by_cases hk : row.1 = k
      · simpa [get, hk] using h row List.mem_cons_self
      · simpa [get, hk] using ih fun r hr => h r (List.mem_cons_of_mem _ hr)

end AssocTotals
