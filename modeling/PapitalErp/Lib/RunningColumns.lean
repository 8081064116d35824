import Mathlib

/-!
# Running columns

A statement of account shows, beside each entry, the total after it. It is read
in parts: a range opens with what the entries before it lead to, and its entries
arrive one page at a time. The rules here say that the parts lead where the whole
statement leads.
-/

namespace RunningColumns

variable {α β : Type*}

/-! ## The last value of a column -/

/-- What a column shows last, or the opening value if there is no entry. -/
def closing (column : α → β) (opening : β) (l : List α) : β :=
  (l.getLast?.map column).getD opening

@[simp] theorem closing_nil (column : α → β) (opening : β) : closing column opening [] = opening :=
  rfl

@[simp] theorem closing_concat (column : α → β) (opening : β) (l : List α) (x : α) :
    closing column opening (l ++ [x]) = column x := by
  simp [closing]

/-- The second part of a statement opens with what the first part closes with. -/
theorem closing_append (column : α → β) (opening : β) (a b : List α) :
    closing column opening (a ++ b) = closing column (closing column opening a) b := by
  induction b using List.reverseRecOn with
  | nil => rw [List.append_nil, closing_nil]
  | append_singleton b x _ => rw [← List.append_assoc, closing_concat, closing_concat]

/-- A part of what a column shows is a column of its own. -/
theorem map_closing {γ : Type*} (part : β → γ) (column : α → β) (opening : β) (l : List α) :
    part (closing column opening l) = closing (part ∘ column) (part opening) l := by
  unfold closing
  cases l.getLast? <;> rfl

/-! ## A running total -/

section Total

variable {M : Type*} [AddMonoid M] {amount column : α → M} {total : M}

/-- Each entry shows the total before it plus its own amount. -/
def RunsFrom (amount column : α → M) : M → List α → Prop
  | _, [] => True
  | total, x :: rest => column x = total + amount x ∧ RunsFrom amount column (total + amount x) rest

theorem runsFrom_append {a b : List α} :
    RunsFrom amount column total (a ++ b) ↔
      RunsFrom amount column total a ∧
        RunsFrom amount column (total + (a.map amount).sum) b := by
  induction a generalizing total with
  | nil => simp [RunsFrom]
  | cons x rest ih => simp [RunsFrom, ih, and_assoc, add_assoc]

/-- The last entry shows the opening and the amounts of all entries. -/
theorem RunsFrom.closing_eq {l : List α} (h : RunsFrom amount column total l) :
    closing column total l = total + (l.map amount).sum := by
  induction l generalizing total with
  | nil => simp
  | cons x rest ih =>
      rw [← List.singleton_append, closing_append, ← List.nil_append [x], closing_concat, h.1,
        ih h.2]
      simp [add_assoc]

end Total

/-! ## A range of a sorted statement -/

/-- Entries before a range come first, so the entries up to the end of the range
are those before it and then those in it. -/
theorem filter_range {before within : α → Bool} {l : List α}
    (sorted : l.Pairwise fun a b => within a = true → before b = false)
    (apart : ∀ a ∈ l, before a = true → within a = false) :
    l.filter (fun a => before a || within a) = l.filter before ++ l.filter within := by
  induction l with
  | nil => rfl
  | cons x rest ih =>
      rw [List.pairwise_cons] at sorted
      have tail := ih sorted.2 fun a ha => apart a (List.mem_cons_of_mem _ ha)
      by_cases hbefore : before x = true
      · have out := apart x List.mem_cons_self hbefore
        simp [hbefore, out, tail]
      · by_cases hwithin : within x = true
        · have none_before : rest.filter before = [] :=
            List.filter_eq_nil_iff.mpr fun b hb => by simp [sorted.1 b hb hwithin]
          rw [none_before, List.nil_append] at tail
          simp [hbefore, hwithin, tail, none_before]
        · simp [hbefore, hwithin, tail]

/-! ## Pages -/

/-- `l.slice((page - 1) * limit, page * limit)`. -/
def pageOf (limit page : ℕ) (l : List α) : List α := (l.drop ((page - 1) * limit)).take limit

/-- The first pages, one after the other, are the beginning of the list. -/
theorem pages_eq_take (limit count : ℕ) (l : List α) :
    ((List.range count).flatMap fun page => pageOf limit (page + 1) l) =
      l.take (count * limit) := by
  induction count with
  | zero => simp
  | succ count ih =>
      rw [List.range_succ, List.flatMap_append, ih, Nat.succ_mul, List.take_add]
      simp [pageOf]

end RunningColumns
