import Mathlib.Data.List.Basic

/-!
# Logs that only grow

An entry of a log may have to meet a condition on the entries before it, and an
entry may stand until a later one ends it. Both are kept by appending an entry
that meets the condition, and that ends nothing that has to stand.
-/

namespace EventLog

variable {α : Type*} {log : List α} {e x : α}

/-- Every entry meets `P` with the log before it. -/
def Justified (P : List α → α → Prop) (log : List α) : Prop :=
  ∀ earlier e later, log = earlier ++ e :: later → P earlier e

/-- The entry is in the log, and no later one ends it. -/
def Standing (Ends : α → α → Prop) (log : List α) (e : α) : Prop :=
  ∃ earlier later, log = earlier ++ e :: later ∧ ∀ x ∈ later, ¬Ends e x

variable {P : List α → α → Prop} {Ends : α → α → Prop}

theorem justified_nil : Justified P ([] : List α) := by
  intro earlier e later split_
  simp at split_

theorem Justified.append (justified : Justified P log) (next : P log e) : Justified P (log ++ [e]) := by
  intro earlier x later split_
  obtain rfl | ⟨before, last, rfl⟩ := later.eq_nil_or_concat
  · obtain ⟨rfl, same⟩ := List.append_inj' split_ rfl
    obtain rfl := (List.cons.inj same).1
    exact next
  · rw [List.concat_eq_append, ← List.cons_append, ← List.append_assoc] at split_
    exact justified earlier x before (List.append_inj' split_ rfl).1

theorem Standing.mem (standing : Standing Ends log e) : e ∈ log := by
  obtain ⟨earlier, later, rfl, -⟩ := standing
  simp

theorem standing_last : Standing Ends (log ++ [e]) e := ⟨log, [], rfl, fun _ mem => by cases mem⟩

theorem Standing.append (standing : Standing Ends log e) (keeps : ¬Ends e x) :
    Standing Ends (log ++ [x]) e := by
  obtain ⟨earlier, later, rfl, stands⟩ := standing
  refine ⟨earlier, later ++ [x], by simp, fun y mem => ?_⟩
  obtain old | new := List.mem_append.mp mem
  · exact stands y old
  · obtain rfl := List.mem_singleton.mp new
    exact keeps

/-- Entries that end nothing that has to stand. -/
theorem Standing.append_list {new : List α} (standing : Standing Ends log e)
    (keeps : ∀ x ∈ new, ¬Ends e x) : Standing Ends (log ++ new) e := by
  obtain ⟨earlier, later, rfl, stands⟩ := standing
  refine ⟨earlier, later ++ new, by simp, fun y mem => ?_⟩
  exact (List.mem_append.mp mem).elim (stands y) (keeps y)

/-- An entry of the new part stands when nothing after it ends it. -/
theorem standing_of_new {new later : List α} (keeps : ∀ x ∈ later, ¬Ends e x) :
    Standing Ends (log ++ (new ++ e :: later)) e :=
  ⟨log ++ new, later, by simp, keeps⟩

/-- An entry that stands after an append stood before it, unless it is new. -/
theorem Standing.of_append {new : List α} (standing : Standing Ends (log ++ new) e)
    (old : e ∉ new) : Standing Ends log e ∧ ∀ x ∈ new, ¬Ends e x := by
  obtain ⟨earlier, later, split_, stands⟩ := standing
  obtain ⟨rest, rfl, rfl⟩ | ⟨rest, rfl, rest_new⟩ := List.append_eq_append_iff.mp split_
  · exact absurd (List.mem_append_right _ List.mem_cons_self) old
  · cases rest with
    | nil =>
        rw [List.nil_append] at rest_new
        exact absurd (rest_new ▸ List.mem_cons_self) old
    | cons x rest =>
        obtain ⟨rfl, rfl⟩ := List.cons.inj rest_new
        exact ⟨⟨earlier, rest, rfl, fun y mem => stands y (List.mem_append_left _ mem)⟩,
          fun y mem => stands y (List.mem_append_right _ mem)⟩

/-- Each entry of the list meets `P` with the log and the entries before it. -/
def Each (P : List α → α → Prop) : List α → List α → Prop
  | _, [] => True
  | log, x :: new => P log x ∧ Each P (log ++ [x]) new

theorem Justified.append_each {new : List α} (justified : Justified P log) (each : Each P log new) :
    Justified P (log ++ new) := by
  induction new generalizing log with
  | nil => rwa [List.append_nil]
  | cons x new ih =>
      have next := ih (justified.append each.1) each.2
      rwa [List.append_assoc] at next

end EventLog
