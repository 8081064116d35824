import Mathlib.Data.List.DropRight
import Mathlib.Data.List.TakeWhile

/-!
# Pieces joined by a mark

A piece is not empty and does not hold the mark. Pieces joined by the mark can be split again, at every
mark, at two marks in a row where there are such, or at the last mark.
-/

namespace JoinedTexts

variable {α : Type*} {c : α} {l m p : List α} {ls rs : List (List α)}

/-- The pieces with the mark between them. -/
def join (c : α) (ls : List (List α)) : List α := [c].intercalate ls

/-- A part between marks. -/
structure IsPiece (c : α) (p : List α) : Prop where
  nonempty : p ≠ []
  unmarked : c ∉ p

@[simp] theorem join_nil : join c [] = [] := rfl

@[simp] theorem join_singleton : join c [p] = p := by simp [join]

theorem join_cons_cons (p q : List α) : join c (p :: q :: ls) = p ++ c :: join c (q :: ls) := by
  simp [join, List.intercalate]

theorem join_cons (nonempty : ls ≠ []) : join c (p :: ls) = p ++ c :: join c ls := by
  obtain ⟨q, ls, rfl⟩ := List.exists_cons_of_ne_nil nonempty
  exact join_cons_cons p q

/-- The pieces with the mark after each. -/
def ends (c : α) (ls : List (List α)) : List α := ls.flatMap (· ++ [c])

theorem join_concat (p : List α) : join c (ls ++ [p]) = ends c ls ++ p := by
  induction ls with
  | nil => simp [ends]
  | cons q ls ih =>
      rw [List.cons_append, join_cons (by simp), ih]
      simp [ends]

theorem join_concat_two (p q : List α) : join c (ls ++ [p, q]) = ends c ls ++ p ++ c :: q := by
  have two : ls ++ [p, q] = (ls ++ [p]) ++ [q] := by simp
  rw [two, join_concat]
  simp [ends]

theorem ends_eq (nonempty : ls ≠ []) : ends c ls = join c ls ++ [c] := by
  obtain ⟨front, p, rfl⟩ := (List.eq_nil_or_concat ls).resolve_left nonempty
  rw [List.concat_eq_append, join_concat]
  simp [ends]

theorem mem_join {a : α} (h : a ∈ join c ls) : a = c ∨ ∃ p ∈ ls, a ∈ p := by
  by_cases empty : ls = []
  · subst empty
    cases h
  · have mem : a ∈ ends c ls := by
      rw [ends_eq empty]
      exact List.mem_append_left _ h
    obtain ⟨p, there, inside⟩ := List.mem_flatMap.mp mem
    obtain own | mark := List.mem_append.mp inside
    · exact .inr ⟨p, there, own⟩
    · exact .inl (List.mem_singleton.mp mark)

theorem map_join {β : Type*} (f : α → β) (ls : List (List α)) :
    (join c ls).map f = join (f c) (ls.map (List.map f)) := by
  obtain rfl | ⟨front, p, rfl⟩ := List.eq_nil_or_concat ls
  · rfl
  · simp [List.concat_eq_append, join_concat, ends, List.map_flatMap, List.flatMap_map]

theorem modifyHead_nil_append (ls : List (List α)) : ls.modifyHead ([] ++ ·) = ls := by
  cases ls <;> rfl

/-- What follows the last mark. -/
def afterLast [DecidableEq α] (c : α) (l : List α) : List α := l.rtakeWhile (· ≠ c)

/-- What precedes it, with the mark. -/
def throughLast [DecidableEq α] (c : α) (l : List α) : List α := l.rdropWhile (· ≠ c)

/-- The text between marks in a row. -/
def splitTwice [DecidableEq α] (c : α) : List α → List (List α)
  | [] => [[]]
  | [a] => [[a]]
  | a :: b :: rest =>
      if a = c ∧ b = c then [] :: splitTwice c rest else (splitTwice c (b :: rest)).modifyHead (a :: ·)

section

variable [DecidableEq α]

theorem afterLast_append (unmarked : c ∉ p) : afterLast c (l ++ c :: p) = p := by
  have all : ∀ a ∈ p.reverse, decide (a ≠ c) = true := by
    intro a mem
    have other : a ≠ c := fun eq => unmarked (eq ▸ List.mem_reverse.mp mem)
    exact decide_eq_true other
  rw [afterLast, List.rtakeWhile, List.reverse_append, List.reverse_cons, List.append_assoc,
    List.takeWhile_append_of_pos all]
  simp

theorem throughLast_append (unmarked : c ∉ p) : throughLast c (l ++ c :: p) = l ++ [c] := by
  have all : ∀ a ∈ p.reverse, decide (a ≠ c) = true := by
    intro a mem
    have other : a ≠ c := fun eq => unmarked (eq ▸ List.mem_reverse.mp mem)
    exact decide_eq_true other
  rw [throughLast, List.rdropWhile, List.reverse_append, List.reverse_cons, List.append_assoc,
    List.dropWhile_append_of_pos all]
  simp

theorem splitTwice_cons {a : α} (other : a ≠ c) :
    splitTwice c (a :: l) = (splitTwice c l).modifyHead (a :: ·) := by
  cases l with
  | nil => rfl
  | cons b l => rw [splitTwice, if_neg fun both => other both.1]

theorem splitTwice_append_of_unmarked (unmarked : c ∉ p) :
    splitTwice c (p ++ l) = (splitTwice c l).modifyHead (p ++ ·) := by
  induction p with
  | nil => exact (modifyHead_nil_append _).symm
  | cons a p ih =>
      rw [List.mem_cons, not_or] at unmarked
      rw [List.cons_append, splitTwice_cons (Ne.symm unmarked.1), ih unmarked.2]
      cases splitTwice c l <;> rfl

/-- A mark before a piece is no split. -/
theorem splitTwice_mark (piece : IsPiece c p) :
    splitTwice c (c :: (p ++ l)) = (splitTwice c (p ++ l)).modifyHead (c :: ·) := by
  obtain ⟨a, p, rfl⟩ := List.exists_cons_of_ne_nil piece.nonempty
  have other : a ≠ c := fun eq => piece.unmarked (eq ▸ List.mem_cons_self)
  rw [List.cons_append, splitTwice, if_neg fun both => other both.2]

theorem splitTwice_join_append (pieces : ∀ p ∈ ls, IsPiece c p) :
    splitTwice c (join c ls ++ l) = (splitTwice c l).modifyHead (join c ls ++ ·) := by
  induction ls with
  | nil => exact (modifyHead_nil_append _).symm
  | cons p ls ih =>
      have first := pieces p List.mem_cons_self
      have rest := ih fun q mem => pieces q (List.mem_cons_of_mem p mem)
      cases ls with
      | nil => rw [join_singleton, splitTwice_append_of_unmarked first.unmarked]
      | cons q ls =>
          have second := pieces q (List.mem_cons_of_mem p List.mem_cons_self)
          obtain ⟨tail, joined⟩ : ∃ tail, join c (q :: ls) = q ++ tail := by
            cases ls with
            | nil => exact ⟨[], by simp⟩
            | cons r ls => exact ⟨_, join_cons_cons q r⟩
          rw [join_cons_cons, List.append_assoc, splitTwice_append_of_unmarked first.unmarked, List.cons_append]
          rw [joined, List.append_assoc] at rest ⊢
          rw [splitTwice_mark second, rest]
          cases splitTwice c l <;> simp

theorem splitTwice_join (pieces : ∀ p ∈ ls, IsPiece c p) : splitTwice c (join c ls) = [join c ls] := by
  have split := splitTwice_join_append (l := []) pieces
  simpa [splitTwice] using split

/-- Pieces with two marks in a row among them are split there. -/
theorem splitTwice_two (left : ∀ p ∈ ls, IsPiece c p) (right : ∀ p ∈ rs, IsPiece c p) :
    splitTwice c (join c ls ++ c :: c :: join c rs) = [join c ls, join c rs] := by
  rw [splitTwice_join_append left, splitTwice, if_pos ⟨rfl, rfl⟩, splitTwice_join right]
  simp

/-- The pieces again; the empty text has none. -/
theorem filter_splitOn_join (pieces : ∀ p ∈ ls, IsPiece c p) : ((join c ls).splitOn c).filter (· ≠ []) = ls := by
  have kept : ls.filter (· ≠ []) = ls :=
    List.filter_eq_self.mpr fun p mem => decide_eq_true (pieces p mem).nonempty
  by_cases empty : ls = []
  · subst empty
    simp
  · rw [join, List.splitOn_intercalate c (fun p mem => (pieces p mem).unmarked) empty, kept]

end

end JoinedTexts
