import Mathlib.Data.List.DropRight
import Mathlib.Data.List.TakeWhile

/-!
# Text without its outer blanks

What counts as blank differs between systems: `trim blank` removes the characters
that satisfy `blank` from both ends. Text trimmed by the wider notion is left alone
by the narrower one.
-/

namespace TrimmedText

variable {α : Type*} {p q : α → Bool} {l : List α}

/-- Drop from both ends what satisfies `p`. -/
def trimEnds (p : α → Bool) (l : List α) : List α := (l.dropWhile p).rdropWhile p

theorem trimEnds_eq_self (head : ∀ a ∈ l.head?, ¬p a = true)
    (last : ∀ some : l ≠ [], ¬p (l.getLast some) = true) : trimEnds p l = l := by
  have front : l.dropWhile p = l := by
    cases l with
    | nil => rfl
    | cons a l => exact List.dropWhile_cons_of_neg (head a rfl)
  rw [trimEnds, front]
  exact List.rdropWhile_eq_self_iff.mpr last

theorem trimEnds_head : ∀ a ∈ (trimEnds p l).head?, ¬p a = true := by
  intro a mem
  have kept : (trimEnds p l) <+: l.dropWhile p := List.rdropWhile_prefix p _
  have front : a ∈ (l.dropWhile p).head? := by
    obtain ⟨rest, append⟩ := kept
    rw [← append]
    exact List.mem_head?_append_of_mem_head? mem
  have clean := List.head?_dropWhile_not p l
  rw [Option.mem_def.mp front] at clean
  simpa using clean

theorem trimEnds_last (some : trimEnds p l ≠ []) : ¬p ((trimEnds p l).getLast some) = true :=
  List.rdropWhile_last_not p _ some

/-- The narrower notion of blank leaves what the wider one has trimmed. -/
theorem trimEnds_trimEnds (wider : ∀ a, p a = true → q a = true) :
    trimEnds p (trimEnds q l) = trimEnds q l :=
  trimEnds_eq_self (fun a mem blank => trimEnds_head a mem (wider a blank))
    fun some blank => trimEnds_last some (wider _ blank)

variable {blank narrow : Char → Bool} {s : String}

def trim (blank : Char → Bool) (s : String) : String := String.ofList (trimEnds blank s.toList)

theorem trim_trim (wider : ∀ c, narrow c = true → blank c = true) :
    trim narrow (trim blank s) = trim blank s := by
  simp [trim, trimEnds_trimEnds wider]

end TrimmedText
