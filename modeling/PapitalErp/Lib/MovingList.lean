import Mathlib.Order.Lattice
import Mathlib.Data.List.TakeDrop
import Mathlib.Data.List.Pairwise

/-!
# Pages of a descending list that changes

A list in strictly descending order is read in pages, and may change between two of
them. A page is a contiguous part of the list it was read from, so a page that starts
at the last entry of the page before misses nothing that was there all along.
-/

namespace MovingList

variable {α : Type*}

/-- At most `size` entries from `offset` on. -/
def page (l : List α) (offset size : ℕ) : List α := (l.drop offset).take size

variable {l : List α} {offset size : ℕ}

theorem page_sublist : (page l offset size).Sublist l :=
  (List.take_sublist _ _).trans (List.drop_sublist _ _)

theorem page_map {β : Type*} (f : α → β) :
    (page l offset size).map f = page (l.map f) offset size := by
  rw [page, List.map_take, List.map_drop, page]

/-- What is before the page, the page and what is after it. -/
theorem split_at_page :
    l.take offset ++ (page l offset size ++ l.drop (offset + size)) = l := by
  rw [page, ← List.drop_drop, List.take_append_drop, List.take_append_drop]

/-- Nothing is after a page that is short, or that reaches the length of the list. -/
theorem drop_eq_nil_of_end (reaches : l.length ≤ offset + (page l offset size).length) :
    l.drop (offset + size) = [] := by
  apply List.drop_eq_nil_of_le
  have bound : (page l offset size).length ≤ size := List.length_take_le _ _
  omega

theorem reaches_of_short (short : (page l offset size).length < size) :
    l.length ≤ offset + (page l offset size).length := by
  have count : (page l offset size).length = min size (l.length - offset) := by
    rw [page, List.length_take, List.length_drop]
  omega

variable [LinearOrder α]

/-- An entry between two entries of a page is in it; at the ends of the list the bound
is not needed. -/
theorem mem_page_of_between (sorted : l.Pairwise (· > ·)) {x : α} (mem : x ∈ l)
    (top : offset = 0 ∨ ∃ a ∈ page l offset size, x ≤ a)
    (bottom : l.length ≤ offset + (page l offset size).length ∨ ∃ b ∈ page l offset size, b ≤ x) :
    x ∈ page l offset size := by
  have whole : x ∈ l.take offset ++ (page l offset size ++ l.drop (offset + size)) := by
    rwa [split_at_page]
  have order := sorted
  rw [← @split_at_page _ l offset size] at order
  obtain ⟨_, inner, before⟩ := List.pairwise_append.mp order
  obtain ⟨_, _, after⟩ := List.pairwise_append.mp inner
  rcases List.mem_append.mp whole with early | rest
  · rcases top with first | ⟨a, there, above⟩
    · simp [first] at early
    · have higher := before x early a (List.mem_append_left _ there)
      exact absurd higher above.not_gt
  · rcases List.mem_append.mp rest with here | late
    · exact here
    · rcases bottom with reaches | ⟨b, there, below⟩
      · simp [drop_eq_nil_of_end reaches] at late
      · exact absurd (after b there x late) below.not_gt

/-- A page that starts at `anchor` has every entry of the list below it, down to the
page's own end. -/
theorem mem_tail_of_anchor (sorted : l.Pairwise (· > ·)) {anchor x : α} {rest : List α}
    (starts : page l offset size = anchor :: rest) (mem : x ∈ l) (below : x < anchor)
    (bottom : l.length ≤ offset + (page l offset size).length ∨ ∃ b ∈ page l offset size, b ≤ x) :
    x ∈ rest := by
  have inside := mem_page_of_between sorted mem
    (.inr ⟨anchor, by simp [starts], below.le⟩) bottom
  rw [starts] at inside
  exact (List.mem_cons.mp inside).resolve_left below.ne

end MovingList
