import Mathlib

/-!
# Texts of words

A text as its words with one space between them, and the phrases of a text joined by a
word. The words are read back from the text when none has a space in it.
-/

namespace SpacedWords

/-- The text of some words. -/
def spaced (words : List String) : String := " ".intercalate words

/-- The words of a text. -/
def wordsOf (text : String) : List String := (text.toList.splitOn ' ').map String.ofList

/-- A word has no space. -/
def IsWord (w : String) : Prop := ' ' ∉ w.toList

instance (w : String) : Decidable (IsWord w) := inferInstanceAs (Decidable (_ ∉ _))

theorem wordsOf_spaced {words : List String} (nonempty : words ≠ [])
    (isWord : ∀ w ∈ words, IsWord w) : wordsOf (spaced words) = words := by
  have split : (spaced words).toList.splitOn ' ' = words.map String.toList := by
    rw [spaced, String.toList_intercalate]
    refine List.splitOn_intercalate ' ' (fun l hl => ?_) (by simpa using nonempty)
    obtain ⟨w, hw, rfl⟩ := List.mem_map.mp hl
    exact isWord w hw
  rw [wordsOf, split, List.map_map]
  exact (List.map_congr_left fun w _ => String.ofList_toList).trans (List.map_id _)

@[simp] theorem spaced_singleton (w : String) : spaced [w] = w := String.intercalate_singleton

theorem spaced_append {a b : List String} (ha : a ≠ []) (hb : b ≠ []) :
    spaced (a ++ b) = spaced a ++ " " ++ spaced b := String.intercalate_append_of_ne_nil ha hb

/-- Phrases joined by a word. -/
def joinedBy (w : String) (phrases : List (List String)) : List String := [w].intercalate phrases

theorem joinedBy_cons {w : String} {phrase : List String} {phrases : List (List String)}
    (more : phrases ≠ []) : joinedBy w (phrase :: phrases) = phrase ++ [w] ++ joinedBy w phrases := by
  rw [joinedBy, List.intercalate_cons_of_ne_nil more, joinedBy]

theorem joinedBy_ne_nil {w : String} {phrases : List (List String)} (nonempty : phrases ≠ [])
    (each : ∀ p ∈ phrases, p ≠ []) : joinedBy w phrases ≠ [] := by
  cases phrases with
  | nil => exact absurd rfl nonempty
  | cons p phrases =>
    cases phrases with
    | nil =>
      rw [joinedBy, List.intercalate_singleton]
      exact each p List.mem_cons_self
    | cons q phrases =>
      rw [joinedBy_cons (List.cons_ne_nil _ _)]
      simp

theorem mem_joinedBy {w v : String} {phrases : List (List String)}
    (h : v ∈ joinedBy w phrases) : v = w ∨ ∃ p ∈ phrases, v ∈ p := by
  induction phrases with
  | nil => exact absurd h List.not_mem_nil
  | cons p phrases ih =>
    cases phrases with
    | nil =>
      rw [joinedBy, List.intercalate_singleton] at h
      exact Or.inr ⟨p, List.mem_cons_self, h⟩
    | cons q phrases =>
      rw [joinedBy_cons (List.cons_ne_nil _ _), List.mem_append, List.mem_append,
        List.mem_singleton] at h
      obtain (inFirst | joined) | later := h
      · exact Or.inr ⟨p, List.mem_cons_self, inFirst⟩
      · exact Or.inl joined
      · obtain same | ⟨r, hr, member⟩ := ih later
        · exact Or.inl same
        · exact Or.inr ⟨r, List.mem_cons_of_mem p hr, member⟩

theorem mem_joinedBy_of_mem {w v : String} {phrases : List (List String)} {p : List String}
    (hp : p ∈ phrases) (hv : v ∈ p) : v ∈ joinedBy w phrases := by
  induction phrases with
  | nil => exact absurd hp List.not_mem_nil
  | cons q phrases ih =>
    by_cases last : phrases = []
    · subst last
      obtain rfl := List.mem_singleton.mp hp
      rwa [joinedBy, List.intercalate_singleton]
    · rw [joinedBy_cons last]
      rcases List.mem_cons.mp hp with rfl | later
      · exact List.mem_append_left _ (List.mem_append_left _ hv)
      · exact List.mem_append_right _ (ih later)

/-- The texts of phrases, joined by a word between spaces, are the text of the phrases
joined by it. -/
theorem intercalate_spaced {w separator : String} (spaces : separator = " " ++ w ++ " ")
    {phrases : List (List String)} (each : ∀ p ∈ phrases, p ≠ []) :
    separator.intercalate (phrases.map spaced) = spaced (joinedBy w phrases) := by
  induction phrases with
  | nil => rfl
  | cons p phrases ih =>
    have rest := ih fun q hq => each q (List.mem_cons_of_mem p hq)
    by_cases last : phrases = []
    · rw [last, List.map_singleton, String.intercalate_singleton, joinedBy,
        List.intercalate_singleton]
    · have more : joinedBy w phrases ≠ [] :=
        joinedBy_ne_nil last fun q hq => each q (List.mem_cons_of_mem p hq)
      rw [List.map_cons, String.intercalate_cons_of_ne_nil (by simpa using last), rest,
        joinedBy_cons last, List.append_assoc,
        spaced_append (each p List.mem_cons_self) (by simp),
        spaced_append (List.cons_ne_nil _ _) more, spaced_singleton, spaces]
      simp only [String.append_assoc]

/-- A reading that passes over the joining word reads the phrases one after another. -/
theorem foldl_joinedBy {σ : Type*} {read : σ → String → σ} {w : String}
    (passes : ∀ s, read s w = s) (phrases : List (List String)) (s : σ) :
    (joinedBy w phrases).foldl read s = phrases.foldl (fun s p => p.foldl read s) s := by
  induction phrases generalizing s with
  | nil => rfl
  | cons p phrases ih =>
    by_cases last : phrases = []
    · rw [last, joinedBy, List.intercalate_singleton]
      rfl
    · rw [joinedBy_cons last, List.foldl_append, List.foldl_append, List.foldl_cons, ih,
        List.foldl_cons, List.foldl_nil, passes]

end SpacedWords
