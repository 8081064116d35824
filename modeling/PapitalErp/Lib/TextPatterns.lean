import Mathlib

/-!
# Patterns of texts

Regular expressions as the patterns that whole texts fit, with the notations that patterns
are written in and what a fitting text is made of. A text is the list of its characters.
-/

namespace TextPatterns

open RegularExpression

variable {α : Type*}

/-- One of some characters. -/
def anyOf (cs : List α) : RegularExpression α := cs.foldr (fun c r => char c + r) 0

/-- The pattern or nothing. -/
def maybe (r : RegularExpression α) : RegularExpression α := r + 1

/-- The pattern once or more. -/
def oneOrMore (r : RegularExpression α) : RegularExpression α := r * r.star

/-- The whole text fits the pattern. -/
def Fits (r : RegularExpression α) (s : List α) : Prop := s ∈ r.matches'

instance [DecidableEq α] (r : RegularExpression α) (s : List α) : Decidable (Fits r s) :=
  decidable_of_iff _ (rmatch_iff_matches' r s)

theorem fits_char {c : α} {s : List α} : Fits (char c) s ↔ s = [c] := Iff.rfl

theorem fits_one {s : List α} : Fits 1 s ↔ s = [] := Iff.rfl

theorem fits_mul {p q : RegularExpression α} {s : List α} :
    Fits (p * q) s ↔ ∃ a, Fits p a ∧ ∃ b, Fits q b ∧ a ++ b = s := Language.mem_mul

theorem Fits.mul {p q : RegularExpression α} {a b : List α} (ha : Fits p a) (hb : Fits q b) :
    Fits (p * q) (a ++ b) := Language.append_mem_mul ha hb

theorem fits_maybe {r : RegularExpression α} {s : List α} : Fits (maybe r) s ↔ Fits r s ∨ s = [] :=
  Iff.rfl

theorem fits_anyOf {cs : List α} {s : List α} : Fits (anyOf cs) s ↔ ∃ c ∈ cs, s = [c] := by
  induction cs with
  | nil => exact iff_of_false id (by simp)
  | cons c cs ih =>
    rw [show anyOf (c :: cs) = char c + anyOf cs from rfl]
    change Fits (char c) s ∨ Fits (anyOf cs) s ↔ _
    rw [fits_char, ih]
    simp

theorem fits_singleton {cs : List α} {c : α} : Fits (anyOf cs) [c] ↔ c ∈ cs := by
  simp [fits_anyOf]

theorem fits_star {r : RegularExpression α} {s : List α} :
    Fits r.star s ↔ ∃ L : List (List α), s = L.flatten ∧ ∀ y ∈ L, Fits r y := Iff.rfl

theorem Fits.star_nil (r : RegularExpression α) : Fits r.star [] := Language.nil_mem_kstar _

theorem Fits.star_append {r : RegularExpression α} {a b : List α} (ha : Fits r a)
    (hb : Fits r.star b) : Fits r.star (a ++ b) := by
  obtain ⟨L, rfl, each⟩ := hb
  refine ⟨a :: L, rfl, fun y hy => ?_⟩
  rcases List.mem_cons.mp hy with rfl | later
  · exact ha
  · exact each y later

theorem Fits.oneOrMore {r : RegularExpression α} {s : List α} (h : Fits r.star s) (nonempty : s ≠ []) :
    Fits (oneOrMore r) s := by
  obtain ⟨L, rfl, each⟩ := h
  cases L with
  | nil => exact absurd rfl nonempty
  | cons y L =>
    exact Fits.mul (each y List.mem_cons_self) ⟨L, rfl, fun z hz => each z (List.mem_cons_of_mem y hz)⟩

/-- Any number of some characters. -/
theorem fits_star_anyOf {cs s : List α} : Fits (anyOf cs).star s ↔ ∀ c ∈ s, c ∈ cs := by
  constructor
  · rintro ⟨L, rfl, each⟩ c hc
    obtain ⟨y, hy, member⟩ := List.mem_flatten.mp hc
    obtain ⟨d, hd, rfl⟩ := fits_anyOf.mp (each y hy)
    exact List.mem_singleton.mp member ▸ hd
  · intro h
    induction s with
    | nil => exact Fits.star_nil _
    | cons c s ih =>
      refine Fits.star_append (a := [c]) (fits_singleton.mpr (h c List.mem_cons_self)) (ih fun d hd => ?_)
      exact h d (List.mem_cons_of_mem c hd)

/-! ## The characters of a pattern -/

def symbols : RegularExpression α → List α
  | .zero => []
  | .epsilon => []
  | .char c => [c]
  | .plus p q => symbols p ++ symbols q
  | .comp p q => symbols p ++ symbols q
  | .star p => symbols p

/-- A fitting text has no other characters. -/
theorem Fits.mem_symbols {r : RegularExpression α} {s : List α} (h : Fits r s) :
    ∀ c ∈ s, c ∈ symbols r := by
  induction r generalizing s with
  | zero => exact h.elim
  | epsilon =>
    obtain rfl := fits_one.mp h
    exact fun _ hc => absurd hc List.not_mem_nil
  | char c =>
    obtain rfl := fits_char.mp h
    exact fun _ hd => hd
  | plus p q ihp ihq =>
    intro c hc
    rcases h with left | right
    · exact List.mem_append_left _ (ihp left c hc)
    · exact List.mem_append_right _ (ihq right c hc)
  | comp p q ihp ihq =>
    obtain ⟨a, ha, b, hb, rfl⟩ := fits_mul.mp h
    intro c hc
    rcases List.mem_append.mp hc with left | right
    · exact List.mem_append_left _ (ihp ha c left)
    · exact List.mem_append_right _ (ihq hb c right)
  | star p ih =>
    obtain ⟨L, rfl, each⟩ := fits_star.mp h
    intro c hc
    obtain ⟨y, hy, member⟩ := List.mem_flatten.mp hc
    exact ih (each y hy) c member

end TextPatterns
