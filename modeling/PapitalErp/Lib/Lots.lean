import PapitalErp.Lib.FilteredSums

/-!
# Lots

A list of lots, each with an amount. A demand is drained from the lots that
answer to it, in order: a lot that is used up leaves the list, the last one
touched keeps the rest of its amount. What was taken can be put back, on the
first lot that answers, or on a lot of its own. The rules say what either does
to the sum over any class of lots that a change of amount does not leave.
-/

namespace Lots

open FilteredSums

variable {α β K : Type*} [Field K] [LinearOrder K] [IsStrictOrderedRing K]

/-- How the amount of a lot is read and set. -/
structure Measure (α K : Type*) [Field K] [LinearOrder K] [IsStrictOrderedRing K] where
  amount : α → K
  withAmount : α → K → α
  nonneg : ∀ a, 0 ≤ amount a
  amount_withAmount : ∀ a x, 0 < amount a → 0 < x → amount (withAmount a x) = x

variable (m : Measure α K)

/-- A property of lots that a change of amount keeps. -/
def Stable (f : α → β) : Prop := ∀ a x, 0 < m.amount a → 0 < x → f (m.withAmount a x) = f a

/-- What is left of the lots and what was taken from each. -/
structure Drained (α K : Type*) where
  rest : List α
  taken : List (α × K)

/-- Take a demand from the lots that answer to it. -/
def drain (p : α → Bool) : K → List α → Drained α K
  | _, [] => ⟨[], []⟩
  | demand, a :: l =>
      if demand ≤ 0 then ⟨a :: l, []⟩
      else if p a ∧ 0 < m.amount a then
        let part := if m.amount a < demand then m.amount a else demand
        let later := drain p (demand - part) l
        ⟨(if 0 < m.amount a - part then [m.withAmount a (m.amount a - part)] else []) ++ later.rest,
          (a, part) :: later.taken⟩
      else
        let later := drain p demand l
        ⟨a :: later.rest, later.taken⟩

/-- The amounts taken from a class of lots. -/
def takenWhere (q : α → Bool) (taken : List (α × K)) : K := sumWhere (fun t => q t.1) Prod.snd taken

variable {m} {p q : α → Bool} {demand : K} {l : List α}

omit [LinearOrder K] [IsStrictOrderedRing K] in
@[simp] theorem takenWhere_nil (q : α → Bool) : takenWhere q ([] : List (α × K)) = 0 := rfl

omit [LinearOrder K] [IsStrictOrderedRing K] in
@[simp] theorem takenWhere_cons (q : α → Bool) (t : α × K) (taken : List (α × K)) :
    takenWhere q (t :: taken) = (if q t.1 then t.2 else 0) + takenWhere q taken :=
  sumWhere_cons t

@[simp] theorem drain_nil : drain m p demand [] = ⟨[], []⟩ := rfl

theorem drain_of_nonpos (h : demand ≤ 0) : drain m p demand l = ⟨l, []⟩ := by
  cases l with
  | nil => rfl
  | cons a l => rw [drain, if_pos h]

theorem drain_cons_of_not {a : α} (h : ¬(p a ∧ 0 < m.amount a)) :
    drain m p demand (a :: l) = ⟨a :: (drain m p demand l).rest, (drain m p demand l).taken⟩ := by
  by_cases hd : demand ≤ 0
  · rw [drain_of_nonpos hd, drain_of_nonpos hd]
  · rw [drain, if_neg hd, if_neg h]

/-- The first lot that answers. -/
theorem drain_cons_of_pos {a : α} (hd : 0 < demand) (h : p a = true ∧ 0 < m.amount a) :
    drain m p demand (a :: l) =
      let part := min (m.amount a) demand
      let later := drain m p (demand - part) l
      ⟨(if 0 < m.amount a - part then [m.withAmount a (m.amount a - part)] else []) ++ later.rest,
        (a, part) :: later.taken⟩ := by
  have part : (if m.amount a < demand then m.amount a else demand) = min (m.amount a) demand := by
    split
    · exact (min_eq_left (le_of_lt ‹_›)).symm
    · exact (min_eq_right (not_lt.mp ‹_›)).symm
  rw [drain, if_neg (not_le.mpr hd), if_pos h, part]

theorem sumWhere_nonneg (q : α → Bool) (l : List α) : 0 ≤ sumWhere q m.amount l := by
  unfold sumWhere
  refine List.sum_nonneg fun x hx => ?_
  obtain ⟨a, -, rfl⟩ := List.mem_map.mp hx
  exact m.nonneg a

theorem le_sumWhere {a : α} (member : a ∈ l) (hq : q a = true) : m.amount a ≤ sumWhere q m.amount l := by
  induction l with
  | nil => simp at member
  | cons b l ih =>
      rw [sumWhere_cons]
      rcases List.mem_cons.mp member with rfl | member
      · rw [if_pos hq]
        exact le_add_of_nonneg_right (sumWhere_nonneg q l)
      · refine (ih member).trans (le_add_of_nonneg_left ?_)
        split
        · exact m.nonneg b
        · exact le_rfl

/-- A smaller class has no more. -/
theorem sumWhere_le_sumWhere (h : ∀ a ∈ l, p a = true → q a = true) :
    sumWhere p m.amount l ≤ sumWhere q m.amount l := by
  induction l with
  | nil => exact le_rfl
  | cons a l ih =>
      rw [sumWhere_cons, sumWhere_cons]
      refine add_le_add ?_ (ih fun b hb => h b (List.mem_cons_of_mem a hb))
      by_cases hp : p a = true
      · rw [if_pos hp, if_pos (h a List.mem_cons_self hp)]
      · rw [if_neg hp]
        split
        · exact m.nonneg a
        · exact le_rfl

/-- A smaller class that lacks a lot. -/
theorem sumWhere_add_le {a : α} (h : ∀ b ∈ l, p b = true → q b = true) (member : a ∈ l)
    (out : p a = false) (hq : q a = true) :
    sumWhere p m.amount l + m.amount a ≤ sumWhere q m.amount l := by
  induction l with
  | nil => simp at member
  | cons b l ih =>
      have hl := fun c hc => h c (List.mem_cons_of_mem b hc)
      rw [sumWhere_cons, sumWhere_cons]
      rcases List.mem_cons.mp member with rfl | member
      · rw [out, if_neg Bool.false_ne_true, if_pos hq]
        linarith [sumWhere_le_sumWhere (m := m) hl]
      · have tail := ih hl member
        by_cases hp : p b = true
        · rw [if_pos hp, if_pos (h b List.mem_cons_self hp)]
          linarith
        · rw [if_neg hp]
          split
          · linarith [m.nonneg b]
          · linarith

/-- What stays of one lot. -/
theorem sumWhere_remnant (stable : Stable m q) {a : α} {x : K} (ha : 0 < m.amount a)
    (hx : x ≤ m.amount a) :
    sumWhere q m.amount (if 0 < m.amount a - x then [m.withAmount a (m.amount a - x)] else []) =
      if q a then m.amount a - x else 0 := by
  split
  · rename_i hpos
    rw [sumWhere_cons, sumWhere_nil, stable a _ ha hpos, m.amount_withAmount a _ ha hpos, add_zero]
  · rename_i hnone
    have used : m.amount a - x = 0 := le_antisymm (not_lt.mp hnone) (sub_nonneg.mpr hx)
    rw [used, ite_self, sumWhere_nil]

/-- Nothing is lost in any class. -/
theorem sum_rest (stable : Stable m q) :
    sumWhere q m.amount (drain m p demand l).rest + takenWhere q (drain m p demand l).taken =
      sumWhere q m.amount l := by
  induction l generalizing demand with
  | nil => simp
  | cons a l ih =>
      by_cases hd : demand ≤ 0
      · rw [drain_of_nonpos hd]
        simp
      by_cases h : p a = true ∧ 0 < m.amount a
      · have kept := sumWhere_remnant stable h.2 (min_le_left (m.amount a) demand)
        rw [drain_cons_of_pos (not_le.mp hd) h]
        dsimp only
        rw [sumWhere_append, kept, takenWhere_cons, sumWhere_cons, ← ih]
        by_cases hq : q a = true
        · rw [if_pos hq, if_pos hq, if_pos hq]
          ring
        · rw [if_neg hq, if_neg hq, if_neg hq]
          ring
      · rw [drain_cons_of_not h]
        dsimp only
        rw [sumWhere_cons, sumWhere_cons, add_assoc, ih]

/-- Only lots that answer are touched. -/
theorem of_mem_taken {t : α × K} (h : t ∈ (drain m p demand l).taken) :
    t.1 ∈ l ∧ p t.1 = true ∧ 0 < m.amount t.1 ∧ 0 < t.2 := by
  induction l generalizing demand with
  | nil => simp at h
  | cons a l ih =>
      by_cases hd : demand ≤ 0
      · rw [drain_of_nonpos hd] at h
        simp at h
      by_cases ha : p a = true ∧ 0 < m.amount a
      · rw [drain_cons_of_pos (not_le.mp hd) ha] at h
        rcases List.mem_cons.mp h with rfl | h
        · exact ⟨List.mem_cons_self, ha.1, ha.2, lt_min ha.2 (not_le.mp hd)⟩
        · obtain ⟨member, rest⟩ := ih h
          exact ⟨List.mem_cons_of_mem _ member, rest⟩
      · rw [drain_cons_of_not ha] at h
        obtain ⟨member, rest⟩ := ih h
        exact ⟨List.mem_cons_of_mem _ member, rest⟩

/-- A demand that the first part meets leaves the second part alone. -/
theorem drain_append_of_le {l' : List α} (h : demand ≤ sumWhere p m.amount l) :
    drain m p demand (l ++ l') =
      ⟨(drain m p demand l).rest ++ l', (drain m p demand l).taken⟩ := by
  induction l generalizing demand with
  | nil => exact drain_of_nonpos h
  | cons a l ih =>
      by_cases hd : demand ≤ 0
      · rw [drain_of_nonpos hd, drain_of_nonpos hd]
      rw [sumWhere_cons] at h
      rw [List.cons_append]
      by_cases ha : p a = true ∧ 0 < m.amount a
      · rw [if_pos ha.1] at h
        have left : demand - min (m.amount a) demand ≤ sumWhere p m.amount l := by
          rcases le_total (m.amount a) demand with small | large
          · rw [min_eq_left small]
            linarith
          · rw [min_eq_right large, sub_self]
            exact sumWhere_nonneg p l
        rw [drain_cons_of_pos (not_le.mp hd) ha, drain_cons_of_pos (not_le.mp hd) ha]
        dsimp only
        rw [ih left, List.append_assoc]
      · have nothing : (if p a then m.amount a else 0) = 0 := by
          split
          · exact le_antisymm (not_lt.mp fun hpos => ha ⟨‹_›, hpos⟩) (m.nonneg a)
          · rfl
        rw [nothing, zero_add] at h
        rw [drain_cons_of_not ha, drain_cons_of_not ha, ih h, List.cons_append]

/-- The lots that a demand can touch. -/
def answering (m : Measure α K) (p : α → Bool) (a : α) : Bool := p a && decide (0 < m.amount a)

theorem sumWhere_answering : sumWhere (answering m p) m.amount l = sumWhere p m.amount l := by
  refine sumWhere_eq_of_terms fun a _ => ?_
  rcases (m.nonneg a).eq_or_lt with zero | positive
  · rw [← zero, ite_self, ite_self]
  · simp [answering, positive]

/-- A demand that reaches for all of them uses all of them up. -/
theorem drain_of_le (h : sumWhere p m.amount l ≤ demand) :
    drain m p demand l =
      ⟨l.filter fun a => !answering m p a,
        (l.filter (answering m p)).map fun a => (a, m.amount a)⟩ := by
  induction l generalizing demand with
  | nil => rfl
  | cons a l ih =>
      have tail := sumWhere_nonneg (m := m) p l
      rw [sumWhere_cons] at h
      by_cases ha : p a = true ∧ 0 < m.amount a
      · have answers : answering m p a = true := by simpa [answering] using ha
        rw [if_pos ha.1] at h
        have hd : 0 < demand := by linarith [ha.2]
        have whole : min (m.amount a) demand = m.amount a := min_eq_left (by linarith)
        rw [drain_cons_of_pos hd ha, whole]
        dsimp only
        rw [sub_self, if_neg (lt_irrefl _), ih (by linarith), List.filter_cons_of_pos answers,
          List.filter_cons_of_neg (by simpa using answers)]
        rfl
      · have silent : answering m p a = false := by
          rw [Bool.eq_false_iff]
          intro answers
          exact ha (by simpa [answering] using answers)
        have rest : sumWhere p m.amount l ≤ demand := by
          split at h
          · linarith [m.nonneg a]
          · linarith
        rw [drain_cons_of_not ha, ih rest, List.filter_cons_of_pos (by simpa using silent),
          List.filter_cons_of_neg (by simpa using silent)]

/-- Then the whole of every class among them is taken. -/
theorem takenWhere_of_le (h : sumWhere p m.amount l ≤ demand) :
    takenWhere q (drain m p demand l).taken = sumWhere (fun a => p a && q a) m.amount l := by
  rw [drain_of_le h, takenWhere, sumWhere_map, sumWhere_filter, ← sumWhere_answering]
  refine sumWhere_congr (fun a _ => ?_) fun _ _ _ => rfl
  simp only [answering, Function.comp_apply]
  cases p a <;> cases q a <;> simp

/-- Amounts stay in a group of amounts. -/
theorem mem_group_of_drain (S : AddSubgroup K) (inside : ∀ a ∈ l, m.amount a ∈ S) (hd : demand ∈ S) :
    (∀ a ∈ (drain m p demand l).rest, m.amount a ∈ S) ∧
      ∀ t ∈ (drain m p demand l).taken, t.2 ∈ S := by
  induction l generalizing demand with
  | nil => simp
  | cons a l ih =>
      have ha := inside a List.mem_cons_self
      have hl := fun b hb => inside b (List.mem_cons_of_mem a hb)
      by_cases none_asked : demand ≤ 0
      · rw [drain_of_nonpos none_asked]
        exact ⟨inside, by simp⟩
      by_cases answers : p a = true ∧ 0 < m.amount a
      · have part : min (m.amount a) demand ∈ S := by
          rcases min_choice (m.amount a) demand with same | same <;> rw [same] <;> assumption
        obtain ⟨rest, taken⟩ := ih hl (S.sub_mem hd part)
        rw [drain_cons_of_pos (not_le.mp none_asked) answers]
        dsimp only
        refine ⟨fun b hb => ?_, fun t ht => ?_⟩
        · rcases List.mem_append.mp hb with hb | hb
          · split at hb
            · rename_i positive
              rw [List.mem_singleton.mp hb, m.amount_withAmount _ _ answers.2 positive]
              exact S.sub_mem ha part
            · simp at hb
          · exact rest b hb
        · rcases List.mem_cons.mp ht with rfl | ht
          · exact part
          · exact taken t ht
      · obtain ⟨rest, taken⟩ := ih hl hd
        rw [drain_cons_of_not answers]
        refine ⟨fun b hb => ?_, taken⟩
        rcases List.mem_cons.mp hb with rfl | hb
        · exact ha
        · exact rest b hb

/-! ## A class that is drained first -/

/-- A lot of the class answers, and no lot of the class comes after an answering
lot outside it. -/
structure DrainedFirst (m : Measure α K) (p q : α → Bool) (l : List α) : Prop where
  answers : ∀ a ∈ l, 0 < m.amount a → q a = true → p a = true
  first : l.Pairwise fun a b =>
    p a = true → 0 < m.amount a → q a = false → 0 < m.amount b → q b = false

theorem DrainedFirst.tail {a : α} (h : DrainedFirst m p q (a :: l)) : DrainedFirst m p q l :=
  ⟨fun b hb => h.answers b (List.mem_cons_of_mem _ hb), (List.pairwise_cons.mp h.first).2⟩

/-- Then the demand is met from the class as far as the class reaches. -/
theorem takenWhere_of_drainedFirst (h : DrainedFirst m p q l) (hd : 0 ≤ demand) :
    takenWhere q (drain m p demand l).taken = min demand (sumWhere q m.amount l) := by
  induction l generalizing demand with
  | nil => simp [hd]
  | cons a l ih =>
      have tail := sumWhere_nonneg (m := m) q l
      rcases hd.eq_or_lt with rfl | hpos
      · rw [drain_of_nonpos le_rfl, takenWhere_nil, min_eq_left (sumWhere_nonneg q (a :: l))]
      by_cases ha : p a = true ∧ 0 < m.amount a
      · rw [drain_cons_of_pos hpos ha]
        dsimp only
        rw [takenWhere_cons, ih h.tail (sub_nonneg.mpr (min_le_right _ _)), sumWhere_cons]
        by_cases hq : q a = true
        · rw [if_pos hq, if_pos hq]
          rcases le_total (m.amount a) demand with small | large
          · rw [min_eq_left small, ← min_add_add_left, add_sub_cancel]
          · rw [min_eq_right large, sub_self, min_eq_left tail,
              min_eq_left (large.trans (le_add_of_nonneg_right tail)), add_zero]
        · -- nothing of the class is left behind a lot outside it
          have none_later : sumWhere q m.amount l = 0 := by
            have each : ∀ b ∈ l, (if q b then m.amount b else 0) = 0 := by
              intro b hb
              rcases (m.nonneg b).eq_or_lt with zero | positive
              · rw [← zero, ite_self]
              · have away := (List.pairwise_cons.mp h.first).1 b hb ha.1 ha.2 (by simpa using hq)
                  positive
                rw [away, if_neg Bool.false_ne_true]
            rw [sumWhere, sum_map_filter, List.sum_eq_zero]
            intro x hx
            obtain ⟨b, hb, rfl⟩ := List.mem_map.mp hx
            exact each b hb
          rw [if_neg hq, if_neg hq, none_later, zero_add, zero_add,
            min_eq_right (sub_nonneg.mpr (min_le_right _ _)), min_eq_right hd]
      · have nothing : (if q a then m.amount a else 0) = 0 := by
          split
          · refine le_antisymm (not_lt.mp fun hamount => ha ⟨?_, hamount⟩) (m.nonneg a)
            exact h.answers a List.mem_cons_self hamount ‹_›
          · rfl
        rw [drain_cons_of_not ha, ih h.tail hd, sumWhere_cons, nothing, zero_add]

/-- Two demands on a class, one after the other, are one demand. -/
theorem sub_min_sub_min {a b c : K} (hb : 0 ≤ b) :
    c - min a c - min b (c - min a c) = c - min (a + b) c := by
  rcases le_total a c with enough | short
  · rw [min_eq_left enough]
    rcases le_total (a + b) c with fits | beyond
    · rw [min_eq_left fits, min_eq_left (by linarith), sub_sub]
    · rw [min_eq_right beyond, min_eq_right (by linarith), sub_self, sub_self]
  · rw [min_eq_right short, sub_self, min_eq_right hb, sub_zero,
      min_eq_right (short.trans (le_add_of_nonneg_right hb)), sub_self]

/-! ## Lots that became fewer or smaller -/

/-- Some lots are gone and some have another amount; the order is the same. -/
inductive Shrinks (m : Measure α K) : List α → List α → Prop
  | nil : Shrinks m [] []
  | keep (a : α) {l l' : List α} : Shrinks m l l' → Shrinks m (a :: l) (a :: l')
  | lower (a : α) (x : K) {l l' : List α} : 0 < m.amount a → 0 < x → Shrinks m l l' →
      Shrinks m (a :: l) (m.withAmount a x :: l')
  | drop (a : α) {l l' : List α} : Shrinks m l l' → Shrinks m (a :: l) l'

theorem Shrinks.refl (l : List α) : Shrinks m l l := by
  induction l with
  | nil => exact .nil
  | cons a l ih => exact .keep a ih

theorem drain_shrinks : Shrinks m l (drain m p demand l).rest := by
  induction l generalizing demand with
  | nil => exact .nil
  | cons a l ih =>
      by_cases hd : demand ≤ 0
      · rw [drain_of_nonpos hd]
        exact .refl _
      by_cases ha : p a = true ∧ 0 < m.amount a
      · rw [drain_cons_of_pos (not_le.mp hd) ha]
        dsimp only
        split
        · exact .lower a _ ha.2 ‹_› ih
        · exact .drop a ih
      · rw [drain_cons_of_not ha]
        exact .keep a ih

/-- Where a lot of the result comes from. -/
theorem Shrinks.of_mem {l' : List α} (h : Shrinks m l l') {b : α} (hb : b ∈ l') :
    ∃ a ∈ l, b = a ∨ ∃ x, 0 < m.amount a ∧ 0 < x ∧ b = m.withAmount a x := by
  induction h with
  | nil => simp at hb
  | keep a _ ih =>
      rcases List.mem_cons.mp hb with rfl | hb
      · exact ⟨b, List.mem_cons_self, .inl rfl⟩
      · obtain ⟨c, hc, rest⟩ := ih hb
        exact ⟨c, List.mem_cons_of_mem _ hc, rest⟩
  | lower a x ha hx _ ih =>
      rcases List.mem_cons.mp hb with rfl | hb
      · exact ⟨a, List.mem_cons_self, .inr ⟨x, ha, hx, rfl⟩⟩
      · obtain ⟨c, hc, rest⟩ := ih hb
        exact ⟨c, List.mem_cons_of_mem _ hc, rest⟩
  | drop a _ ih =>
      obtain ⟨c, hc, rest⟩ := ih hb
      exact ⟨c, List.mem_cons_of_mem _ hc, rest⟩

/-- A relation that a change of either amount keeps. -/
theorem Shrinks.pairwise {R : α → α → Prop}
    (left : ∀ a b x, 0 < m.amount a → 0 < x → R a b → R (m.withAmount a x) b)
    (right : ∀ a b x, 0 < m.amount b → 0 < x → R a b → R a (m.withAmount b x))
    {l l' : List α} (h : Shrinks m l l') (hl : l.Pairwise R) : l'.Pairwise R := by
  have onto : ∀ {a : α} {l l' : List α}, Shrinks m l l' → (∀ b ∈ l, R a b) → ∀ b ∈ l', R a b := by
    intro a l l' shrinks all b hb
    obtain ⟨c, hc, rfl | ⟨x, hamount, hx, rfl⟩⟩ := shrinks.of_mem hb
    · exact all b hc
    · exact right a c x hamount hx (all c hc)
  induction h with
  | nil => exact .nil
  | keep a shrinks ih =>
      obtain ⟨first, rest⟩ := List.pairwise_cons.mp hl
      exact .cons (onto shrinks first) (ih rest)
  | lower a x ha hx shrinks ih =>
      obtain ⟨first, rest⟩ := List.pairwise_cons.mp hl
      exact .cons (fun b hb => left a b x ha hx (onto shrinks first b hb)) (ih rest)
  | drop a _ ih => exact ih (List.pairwise_cons.mp hl).2

theorem DrainedFirst.shrinks {l' : List α} (h : DrainedFirst m p q l) (stable_p : Stable m p)
    (stable_q : Stable m q) (shrinks : Shrinks m l l') : DrainedFirst m p q l' := by
  refine ⟨fun b hb hamount hq => ?_, shrinks.pairwise ?_ ?_ h.first⟩
  · obtain ⟨a, ha, rfl | ⟨x, positive, hx, rfl⟩⟩ := shrinks.of_mem hb
    · exact h.answers b ha hamount hq
    · rw [stable_p a x positive hx]
      exact h.answers a ha positive (stable_q a x positive hx ▸ hq)
  · intro a b x ha hx rel hp _ hq hb
    exact rel (stable_p a x ha hx ▸ hp) ha (stable_q a x ha hx ▸ hq) hb
  · intro a b x hb hx rel hp ha hq _
    rw [stable_q b x hb hx]
    exact rel hp ha hq hb

/-! ## Putting back -/

/-- Put an amount on the first lot that answers, or on a lot of its own. -/
def replenish (m : Measure α K) (p : α → Bool) (x : K) (fallback : α) : List α → List α
  | [] => [m.withAmount fallback x]
  | a :: l => if p a then m.withAmount a (m.amount a + x) :: l else a :: replenish m p x fallback l

/-- A class that the answering lots share with the fallback grows by the amount. -/
theorem sum_replenish (stable : Stable m q) {x : K} {fallback : α} (hx : 0 < x)
    (hfallback : 0 < m.amount fallback)
    (answering : ∀ a ∈ l, p a = true → 0 < m.amount a ∧ q a = q fallback) :
    sumWhere q m.amount (replenish m p x fallback l) =
      sumWhere q m.amount l + if q fallback then x else 0 := by
  induction l with
  | nil =>
      rw [replenish, sumWhere_cons, stable _ _ hfallback hx, m.amount_withAmount _ _ hfallback hx]
      simp
  | cons a l ih =>
      rw [replenish]
      split
      · rename_i hp
        obtain ⟨hamount, hq⟩ := answering a List.mem_cons_self hp
        have positive : 0 < m.amount a + x := add_pos hamount hx
        rw [sumWhere_cons, sumWhere_cons, stable _ _ hamount positive,
          m.amount_withAmount _ _ hamount positive, ← hq]
        split <;> ring
      · rw [sumWhere_cons, sumWhere_cons, ih fun b hb => answering b (List.mem_cons_of_mem _ hb),
          add_assoc]

/-- Where a lot comes from. -/
theorem of_mem_replenish {x : K} {fallback b : α} (h : b ∈ replenish m p x fallback l) :
    b ∈ l ∨ b = m.withAmount fallback x ∨
      ∃ a ∈ l, p a = true ∧ b = m.withAmount a (m.amount a + x) := by
  induction l with
  | nil => exact .inr (.inl (List.mem_singleton.mp h))
  | cons a l ih =>
      rw [replenish] at h
      split at h
      · rename_i hp
        rcases List.mem_cons.mp h with rfl | h
        · exact .inr (.inr ⟨a, List.mem_cons_self, hp, rfl⟩)
        · exact .inl (List.mem_cons_of_mem _ h)
      · rcases List.mem_cons.mp h with rfl | h
        · exact .inl List.mem_cons_self
        · rcases ih h with h | h | ⟨c, hc, rest⟩
          · exact .inl (List.mem_cons_of_mem _ h)
          · exact .inr (.inl h)
          · exact .inr (.inr ⟨c, List.mem_cons_of_mem _ hc, rest⟩)

end Lots
