import Mathlib.Data.List.Sort
import Mathlib.Logic.Relation
import PapitalErp.Lib.Transition

/-!
# Transactions that wait for each other's locks

A number of transactions of any size each take a fixed list of exclusive locks,
one after the other, and give all of them back when they end. A transaction
whose next lock is taken, or asked for by an earlier one, waits. Nothing is
assumed of the scheduler beyond that: a lock that becomes free may go to any
transaction that wants it.

`no_deadlock` is the classical argument: where every list climbs along one rank
of the locks, a transaction only waits for transactions further up, so the waits
have no cycle. A lock that the transaction already has may come again in its
list.
-/

namespace LockWaits

variable {ι R κ : Type*} [DecidableEq ι] [DecidableEq R]

/-- How far each transaction is in its list, who has each lock, and the waiting
transactions in the order they began to wait. -/
structure State (ι R : Type*) where
  taken : ι → ℕ
  holder : R → Option ι
  waiting : List ι

/-- Nothing is locked yet. -/
def start : State ι R where
  taken _ := 0
  holder _ := none
  waiting := []

inductive Move (ι : Type*)
  | take (i : ι)
  | wait (i : ι)
  | finish (i : ι)

section System

variable (locks : ι → List R)

/-- The lock that the transaction asks for. -/
def next (s : State ι R) (i : ι) : Option R := (locks i)[s.taken i]?

/-- Somebody else has the lock, or waits for it. -/
def Contended (s : State ι R) (r : R) : Prop :=
  s.holder r ≠ none ∨ ∃ j ∈ s.waiting, next locks s j = some r

instance (s : State ι R) (r : R) : Decidable (Contended locks s r) :=
  inferInstanceAs (Decidable (_ ∨ _))

/-- One move; a move that is not possible is refused. -/
def step (s : State ι R) : Move ι → Except Unit (State ι R)
  | .take i =>
      match next locks s i with
      | none => .error ()
      | some r =>
          if s.holder r = none ∨ s.holder r = some i then
            .ok {
              taken := Function.update s.taken i (s.taken i + 1)
              holder := Function.update s.holder r (some i)
              waiting := s.waiting.filter (· ≠ i) }
          else .error ()
  | .wait i =>
      match next locks s i with
      | none => .error ()
      | some r =>
          if s.holder r ≠ some i ∧ i ∉ s.waiting ∧ Contended locks s r then
            .ok { s with waiting := s.waiting ++ [i] }
          else .error ()
  | .finish i =>
      if s.taken i = (locks i).length then
        .ok { s with holder := fun r => if s.holder r = some i then none else s.holder r }
      else .error ()

/-- A waiting transaction waits for the one that has its lock, and for those that
asked for the same lock before it. -/
def WaitsFor (s : State ι R) (i j : ι) : Prop :=
  i ∈ s.waiting ∧ j ≠ i ∧ ∃ r, next locks s i = some r ∧
    (s.holder r = some j ∨ next locks s j = some r ∧ s.waiting.idxOf j < s.waiting.idxOf i)

/-- The waits have a cycle. -/
def Deadlocked (s : State ι R) : Prop := ∃ i, Relation.TransGen (WaitsFor locks s) i i

/-- Every lock that is new in the list ranks above all locks before it. -/
def Climbs [Preorder κ] (rank : R → κ) (l : List R) : Prop :=
  ∀ n r, l[n]? = some r → r ∉ l.take n → ∀ x ∈ l.take n, rank x < rank r

/-! ## What holds in every reachable state -/

structure Sound (s : State ι R) : Prop where
  held_taken : ∀ r i, s.holder r = some i → r ∈ (locks i).take (s.taken i)
  taken_held : ∀ i, s.taken i < (locks i).length →
    ∀ r ∈ (locks i).take (s.taken i), s.holder r = some i
  waiting_next : ∀ i ∈ s.waiting, ∃ r, next locks s i = some r ∧ s.holder r ≠ some i

variable {locks}

omit [DecidableEq ι] [DecidableEq R] in
theorem sound_start : Sound locks (start : State ι R) where
  held_taken r i held := by simp [start] at held
  taken_held i _ r mem := by simp [start] at mem
  waiting_next i mem := by simp [start] at mem

omit [DecidableEq ι] [DecidableEq R] in
theorem lt_length_of_next {s : State ι R} {i : ι} {r : R} (h : next locks s i = some r) :
    s.taken i < (locks i).length :=
  (List.getElem?_eq_some_iff.1 h).1

omit [DecidableEq R] in
theorem mem_take_succ {l : List R} {n : ℕ} {r x : R} (h : l[n]? = some r) :
    x ∈ l.take (n + 1) ↔ x ∈ l.take n ∨ x = r := by
  rw [List.take_add_one, h]
  simp

theorem Sound.take {s : State ι R} (h : Sound locks s) {i : ι} {r : R}
    (asked : next locks s i = some r) (free : s.holder r = none ∨ s.holder r = some i) :
    Sound locks {
      taken := Function.update s.taken i (s.taken i + 1)
      holder := Function.update s.holder r (some i)
      waiting := s.waiting.filter (· ≠ i) } where
  held_taken x j held := by
    by_cases same : j = i
    · subst same
      simp only [Function.update_self]
      rw [mem_take_succ asked]
      by_cases new : x = r
      · exact .inr new
      · exact .inl (h.held_taken x j (by simpa [new] using held))
    · have other : x ≠ r := by
        rintro rfl
        simp [Ne.symm same] at held
      simp only [Function.update_of_ne other] at held
      simpa [Function.update_of_ne same] using h.held_taken x j held
  taken_held j unfinished x mem := by
    by_cases same : j = i
    · subst same
      simp only [Function.update_self] at mem
      rcases (mem_take_succ asked).1 mem with mem | rfl
      · by_cases new : x = r
        · simp [new]
        · simpa [new] using h.taken_held j (lt_length_of_next asked) x mem
      · simp
    · simp only [Function.update_of_ne same] at unfinished mem
      have held : s.holder x = some j := h.taken_held j unfinished x mem
      have other : x ≠ r := by
        rintro rfl
        rcases free with free | free <;> rw [free] at held
        · cases held
        · exact same (Option.some.inj held).symm
      simpa [Function.update_of_ne other] using held
  waiting_next j mem := by
    obtain ⟨waits, other⟩ : j ∈ s.waiting ∧ j ≠ i := by simpa using mem
    obtain ⟨x, wanted, free'⟩ := h.waiting_next j waits
    refine ⟨x, by simpa [next, Function.update_of_ne other] using wanted, ?_⟩
    by_cases same : x = r
    · simp [same, Ne.symm other]
    · simpa [same] using free'

omit [DecidableEq ι] [DecidableEq R] in
theorem Sound.wait {s : State ι R} (h : Sound locks s) {i : ι} {r : R}
    (asked : next locks s i = some r) (free : s.holder r ≠ some i) :
    Sound locks { s with waiting := s.waiting ++ [i] } where
  held_taken := h.held_taken
  taken_held := h.taken_held
  waiting_next j mem := by
    rcases List.mem_append.1 mem with mem | mem
    · exact h.waiting_next j mem
    · obtain rfl := List.mem_singleton.1 mem
      exact ⟨r, asked, free⟩

omit [DecidableEq R] in
theorem Sound.finish {s : State ι R} (h : Sound locks s) {i : ι}
    (over' : s.taken i = (locks i).length) :
    Sound locks { s with holder := fun r => if s.holder r = some i then none else s.holder r } where
  held_taken r j held := by
    apply h.held_taken r j
    by_cases gone : s.holder r = some i
    · simp [gone] at held
    · simpa [gone] using held
  taken_held j unfinished r mem := by
    have held : s.holder r = some j := h.taken_held j unfinished r mem
    have other : j ≠ i := by
      rintro rfl
      have : s.taken j < (locks j).length := unfinished
      omega
    simp [held, other]
  waiting_next j mem := by
    obtain ⟨r, wanted, free⟩ := h.waiting_next j mem
    refine ⟨r, wanted, ?_⟩
    by_cases gone : s.holder r = some i
    · simp [gone]
    · simpa [gone] using free

/-- One move keeps the state sound. -/
theorem Sound.step {s t : State ι R} {move : Move ι} (h : Sound locks s)
    (ok : step locks s move = .ok t) : Sound locks t := by
  cases move with
  | take i =>
      cases asked : next locks s i with
      | none => simp [LockWaits.step, asked] at ok
      | some r =>
          by_cases free : s.holder r = none ∨ s.holder r = some i
          · simp only [LockWaits.step, asked, if_pos free, Except.ok.injEq] at ok
            exact ok ▸ h.take asked free
          · simp [LockWaits.step, asked, free] at ok
  | wait i =>
      cases asked : next locks s i with
      | none => simp [LockWaits.step, asked] at ok
      | some r =>
          by_cases may : s.holder r ≠ some i ∧ i ∉ s.waiting ∧ Contended locks s r
          · simp only [LockWaits.step, asked, if_pos may, Except.ok.injEq] at ok
            exact ok ▸ h.wait asked may.1
          · simp only [LockWaits.step, asked, if_neg may, reduceCtorEq] at ok
  | finish i =>
      by_cases done : s.taken i = (locks i).length
      · simp only [LockWaits.step, if_pos done, Except.ok.injEq] at ok
        exact ok ▸ h.finish done
      · simp [LockWaits.step, done] at ok

/-! ## No cycle -/

section Rank

variable [Preorder κ] {rank : R → κ}

/-- The lock `j` asks for ranks above the one `i` asks for, or is the same lock and
`j` asked for it first. -/
def Above (locks : ι → List R) (rank : R → κ) (s : State ι R) (i j : ι) : Prop :=
  ∃ r r', next locks s i = some r ∧ next locks s j = some r' ∧
    (rank r < rank r' ∨ r = r' ∧ s.waiting.idxOf j < s.waiting.idxOf i)

omit [DecidableEq R] in
theorem Above.trans {s : State ι R} {i j k : ι} (first : Above locks rank s i j)
    (second : Above locks rank s j k) : Above locks rank s i k := by
  obtain ⟨r, r₁, hr, hr₁, first⟩ := first
  obtain ⟨r₁', r₂, hr₁', hr₂, second⟩ := second
  obtain rfl : r₁ = r₁' := Option.some.inj (hr₁.symm.trans hr₁')
  refine ⟨r, r₂, hr, hr₂, ?_⟩
  rcases first with less | ⟨rfl, before⟩
  · rcases second with less' | ⟨rfl, _⟩
    · exact .inl (less.trans less')
    · exact .inl less
  · rcases second with less' | ⟨rfl, before'⟩
    · exact .inl less'
    · exact .inr ⟨rfl, before'.trans before⟩

omit [DecidableEq R] in
theorem not_above_self {s : State ι R} {i : ι} : ¬ Above locks rank s i i := by
  rintro ⟨r, r', hr, hr', above⟩
  obtain rfl : r = r' := Option.some.inj (hr.symm.trans hr')
  rcases above with less | ⟨_, before⟩
  · exact lt_irrefl _ less
  · exact Nat.lt_irrefl _ before

omit [DecidableEq R] in
/-- A transaction waits only for waiting transactions further up. -/
theorem WaitsFor.above {s : State ι R} (h : Sound locks s)
    (climbs : ∀ i, Climbs rank (locks i)) {i j : ι} (waits : WaitsFor locks s i j)
    (waiting : j ∈ s.waiting) : Above locks rank s i j := by
  obtain ⟨_, _, r, wanted, held | ⟨wanted', before⟩⟩ := waits
  · obtain ⟨r', wanted', free⟩ := h.waiting_next j waiting
    have new : r' ∉ (locks j).take (s.taken j) := fun mem =>
      free (h.taken_held j (lt_length_of_next wanted') r' mem)
    exact ⟨r, r', wanted, wanted',
      .inl (climbs j (s.taken j) r' wanted' new r (h.held_taken r j held))⟩
  · exact ⟨r, r, wanted, wanted', .inr ⟨rfl, before⟩⟩

/-- So a chain of waits leads further up. -/
theorem above_of_chain {s : State ι R} (h : Sound locks s) (climbs : ∀ i, Climbs rank (locks i))
    {i j : ι} (chain : Relation.TransGen (WaitsFor locks s) i j) (waiting : j ∈ s.waiting) :
    Above locks rank s i j := by
  induction chain with
  | single waits => exact waits.above h climbs waiting
  | tail _ waits ih => exact (ih waits.1).trans (waits.above h climbs waiting)

omit [DecidableEq ι] [DecidableEq R] in
/-- A list climbs when each of its locks ranks above every earlier one or repeats it. -/
theorem climbs_of_pairwise {l : List R}
    (h : l.Pairwise fun a b => a = b ∨ rank a < rank b) : Climbs rank l := by
  intro n r asked new x mem
  obtain ⟨m, hm, rfl⟩ := List.mem_iff_getElem.1 mem
  obtain ⟨bound, rfl⟩ := List.getElem?_eq_some_iff.1 asked
  have before : m < n := by
    rw [List.length_take] at hm
    omega
  rw [List.getElem_take] at *
  rcases List.pairwise_iff_getElem.1 h m n (before.trans bound) bound before with same | less
  · exact absurd (same ▸ mem) new
  · exact less

/-- Where every list climbs along one rank, no reachable state has a cycle of waits. -/
theorem no_deadlock (climbs : ∀ i, Climbs rank (locks i)) (moves : List (Move ι)) :
    ¬ Deadlocked locks (Transition.run (step locks) start moves) := by
  have sound : Sound locks (Transition.run (step locks) start moves) :=
    Transition.run_invariant (fun _ _ _ h ok => h.step ok) sound_start moves
  rintro ⟨i, cycle⟩
  have waiting : i ∈ (Transition.run (step locks) start moves).waiting := by
    obtain ⟨j, waits, _⟩ := Relation.TransGen.head'_iff.1 cycle
    exact waits.1
  exact not_above_self (above_of_chain sound climbs cycle waiting)

end Rank

end System

end LockWaits
