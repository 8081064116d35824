import PapitalErp.Lib.Transition
import Mathlib.Data.Finset.Basic
import Mathlib.Data.Finset.Insert
import Mathlib.Logic.Function.Basic

/-!
# Processes that interleave on a shared state

Every process runs its own statements on a state they share. One statement is
atomic; between two of them any other process may run, and a process may stop
for good. `Program ι α σ τ` gives the effect of the next statement of a process:
`ι` names the processes, `α` what the environment decides (an answer, a failure,
a lapse of time), `σ` is the shared state and `τ` the state of one process.
`none` is a statement that cannot run now, for instance one that waits for a
lock.

An outline gives every process an assertion about the shared state and its own.
When each statement keeps the invariant and the assertion of its process, and
disturbs no assertion of another process, all of them hold after every schedule.
-/

namespace Interleaving

open Transition

/-- The effect of the next statement of a process. -/
def Program (ι α σ τ : Type*) := ι → α → σ → τ → Option (σ × τ)

/-- The shared state and the state of every process. -/
structure Config (ι σ τ : Type*) where
  shared : σ
  locals : ι → τ

/-- A statement that cannot run now. -/
inductive Refusal where
  | blocked

variable {ι α σ τ : Type*} [DecidableEq ι]

/-- The process of the first component runs its next statement. -/
def Program.step (P : Program ι α σ τ) (c : Config ι σ τ) (turn : ι × α) :
    Except Refusal (Config ι σ τ) :=
  match P turn.1 turn.2 c.shared (c.locals turn.1) with
  | none => .error .blocked
  | some (s, l) => .ok ⟨s, Function.update c.locals turn.1 l⟩

/-- The configuration after a schedule; a turn of a process that is blocked passes. -/
def Program.after (P : Program ι α σ τ) (c : Config ι σ τ) (schedule : List (ι × α)) :
    Config ι σ τ :=
  run P.step c schedule

/-- Every turn of the schedule that runs meets `C`. -/
def Program.Meets (P : Program ι α σ τ) (C : ι → α → σ → τ → Prop) (c : Config ι σ τ)
    (schedule : List (ι × α)) : Prop :=
  Along P.step (fun c turn => C turn.1 turn.2 c.shared (c.locals turn.1)) c schedule

instance {P : Program ι α σ τ} {C : ι → α → σ → τ → Prop} [∀ i a s l, Decidable (C i a s l)]
    (c : Config ι σ τ) (schedule : List (ι × α)) : Decidable (P.Meets C c schedule) :=
  decidableAlong c schedule

theorem Program.step_ok {P : Program ι α σ τ} {c c' : Config ι σ τ} {turn : ι × α} :
    P.step c turn = .ok c' ↔ ∃ s l, P turn.1 turn.2 c.shared (c.locals turn.1) = some (s, l) ∧
      c' = ⟨s, Function.update c.locals turn.1 l⟩ := by
  unfold Program.step
  cases result : P turn.1 turn.2 c.shared (c.locals turn.1) with
  | none => simp
  | some out =>
      constructor
      · rintro ⟨⟩
        exact ⟨out.1, out.2, rfl, rfl⟩
      · rintro ⟨s, l, same, rfl⟩
        obtain rfl := Option.some.inj same
        rfl

/-- An invariant of the shared state and an assertion for every process that the
statements meeting `C` keep. -/
structure Outline (P : Program ι α σ τ) (C : ι → α → σ → τ → Prop) (I : σ → Prop)
    (A : ι → σ → τ → Prop) : Prop where
  /-- A statement keeps the invariant and its own process's assertion. -/
  own : ∀ {i a s l s' l'}, I s → A i s l → C i a s l → P i a s l = some (s', l') →
    I s' ∧ A i s' l'
  /-- A statement disturbs no other process. -/
  others : ∀ {i a s l s' l' j m}, j ≠ i → I s → A i s l → A j s m → C i a s l →
    P i a s l = some (s', l') → A j s' m

/-- The invariant and the assertions hold together. -/
structure Holds (I : σ → Prop) (A : ι → σ → τ → Prop) (c : Config ι σ τ) : Prop where
  shared : I c.shared
  locals : ∀ i, A i c.shared (c.locals i)

variable {P : Program ι α σ τ} {C : ι → α → σ → τ → Prop} {I : σ → Prop} {A : ι → σ → τ → Prop}

theorem Outline.step (h : Outline P C I A) {c c' : Config ι σ τ} {turn : ι × α}
    (holds : Holds I A c) (meets : C turn.1 turn.2 c.shared (c.locals turn.1))
    (runs : P.step c turn = .ok c') : Holds I A c' := by
  obtain ⟨s, l, statement, rfl⟩ := Program.step_ok.mp runs
  obtain ⟨shared, own⟩ := h.own holds.shared (holds.locals turn.1) meets statement
  refine ⟨shared, fun j => ?_⟩
  by_cases same : j = turn.1
  · subst same
    simpa using own
  · show A j s (Function.update c.locals turn.1 l j)
    rw [Function.update_of_ne same]
    exact h.others same holds.shared (holds.locals turn.1) (holds.locals j) meets statement

/-- The rule for schedules whose turns meet the condition. -/
theorem Outline.after_meets (h : Outline P C I A) {c : Config ι σ τ} (holds : Holds I A c)
    {schedule : List (ι × α)} (meets : P.Meets C c schedule) :
    Holds I A (P.after c schedule) :=
  run_invariant_along (fun _ _ _ holds meets runs => h.step holds meets runs) holds meets

/-- What every statement does to the shared state, a schedule does. -/
theorem Outline.after_rel (h : Outline P C I A) {R : σ → σ → Prop} (refl : ∀ s, R s s)
    (trans : ∀ {s s' s''}, R s s' → R s' s'' → R s s'')
    (statement : ∀ {i a s l s' l'}, I s → A i s l → C i a s l → P i a s l = some (s', l') → R s s')
    {c : Config ι σ τ} (holds : Holds I A c) {schedule : List (ι × α)} (meets : P.Meets C c schedule) :
    R c.shared (P.after c schedule).shared := by
  have both : Holds I A (P.after c schedule) ∧ R c.shared (P.after c schedule).shared := by
    refine run_invariant_along (I := fun d => Holds I A d ∧ R c.shared d.shared) ?_ ⟨holds, refl _⟩ meets
    rintro d turn d' ⟨holds, related⟩ meets runs
    obtain ⟨s, l, taken, rfl⟩ := Program.step_ok.mp runs
    exact ⟨h.step holds meets runs, trans related (statement holds.shared (holds.locals turn.1) meets taken)⟩
  exact both.2

theorem Program.Meets.append {c : Config ι σ τ} {schedule later : List (ι × α)} :
    P.Meets C c (schedule ++ later) ↔
      P.Meets C c schedule ∧ P.Meets C (P.after c schedule) later :=
  along_append

theorem Program.after_append (c : Config ι σ τ) (schedule later : List (ι × α)) :
    P.after c (schedule ++ later) = P.after (P.after c schedule) later :=
  run_append P.step c schedule later

/-- A process that has no turn in a schedule stays where it is. -/
theorem Program.after_locals (c : Config ι σ τ) {i : ι} {schedule : List (ι × α)}
    (absent : ∀ turn ∈ schedule, turn.1 ≠ i) : (P.after c schedule).locals i = c.locals i := by
  refine run_invariant_along (I := fun d : Config ι σ τ => d.locals i = c.locals i)
    (C := fun _ (turn : ι × α) => turn.1 ≠ i) (fun d turn d' same apart runs => ?_) rfl (along_of_forall (fun _ turn mem => absent turn mem) c)
  obtain ⟨s, l, -, rfl⟩ := Program.step_ok.mp runs
  exact (Function.update_of_ne apart.symm l d.locals).trans same

/-- The rule for all schedules. -/
theorem Outline.after (h : Outline P (fun _ _ _ _ => True) I A) {c : Config ι σ τ}
    (holds : Holds I A c) (schedule : List (ι × α)) : Holds I A (P.after c schedule) :=
  h.after_meets holds (along_of_forall (fun _ _ _ => trivial) c)

/-! ## Row locks

A lock has one holder at most and is kept to the end of the holder's transaction. -/

/-- The holder of the lock of each row. -/
abbrev Locks (κ ι : Type*) := κ → Option ι

namespace Locks

variable {κ : Type*} [DecidableEq κ] {locks : Locks κ ι} {i j : ι} {row row' : κ}

/-- Take the lock of a row; a lock that another process holds blocks. -/
def take (locks : Locks κ ι) (i : ι) (row : κ) : Option (Locks κ ι) :=
  if locks row = none ∨ locks row = some i then some (Function.update locks row (some i)) else none

/-- Take the locks of several rows. -/
def takeAll (locks : Locks κ ι) (i : ι) (rows : List κ) : Option (Locks κ ι) :=
  rows.foldlM (fun locks row => locks.take i row) locks

/-- Give back every lock of a process. -/
def release (locks : Locks κ ι) (i : ι) : Locks κ ι :=
  fun row => if locks row = some i then none else locks row

theorem take_self {locks' : Locks κ ι} (h : locks.take i row = some locks') :
    locks' row = some i := by
  unfold take at h
  split_ifs at h
  obtain rfl := Option.some.inj h
  exact Function.update_self _ _ _

theorem take_other {locks' : Locks κ ι} (h : locks.take i row = some locks') (other : row' ≠ row) :
    locks' row' = locks row' := by
  unfold take at h
  split_ifs at h
  obtain rfl := Option.some.inj h
  exact Function.update_of_ne other _ _

/-- A process keeps its locks when another one takes a lock. -/
theorem take_keeps {locks' : Locks κ ι} (h : locks.take i row = some locks')
    (held : locks row' = some j) : locks' row' = some j ∨ row' = row ∧ j = i := by
  unfold take at h
  split_ifs at h with free
  obtain rfl := Option.some.inj h
  by_cases same : row' = row
  · subst same
    refine .inr ⟨rfl, ?_⟩
    rcases free with none | own
    · rw [none] at held
      cases held
    · exact Option.some.inj (held.symm.trans own)
  · refine .inl ?_
    rw [Function.update_of_ne same]
    exact held

theorem take_keeps_own {locks' : Locks κ ι} (h : locks.take i row = some locks')
    (held : locks row' = some i) : locks' row' = some i := by
  rcases take_keeps h held with kept | ⟨rfl, -⟩
  · exact kept
  · exact take_self h

omit [DecidableEq κ] in
/-- What is held after a release was held before, by another process. -/
theorem held_of_release (held : locks.release i row = some j) : locks row = some j := by
  unfold release at held
  split_ifs at held
  exact held

omit [DecidableEq κ] in
theorem release_ne_self (held : locks.release i row = some j) : j ≠ i := by
  rintro rfl
  unfold release at held
  split_ifs at held with own
  exact own held

/-- A process keeps its locks when another one takes some. -/
theorem takeAll_keeps {locks' : Locks κ ι} {rows : List κ} (h : locks.takeAll i rows = some locks')
    (apart : j ≠ i) (held : locks row' = some j) : locks' row' = some j := by
  induction rows generalizing locks with
  | nil =>
      obtain rfl : locks = locks' := by simpa [takeAll] using h
      exact held
  | cons row rows ih =>
      obtain ⟨middle, first, rest⟩ := Option.bind_eq_some_iff.mp h
      obtain kept | ⟨-, same⟩ := take_keeps first held
      · exact ih rest kept
      · exact absurd same apart

theorem takeAll_keeps_own {locks' : Locks κ ι} {rows : List κ}
    (h : locks.takeAll i rows = some locks') (held : locks row' = some i) : locks' row' = some i := by
  induction rows generalizing locks with
  | nil =>
      obtain rfl : locks = locks' := by simpa [takeAll] using h
      exact held
  | cons row rows ih =>
      obtain ⟨middle, first, rest⟩ := Option.bind_eq_some_iff.mp h
      exact ih rest (take_keeps_own first held)

theorem takeAll_self {locks' : Locks κ ι} {rows : List κ} (h : locks.takeAll i rows = some locks')
    (mem : row ∈ rows) : locks' row = some i := by
  induction rows generalizing locks with
  | nil => cases mem
  | cons first rows ih =>
      obtain ⟨middle, taken, rest⟩ := Option.bind_eq_some_iff.mp h
      obtain rfl | mem := List.mem_cons.mp mem
      · exact takeAll_keeps_own rest (take_self taken)
      · exact ih rest mem

omit [DecidableEq κ] in
theorem release_keeps (apart : j ≠ i) (held : locks row = some j) :
    locks.release i row = some j := by
  have other : ¬locks row = some i := by
    rw [held]
    exact fun same => apart (Option.some.inj same)
  rw [release, if_neg other, held]

end Locks

/-! ## Shared and exclusive row locks

FOR SHARE admits other holders of the same kind, FOR UPDATE admits none. -/

/-- The exclusive holder and the shared holders of each row. -/
structure RowLocks (κ ι : Type*) where
  owner : κ → Option ι
  sharers : κ → Finset ι

namespace RowLocks

variable {κ : Type*} [DecidableEq κ] {locks locks' : RowLocks κ ι} {i j : ι} {row row' : κ}

/-- No process holds a lock. -/
def free : RowLocks κ ι := ⟨fun _ => none, fun _ => ∅⟩

/-- Lock a row FOR SHARE; the exclusive lock of another process blocks. -/
def share (locks : RowLocks κ ι) (i : ι) (row : κ) : Option (RowLocks κ ι) :=
  if locks.owner row = none ∨ locks.owner row = some i then
    some { locks with sharers := Function.update locks.sharers row (insert i (locks.sharers row)) }
  else none

/-- Lock a row FOR UPDATE; any lock of another process blocks. -/
def own (locks : RowLocks κ ι) (i : ι) (row : κ) : Option (RowLocks κ ι) :=
  if (locks.owner row = none ∨ locks.owner row = some i) ∧ ∀ j ∈ locks.sharers row, j = i then
    some { locks with owner := Function.update locks.owner row (some i) }
  else none

/-- Give back every lock of a process. -/
def release (locks : RowLocks κ ι) (i : ι) : RowLocks κ ι :=
  ⟨fun row => if locks.owner row = some i then none else locks.owner row,
    fun row => (locks.sharers row).erase i⟩

/-- A process holds a lock of either kind. -/
def Holds (locks : RowLocks κ ι) (i : ι) (row : κ) : Prop :=
  locks.owner row = some i ∨ i ∈ locks.sharers row

/-- An exclusive holder is the only one. -/
def Consistent (locks : RowLocks κ ι) : Prop :=
  ∀ row i, locks.owner row = some i → ∀ j ∈ locks.sharers row, j = i

/-- What a process holds stays. -/
structure Keeps (i : ι) (locks locks' : RowLocks κ ι) : Prop where
  owner : ∀ row, locks.owner row = some i → locks'.owner row = some i
  sharers : ∀ row, i ∈ locks.sharers row → i ∈ locks'.sharers row

omit [DecidableEq ι] [DecidableEq κ] in
theorem Keeps.refl (i : ι) (locks : RowLocks κ ι) : Keeps i locks locks :=
  ⟨fun _ => id, fun _ => id⟩

omit [DecidableEq ι] [DecidableEq κ] in
theorem Keeps.trans {locks'' : RowLocks κ ι} (h : Keeps i locks locks') (h' : Keeps i locks' locks'') :
    Keeps i locks locks'' :=
  ⟨fun row held => h'.owner row (h.owner row held), fun row held => h'.sharers row (h.sharers row held)⟩

omit [DecidableEq ι] [DecidableEq κ] in
theorem Keeps.holds (h : Keeps i locks locks') (held : locks.Holds i row) : locks'.Holds i row :=
  held.imp (h.owner row) (h.sharers row)

omit [DecidableEq ι] [DecidableEq κ] in
theorem Consistent.eq_of_owner (h : locks.Consistent) (owner : locks.owner row = some i)
    (held : locks.Holds j row) : j = i := by
  obtain other | shared := held
  · exact Option.some.inj (other.symm.trans owner)
  · exact h row i owner j shared

theorem share_eq_some (h : locks.share i row = some locks') :
    (locks.owner row = none ∨ locks.owner row = some i) ∧
      locks' = { locks with
        sharers := Function.update locks.sharers row (insert i (locks.sharers row)) } := by
  unfold share at h
  split_ifs at h with free
  exact ⟨free, (Option.some.inj h).symm⟩

theorem own_eq_some (h : locks.own i row = some locks') :
    ((locks.owner row = none ∨ locks.owner row = some i) ∧ ∀ j ∈ locks.sharers row, j = i) ∧
      locks' = { locks with owner := Function.update locks.owner row (some i) } := by
  unfold own at h
  split_ifs at h with free
  exact ⟨free, (Option.some.inj h).symm⟩

theorem mem_share (h : locks.share i row = some locks') (row' : κ) (j : ι) :
    j ∈ locks'.sharers row' ↔ j ∈ locks.sharers row' ∨ j = i ∧ row' = row := by
  obtain ⟨-, rfl⟩ := share_eq_some h
  by_cases same : row' = row
  · subst same
    simp [or_comm]
  · simp [same]

theorem share_holds (h : locks.share i row = some locks') : locks'.Holds i row :=
  .inr ((mem_share h row i).mpr (.inr ⟨rfl, rfl⟩))

theorem share_owner (h : locks.share i row = some locks') : locks'.owner = locks.owner := by
  obtain ⟨-, rfl⟩ := share_eq_some h
  rfl

theorem share_keeps (h : locks.share i row = some locks') (j : ι) : Keeps j locks locks' :=
  ⟨fun row' held => by rwa [share_owner h], fun row' held => (mem_share h row' j).mpr (.inl held)⟩

theorem share_consistent (consistent : locks.Consistent) (h : locks.share i row = some locks') :
    locks'.Consistent := by
  intro row' j owner k mem
  rw [share_owner h] at owner
  obtain old | ⟨rfl, rfl⟩ := (mem_share h row' k).mp mem
  · exact consistent row' j owner k old
  · obtain none | own := (share_eq_some h).1
    · cases owner.symm.trans none
    · exact Option.some.inj (own.symm.trans owner)

theorem owner_own (h : locks.own i row = some locks') (row' : κ) :
    locks'.owner row' = if row' = row then some i else locks.owner row' := by
  obtain ⟨-, rfl⟩ := own_eq_some h
  simp [Function.update_apply]

theorem own_owner (h : locks.own i row = some locks') : locks'.owner row = some i := by
  simp [owner_own h]

theorem own_sharers (h : locks.own i row = some locks') : locks'.sharers = locks.sharers := by
  obtain ⟨-, rfl⟩ := own_eq_some h
  rfl

theorem own_keeps (h : locks.own i row = some locks') (j : ι) : Keeps j locks locks' := by
  refine ⟨fun row' held => ?_, fun row' held => by rwa [own_sharers h]⟩
  rw [owner_own h]
  split_ifs with same
  · subst same
    obtain none | own := (own_eq_some h).1.1
    · cases held.symm.trans none
    · exact own.symm.trans held
  · exact held

theorem own_consistent (consistent : locks.Consistent) (h : locks.own i row = some locks') :
    locks'.Consistent := by
  intro row' j owner k mem
  rw [own_sharers h] at mem
  rw [owner_own h] at owner
  split_ifs at owner with same
  · subst same
    obtain rfl := Option.some.inj owner
    exact (own_eq_some h).1.2 k mem
  · exact consistent row' j owner k mem

omit [DecidableEq κ] in
theorem release_keeps (apart : j ≠ i) : Keeps j locks (locks.release i) := by
  refine ⟨fun row held => ?_, fun row held => Finset.mem_erase.mpr ⟨apart, held⟩⟩
  have other : ¬locks.owner row = some i := by
    rw [held]
    exact fun same => apart (Option.some.inj same)
  show (if locks.owner row = some i then none else locks.owner row) = some j
  rw [if_neg other, held]

omit [DecidableEq κ] in
theorem release_holds (h : (locks.release i).Holds j row) : locks.Holds j row := by
  refine h.imp (fun owner => ?_) fun mem => (Finset.mem_erase.mp mem).2
  by_cases other : locks.owner row = some i
  · simp [release, other] at owner
  · simpa [release, other] using owner

omit [DecidableEq κ] in
theorem release_consistent (consistent : locks.Consistent) : (locks.release i).Consistent := by
  intro row j owner k mem
  refine consistent row j ?_ k (Finset.mem_erase.mp mem).2
  by_cases other : locks.owner row = some i
  · simp [release, other] at owner
  · simpa [release, other] using owner

end RowLocks

end Interleaving
