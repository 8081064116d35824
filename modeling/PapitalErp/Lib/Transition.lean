import Mathlib

/-!
# Operations that may be refused, and runs of them

A service applies one operation at a time inside a transaction: either the
operation is accepted and the state moves, or it is refused and everything it
wrote is rolled back. `step : σ → ι → Except ε σ` is such a service, and
`run step s ops` is the state after a finite list of requests, whatever mixture
of them was refused.

The invariant rules are stated once here. `Along C` restricts a run to requests
that meet a condition `C` in the state that receives them; it says nothing
about requests the service refuses.
-/

namespace Transition

universe u

variable {σ ι ε : Type*} {α β : Type u}

/-! ## Checks inside one operation -/

/-- Refuse with `e` unless `c` holds. -/
def ensure (c : Prop) [Decidable c] (e : ε) : Except ε Unit :=
  if c then .ok () else .error e

@[simp] theorem ensure_eq_ok {c : Prop} [Decidable c] {e : ε} {u : Unit} :
    ensure c e = .ok u ↔ c := by
  unfold ensure
  split <;> simp [*]

@[simp] theorem bind_eq_ok {x : Except ε α} {f : α → Except ε β} {b : β} :
    (x >>= f) = .ok b ↔ ∃ a, x = .ok a ∧ f a = .ok b := by
  cases x <;> simp [bind, Except.bind]

@[simp] theorem pure_eq_ok {a b : α} : (pure a : Except ε α) = .ok b ↔ a = b := by
  simp [pure, Except.pure]

@[simp] theorem throw_ne_ok {e : ε} {b : β} : (throw e : Except ε β) ≠ .ok b := by
  intro h
  cases h

/-- A check of every element of a list passes when each element passes it. -/
@[simp] theorem forM_eq_ok {γ : Type*} {l : List γ} {check : γ → Except ε PUnit} {u : PUnit} :
    forM l check = .ok u ↔ ∀ a ∈ l, check a = .ok ⟨⟩ := by
  induction l with
  | nil => simp
  | cons a l ih =>
      have unit : (∃ x, check a = .ok x) ↔ check a = .ok ⟨⟩ :=
        ⟨fun ⟨_, h⟩ => h, fun h => ⟨_, h⟩⟩
      simp [ih, unit]

/-- What every step of a loop preserves, a loop that is not refused preserves. -/
theorem foldlM_invariant {γ : Type*} {σ : Type u} {f : σ → γ → Except ε σ} {I : σ → Prop} {l : List γ}
    (preserved : ∀ s t, ∀ a ∈ l, I s → f s a = .ok t → I t) {s t : σ} (hs : I s)
    (h : l.foldlM f s = .ok t) : I t := by
  induction l generalizing s with
  | nil =>
      rw [List.foldlM_nil, pure_eq_ok] at h
      rwa [← h]
  | cons a l ih =>
      rw [List.foldlM_cons, bind_eq_ok] at h
      obtain ⟨middle, first, rest⟩ := h
      exact ih (fun s t a mem => preserved s t a (List.mem_cons_of_mem _ mem))
        (preserved s middle a List.mem_cons_self hs first) rest

/-! ## Runs -/

variable (step : σ → ι → Except ε σ)

/-- One request: a refused one leaves the state as it was. -/
def exec (s : σ) (op : ι) : σ :=
  match step s op with
  | .ok t => t
  | .error _ => s

/-- The state after a list of requests, accepted or not. -/
def run (s : σ) (ops : List ι) : σ := ops.foldl (exec step) s

@[simp] theorem run_nil (s : σ) : run step s [] = s := rfl

@[simp] theorem run_cons (s : σ) (op : ι) (ops : List ι) :
    run step s (op :: ops) = run step (exec step s op) ops := rfl

theorem run_append (s : σ) (ops ops' : List ι) :
    run step s (ops ++ ops') = run step (run step s ops) ops' := by
  simp [run, List.foldl_append]

/-- Every accepted request of the run meets `C` in the state that receives it. -/
def Along (C : σ → ι → Prop) : σ → List ι → Prop
  | _, [] => True
  | s, op :: ops => (∀ t, step s op = .ok t → C s op) ∧ Along C (exec step s op) ops

variable {step}

theorem exec_of_ok {s t : σ} {op : ι} (h : step s op = .ok t) : exec step s op = t := by
  simp [exec, h]

theorem exec_of_error {s : σ} {op : ι} {e : ε} (h : step s op = .error e) :
    exec step s op = s := by
  simp [exec, h]

/-- What every accepted request preserves, a request preserves. -/
theorem exec_invariant {I : σ → Prop} {s : σ} {op : ι} (hs : I s)
    (preserved : ∀ t, step s op = .ok t → I t) : I (exec step s op) := by
  cases h : step s op with
  | ok t =>
      rw [exec_of_ok h]
      exact preserved t h
  | error e =>
      rw [exec_of_error h]
      exact hs

/-- An invariant of the start that every accepted request preserves holds after
every run. -/
theorem run_invariant {I : σ → Prop}
    (preserved : ∀ s op t, I s → step s op = .ok t → I t) {s : σ} (hs : I s)
    (ops : List ι) : I (run step s ops) := by
  induction ops generalizing s with
  | nil => exact hs
  | cons op ops ih =>
      rw [run_cons]
      exact ih (exec_invariant hs fun t h => preserved s op t hs h)

/-- The same rule when only requests that meet `C` preserve the invariant. -/
theorem run_invariant_along {I : σ → Prop} {C : σ → ι → Prop}
    (preserved : ∀ s op t, I s → C s op → step s op = .ok t → I t) {s : σ} (hs : I s)
    {ops : List ι} (along : Along step C s ops) : I (run step s ops) := by
  induction ops generalizing s with
  | nil => exact hs
  | cons op ops ih =>
      obtain ⟨meets, rest⟩ := along
      rw [run_cons]
      exact ih (exec_invariant hs fun t h => preserved s op t hs (meets t h) h) rest

/-- Whether a run meets a decidable condition is decided by running it. -/
instance decidableAlong {C : σ → ι → Prop} [∀ s op, Decidable (C s op)] :
    ∀ (s : σ) (ops : List ι), Decidable (Along step C s ops)
  | _, [] => .isTrue trivial
  | s, op :: ops =>
      match decidableAlong (exec step s op) ops with
      | .isFalse fails => .isFalse fun along => fails along.2
      | .isTrue rest =>
          if meets : C s op then .isTrue ⟨fun _ _ => meets, rest⟩
          else
            match accepted : step s op with
            | .ok t => .isFalse fun along => meets (along.1 t accepted)
            | .error _ => .isTrue ⟨fun _ ok => by simp [accepted] at ok, rest⟩

/-- A condition that does not look at the state is a condition on the list. -/
theorem along_of_forall {C : σ → ι → Prop} {ops : List ι} (h : ∀ s, ∀ op ∈ ops, C s op)
    (s : σ) : Along step C s ops := by
  induction ops generalizing s with
  | nil => trivial
  | cons op ops ih =>
      exact ⟨fun _ _ => h s op (by simp), ih (fun s op' hop => h s op' (by simp [hop])) _⟩

theorem along_append {C : σ → ι → Prop} {s : σ} {ops ops' : List ι} :
    Along step C s (ops ++ ops') ↔ Along step C s ops ∧ Along step C (run step s ops) ops' := by
  induction ops generalizing s with
  | nil => simp [Along]
  | cons op ops ih => simp [Along, ih, and_assoc]

/-- A condition that holds of every state on the way, whatever is requested there. -/
theorem along_of_take {C : σ → ι → Prop} {s : σ} {ops : List ι}
    (h : ∀ n op, C (run step s (ops.take n)) op) : Along step C s ops := by
  induction ops generalizing s with
  | nil => trivial
  | cons op ops ih => exact ⟨fun _ _ => h 0 op, ih fun n => h (n + 1)⟩

/-- Conditions that agree on the accepted requests of every state that an invariant
allows agree along a run. -/
theorem along_congr {I : σ → Prop} {C D : σ → ι → Prop}
    (preserved : ∀ s op t, I s → step s op = .ok t → I t)
    (agree : ∀ s op t, I s → step s op = .ok t → (C s op ↔ D s op)) {s : σ} (hs : I s)
    {ops : List ι} : Along step C s ops ↔ Along step D s ops := by
  induction ops generalizing s with
  | nil => exact Iff.rfl
  | cons op ops ih =>
      refine and_congr ?_ (ih (exec_invariant hs fun t => preserved s op t hs))
      exact forall_congr' fun t => imp_congr_right fun accepted => agree s op t hs accepted

theorem Along.and {C : σ → ι → Prop} {D : ι → Prop} {s : σ} {ops : List ι} (h : Along step C s ops)
    (all : ∀ op ∈ ops, D op) : Along step (fun s op => C s op ∧ D op) s ops := by
  induction ops generalizing s with
  | nil => trivial
  | cons op ops ih =>
      obtain ⟨meets, rest⟩ := h
      exact ⟨fun t accepted => ⟨meets t accepted, all op List.mem_cons_self⟩,
        ih rest fun op' mem => all op' (List.mem_cons_of_mem op mem)⟩

/-- A condition that every good outcome of a request needs holds along a run whose states
are all good. `J` is what the good outcomes keep besides. -/
theorem along_of_prefixes {I J : σ → Prop} {C : σ → ι → Prop}
    (needs : ∀ s op t, J s → step s op = .ok t → I t → C s op ∧ J t) {s : σ} (hs : J s)
    {ops : List ι} (good : ∀ n, I (run step s (ops.take n))) : Along step C s ops := by
  induction ops generalizing s with
  | nil => trivial
  | cons op ops ih =>
      have first : ∀ t, step s op = .ok t → C s op ∧ J t := by
        intro t accepted
        refine needs s op t hs accepted ?_
        have next := good 1
        rwa [List.take_succ_cons, List.take_zero, run_cons, run_nil, exec_of_ok accepted] at next
      refine ⟨fun t accepted => (first t accepted).1,
        ih (exec_invariant hs fun t accepted => (first t accepted).2) fun n => ?_⟩
      have next := good (n + 1)
      rwa [List.take_succ_cons, run_cons] at next

/-- Every prefix of a run whose requests meet the condition meets it. -/
theorem Along.take {C : σ → ι → Prop} {s : σ} {ops : List ι} (h : Along step C s ops) (n : ℕ) :
    Along step C s (ops.take n) := by
  rw [← List.take_append_drop n ops, along_append] at h
  exact h.1

end Transition
