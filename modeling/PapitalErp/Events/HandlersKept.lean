import PapitalErp.Events.Outbox

/-!
# Handlers recorded as succeeded

A worker and a replay dispatch by the handlers they have read and write them back by
the id of the event alone; a recovery writes by the id what it decided from an older
read. While a read is fresh at the dispatch and at the write-back, and nobody writes
a failure or a recovery over a completed event, the recorded handlers only grow, none
of them is dispatched again, and a completed event stays completed until a requeue.
-/

namespace PapitalErp

open Interleaving

/-- The handlers that the next dispatch of a process runs. -/
def dispatchedHandlers (registered : List String) : OutboxProgress → List String
  | .claimed raw => dispatchTargets registered raw.completedHandlers
  | .replayRead _ previously => dispatchTargets registered previously
  | _ => []

/-- No handler has been recorded between a read and the dispatch or the write-back that
goes by it, and no failure or recovery is written over a completed event. -/
def ReadIsFresh (_ : ℕ) (turn : OutboxTurn) (t : OutboxTables) (progress : OutboxProgress) : Prop :=
  match turn, progress with
  | .dispatch _, .claimed raw => t.row.completedHandlers ⊆ raw.completedHandlers
  | .proceed _, .dispatched raw _ failed =>
      t.row.completedHandlers ⊆ raw.completedHandlers ∧ (failed = true → t.row.status ≠ .completed)
  | .proceed _, .stuck _ => t.row.status ≠ .completed
  | .dispatch _, .replayRead _ previously => t.row.completedHandlers ⊆ previously
  | .proceed _, .replayDispatched _ previously _ _ => t.row.completedHandlers ⊆ previously
  | _, _ => True

/-- What a dispatch returns includes what it was told. -/
def IncludesRead (_ : ℕ) (_ : OutboxTables) : OutboxProgress → Prop
  | .dispatched raw completedHandlers _ => raw.completedHandlers ⊆ completedHandlers
  | .replayDispatched _ previously completedHandlers _ => previously ⊆ completedHandlers
  | _ => True

section Outline

variable {registered : List String} {actors : ℕ → OutboxActor} {i : ℕ} {t t' : OutboxTables}
  {next : OutboxProgress}

/-- The effect of a statement on the recorded handlers and on a completed event. -/
structure HandlersOutcome (requeue : Prop) (i : ℕ) (t t' : OutboxTables) (next : OutboxProgress) :
    Prop where
  own : IncludesRead i t' next
  grows : t.row.completedHandlers ⊆ t'.row.completedHandlers
  completed : ¬requeue → t.row.status = .completed → t'.row.status = .completed

namespace HandlersOutcome

variable {requeue : Prop}

/-- A statement that leaves the outbox row. -/
theorem sameRow (row : t'.row = t.row) (own : IncludesRead i t' next) :
    HandlersOutcome requeue i t t' next :=
  ⟨own, by rw [row], fun _ => by rw [row]; exact id⟩

end HandlersOutcome

theorem unlock_row (t : OutboxTables) (i : ℕ) : (t.unlock i).row = t.row := by
  unfold OutboxTables.unlock
  split_ifs <;> rfl

theorem requeue_keeps (t : OutboxTables) :
    (requeueUnresolvedToOutbox t).row.completedHandlers = t.row.completedHandlers := by
  unfold requeueUnresolvedToOutbox
  split
  · rfl
  · split_ifs <;> rfl

theorem handlers_start {now : ℕ} {actor : OutboxActor} {out}
    (runs : startStatement i now actor t = out) :
    HandlersOutcome (actor = .requeueUnresolvedToOutbox) i t out.1 out.2 := by
  subst runs
  cases actor with
  | processPendingBatch =>
      refine .sameRow rfl ?_
      show IncludesRead i t (if dueCondition now t.row then _ else _)
      split_ifs <;> trivial
  | recoverStuckEvents =>
      refine .sameRow rfl ?_
      show IncludesRead i t (if stuckCondition now t.row then _ else _)
      split_ifs <;> trivial
  | replayEvent =>
      simp only [startStatement]
      split_ifs
      · exact .sameRow rfl trivial
      · exact .sameRow rfl trivial
  | requeueUnresolvedToOutbox =>
      exact ⟨trivial, (requeue_keeps t).symm.subset, fun other => absurd rfl other⟩
  | retryFailedOutboxEvents =>
      simp only [startStatement, retryFailedOutboxEvents]
      split_ifs with refused
      · exact .sameRow rfl trivial
      · have failed : t.row.status = .failed := not_not.mp fun other => refused (.inl other)
        exact ⟨trivial, subset_rfl, fun _ completed => by simp [failed] at completed⟩

theorem handlers_claim {raw : OutboxRow} {now : ℕ} {requeue : Prop} {out}
    (runs : claim raw now t = out) : HandlersOutcome requeue i t out.1 out.2 := by
  subst runs
  unfold claim
  split_ifs with due
  · refine ⟨trivial, subset_rfl, fun _ completed => ?_⟩
    simp [dueCondition, completed] at due
  · exact .sameRow rfl trivial

theorem afterFailure_includes (raw : OutboxRow) : IncludesRead i t (afterFailure raw) := by
  unfold afterFailure
  split_ifs <;> trivial

/-- A failure or a recovery that is not written over a completed event. -/
theorem handlers_failure {requeue : Prop} {raw : OutboxRow} {f : OutboxRow → OutboxRow}
    (grows : t.row.completedHandlers ⊆ (f t.row).completedHandlers)
    (open_ : t.row.status ≠ .completed) :
    HandlersOutcome requeue i t (t.updateOutbox f) (afterFailure raw) :=
  ⟨afterFailure_includes raw, grows, fun _ completed => absurd completed open_⟩

theorem quarantine_row (existing : Bool) (retryCount : ℕ) (t : OutboxTables) :
    (quarantine existing retryCount t).row = t.row := by
  cases existing <;> rfl

theorem failAttempt_completedHandlers (row raw : OutboxRow) (now : ℕ)
    (completedHandlers : Finset String) :
    (row.failAttempt raw now completedHandlers).completedHandlers = completedHandlers := by
  unfold OutboxRow.failAttempt
  split_ifs <;> rfl

theorem recover_completedHandlers (row ev : OutboxRow) :
    (row.recover ev).completedHandlers = row.completedHandlers := by
  unfold OutboxRow.recover
  split_ifs <;> rfl

/-- Every statement that meets the condition has its outcome. -/
theorem outboxStatement_handlers {turn : OutboxTurn} {progress : OutboxProgress}
    (own : IncludesRead i t progress) (meets : ReadIsFresh i turn t progress)
    (runs : outboxStatement registered actors i turn t progress = some (t', next)) :
    HandlersOutcome (actors i = .requeueUnresolvedToOutbox) i t t' next := by
  unfold outboxStatement at runs
  split at runs
  · cases runs
    exact .sameRow (unlock_row t i) trivial
  · exact handlers_start (Option.some.inj runs)
  · exact handlers_claim (Option.some.inj runs)
  · cases runs
    exact .sameRow rfl Finset.subset_union_left
  · cases runs
    exact .sameRow rfl subset_rfl
  · split_ifs at runs with failed
    · cases runs
      refine handlers_failure ?_ (meets.2 failed)
      rw [failAttempt_completedHandlers]
      exact meets.1.trans own
    · cases runs
      exact ⟨trivial, meets.1.trans own, fun _ _ => rfl⟩
  · cases runs
    exact handlers_failure (recover_completedHandlers _ _).symm.subset meets
  · cases runs
    exact .sameRow rfl trivial
  · cases runs
    exact .sameRow (quarantine_row _ _ t) trivial
  · split at runs
    · cases runs
      exact .sameRow (unlock_row t i) trivial
    · split_ifs at runs
      · cases runs
        exact .sameRow (unlock_row t i) trivial
      · cases runs
        exact .sameRow rfl trivial
  · cases runs
    exact .sameRow rfl trivial
  · cases runs
    exact .sameRow rfl Finset.subset_union_left
  · cases runs
    exact .sameRow rfl trivial
  · cases runs
    exact ⟨trivial, meets.trans own, fun _ => id⟩
  · split_ifs at runs
    · cases runs
      exact .sameRow rfl trivial
    · cases runs
      exact .sameRow rfl trivial
  · cases runs
    refine ⟨trivial, ?_, fun _ _ => ?_⟩
    · rw [unlock_row]
      exact subset_rfl
    · rw [unlock_row]
      rfl
  · cases runs
    exact .sameRow (unlock_row _ i) trivial
  · cases runs
    exact .sameRow rfl trivial
  · cases runs
    exact .sameRow rfl trivial
  · cases runs
    exact .sameRow rfl trivial
  · cases runs
    exact .sameRow rfl trivial
  · cases runs
    exact .sameRow rfl trivial
  · cases runs
    exact .sameRow (unlock_row t i) trivial
  · cases runs

/-- The recorded handlers stay recorded. -/
theorem handlersOutline (registered : List String) (actors : ℕ → OutboxActor)
    (recorded : Finset String) :
    Outline (outboxStatement registered actors) ReadIsFresh
      (fun t => recorded ⊆ t.row.completedHandlers) IncludesRead where
  own h own meets runs :=
    have outcome := outboxStatement_handlers own meets runs
    ⟨h.trans outcome.grows, outcome.own⟩
  others {_ _ _ _ _ _ _ m} _ _ _ other _ _ := by
    cases m <;> exact other

/-- A completed event stays completed without a requeue. -/
theorem completedOutline (registered : List String) (actors : ℕ → OutboxActor) :
    Outline (outboxStatement registered actors)
      (fun i turn t progress => ReadIsFresh i turn t progress ∧ actors i ≠ .requeueUnresolvedToOutbox)
      (fun t => t.row.status = .completed) IncludesRead where
  own h own meets runs :=
    have outcome := outboxStatement_handlers own meets.1 runs
    ⟨outcome.completed meets.2 h, outcome.own⟩
  others {_ _ _ _ _ _ _ m} _ _ _ other _ _ := by
    cases m <;> exact other

end Outline

/-- In every schedule that meets the condition, the recorded handlers never shrink, none
of them is dispatched later, and only a requeue moves a completed event. -/
theorem handlers_kept (registered : List String) (actors : ℕ → OutboxActor) (occurredAt : ℕ)
    (schedule later : List (ℕ × OutboxTurn)) :
    let P := outboxStatement registered actors
    let start : Config ℕ OutboxTables OutboxProgress := ⟨.recorded occurredAt, fun _ => .start⟩
    let c := P.after start schedule
    let d := P.after c later
    P.Meets ReadIsFresh start (schedule ++ later) →
      c.shared.row.completedHandlers ⊆ d.shared.row.completedHandlers ∧
      ((∀ turn ∈ later, actors turn.1 ≠ .requeueUnresolvedToOutbox) →
        c.shared.row.status = .completed → d.shared.row.status = .completed) ∧
      ∀ i fulfilled, ReadIsFresh i (.dispatch fulfilled) d.shared (d.locals i) →
        ∀ name ∈ dispatchedHandlers registered (d.locals i), name ∉ c.shared.row.completedHandlers := by
  intro P start c d meets
  obtain ⟨before, after⟩ := Program.Meets.append.mp meets
  have begins : Holds (fun t => ∅ ⊆ t.row.completedHandlers) IncludesRead start :=
    ⟨Finset.empty_subset _, fun _ => trivial⟩
  have reached := (handlersOutline registered actors ∅).after_meets begins before
  have grows : c.shared.row.completedHandlers ⊆ d.shared.row.completedHandlers :=
    ((handlersOutline registered actors _).after_meets ⟨subset_rfl, reached.locals⟩ after).shared
  refine ⟨grows, fun queued completed => ?_, fun i fulfilled fresh name mem recorded => ?_⟩
  · have both : P.Meets (fun i turn t progress => ReadIsFresh i turn t progress ∧
        actors i ≠ .requeueUnresolvedToOutbox) c later := Transition.Along.and after queued
    exact ((completedOutline registered actors).after_meets ⟨completed, reached.locals⟩ both).shared
  · have still := grows recorded
    cases progress : d.locals i with
    | claimed raw =>
        rw [progress] at fresh mem
        have new := (List.mem_filter.mp mem).2
        simp [fresh still] at new
    | replayRead record previously =>
        rw [progress] at fresh mem
        have new := (List.mem_filter.mp mem).2
        simp [fresh still] at new
    | _ => simp [progress, dispatchedHandlers] at mem

/-- After an attempt in which one of two handlers failed, the next worker runs that one. -/
theorem handlers_kept_over_failure :
    let P := outboxStatement ["sms", "webhook"] fun _ => .processPendingBatch
    let start : Config ℕ OutboxTables OutboxProgress := ⟨.recorded 0, fun _ => .start⟩
    let c := P.after start [(0, .proceed 0), (0, .proceed 0),
      (0, .dispatch fun handler => handler == 0), (0, .proceed 0)]
    let d := P.after c [(1, .proceed 5), (1, .proceed 5)]
    "sms" ∈ c.shared.row.completedHandlers ∧
      "webhook" ∈ dispatchedHandlers ["sms", "webhook"] (d.locals 1) ∧
      "sms" ∉ dispatchedHandlers ["sms", "webhook"] (d.locals 1) := by
  intro P start c d
  have recorded : "sms" ∈ c.shared.row.completedHandlers := by decide +kernel
  have read : d.locals 1 = .claimed ⟨.pending, 1, some 5, none, 0, {"sms"}⟩ := by decide +kernel
  have row : d.shared.row.completedHandlers = {"sms"} := by decide +kernel
  refine ⟨recorded, by decide +kernel, fun again => ?_⟩
  have kept := handlers_kept ["sms", "webhook"] (fun _ => .processPendingBatch) 0
    [(0, .proceed 0), (0, .proceed 0), (0, .dispatch fun handler => handler == 0), (0, .proceed 0)]
    [(1, .proceed 5), (1, .proceed 5)]
    ⟨fun _ _ => trivial, fun _ _ => trivial, fun _ _ => subset_rfl,
      fun _ _ => ⟨subset_rfl, fun _ => by decide +kernel⟩, fun _ _ => trivial, fun _ _ => trivial, trivial⟩
  have fresh : ReadIsFresh 1 (.dispatch fun _ => true) d.shared (d.locals 1) := by
    rw [read]
    exact row.subset
  exact kept.2.2 1 (fun _ => true) fresh "sms" again recorded

/-- A recovery gives the event of a slow worker to another one. The slow worker then runs
again a handler that the other has recorded, and its write-back drops that handler; when
the other has completed the event meanwhile, the event goes back to pending. -/
theorem stale_worker_drops_handler :
    ∃ (registered : List String) (actors : ℕ → OutboxActor) (schedule : List (ℕ × OutboxTurn)) (i : ℕ)
      (fulfilled : ℕ → Bool) (now : ℕ),
      let P := outboxStatement registered actors
      let c := P.after ⟨.recorded 0, fun _ => .start⟩ schedule
      let d := P.after c [(i, .dispatch fulfilled), (i, .proceed now)]
      (∃ name ∈ dispatchedHandlers registered (c.locals i), name ∈ c.shared.row.completedHandlers) ∧
        ¬c.shared.row.completedHandlers ⊆ d.shared.row.completedHandlers ∧
        c.shared.row.status = .completed ∧ d.shared.row.status = .pending ∧
        ∀ turn ∈ schedule, actors turn.1 ≠ .requeueUnresolvedToOutbox := by
  refine ⟨["sms", "webhook"], fun i => if i = 1 then .recoverStuckEvents else .processPendingBatch,
    [(0, .proceed 0), (0, .proceed 0), (1, .proceed 300), (1, .proceed 300), (2, .proceed 301),
      (2, .proceed 301), (2, .dispatch fun _ => true), (2, .proceed 302)], 0, fun _ => false, 400, ?_⟩
  decide +kernel

end PapitalErp
