import PapitalErp.Events.Outbox

/-!
# No recorded event is lost

An event waits for a worker or for a recovery, has run, or is in the dead-letter
queue. Handlers only ever succeed more, and dead-letter rows stay, so the one
statement that can lose an event is the final failure: it writes `failed` before
`moveToDeadLetter` inserts the row, and nothing selects the event again when that
insert does not happen. The event is kept at every moment if and only if each
final failure meets an event that has its dead-letter row already.
-/

namespace PapitalErp

open Interleaving Transition

/-- Where the event is at a moment. -/
def EventKept (registered : List String) (t : OutboxTables) : Prop :=
  match t.row.status with
  | .pending => ∃ due, ∀ now ≥ due, dueCondition now t.row = true
  | .processing => ∃ stuck, ∀ fiveMinutesAgo ≥ stuck, stuckCondition fiveMinutesAgo t.row = true
  | .completed => ∀ name ∈ registered, name ∈ t.succeeded
  | .failed => t.deadLetter ≠ none

/-- A final failure is only written over an event that has a dead-letter row. -/
def DeadLetterFirst (_ : ℕ) (turn : OutboxTurn) (t : OutboxTables) (progress : OutboxProgress) : Prop :=
  match turn, progress with
  | .proceed _, .dispatched raw _ failed =>
      failed = true → isFinalFailure raw = true → t.deadLetter ≠ none
  | .proceed _, .stuck ev => isFinalFailure ev = true → t.deadLetter ≠ none
  | _, _ => True

section Rows

variable {row raw : OutboxRow} {now : ℕ} {completedHandlers : Finset String}

theorem dueCondition_of_pending (status : row.status = .pending)
    (attempts : row.retryCount < OUTBOX_MAX_ATTEMPTS) :
    ∃ due, ∀ now ≥ due, dueCondition now row = true := by
  cases next : row.nextRetryAt with
  | none => exact ⟨0, fun now _ => by simp [dueCondition, status, attempts, next]⟩
  | some due =>
      refine ⟨due, fun now later => ?_⟩
      have : due ≤ now := later
      simp [dueCondition, status, attempts, next, this]

theorem not_final (h : ¬isFinalFailure raw = true) : raw.retryCount + 1 < OUTBOX_MAX_ATTEMPTS := by
  simpa [isFinalFailure] using h

end Rows

namespace OutboxTables

variable {registered : List String} {t t' : OutboxTables} {i : ℕ}

/-- The handlers that the row or a process holds as completed have succeeded. -/
structure Valid (registered : List String) (t : OutboxTables) : Prop where
  kept : EventKept registered t
  succeeded : t.row.completedHandlers ⊆ t.succeeded

theorem mem_settled {targets : List String} (fulfilled : ℕ → Bool) {name : String}
    (mem : name ∈ targets) :
    name ∈ settled targets fulfilled true ∨ name ∈ settled targets fulfilled false := by
  obtain ⟨k, bound, rfl⟩ := List.mem_iff_getElem.mp mem
  have listed : (targets[k], k) ∈ targets.zipIdx := by
    simp [List.mk_mem_zipIdx_iff_getElem?, bound]
  cases kept : fulfilled k
  · exact .inr (List.mem_map.mpr ⟨_, List.mem_filter.mpr ⟨listed, by simp [kept]⟩, rfl⟩)
  · exact .inl (List.mem_map.mpr ⟨_, List.mem_filter.mpr ⟨listed, by simp [kept]⟩, rfl⟩)

/-- A dispatch without failures completes every registered handler. -/
theorem dispatchTracked_complete {previously : Finset String} {fulfilled : ℕ → Bool}
    (none : (dispatchTracked registered previously fulfilled).2 = false) {name : String}
    (mem : name ∈ registered) : name ∈ (dispatchTracked registered previously fulfilled).1 := by
  by_cases before : name ∈ previously
  · exact Finset.mem_union_left _ before
  · have target : name ∈ dispatchTargets registered previously := by simp [dispatchTargets, mem, before]
    have empty : settled (dispatchTargets registered previously) fulfilled false = [] := by
      simpa [dispatchTracked] using none
    obtain done | failed := mem_settled fulfilled target
    · exact Finset.mem_union_right _ (List.mem_toFinset.mpr done)
    · rw [empty] at failed
      cases failed

end OutboxTables

/-- What a process relies on: what it holds as completed has succeeded. -/
def HoldsSucceeded (registered : List String) (_ : ℕ) (t : OutboxTables) : OutboxProgress → Prop
  | .candidate raw _ | .claimed raw => raw.completedHandlers ⊆ t.succeeded
  | .dispatched _ completedHandlers failed | .replayDispatched _ _ completedHandlers failed =>
      completedHandlers ⊆ t.succeeded ∧
        (failed = false → ∀ name ∈ registered, name ∈ completedHandlers)
  | .replayRead _ previously => previously ⊆ t.succeeded
  | .replayWritten _ failed => failed = false → ∀ name ∈ registered, name ∈ t.succeeded
  | .replayMarked _ => ∀ name ∈ registered, name ∈ t.succeeded
  | _ => True

section Outline

open OutboxTables

variable {registered : List String} {actors : ℕ → OutboxActor} {i : ℕ} {t t' : OutboxTables}
  {next : OutboxProgress}

theorem HoldsSucceeded.mono {progress : OutboxProgress} (h : HoldsSucceeded registered i t progress)
    (more : t.succeeded ⊆ t'.succeeded) : HoldsSucceeded registered i t' progress := by
  cases progress with
  | candidate | claimed | replayRead => exact h.trans more
  | dispatched | replayDispatched => exact ⟨h.1.trans more, h.2⟩
  | replayWritten => exact fun none name mem => more (h none name mem)
  | replayMarked => exact fun name mem => more (h name mem)
  | start | stuck | moving | movingRead | replayLocked | replayRecord | replayFailed | done => trivial

/-- A statement that leaves the outbox row. -/
theorem OutboxTables.Valid.sameRow (h : t.Valid registered) (row : t'.row = t.row)
    (deadLetter : t.deadLetter ≠ none → t'.deadLetter ≠ none) (more : t.succeeded ⊆ t'.succeeded) :
    t'.Valid registered := by
  obtain ⟨kept, succeeded⟩ := h
  refine ⟨?_, by rw [row]; exact succeeded.trans more⟩
  unfold EventKept at kept ⊢
  rw [row]
  cases status : t.row.status with
  | pending | processing =>
      rw [status] at kept
      exact kept
  | completed =>
      rw [status] at kept
      exact fun name mem => more (kept name mem)
  | failed =>
      rw [status] at kept
      exact deadLetter kept

/-- The effect of a statement. -/
structure EventOutcome (registered : List String) (i : ℕ) (t t' : OutboxTables)
    (next : OutboxProgress) : Prop where
  valid : t'.Valid registered
  own : HoldsSucceeded registered i t' next
  succeeded : t.succeeded ⊆ t'.succeeded

namespace EventOutcome

theorem read (h : t.Valid registered) (own : HoldsSucceeded registered i t next) :
    EventOutcome registered i t t next :=
  ⟨h, own, subset_rfl⟩

theorem unlock (h : EventOutcome registered i t t' .done) :
    EventOutcome registered i t (t'.unlock i) .done := by
  unfold OutboxTables.unlock
  split_ifs
  · exact ⟨h.valid.sameRow rfl id subset_rfl, trivial, h.succeeded⟩
  · exact h

theorem updateDeadLetter (h : t.Valid registered) (f : DeadLetterRow → DeadLetterRow)
    (own : HoldsSucceeded registered i t next) :
    EventOutcome registered i t (t.updateDeadLetter f) next := by
  refine ⟨h.sameRow rfl (fun some => ?_) subset_rfl, own.mono subset_rfl, subset_rfl⟩
  simpa [OutboxTables.updateDeadLetter] using some

/-- An update of the row: where it leaves the event, and what it records. -/
theorem updateOutbox {f : OutboxRow → OutboxRow} (kept : EventKept registered (t.updateOutbox f))
    (succeeded : (f t.row).completedHandlers ⊆ t.succeeded)
    (own : HoldsSucceeded registered i t next) :
    EventOutcome registered i t (t.updateOutbox f) next :=
  ⟨⟨kept, succeeded⟩, own.mono subset_rfl, subset_rfl⟩

end EventOutcome

theorem eventKept_of_pending (status : t.row.status = .pending)
    (attempts : t.row.retryCount < OUTBOX_MAX_ATTEMPTS) : EventKept registered t := by
  unfold EventKept
  rw [status]
  exact dueCondition_of_pending status attempts

theorem eventKept_of_failed (status : t.row.status = .failed) (deadLetter : t.deadLetter ≠ none) :
    EventKept registered t := by
  unfold EventKept
  rw [status]
  exact deadLetter

theorem outcome_requeue (h : t.Valid registered) : EventOutcome registered i t t.requeue .done := by
  have queued : t.requeue.row.retryCount < OUTBOX_MAX_ATTEMPTS := by
    show 0 < OUTBOX_MAX_ATTEMPTS
    decide
  exact ⟨⟨eventKept_of_pending rfl queued, h.succeeded⟩, trivial, subset_rfl⟩

theorem outcome_start (h : t.Valid registered) {now : ℕ} {actor : OutboxActor} {out}
    (runs : startStatement i now actor t = out) : EventOutcome registered i t out.1 out.2 := by
  subst runs
  cases actor with
  | processPendingBatch =>
      refine .read h ?_
      show HoldsSucceeded registered i t (if dueCondition now t.row then _ else _)
      split_ifs
      · exact h.succeeded
      · trivial
  | recoverStuckEvents =>
      refine .read h ?_
      show HoldsSucceeded registered i t (if stuckCondition now t.row then _ else _)
      split_ifs <;> trivial
  | replayEvent =>
      simp only [startStatement]
      split_ifs
      · exact ⟨h.sameRow rfl id subset_rfl, trivial, subset_rfl⟩
      · exact .read h trivial
  | requeueUnresolvedToOutbox =>
      simp only [startStatement, requeueUnresolvedToOutbox]
      split
      · exact .read h trivial
      · split_ifs
        · exact outcome_requeue h
        · exact .read h trivial
  | retryFailedOutboxEvents =>
      simp only [startStatement, retryFailedOutboxEvents]
      split_ifs
      · exact .read h trivial
      · exact outcome_requeue h

theorem outcome_claim (h : t.Valid registered) {raw : OutboxRow} {now : ℕ}
    (own : raw.completedHandlers ⊆ t.succeeded) {out} (runs : claim raw now t = out) :
    EventOutcome registered i t out.1 out.2 := by
  subst runs
  unfold claim
  split_ifs
  · have kept : EventKept registered (t.updateOutbox fun row =>
        { row with status := .processing, lockedAt := some now }) :=
      ⟨now, fun minutes later => by simpa [stuckCondition, updateOutbox] using later⟩
    exact ⟨⟨kept, h.succeeded⟩, own, subset_rfl⟩
  · exact .read h trivial

theorem afterFailure_holds (raw : OutboxRow) : HoldsSucceeded registered i t (afterFailure raw) := by
  unfold afterFailure
  split_ifs <;> trivial

theorem outcome_failAttempt {raw : OutboxRow} {now : ℕ}
    {completedHandlers : Finset String} (own : completedHandlers ⊆ t.succeeded)
    (first : isFinalFailure raw = true → t.deadLetter ≠ none) :
    EventOutcome registered i t (t.updateOutbox (·.failAttempt raw now completedHandlers))
      (afterFailure raw) := by
  by_cases final : isFinalFailure raw = true
  · refine .updateOutbox (eventKept_of_failed ?_ (first final)) ?_ (afterFailure_holds raw)
    · simp [updateOutbox, OutboxRow.failAttempt, final]
    · simpa [OutboxRow.failAttempt, final] using own
  · refine .updateOutbox (eventKept_of_pending ?_ ?_) ?_ (afterFailure_holds raw)
    · simp [updateOutbox, OutboxRow.failAttempt, final]
    · simpa [updateOutbox, OutboxRow.failAttempt, final] using not_final final
    · simpa [OutboxRow.failAttempt, final] using own

theorem outcome_recover (h : t.Valid registered) {ev : OutboxRow}
    (first : isFinalFailure ev = true → t.deadLetter ≠ none) :
    EventOutcome registered i t (t.updateOutbox (·.recover ev)) (afterFailure ev) := by
  by_cases final : isFinalFailure ev = true
  · refine .updateOutbox (eventKept_of_failed ?_ (first final)) ?_ (afterFailure_holds ev)
    · simp [updateOutbox, OutboxRow.recover, final]
    · simpa [OutboxRow.recover, final] using h.succeeded
  · refine .updateOutbox (eventKept_of_pending ?_ ?_) ?_ (afterFailure_holds ev)
    · simp [updateOutbox, OutboxRow.recover, final]
    · simpa [updateOutbox, OutboxRow.recover, final] using not_final final
    · simpa [OutboxRow.recover, final] using h.succeeded

theorem outcome_quarantine (h : t.Valid registered) (existing : Bool) (retryCount : ℕ) :
    EventOutcome registered i t (quarantine existing retryCount t) .done := by
  cases existing with
  | true => exact .updateDeadLetter h _ trivial
  | false => exact ⟨h.sameRow rfl (fun _ => by simp [quarantine]) subset_rfl, trivial, subset_rfl⟩

/-- Handlers that run succeed or leave things as they were. -/
theorem outcome_dispatch (h : t.Valid registered) {previously : Finset String} {fulfilled : ℕ → Bool}
    (own : previously ⊆ t.succeeded) (next : Finset String → Bool → OutboxProgress)
    (holds : ∀ t completedHandlers failed, completedHandlers ⊆ t.succeeded →
      (failed = false → ∀ name ∈ registered, name ∈ completedHandlers) →
        HoldsSucceeded registered i t (next completedHandlers failed)) :
    EventOutcome registered i t (t.handlersRan registered previously fulfilled)
      (next (dispatchTracked registered previously fulfilled).1
        (dispatchTracked registered previously fulfilled).2) := by
  have more : t.succeeded ⊆ (t.handlersRan registered previously fulfilled).succeeded :=
    Finset.subset_union_left
  refine ⟨h.sameRow rfl id more, ?_, more⟩
  refine holds _ _ _ ?_ fun none name mem => dispatchTracked_complete none mem
  exact Finset.union_subset_union_left own

/-- The replay writes what it dispatched without a look at the status. -/
theorem outcome_replayWrite (h : t.Valid registered) {completedHandlers : Finset String}
    (own : completedHandlers ⊆ t.succeeded) (holds : HoldsSucceeded registered i t next) :
    EventOutcome registered i t (t.updateOutbox fun row => { row with completedHandlers }) next := by
  exact .updateOutbox h.kept own holds

/-- Every statement that meets the condition has its outcome. -/
theorem outboxStatement_outcome (h : t.Valid registered) {turn : OutboxTurn}
    {progress : OutboxProgress} (own : HoldsSucceeded registered i t progress)
    (meets : DeadLetterFirst i turn t progress)
    (runs : outboxStatement registered actors i turn t progress = some (t', next)) :
    EventOutcome registered i t t' next := by
  have quits : EventOutcome registered i t (t.unlock i) .done :=
    .unlock (.read h trivial)
  unfold outboxStatement at runs
  split at runs
  · cases runs
    exact quits
  · exact outcome_start h (Option.some.inj runs)
  · exact outcome_claim h own (Option.some.inj runs)
  · cases runs
    exact outcome_dispatch h own (.dispatched _) fun _ _ _ sub all => ⟨sub, all⟩
  · cases runs
    exact .read h ⟨own, fun none => by cases none⟩
  · split_ifs at runs with failed
    · cases runs
      exact outcome_failAttempt own.1 (meets failed)
    · cases runs
      refine .updateOutbox ?_ own.1 trivial
      exact fun name mem => own.1 (own.2 (by simpa using failed) name mem)
  · cases runs
    exact outcome_recover h meets
  · cases runs
    exact .read h trivial
  · cases runs
    exact outcome_quarantine h _ _
  · split at runs
    · cases runs
      exact quits
    · split_ifs at runs
      · cases runs
        exact quits
      · cases runs
        exact .read h trivial
  · cases runs
    exact .read h h.succeeded
  · cases runs
    exact outcome_dispatch h own (.replayDispatched _ _) fun _ _ _ sub all => ⟨sub, all⟩
  · cases runs
    exact .read h trivial
  · cases runs
    exact outcome_replayWrite h own.1 fun none name mem => own.1 (own.2 none name mem)
  · split_ifs at runs with failed
    · cases runs
      exact .read h trivial
    · cases runs
      exact .updateDeadLetter h _ (own (by simpa using failed))
  · cases runs
    refine .unlock (.updateOutbox ?_ h.succeeded trivial)
    exact fun name mem => own name mem
  · cases runs
    exact .unlock (.updateDeadLetter h _ trivial)
  · cases runs
    exact .read h trivial
  · cases runs
    exact .read h trivial
  · cases runs
    exact .read h trivial
  · cases runs
    exact .read h trivial
  · cases runs
    exact .read h trivial
  · cases runs
    exact quits
  · cases runs

/-- The statements that meet the condition follow the outline. -/
theorem eventOutline (registered : List String) (actors : ℕ → OutboxActor) :
    Outline (outboxStatement registered actors) DeadLetterFirst (fun t => t.Valid registered)
      (HoldsSucceeded registered) where
  own h own meets runs :=
    have outcome := outboxStatement_outcome h own meets runs
    ⟨outcome.valid, outcome.own⟩
  others _ h own other meets runs :=
    other.mono (outboxStatement_outcome h own meets runs).succeeded

/-- A final failure that leaves the event kept met a dead-letter row. -/
theorem deadLetterFirst_of_kept {turn : OutboxTurn} {progress : OutboxProgress}
    (runs : outboxStatement registered actors i turn t progress = some (t', next))
    (kept : EventKept registered t') : DeadLetterFirst i turn t progress := by
  unfold DeadLetterFirst
  split
  · intro failed final
    simp only [outboxStatement, failed, if_true] at runs
    cases runs
    simpa [EventKept, updateOutbox, OutboxRow.failAttempt, final] using kept
  · intro final
    simp only [outboxStatement] at runs
    cases runs
    simpa [EventKept, updateOutbox, OutboxRow.recover, final] using kept
  · trivial

end Outline

/-- At every moment of a schedule the event is due at some time, in processing and
found by recoveries from some time on, completed by all its handlers, or failed with
a dead-letter row, if and only if each final failure meets a dead-letter row. -/
theorem event_kept_iff (registered : List String) (actors : ℕ → OutboxActor) (occurredAt : ℕ)
    (schedule : List (ℕ × OutboxTurn)) :
    let P := outboxStatement registered actors
    let start : Config ℕ OutboxTables OutboxProgress := ⟨.recorded occurredAt, fun _ => .start⟩
    (∀ moment, EventKept registered (P.after start (schedule.take moment)).shared) ↔
      P.Meets DeadLetterFirst start schedule := by
  intro P start
  constructor
  · intro kept
    refine along_of_prefixes (I := fun c => EventKept registered c.shared) (J := fun _ => True) ?_
      trivial kept
    intro c turn c' _ runs kept
    obtain ⟨t', next, statement, rfl⟩ := Program.step_ok.mp runs
    exact ⟨deadLetterFirst_of_kept statement kept, trivial⟩
  · intro meets moment
    have holds : Holds (fun t => t.Valid registered) (HoldsSucceeded registered) start :=
      ⟨⟨eventKept_of_pending rfl (show 0 < OUTBOX_MAX_ATTEMPTS by decide), subset_rfl⟩, fun _ => trivial⟩
    have before : P.Meets DeadLetterFirst start (schedule.take moment) := by
      rw [← List.take_append_drop moment schedule] at meets
      exact (Program.Meets.append.mp meets).1
    exact ((eventOutline registered actors).after_meets holds before).shared.kept

/-- A worker that dies between the two statements of the fifth failure leaves a failed
event without a dead-letter row, which no worker and no recovery selects. -/
theorem event_lost_between_statements :
    ∃ (registered : List String) (actors : ℕ → OutboxActor) (schedule : List (ℕ × OutboxTurn)),
      let t := ((outboxStatement registered actors).after
        ⟨.recorded 0, fun _ => .start⟩ schedule).shared
      t.row.status = .failed ∧ t.deadLetter = none ∧
        ∀ now, dueCondition now t.row = false ∧ stuckCondition now t.row = false := by
  refine ⟨["sms"], fun _ => .processPendingBatch, (List.range 5).flatMap fun worker =>
    [(worker, .proceed (1000 * worker)), (worker, .proceed 0), (worker, .dispatch fun _ => false),
      (worker, .proceed (1000 * worker)), (worker, .die)], ?_⟩
  intro t
  have lost : t = ⟨⟨.failed, 5, none, none, 0, ∅⟩, none, none, ∅⟩ := by decide +kernel
  rw [lost]
  exact ⟨rfl, rfl, fun now => ⟨rfl, rfl⟩⟩

end PapitalErp
