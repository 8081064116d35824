import PapitalErp.Events.IntegrationDelivery

/-!
# Limits of a delivery job

The result of an attempt is written by the id alone and a recovery takes back any row
that is old enough, so the limits hold as long as a recovery only meets attempts that
are lost: none is running, none has been sent, and the row has attempts left. A replay
that claims must have read the current number of attempts, and the process that wrote
`failed` must get to its dead letter.
-/

namespace PapitalErp

open Interleaving

namespace IntegrationDelivery

/-- The process is between writing `failed` and the end of `moveToDeadLetter`. -/
def IsMoving : DeliveryProgress → Prop
  | .moving _ | .movingRead _ _ => True
  | _ => False

/-- A recovery only takes back a lost attempt, a replay claims with the number of attempts
that the row still has, and the dead letter of a final failure is not cut off. -/
def OnlyLostAttempts (actors : ℕ → DeliveryActor) (i : ℕ) (turn : DeliveryTurn) (t : DeliveryTables)
    (progress : DeliveryProgress) : Prop :=
  match turn, progress with
  | .proceed now, .start =>
      actors i = .recoverStuckJobs → stuckCondition now t.row = true →
        t.running = ∅ ∧ true ∉ t.sends ∧ t.row.attempts < t.row.maxAttempts
  | .proceed _, .replayJob _ job => t.row.status = job.status → t.row.attempts ≤ job.attempts
  | .fail, .moving _ | .fail, .movingRead _ _ | .die, .moving _ | .die, .movingRead _ _ =>
      t.deadLetter ≠ none
  | _, _ => True

instance (actors : ℕ → DeliveryActor) (i : ℕ) (turn : DeliveryTurn) (t : DeliveryTables)
    (progress : DeliveryProgress) : Decidable (OnlyLostAttempts actors i turn t progress) :=
  match turn, progress with
  | .proceed now, .start =>
      inferInstanceAs (Decidable (actors i = .recoverStuckJobs → stuckCondition now t.row = true →
        t.running = ∅ ∧ true ∉ t.sends ∧ t.row.attempts < t.row.maxAttempts))
  | .proceed _, .replayJob _ job =>
      inferInstanceAs (Decidable (t.row.status = job.status → t.row.attempts ≤ job.attempts))
  | .fail, .moving _ | .fail, .movingRead _ _ | .die, .moving _ | .die, .movingRead _ _ =>
      inferInstanceAs (Decidable (t.deadLetter ≠ none))
  | .proceed _, .attempt _ _ | .proceed _, .answered _ _ _ | .proceed _, .moving _
  | .proceed _, .movingRead _ _ | .proceed _, .replayLocked | .proceed _, .replayRecord _
  | .proceed _, .replayDone _ | .proceed _, .replayFailed _ | .proceed _, .done
  | .fail, .start | .fail, .attempt _ _ | .fail, .answered _ _ _ | .fail, .replayLocked
  | .fail, .replayRecord _ | .fail, .replayJob _ _ | .fail, .replayDone _ | .fail, .replayFailed _
  | .fail, .done | .die, .start | .die, .attempt _ _ | .die, .answered _ _ _ | .die, .replayLocked
  | .die, .replayRecord _ | .die, .replayJob _ _ | .die, .replayDone _ | .die, .replayFailed _
  | .die, .done | .send _, _ | .eventGone, _ => isTrue trivial

/-- What holds of the tables. -/
structure Valid (t : DeliveryTables) : Prop where
  sentOnce : true ∉ t.sends.dropLast
  sent : true ∈ t.sends → t.row.status = .processing ∨ t.row.status = .succeeded
  alone : ∀ i ∈ t.running, ∀ j ∈ t.running, i = j
  busy : ∀ i ∈ t.running, t.row.status = .processing
  counted : t.started ≤ t.row.attempts
  limit : t.started ≤ t.row.maxAttempts
  pending : t.row.status = .pending → t.row.attempts < t.row.maxAttempts
  positive : 0 < t.row.maxAttempts
  failed : t.row.status = .failed → t.deadLetter ≠ none ∨ t.moving ≠ ∅

/-- The attempt of process `i` is the one that the row counts. -/
structure Runs (i : ℕ) (t : DeliveryTables) (job : DeliveryJob) (replay : Option DeadLetterRow) :
    Prop where
  running : i ∈ t.running
  attempts : job.attempts = t.row.attempts
  maxAttempts : job.maxAttempts = t.row.maxAttempts
  deadLetter : replay.isSome → t.deadLetter ≠ none

/-- What a process knows at its point of the code. -/
def Knows (i : ℕ) (t : DeliveryTables) : DeliveryProgress → Prop
  | .attempt job replay => Runs i t job replay ∧ true ∉ t.sends
  | .answered job replay outcome => Runs i t job replay ∧ (outcome.ok = false → true ∉ t.sends)
  | .movingRead _ existing => existing = true → t.deadLetter ≠ none
  | .replayRecord _ | .replayJob _ _ | .replayDone _ | .replayFailed _ => t.deadLetter ≠ none
  | .start | .moving _ | .replayLocked | .done => True

/-- What a process relies on. -/
def Relies (i : ℕ) (t : DeliveryTables) (progress : DeliveryProgress) : Prop :=
  (i ∈ t.moving → IsMoving progress) ∧ Knows i t progress

section Outline

variable {actors : ℕ → DeliveryActor} {i j now : ℕ} {t t' : DeliveryTables}
  {progress next : DeliveryProgress} {job : DeliveryJob} {replay : Option DeadLetterRow}
  {outcome : DeliveryAttemptOutcome}

/-- What a statement of process `i` leaves to the others. -/
structure LeavesOthers (i : ℕ) (t t' : DeliveryTables) : Prop where
  moving : ∀ j ≠ i, j ∈ t'.moving → j ∈ t.moving
  deadLetter : t.deadLetter ≠ none → t'.deadLetter ≠ none
  running : ∀ j ≠ i, j ∈ t.running → j ∈ t'.running ∧ t'.sends = t.sends ∧
    t'.row.attempts = t.row.attempts ∧ t'.row.maxAttempts = t.row.maxAttempts

/-- The effect of a statement. -/
structure DeliveryOutcome (i : ℕ) (t t' : DeliveryTables) (next : DeliveryProgress) : Prop where
  valid : Valid t'
  own : Relies i t' next
  others : LeavesOthers i t t'

theorem Runs.others (h : Runs j t job replay) (apart : j ≠ i) (leaves : LeavesOthers i t t') :
    Runs j t' job replay ∧ t'.sends = t.sends := by
  obtain ⟨running, sends, attempts, maxAttempts⟩ := leaves.running j apart h.running
  exact ⟨⟨running, h.attempts.trans attempts.symm, h.maxAttempts.trans maxAttempts.symm,
    fun some => leaves.deadLetter (h.deadLetter some)⟩, sends⟩

theorem Relies.others (h : Relies j t progress) (apart : j ≠ i) (leaves : LeavesOthers i t t') :
    Relies j t' progress := by
  obtain ⟨moving, knows⟩ := h
  refine ⟨fun mem => moving (leaves.moving j apart mem), ?_⟩
  cases progress with
  | attempt job replay =>
      obtain ⟨runs, sends⟩ := knows.1.others apart leaves
      exact ⟨runs, by rw [sends]; exact knows.2⟩
  | answered job replay outcome =>
      obtain ⟨runs, sends⟩ := knows.1.others apart leaves
      exact ⟨runs, by rw [sends]; exact knows.2⟩
  | movingRead job existing => exact fun exists_ => leaves.deadLetter (knows exists_)
  | replayRecord | replayJob | replayDone | replayFailed => exact leaves.deadLetter knows
  | start | moving | replayLocked | done => trivial

theorem LeavesOthers.refl (i : ℕ) (t : DeliveryTables) : LeavesOthers i t t :=
  ⟨fun _ _ => id, id, fun _ _ mem => ⟨mem, rfl, rfl, rfl⟩⟩

theorem LeavesOthers.trans {t'' : DeliveryTables} (h : LeavesOthers i t t')
    (later : LeavesOthers i t' t'') : LeavesOthers i t t'' := by
  refine ⟨fun j apart mem => h.moving j apart (later.moving j apart mem),
    fun some => later.deadLetter (h.deadLetter some), fun j apart mem => ?_⟩
  obtain ⟨running, sends, attempts, maxAttempts⟩ := h.running j apart mem
  obtain ⟨running', sends', attempts', maxAttempts'⟩ := later.running j apart running
  exact ⟨running', sends'.trans sends, attempts'.trans attempts, maxAttempts'.trans maxAttempts⟩

/-- While no attempt runs, the row is free to change. -/
theorem LeavesOthers.of_idle (idle : t.running = ∅) (moving : t'.moving = t.moving)
    (deadLetter : t.deadLetter ≠ none → t'.deadLetter ≠ none) : LeavesOthers i t t' := by
  refine ⟨fun j _ mem => moving ▸ mem, deadLetter, fun j _ mem => ?_⟩
  rw [idle] at mem
  cases mem

/-- A row that is not in processing has no attempt. -/
theorem Valid.idle (h : Valid t) (status : t.row.status ≠ .processing) : t.running = ∅ := by
  by_contra some
  obtain ⟨i, mem⟩ := Finset.nonempty_iff_ne_empty.mpr some
  exact status (h.busy i mem)

theorem Valid.unsent (h : Valid t) (status : t.row.status ≠ .processing)
    (open_ : t.row.status ≠ .succeeded) : true ∉ t.sends :=
  fun mem => (h.sent mem).elim status open_

/-- A statement that keeps the row and what was counted. -/
theorem Valid.sameRow (h : Valid t) (row : t'.row = t.row) (sends : t'.sends = t.sends)
    (started : t'.started = t.started) (running : t'.running ⊆ t.running)
    (failed : t.deadLetter ≠ none ∨ t.moving ≠ ∅ → t'.deadLetter ≠ none ∨ t'.moving ≠ ∅) :
    Valid t' := by
  refine ⟨?_, ?_, ?_, ?_, ?_, ?_, ?_, ?_, ?_⟩
  · rw [sends]
    exact h.sentOnce
  · rw [sends, row]
    exact h.sent
  · exact fun i mem j mem' => h.alone i (running mem) j (running mem')
  · rw [row]
    exact fun i mem => h.busy i (running mem)
  · rw [started, row]
    exact h.counted
  · rw [started, row]
    exact h.limit
  · rw [row]
    exact h.pending
  · rw [row]
    exact h.positive
  · rw [row]
    exact fun status => failed (h.failed status)

namespace DeliveryOutcome

theorem read (h : Valid t) (own : Relies i t next) : DeliveryOutcome i t t next :=
  ⟨h, own, .refl i t⟩

theorem returns {out : DeliveryTables × DeliveryProgress} (h : DeliveryOutcome i t out.1 out.2)
    (runs : some out = some (t', next)) : DeliveryOutcome i t t' next := by
  obtain rfl := Option.some.inj runs
  exact h

/-- A statement that first changes dead letters and then ends the process. -/
theorem after (h : DeliveryOutcome i t t' progress)
    (later : DeliveryOutcome i t' t'' next) : DeliveryOutcome i t t'' next :=
  ⟨later.valid, later.own, h.others.trans later.others⟩

/-- A process that ends while its dead letter is in, or is not its task. -/
theorem quit (h : Valid t) (moving : i ∈ t.moving → t.deadLetter ≠ none) :
    DeliveryOutcome i t (t.quit i) .done := by
  refine ⟨h.sameRow rfl rfl rfl (Finset.erase_subset _ _) fun kept => ?_, ?_, ?_⟩
  · by_cases mine : i ∈ t.moving
    · exact .inl (moving mine)
    · obtain deadLetter | moving := kept
      · exact .inl deadLetter
      · refine .inr ?_
        show t.moving.erase i ≠ ∅
        rwa [Finset.erase_eq_of_notMem mine]
  · exact ⟨fun mem => absurd mem (Finset.notMem_erase _ _), trivial⟩
  · exact ⟨fun j _ mem => (Finset.mem_erase.mp mem).2, id,
      fun j apart mem => ⟨Finset.mem_erase.mpr ⟨apart, mem⟩, rfl, rfl, rfl⟩⟩

/-- The attempt of a process is over before its result is written. -/
theorem rests (h : Valid t) (moving : i ∉ t.moving) (knows : Knows i (t.rests i) next) :
    DeliveryOutcome i t (t.rests i) next :=
  ⟨h.sameRow rfl rfl rfl (Finset.erase_subset _ _) id, ⟨fun mem => absurd mem moving, knows⟩,
    ⟨fun _ _ mem => mem, id, fun _ apart mem => ⟨Finset.mem_erase.mpr ⟨apart, mem⟩, rfl, rfl, rfl⟩⟩⟩

theorem updateDeadLetter (h : Valid t) (f : DeadLetterRow → DeadLetterRow) (own : Relies i t next)
    (knows : Knows i t next → Knows i (t.updateDeadLetter f) next) :
    DeliveryOutcome i t (t.updateDeadLetter f) next := by
  have kept : t.deadLetter ≠ none → (t.updateDeadLetter f).deadLetter ≠ none := fun some => by
    simpa [DeliveryTables.updateDeadLetter] using some
  refine ⟨h.sameRow rfl rfl rfl subset_rfl (Or.imp_left kept), ⟨own.1, knows own.2⟩, ?_⟩
  exact ⟨fun _ _ => id, kept, fun _ _ mem => ⟨mem, rfl, rfl, rfl⟩⟩

end DeliveryOutcome

/-- A claim of a row on which no attempt runs. -/
theorem outcome_claimed {claimed : DeliveryJob} {started : ℕ} (h : Valid t) (still : i ∉ t.moving)
    (idle : t.running = ∅) (unsent : true ∉ t.sends) (status : claimed.status = .processing)
    (maxAttempts : claimed.maxAttempts = t.row.maxAttempts) (counted : started ≤ claimed.attempts)
    (limit : started ≤ claimed.maxAttempts) (deadLetter : replay.isSome → t.deadLetter ≠ none) :
    DeliveryOutcome i t (({ t with row := claimed, started }).runs i) (.attempt claimed replay) := by
  refine ⟨⟨h.sentOnce, fun mem => absurd mem unsent, ?_, fun _ _ => status, counted, limit, ?_, ?_, ?_⟩,
    ⟨fun mem => absurd mem still, ⟨?_, rfl, rfl, deadLetter⟩, unsent⟩, .of_idle idle rfl id⟩
  · intro j mem k mem'
    simp only [DeliveryTables.runs, idle, insert_empty_eq, Finset.mem_singleton] at mem mem'
    exact mem.trans mem'.symm
  · intro pending
    cases status.symm.trans pending
  · exact maxAttempts ▸ h.positive
  · intro failed
    cases status.symm.trans failed
  · exact Finset.mem_insert_self _ _

theorem outcome_claim (h : Valid t) (still : i ∉ t.moving) :
    DeliveryOutcome i t (claim i now t).1 (claim i now t).2 := by
  unfold claim
  split
  · rename_i due
    have pending : t.row.status = .pending := by
      simp only [dueCondition, Bool.and_eq_true, beq_iff_eq] at due
      exact due.1
    have below := h.pending pending
    have idle := h.idle (by simp [pending])
    have unsent := h.unsent (by simp [pending]) (by simp [pending])
    have counted := h.counted
    refine outcome_claimed h still idle unsent rfl rfl ?_ ?_ (by simp)
    · exact Nat.succ_le_succ counted
    · exact (Nat.succ_le_succ counted).trans below
  · exact .read h ⟨fun mem => absurd mem still, trivial⟩

theorem outcome_replayClaim {record : DeadLetterRow} (h : Valid t) (still : i ∉ t.moving)
    (deadLetter : t.deadLetter ≠ none)
    (fresh : t.row.status = job.status → t.row.attempts ≤ job.attempts) :
    DeliveryOutcome i t (replayClaim i now record job t).1 (replayClaim i now record job t).2 := by
  unfold replayClaim
  split
  · rename_i claimable
    obtain ⟨same, open_⟩ := claimable
    have idle := h.idle fun status => by simp [status, replayable] at open_
    have unsent := h.unsent (fun status => by simp [status, replayable] at open_)
      fun status => by simp [status, replayable] at open_
    have counted : t.started ≤ job.attempts + 1 :=
      (h.counted.trans (fresh same)).trans (Nat.le_succ _)
    exact outcome_claimed h still idle unsent rfl rfl counted h.limit fun _ => deadLetter
  · exact .read h ⟨fun mem => absurd mem still, deadLetter⟩

/-- A write to a row on which no attempt runs and that no send has reached. -/
theorem outcome_idle {row : DeliveryJob} {started : ℕ} (h : Valid t) (own : Relies i t next)
    (knows : Knows i { t with row, started } next) (idle : t.running = ∅) (unsent : true ∉ t.sends)
    (maxAttempts : row.maxAttempts = t.row.maxAttempts) (counted : started ≤ row.attempts)
    (limit : started ≤ row.maxAttempts)
    (pending : row.status = .pending → row.attempts < row.maxAttempts)
    (failed : row.status ≠ .failed) : DeliveryOutcome i t { t with row, started } next := by
  refine ⟨⟨h.sentOnce, fun mem => absurd mem unsent, h.alone, ?_, counted, limit, pending, ?_, ?_⟩,
    ⟨own.1, knows⟩, .of_idle idle rfl id⟩
  · intro j mem
    have none : j ∈ t.running := mem
    simp [idle] at none
  · exact maxAttempts ▸ h.positive
  · exact fun status => absurd status failed

theorem outcome_recover (h : Valid t) (own : Relies i t .done)
    (lost : stuckCondition now t.row = true →
      t.running = ∅ ∧ true ∉ t.sends ∧ t.row.attempts < t.row.maxAttempts) :
    DeliveryOutcome i t (recoverStuckJobs now t) .done := by
  unfold recoverStuckJobs
  split
  · rename_i stuck
    obtain ⟨idle, unsent, below⟩ := lost stuck
    exact outcome_idle h own trivial idle unsent rfl h.counted h.limit
      (fun _ => below) (by simp)
  · exact .read h own

theorem outcome_requeueDeadJobs (h : Valid t) (own : Relies i t .done) :
    DeliveryOutcome i t (requeueDeadJobs now t) .done := by
  unfold requeueDeadJobs
  split
  · rename_i dead
    have idle := h.idle fun status => by simp [status] at dead
    have unsent := h.unsent (fun status => by simp [status] at dead)
      fun status => by simp [status] at dead
    exact outcome_idle h own trivial idle unsent rfl (Nat.zero_le _) (Nat.zero_le _)
      (fun _ => h.positive) (by simp)
  · exact .read h own

theorem outcome_requeue (h : Valid t) (own : Relies i t .done) :
    DeliveryOutcome i t (requeueUnresolvedToOutbox now t) .done := by
  unfold requeueUnresolvedToOutbox
  split
  · have first : DeliveryOutcome i t (requeueDeadJobs now t) .done := outcome_requeueDeadJobs h own
    exact first.after (.updateDeadLetter first.valid _ first.own id)
  · exact .read h own

theorem outcome_closeGone {record : DeadLetterRow} (h : Valid t)
    (own : Relies i t (.replayFailed record)) :
    DeliveryOutcome i t (closeGone t) (.replayFailed record) := by
  unfold closeGone DeliveryTables.updateJob
  by_cases open_ : replayable t.row.status = true
  · have idle := h.idle fun status => by simp [status, replayable] at open_
    have unsent := h.unsent (fun status => by simp [status, replayable] at open_)
      fun status => by simp [status, replayable] at open_
    simp only [open_, if_true]
    exact outcome_idle h own own.2 idle unsent rfl h.counted h.limit
      (fun pending => by cases pending) (by simp)
  · simp only [open_]
    exact .read h own

theorem outcome_start (h : Valid t) (own : Relies i t .start)
    (meets : actors i = .recoverStuckJobs → stuckCondition now t.row = true →
      t.running = ∅ ∧ true ∉ t.sends ∧ t.row.attempts < t.row.maxAttempts) :
    DeliveryOutcome i t (startStatement i now (actors i) t).1 (startStatement i now (actors i) t).2 := by
  have still : i ∉ t.moving := fun mem => own.1 mem
  have ends : Relies i t .done := ⟨own.1, trivial⟩
  cases actor : actors i with
  | runJob => exact outcome_claim h still
  | recoverStuckJobs => exact outcome_recover h ends (meets actor)
  | replayEvent =>
      simp only [startStatement]
      split
      · exact ⟨h.sameRow rfl rfl rfl subset_rfl id, ⟨own.1, trivial⟩,
          ⟨fun _ _ => id, id, fun j _ mem => ⟨mem, rfl, rfl, rfl⟩⟩⟩
      · exact .read h ends
  | requeueUnresolvedToOutbox => exact outcome_requeue h ends

/-- A send that ends: it was the only one, and none before it had succeeded. -/
theorem outcome_send (h : Valid t) (own : Relies i t (.attempt job replay)) :
    DeliveryOutcome i t { t with sends := t.sends ++ [outcome.ok] } (.answered job replay outcome) := by
  obtain ⟨moving, runs, unsent⟩ := own
  have busy := h.busy i runs.running
  refine ⟨⟨?_, fun _ => .inl busy, h.alone, h.busy, h.counted, h.limit, h.pending, h.positive,
    h.failed⟩, ⟨moving, ⟨runs.running, runs.attempts, runs.maxAttempts, runs.deadLetter⟩, ?_⟩,
    ⟨fun _ _ => id, id, fun j apart mem => absurd (h.alone j mem i runs.running) apart⟩⟩
  · simpa using unsent
  · intro failed
    simp [failed, unsent]

theorem settle_attempts (row : DeliveryJob) :
    (row.settle job replay outcome now).attempts = row.attempts := by
  unfold DeliveryJob.settle
  split_ifs <;> rfl

theorem settle_maxAttempts (row : DeliveryJob) :
    (row.settle job replay outcome now).maxAttempts = row.maxAttempts := by
  unfold DeliveryJob.settle
  split_ifs <;> rfl

/-- The result of the only attempt, with the process's task after it. -/
theorem outcome_settled {row : DeliveryJob} {moving : Finset ℕ} (h : Valid t)
    (runs : Runs i t job replay) (attempts : row.attempts = t.row.attempts)
    (maxAttempts : row.maxAttempts = t.row.maxAttempts)
    (sent : true ∈ t.sends → row.status = .succeeded)
    (pending : row.status = .pending → t.row.attempts < t.row.maxAttempts)
    (failed : row.status = .failed → t.deadLetter ≠ none ∨ moving ≠ ∅)
    (others : ∀ j ≠ i, j ∈ moving → j ∈ t.moving)
    (own : Relies i { t with row, moving, running := t.running.erase i } next) :
    DeliveryOutcome i t { t with row, moving, running := t.running.erase i } next := by
  have alone : ∀ j ∈ t.running.erase i, False := fun j mem =>
    (Finset.mem_erase.mp mem).1 (h.alone j (Finset.mem_erase.mp mem).2 i runs.running)
  refine ⟨⟨h.sentOnce, fun mem => .inr (sent mem), fun j mem => (alone j mem).elim,
    fun j mem => (alone j mem).elim, ?_, ?_, ?_, ?_, failed⟩, own,
    ⟨others, id, fun j apart mem => absurd (h.alone j mem i runs.running) apart⟩⟩
  · exact attempts ▸ h.counted
  · exact maxAttempts ▸ h.limit
  · intro waits
    show row.attempts < row.maxAttempts
    rw [attempts, maxAttempts]
    exact pending waits
  · exact maxAttempts ▸ h.positive

theorem outcome_settle (h : Valid t) (own : Relies i t (.answered job replay outcome)) :
    DeliveryOutcome i t (settle i now job replay outcome t).1
      (settle i now job replay outcome t).2 := by
  obtain ⟨moving, runs, unsent⟩ := own
  have still : i ∉ t.moving := fun mem => moving mem
  have sent : true ∈ t.sends → (t.row.settle job replay outcome now).status = .succeeded := by
    intro mem
    cases ok : outcome.ok with
    | true => simp [DeliveryJob.settle, ok]
    | false => exact absurd mem (unsent ok)
  have pending : (t.row.settle job replay outcome now).status = .pending →
      t.row.attempts < t.row.maxAttempts := by
    unfold DeliveryJob.settle isFinal
    split_ifs with ok cancelled final
    · simp
    · simp
    · simp
    · simp only [Bool.or_eq_true, decide_eq_true_eq, not_or, not_le] at final
      intro _
      rw [← runs.attempts, ← runs.maxAttempts]
      exact final.2
  set row := t.row.settle job replay outcome now
  have settled {next : DeliveryProgress} {moving : Finset ℕ}
      (failed : row.status = .failed → t.deadLetter ≠ none ∨ moving ≠ ∅)
      (others : ∀ j ≠ i, j ∈ moving → j ∈ t.moving)
      (own : Relies i { t with row, moving, running := t.running.erase i } next) :
      DeliveryOutcome i t { t with row, moving, running := t.running.erase i } next :=
    outcome_settled h runs (settle_attempts t.row) (settle_maxAttempts t.row) sent pending failed
      others own
  cases replay with
  | some record =>
      have deadLetter : t.deadLetter ≠ none := runs.deadLetter rfl
      simp only [settle, afterAttempt]
      cases outcome.ok with
      | true =>
          exact settled (fun _ => .inl deadLetter) (fun _ _ => id)
            ⟨fun mem => absurd mem still, deadLetter⟩
      | false =>
          exact settled (fun _ => .inl deadLetter) (fun _ _ => id)
            ⟨fun mem => absurd mem still, deadLetter⟩
  | none =>
      have final : (t.row.settle job none outcome now).status = .failed →
          afterAttempt job none outcome = .moving job := by
        unfold DeliveryJob.settle afterAttempt
        split_ifs <;> simp_all
      unfold settle
      split
      · rename_i job' after
        refine settled (fun _ => .inr (Finset.insert_ne_empty _ _)) ?_ ⟨fun _ => trivial, trivial⟩
        exact fun j apart mem => (Finset.mem_insert.mp mem).resolve_left apart
      · rename_i next other
        refine settled (fun failed => absurd (final failed) (other job)) (fun _ _ => id)
          ⟨fun mem => absurd mem still, ?_⟩
        simp only [afterAttempt]
        split_ifs <;> trivial

theorem outcome_quarantine {existing : Bool} (h : Valid t)
    (own : Relies i t (.movingRead job existing)) :
    DeliveryOutcome i t (quarantine i existing job t) .done := by
  have some : (quarantine i existing job t).deadLetter ≠ none := by
    cases existing with
    | true =>
        have deadLetter : t.deadLetter ≠ none := own.2 rfl
        simpa [quarantine] using deadLetter
    | false => simp [quarantine]
  refine ⟨h.sameRow rfl rfl rfl subset_rfl fun _ => .inl some, ⟨?_, trivial⟩, ?_⟩
  · exact fun mem => absurd mem (Finset.notMem_erase _ _)
  · exact ⟨fun j _ mem => (Finset.mem_erase.mp mem).2, fun _ => some,
      fun j _ mem => ⟨mem, rfl, rfl, rfl⟩⟩

/-- Every statement that meets the condition has its outcome. -/
theorem deliveryStatement_outcome {turn : DeliveryTurn} (h : Valid t) (own : Relies i t progress)
    (meets : OnlyLostAttempts actors i turn t progress)
    (runs : deliveryStatement actors i turn t progress = some (t', next)) :
    DeliveryOutcome i t t' next := by
  have still : ¬IsMoving progress → i ∉ t.moving := fun other mem => other (own.1 mem)
  unfold deliveryStatement at runs
  split at runs
  · cases runs
    refine .quit h fun mem => ?_
    cases progress with
    | moving | movingRead => exact meets
    | _ => exact absurd mem (still id)
  · exact (outcome_start h own meets).returns runs
  · cases runs
    exact outcome_send h own
  · exact (outcome_settle h own).returns runs
  · cases runs
    exact .read h ⟨fun _ => trivial, fun existing => Option.isSome_iff_ne_none.mp existing⟩
  · cases runs
    exact outcome_quarantine h own
  · split at runs
    · cases runs
      exact .quit h fun mem => absurd mem (still id)
    · rename_i record found
      split at runs
      · cases runs
        exact .quit h fun mem => absurd mem (still id)
      · cases runs
        exact .read h ⟨own.1, by simp [Knows, found]⟩
  · split at runs
    · cases runs
      exact .read h own
    · cases runs
      exact .read h own
  · split at runs
    · cases runs
      exact outcome_closeGone h own
    · cases runs
  · exact (outcome_replayClaim h (still id) own.2 meets).returns runs
  · cases runs
    have marked := DeliveryOutcome.updateDeadLetter h (fun row => { row with status := .replayed }) own
      fun some => by simpa [Knows, DeliveryTables.updateDeadLetter] using some
    exact marked.after (.quit marked.valid fun _ => marked.own.2)
  · cases runs
    rename_i record
    have marked := DeliveryOutcome.updateDeadLetter h
      (fun row => { row with retryCount := record.retryCount + 1 }) own
      fun some => by simpa [Knows, DeliveryTables.updateDeadLetter] using some
    exact marked.after (.quit marked.valid fun _ => marked.own.2)
  · cases runs
    exact .rests h (still id) (own.2.1.deadLetter rfl)
  · cases runs
    exact .rests h (still id) (own.2.1.deadLetter rfl)
  · cases runs
    exact .read h own
  · cases runs
    exact .read h own
  · cases runs
    exact .read h own
  · cases runs
    refine .quit h fun mem => ?_
    cases progress with
    | moving | movingRead => exact meets
    | _ => exact absurd mem (still id)
  · cases runs

/-- The statements that meet the condition follow the outline. -/
theorem deliveryOutline (actors : ℕ → DeliveryActor) :
    Outline (deliveryStatement actors) (OnlyLostAttempts actors) Valid Relies where
  own h own meets runs :=
    have outcome := deliveryStatement_outcome h own meets runs
    ⟨outcome.valid, outcome.own⟩
  others apart h own other meets runs :=
    other.others apart (deliveryStatement_outcome h own meets runs).others

theorem enqueue_valid (kind : DeliveryKind) (maxAttempts now : ℕ) :
    Valid (enqueue kind maxAttempts now) := by
  have positive : 0 < max 1 maxAttempts := Nat.lt_of_lt_of_le Nat.zero_lt_one (Nat.le_max_left _ _)
  refine ⟨?_, ?_, ?_, ?_, le_rfl, Nat.zero_le _, fun _ => positive, positive, ?_⟩
  · simp [enqueue]
  · simp [enqueue]
  · simp [enqueue]
  · simp [enqueue]
  · simp [enqueue]

end Outline

/-- In every schedule that meets the condition nothing is sent after a send that
succeeded, workers start at most `maxAttempts` attempts after the last requeue, and a
failed job has a dead-letter row once nobody is about to write it. -/
theorem delivery_limits (actors : ℕ → DeliveryActor) (kind : DeliveryKind) (maxAttempts now : ℕ)
    (schedule : List (ℕ × DeliveryTurn)) :
    let P := deliveryStatement actors
    let start : Config ℕ DeliveryTables DeliveryProgress := ⟨enqueue kind maxAttempts now, fun _ => .start⟩
    let c := P.after start schedule
    P.Meets (OnlyLostAttempts actors) start schedule →
      true ∉ c.shared.sends.dropLast ∧ c.shared.started ≤ c.shared.row.maxAttempts ∧
      ((∀ i, ¬IsMoving (c.locals i)) → c.shared.row.status = .failed → c.shared.deadLetter ≠ none) := by
  intro P start c meets
  have begins : Holds Valid Relies start :=
    ⟨enqueue_valid kind maxAttempts now, fun i => ⟨fun mem => by simp [start, enqueue] at mem, trivial⟩⟩
  obtain ⟨valid, relies⟩ := (deliveryOutline actors).after_meets begins meets
  refine ⟨valid.sentOnce, valid.limit, fun still failed => ?_⟩
  obtain deadLetter | moving := valid.failed failed
  · exact deadLetter
  · obtain ⟨i, mem⟩ := Finset.nonempty_iff_ne_empty.mpr moving
    exact absurd ((relies i).1 mem) (still i)

/-- A worker fails, the next one dies before its send, a recovery takes the row back, the
third attempt is the last, and a replay delivers. -/
theorem delivery_limits_through_recovery :
    let actors : ℕ → DeliveryActor := fun i =>
      if i = 2 then .recoverStuckJobs else if i = 4 then .replayEvent else .runJob
    let schedule : List (ℕ × DeliveryTurn) :=
      [(0, .proceed 0), (0, .send ⟨false, true, false, 0⟩), (0, .proceed 10), (1, .proceed 20),
        (1, .die), (2, .proceed 400), (3, .proceed 401), (3, .send ⟨false, true, false, 0⟩),
        (3, .proceed 402), (3, .proceed 402), (3, .proceed 402), (4, .proceed 500), (4, .proceed 500),
        (4, .proceed 500), (4, .proceed 500), (4, .send ⟨true, true, false, 0⟩), (4, .proceed 501),
        (4, .proceed 501)]
    let t := ((deliveryStatement actors).after ⟨enqueue .webhook 3 0, fun _ => .start⟩ schedule).shared
    t.sends = [false, false, true] ∧ t.started = 3 ∧ t.row.status = .succeeded ∧
      true ∉ t.sends.dropLast ∧ t.started ≤ t.row.maxAttempts := by
  dsimp only
  have limits := delivery_limits
    (fun i => if i = 2 then .recoverStuckJobs else if i = 4 then .replayEvent else .runJob)
    .webhook 3 0
    [(0, .proceed 0), (0, .send ⟨false, true, false, 0⟩), (0, .proceed 10), (1, .proceed 20),
      (1, .die), (2, .proceed 400), (3, .proceed 401), (3, .send ⟨false, true, false, 0⟩),
      (3, .proceed 402), (3, .proceed 402), (3, .proceed 402), (4, .proceed 500), (4, .proceed 500),
      (4, .proceed 500), (4, .proceed 500), (4, .send ⟨true, true, false, 0⟩), (4, .proceed 501),
      (4, .proceed 501)]
    (by decide +kernel)
  exact ⟨by decide +kernel, by decide +kernel, by decide +kernel, limits.1, limits.2.1⟩

/-- A send that outlives the five minutes is repeated and succeeds twice; a last attempt
that dies is followed by one more; and a worker that dies after writing `failed` leaves
no dead letter. -/
theorem delivery_limits_broken :
    (∃ (actors : ℕ → DeliveryActor) (schedule : List (ℕ × DeliveryTurn)),
      true ∈ ((deliveryStatement actors).after
        ⟨enqueue .webhook 3 0, fun _ => .start⟩ schedule).shared.sends.dropLast) ∧
    (∃ (actors : ℕ → DeliveryActor) (schedule : List (ℕ × DeliveryTurn)),
      let t := ((deliveryStatement actors).after
        ⟨enqueue .webhook 1 0, fun _ => .start⟩ schedule).shared
      t.row.maxAttempts < t.started ∧ t.sends = []) ∧
    ∃ schedule : List (ℕ × DeliveryTurn),
      let c := (deliveryStatement fun _ => .runJob).after ⟨enqueue .webhook 1 0, fun _ => .start⟩ schedule
      (∀ i, ¬IsMoving (c.locals i)) ∧ c.shared.row.status = .failed ∧ c.shared.deadLetter = none := by
  refine ⟨⟨fun i => if i = 1 then .recoverStuckJobs else .runJob,
    [(0, .proceed 0), (1, .proceed 300), (2, .proceed 301), (2, .send ⟨true, true, false, 0⟩),
      (2, .proceed 302), (0, .send ⟨true, true, false, 0⟩)], by decide +kernel⟩,
    ⟨fun i => if i = 1 then .recoverStuckJobs else .runJob,
      [(0, .proceed 0), (0, .die), (1, .proceed 300), (2, .proceed 301)], by decide +kernel⟩,
    [(0, .proceed 0), (0, .send ⟨false, true, false, 0⟩), (0, .proceed 1), (0, .die)],
    fun i => ?_, by decide +kernel, by decide +kernel⟩
  by_cases own : i = 0
  · subst own
    exact id
  · rw [Program.after_locals _ (by simpa using Ne.symm own)]
    exact id

end IntegrationDelivery

end PapitalErp
