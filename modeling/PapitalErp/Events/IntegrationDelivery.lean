import PapitalErp.Events.Outbox

/-!
# The delivery row of one event and one target

Workers, recoveries, dead-letter replays and requeues act on one row of
`integration_delivery_jobs` and on its dead-letter row. The claims are atomic; the
result of an attempt is a later statement that goes by the id of the row alone. A send
may take any time, a statement can fail, and a process can die before any statement.

`running`, `moving`, `sends` and `started` are no columns: they record which attempts
are under way, who has written `failed` without being done with the dead letter, how
each send ended, and how many attempts workers have started since the last requeue.
The event, the error texts and the dead letter's payload are left out, and so are
dismissals and purges of dead letters.
-/

namespace PapitalErp

open Interleaving

namespace IntegrationDelivery

inductive DeliveryKind where
  | webhook
  | rule_action
  | messenger
  deriving DecidableEq

inductive DeliveryStatus where
  | pending
  | processing
  | succeeded
  | failed
  | cancelled
  deriving DecidableEq

/-- A row of `integration_delivery_jobs`. -/
structure DeliveryJob where
  kind : DeliveryKind
  status : DeliveryStatus
  attempts : ℕ
  maxAttempts : ℕ
  nextAttemptAt : ℕ
  lockedAt : Option ℕ
  deriving DecidableEq

/-- What an attempt returns; `retryAfterSeconds` is zero when the receiver asks for no wait. -/
structure DeliveryAttemptOutcome where
  ok : Bool
  retryable : Bool
  cancelled : Bool
  retryAfterSeconds : ℕ
  deriving DecidableEq

structure DeliveryTables where
  row : DeliveryJob
  deadLetter : Option DeadLetterRow
  replayLock : Option ℕ
  running : Finset ℕ
  moving : Finset ℕ
  sends : List Bool
  started : ℕ

/-- What a process does with the job. -/
inductive DeliveryActor where
  | runJob
  | recoverStuckJobs
  | replayEvent
  | requeueUnresolvedToOutbox
  deriving DecidableEq

/-- How far a process is and what it has read. -/
inductive DeliveryProgress where
  | start
  /-- the send of a claimed job; a replay keeps the dead letter it has read -/
  | attempt (job : DeliveryJob) (replay : Option DeadLetterRow)
  /-- the send has ended; its result is not written yet -/
  | answered (job : DeliveryJob) (replay : Option DeadLetterRow) (outcome : DeliveryAttemptOutcome)
  /-- the final failure is written; `moveToDeadLetter` comes next -/
  | moving (job : DeliveryJob)
  | movingRead (job : DeliveryJob) (existing : Bool)
  /-- a replay holds the advisory lock -/
  | replayLocked
  | replayRecord (record : DeadLetterRow)
  | replayJob (record : DeadLetterRow) (job : DeliveryJob)
  | replayDone (record : DeadLetterRow)
  | replayFailed (record : DeadLetterRow)
  | done

/-- What the environment decides. -/
inductive DeliveryTurn where
  /-- the next statement at this time -/
  | proceed (now : ℕ)
  /-- the send ends so -/
  | send (outcome : DeliveryAttemptOutcome)
  /-- the notification or the link of a replayed messenger job is gone -/
  | eventGone
  /-- the next statement fails -/
  | fail
  | die

/-! ## Statements -/

def deliveryBackoffSeconds (attempt : ℕ) : ℕ := min 300 (5 * 2 ^ (attempt - 1))

def RETRY_AFTER_MAX_SECONDS : ℕ := 3600

def nextAttemptDelaySeconds (attempt retryAfterSeconds : ℕ) : ℕ :=
  max (deliveryBackoffSeconds attempt) (min retryAfterSeconds RETRY_AFTER_MAX_SECONDS)

/-- The condition of a worker's claim. -/
def dueCondition (now : ℕ) (row : DeliveryJob) : Bool :=
  row.status == .pending && row.nextAttemptAt ≤ now

/-- `STUCK_JOB_MINUTES`, in seconds. -/
def STUCK_JOB_SECONDS : ℕ := 5 * 60

/-- The condition of `recoverStuckJobs`; a row that is not locked is never before the cutoff. -/
def stuckCondition (now : ℕ) (row : DeliveryJob) : Bool :=
  row.status == .processing && row.lockedAt.any fun lockedAt => lockedAt + STUCK_JOB_SECONDS ≤ now

/-- The statuses from which a replay may claim or close the row. -/
def replayable (status : DeliveryStatus) : Bool :=
  status == .pending || status == .failed || status == .cancelled

/-- `final` of `attempt`: no retry follows. -/
def isFinal (job : DeliveryJob) (replay : Option DeadLetterRow) (outcome : DeliveryAttemptOutcome) :
    Bool :=
  replay.isSome || !outcome.retryable || job.maxAttempts ≤ job.attempts

namespace DeliveryTables

/-- The update of the delivery row by its id. -/
def updateJob (t : DeliveryTables) (f : DeliveryJob → DeliveryJob) : DeliveryTables :=
  { t with row := f t.row }

def updateDeadLetter (t : DeliveryTables) (f : DeadLetterRow → DeadLetterRow) : DeliveryTables :=
  { t with deadLetter := t.deadLetter.map f }

/-- A process starts an attempt. -/
def runs (t : DeliveryTables) (i : ℕ) : DeliveryTables := { t with running := insert i t.running }

/-- A process has no attempt under way any more. -/
def rests (t : DeliveryTables) (i : ℕ) : DeliveryTables := { t with running := t.running.erase i }

/-- The end of a process: its session and with it the advisory lock is gone. -/
def quit (t : DeliveryTables) (i : ℕ) : DeliveryTables :=
  { t with
      replayLock := if t.replayLock = some i then none else t.replayLock
      running := t.running.erase i, moving := t.moving.erase i }

end DeliveryTables

/-- `claim`: a pending row whose time has come. -/
def claim (i now : ℕ) (t : DeliveryTables) : DeliveryTables × DeliveryProgress :=
  if dueCondition now t.row then
    let claimed := { t.row with
      status := .processing, attempts := t.row.attempts + 1, lockedAt := some now }
    (({ t with row := claimed, started := t.started + 1 }).runs i, .attempt claimed none)
  else (t, .done)

/-- The row as the result of an attempt leaves it. -/
def DeliveryJob.settle (row job : DeliveryJob) (replay : Option DeadLetterRow)
    (outcome : DeliveryAttemptOutcome) (now : ℕ) : DeliveryJob :=
  if outcome.ok then { row with status := .succeeded, lockedAt := none }
  else if outcome.cancelled then { row with status := .cancelled, lockedAt := none }
  else if isFinal job replay outcome then { row with status := .failed, lockedAt := none }
  else
    { row with
        status := .pending, lockedAt := none
        nextAttemptAt := now + nextAttemptDelaySeconds job.attempts outcome.retryAfterSeconds }

/-- What follows the result: a replay records it on its dead letter, a worker's final
failure goes to the dead-letter queue. -/
def afterAttempt (job : DeliveryJob) (replay : Option DeadLetterRow)
    (outcome : DeliveryAttemptOutcome) : DeliveryProgress :=
  match replay with
  | some record => if outcome.ok then .replayDone record else .replayFailed record
  | none =>
      if outcome.ok || outcome.cancelled then .done
      else if isFinal job none outcome then .moving job
      else .done

/-- The result of an attempt, written by the id alone. -/
def settle (i now : ℕ) (job : DeliveryJob) (replay : Option DeadLetterRow)
    (outcome : DeliveryAttemptOutcome) (t : DeliveryTables) : DeliveryTables × DeliveryProgress :=
  let settled := (t.updateJob (·.settle job replay outcome now)).rests i
  match afterAttempt job replay outcome with
  | .moving job => ({ settled with moving := insert i settled.moving }, .moving job)
  | next => (settled, next)

/-- The last statement of `moveToDeadLetter`; an insert that meets a row is refused. -/
def quarantine (i : ℕ) (existing : Bool) (job : DeliveryJob) (t : DeliveryTables) : DeliveryTables :=
  let deadLetter :=
    if existing then t.deadLetter.map fun _ => ⟨.quarantined, job.attempts⟩
    else t.deadLetter.or (some ⟨.quarantined, job.attempts⟩)
  { t with deadLetter, moving := t.moving.erase i }

/-- The claim of a replay: the row still has the status that was read. -/
def replayClaim (i now : ℕ) (record : DeadLetterRow) (job : DeliveryJob) (t : DeliveryTables) :
    DeliveryTables × DeliveryProgress :=
  if t.row.status = job.status ∧ replayable t.row.status then
    let claimed := { t.row with
      status := .processing, attempts := job.attempts + 1, lockedAt := some now }
    (({ t with row := claimed }).runs i, .attempt claimed (some record))
  else (t, .replayFailed record)

/-- A messenger job without its notification or its link is closed. -/
def closeGone (t : DeliveryTables) : DeliveryTables :=
  t.updateJob fun row =>
    if replayable row.status then { row with status := .cancelled, lockedAt := none } else row

/-- `requeueDeadJobs`. -/
def requeueDeadJobs (now : ℕ) (t : DeliveryTables) : DeliveryTables :=
  if t.row.status = .failed ∨ t.row.status = .cancelled then
    { t with
        row := { t.row with status := .pending, attempts := 0, nextAttemptAt := now, lockedAt := none }
        started := 0 }
  else t

/-- `requeueUnresolvedToOutbox`, for an unresolved dead letter that no replay holds. -/
def requeueUnresolvedToOutbox (now : ℕ) (t : DeliveryTables) : DeliveryTables :=
  if t.deadLetter.any (fun record => record.status == .quarantined) ∧ t.replayLock = none then
    (requeueDeadJobs now t).updateDeadLetter fun record => { record with status := .replayed }
  else t

def recoverStuckJobs (now : ℕ) (t : DeliveryTables) : DeliveryTables :=
  if stuckCondition now t.row then
    t.updateJob fun row => { row with status := .pending, lockedAt := none, nextAttemptAt := now }
  else t

/-- The first statement of each process. -/
def startStatement (i now : ℕ) (actor : DeliveryActor) (t : DeliveryTables) :
    DeliveryTables × DeliveryProgress :=
  match actor with
  | .runJob => claim i now t
  | .recoverStuckJobs => (recoverStuckJobs now t, .done)
  | .replayEvent =>
      if t.replayLock = none then ({ t with replayLock := some i }, .replayLocked) else (t, .done)
  | .requeueUnresolvedToOutbox => (requeueUnresolvedToOutbox now t, .done)

/-- The next statement of process `i`. -/
def deliveryStatement (actors : ℕ → DeliveryActor) :
    Program ℕ DeliveryTurn DeliveryTables DeliveryProgress := fun i turn t progress =>
  match turn, progress with
  | .die, _ => some (t.quit i, .done)
  | .proceed now, .start => some (startStatement i now (actors i) t)
  -- `attempt`
  | .send outcome, .attempt job replay =>
      some ({ t with sends := t.sends ++ [outcome.ok] }, .answered job replay outcome)
  | .proceed now, .answered job replay outcome => some (settle i now job replay outcome t)
  -- `moveToDeadLetter`
  | .proceed _, .moving job => some (t, .movingRead job t.deadLetter.isSome)
  | .proceed _, .movingRead job existing => some (quarantine i existing job t, .done)
  -- `replayLocked` and `replayDeadJob`
  | .proceed _, .replayLocked =>
      match t.deadLetter with
      | none => some (t.quit i, .done)
      | some record =>
          if record.status = .replayed then some (t.quit i, .done) else some (t, .replayRecord record)
  | .proceed _, .replayRecord record =>
      if t.row.status = .succeeded then some (t, .replayDone record)
      else some (t, .replayJob record t.row)
  | .eventGone, .replayJob record job =>
      if job.kind = .messenger then some (closeGone t, .replayFailed record) else none
  | .proceed now, .replayJob record job => some (replayClaim i now record job t)
  | .proceed _, .replayDone _ =>
      some ((t.updateDeadLetter fun row => { row with status := .replayed }).quit i, .done)
  | .proceed _, .replayFailed record =>
      some ((t.updateDeadLetter fun row => { row with retryCount := record.retryCount + 1 }).quit i,
        .done)
  | .fail, .attempt _ (some record) | .fail, .answered _ (some record) _ =>
      some (t.rests i, .replayFailed record)
  | .fail, .replayRecord record | .fail, .replayJob record _ | .fail, .replayDone record =>
      some (t, .replayFailed record)
  | .fail, _ => some (t.quit i, .done)
  | _, _ => none

/-- `enqueue`: a recorded delivery, due at once. -/
def enqueue (kind : DeliveryKind) (maxAttempts now : ℕ) : DeliveryTables :=
  ⟨⟨kind, .pending, 0, max 1 maxAttempts, now, none⟩, none, none, ∅, ∅, [], 0⟩

end IntegrationDelivery

end PapitalErp
