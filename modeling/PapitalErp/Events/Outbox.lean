import PapitalErp.Lib.Interleaving
import Mathlib.Data.Finset.Basic
import Mathlib.Data.Finset.Dedup

/-!
# The outbox row and the dead-letter row of one event

Workers, recoveries, replays and requeues act on one recorded event; statements
about other events touch neither of its rows. Each statement commits by itself,
except that a requeue and a retry are one transaction that locks both rows. A
statement can fail and a process can die before any statement.

Times are those that the environment reads from its clocks. The columns that no
check reads (`locked_by`, `last_error`, `processed_at`, the payload) are left out,
and so are the purges of completed events and of resolved dead letters, dismissals,
and the dead letters of single deliveries, which have ids of their own.
-/

namespace PapitalErp

open Interleaving

def OUTBOX_MAX_ATTEMPTS : ℕ := 5

inductive OutboxStatus where
  | pending
  | processing
  | completed
  | failed
  deriving DecidableEq

/-- A row of `outbox_events`; the array of handler names is only read as a set. -/
structure OutboxRow where
  status : OutboxStatus
  retryCount : ℕ
  nextRetryAt : Option ℕ
  lockedAt : Option ℕ
  occurredAt : ℕ
  completedHandlers : Finset String
  deriving DecidableEq

inductive DeadLetterStatus where
  | quarantined
  | replayed
  deriving DecidableEq

/-- A row of `dead_letter_events`. -/
structure DeadLetterRow where
  status : DeadLetterStatus
  retryCount : ℕ
  deriving DecidableEq

/-- The rows of the event, the holder of the advisory lock of its dead letter, and
the handlers that have succeeded for it. -/
structure OutboxTables where
  row : OutboxRow
  deadLetter : Option DeadLetterRow
  replayLock : Option ℕ
  succeeded : Finset String
  deriving DecidableEq

/-- What a process does with the event. -/
inductive OutboxActor where
  | processPendingBatch
  | recoverStuckEvents
  | replayEvent
  | requeueUnresolvedToOutbox
  | retryFailedOutboxEvents
  deriving DecidableEq

/-! ## Tracked dispatch -/

/-- `targets` of `dispatchTracked`: the registered handlers that were not completed. -/
def dispatchTargets (registered : List String) (alreadyCompleted : Finset String) : List String :=
  registered.filter fun name => name ∉ alreadyCompleted

/-- The targets whose promise is fulfilled, or is not. -/
def settled (targets : List String) (fulfilled : ℕ → Bool) (wanted : Bool) : List String :=
  (targets.zipIdx.filter fun target => fulfilled target.2 == wanted).map Prod.fst

/-- `dispatchTracked`: the completed handlers, and whether there were failures. -/
def dispatchTracked (registered : List String) (alreadyCompleted : Finset String)
    (fulfilled : ℕ → Bool) : Finset String × Bool :=
  let targets := dispatchTargets registered alreadyCompleted
  (alreadyCompleted ∪ (settled targets fulfilled true).toFinset,
    settled targets fulfilled false ≠ [])

/-! ## Statements -/

/-- How far a process is and what it has read. -/
inductive OutboxProgress where
  | start
  /-- a worker has read the due event -/
  | candidate (raw : OutboxRow) (now : ℕ)
  | claimed (raw : OutboxRow)
  | dispatched (raw : OutboxRow) (completedHandlers : Finset String) (failed : Bool)
  /-- a recovery has read the stuck event -/
  | stuck (ev : OutboxRow)
  /-- the final failure is written; `moveToDeadLetter` comes next -/
  | moving (retryCount : ℕ)
  | movingRead (retryCount : ℕ) (existing : Bool)
  /-- a replay holds the advisory lock -/
  | replayLocked
  | replayRecord (record : DeadLetterRow)
  | replayRead (record : DeadLetterRow) (previouslyCompleted : Finset String)
  | replayDispatched (record : DeadLetterRow) (previouslyCompleted completedHandlers : Finset String)
      (failed : Bool)
  | replayWritten (record : DeadLetterRow) (failed : Bool)
  | replayMarked (record : DeadLetterRow)
  | replayFailed (record : DeadLetterRow)
  | done
  deriving DecidableEq

/-- What the environment decides. -/
inductive OutboxTurn where
  /-- the next statement at this time -/
  | proceed (now : ℕ)
  /-- the handlers run, and these promises are fulfilled -/
  | dispatch (fulfilled : ℕ → Bool)
  /-- the event is refused before any handler runs -/
  | rejected
  /-- the next statement fails -/
  | fail
  | die

section Statements

variable (registered : List String)

/-- `dueCondition` of `processPendingBatch`. -/
def dueCondition (nowIso : ℕ) (row : OutboxRow) : Bool :=
  (row.status == .pending || row.status == .failed) &&
    (row.nextRetryAt.elim true fun next => next ≤ nowIso) &&
    row.retryCount < OUTBOX_MAX_ATTEMPTS

/-- The condition of `recoverStuckEvents`. -/
def stuckCondition (fiveMinutesAgo : ℕ) (row : OutboxRow) : Bool :=
  row.status == .processing &&
    match row.lockedAt with
    | some lockedAt => lockedAt ≤ fiveMinutesAgo
    | none => row.occurredAt ≤ fiveMinutesAgo

def backoffSeconds (newRetryCount : ℕ) : ℕ := min 300 (5 * 2 ^ (newRetryCount - 1))

/-- `isFinalFailure`, from the row that was read. -/
def isFinalFailure (raw : OutboxRow) : Bool := OUTBOX_MAX_ATTEMPTS ≤ raw.retryCount + 1

namespace OutboxTables

/-- The update of the outbox row by its id. -/
def updateOutbox (t : OutboxTables) (f : OutboxRow → OutboxRow) : OutboxTables :=
  { t with row := f t.row }

def updateDeadLetter (t : OutboxTables) (f : DeadLetterRow → DeadLetterRow) : OutboxTables :=
  { t with deadLetter := t.deadLetter.map f }

/-- The handlers run now; what they did is not undone. -/
def handlersRan (t : OutboxTables) (previously : Finset String) (fulfilled : ℕ → Bool) :
    OutboxTables :=
  { t with
      succeeded := t.succeeded ∪
        (settled (dispatchTargets registered previously) fulfilled true).toFinset }

/-- The advisory lock goes with the end of its session. -/
def unlock (t : OutboxTables) (i : ℕ) : OutboxTables :=
  if t.replayLock = some i then { t with replayLock := none } else t

end OutboxTables

/-- The claim of a worker: the row changes only while it is still due. -/
def claim (raw : OutboxRow) (nowIso : ℕ) (t : OutboxTables) : OutboxTables × OutboxProgress :=
  if dueCondition nowIso t.row then
    (t.updateOutbox fun row => { row with status := .processing, lockedAt := some nowIso },
      .claimed raw)
  else (t, .done)

/-- The row as a failed attempt leaves it, by the row that was read. -/
def OutboxRow.failAttempt (row raw : OutboxRow) (now : ℕ) (completedHandlers : Finset String) :
    OutboxRow :=
  if isFinalFailure raw then
    { row with
        status := .failed, retryCount := raw.retryCount + 1, nextRetryAt := none
        lockedAt := none, completedHandlers }
  else
    { row with
        status := .pending, retryCount := raw.retryCount + 1
        nextRetryAt := some (now + backoffSeconds (raw.retryCount + 1))
        lockedAt := none, completedHandlers }

def OutboxRow.complete (row : OutboxRow) (completedHandlers : Finset String) : OutboxRow :=
  { row with status := .completed, lockedAt := none, completedHandlers }

/-- The row as a recovery leaves it: a final failure keeps `next_retry_at`. -/
def OutboxRow.recover (row ev : OutboxRow) : OutboxRow :=
  if isFinalFailure ev then
    { row with status := .failed, retryCount := ev.retryCount + 1, lockedAt := none }
  else
    { row with
        status := .pending, retryCount := ev.retryCount + 1, lockedAt := none, nextRetryAt := none }

/-- What follows a failed attempt. -/
def afterFailure (raw : OutboxRow) : OutboxProgress :=
  if isFinalFailure raw then .moving (raw.retryCount + 1) else .done

/-- The last statement of `moveToDeadLetter`; an insert that meets a row is refused. -/
def quarantine (existing : Bool) (retryCount : ℕ) (t : OutboxTables) : OutboxTables :=
  if existing then t.updateDeadLetter fun _ => ⟨.quarantined, retryCount⟩
  else { t with deadLetter := t.deadLetter.or (some ⟨.quarantined, retryCount⟩) }

/-- The event back in the queue, and its dead letter resolved. -/
def OutboxTables.requeue (t : OutboxTables) : OutboxTables :=
  (t.updateOutbox fun row => { row with
      status := .pending, retryCount := 0, nextRetryAt := none, lockedAt := none }).updateDeadLetter
    fun record => { record with status := .replayed }

/-- `requeueUnresolvedToOutbox`, for an unresolved dead letter that no replay holds. -/
def requeueUnresolvedToOutbox (t : OutboxTables) : OutboxTables :=
  match t.deadLetter with
  | none => t
  | some record =>
      if record.status = .quarantined ∧ t.replayLock = none then t.requeue else t

/-- `retryFailedOutboxEvents`: a failed event whose open dead letter no replay holds. -/
def retryFailedOutboxEvents (t : OutboxTables) : OutboxTables :=
  let unresolved := t.deadLetter.any fun record => record.status == .quarantined
  if t.row.status ≠ .failed ∨ unresolved ∧ t.replayLock ≠ none then t else t.requeue

/-- The first statement of each process. -/
def startStatement (i : ℕ) (now : ℕ) (actor : OutboxActor) (t : OutboxTables) :
    OutboxTables × OutboxProgress :=
  match actor with
  | .processPendingBatch => (t, if dueCondition now t.row then .candidate t.row now else .done)
  | .recoverStuckEvents => (t, if stuckCondition now t.row then .stuck t.row else .done)
  | .replayEvent =>
      if t.replayLock = none then ({ t with replayLock := some i }, .replayLocked) else (t, .done)
  | .requeueUnresolvedToOutbox => (requeueUnresolvedToOutbox t, .done)
  | .retryFailedOutboxEvents => (retryFailedOutboxEvents t, .done)

/-- The next statement of process `i`. -/
def outboxStatement (actors : ℕ → OutboxActor) :
    Program ℕ OutboxTurn OutboxTables OutboxProgress := fun i turn t progress =>
  match turn, progress with
  | .die, _ => some (t.unlock i, .done)
  | .proceed now, .start => some (startStatement i now (actors i) t)
  -- `processPendingBatch`
  | .proceed _, .candidate raw now => some (claim raw now t)
  | .dispatch fulfilled, .claimed raw =>
      let result := dispatchTracked registered raw.completedHandlers fulfilled
      some (t.handlersRan registered raw.completedHandlers fulfilled,
        .dispatched raw result.1 result.2)
  | .rejected, .claimed raw => some (t, .dispatched raw raw.completedHandlers true)
  | .proceed now, .dispatched raw completedHandlers failed =>
      if failed then
        some (t.updateOutbox (·.failAttempt raw now completedHandlers), afterFailure raw)
      else some (t.updateOutbox (·.complete completedHandlers), .done)
  -- `recoverStuckEvents`
  | .proceed _, .stuck ev => some (t.updateOutbox (·.recover ev), afterFailure ev)
  -- `moveToDeadLetter`
  | .proceed _, .moving retryCount => some (t, .movingRead retryCount t.deadLetter.isSome)
  | .proceed _, .movingRead retryCount existing => some (quarantine existing retryCount t, .done)
  -- `replayLocked`
  | .proceed _, .replayLocked =>
      match t.deadLetter with
      | none => some (t.unlock i, .done)
      | some record =>
          if record.status = .replayed then some (t.unlock i, .done) else some (t, .replayRecord record)
  | .proceed _, .replayRecord record => some (t, .replayRead record t.row.completedHandlers)
  | .dispatch fulfilled, .replayRead record previously =>
      let result := dispatchTracked registered previously fulfilled
      some (t.handlersRan registered previously fulfilled,
        .replayDispatched record previously result.1 result.2)
  | .rejected, .replayRead record _ => some (t, .replayFailed record)
  | .proceed _, .replayDispatched record _ completedHandlers failed =>
      some (t.updateOutbox fun row => { row with completedHandlers }, .replayWritten record failed)
  | .proceed _, .replayWritten record failed =>
      if failed then some (t, .replayFailed record)
      else some (t.updateDeadLetter fun row => { row with status := .replayed }, .replayMarked record)
  | .proceed _, .replayMarked record =>
      some ((t.updateOutbox fun row =>
        { row with status := .completed, retryCount := record.retryCount }).unlock i, .done)
  | .proceed _, .replayFailed record =>
      some ((t.updateDeadLetter fun row => { row with retryCount := record.retryCount + 1 }).unlock i,
        .done)
  | .fail, .replayRecord record | .fail, .replayRead record _ | .fail, .replayDispatched record _ _ _
  | .fail, .replayWritten record _ | .fail, .replayMarked record => some (t, .replayFailed record)
  | .fail, _ => some (t.unlock i, .done)
  | _, _ => none

end Statements

/-- A recorded event. -/
def OutboxTables.recorded (occurredAt : ℕ) : OutboxTables :=
  ⟨⟨.pending, 0, none, none, occurredAt, ∅⟩, none, none, ∅⟩

end PapitalErp
