import PapitalErp.Lib.Interleaving

/-!
# The idempotency key of a request

Any number of requests carry one key of one user and scope. Each one acquires the
key, runs its write in a transaction that also completes the key, stores its
answer or releases the key; it can fail or die between any two statements. The
table holds at most one row for the key, by its unique index, whose user is not
null. The purge of expired keys is left out: the runs are those of a key's
lifetime. `markFailed` is called nowhere, so a failed row is an initial one.

A statement that changes the row waits while another transaction holds its
uncommitted completion. When a lock lapses is left to the environment, and so is
the end of each new lock window.
-/

namespace PapitalErp

open Interleaving

inductive HttpMethod where
  | post
  | put
  | patch
  | delete
  deriving DecidableEq

/-- The method, the path and the canonical JSON of the body, if there is one. -/
structure KeyRequest where
  method : HttpMethod
  path : String
  payload : Option String
  deriving DecidableEq

/-- `request_payload`: the fingerprint of a body, or the body of an older key. -/
inductive StoredPayload where
  | fingerprint (text : String)
  | body (canonicalJson : String)
  deriving DecidableEq

/-- The request columns of a key. -/
structure StoredRequest where
  requestMethod : Option HttpMethod
  requestPath : Option String
  requestPayload : Option StoredPayload
  deriving DecidableEq

inductive KeyStatus where
  | processing
  | completed
  | failed
  deriving DecidableEq

/-- A row of `idempotency_keys`. A stored response is named by the request whose
run stored it; `run` is the request whose run holds the key or held it last. -/
structure KeyRow where
  id : ℕ
  status : KeyStatus
  request : StoredRequest
  lockedUntil : ℕ
  response : Option KeyRequest
  run : KeyRequest
  deriving DecidableEq

/-- A completed key with the response of a request. -/
def KeyRow.complete (req : KeyRequest) (row : KeyRow) : KeyRow :=
  { row with status := .completed, response := some req }

section Requests

variable (sha256 : String → String)

def requestFingerprint (text : String) : StoredPayload :=
  .fingerprint ("sha256:" ++ sha256 text)

def sameRequest (record : StoredRequest) (req : KeyRequest) : Bool :=
  (match record.requestMethod with
    | none => true
    | some method => req.method == method) &&
  (match record.requestPath with
    | none => true
    | some path => req.path == path) &&
  match req.payload, record.requestPayload with
  | some text, some (.fingerprint stored) => requestFingerprint sha256 text == .fingerprint stored
  | some text, some (.body canonicalJson) => text == canonicalJson
  | _, _ => true

/-- The columns a new key gets. -/
def storedRequest (req : KeyRequest) : StoredRequest :=
  ⟨some req.method, some req.path, req.payload.map (requestFingerprint sha256)⟩

/-- The columns after a run took the key over: a request without a body keeps the old one. -/
def StoredRequest.retake (record : StoredRequest) (req : KeyRequest) : StoredRequest :=
  ⟨some req.method, some req.path,
    (req.payload.map (requestFingerprint sha256)).or record.requestPayload⟩

end Requests

/-! ## Statements -/

/-- What a request is answered without running. -/
inductive KeyAnswer where
  | mismatch
  | inFlight
  | cached (response : Option KeyRequest)
  deriving DecidableEq

/-- How far a request is. -/
inductive KeyProgress where
  | start
  /-- the insert met the row of the key -/
  | conflicted
  /-- a lapsed or failed row was read, to be taken over -/
  | found (record : KeyRow)
  /-- the row changed before it was taken over -/
  | lost (id : ℕ)
  /-- the write may run; the run that was taken over, if there was one -/
  | acquired (takenOver : Option KeyRequest)
  /-- the write and the completion of the key, uncommitted -/
  | writing
  | committed
  /-- the write was rolled back, or its commit was not acknowledged -/
  | refused
  | answered (answer : KeyAnswer)
  | done
  deriving DecidableEq

/-- The request has not run its write and is on no way to it. -/
def KeyProgress.Waits : KeyProgress → Prop
  | .start | .conflicted | .answered _ | .done => True
  | _ => False

/-- The row of the key, the transaction whose uncommitted completion locks it, and
how many write transactions have committed. -/
structure KeyTable where
  row : Option KeyRow
  writer : Option ℕ
  nextId : ℕ
  commits : ℕ

/-- What the environment decides. -/
inductive KeyTurn where
  /-- the next statement; a new lock window ends at `lockedUntil` -/
  | proceed (lockedUntil : ℕ)
  /-- the next statement, which finds the lock lapsed -/
  | lapsed
  /-- the write or the next statement fails -/
  | fail
  /-- the commit succeeds and its acknowledgement is lost -/
  | unacknowledged
  /-- the answer is a success -/
  | saveResponse
  /-- the heartbeat of the middleware -/
  | extendLock (lockedUntil : ℕ)
  | die

namespace KeyTable

/-- A key before the requests: there may be a row from before. -/
def initial (row : Option KeyRow) : KeyTable :=
  ⟨row, none, (row.elim 0 KeyRow.id) + 1, 0⟩

/-- A statement that changes the row waits for the transaction that completes it. -/
def change (t : KeyTable) (f : Option KeyRow → Option KeyRow) : Option KeyTable :=
  if t.writer = none then some { t with row := f t.row } else none

/-- The end of a write transaction. -/
def endWrite (t : KeyTable) (i : ℕ) : KeyTable :=
  if t.writer = some i then { t with writer := none } else t

end KeyTable

section Statements

variable (sha256 : String → String) (requests : ℕ → KeyRequest)

/-- `acquireKey`: INSERT ... ON CONFLICT DO NOTHING. -/
def insertKey (req : KeyRequest) (lockedUntil : ℕ) (t : KeyTable) : KeyTable × KeyProgress :=
  match t.row with
  | some _ => (t, .conflicted)
  | none =>
      ({ t with
          row := some ⟨t.nextId, .processing, storedRequest sha256 req, lockedUntil, none, req⟩
          nextId := t.nextId + 1 }, .acquired none)

def handleExistingKey (record : KeyRow) (req : KeyRequest) (lapsed : Bool) : KeyProgress :=
  if record.status ≠ .failed ∧ sameRequest sha256 record.request req = false then
    .answered .mismatch
  else
    match record.status with
    | .completed => .answered (.cached record.response)
    | .processing => if lapsed then .found record else .answered .inFlight
    | .failed => .found record

/-- The SELECT of `acquireKey`. -/
def selectKey (req : KeyRequest) (lapsed : Bool) (t : KeyTable) : KeyProgress :=
  match t.row with
  | none => .acquired none
  | some record => handleExistingKey sha256 record req lapsed

/-- The optimistic check of `reacquireWithOcc`. -/
def KeyRow.unchanged (record row : KeyRow) : Bool :=
  row.id == record.id && row.status == record.status && row.lockedUntil == record.lockedUntil

def reacquireWithOcc (record : KeyRow) (req : KeyRequest) (lockedUntil : ℕ) (t : KeyTable) :
    Option (KeyTable × KeyProgress) :=
  match t.row with
  | none => some (t, .lost record.id)
  | some row =>
      if record.unchanged row then
        (t.change fun _ => some { row with
            status := .processing
            request := row.request.retake sha256 req
            lockedUntil
            run := req }).map fun t' => (t', .acquired (some row.run))
      else some (t, .lost record.id)

/-- The read by id after a lost race, which compares nothing. -/
def getResponseForRecord (id : ℕ) (t : KeyTable) : KeyProgress :=
  match t.row with
  | none => .acquired none
  | some row =>
      if row.id ≠ id then .acquired none
      else
        match row.status with
        | .completed => .answered (.cached row.response)
        | .processing => .answered .inFlight
        | .failed => .acquired none

def completeInTransaction (i : ℕ) (t : KeyTable) : Option (KeyTable × KeyProgress) :=
  if t.writer ≠ none then none
  else
    match t.row with
    | some row =>
        if row.status = .processing then some ({ t with writer := some i }, .writing)
        else some (t, .refused)
    | none => some (t, .refused)

/-- The commit of a write and of the completion of its key. -/
def commitWrite (i : ℕ) (req : KeyRequest) (t : KeyTable) : KeyTable :=
  { t with row := t.row.map (KeyRow.complete req), commits := t.commits + 1 }.endWrite i

def saveResponse (req : KeyRequest) (t : KeyTable) : Option (KeyTable × KeyProgress) :=
  (t.change fun row => row.map (KeyRow.complete req)).map fun t' => (t', .done)

def releaseKey (t : KeyTable) : Option (KeyTable × KeyProgress) :=
  (t.change fun row => row.filter fun row => row.status ≠ .processing).map fun t' => (t', .done)

def extendLock (lockedUntil : ℕ) (t : KeyTable) : Option KeyTable :=
  t.change fun row => row.map fun row =>
    if row.status = .processing then { row with lockedUntil } else row

/-- The next statement of request `i`. -/
def keyStatement : Program ℕ KeyTurn KeyTable KeyProgress := fun i turn t progress =>
  match turn, progress with
  | .extendLock lockedUntil, _ => (extendLock lockedUntil t).map fun t' => (t', progress)
  | .die, _ => some (t.endWrite i, .done)
  | .proceed lockedUntil, .start => some (insertKey sha256 (requests i) lockedUntil t)
  | .proceed _, .conflicted => some (t, selectKey sha256 (requests i) false t)
  | .lapsed, .conflicted => some (t, selectKey sha256 (requests i) true t)
  | .proceed lockedUntil, .found record =>
      reacquireWithOcc sha256 record (requests i) lockedUntil t
  | .proceed _, .lost id => some (t, getResponseForRecord id t)
  | .proceed _, .acquired _ => completeInTransaction i t
  | .fail, .acquired _ => some (t, .refused)
  | .proceed _, .writing => some (commitWrite i (requests i) t, .committed)
  | .unacknowledged, .writing => some (commitWrite i (requests i) t, .refused)
  | .fail, .writing => some (t.endWrite i, .refused)
  | .saveResponse, .committed => saveResponse (requests i) t
  | .saveResponse, .refused => saveResponse (requests i) t
  -- a failed answer keeps the key of a committed write and releases any other
  | .proceed _, .committed => some (t, .done)
  | .proceed _, .refused => releaseKey t
  | .fail, _ => some (t, .done)
  | _, _ => none

end Statements

/-! ## At most one commit -/

namespace KeyTable

variable {t t' : KeyTable} {f : Option KeyRow → Option KeyRow}

def HasStatus (t : KeyTable) (status : KeyStatus) : Prop :=
  ∃ row, t.row = some row ∧ row.status = status

theorem HasStatus.unique {a b : KeyStatus} (h : t.HasStatus a) (h' : t.HasStatus b) : a = b := by
  obtain ⟨row, found, rfl⟩ := h
  obtain ⟨row', found', rfl⟩ := h'
  rw [Option.some.inj (found.symm.trans found')]

/-- A committed write leaves a completed key for good, and the key of an uncommitted
one is still being processed. -/
structure Valid (t : KeyTable) : Prop where
  once : t.commits ≤ 1
  kept : t.commits ≠ 0 → t.HasStatus .completed
  locked : t.writer ≠ none → t.HasStatus .processing

theorem Valid.not_committed (h : t.Valid) {status : KeyStatus} (has : t.HasStatus status)
    (other : status ≠ .completed) : t.commits = 0 := by
  by_contra committed
  exact other (has.unique (h.kept committed))

theorem change_eq_some : t.change f = some t' ↔ t.writer = none ∧ t' = { t with row := f t.row } := by
  unfold change
  split_ifs with free <;> simp [free, eq_comm]

end KeyTable

/-- What a request relies on. -/
def KeyAssertion (i : ℕ) (t : KeyTable) : KeyProgress → Prop
  | .found record => record.status ≠ .completed
  | .writing => t.writer = some i
  | _ => True

/-- The effect of a statement of request `i`. -/
structure KeyOutcome (i : ℕ) (t t' : KeyTable) (next : KeyProgress) : Prop where
  valid : t'.Valid
  own : KeyAssertion i t' next
  others : ∀ j, j ≠ i → t.writer = some j → t'.writer = some j
  commits : t.commits ≤ t'.commits

namespace KeyOutcome

open KeyTable

variable {i : ℕ} {t t' : KeyTable} {next : KeyProgress}

/-- A statement that reads only. -/
theorem read (h : t.Valid) (own : KeyAssertion i t next) : KeyOutcome i t t next :=
  ⟨h, own, fun _ _ => id, le_rfl⟩

/-- A statement that changes the row and leaves a completed one completed. -/
theorem change (h : t.Valid) {f : Option KeyRow → Option KeyRow} (runs : t.change f = some t')
    (keeps : t.HasStatus .completed → t'.HasStatus .completed)
    (own : next ≠ .writing ∧ ∀ record, next ≠ .found record) : KeyOutcome i t t' next := by
  obtain ⟨free, rfl⟩ := change_eq_some.mp runs
  refine ⟨⟨h.once, fun committed => keeps (h.kept committed), fun held => absurd free held⟩, ?_,
    fun _ _ held => held, le_rfl⟩
  cases next <;> simp_all [KeyAssertion]

theorem endWrite (h : t.Valid) (own : ∀ t, KeyAssertion i t next) :
    KeyOutcome i t (t.endWrite i) next := by
  unfold KeyTable.endWrite
  split_ifs with holder
  · refine ⟨⟨h.once, h.kept, fun held => absurd rfl held⟩, own _, fun j apart held => ?_, le_rfl⟩
    exact absurd (Option.some.inj (held.symm.trans holder)) apart
  · exact read h (own t)

end KeyOutcome

section Outline

open KeyTable

variable {sha256 : String → String} {requests : ℕ → KeyRequest} {i : ℕ} {t t' : KeyTable}
  {next : KeyProgress}

theorem outcome_insertKey (h : t.Valid) {req : KeyRequest} {lockedUntil : ℕ} {out}
    (runs : insertKey sha256 req lockedUntil t = out) : KeyOutcome i t out.1 out.2 := by
  subst runs
  unfold insertKey
  split
  · exact .read h trivial
  · rename_i none
    have empty : ∀ status, ¬t.HasStatus status := by
      rintro status ⟨row, found, -⟩
      cases found.symm.trans none
    refine ⟨⟨h.once, fun committed => ?_, fun held => ?_⟩, trivial, fun _ _ => id, le_rfl⟩
    · exact absurd (h.kept committed) (empty _)
    · exact absurd (h.locked held) (empty _)

/-- Only a row that is not completed is taken over. -/
theorem selectKey_assertion (req : KeyRequest) (lapsed : Bool) :
    KeyAssertion i t (selectKey sha256 req lapsed t) := by
  unfold selectKey handleExistingKey
  cases t.row with
  | none => trivial
  | some record =>
      dsimp only
      split
      · trivial
      · cases status : record.status with
        | completed => trivial
        | processing => cases lapsed <;> simp [KeyAssertion, status]
        | failed => simp [KeyAssertion, status]

theorem getResponseForRecord_assertion (id : ℕ) : KeyAssertion i t (getResponseForRecord id t) := by
  unfold getResponseForRecord
  cases t.row with
  | none => trivial
  | some row =>
      dsimp only
      split
      · trivial
      · cases row.status <;> trivial

theorem outcome_reacquireWithOcc (h : t.Valid) {record : KeyRow} {req : KeyRequest} {lockedUntil : ℕ}
    (own : record.status ≠ .completed)
    (runs : reacquireWithOcc sha256 record req lockedUntil t = some (t', next)) :
    KeyOutcome i t t' next := by
  unfold reacquireWithOcc at runs
  split at runs
  · cases runs
    exact .read h trivial
  · rename_i row found
    split_ifs at runs with unchanged
    · obtain ⟨t'', change, eq⟩ := Option.map_eq_some_iff.mp runs
      cases eq
      refine .change h change (fun completed => ?_) (by simp)
      simp only [KeyRow.unchanged, Bool.and_eq_true, beq_iff_eq] at unchanged
      exact absurd (completed.unique ⟨row, found, unchanged.1.2⟩).symm own
    · cases runs
      exact .read h trivial

theorem outcome_completeInTransaction (h : t.Valid)
    (runs : completeInTransaction i t = some (t', next)) : KeyOutcome i t t' next := by
  unfold completeInTransaction at runs
  split_ifs at runs with free
  split at runs
  · rename_i row found
    split_ifs at runs with status
    · cases runs
      refine ⟨⟨h.once, h.kept, fun _ => ⟨row, found, status⟩⟩, rfl, fun j _ held => ?_, le_rfl⟩
      exact absurd held (by simp [not_not.mp free])
    · cases runs
      exact .read h trivial
  · cases runs
    exact .read h trivial

/-- A commit finds the key in processing, so it is the first one. -/
theorem outcome_commitWrite (h : t.Valid) (own : t.writer = some i) {req : KeyRequest}
    (free : ∀ t, KeyAssertion i t next) : KeyOutcome i t (commitWrite i req t) next := by
  have processing := h.locked (by simp [own])
  have first := h.not_committed processing (by simp)
  obtain ⟨row, found, -⟩ := processing
  have eq : commitWrite i req t =
      { t with row := some (row.complete req), writer := none, commits := 1 } := by
    simp [commitWrite, endWrite, own, found, first]
  rw [eq]
  refine ⟨⟨le_rfl, fun _ => ⟨_, rfl, rfl⟩, fun held => absurd rfl held⟩, free _, fun j apart held => ?_,
    ?_⟩
  · exact absurd (Option.some.inj (held.symm.trans own)) apart
  · simp [first]

theorem outcome_saveResponse (h : t.Valid) {req : KeyRequest}
    (runs : saveResponse req t = some (t', next)) : KeyOutcome i t t' next := by
  obtain ⟨t'', change, eq⟩ := Option.map_eq_some_iff.mp runs
  cases eq
  refine .change h change ?_ (by simp)
  rintro ⟨row, found, -⟩
  obtain ⟨-, rfl⟩ := change_eq_some.mp change
  exact ⟨row.complete req, by simp [found], rfl⟩

theorem outcome_releaseKey (h : t.Valid) (runs : releaseKey t = some (t', next)) :
    KeyOutcome i t t' next := by
  obtain ⟨t'', change, eq⟩ := Option.map_eq_some_iff.mp runs
  cases eq
  refine .change h change ?_ (by simp)
  rintro ⟨row, found, status⟩
  obtain ⟨-, rfl⟩ := change_eq_some.mp change
  exact ⟨row, by simp [found, status], status⟩

theorem outcome_extendLock (h : t.Valid) {lockedUntil : ℕ}
    (runs : extendLock lockedUntil t = some t') (own : KeyAssertion i t next) :
    KeyOutcome i t t' next := by
  obtain ⟨free, rfl⟩ := change_eq_some.mp runs
  refine ⟨⟨h.once, fun committed => ?_, fun held => absurd free held⟩, ?_, fun _ _ => id, le_rfl⟩
  · obtain ⟨row, found, status⟩ := h.kept committed
    exact ⟨row, by simp [found, status], status⟩
  · cases next <;> exact own

/-- Every statement has its outcome. -/
theorem keyStatement_outcome (h : t.Valid) {turn : KeyTurn} {progress : KeyProgress}
    (own : KeyAssertion i t progress)
    (runs : keyStatement sha256 requests i turn t progress = some (t', next)) :
    KeyOutcome i t t' next := by
  unfold keyStatement at runs
  split at runs
  · obtain ⟨t'', change, eq⟩ := Option.map_eq_some_iff.mp runs
    cases eq
    exact outcome_extendLock h change own
  · cases runs
    exact .endWrite h fun _ => trivial
  · exact outcome_insertKey h (Option.some.inj runs)
  · cases runs
    exact .read h (selectKey_assertion _ _)
  · cases runs
    exact .read h (selectKey_assertion _ _)
  · exact outcome_reacquireWithOcc h own runs
  · cases runs
    exact .read h (getResponseForRecord_assertion _)
  · exact outcome_completeInTransaction h runs
  · cases runs
    exact .read h trivial
  · cases runs
    exact outcome_commitWrite h own fun _ => trivial
  · cases runs
    exact outcome_commitWrite h own fun _ => trivial
  · cases runs
    exact .endWrite h fun _ => trivial
  · exact outcome_saveResponse h runs
  · exact outcome_saveResponse h runs
  · cases runs
    exact .read h trivial
  · exact outcome_releaseKey h runs
  · cases runs
    exact .read h trivial
  · cases runs

theorem keyOutline (sha256 : String → String) (requests : ℕ → KeyRequest) :
    Outline (keyStatement sha256 requests) (fun _ _ _ _ => True) Valid KeyAssertion where
  own h own _ runs :=
    have outcome := keyStatement_outcome h own runs
    ⟨outcome.valid, outcome.own⟩
  others {i _ t _ t' _ j m} apart h own other _ runs := by
    have outcome := keyStatement_outcome h own runs
    cases m with
    | writing => exact outcome.others j apart other
    | found record => exact other
    | start | conflicted | lost | acquired | committed | refused | answered | done => trivial

/-! ## After the commit -/

theorem selectKey_completed (req : KeyRequest) (lapsed : Bool) (completed : t.HasStatus .completed) :
    ∃ answer, selectKey sha256 req lapsed t = .answered answer := by
  obtain ⟨row, found, status⟩ := completed
  simp only [selectKey, found, handleExistingKey, status]
  split_ifs
  · exact ⟨_, rfl⟩
  · exact ⟨_, rfl⟩

/-- A request that starts after the commit is only ever answered. -/
theorem waits_after_commit (h : t.Valid) (committed : t.commits ≠ 0) {turn : KeyTurn}
    {progress : KeyProgress} (waits : progress.Waits)
    (runs : keyStatement sha256 requests i turn t progress = some (t', next)) : next.Waits := by
  have completed := h.kept committed
  unfold keyStatement at runs
  split at runs
  · obtain ⟨t'', -, eq⟩ := Option.map_eq_some_iff.mp runs
    cases eq
    exact waits
  · cases runs
    trivial
  · obtain ⟨row, found, -⟩ := completed
    simp only [insertKey, found] at runs
    cases runs
    trivial
  · obtain ⟨answer, eq⟩ := selectKey_completed (requests i) false completed
    rw [eq] at runs
    cases runs
    trivial
  · obtain ⟨answer, eq⟩ := selectKey_completed (requests i) true completed
    rw [eq] at runs
    cases runs
    trivial
  all_goals first
    | exact waits.elim
    | (cases runs; done)
    | (cases runs; trivial)

theorem keyOutline_after_commit (sha256 : String → String) (requests : ℕ → KeyRequest) (i : ℕ) :
    Outline (keyStatement sha256 requests) (fun _ _ _ _ => True)
      (fun t => t.Valid ∧ t.commits ≠ 0)
      (fun j t progress => KeyAssertion j t progress ∧ (j = i → progress.Waits)) where
  own h own _ runs := by
    have outcome := keyStatement_outcome h.1 own.1 runs
    refine ⟨⟨outcome.valid, ?_⟩, outcome.own, fun same => ?_⟩
    · exact fun none => h.2 (Nat.le_zero.mp (none ▸ outcome.commits))
    · exact waits_after_commit h.1 h.2 (own.2 same) runs
  others apart h own other _ runs :=
    ⟨(keyOutline sha256 requests).others apart h.1 own.1 other.1 trivial runs, other.2⟩

end Outline

/-- However the requests with one key interleave, fail, lapse and die, at most one of
their write transactions commits. A request that starts after that commit runs no
write: it is answered at its second statement. -/
theorem one_write_per_key (sha256 : String → String) (requests : ℕ → KeyRequest)
    (row : Option KeyRow) (schedule : List (ℕ × KeyTurn)) :
    let P := keyStatement sha256 requests
    let c := P.after ⟨.initial row, fun _ => .start⟩ schedule
    c.shared.commits ≤ 1 ∧
      ∀ i, c.shared.commits ≠ 0 → c.locals i = .start → ∀ later,
        let d := P.after c later
        (d.locals i).Waits ∧ (d.locals i = .conflicted → ∀ lockedUntil, ∃ answer,
          P i (.proceed lockedUntil) d.shared .conflicted = some (d.shared, .answered answer)) := by
  intro P c
  have start : Holds KeyTable.Valid KeyAssertion ⟨.initial row, fun _ => .start⟩ :=
    ⟨⟨Nat.zero_le 1, fun committed => absurd rfl committed, fun held => absurd rfl held⟩,
      fun _ => trivial⟩
  have holds := (keyOutline sha256 requests).after start schedule
  refine ⟨holds.shared.once, fun i committed untouched later => ?_⟩
  have late : Holds (fun t => t.Valid ∧ t.commits ≠ 0)
      (fun j t progress => KeyAssertion j t progress ∧ (j = i → progress.Waits)) c := by
    refine ⟨⟨holds.shared, committed⟩, fun j => ⟨holds.locals j, fun same => ?_⟩⟩
    rw [same, untouched]
    trivial
  have after := (keyOutline_after_commit sha256 requests i).after late later
  refine ⟨(after.locals i).2 rfl, fun _ _ => ?_⟩
  obtain ⟨answer, eq⟩ :=
    selectKey_completed (requests i) false (after.shared.1.kept after.shared.2)
  exact ⟨answer, congrArg some (congrArg (Prod.mk _) eq)⟩

end PapitalErp
