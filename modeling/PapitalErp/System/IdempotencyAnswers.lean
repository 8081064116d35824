import PapitalErp.System.Idempotency
import Mathlib.Data.Set.Function

/-!
# Whose answer a key gives

`sameRequest` compares the request with the row that was read. Three statements
act on the row without it: the completion and the stored answer name the key and
not the run, the read after a lost race compares nothing, and a failed row is
taken over by any request. The comparison itself passes over a body that one of
the two sides lacks. Where the row records the request's own at these statements,
a request gets the stored answers of its equals alone.

`sha256` is any function that separates the bodies of the requests.
-/

namespace PapitalErp

open Interleaving

section Requests

variable (sha256 : String → String)

def StoredPayload.Is (stored : StoredPayload) (text : String) : Prop :=
  stored = requestFingerprint sha256 text ∨ stored = .body text

/-- The columns record this request. -/
structure StoredRequest.Is (record : StoredRequest) (req : KeyRequest) : Prop where
  method : record.requestMethod = some req.method
  path : record.requestPath = some req.path
  payload : Option.Rel (StoredPayload.Is sha256) record.requestPayload req.payload

/-- Different bodies of these requests have different digests. -/
def Separates (known : Set KeyRequest) : Prop :=
  Set.InjOn sha256 {text | ∃ req ∈ known, req.payload = some text}

variable {sha256} {record : StoredRequest} {req req' : KeyRequest}

theorem StoredPayload.Is.digest {stored : StoredPayload} {text text' : String}
    (h : stored.Is sha256 text) (h' : stored.Is sha256 text') : sha256 text = sha256 text' := by
  obtain rfl | rfl := h
  · obtain same | other := h'
    · simpa [requestFingerprint] using same
    · cases other
  · obtain other | same := h'
    · cases other
    · rw [StoredPayload.body.inj same]

theorem payload_unique {stored : Option StoredPayload} {payload payload' : Option String}
    (separates : ∀ text text', payload = some text → payload' = some text' →
      sha256 text = sha256 text' → text = text')
    (h : Option.Rel (StoredPayload.Is sha256) stored payload)
    (h' : Option.Rel (StoredPayload.Is sha256) stored payload') : payload = payload' := by
  cases h with
  | none =>
      cases h'
      rfl
  | some is =>
      cases h' with
      | some is' => rw [separates _ _ rfl rfl (is.digest is')]

theorem StoredRequest.Is.unique {known : Set KeyRequest} (separates : Separates sha256 known)
    (mem : req ∈ known) (mem' : req' ∈ known) (h : record.Is sha256 req)
    (h' : record.Is sha256 req') : req = req' := by
  have method : req.method = req'.method := Option.some.inj (h.method.symm.trans h'.method)
  have path : req.path = req'.path := Option.some.inj (h.path.symm.trans h'.path)
  have payload : req.payload = req'.payload :=
    payload_unique (fun _ _ body body' => separates ⟨req, mem, body⟩ ⟨req', mem', body'⟩)
      h.payload h'.payload
  cases req
  cases req'
  simp_all

theorem storedRequest_is (req : KeyRequest) : (storedRequest sha256 req).Is sha256 req := by
  refine ⟨rfl, rfl, ?_⟩
  cases body : req.payload with
  | none => simp [storedRequest, body]
  | some text => simp [storedRequest, body, StoredPayload.Is]

theorem StoredRequest.Is.retake (h : record.Is sha256 req) :
    (record.retake sha256 req).Is sha256 req := by
  refine ⟨rfl, rfl, ?_⟩
  have payload := h.payload
  cases body : req.payload with
  | none =>
      rw [body] at payload
      simpa [StoredRequest.retake, body] using payload
  | some text => simp [StoredRequest.retake, body, StoredPayload.Is]

/-- Where both sides have a body or neither does, the comparison decides. -/
theorem sameRequest_is {run : KeyRequest} (recorded : record.Is sha256 run)
    (same : sameRequest sha256 record req = true)
    (bodies : record.requestPayload.isSome = req.payload.isSome) : record.Is sha256 req := by
  simp only [sameRequest, recorded.method, recorded.path, Bool.and_eq_true, beq_iff_eq] at same
  obtain ⟨⟨method, path⟩, payload⟩ := same
  refine ⟨by rw [recorded.method, method], by rw [recorded.path, path], ?_⟩
  cases body : req.payload with
  | none =>
      cases stored : record.requestPayload with
      | none => exact .none
      | some columns => simp [body, stored] at bodies
  | some text =>
      cases stored : record.requestPayload with
      | none => simp [body, stored] at bodies
      | some columns =>
          rw [body, stored] at payload
          cases columns with
          | fingerprint _ => exact .some (.inl (beq_iff_eq.mp payload).symm)
          | body _ => exact .some (.inr (congrArg _ (beq_iff_eq.mp payload).symm))

end Requests

/-! ## The rows -/

section Rows

variable (sha256 : String → String)

/-- A row records the request of the run that holds it, and of the response it stores. -/
structure KeyRow.Recorded (known : Set KeyRequest) (row : KeyRow) : Prop where
  run : row.run ∈ known ∧ row.request.Is sha256 row.run
  response : row.status = .completed →
    ∃ origin ∈ known, row.response = some origin ∧ row.request.Is sha256 origin

structure KeyTable.Recorded (known : Set KeyRequest) (t : KeyTable) : Prop where
  fresh : ∀ row, t.row = some row → row.id < t.nextId
  row : ∀ row, t.row = some row → row.Recorded sha256 known

/-- At the statements that compare nothing, and where the comparison passes over a
body, the row records the request's own. -/
def RecordsOwn (requests : ℕ → KeyRequest) (i : ℕ) (turn : KeyTurn) (t : KeyTable)
    (progress : KeyProgress) : Prop :=
  ∀ row, t.row = some row →
    match turn, progress with
    | .proceed _, .conflicted | .lapsed, .conflicted =>
        (row.status = .failed → row.request.Is sha256 (requests i)) ∧
          (sameRequest sha256 row.request (requests i) = true →
            row.request.requestPayload.isSome = (requests i).payload.isSome)
    | .proceed _, .lost id =>
        row.id = id → row.status = .completed → row.request.Is sha256 (requests i)
    | .proceed _, .acquired _ => row.status = .processing → row.request.Is sha256 (requests i)
    | .saveResponse, .committed | .saveResponse, .refused => row.request.Is sha256 (requests i)
    | _, _ => True

/-- What a request relies on: the row it found or completes is its own, and so is
the run it took over and the response it was answered. -/
def OwnsKey (requests : ℕ → KeyRequest) (i : ℕ) (t : KeyTable) : KeyProgress → Prop
  | .found record => record.id < t.nextId ∧
      ∀ row, t.row = some row → row.id = record.id → row.request.Is sha256 (requests i)
  | .writing => ∀ row, t.row = some row → row.request.Is sha256 (requests i)
  | .acquired takenOver => ∀ run, takenOver = some run → run = requests i
  | .answered answer => ∀ origin, answer = .cached (some origin) → origin = requests i
  | _ => True

/-- A statement leaves the request that the row records, or inserts a new row. -/
structure KeyTable.Follows (known : Set KeyRequest) (t t' : KeyTable) : Prop where
  nextId : t.nextId ≤ t'.nextId
  row : ∀ row', t'.row = some row' →
    (∃ row, t.row = some row ∧ row'.id = row.id ∧
      ∀ req ∈ known, row.request.Is sha256 req → row'.request.Is sha256 req) ∨
    t.row = none ∧ t.nextId ≤ row'.id

end Rows

section Outline

open KeyTable

variable {sha256 : String → String} {known : Set KeyRequest} {requests : ℕ → KeyRequest} {i : ℕ}
  {t t' : KeyTable} {next : KeyProgress}

/-- The effect of a statement of request `i` on what the key records. -/
structure AnswerOutcome (sha256 : String → String) (known : Set KeyRequest)
    (requests : ℕ → KeyRequest) (i : ℕ) (t t' : KeyTable) (next : KeyProgress) : Prop where
  recorded : t'.Recorded sha256 known
  own : OwnsKey sha256 requests i t' next
  follows : t.Follows sha256 known t'

namespace AnswerOutcome

theorem read (h : t.Recorded sha256 known) (own : OwnsKey sha256 requests i t next) :
    AnswerOutcome sha256 known requests i t t next :=
  ⟨h, own, le_rfl, fun row found => .inl ⟨row, found, rfl, fun _ _ => id⟩⟩

/-- A statement that keeps the id and the request of the row, if it keeps the row. -/
theorem change (h : t.Recorded sha256 known) (nextId : t'.nextId = t.nextId)
    (keeps : ∀ row', t'.row = some row' → ∃ row, t.row = some row ∧ row'.id = row.id ∧
      row'.Recorded sha256 known ∧
        ∀ req ∈ known, row.request.Is sha256 req → row'.request.Is sha256 req)
    (own : OwnsKey sha256 requests i t' next) : AnswerOutcome sha256 known requests i t t' next := by
  refine ⟨⟨fun row' found => ?_, fun row' found => ?_⟩, own, nextId.ge, fun row' found => .inl ?_⟩
  · obtain ⟨row, before, id, -⟩ := keeps row' found
    rw [id, nextId]
    exact h.fresh row before
  · obtain ⟨-, -, -, recorded, -⟩ := keeps row' found
    exact recorded
  · obtain ⟨row, before, id, -, same⟩ := keeps row' found
    exact ⟨row, before, id, same⟩

/-- A statement that leaves the row. -/
theorem stay (h : t.Recorded sha256 known) (nextId : t'.nextId = t.nextId) (row : t'.row = t.row)
    (own : OwnsKey sha256 requests i t' next) : AnswerOutcome sha256 known requests i t t' next := by
  refine change h nextId (fun row' found => ?_) own
  rw [row] at found
  exact ⟨row', found, rfl, h.row row' found, fun _ _ => id⟩

end AnswerOutcome

/-- What another request relies on stays. -/
theorem OwnsKey.follows {j : ℕ} {progress : KeyProgress} (mem : requests j ∈ known)
    (h : OwnsKey sha256 requests j t progress) (follows : t.Follows sha256 known t')
    (held : progress = .writing → t.row ≠ none) : OwnsKey sha256 requests j t' progress := by
  cases progress with
  | found record =>
      refine ⟨h.1.trans_le follows.nextId, fun row' found same => ?_⟩
      obtain ⟨row, before, id, keeps⟩ | ⟨-, new⟩ := follows.row row' found
      · exact keeps _ mem (h.2 row before (id.symm.trans same))
      · exact absurd (new.trans same.le) (not_le.mpr h.1)
  | writing =>
      intro row' found
      obtain ⟨row, before, -, keeps⟩ | ⟨none, -⟩ := follows.row row' found
      · exact keeps _ mem (h row before)
      · exact absurd none (held rfl)
  | start | conflicted | lost | acquired | committed | refused | answered | done => exact h

theorem answer_endWrite (h : t.Recorded sha256 known) (own : ∀ t, OwnsKey sha256 requests i t next) :
    AnswerOutcome sha256 known requests i t (t.endWrite i) next := by
  unfold endWrite
  split_ifs
  · exact .stay h rfl rfl (own _)
  · exact .read h (own t)

theorem acquired_none_owns : OwnsKey sha256 requests i t (.acquired none) := by
  rintro run ⟨⟩

theorem answer_insertKey (h : t.Recorded sha256 known) (mem : requests i ∈ known) {lockedUntil : ℕ}
    {out} (runs : insertKey sha256 (requests i) lockedUntil t = out) :
    AnswerOutcome sha256 known requests i t out.1 out.2 := by
  subst runs
  unfold insertKey
  split
  · exact .read h trivial
  · rename_i none
    refine ⟨⟨?_, ?_⟩, acquired_none_owns, Nat.le_succ _, ?_⟩
    · rintro row ⟨⟩
      exact Nat.lt_succ_self _
    · rintro row ⟨⟩
      exact ⟨⟨mem, storedRequest_is _⟩, fun completed => by cases completed⟩
    · rintro row ⟨⟩
      exact .inr ⟨none, le_rfl⟩

/-- A row that records the request has its response, or none. -/
theorem response_owns {row : KeyRow} (recorded : row.Recorded sha256 known)
    (separates : Separates sha256 known) (mem : requests i ∈ known) (status : row.status = .completed)
    (is : row.request.Is sha256 (requests i)) :
    OwnsKey sha256 requests i t (.answered (.cached row.response)) := by
  obtain ⟨origin, member, response, other⟩ := recorded.response status
  intro origin' cached
  rw [response] at cached
  obtain rfl := Option.some.inj (KeyAnswer.cached.inj cached)
  exact other.unique separates member mem is

/-- The comparison lets through the row's own request only. -/
theorem selectKey_owns (h : t.Recorded sha256 known) (separates : Separates sha256 known)
    (mem : requests i ∈ known) (lapsed : Bool)
    (meets : ∀ row, t.row = some row → (row.status = .failed → row.request.Is sha256 (requests i)) ∧
      (sameRequest sha256 row.request (requests i) = true →
        row.request.requestPayload.isSome = (requests i).payload.isSome)) :
    OwnsKey sha256 requests i t (selectKey sha256 (requests i) lapsed t) := by
  cases found : t.row with
  | none =>
      simp only [selectKey, found]
      exact acquired_none_owns
  | some row =>
      have recorded := h.row row found
      obtain ⟨failed, bodies⟩ := meets row found
      have takes (is : row.request.Is sha256 (requests i)) :
          OwnsKey sha256 requests i t (.found row) := by
        refine ⟨h.fresh row found, fun row' found' _ => ?_⟩
        rw [Option.some.inj (found'.symm.trans found)]
        exact is
      simp only [selectKey, found, handleExistingKey]
      split
      · exact fun _ cached => by cases cached
      · rename_i mismatch
        have compared (other : row.status ≠ .failed) : row.request.Is sha256 (requests i) := by
          have same : sameRequest sha256 row.request (requests i) = true := by
            simpa [other] using mismatch
          exact sameRequest_is recorded.run.2 same (bodies same)
        cases status : row.status with
        | completed =>
            exact response_owns recorded separates mem status (compared (by simp [status]))
        | processing =>
            cases lapsed with
            | true => exact takes (compared (by simp [status]))
            | false => exact fun _ cached => by cases cached
        | failed => exact takes (failed status)

theorem getResponseForRecord_owns (h : t.Recorded sha256 known) (separates : Separates sha256 known)
    (mem : requests i ∈ known) {id : ℕ}
    (meets : ∀ row, t.row = some row → row.id = id → row.status = .completed →
      row.request.Is sha256 (requests i)) :
    OwnsKey sha256 requests i t (getResponseForRecord id t) := by
  cases found : t.row with
  | none =>
      simp only [getResponseForRecord, found]
      exact acquired_none_owns
  | some row =>
      simp only [getResponseForRecord, found]
      split
      · exact acquired_none_owns
      · rename_i same
        cases status : row.status with
        | completed =>
            exact response_owns (h.row row found) separates mem status
              (meets row found (not_not.mp same) status)
        | processing => exact fun _ cached => by cases cached
        | failed => exact acquired_none_owns

theorem answer_completeInTransaction (h : t.Recorded sha256 known)
    (meets : ∀ row, t.row = some row → row.status = .processing → row.request.Is sha256 (requests i))
    (runs : completeInTransaction i t = some (t', next)) :
    AnswerOutcome sha256 known requests i t t' next := by
  unfold completeInTransaction at runs
  split_ifs at runs
  split at runs
  · rename_i row found
    split_ifs at runs with status
    · cases runs
      refine .stay h rfl rfl fun row' same => ?_
      rw [← Option.some.inj (found.symm.trans same)]
      exact meets row found status
    · cases runs
      exact .read h trivial
  · cases runs
    exact .read h trivial

/-- A response stored on a row of the same request. -/
theorem answer_complete (h : t.Recorded sha256 known) (mem : requests i ∈ known)
    (is : ∀ row, t.row = some row → row.request.Is sha256 (requests i))
    (row : t'.row = t.row.map (KeyRow.complete (requests i))) (nextId : t'.nextId = t.nextId)
    (own : OwnsKey sha256 requests i t' next) : AnswerOutcome sha256 known requests i t t' next := by
  refine .change h nextId (fun row' stored => ?_) own
  obtain ⟨before, found, rfl⟩ := Option.map_eq_some_iff.mp (row.symm.trans stored)
  exact ⟨before, found, rfl, ⟨(h.row before found).run, fun _ => ⟨_, mem, rfl, is before found⟩⟩,
    fun _ _ => id⟩

theorem answer_commitWrite (h : t.Recorded sha256 known) (mem : requests i ∈ known)
    (is : ∀ row, t.row = some row → row.request.Is sha256 (requests i)) (own : ∀ t, OwnsKey sha256 requests i t next) :
    AnswerOutcome sha256 known requests i t (commitWrite i (requests i) t) next := by
  unfold commitWrite endWrite
  split_ifs
  · exact answer_complete h mem is rfl rfl (own _)
  · exact answer_complete h mem is rfl rfl (own _)

theorem answer_saveResponse (h : t.Recorded sha256 known) (mem : requests i ∈ known)
    (is : ∀ row, t.row = some row → row.request.Is sha256 (requests i))
    (runs : saveResponse (requests i) t = some (t', next)) :
    AnswerOutcome sha256 known requests i t t' next := by
  obtain ⟨t'', change, eq⟩ := Option.map_eq_some_iff.mp runs
  cases eq
  obtain ⟨-, rfl⟩ := change_eq_some.mp change
  exact answer_complete h mem is rfl rfl trivial

theorem answer_reacquireWithOcc (h : t.Recorded sha256 known) (separates : Separates sha256 known)
    (mem : requests i ∈ known) {record : KeyRow} {lockedUntil : ℕ}
    (own : OwnsKey sha256 requests i t (.found record))
    (runs : reacquireWithOcc sha256 record (requests i) lockedUntil t = some (t', next)) :
    AnswerOutcome sha256 known requests i t t' next := by
  unfold reacquireWithOcc at runs
  split at runs
  · cases runs
    exact .read h trivial
  · rename_i row found
    split_ifs at runs with unchanged
    · obtain ⟨t'', change, eq⟩ := Option.map_eq_some_iff.mp runs
      cases eq
      obtain ⟨-, rfl⟩ := change_eq_some.mp change
      simp only [KeyRow.unchanged, Bool.and_eq_true, beq_iff_eq] at unchanged
      have is := own.2 row found unchanged.1.1
      have recorded := h.row row found
      have retaken : (row.request.retake sha256 (requests i)).Is sha256 (requests i) := is.retake
      refine ⟨⟨?_, ?_⟩, ?_, le_rfl, ?_⟩
      · rintro _ ⟨⟩
        exact h.fresh row found
      · rintro _ ⟨⟩
        exact ⟨⟨mem, retaken⟩, fun completed => by cases completed⟩
      · rintro _ ⟨⟩
        exact recorded.run.2.unique separates recorded.run.1 mem is
      · rintro _ ⟨⟩
        refine .inl ⟨row, found, rfl, fun req known other => ?_⟩
        rw [other.unique separates known mem is]
        exact retaken
    · cases runs
      exact .read h trivial

theorem answer_releaseKey (h : t.Recorded sha256 known) (runs : releaseKey t = some (t', next)) :
    AnswerOutcome sha256 known requests i t t' next := by
  obtain ⟨t'', change, eq⟩ := Option.map_eq_some_iff.mp runs
  cases eq
  obtain ⟨-, rfl⟩ := change_eq_some.mp change
  refine .change h rfl (fun row kept => ?_) trivial
  obtain ⟨found, -⟩ := Option.filter_eq_some_iff.mp kept
  exact ⟨row, found, rfl, h.row row found, fun _ _ => id⟩

theorem answer_extendLock (h : t.Recorded sha256 known) (mem : requests i ∈ known) {lockedUntil : ℕ}
    (runs : extendLock lockedUntil t = some t') (own : OwnsKey sha256 requests i t next)
    (held : next = .writing → t.row ≠ none) : AnswerOutcome sha256 known requests i t t' next := by
  obtain ⟨-, rfl⟩ := change_eq_some.mp runs
  have keeps : ∀ row', t.row.map (fun row =>
      if row.status = .processing then { row with lockedUntil } else row) = some row' →
      ∃ row, t.row = some row ∧ row'.id = row.id ∧ row'.Recorded sha256 known ∧
        ∀ req ∈ known, row.request.Is sha256 req → row'.request.Is sha256 req := by
    intro row' stored
    obtain ⟨row, found, rfl⟩ := Option.map_eq_some_iff.mp stored
    have recorded := h.row row found
    refine ⟨row, found, ?_⟩
    split_ifs
    · exact ⟨rfl, ⟨recorded.run, recorded.response⟩, fun _ _ => id⟩
    · exact ⟨rfl, recorded, fun _ _ => id⟩
  refine .change h rfl keeps (own.follows mem ⟨le_rfl, fun row' stored => .inl ?_⟩ held)
  obtain ⟨row, found, id, -, same⟩ := keeps row' stored
  exact ⟨row, found, id, same⟩

/-- Every statement of a schedule that meets the condition has its outcome. -/
theorem keyStatement_answer (h : t.Recorded sha256 known) (separates : Separates sha256 known)
    (mem : requests i ∈ known) {turn : KeyTurn} {progress : KeyProgress}
    (held : progress = .writing → t.row ≠ none)
    (own : OwnsKey sha256 requests i t progress) (meets : RecordsOwn sha256 requests i turn t progress)
    (runs : keyStatement sha256 requests i turn t progress = some (t', next)) :
    AnswerOutcome sha256 known requests i t t' next := by
  unfold keyStatement at runs
  split at runs
  · obtain ⟨t'', change, eq⟩ := Option.map_eq_some_iff.mp runs
    cases eq
    exact answer_extendLock h mem change own held
  · cases runs
    exact answer_endWrite h fun _ => trivial
  · exact answer_insertKey h mem (Option.some.inj runs)
  · cases runs
    exact .read h (selectKey_owns h separates mem _ meets)
  · cases runs
    exact .read h (selectKey_owns h separates mem _ meets)
  · exact answer_reacquireWithOcc h separates mem own runs
  · cases runs
    exact .read h (getResponseForRecord_owns h separates mem meets)
  · exact answer_completeInTransaction h meets runs
  · cases runs
    exact .read h trivial
  · cases runs
    exact answer_commitWrite h mem own fun _ => trivial
  · cases runs
    exact answer_commitWrite h mem own fun _ => trivial
  · cases runs
    exact answer_endWrite h fun _ => trivial
  · exact answer_saveResponse h mem meets runs
  · exact answer_saveResponse h mem meets runs
  · cases runs
    exact .read h trivial
  · exact answer_releaseKey h runs
  · cases runs
    exact .read h trivial
  · cases runs

theorem KeyAssertion.row_ne_none (h : t.Valid) {progress : KeyProgress}
    (own : KeyAssertion i t progress) (writing : progress = .writing) : t.row ≠ none := by
  subst writing
  obtain ⟨row, found, -⟩ := h.locked (by simp [show t.writer = some i from own])
  simp [found]

/-- The statements that meet the condition follow the outline. -/
theorem answerOutline (separates : Separates sha256 known) (mem : ∀ i, requests i ∈ known) :
    Outline (keyStatement sha256 requests) (RecordsOwn sha256 requests)
      (fun t => t.Valid ∧ t.Recorded sha256 known)
      (fun i t progress => KeyAssertion i t progress ∧ OwnsKey sha256 requests i t progress) where
  own {i _ _ _ _ _} h own meets runs := by
    have outcome := keyStatement_outcome h.1 own.1 runs
    have answer := keyStatement_answer h.2 separates (mem i) (own.1.row_ne_none h.1) own.2 meets runs
    exact ⟨⟨outcome.valid, answer.recorded⟩, outcome.own, answer.own⟩
  others {i _ _ _ _ _ j _} apart h own other meets runs := by
    have answer := keyStatement_answer h.2 separates (mem i) (own.1.row_ne_none h.1) own.2 meets runs
    exact ⟨(keyOutline sha256 requests).others apart h.1 own.1 other.1 trivial runs,
      other.2.follows (mem j) answer.follows (other.1.row_ne_none h.1)⟩

end Outline

/-- The requests of a run, and those that an older row names. -/
def knownRequests (requests : ℕ → KeyRequest) (row : Option KeyRow) : Set KeyRequest :=
  {req | (∃ i, requests i = req) ∨ ∃ r, row = some r ∧ (r.run = req ∨ r.response = some req)}

/-- In every schedule that meets the condition, a request is answered with the stored
response of a request with its method, path and body, and takes over no other's run. -/
theorem key_answers_own_request (sha256 : String → String) (requests : ℕ → KeyRequest)
    (row : Option KeyRow) (schedule : List (ℕ × KeyTurn))
    (separates : Separates sha256 (knownRequests requests row))
    (recorded : ∀ r, row = some r → r.Recorded sha256 (knownRequests requests row)) :
    let P := keyStatement sha256 requests
    let start : Config ℕ KeyTable KeyProgress := ⟨.initial row, fun _ => .start⟩
    P.Meets (RecordsOwn sha256 requests) start schedule → ∀ i req,
      ((P.after start schedule).locals i = .answered (.cached (some req)) → req = requests i) ∧
        ((P.after start schedule).locals i = .acquired (some req) → req = requests i) := by
  intro P start meets i req
  have holds : Holds (fun t => t.Valid ∧ t.Recorded sha256 (knownRequests requests row))
      (fun i t progress => KeyAssertion i t progress ∧ OwnsKey sha256 requests i t progress) start := by
    refine ⟨⟨⟨Nat.zero_le 1, fun h => absurd rfl h, fun h => absurd rfl h⟩, ?_, recorded⟩,
      fun _ => ⟨trivial, trivial⟩⟩
    rintro r found
    simp [start, KeyTable.initial, show row = some r from found]
  have after := (answerOutline separates fun i => .inl ⟨i, rfl⟩).after_meets holds meets
  have own := (after.locals i).2
  constructor
  · intro answered
    rw [answered] at own
    exact own req rfl
  · intro taken
    rw [taken] at own
    exact own req rfl

/-- Two equal requests, one after the other. -/
theorem key_answers_resend :
    let req : KeyRequest := ⟨.post, "/treasury/receipt", some "[1]"⟩
    let P := keyStatement id fun _ => req
    let start : Config ℕ KeyTable KeyProgress := ⟨.initial none, fun _ => .start⟩
    let schedule : List (ℕ × KeyTurn) := [(0, .proceed 60), (0, .proceed 0), (0, .proceed 0),
      (0, .saveResponse), (1, .proceed 70), (1, .proceed 70)]
    (P.after start schedule).locals 1 = .answered (.cached (some req)) ∧ ∀ i req',
      ((P.after start schedule).locals i = .answered (.cached (some req')) → req' = req) ∧
        ((P.after start schedule).locals i = .acquired (some req') → req' = req) := by
  intro req P start schedule
  refine ⟨by decide +kernel, key_answers_own_request id (fun _ => req) none schedule (Set.injOn_id _)
    (fun _ h => by cases h) ?_⟩
  have own : (storedRequest id req).Is id req := storedRequest_is req
  refine ⟨fun _ _ => ?_, fun _ _ => ?_, fun _ _ => ?_, fun _ _ => ?_, fun _ _ => ?_, fun _ _ => ?_, trivial⟩
  · rintro row ⟨⟩
  · rintro row ⟨⟩
    exact fun _ => own
  · rintro row ⟨⟩
    trivial
  · rintro row ⟨⟩
    exact own
  · rintro row ⟨⟩
    trivial
  · rintro row ⟨⟩
    exact ⟨fun _ => own, fun _ => rfl⟩

/-- A run whose lock lapsed, after a resend took it over and failed, completes the key
of another request; that one's resend gets the response of the first. -/
theorem key_answers_other_request :
    ∃ (sha256 : String → String) (requests : ℕ → KeyRequest) (schedule : List (ℕ × KeyTurn)) (i : ℕ)
      (origin : KeyRequest), sha256.Injective ∧
      ((keyStatement sha256 requests).after ⟨.initial none, fun _ => .start⟩ schedule).locals i =
        .answered (.cached (some origin)) ∧
      origin.path ≠ (requests i).path ∧ origin.payload ≠ (requests i).payload := by
  refine ⟨id, fun i => if i < 2 then ⟨.post, "/treasury/receipt", some "[1]"⟩
    else ⟨.post, "/treasury/payment", some "[2]"⟩,
    [(0, .proceed 60), (1, .proceed 70), (1, .lapsed), (1, .proceed 70), (1, .fail), (1, .proceed 0),
      (2, .proceed 80), (0, .proceed 0), (0, .proceed 0), (3, .proceed 90), (3, .proceed 90)], 3,
    ⟨.post, "/treasury/receipt", some "[1]"⟩, Function.injective_id, ?_⟩
  decide +kernel

end PapitalErp
