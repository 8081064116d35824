import PapitalErp.Treasury.BankBalance

/-!
# Reconciliation of bank statements

`reconcileTreasuryRows` marks treasury rows and cleared cheques as agreed with a
statement of their account, or takes the marks back. It locks the rows it names
and does everything in one transaction, like the operations of `bankStep`, so
the operations follow each other.

The three columns of the mark are kept beside the rows, by the row's key, since
no other operation writes them and a new row has none. `audit` is the activity
log of the entity `treasury_reconciliation`.
-/

namespace PapitalErp.BankBook

open Transition FilteredSums

inductive RowKind where
  | treasury
  | cheque
  deriving DecidableEq

structure RowKey where
  kind : RowKind
  id : ℕ
  deriving DecidableEq

/-- `reconciled_at` and `reconciled_batch` of a row whose `reconciled` is 1. -/
structure Mark where
  reconciledAt : String
  reconciledBatch : String
  deriving DecidableEq

structure AuditEntry where
  bankAccountId : ℕ
  batch : String
  reconciled : Bool
  changed : List RowKey

structure StatementBook where
  book : Book
  marks : RowKey → Option Mark
  /-- in the order of the entries -/
  audit : List AuditEntry

inductive RefusalReason where
  | notFound
  | otherAccount
  | voided
  | notPassed
  deriving DecidableEq

inductive StatementError where
  | book (error : BookError)
  | rowsInvalid (refused : List (RowKey × RefusalReason))
  | alreadyReconciled (row : RowKey) (batch : String)

def refusalReason (row : Option TreasuryRow) (bankAccountId : ℕ) : Option RefusalReason :=
  match row with
  | none => some .notFound
  | some row =>
    if row.isDeleted then some .notFound
    else if row.bankAccountId ≠ some bankAccountId then some .otherAccount
    else if row.voided then some .voided
    else none

def chequeRefusalReason (row : Option Cheque) (bankAccountId : ℕ) : Option RefusalReason :=
  match row with
  | none => some .notFound
  | some cheque =>
    if cheque.isDeleted then some .notFound
    else if cheque.bankAccountId ≠ some bankAccountId then some .otherAccount
    else if cheque.status ≠ some .passed then some .notPassed
    else none

def findRow (book : Book) (id : ℕ) : Option TreasuryRow :=
  book.rows.find? fun row => decide (row.id = id)

def findCheque (book : Book) (id : ℕ) : Option Cheque :=
  book.cheques.find? fun cheque => decide (cheque.id = id)

/-- Why a row is not accepted in a statement of the account. -/
def reasonFor (book : Book) (bankAccountId : ℕ) (key : RowKey) : Option RefusalReason :=
  match key.kind with
  | .treasury => refusalReason (findRow book key.id) bankAccountId
  | .cheque => chequeRefusalReason (findCheque book key.id) bankAccountId

structure ReconcileParams where
  bankAccountId : ℕ
  txIds : List ℕ
  chequeIds : List ℕ
  batch : String
  reconciled : Bool
  /-- the server's clock -/
  now : String

/-- The rows of the request, each once. -/
def ReconcileParams.keys (params : ReconcileParams) : List RowKey :=
  params.txIds.eraseDups.map (RowKey.mk .treasury) ++ params.chequeIds.eraseDups.map (RowKey.mk .cheque)

/-- The rows as the two queries return them, by id. -/
def ReconcileParams.readRows (params : ReconcileParams) : List RowKey :=
  (params.txIds.eraseDups.mergeSort (· ≤ ·)).map (RowKey.mk .treasury) ++
    (params.chequeIds.eraseDups.mergeSort (· ≤ ·)).map (RowKey.mk .cheque)

namespace StatementBook

/-- The first row of a marking request that carries a mark already. -/
def alreadyReconciled (t : StatementBook) (params : ReconcileParams) : Option (RowKey × Mark) :=
  if params.reconciled then
    params.readRows.findSome? fun key => (t.marks key).map (key, ·)
  else none

/-- The rows whose state the request changes. -/
def changed (t : StatementBook) (params : ReconcileParams) : List RowKey :=
  params.readRows.filter fun key => (t.marks key).isSome != params.reconciled

/-- The columns that the changed rows get. -/
def ofParams (params : ReconcileParams) : Option Mark :=
  if params.reconciled then some ⟨params.now, params.batch⟩ else none

/-- The writes of the request and its audit row. -/
def write (t : StatementBook) (params : ReconcileParams) : StatementBook :=
  if t.changed params = [] then t
  else
    { t with
      marks := fun key => if key ∈ t.changed params then ofParams params else t.marks key
      audit := t.audit ++
        [⟨params.bankAccountId, params.batch, params.reconciled, t.changed params⟩] }

end StatementBook

def reconcileTreasuryRows (t : StatementBook) (params : ReconcileParams) :
    Except StatementError StatementBook :=
  let refused := params.keys.filterMap fun key =>
    (reasonFor t.book params.bankAccountId key).map (key, ·)
  if refused ≠ [] then .error (.rowsInvalid refused)
  else
    match t.alreadyReconciled params with
    | some (key, mark) => .error (.alreadyReconciled key mark.reconciledBatch)
    | none => .ok (t.write params)

inductive StatementOperation where
  | bank (op : BankOperation)
  | reconcile (params : ReconcileParams)

def statementStep (t : StatementBook) : StatementOperation → Except StatementError StatementBook
  | .bank op =>
      match bankStep t.book op with
      | .ok book => .ok { t with book }
      | .error e => .error (.book e)
  | .reconcile params => reconcileTreasuryRows t params

/-! ## What a reconciled row stands on -/

/-- The row exists, belongs to the account and is live: a treasury row neither voided nor
deleted, a cheque that is passed. -/
def LiveIn (book : Book) (bankAccountId : ℕ) (key : RowKey) : Prop :=
  match key.kind with
  | .treasury => ∃ row, findRow book key.id = some row ∧ row.isDeleted = false ∧
      row.bankAccountId = some bankAccountId ∧ row.voided = false
  | .cheque => ∃ cheque, findCheque book key.id = some cheque ∧ cheque.isDeleted = false ∧
      cheque.bankAccountId = some bankAccountId ∧ cheque.status = some .passed

theorem reasonFor_eq_none {book : Book} {bankAccountId : ℕ} {key : RowKey} :
    reasonFor book bankAccountId key = none ↔ LiveIn book bankAccountId key := by
  obtain ⟨kind, id⟩ := key
  cases kind with
  | treasury =>
      simp only [reasonFor, LiveIn]
      cases findRow book id with
      | none => simp [refusalReason]
      | some row =>
          simp only [refusalReason, Option.some.injEq, exists_eq_left']
          split_ifs <;> simp_all
  | cheque =>
      simp only [reasonFor, LiveIn]
      cases findCheque book id with
      | none => simp [chequeRefusalReason]
      | some cheque =>
          simp only [chequeRefusalReason, Option.some.injEq, exists_eq_left']
          split_ifs <;> simp_all

/-- The audit entries that changed the row, in their order. -/
def StatementBook.history (t : StatementBook) (key : RowKey) : List AuditEntry :=
  t.audit.filter fun entry => decide (key ∈ entry.changed)

/-- Reconciliation stands on live rows: a marked row is live in the account that its last
entry reconciled it for, under that entry's batch; an unmarked row was last taken back, if
it was ever marked; and between two batches that marked a row it was taken back. -/
structure OnLiveRows (t : StatementBook) : Prop where
  marked : ∀ key mark, t.marks key = some mark → ∃ entry, (t.history key).getLast? = some entry ∧
    entry.reconciled = true ∧ entry.batch = mark.reconciledBatch ∧
    LiveIn t.book entry.bankAccountId key
  unmarked : ∀ key, t.marks key = none → ∀ entry ∈ (t.history key).getLast?, entry.reconciled = false
  alternating : ∀ key, (t.history key).IsChain fun a b => a.reconciled ≠ b.reconciled

/-- What the reconciled rows of an account brought it. -/
def reconciledTotal (t : StatementBook) (bankAccountId : ℕ) : ℚ :=
  sumWhere (fun row : TreasuryRow => decide (row.bankAccountId = some bankAccountId) &&
      (t.marks ⟨.treasury, row.id⟩).isSome) (fun row => row.type.signed row.amount) t.book.rows +
    sumWhere (fun cheque : Cheque => decide (cheque.bankAccountId = some bankAccountId) &&
      (t.marks ⟨.cheque, cheque.id⟩).isSome) Cheque.clearedAmount t.book.cheques

end PapitalErp.BankBook
