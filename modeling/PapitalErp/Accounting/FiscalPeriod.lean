import PapitalErp.Lib.Interleaving

/-!
# Fiscal years, their locks and the vouchers

Transactions that post, change, approve, reverse and delete vouchers lock the row of
the fiscal year FOR SHARE, a closing and a reopening lock it FOR UPDATE. A transaction
holds its locks and hides its writes until it commits; a read sees what is committed
and the transaction's own writes. `knownYears` is the cache of the one process that
serves; it outlives a rollback.

An abort, at any point, stands for every other refusal, a deadlock and a crash. The
advisory locks that put closings and reopenings in sequence are left out, and so are
the checks of the order of the years: without them there are more schedules, not fewer. A
business operation may ask `isClosedShared` between two operations on vouchers; what it
does with the answer is open. A voucher is its year, its status and its rows, which are
a number here.
-/

namespace PapitalErp

open Interleaving

inductive VoucherStatus where
  | draft
  | approved
  | permanent
  deriving DecidableEq

/-- A row of `journal_vouchers`; `year` is the fiscal year of its date. -/
structure Voucher where
  year : ℤ
  status : VoucherStatus
  isDeleted : Bool
  sourceFiscalYear : Option ℤ
  rows : ℕ
  deriving DecidableEq

inductive YearStatus where
  | open
  | closed
  deriving DecidableEq

/-- The committed rows, the cache, the rows of years inserted but not committed, the
locks, and what the last closing of each year counted and wrote. -/
structure FiscalTables where
  vouchers : ℕ → Option Voucher
  nextId : ℕ
  voucherLocks : Locks ℕ ℕ
  years : ℤ → Option YearStatus
  knownYears : Finset ℤ
  inserter : ℤ → Option ℕ
  yearLocks : RowLocks ℤ ℕ
  counted : ℤ → ℕ → Option Voucher
  written : ℤ → ℕ → Option Voucher

inductive FiscalKind where
  | posting
  /-- `executeFiscalYearClosing`, with the vouchers its balances were computed from -/
  | closing (year : ℤ) (counted : ℕ → Option Voucher)
  /-- `reopenFiscalYear`, after `markOpen` -/
  | reopening (year : ℤ)

/-- A running transaction and the rows it has written. -/
structure FiscalTx where
  kind : FiscalKind
  writes : ℕ → Option Voucher

inductive FiscalRequest where
  | post
  | close (year : ℤ)
  | reopen (year : ℤ)

/-- The operations of `VoucherService`. -/
inductive VoucherOp where
  | createJournalVoucher (row : Voucher)
  | updateJournalVoucher (id : ℕ) (row : Voucher)
  | applyVoucherStatus (id : ℕ) (status : VoucherStatus)
  | deleteJournalVoucher (id : ℕ)
  | reverseVoucher (id : ℕ) (row : Voucher)

/-- The row an operation will write once its year is found open: under `id`, or new. -/
structure VoucherWrite where
  id : Option ℕ
  row : Voucher

inductive FiscalProgress where
  | start
  /-- a closing whose year row exists -/
  | closingRow (year : ℤ)
  /-- `lockForClosing` passed -/
  | closingLocked (year : ℤ)
  /-- no drafts in the year -/
  | closingChecked (year : ℤ)
  /-- between two operations -/
  | idle (tx : FiscalTx)
  /-- `assertOpen` runs `ensureRow` next -/
  | ensuring (tx : FiscalTx) (write : VoucherWrite)
  /-- `assertOpen` locks and reads the year next -/
  | sharing (tx : FiscalTx) (write : VoucherWrite)
  /-- `isClosedShared` runs `ensureRow` next -/
  | asking (tx : FiscalTx) (year : ℤ)
  /-- `isClosedShared` locks and reads the year next -/
  | reading (tx : FiscalTx) (year : ℤ)
  | done

inductive FiscalTurn where
  | proceed
  | operation (op : VoucherOp)
  | isClosedShared (year : ℤ)
  | commit
  | abort

namespace FiscalTables

def initial : FiscalTables :=
  ⟨fun _ => none, 1, fun _ => none, fun _ => none, ∅, fun _ => none, .free, fun _ _ => none,
    fun _ _ => none⟩

/-- A transaction ends: its locks and its uncommitted year rows go. -/
def finish (t : FiscalTables) (i : ℕ) : FiscalTables :=
  { t with
    voucherLocks := t.voucherLocks.release i
    inserter := fun year => if t.inserter year = some i then none else t.inserter year
    yearLocks := t.yearLocks.release i }

/-- The vouchers as a transaction sees them. -/
def view (t : FiscalTables) (tx : FiscalTx) (id : ℕ) : Option Voucher :=
  (tx.writes id).or (t.vouchers id)

/-- The draft count of the closing preview. -/
def hasDraft (t : FiscalTables) (year : ℤ) : Bool :=
  (List.range t.nextId).any fun id => (t.vouchers id).any fun row =>
    row.year == year && !row.isDeleted && row.status == .draft

/-- INSERT ... ON CONFLICT DO NOTHING: it waits for another transaction's insert, and a
row that is already there, committed or the transaction's own, puts the year in the cache. -/
def ensureRow (t : FiscalTables) (i : ℕ) (year : ℤ) : Option FiscalTables :=
  if year ∈ t.knownYears then some t
  else
    match t.inserter year with
    | some j => if j = i then some { t with knownYears := insert year t.knownYears } else none
    | none =>
        if t.years year ≠ none then some { t with knownYears := insert year t.knownYears }
        else some { t with inserter := Function.update t.inserter year (some i) }

/-- SELECT status ... FOR SHARE or FOR UPDATE, by the lock that is asked for: there is
nothing to lock where no row is visible. -/
def selectYear (t : FiscalTables) (i : ℕ) (year : ℤ)
    (lock : RowLocks ℤ ℕ → Option (RowLocks ℤ ℕ)) : Option (FiscalTables × Option YearStatus) :=
  match t.years year with
  | some status => (lock t.yearLocks).map fun yearLocks => ({ t with yearLocks }, some status)
  | none => some (t, if t.inserter year = some i then some .open else none)

end FiscalTables

/-- What an operation checks of the voucher it is about and the row it writes. -/
def VoucherOp.plan (kind : FiscalKind) (existing : Option Voucher) : VoucherOp → Option VoucherWrite
  | .createJournalVoucher row =>
      match kind with
      | .closing year _ =>
          some ⟨none, { row with
            status := .approved, isDeleted := false, sourceFiscalYear := some year }⟩
      | _ => some ⟨none, { row with isDeleted := false, sourceFiscalYear := none }⟩
  | .updateJournalVoucher id row =>
      match existing with
      | some old =>
          if old.isDeleted = false ∧ old.status = .draft then
            some ⟨some id, { row with isDeleted := false, sourceFiscalYear := old.sourceFiscalYear }⟩
          else none
      | none => none
  | .applyVoucherStatus id status =>
      match existing with
      | some old =>
          if old.isDeleted = false ∧ (old.status = .permanent → status = .permanent) ∧
              (status = .draft → old.status ≠ .draft → old.sourceFiscalYear = none) then
            some ⟨some id, { old with status }⟩
          else none
      | none => none
  | .deleteJournalVoucher id =>
      match existing with
      | some old =>
          if old.isDeleted = false ∧ old.status = .draft then
            some ⟨some id, { old with isDeleted := true }⟩
          else none
      | none => none
  | .reverseVoucher _ row =>
      match existing, kind with
      | some old, .reopening _ =>
          if old.isDeleted = false ∧ old.status ≠ .draft then
            some ⟨none, { row with status := .approved, isDeleted := false,
                                   sourceFiscalYear := old.sourceFiscalYear }⟩
          else none
      | some old, _ =>
          if old.isDeleted = false ∧ old.status ≠ .draft ∧ old.sourceFiscalYear = none then
            some ⟨none, { row with status := .approved, isDeleted := false, sourceFiscalYear := none }⟩
          else none
      | none, _ => none

/-- The voucher whose row an operation locks FOR UPDATE. -/
def VoucherOp.target : VoucherOp → Option ℕ
  | .createJournalVoucher _ => none
  | .updateJournalVoucher id _ | .applyVoucherStatus id _ | .deleteJournalVoucher id
  | .reverseVoucher id _ => some id

/-- The closing only creates vouchers. -/
def FiscalKind.allows : FiscalKind → VoucherOp → Bool
  | .closing _ _, .createJournalVoucher _ => true
  | .closing _ _, _ => false
  | _, _ => true

section Statements

variable (i : ℕ) (t : FiscalTables)

/-- The end of a transaction that did not commit. -/
def rollback : FiscalTables × FiscalProgress := (t.finish i, .done)

/-- An operation locks its voucher, reads it and checks it. -/
def beginOperation (tx : FiscalTx) (op : VoucherOp) : Option (FiscalTables × FiscalProgress) :=
  if tx.kind.allows op = false then some (rollback i t)
  else
    match op.target with
    | none =>
        match op.plan tx.kind none with
        | none => some (rollback i t)
        | some write => some (t, .ensuring tx write)
    | some id =>
        match t.view tx id with
        | none => some (rollback i t)
        | some old =>
            match t.voucherLocks.take i id with
            | none => none
            | some voucherLocks =>
                match op.plan tx.kind (some old) with
                | none => some (rollback i t)
                | some write => some ({ t with voucherLocks }, .ensuring tx write)

/-- The status that decides: a reopening sees its own year open. -/
def FiscalKind.sees (kind : FiscalKind) (year : ℤ) (status : Option YearStatus) : Option YearStatus :=
  match kind with
  | .reopening own => if own = year then some .open else status
  | _ => status

/-- The row of an operation is written; a new voucher is locked by its insert. -/
def writeVoucher (tx : FiscalTx) (write : VoucherWrite) : FiscalTables × FiscalProgress :=
  match write.id with
  | some id => (t, .idle { tx with writes := Function.update tx.writes id (some write.row) })
  | none =>
      ({ t with
          nextId := t.nextId + 1
          voucherLocks := Function.update t.voucherLocks t.nextId (some i) },
        .idle { tx with writes := Function.update tx.writes t.nextId (some write.row) })

/-- The FOR SHARE read of `assertOpen`. -/
def assertOpen (tx : FiscalTx) (write : VoucherWrite) : Option (FiscalTables × FiscalProgress) :=
  (t.selectYear i write.row.year fun locks => locks.share i write.row.year).map fun (t', status) =>
    if tx.kind.sees write.row.year status = some .closed then rollback i t'
    else writeVoucher i t' tx write

/-- The committed rows with the writes of a transaction. -/
def commitVouchers (tx : FiscalTx) : FiscalTables :=
  { t with
    vouchers := t.view tx
    years := fun year => if t.inserter year = some i then some .open else t.years year }

/-- `markClosed` or `markOpen`, and COMMIT. -/
def commitTx (tx : FiscalTx) : Option FiscalTables :=
  let t' := commitVouchers i t tx
  match tx.kind with
  | .posting => some (t'.finish i)
  | .reopening year =>
      some ({ t' with years := Function.update t'.years year (some .open) }.finish i)
  | .closing year counted =>
      -- the upsert waits for another transaction's row or lock
      if (t.inserter year = none ∨ t.inserter year = some i) ∧ (t.yearLocks.own i year).isSome then
        some ({ t' with
          years := Function.update t'.years year (some .closed)
          counted := Function.update t'.counted year counted
          written := Function.update t'.written year tx.writes }.finish i)
      else none

/-- The next statement of transaction `i`. -/
def fiscalStatement (requests : ℕ → FiscalRequest) :
    Program ℕ FiscalTurn FiscalTables FiscalProgress := fun i turn t progress =>
  match turn, progress with
  | .abort, _ => some (rollback i t)
  | .proceed, .start =>
      match requests i with
      | .post => some (t, .idle ⟨.posting, fun _ => none⟩)
      | .close year => (t.ensureRow i year).map fun t' => (t', .closingRow year)
      | .reopen year =>
          -- `lockForReopen`
          (t.selectYear i year fun locks => locks.own i year).map fun (t', status) =>
            if status = some .closed then (t', .idle ⟨.reopening year, fun _ => none⟩)
            else rollback i t'
  | .proceed, .closingRow year =>
      -- `lockForClosing`
      (t.selectYear i year fun locks => locks.own i year).map fun (t', status) =>
        if status = some .closed then rollback i t' else (t', .closingLocked year)
  | .proceed, .closingLocked year =>
      if t.hasDraft year then some (rollback i t) else some (t, .closingChecked year)
  | .proceed, .closingChecked year => some (t, .idle ⟨.closing year t.vouchers, fun _ => none⟩)
  | .operation op, .idle tx => beginOperation i t tx op
  | .proceed, .ensuring tx write =>
      (t.ensureRow i write.row.year).map fun t' => (t', .sharing tx write)
  | .proceed, .sharing tx write => assertOpen i t tx write
  | .isClosedShared year, .idle tx => some (t, .asking tx year)
  | .proceed, .asking tx year => (t.ensureRow i year).map fun t' => (t', .reading tx year)
  | .proceed, .reading tx year =>
      (t.selectYear i year fun locks => locks.share i year).map fun (t', _) => (t', .idle tx)
  | .commit, .idle tx => (commitTx i t tx).map fun t' => (t', .done)
  | _, _ => none

end Statements

end PapitalErp
