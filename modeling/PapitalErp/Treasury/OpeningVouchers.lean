import PapitalErp.Lib.FilteredSums
import PapitalErp.Lib.Transition
import PapitalErp.FinancialDecimal

/-!
# Opening vouchers of treasury accounts

The vouchers with the reference module `treasury_opening`: the opening voucher of
an account, the adjustments of its initial balance, and the reversals that the
deletion of an account issues. The first two carry the account's id as their
reference id and its code as their reference number; a reversal keeps the module
but refers to the voucher it reverses.

Vouchers of other modules only take ids and numbers, so a request carries the
ones its sequences gave it; an id that is taken is refused. `refused` stands for
the checks of permissions, dates, fiscal years, currencies, ledger accounts,
treasury rows and cheques. The account the capital is posted to is configured.
-/

namespace PapitalErp.BankOpening

open Rounding Transition FilteredSums

inductive VoucherStatus where
  | draft
  | approved
  | permanent
  deriving DecidableEq

inductive VoucherType where
  | opening
  | adjustment
  deriving DecidableEq

/-- A row of a voucher; `bankDetail` is the detail id of a row with the detail type
`bank_account`. -/
structure VoucherItem where
  accountId : ℕ
  bankDetail : Option ℕ
  debit : ℚ
  credit : ℚ
  deriving DecidableEq

/-- A row of `journal_vouchers` with the reference module `treasury_opening`. -/
structure Voucher where
  id : ℕ
  voucherNumber : ℕ
  voucherType : VoucherType
  status : VoucherStatus
  referenceId : ℕ
  referenceNumber : String
  items : List VoucherItem
  isDeleted : Bool
  deriving DecidableEq

/-- The workflow instance of an account. -/
inductive Workflow where
  | none
  | inProgress
  | rejected
  | approved
  | terminated
  deriving DecidableEq

structure Bank where
  id : ℕ
  code : String
  initialBalance : MoneyColumn
  accountId : Option ℕ
  workflow : Workflow
  isDeleted : Bool
  deriving DecidableEq

structure Book where
  banks : List Bank
  vouchers : List Voucher

inductive OpeningError where
  | notFound
  | idTaken
  | balanceNegative
  | ledgerMissing
  | ledgerLocked
  | approvalPending
  | workflowState
  | voucherHasSource
  | voucherPermanent
  | voucherReversed
  | voucherDraft
  | reversalLocked
  | refusedElsewhere

/-! ## Reading the vouchers -/

/-- What a voucher puts on an account's bank detail. -/
def Voucher.net (bankId : ℕ) (voucher : Voucher) : ℚ :=
  sumWhere (fun item => decide (item.bankDetail = some bankId)) (fun item => item.debit - item.credit)
    voucher.items

/-- The lookup by reference: module, reference id and not deleted. -/
def Voucher.refersTo (bankId : ℕ) (voucher : Voucher) : Bool :=
  decide (voucher.referenceId = bankId) && !voucher.isDeleted

def hasPrefix (referenceNumber text : String) : Bool :=
  text.toList.isPrefixOf referenceNumber.toList

/-- The references that reversals and corrections carry, which `TREASURY_OPENING_SQL`
leaves out. -/
def reservedPrefix (referenceNumber : String) : Bool :=
  ["REV-V", "VOID-REPOST-V", "RE-REV-V", "CORR-V"].any (hasPrefix referenceNumber)

/-- `isReversalReference`. -/
def isReversalReference (referenceNumber : String) : Bool :=
  ["REV-V", "VOID-REPOST-V", "RE-REV-V"].any (hasPrefix referenceNumber)

/-- The reference of the reversal of a voucher. -/
def reversalReference (voucherNumber : ℕ) : String := "REV-V" ++ toString voucherNumber

/-- `findActiveReversal`: the reversal of a voucher, or its void for reposting. -/
def Voucher.reversedBy (voucher reversal : Voucher) : Bool :=
  voucher.id == reversal.referenceId && !reversal.isDeleted &&
    [reversalReference voucher.voucherNumber, "VOID-REPOST-V" ++ toString voucher.voucherNumber].contains
      reversal.referenceNumber

namespace Book

def hasReversal (book : Book) (voucher : Voucher) : Bool := book.vouchers.any voucher.reversedBy

/-- A voucher that `TREASURY_OPENING_SQL` takes for an opening voucher or an adjustment. -/
def isOpening (voucher : Voucher) : Bool :=
  !reservedPrefix voucher.referenceNumber &&
    voucher.items.any fun item => decide (item.bankDetail = some voucher.referenceId)

/-- `voucherSourceKind`: a reversal has the source of the voucher it refers to. -/
def hasSource (book : Book) : ℕ → Voucher → Bool
  | 0, voucher => isOpening voucher
  | depth + 1, voucher =>
      isOpening voucher || (isReversalReference voucher.referenceNumber &&
        book.vouchers.any fun original =>
          decide (original.id = voucher.referenceId) && book.hasSource depth original)

def liveBank (book : Book) (id : ℕ) : Except OpeningError Bank :=
  match book.banks.find? fun bank => decide (bank.id = id) && !bank.isDeleted with
  | none => .error .notFound
  | some bank => .ok bank

def liveVoucher (book : Book) (id : ℕ) : Except OpeningError Voucher :=
  match book.vouchers.find? fun voucher => decide (voucher.id = id) && !voucher.isDeleted with
  | none => .error .notFound
  | some voucher => .ok voucher

/-- An update of an account's row. -/
def putBank (book : Book) (bank : Bank) : Book :=
  { book with banks := book.banks.map fun b => if b.id = bank.id then bank else b }

def insertVoucher (book : Book) (voucher : Voucher) : Except OpeningError Book := do
  ensure (∀ v ∈ book.vouchers, v.id ≠ voucher.id) .idTaken
  return { book with vouchers := book.vouchers ++ [voucher] }

/-- An update of a voucher's status or flag. -/
def rewriteVoucher (book : Book) (id : ℕ) (update : Voucher → Voucher) : Book :=
  { book with vouchers := book.vouchers.map fun v => if v.id = id then update v else v }

end Book

def Voucher.deleted (voucher : Voucher) : Voucher := { voucher with isDeleted := true }

def Voucher.withStatus (status : VoucherStatus) (voucher : Voucher) : Voucher :=
  { voucher with status := status }

/-! ## Issuing vouchers -/

/-- The id and number a new voucher was given. -/
structure VoucherIds where
  id : ℕ
  voucherNumber : ℕ

/-- The two rows that move an amount between an account and the capital. -/
def openingItems (capital ledger bankId : ℕ) (amount : ℚ) : List VoucherItem :=
  let debit := if 0 < amount then |amount| else 0
  let credit := if 0 < amount then 0 else |amount|
  [⟨ledger, some bankId, debit, credit⟩, ⟨capital, none, credit, debit⟩]

/-- A draft that puts an amount on an account. -/
def Bank.voucher (bank : Bank) (capital ledger : ℕ) (voucherType : VoucherType) (amount : ℚ)
    (ids : VoucherIds) : Voucher :=
  { id := ids.id
    voucherNumber := ids.voucherNumber
    voucherType := voucherType
    status := .draft
    referenceId := bank.id
    referenceNumber := bank.code
    items := openingItems capital ledger bank.id amount
    isDeleted := false }

/-- `issueTreasuryOpeningVoucher`. -/
def issueTreasuryOpeningVoucher (capital : ℕ) (book : Book) (bankId : ℕ) (ids : VoucherIds) :
    Except OpeningError Book := do
  let bank ← book.liveBank bankId
  if (bank.initialBalance : ℚ) = 0 then return book
  else
    match bank.accountId with
    | none => .error .ledgerMissing
    | some ledger =>
        if book.vouchers.any (Voucher.refersTo bank.id) then return book
        else book.insertVoucher (bank.voucher capital ledger .opening bank.initialBalance ids)

structure BankRequest where
  id : ℕ
  code : String
  initialBalance : ℚ
  accountId : Option ℕ
  /-- an active workflow definition takes the account -/
  startsWorkflow : Bool
  voucher : VoucherIds
  refused : Bool

/-- `createBankAccount`: the opening voucher of an account under a workflow waits for
its approval. -/
def createBankAccount (capital : ℕ) (book : Book) (request : BankRequest) :
    Except OpeningError Book := do
  let initialBalance := stored request.initialBalance
  ensure ((initialBalance : ℚ) ≠ 0 → request.accountId ≠ none) .ledgerMissing
  ensure (request.refused = false) .refusedElsewhere
  ensure (∀ bank ∈ book.banks, bank.id ≠ request.id) .idTaken
  ensure (0 ≤ (initialBalance : ℚ)) .balanceNegative
  let waits := request.startsWorkflow && decide ((initialBalance : ℚ) ≠ 0)
  let bank : Bank :=
    { id := request.id
      code := request.code
      initialBalance := initialBalance
      accountId := request.accountId
      workflow := if waits then .inProgress else .none
      isDeleted := false }
  let created : Book := { book with banks := book.banks ++ [bank] }
  if (initialBalance : ℚ) ≠ 0 ∧ waits = false then
    issueTreasuryOpeningVoucher capital created request.id request.voucher
  else return created

/-- A step of the account's workflow instance; `approved` issues the opening voucher. -/
def moveWorkflow (capital : ℕ) (book : Book) (bankId : ℕ) (target : Workflow) (ids : VoucherIds)
    (refused : Bool) : Except OpeningError Book := do
  let bank ← book.liveBank bankId
  ensure (refused = false) .refusedElsewhere
  match target with
  | .none => .error .workflowState
  | .inProgress => do
      ensure (bank.workflow ≠ .inProgress) .workflowState
      return book.putBank { bank with workflow := .inProgress }
  | .rejected => do
      ensure (bank.workflow = .inProgress) .workflowState
      return book.putBank { bank with workflow := .rejected }
  | .terminated => do
      ensure (bank.workflow = .inProgress) .workflowState
      return book.putBank { bank with workflow := .terminated }
  | .approved => do
      ensure (bank.workflow = .inProgress ∨ bank.workflow = .rejected) .workflowState
      issueTreasuryOpeningVoucher capital (book.putBank { bank with workflow := .approved }) bankId ids

structure BankEdit where
  id : ℕ
  code : Option String
  /-- left out, or sent (empty clears the ledger account) -/
  accountId : Option (Option ℕ)
  initialBalance : Option ℚ
  voucher : VoucherIds
  refused : Bool

def Bank.edited (bank : Bank) (edit : BankEdit) : Bank :=
  { bank with code := edit.code.getD bank.code, accountId := edit.accountId.getD bank.accountId }

def Bank.withInitialBalance (initialBalance : MoneyColumn) (bank : Bank) : Bank :=
  { bank with initialBalance := initialBalance }

/-- `updateBankAccount`: a changed initial balance is adjusted, or gets the opening
voucher it has not had. -/
def updateBankAccount (capital : ℕ) (book : Book) (edit : BankEdit) : Except OpeningError Book := do
  let existing ← book.liveBank edit.id
  let newInitial := FinancialDecimal.round (edit.initialBalance.getD existing.initialBalance) 4
  let delta := FinancialDecimal.round (newInitial - existing.initialBalance) 4
  ensure (newInitial ≠ existing.initialBalance → existing.workflow ≠ .inProgress) .approvalPending
  -- the ledger account is fixed once the account has an initial balance
  ensure (existing.accountId ≠ none → (existing.edited edit).accountId ≠ existing.accountId →
    (existing.initialBalance : ℚ) = 0) .ledgerLocked
  ensure (edit.refused = false) .refusedElsewhere
  let updated := existing.edited edit
  if delta = 0 then return book.putBank updated
  else do
    ensure (0 ≤ newInitial) .balanceNegative
    let changed := book.putBank (updated.withInitialBalance (stored newInitial))
    match updated.accountId with
    | none => .error .ledgerMissing
    | some ledger =>
        if book.vouchers.any (Voucher.refersTo existing.id) then
          changed.insertVoucher (updated.voucher capital ledger .adjustment delta edit.voucher)
        else if newInitial ≠ 0 then
          issueTreasuryOpeningVoucher capital changed existing.id edit.voucher
        else return changed

/-! ## The voucher page -/

/-- `setVoucherStatus`. -/
def setVoucherStatus (book : Book) (voucherId : ℕ) (status : VoucherStatus) (refused : Bool) :
    Except OpeningError Book := do
  let existing ← book.liveVoucher voucherId
  let reopens := decide (status = .draft ∧ existing.status ≠ .draft)
  ensure (reopens = true → book.hasSource 5 existing = false) .voucherHasSource
  ensure (reopens = true → book.hasReversal existing = false) .voucherReversed
  ensure (reopens = true → isReversalReference existing.referenceNumber = false) .reversalLocked
  ensure (existing.status = .permanent → status = .permanent) .voucherPermanent
  ensure (refused = false) .refusedElsewhere
  return book.rewriteVoucher existing.id (Voucher.withStatus status)

def VoucherItem.inverted (item : VoucherItem) : VoucherItem :=
  { item with debit := item.credit, credit := item.debit }

/-- The approved voucher that reverses a voucher. -/
def Voucher.reversal (voucher : Voucher) (ids : VoucherIds) : Voucher :=
  { id := ids.id
    voucherNumber := ids.voucherNumber
    voucherType := .adjustment
    status := .approved
    referenceId := voucher.id
    referenceNumber := reversalReference voucher.voucherNumber
    items := voucher.items.map VoucherItem.inverted
    isDeleted := false }

/-- `reverseVoucher`; from the page a voucher with a source is refused. -/
def reverseVoucher (book : Book) (voucherId : ℕ) (manualEntry : Bool) (ids : VoucherIds)
    (refused : Bool) : Except OpeningError Book := do
  let original ← book.liveVoucher voucherId
  ensure (manualEntry = true → book.hasSource 5 original = false) .voucherHasSource
  ensure (original.status ≠ .draft) .voucherDraft
  ensure (hasPrefix original.referenceNumber "REV-V" = false ∧
    hasPrefix original.referenceNumber "VOID-REPOST-V" = false) .reversalLocked
  ensure (book.hasReversal original = false) .voucherReversed
  ensure (refused = false) .refusedElsewhere
  book.insertVoucher (original.reversal ids)

/-- `deleteJournalVoucher`. -/
def deleteJournalVoucher (book : Book) (voucherId : ℕ) (refused : Bool) :
    Except OpeningError Book := do
  let existing ← book.liveVoucher voucherId
  ensure (book.hasSource 5 existing = false) .voucherHasSource
  ensure (book.hasReversal existing = false) .voucherReversed
  ensure (existing.status = .draft) .voucherPermanent
  ensure (refused = false) .refusedElsewhere
  return book.rewriteVoucher existing.id Voucher.deleted

/-! ## Deleting an account -/

/-- `standingOpeningVouchers`. -/
def standingOpeningVouchers (book : Book) (bank : Bank) : List Voucher :=
  book.vouchers.filter fun voucher =>
    voucher.refersTo bank.id && decide (voucher.referenceNumber = bank.code) &&
      (voucher.items.any fun item => decide (item.bankDetail = some bank.id)) &&
      !book.hasReversal voucher

/-- `voidSourceVoucher`: a draft is deleted, an approved voucher is reversed. -/
def voidSourceVoucher (ids : ℕ → VoucherIds) (book : Book) (voucher : Voucher) :
    Except OpeningError Book := do
  let existing ← book.liveVoucher voucher.id
  if existing.status = .draft then return book.rewriteVoucher existing.id Voucher.deleted
  else reverseVoucher book existing.id false (ids existing.id) false

/-- `deleteBankAccount` with `voidBankOpeningVouchers`; `reversals` gives the ids of the
vouchers it issues. -/
def deleteBankAccount (book : Book) (id : ℕ) (reversals : ℕ → VoucherIds) (refused : Bool) :
    Except OpeningError Book := do
  let existing ← book.liveBank id
  ensure (refused = false) .refusedElsewhere
  let standing := standingOpeningVouchers book existing
  ensure (∀ voucher ∈ standing, voucher.status ≠ .permanent) .voucherPermanent
  let voided ← standing.foldlM (voidSourceVoucher reversals) book
  let workflow := if existing.workflow = .inProgress then .terminated else existing.workflow
  return voided.putBank { existing with isDeleted := true, workflow := workflow }

/-! ## The balance comparison -/

def Voucher.posted (voucher : Voucher) : Bool :=
  !voucher.isDeleted && decide (voucher.status ≠ .draft)

def Voucher.drafted (voucher : Voucher) : Bool :=
  !voucher.isDeleted && decide (voucher.status = .draft)

/-- `openingVoucherBanks`. -/
def openingVoucherBanks (book : Book) (bankId : ℕ) : Bool :=
  book.vouchers.any fun voucher => voucher.posted && decide (voucher.referenceId = bankId)

/-- `draftOpeningBanks`. -/
def draftOpeningBanks (book : Book) (bankId : ℕ) : Bool :=
  book.vouchers.any fun voucher => voucher.drafted && decide (voucher.referenceId = bankId)

/-- What `ledgerBalance` of `computeBankBalances` counts for an account's initial balance:
the balance itself, or what the posted opening vouchers put on its detail. -/
def ledgerOpening (book : Book) (bank : Bank) : ℚ :=
  (if openingVoucherBanks book bank.id then 0 else (bank.initialBalance : ℚ)) +
    sumWhere Voucher.posted (Voucher.net bank.id) book.vouchers

/-- The same for `ledgerWithDrafts`. -/
def ledgerOpeningWithDrafts (book : Book) (bank : Bank) : ℚ :=
  (if openingVoucherBanks book bank.id || draftOpeningBanks book bank.id then 0
    else (bank.initialBalance : ℚ)) +
    sumWhere Voucher.posted (Voucher.net bank.id) book.vouchers +
    sumWhere Voucher.drafted (Voucher.net bank.id) book.vouchers

/-! ## Runs -/

inductive OpeningOperation where
  | createBankAccount (request : BankRequest)
  | moveWorkflow (bankId : ℕ) (target : Workflow) (ids : VoucherIds) (refused : Bool)
  | updateBankAccount (edit : BankEdit)
  | setVoucherStatus (voucherId : ℕ) (status : VoucherStatus) (refused : Bool)
  | reverseVoucher (voucherId : ℕ) (ids : VoucherIds) (refused : Bool)
  | deleteJournalVoucher (voucherId : ℕ) (refused : Bool)
  | deleteBankAccount (id : ℕ) (reversals : ℕ → VoucherIds) (refused : Bool)

def openingStep (capital : ℕ) (book : Book) : OpeningOperation → Except OpeningError Book
  | .createBankAccount request => createBankAccount capital book request
  | .moveWorkflow bankId target ids refused => moveWorkflow capital book bankId target ids refused
  | .updateBankAccount edit => updateBankAccount capital book edit
  | .setVoucherStatus voucherId status refused => setVoucherStatus book voucherId status refused
  | .reverseVoucher voucherId ids refused => reverseVoucher book voucherId true ids refused
  | .deleteJournalVoucher voucherId refused => deleteJournalVoucher book voucherId refused
  | .deleteBankAccount id reversals refused => deleteBankAccount book id reversals refused

end PapitalErp.BankOpening
