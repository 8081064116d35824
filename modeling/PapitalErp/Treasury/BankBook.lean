import PapitalErp.Treasury.SettlementAllocation

/-!
# The book of bank and cash accounts

The operations that move the current balance of a treasury account: receipts and
payments of every kind, transfers, voids, cheque steps, edits of the account and
the synchronisation. One operation is one transaction under the row locks it
takes, so operations follow each other; a refused one changes nothing.

The amounts are stored columns with four decimals. Ids come from sequences; a
request carries the ones it was given and a used one is refused. `refused`
stands for the checks of permissions, dates, fiscal years, currencies, parties,
documents and accounts, and for a voucher that cannot be issued or voided.
-/

namespace PapitalErp.BankBook

open Rounding Transition FilteredSums

inductive TreasuryType where
  | receipt
  | payment
  deriving DecidableEq

def TreasuryType.opposite : TreasuryType → TreasuryType
  | .receipt => .payment
  | .payment => .receipt

/-- `amount` into the account for a receipt, out of it for a payment. -/
def TreasuryType.signed (type : TreasuryType) (amount : ℚ) : ℚ :=
  match type with
  | .receipt => amount
  | .payment => -amount

inductive TreasuryMethod where
  | cash
  | bankTransfer
  | pos
  | cheque
  deriving DecidableEq

/-- A row of `bank_accounts`; `clearing` is `isChequeClearingAccountType` of its type. -/
structure Bank where
  id : ℕ
  initialBalance : MoneyColumn
  currentBalance : MoneyColumn
  clearing : Bool
  isDeleted : Bool
  deriving DecidableEq

/-- A row of `treasury_transactions`. -/
structure TreasuryRow where
  id : ℕ
  type : TreasuryType
  method : TreasuryMethod
  amount : MoneyColumn
  bankAccountId : Option ℕ
  voucherId : Option ℕ
  payrollId : Option ℕ
  reversalOfId : Option ℕ
  voided : Bool
  isDeleted : Bool
  deriving DecidableEq

/-- A row of `cheques`. -/
structure Cheque where
  id : ℕ
  type : ChequeType
  status : Option ChequeStatus
  amount : MoneyColumn
  bankAccountId : Option ℕ
  isDeleted : Bool
  deriving DecidableEq

structure Book where
  banks : List Bank
  rows : List TreasuryRow
  cheques : List Cheque

inductive BookError where
  | notFound
  | idTaken
  | amountInvalid
  | methodRefused
  | sameAccount
  | balanceInsufficient
  | bankBalanceNegative
  | alreadyVoided
  | payrollRow
  | reversalRow
  | accountInUse
  | transitionRepeated
  | transitionNotAllowed
  | chequeFinal
  | bankFixed
  | bankRequired
  | bankInvalid
  | refusedElsewhere
  deriving DecidableEq

/-! ## The recomputed balance -/

/-- A row that `treasurySums` counts for an account: live and not of method `cheque`. -/
def TreasuryRow.counts (bankId : ℕ) (type : TreasuryType) (row : TreasuryRow) : Bool :=
  !row.isDeleted && decide (row.method ≠ .cheque) && decide (row.bankAccountId = some bankId) &&
    decide (row.type = type)

/-- A cheque that `chequeSums` counts for an account: live and passed. -/
def Cheque.counts (bankId : ℕ) (type : ChequeType) (cheque : Cheque) : Bool :=
  !cheque.isDeleted && decide (cheque.status = some .passed) &&
    decide (cheque.bankAccountId = some bankId) && decide (cheque.type = type)

/-- `treasuryBalance` of `computeBankBalances`. -/
def treasuryBalance (book : Book) (bank : Bank) : ℚ :=
  let receipts := sumWhere (TreasuryRow.counts bank.id .receipt) (fun row => (row.amount : ℚ)) book.rows
    + sumWhere (Cheque.counts bank.id .received) (fun cheque => (cheque.amount : ℚ)) book.cheques
  let payments := sumWhere (TreasuryRow.counts bank.id .payment) (fun row => (row.amount : ℚ)) book.rows
    + sumWhere (Cheque.counts bank.id .paid) (fun cheque => (cheque.amount : ℚ)) book.cheques
  bank.initialBalance + receipts - payments

/-! ## Reading and writing rows -/

/-- The constraint `chk_bank_balance_nonneg`. -/
def Bank.NonNegative (bank : Bank) : Prop :=
  0 ≤ (bank.initialBalance : ℚ) ∧ 0 ≤ (bank.currentBalance : ℚ)

instance (bank : Bank) : Decidable bank.NonNegative := inferInstanceAs (Decidable (_ ∧ _))

namespace Book

/-- `lockTreasuryBankRow` with `includeDeleted`. -/
def anyBank (book : Book) (id : Option ℕ) : Except BookError Bank :=
  match book.banks.find? fun bank => decide (some bank.id = id) with
  | none => .error .notFound
  | some bank => .ok bank

/-- `lockTreasuryBank`. -/
def liveBank (book : Book) (id : Option ℕ) : Except BookError Bank :=
  match book.banks.find? fun bank => decide (some bank.id = id) && !bank.isDeleted with
  | none => .error .notFound
  | some bank => .ok bank

/-- An update of an account's row, which the database checks. -/
def putBank (book : Book) (bank : Bank) : Except BookError Book := do
  ensure bank.NonNegative .bankBalanceNegative
  return { book with banks := book.banks.map fun b => if b.id = bank.id then bank else b }

/-- The insert of an account's row. -/
def insertBank (book : Book) (bank : Bank) : Except BookError Book := do
  ensure (∀ b ∈ book.banks, b.id ≠ bank.id) .idTaken
  ensure bank.NonNegative .bankBalanceNegative
  return { book with banks := book.banks ++ [bank] }

def liveRow (book : Book) (id : ℕ) : Except BookError TreasuryRow :=
  match book.rows.find? fun row => decide (row.id = id) && !row.isDeleted with
  | none => .error .notFound
  | some row => .ok row

/-- The insert of a treasury row, with the constraint `chk_tt_amount_pos`. -/
def insertRow (book : Book) (row : TreasuryRow) : Except BookError Book := do
  ensure (∀ r ∈ book.rows, r.id ≠ row.id) .idTaken
  ensure (0 < (row.amount : ℚ)) .amountInvalid
  return { book with rows := book.rows ++ [row] }

/-- The row becomes `voided`. -/
def markVoided (book : Book) (id : ℕ) : Book :=
  { book with rows := book.rows.map fun row => if row.id = id then { row with voided := true } else row }

def liveCheque (book : Book) (id : ℕ) : Except BookError Cheque :=
  match book.cheques.find? fun cheque => decide (cheque.id = id) && !cheque.isDeleted with
  | none => .error .notFound
  | some cheque => .ok cheque

end Book

/-! ## The shared path of treasury rows -/

/-- `writeBankBalance`: the amount goes in for a receipt and out for a payment. -/
def writeBankBalance (book : Book) (bank : Bank) (direction : TreasuryType) (amount : ℚ) :
    Except BookError Book := do
  let next := FinancialDecimal.round (bank.currentBalance + direction.signed amount) 4
  ensure (0 ≤ next) .balanceInsufficient
  book.putBank { bank with currentBalance := stored next }

structure TreasuryRowPosting where
  id : ℕ
  type : TreasuryType
  method : TreasuryMethod
  amount : ℚ
  voucherId : Option ℕ
  payrollId : Option ℕ
  refused : Bool

def TreasuryRowPosting.row (posting : TreasuryRowPosting) (bankId : ℕ) : TreasuryRow :=
  { id := posting.id
    type := posting.type
    method := posting.method
    amount := stored posting.amount
    bankAccountId := some bankId
    voucherId := posting.voucherId
    payrollId := posting.payrollId
    reversalOfId := none
    voided := false
    isDeleted := false }

/-- `postTreasuryRow`. -/
def postTreasuryRow (book : Book) (bank : Bank) (posting : TreasuryRowPosting) :
    Except BookError Book := do
  let amount := FinancialDecimal.round posting.amount 4
  ensure (0 < amount) .amountInvalid
  ensure (posting.refused = false) .refusedElsewhere
  let moved ← writeBankBalance book bank posting.type amount
  moved.insertRow (posting.row bank.id)

/-- `movedBankBalance`: a row of method `cheque` did not move the balance, unless it
paid a payslip. -/
def TreasuryRow.movedBankBalance (row : TreasuryRow) : Bool :=
  decide (row.method ≠ .cheque) || row.payrollId.isSome

/-- The id and the voucher of a row that reverses another. -/
structure ReversalIds where
  id : ℕ
  voucherId : Option ℕ

def TreasuryRow.reversal (original : TreasuryRow) (ids : ReversalIds) : TreasuryRow :=
  { original with
    id := ids.id
    type := original.type.opposite
    voucherId := ids.voucherId
    reversalOfId := some original.id
    voided := false
    isDeleted := false }

/-- The amount of a row goes back, if it had moved the balance. -/
def returnAmount (book : Book) (original : TreasuryRow) (bank : Bank) : Except BookError Book :=
  if original.movedBankBalance then
    writeBankBalance book bank original.type.opposite original.amount
  else .ok book

/-- `reverseTreasuryRow`. -/
def reverseTreasuryRow (book : Book) (original : TreasuryRow) (bank : Bank) (ids : ReversalIds) :
    Except BookError Book := do
  let moved ← returnAmount book original bank
  let reversed ← moved.insertRow (original.reversal ids)
  return reversed.markVoided original.id

/-! ## Receipts, payments and transfers -/

structure PaymentRequest where
  id : ℕ
  bankAccountId : ℕ
  method : TreasuryMethod
  amount : ℚ
  voucherId : Option ℕ
  refused : Bool

def PaymentRequest.posting (request : PaymentRequest) (type : TreasuryType)
    (payrollId : Option ℕ) : TreasuryRowPosting :=
  ⟨request.id, type, request.method, request.amount, request.voucherId, payrollId, request.refused⟩

/-- `createTreasuryTransaction`. -/
def createTreasuryTransaction (book : Book) (type : TreasuryType) (request : PaymentRequest) :
    Except BookError Book := do
  ensure (0 < request.amount) .amountInvalid
  ensure (request.method ≠ .cheque) .methodRefused
  let bank ← book.liveBank (some request.bankAccountId)
  postTreasuryRow book bank (request.posting type none)

/-- `registerPayrollPayment`. -/
def registerPayrollPayment (book : Book) (payrollId : ℕ) (request : PaymentRequest) :
    Except BookError Book := do
  ensure (request.method ≠ .cheque) .methodRefused
  let bank ← book.liveBank (some request.bankAccountId)
  postTreasuryRow book bank (request.posting .payment (some payrollId))

/-- `createPettyCashExpense`, paid in cash whatever the request says. -/
def createPettyCashExpense (book : Book) (request : PaymentRequest) : Except BookError Book := do
  let bank ← book.liveBank (some request.bankAccountId)
  postTreasuryRow book bank ({ request with method := .cash }.posting .payment none)

/-- `createStatutoryRemittance`; its request has no method `cheque`. -/
def createStatutoryRemittance (book : Book) (request : PaymentRequest) :
    Except BookError Book := do
  ensure (request.method ≠ .cheque) .methodRefused
  let bank ← book.liveBank (some request.bankAccountId)
  postTreasuryRow book bank (request.posting .payment none)

structure TransferRequest where
  paymentId : ℕ
  receiptId : ℕ
  amount : ℚ
  fromBankAccountId : ℕ
  toBankAccountId : ℕ
  voucherId : Option ℕ
  refused : Bool

/-- One side of a transfer. -/
def TransferRequest.side (request : TransferRequest) (id : ℕ) (type : TreasuryType)
    (bankId : ℕ) : TreasuryRow :=
  { id := id
    type := type
    method := .bankTransfer
    amount := stored request.amount
    bankAccountId := some bankId
    voucherId := request.voucherId
    payrollId := none
    reversalOfId := none
    voided := false
    isDeleted := false }

/-- `createTreasuryTransfer`; the amount was read by `decimalInput`. -/
def createTreasuryTransfer (book : Book) (request : TransferRequest) : Except BookError Book := do
  ensure (DecimalInput request.amount ∧ 0 < request.amount) .amountInvalid
  ensure (request.fromBankAccountId ≠ request.toBankAccountId) .sameAccount
  let source ← book.liveBank (some request.fromBankAccountId)
  let target ← book.liveBank (some request.toBankAccountId)
  ensure (request.refused = false) .refusedElsewhere
  let fromNewBal := FinancialDecimal.round (source.currentBalance - request.amount) 4
  ensure (0 ≤ fromNewBal) .balanceInsufficient
  let toNewBal := FinancialDecimal.round (target.currentBalance + request.amount) 4
  let paid ← book.putBank { source with currentBalance := stored fromNewBal }
  let received ← paid.putBank { target with currentBalance := stored toNewBal }
  let withPayment ← received.insertRow (request.side request.paymentId .payment source.id)
  withPayment.insertRow (request.side request.receiptId .receipt target.id)

/-! ## Voids -/

/-- A row that may be the other side of a transfer: it shares the voucher and the
method, has the other type, and is a reversal when the row is one. -/
def TreasuryRow.pairs (row partner : TreasuryRow) : Bool :=
  decide (partner.voucherId = row.voucherId) && !partner.isDeleted &&
    decide (partner.method = .bankTransfer) && decide (partner.type = row.type.opposite) &&
    (partner.reversalOfId.isNone == row.reversalOfId.isNone) && decide (partner.id ≠ row.id)

/-- `transferSideIds`: the other side, when exactly one row can be it. -/
def Book.otherSide (book : Book) (row : TreasuryRow) : Option TreasuryRow :=
  if row.voucherId = none ∨ row.method ≠ .bankTransfer then none
  else
    match book.rows.filter row.pairs with
    | [partner] => some partner
    | _ => none

structure VoidRequest where
  transactionId : ℕ
  /-- the sides of a transfer share the voucher that reverses theirs -/
  reversalVoucherId : Option ℕ
  reversalId : ℕ
  partnerReversalId : ℕ
  refused : Bool

/-- `voidTreasuryTransaction`: both sides of a transfer, as far as the other one is
not voided already. -/
def voidTreasuryTransaction (book : Book) (request : VoidRequest) : Except BookError Book := do
  let original ← book.liveRow request.transactionId
  let side := book.otherSide original
  ensure (original.voided = false) .alreadyVoided
  ensure (∀ row ∈ original :: side.toList, row.payrollId = none) .payrollRow
  ensure (original.reversalOfId = none) .reversalRow
  ensure (request.refused = false) .refusedElsewhere
  let bank ← book.liveBank original.bankAccountId
  let reversed ← reverseTreasuryRow book original bank ⟨request.reversalId, request.reversalVoucherId⟩
  match side.filter fun partner => !partner.voided with
  | none => return reversed
  | some partner => do
      let bank ← reversed.liveBank partner.bankAccountId
      reverseTreasuryRow reversed partner bank ⟨request.partnerReversalId, request.reversalVoucherId⟩

structure PayrollVoidRequest where
  transactionId : ℕ
  payrollId : ℕ
  reversalVoucherId : Option ℕ
  reversalId : ℕ
  refused : Bool

/-- `voidPayrollPayment`; the account may be a deleted one. -/
def voidPayrollPayment (book : Book) (request : PayrollVoidRequest) : Except BookError Book := do
  let payment ← book.liveRow request.transactionId
  ensure (payment.payrollId = some request.payrollId ∧ payment.type = .payment ∧
    payment.reversalOfId = none) .notFound
  let bank ← book.anyBank payment.bankAccountId
  ensure (payment.voided = false) .alreadyVoided
  ensure (request.refused = false) .refusedElsewhere
  reverseTreasuryRow book payment bank ⟨request.reversalId, request.reversalVoucherId⟩

/-! ## Cheques -/

/-- `requireChequeBankAccount`; the active flag is one of the refused checks. -/
def requireChequeBankAccount (book : Book) (bankAccountId : Option ℕ) (clearing : Bool) :
    Except BookError Unit :=
  match bankAccountId with
  | none => .ok ()
  | some id => do
      let bank ← book.liveBank (some id)
      ensure (clearing = true → bank.clearing = true) .bankInvalid

structure ChequeRequest where
  id : ℕ
  type : ChequeType
  amount : ℚ
  bankAccountId : Option ℕ
  refused : Bool

/-- `createCheque`: the new cheque is not cleared. -/
def createCheque (book : Book) (request : ChequeRequest) : Except BookError Book := do
  ensure (0 < request.amount) .amountInvalid
  ensure (request.refused = false) .refusedElsewhere
  requireChequeBankAccount book request.bankAccountId (request.type == .paid)
  ensure (∀ cheque ∈ book.cheques, cheque.id ≠ request.id) .idTaken
  let cheque : Cheque :=
    { id := request.id
      type := request.type
      status := some (initialChequeStatus request.type)
      amount := stored request.amount
      bankAccountId := request.bankAccountId
      isDeleted := false }
  return { book with cheques := book.cheques ++ [cheque] }

/-- `bankAccountId` may be left out, sent empty, or sent. -/
structure ChequeStatusRequest where
  chequeId : ℕ
  status : ChequeStatus
  bankAccountId : Option (Option ℕ)
  refused : Bool

/-- The account a cheque clears on: a paid cheque on the account it was drawn on, when
that is a bank or cash account. -/
def clearingBankId (book : Book) (cheque : Cheque) (sent : Option ℕ) :
    Except BookError (Option ℕ) := do
  let drawnOn := book.banks.find? fun bank => decide (some bank.id = cheque.bankAccountId)
  if cheque.type = .paid ∧ (drawnOn.map Bank.clearing).getD false = true then do
    ensure (∀ id ∈ sent, some id = cheque.bankAccountId) .bankFixed
    return cheque.bankAccountId
  else
    return sent <|> cheque.bankAccountId

/-- `assertChequeTransition`. -/
def assertChequeTransition (cheque : Cheque) (next : ChequeStatus) : Except BookError Unit := do
  ensure (cheque.status ≠ some next) .transitionRepeated
  ensure (next ∈ chequeNextStatuses cheque.status cheque.type) .transitionNotAllowed

/-- What a passed cheque brings its account. -/
def Cheque.clearedAmount (cheque : Cheque) : ℚ :=
  match cheque.type with
  | .received => cheque.amount
  | .paid => -cheque.amount

/-- The cheque after a step. -/
def Cheque.moveTo (status : ChequeStatus) (bankAccountId : Option ℕ) (cheque : Cheque) : Cheque :=
  { cheque with status := some status, bankAccountId := bankAccountId }

def Cheque.deleted (cheque : Cheque) : Cheque := { cheque with isDeleted := true }

/-- An update of the cheque with this id. -/
def Book.rewriteCheque (book : Book) (id : ℕ) (update : Cheque → Cheque) : Book :=
  { book with
    cheques := book.cheques.map fun cheque => if cheque.id = id then update cheque else cheque }

/-- `updateChequeStatus` to `passed`. -/
def clearCheque (book : Book) (cheque : Cheque) (request : ChequeStatusRequest) :
    Except BookError Book := do
  match ← clearingBankId book cheque request.bankAccountId.join with
  | none => .error .bankRequired
  | some id => do
      let bank ← book.liveBank (some id)
      ensure (bank.clearing = true) .bankInvalid
      assertChequeTransition cheque .passed
      ensure (request.refused = false) .refusedElsewhere
      let newBal := bank.currentBalance + cheque.clearedAmount
      ensure (0 ≤ newBal) .balanceInsufficient
      let moved ← book.putBank { bank with currentBalance := stored newBal }
      return moved.rewriteCheque cheque.id (Cheque.moveTo .passed (some bank.id))

/-- `updateChequeStatus`. Apart from clearing, only the step to collection changes the
cheque's account. -/
def updateChequeStatus (book : Book) (request : ChequeStatusRequest) : Except BookError Book := do
  let cheque ← book.liveCheque request.chequeId
  if request.status = .passed then clearCheque book cheque request
  else do
    let collecting := decide (request.status = .inCollection)
    requireChequeBankAccount book (if collecting then request.bankAccountId.join else none) true
    assertChequeTransition cheque request.status
    ensure (request.refused = false) .refusedElsewhere
    let place :=
      if collecting then request.bankAccountId.getD cheque.bankAccountId else cheque.bankAccountId
    return book.rewriteCheque cheque.id (Cheque.moveTo request.status place)

/-- `deleteCheque`. -/
def deleteCheque (book : Book) (id : ℕ) (refused : Bool) : Except BookError Book := do
  let cheque ← book.liveCheque id
  ensure (cheque.status ≠ some .passed ∧ cheque.status ≠ some .spent) .chequeFinal
  ensure (refused = false) .refusedElsewhere
  return book.rewriteCheque cheque.id Cheque.deleted

/-! ## Accounts -/

structure BankRequest where
  id : ℕ
  initialBalance : ℚ
  clearing : Bool
  refused : Bool

/-- `createBankAccount`. -/
def createBankAccount (book : Book) (request : BankRequest) : Except BookError Book := do
  ensure (request.refused = false) .refusedElsewhere
  book.insertBank ⟨request.id, stored request.initialBalance, stored request.initialBalance,
    request.clearing, false⟩

structure BankEdit where
  id : ℕ
  initialBalance : Option ℚ
  clearing : Bool
  refused : Bool

/-- `updateBankAccount`: a new initial balance moves the current one by the difference.
No check of its own keeps the result from being negative. -/
def updateBankAccount (book : Book) (edit : BankEdit) : Except BookError Book := do
  let existing ← book.liveBank (some edit.id)
  ensure (edit.refused = false) .refusedElsewhere
  let updated := { existing with clearing := edit.clearing }
  let changed ← book.putBank updated
  match edit.initialBalance with
  | none => return changed
  | some initialBalance => do
      let newInitial := FinancialDecimal.round initialBalance 4
      let delta := FinancialDecimal.round (newInitial - existing.initialBalance) 4
      if delta = 0 then return changed
      else
        let newCur := FinancialDecimal.round (updated.currentBalance + delta) 4
        changed.putBank
          { updated with currentBalance := stored newCur, initialBalance := stored newInitial }

/-- `deleteBankAccount`: an account with a treasury row or a live cheque stays. -/
def deleteBankAccount (book : Book) (id : ℕ) (refused : Bool) : Except BookError Book := do
  let existing ← book.liveBank (some id)
  ensure (∀ row ∈ book.rows, row.bankAccountId ≠ some id) .accountInUse
  ensure (∀ cheque ∈ book.cheques, cheque.isDeleted = false → cheque.bankAccountId ≠ some id)
    .accountInUse
  ensure (refused = false) .refusedElsewhere
  book.putBank { existing with isDeleted := true }

/-- One account of the synchronisation, whose recomputed balance was read before. -/
def syncBank (computed : Bank → ℚ) (book : Book) (bank : Bank) : Except BookError Book :=
  if bank.isDeleted = true ∨ (bank.currentBalance : ℚ) = computed bank then .ok book
  else book.putBank { bank with currentBalance := stored (computed bank) }

/-- `recalculateAndSyncBankBalances`. -/
def recalculateAndSyncBankBalances (book : Book) : Except BookError Book :=
  book.banks.foldlM (syncBank (treasuryBalance book)) book

/-! ## Runs -/

inductive BankOperation where
  | createBankAccount (request : BankRequest)
  | updateBankAccount (edit : BankEdit)
  | deleteBankAccount (id : ℕ) (refused : Bool)
  | createTreasuryTransaction (type : TreasuryType) (request : PaymentRequest)
  | createTreasuryTransfer (request : TransferRequest)
  | voidTreasuryTransaction (request : VoidRequest)
  | registerPayrollPayment (payrollId : ℕ) (request : PaymentRequest)
  | voidPayrollPayment (request : PayrollVoidRequest)
  | createPettyCashExpense (request : PaymentRequest)
  | createStatutoryRemittance (request : PaymentRequest)
  | createCheque (request : ChequeRequest)
  | updateChequeStatus (request : ChequeStatusRequest)
  | deleteCheque (id : ℕ) (refused : Bool)
  | recalculateAndSyncBankBalances

def bankStep (book : Book) : BankOperation → Except BookError Book
  | .createBankAccount request => createBankAccount book request
  | .updateBankAccount edit => updateBankAccount book edit
  | .deleteBankAccount id refused => deleteBankAccount book id refused
  | .createTreasuryTransaction type request => createTreasuryTransaction book type request
  | .createTreasuryTransfer request => createTreasuryTransfer book request
  | .voidTreasuryTransaction request => voidTreasuryTransaction book request
  | .registerPayrollPayment payrollId request => registerPayrollPayment book payrollId request
  | .voidPayrollPayment request => voidPayrollPayment book request
  | .createPettyCashExpense request => createPettyCashExpense book request
  | .createStatutoryRemittance request => createStatutoryRemittance book request
  | .createCheque request => createCheque book request
  | .updateChequeStatus request => updateChequeStatus book request
  | .deleteCheque id refused => deleteCheque book id refused
  | .recalculateAndSyncBankBalances => recalculateAndSyncBankBalances book

end PapitalErp.BankBook
