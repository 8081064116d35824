import PapitalErp.Treasury.SettlementAllocation

/-!
# The vouchers of a cheque

A cheque is recorded with a voucher and most of its steps issue one more, whose
two rows depend on the old status, the new one and the cheque's direction.
Clearing also moves the current balance of a bank account.

The account mapping and the ledger accounts of the banks stay as they are
(`ChequeConfig`); a mapping may lack an account, and a step that needs it is
then refused. `refused` stands for the checks of permissions, dates, fiscal
years, numbers and parties. Texts are left out of the rows.
-/

namespace PapitalErp

open Rounding Transition

inductive DetailedType where
  | customer
  | supplier
  | personnel
  | other
  | bankAccount
  deriving DecidableEq

def PartyType.detailedType : PartyType → DetailedType
  | customer => .customer
  | supplier => .supplier
  | personnel => .personnel
  | other => .other

/-! ## Accounts and banks -/

/-- The accounts `AccountMappingService` resolves for cheques. -/
structure ChequeAccounts where
  receivable : Option ℕ
  inCollection : Option ℕ
  protest : Option ℕ
  payable : Option ℕ
  tradeReceivables : Option ℕ
  tradePayables : Option ℕ

/-- A live row of `bank_accounts`; `clearing` is `isChequeClearingAccountType`. -/
structure BankAccount where
  id : ℕ
  accountId : Option ℕ
  currency : String
  clearing : Bool
  isActive : Bool

structure ChequeConfig where
  accounts : ChequeAccounts
  banks : List BankAccount

def ChequeConfig.bank? (config : ChequeConfig) (id : ℕ) : Option BankAccount :=
  config.banks.find? fun bank => decide (bank.id = id)

/-! ## Vouchers -/

/-- An account and its detail, the place a voucher row is posted to. -/
structure PostingTarget where
  accountId : ℕ
  detailedType : DetailedType
  detailedId : Option ℕ
  deriving DecidableEq

structure ChequeVoucherRow extends PostingTarget where
  debit : ℚ
  credit : ℚ
  deriving DecidableEq

inductive ChequeVoucherType where
  | treasury
  | adjustment
  deriving DecidableEq

structure ChequeVoucher where
  voucherType : ChequeVoucherType
  sourceChequeId : ℕ
  items : List ChequeVoucherRow

/-- What a step posts: one account is debited and one credited with the cheque's amount. -/
structure ChequePosting where
  voucherType : ChequeVoucherType
  debit : PostingTarget
  credit : PostingTarget

def ChequePosting.voucher (posting : ChequePosting) (chequeId : ℕ) (amount : ℚ) :
    ChequeVoucher :=
  { voucherType := posting.voucherType
    sourceChequeId := chequeId
    items := [⟨posting.debit, amount, 0⟩, ⟨posting.credit, 0, amount⟩] }

/-! ## Cheques -/

structure ChequeRecord extends Cheque where
  partyAccountId : Option ℕ
  bankAccountId : Option ℕ
  /-- recorded with its voucher -/
  hasVoucher : Bool
  statusHistory : List ChequeStatus

structure ChequeBook where
  cheques : List ChequeRecord
  vouchers : List ChequeVoucher
  balances : ℕ → ℚ
  nextChequeId : ℕ

inductive ChequeError where
  | notFound
  | amountInvalid
  | mappingMissing
  | transitionRepeated
  | transitionNotAllowed
  | bankRequired
  | bankFixed
  | bankInvalid
  | bankCurrency
  | bankLedgerMissing
  | balanceInsufficient
  | transfereeRequired
  | refusedElsewhere

/-- `requireChequeAccounts`, for one account. -/
def requireChequeAccount (account : Option ℕ) : Except ChequeError ℕ :=
  match account with
  | none => .error .mappingMissing
  | some id => .ok id

/-- A row on one of the cheque accounts. -/
def chequeRowTarget (accountId : ℕ) : PostingTarget := ⟨accountId, .other, none⟩

/-- `chequePartyPosting`: the stored account of the party, or the older rule. -/
def chequePartyPosting (accounts : ChequeAccounts) (cheque : ChequeRecord) :
    Option PostingTarget :=
  match cheque.partyAccountId with
  | some accountId =>
      some ⟨accountId, cheque.partyType.detailedType,
        if cheque.partyType = .other then none else cheque.partyId⟩
  | none =>
      match cheque.type with
      | .received => accounts.tradeReceivables.map fun id => ⟨id, .customer, cheque.partyId⟩
      | .paid => accounts.tradePayables.map fun id => ⟨id, .supplier, cheque.partyId⟩

def requireChequeParty (accounts : ChequeAccounts) (cheque : ChequeRecord) :
    Except ChequeError PostingTarget :=
  match chequePartyPosting accounts cheque with
  | none => .error .mappingMissing
  | some posting => .ok posting

/-- A received cheque still held by us, not sent to collection. -/
def isDirectFromTreasury (status : Option ChequeStatus) : Bool :=
  status == some .received || status == some .inTreasury || status == some .inSafe

/-- The account a received cheque leaves when it clears or bounces. -/
def leavingAccount (accounts : ChequeAccounts) (status : Option ChequeStatus) : Option ℕ :=
  if isDirectFromTreasury status then accounts.receivable <|> accounts.inCollection
  else accounts.inCollection <|> accounts.receivable

/-- The posting of a new cheque. -/
def creationPosting (accounts : ChequeAccounts) (cheque : ChequeRecord) :
    Except ChequeError ChequePosting := do
  let _ ← requireChequeAccount cheque.partyAccountId
  let party ← requireChequeParty accounts cheque
  match cheque.type with
  | .received => do
      let receivable ← requireChequeAccount accounts.receivable
      return ⟨.treasury, chequeRowTarget receivable, party⟩
  | .paid => do
      let payable ← requireChequeAccount accounts.payable
      return ⟨.treasury, party, chequeRowTarget payable⟩

/-- The bank and its ledger account that a cheque clears on. -/
structure ClearingBank where
  id : ℕ
  ledger : ℕ

def ClearingBank.target (bank : ClearingBank) : PostingTarget :=
  ⟨bank.ledger, .bankAccount, some bank.id⟩

/-- The bank account a cheque clears on: a paid cheque on the account it was drawn on,
when that is a bank or cash account. -/
def clearingBank (config : ChequeConfig) (cheque : ChequeRecord) (sent : Option ℕ) :
    Except ChequeError ClearingBank := do
  let stored := cheque.bankAccountId.bind config.bank?
  let fixed := decide (cheque.type = .paid) && (stored.map BankAccount.clearing).getD false
  ensure (fixed = true → ∀ id ∈ sent, some id = cheque.bankAccountId) .bankFixed
  match if fixed then cheque.bankAccountId else sent <|> cheque.bankAccountId with
  | none => .error .bankRequired
  | some id =>
      match config.bank? id with
      | none => .error .notFound
      | some bank => do
          ensure (bank.clearing = true) .bankInvalid
          ensure (bank.currency = cheque.currency) .bankCurrency
          match bank.accountId with
          | none => .error .bankLedgerMissing
          | some ledger => return ⟨id, ledger⟩

/-- `requireChequeBankAccount`: an account that is named exists and is active, and is a
bank or cash account where the cheque is to clear on it. -/
def requireChequeBankAccount (config : ChequeConfig) (bankAccountId : Option ℕ) (clearing : Bool) :
    Except ChequeError Unit :=
  match bankAccountId with
  | none => .ok ()
  | some id =>
      ensure (∃ bank ∈ config.bank? id, bank.isActive = true ∧
        (clearing = true → bank.clearing = true)) .bankInvalid

/-- What the step of a received cheque to `next` posts. -/
def receivedPosting (accounts : ChequeAccounts) (cheque : ChequeRecord) (next : ChequeStatus)
    (bank : Option ClearingBank) (transferee : Option ℕ) :
    Except ChequeError (Option ChequePosting) :=
  match next with
  | .passed =>
      match bank with
      | none => .ok none
      | some bank => do
          let credit ← requireChequeAccount (leavingAccount accounts cheque.status)
          return some ⟨.treasury, bank.target, chequeRowTarget credit⟩
  | .inCollection => do
      let inTreasury ← requireChequeAccount accounts.receivable
      let inCollection ← requireChequeAccount accounts.inCollection
      return some ⟨.treasury, chequeRowTarget inCollection, chequeRowTarget inTreasury⟩
  | .bounced => do
      let party ← requireChequeParty accounts cheque
      let credit ← requireChequeAccount (leavingAccount accounts cheque.status)
      -- the protest row carries the party's detail
      return some ⟨.adjustment, { party with accountId := accounts.protest.getD party.accountId },
        chequeRowTarget credit⟩
  | .returned =>
      match accounts.protest, chequePartyPosting accounts cheque with
      | some protest, some party =>
          if protest ≠ party.accountId then
            .ok (some ⟨.adjustment, party, { party with accountId := protest }⟩)
          else .ok none
      | _, _ => .ok none
  | .spent => do
      let tradePayables ← requireChequeAccount accounts.tradePayables
      let inTreasury ← requireChequeAccount (accounts.receivable <|> accounts.inCollection)
      return some ⟨.treasury, ⟨tradePayables, .supplier, transferee⟩, chequeRowTarget inTreasury⟩
  | .received | .inTreasury | .inSafe => .ok none

/-- What the step of a paid cheque to `next` posts. -/
def paidPosting (accounts : ChequeAccounts) (cheque : ChequeRecord) (next : ChequeStatus)
    (bank : Option ClearingBank) : Except ChequeError (Option ChequePosting) :=
  match next with
  | .passed =>
      match bank with
      | none => .ok none
      | some bank => do
          let payable ← requireChequeAccount accounts.payable
          return some ⟨.treasury, chequeRowTarget payable, bank.target⟩
  | .bounced => do
      let payable ← requireChequeAccount accounts.payable
      let party ← requireChequeParty accounts cheque
      return some ⟨.adjustment, chequeRowTarget payable, party⟩
  | .received | .inTreasury | .inSafe | .inCollection | .returned | .spent => .ok none

/-- What the step to `next` posts, from the old status and the direction of the cheque. -/
def stepPosting (accounts : ChequeAccounts) (cheque : ChequeRecord) (next : ChequeStatus)
    (bank : Option ClearingBank) (transferee : Option ℕ) :
    Except ChequeError (Option ChequePosting) :=
  match cheque.type with
  | .received => receivedPosting accounts cheque next bank transferee
  | .paid => paidPosting accounts cheque next bank

/-- The effect of clearing on a bank's balance: in for a received cheque, out for a paid one. -/
def ChequeRecord.bankEffect (cheque : ChequeRecord) : ℚ :=
  match cheque.type with
  | .received => cheque.amount
  | .paid => -cheque.amount

/-- The current balances after the step; a balance never becomes negative. -/
def clearedBalances (balances : ℕ → ℚ) (cheque : ChequeRecord) (bank : Option ClearingBank) :
    Except ChequeError (ℕ → ℚ) :=
  match bank with
  | none => .ok balances
  | some bank => do
      let newBal := balances bank.id + cheque.bankEffect
      ensure (0 ≤ newBal) .balanceInsufficient
      return Function.update balances bank.id (money newBal)

/-! ## The operations -/

structure ChequeCreation where
  type : ChequeType
  amount : ℚ
  partyType : Option PartyType
  partyId : Option ℕ
  partyName : String
  /-- `resolveChequePartyAccountId` -/
  partyAccountId : Option ℕ
  bankAccountId : Option ℕ
  createVoucher : Bool
  refused : Bool

def ChequeCreation.row (request : ChequeCreation) (id : ℕ) : ChequeRecord :=
  { id := id
    type := request.type
    amount := money request.amount
    currency := "IRR"
    partyType := chequePartyType request.type request.partyType
    partyId := request.partyId
    partyName := request.partyName
    status := some (initialChequeStatus request.type)
    isDeleted := false
    partyAccountId := request.partyAccountId
    bankAccountId := request.bankAccountId
    hasVoucher := request.createVoucher
    statusHistory := [initialChequeStatus request.type] }

/-- The voucher of a new cheque, when one is asked for. -/
def creationVouchers (accounts : ChequeAccounts) (cheque : ChequeRecord) :
    Except ChequeError (List ChequeVoucher) :=
  if cheque.hasVoucher then do
    let posting ← creationPosting accounts cheque
    return [posting.voucher cheque.id cheque.amount]
  else .ok []

/-- `createCheque`: the row, its voucher and its first status. -/
def recordCheque (config : ChequeConfig) (s : ChequeBook) (request : ChequeCreation) :
    Except ChequeError ChequeBook := do
  ensure (DecimalInput request.amount ∧ 0 < request.amount) .amountInvalid
  requireChequeBankAccount config request.bankAccountId (request.type == .paid)
  ensure (request.refused = false) .refusedElsewhere
  let vouchers ← creationVouchers config.accounts (request.row s.nextChequeId)
  return { s with
    cheques := s.cheques ++ [request.row s.nextChequeId]
    vouchers := s.vouchers ++ vouchers
    nextChequeId := s.nextChequeId + 1 }

/-- `bankAccountId` may be left out, sent empty, or sent. -/
structure ChequeStatusChange where
  status : ChequeStatus
  bankAccountId : Option (Option ℕ)
  transfereePartyId : Option ℕ
  refused : Bool

namespace ChequeBook

def chequeRow (s : ChequeBook) (id : ℕ) : Except ChequeError ChequeRecord :=
  match s.cheques.find? fun q => decide (q.id = id) && !q.isDeleted with
  | none => .error .notFound
  | some cheque => .ok cheque

end ChequeBook

/-- `assertChequeTransition`. -/
def assertChequeTransition (current : Option ChequeStatus) (next : ChequeStatus)
    (type : ChequeType) : Except ChequeError Unit := do
  ensure (current ≠ some next) .transitionRepeated
  ensure (next ∈ chequeNextStatuses current type) .transitionNotAllowed

/-- The bank of the step, when it clears the cheque. -/
def stepBank (config : ChequeConfig) (cheque : ChequeRecord) (change : ChequeStatusChange) :
    Except ChequeError (Option ClearingBank) :=
  if change.status = .passed then do
    let bank ← clearingBank config cheque change.bankAccountId.join
    return some bank
  else .ok none

/-- The cheque's bank account after the step: the clearing one, or one it is sent to for
collection. -/
def nextBankAccountId (cheque : ChequeRecord) (change : ChequeStatusChange)
    (bank : Option ClearingBank) : Option ℕ :=
  match bank with
  | some bank => some bank.id
  | none =>
      if change.status = .inCollection then change.bankAccountId.getD cheque.bankAccountId
      else cheque.bankAccountId

/-- The row after the step. -/
def ChequeRecord.afterStep (cheque : ChequeRecord) (change : ChequeStatusChange)
    (bank : Option ClearingBank) : ChequeRecord :=
  { cheque with
    status := some change.status
    bankAccountId := nextBankAccountId cheque change bank
    statusHistory := cheque.statusHistory ++ [change.status] }

/-- `updateChequeStatus`. -/
def updateChequeStatus (config : ChequeConfig) (s : ChequeBook) (id : ℕ)
    (change : ChequeStatusChange) : Except ChequeError ChequeBook := do
  let cheque ← s.chequeRow id
  let bank ← stepBank config cheque change
  requireChequeBankAccount config
    (if change.status = .inCollection then change.bankAccountId.join else none) true
  assertChequeTransition cheque.status change.status cheque.type
  ensure (change.status = .spent → change.transfereePartyId ≠ none) .transfereeRequired
  ensure (change.refused = false) .refusedElsewhere
  let balances ← clearedBalances s.balances cheque bank
  let posting ← stepPosting config.accounts cheque change.status bank change.transfereePartyId
  return { s with
    cheques := s.cheques.map fun q => if q.id = cheque.id then q.afterStep change bank else q
    vouchers := s.vouchers ++
      posting.toList.map fun posting => posting.voucher cheque.id cheque.amount
    balances := balances }

inductive ChequeOperation where
  | record (request : ChequeCreation)
  | change (id : ℕ) (change : ChequeStatusChange)

def chequeStep (config : ChequeConfig) (s : ChequeBook) :
    ChequeOperation → Except ChequeError ChequeBook
  | .record request => recordCheque config s request
  | .change id change => updateChequeStatus config s id change

/-- A current balance as its column holds it. -/
abbrev CurrentBalance := { balance : ℚ // AtScale 4 balance }

/-- A cheque book without cheques, over banks with the given balances. -/
def ChequeBook.initial (opening : ℕ → CurrentBalance) : ChequeBook :=
  ⟨[], [], fun id => opening id, 1⟩

end PapitalErp
