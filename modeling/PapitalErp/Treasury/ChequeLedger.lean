import PapitalErp.Lib.FilteredSums
import PapitalErp.Treasury.ChequeLifecycle

/-!
# Where the amount of a cheque stands

Over every run of cheques and their steps: the vouchers of a cheque that was
recorded with its voucher leave its amount in one account, told by its direction
and status (`holder`), against the account of its party, and nothing anywhere
else. Where the accounts are different ones, that is the amount on the holder and
zero on each other cheque account; when a cheque comes back, the holder is the
party's own account and the two sides cancel there.

Nothing is assumed of the mapping: an account it lacks refuses the step that
needs it, and accounts that coincide add up.
-/

namespace PapitalErp

open Rounding Transition FilteredSums

/-! ## Balances of the vouchers -/

/-- What the rows of a voucher leave in an account. -/
def ChequeVoucher.on (v : ChequeVoucher) (account : ℕ) : ℚ :=
  sumWhere (fun row : ChequeVoucherRow => decide (row.accountId = account))
    (fun row => row.debit - row.credit) v.items

def ChequeVoucher.Balanced (v : ChequeVoucher) : Prop :=
  (v.items.map ChequeVoucherRow.debit).sum = (v.items.map ChequeVoucherRow.credit).sum

/-- What all vouchers of a cheque leave in an account. -/
def ChequeBook.net (s : ChequeBook) (chequeId account : ℕ) : ℚ :=
  sumWhere (fun v : ChequeVoucher => decide (v.sourceChequeId = chequeId))
    (fun v => v.on account) s.vouchers

/-- The amount, when the account is this one. -/
def onAccount (amount : ℚ) (held : Option ℕ) (account : ℕ) : ℚ :=
  if held = some account then amount else 0

theorem onAccount_neg (amount : ℚ) (held : Option ℕ) (account : ℕ) :
    onAccount (-amount) held account = -onAccount amount held account := by
  unfold onAccount
  split <;> simp

theorem ChequePosting.voucher_on (posting : ChequePosting) (chequeId : ℕ) (amount : ℚ)
    (account : ℕ) :
    (posting.voucher chequeId amount).on account =
      onAccount amount (some posting.debit.accountId) account -
        onAccount amount (some posting.credit.accountId) account := by
  simp only [voucher, ChequeVoucher.on, sumWhere_cons, sumWhere_nil, onAccount,
    Option.some.injEq, decide_eq_true_eq, sub_zero, zero_sub, add_zero]
  split <;> split <;> ring

theorem ChequePosting.voucher_balanced (posting : ChequePosting) (chequeId : ℕ) (amount : ℚ) :
    (posting.voucher chequeId amount).Balanced := by
  simp [voucher, ChequeVoucher.Balanced]

/-! ## The account a cheque stands in -/

/-- The ledger account of the bank a cheque is on. -/
def ChequeConfig.ledger (config : ChequeConfig) (bankAccountId : Option ℕ) : Option ℕ :=
  (bankAccountId.bind config.bank?).bind BankAccount.accountId

/-- The account that holds the amount of a received cheque in each status. -/
def receivedHolder (config : ChequeConfig) (cheque : ChequeRecord) : ChequeStatus → Option ℕ
  | .received | .inTreasury | .inSafe => config.accounts.receivable
  | .inCollection => config.accounts.inCollection
  | .passed => config.ledger cheque.bankAccountId
  | .bounced => config.accounts.protest <|> cheque.partyAccountId
  | .returned => cheque.partyAccountId
  | .spent => config.accounts.tradePayables

/-- The account that holds the amount of a paid cheque in each status. -/
def paidHolder (config : ChequeConfig) (cheque : ChequeRecord) : ChequeStatus → Option ℕ
  | .passed => config.ledger cheque.bankAccountId
  | .bounced | .returned => cheque.partyAccountId
  | .received | .inTreasury | .inSafe | .inCollection | .spent => config.accounts.payable

/-- The account the amount of the cheque stands in. -/
def ChequeRecord.holder (config : ChequeConfig) (cheque : ChequeRecord) : Option ℕ :=
  match cheque.type with
  | .received => cheque.status.bind (receivedHolder config cheque)
  | .paid => cheque.status.bind (paidHolder config cheque)

/-- What the vouchers of the cheque leave in each account: the amount in its holder,
against its party; a paid cheque's on the credit side. -/
def ChequeRecord.standing (config : ChequeConfig) (cheque : ChequeRecord) (account : ℕ) : ℚ :=
  onAccount cheque.bankEffect (cheque.holder config) account -
    onAccount cheque.bankEffect cheque.partyAccountId account

/-- The amount of the cheque stands in a known account, against a known party's. -/
structure Placed (config : ChequeConfig) (cheque : ChequeRecord) (held party : ℕ) : Prop where
  holder : cheque.holder config = some held
  party : cheque.partyAccountId = some party

theorem Placed.standing_eq {config : ChequeConfig} {cheque : ChequeRecord} {held party : ℕ}
    (placed : Placed config cheque held party) (account : ℕ) :
    cheque.standing config account =
      onAccount cheque.bankEffect (some held) account -
        onAccount cheque.bankEffect (some party) account := by
  rw [ChequeRecord.standing, placed.holder, placed.party]

@[simp] theorem requireChequeAccount_eq_ok {account : Option ℕ} {id : ℕ} :
    requireChequeAccount account = .ok id ↔ account = some id := by
  cases account <;> simp [requireChequeAccount]

@[simp] theorem requireChequeParty_eq_ok {accounts : ChequeAccounts} {cheque : ChequeRecord}
    {target : PostingTarget} :
    requireChequeParty accounts cheque = .ok target ↔
      chequePartyPosting accounts cheque = some target := by
  unfold requireChequeParty
  split <;> simp_all

/-- What the voucher of a step, if there is one, leaves in an account. -/
def postingOn (posting : Option ChequePosting) (amount : ℚ) (account : ℕ) : ℚ :=
  match posting with
  | none => 0
  | some posting =>
      onAccount amount (some posting.debit.accountId) account -
        onAccount amount (some posting.credit.accountId) account

/-! ## One step moves the amount from the old holder to the new one -/

section step

variable {config : ChequeConfig} {cheque : ChequeRecord} {status : ChequeStatus}
  {change : ChequeStatusChange} {bank : Option ClearingBank} {posting : Option ChequePosting}
  {held party : ℕ}

/-- A cheque that clears or bounces leaves the account that holds it. -/
theorem leavingAccount_eq (legal : change.status ∈ chequeTransitions status)
    (leaves : change.status = .passed ∨ change.status = .bounced)
    (holds : receivedHolder config cheque status = some held) :
    leavingAccount config.accounts (some status) = some held := by
  cases status with
  | received | inTreasury | inSafe =>
      have receivable : config.accounts.receivable = some held := holds
      simp [leavingAccount, isDirectFromTreasury, receivable]
  | inCollection =>
      have inCollection : config.accounts.inCollection = some held := holds
      simp [leavingAccount, isDirectFromTreasury, inCollection]
  | passed | returned | spent => exact absurd legal List.not_mem_nil
  | bounced =>
      have returned : change.status = .returned := by simpa [chequeTransitions] using legal
      rcases leaves with h | h <;> rw [returned] at h <;> cases h

/-- A cheque not yet sent to collection is in the receivable account. -/
theorem receivable_of_legal (legal : change.status ∈ chequeTransitions status)
    (direct : change.status = .inTreasury ∨ change.status = .inCollection ∨
      change.status = .spent)
    (holds : receivedHolder config cheque status = some held) :
    config.accounts.receivable = some held := by
  cases status with
  | received | inTreasury | inSafe => exact holds
  | passed | returned | spent => exact absurd legal List.not_mem_nil
  | inCollection =>
      rcases direct with h | h | h <;> rw [h] at legal <;> simp [chequeTransitions] at legal
  | bounced =>
      rcases direct with h | h | h <;> rw [h] at legal <;> simp [chequeTransitions] at legal

/-- The step of a received cheque moves its amount on the debit side. -/
theorem receivedPosting_moves (legal : change.status ∈ chequeTransitions status)
    (stands : cheque.status = some status)
    (holds : receivedHolder config cheque status = some held)
    (hparty : cheque.partyAccountId = some party)
    (cleared : change.status = .passed → ∃ b, bank = some b ∧
      config.ledger (some b.id) = some b.ledger)
    (h : receivedPosting config.accounts cheque change.status bank change.transfereePartyId =
      .ok posting) (amount : ℚ) :
    ∃ held', receivedHolder config (cheque.afterStep change bank) change.status = some held' ∧
      ∀ account, postingOn posting amount account =
        onAccount amount (some held') account - onAccount amount (some held) account := by
  obtain ⟨target, hposting, onParty⟩ :
      ∃ target, chequePartyPosting config.accounts cheque = some target ∧
        target.accountId = party := ⟨_, by rw [chequePartyPosting, hparty], rfl⟩
  cases hnext : change.status with
  | received | inSafe =>
      rw [hnext] at legal
      cases status <;> simp [chequeTransitions] at legal
  | inTreasury =>
      have receivable := receivable_of_legal legal (.inl hnext) holds
      rw [hnext] at h
      cases h
      exact ⟨held, receivable, fun account => by simp [postingOn]⟩
  | inCollection =>
      have receivable := receivable_of_legal legal (.inr (.inl hnext)) holds
      rw [hnext] at h
      simp only [receivedPosting, bind_eq_ok, pure_eq_ok, requireChequeAccount_eq_ok,
        receivable, Option.some.injEq] at h
      obtain ⟨_, rfl, inCollection, mapped, rfl⟩ := h
      exact ⟨inCollection, mapped, fun account => rfl⟩
  | spent =>
      have receivable := receivable_of_legal legal (.inr (.inr hnext)) holds
      rw [hnext] at h
      simp only [receivedPosting, bind_eq_ok, pure_eq_ok, requireChequeAccount_eq_ok,
        receivable] at h
      obtain ⟨tradePayables, mapped, _, inTreasury, rfl⟩ := h
      cases inTreasury
      exact ⟨tradePayables, mapped, fun account => rfl⟩
  | passed =>
      obtain ⟨b, rfl, ledger⟩ := cleared hnext
      have leaving := leavingAccount_eq legal (.inl hnext) holds
      rw [hnext] at h
      simp only [receivedPosting, bind_eq_ok, pure_eq_ok, requireChequeAccount_eq_ok, stands,
        leaving, Option.some.injEq] at h
      obtain ⟨_, rfl, rfl⟩ := h
      exact ⟨b.ledger, ledger, fun account => rfl⟩
  | bounced =>
      have leaving := leavingAccount_eq legal (.inr hnext) holds
      rw [hnext] at h
      simp only [receivedPosting, bind_eq_ok, pure_eq_ok, requireChequeAccount_eq_ok,
        requireChequeParty_eq_ok, hposting, stands, leaving, Option.some.injEq] at h
      obtain ⟨_, rfl, _, rfl, rfl⟩ := h
      refine ⟨config.accounts.protest.getD target.accountId, ?_, fun account => rfl⟩
      show (config.accounts.protest <|> cheque.partyAccountId) = _
      rw [hparty, onParty]
      cases config.accounts.protest <;> rfl
  | returned =>
      have bounced : status = .bounced := by
        rw [hnext] at legal
        cases status <;> simp [chequeTransitions] at legal
        rfl
      subst bounced
      have holds : (config.accounts.protest <|> cheque.partyAccountId) = some held := holds
      rw [hparty] at holds
      rw [hnext] at h
      simp only [receivedPosting, hposting] at h
      refine ⟨party, hparty, fun account => ?_⟩
      cases hprotest : config.accounts.protest with
      | none =>
          rw [hprotest] at h holds
          cases h
          cases holds
          simp [postingOn]
      | some protest =>
          rw [hprotest] at h holds
          cases holds
          dsimp only at h
          by_cases apart : held ≠ target.accountId
          · rw [if_pos apart] at h
            cases h
            simp [postingOn, onParty]
          · rw [if_neg apart] at h
            cases h
            have same : held = party := (not_not.mp apart).trans onParty
            simp [postingOn, same]

/-- The step of a paid cheque moves its amount on the credit side. -/
theorem paidPosting_moves (legal : change.status ∈ chequeNextStatuses (some status) .paid)
    (holds : paidHolder config cheque status = some held)
    (hparty : cheque.partyAccountId = some party)
    (cleared : change.status = .passed → ∃ b, bank = some b ∧
      config.ledger (some b.id) = some b.ledger)
    (h : paidPosting config.accounts cheque change.status bank = .ok posting) (amount : ℚ) :
    ∃ held', paidHolder config (cheque.afterStep change bank) change.status = some held' ∧
      ∀ account, postingOn posting amount account =
        onAccount amount (some held) account - onAccount amount (some held') account := by
  obtain ⟨target, hposting, onParty⟩ :
      ∃ target, chequePartyPosting config.accounts cheque = some target ∧
        target.accountId = party := ⟨_, by rw [chequePartyPosting, hparty], rfl⟩
  obtain ⟨legal, own⟩ := mem_chequeNextStatuses.mp legal
  have ownStep := own rfl
  cases hnext : change.status with
  | received | inSafe =>
      rw [hnext] at legal
      cases status <;> simp [chequeTransitions] at legal
  | inCollection | spent =>
      rw [hnext] at ownStep
      exact absurd (by decide) ownStep
  | inTreasury =>
      have payable : config.accounts.payable = some held := by
        rw [hnext] at legal
        cases status <;> simp [chequeTransitions] at legal
        exact holds
      rw [hnext] at h
      cases h
      exact ⟨held, payable, fun account => by simp [postingOn]⟩
  | passed =>
      obtain ⟨b, rfl, ledger⟩ := cleared hnext
      have payable : config.accounts.payable = some held := by
        rw [hnext] at legal
        cases status <;> simp [chequeTransitions] at legal <;> exact holds
      rw [hnext] at h
      simp only [paidPosting, bind_eq_ok, pure_eq_ok, requireChequeAccount_eq_ok, payable,
        Option.some.injEq] at h
      obtain ⟨_, rfl, rfl⟩ := h
      exact ⟨b.ledger, ledger, fun account => rfl⟩
  | bounced =>
      have payable : config.accounts.payable = some held := by
        rw [hnext] at legal
        cases status <;> simp [chequeTransitions] at legal <;> exact holds
      rw [hnext] at h
      simp only [paidPosting, bind_eq_ok, pure_eq_ok, requireChequeAccount_eq_ok,
        requireChequeParty_eq_ok, payable, hposting, Option.some.injEq] at h
      obtain ⟨_, rfl, _, rfl, rfl⟩ := h
      refine ⟨party, hparty, fun account => ?_⟩
      rw [postingOn, onParty]
      rfl
  | returned =>
      have onTheParty : cheque.partyAccountId = some held := by
        rw [hnext] at legal
        cases status <;> simp [chequeTransitions] at legal
        exact holds
      rw [hnext] at h
      cases h
      exact ⟨held, onTheParty, fun account => by simp [postingOn]⟩

/-- An accepted step moves what the vouchers of the cheque leave, from its old standing to
its new one. -/
theorem stepPosting_moves (placed : Placed config cheque held party)
    (stands : cheque.status = some status)
    (legal : change.status ∈ chequeNextStatuses (some status) cheque.type)
    (cleared : change.status = .passed → ∃ b, bank = some b ∧
      config.ledger (some b.id) = some b.ledger)
    (h : stepPosting config.accounts cheque change.status bank change.transfereePartyId =
      .ok posting) :
    ∃ held', Placed config (cheque.afterStep change bank) held' party ∧
      ∀ account, postingOn posting cheque.amount account =
        (cheque.afterStep change bank).standing config account -
          cheque.standing config account := by
  have holds := placed.holder
  cases type : cheque.type with
  | received =>
      rw [stepPosting, type] at h
      rw [ChequeRecord.holder, type, stands] at holds
      have legal := (mem_chequeNextStatuses.mp legal).1
      obtain ⟨held', holder', moves⟩ := receivedPosting_moves legal stands holds placed.party
        cleared h cheque.amount
      have placed' : Placed config (cheque.afterStep change bank) held' party := by
        refine ⟨?_, placed.party⟩
        show (match cheque.type with | .received => _ | .paid => _) = some held'
        rw [type]
        exact holder'
      refine ⟨held', placed', fun account => ?_⟩
      have effect : cheque.bankEffect = cheque.amount := by rw [ChequeRecord.bankEffect, type]
      have effect' : (cheque.afterStep change bank).bankEffect = cheque.amount := effect
      rw [moves, placed'.standing_eq, placed.standing_eq, effect, effect']
      ring
  | paid =>
      rw [stepPosting, type] at h
      rw [ChequeRecord.holder, type, stands] at holds
      rw [type] at legal
      obtain ⟨held', holder', moves⟩ := paidPosting_moves legal holds placed.party cleared h
        cheque.amount
      have placed' : Placed config (cheque.afterStep change bank) held' party := by
        refine ⟨?_, placed.party⟩
        show (match cheque.type with | .received => _ | .paid => _) = some held'
        rw [type]
        exact holder'
      refine ⟨held', placed', fun account => ?_⟩
      have effect : cheque.bankEffect = -cheque.amount := by rw [ChequeRecord.bankEffect, type]
      have effect' : (cheque.afterStep change bank).bankEffect = -cheque.amount := effect
      rw [moves, placed'.standing_eq, placed.standing_eq, effect, effect', onAccount_neg,
        onAccount_neg, onAccount_neg]
      ring

end step

/-- The voucher a cheque is recorded with puts its amount in its first holder. -/
theorem creationVouchers_standing {config : ChequeConfig} {request : ChequeCreation} {id : ℕ}
    {vouchers : List ChequeVoucher} (recorded : request.createVoucher = true)
    (h : creationVouchers config.accounts (request.row id) = .ok vouchers) :
    ∃ posting held party, vouchers = [posting.voucher id (request.row id).amount] ∧
      Placed config (request.row id) held party ∧
      ∀ account, postingOn (some posting) (request.row id).amount account =
        (request.row id).standing config account := by
  have hasVoucher : (request.row id).hasVoucher = true := recorded
  simp only [creationVouchers, hasVoucher, if_true, bind_eq_ok, pure_eq_ok, creationPosting,
    requireChequeAccount_eq_ok, requireChequeParty_eq_ok] at h
  obtain ⟨posting, ⟨party, hparty, target, hposting, hside⟩, rfl⟩ := h
  have onParty : target.accountId = party := by
    rw [chequePartyPosting, hparty] at hposting
    cases hposting
    rfl
  cases type : (request.row id).type with
  | received =>
      rw [type] at hside
      simp only [bind_eq_ok, pure_eq_ok, requireChequeAccount_eq_ok] at hside
      obtain ⟨receivable, mapped, rfl⟩ := hside
      have stands : (request.row id).status = some .received := by
        have : request.type = .received := type
        simp [ChequeCreation.row, initialChequeStatus, this]
      have placed : Placed config (request.row id) receivable party := by
        refine ⟨?_, hparty⟩
        rw [ChequeRecord.holder, type, stands]
        exact mapped
      refine ⟨_, receivable, party, rfl, placed, fun account => ?_⟩
      rw [placed.standing_eq, ChequeRecord.bankEffect, type, postingOn, onParty]
      rfl
  | paid =>
      rw [type] at hside
      simp only [bind_eq_ok, pure_eq_ok, requireChequeAccount_eq_ok] at hside
      obtain ⟨payable, mapped, rfl⟩ := hside
      have stands : (request.row id).status = some .inTreasury := by
        have : request.type = .paid := type
        simp [ChequeCreation.row, initialChequeStatus, this]
      have placed : Placed config (request.row id) payable party := by
        refine ⟨?_, hparty⟩
        rw [ChequeRecord.holder, type, stands]
        exact mapped
      refine ⟨_, payable, party, rfl, placed, fun account => ?_⟩
      rw [placed.standing_eq, ChequeRecord.bankEffect, type, postingOn, onParty, onAccount_neg,
        onAccount_neg]
      show onAccount _ (some party) account - onAccount _ (some payable) account = _
      ring

/-! ## What an accepted operation did to the book -/

theorem clearingBank_ledger {config : ChequeConfig} {cheque : ChequeRecord} {sent : Option ℕ}
    {bank : ClearingBank} (h : clearingBank config cheque sent = .ok bank) :
    config.ledger (some bank.id) = some bank.ledger := by
  simp only [clearingBank, bind_eq_ok] at h
  obtain ⟨⟨⟩, -, h⟩ := h
  split at h
  · cases h
  · split at h
    · cases h
    · rename_i found
      simp only [bind_eq_ok, ensure_eq_ok] at h
      obtain ⟨-, -, -, -, h⟩ := h
      split at h
      · cases h
      · rename_i ledger hledger
        rw [pure_eq_ok] at h
        subst h
        rw [ChequeConfig.ledger, Option.bind_some, found, Option.bind_some, hledger]

/-- A step has a bank exactly when it clears the cheque. -/
theorem stepBank_ok {config : ChequeConfig} {cheque : ChequeRecord} {change : ChequeStatusChange}
    {bank : Option ClearingBank} (h : stepBank config cheque change = .ok bank) :
    (change.status = .passed → ∃ b, bank = some b ∧ config.ledger (some b.id) = some b.ledger) ∧
      (change.status ≠ .passed → bank = none) := by
  unfold stepBank at h
  by_cases clears : change.status = .passed
  · rw [if_pos clears] at h
    simp only [bind_eq_ok, pure_eq_ok] at h
    obtain ⟨b, found, rfl⟩ := h
    exact ⟨fun _ => ⟨b, rfl, clearingBank_ledger found⟩, fun other => absurd clears other⟩
  · rw [if_neg clears] at h
    cases h
    exact ⟨fun same => absurd same clears, fun _ => rfl⟩

theorem chequeBookRow_eq_ok {s : ChequeBook} {id : ℕ} {cheque : ChequeRecord}
    (h : s.chequeRow id = .ok cheque) : cheque ∈ s.cheques := by
  unfold ChequeBook.chequeRow at h
  split at h
  · cases h
  · rename_i found
    cases h
    exact List.mem_of_find?_eq_some found

theorem updateChequeStatus_ok {config : ChequeConfig} {s t : ChequeBook} {id : ℕ}
    {change : ChequeStatusChange} (h : updateChequeStatus config s id change = .ok t) :
    ∃ cheque ∈ s.cheques, ∃ status bank balances posting,
      cheque.status = some status ∧
      change.status ∈ chequeNextStatuses (some status) cheque.type ∧
      stepBank config cheque change = .ok bank ∧
      clearedBalances s.balances cheque bank = .ok balances ∧
      stepPosting config.accounts cheque change.status bank change.transfereePartyId =
        .ok posting ∧
      t = { s with
        cheques := s.cheques.map fun q =>
          if q.id = cheque.id then q.afterStep change bank else q
        vouchers := s.vouchers ++
          posting.toList.map fun posting => posting.voucher cheque.id cheque.amount
        balances := balances } := by
  simp only [updateChequeStatus, assertChequeTransition, bind_eq_ok, ensure_eq_ok,
    pure_eq_ok] at h
  obtain ⟨cheque, found, bank, hbank, -, -, -, ⟨-, -, legal⟩, -, -, -, -, balances, hbalances,
    posting, hposting, rfl⟩ := h
  cases stands : cheque.status with
  | none =>
      rw [stands] at legal
      cases hc : cheque.type <;> rw [hc] at legal <;> exact absurd legal List.not_mem_nil
  | some status =>
      rw [stands] at legal
      exact ⟨cheque, chequeBookRow_eq_ok found, status, bank, balances, posting, stands, legal, hbank,
        hbalances, hposting, rfl⟩

theorem recordCheque_ok {config : ChequeConfig} {s t : ChequeBook} {request : ChequeCreation}
    (h : recordCheque config s request = .ok t) :
    ∃ vouchers, creationVouchers config.accounts (request.row s.nextChequeId) = .ok vouchers ∧
      t = { s with
        cheques := s.cheques ++ [request.row s.nextChequeId]
        vouchers := s.vouchers ++ vouchers
        nextChequeId := s.nextChequeId + 1 } := by
  simp only [recordCheque, bind_eq_ok, ensure_eq_ok, pure_eq_ok] at h
  obtain ⟨-, -, -, -, -, -, vouchers, hvouchers, rfl⟩ := h
  exact ⟨vouchers, hvouchers, rfl⟩

/-! ## The invariant of the book -/

theorem chequePath_append {type : ChequeType} {path : List ChequeStatus}
    {status next : ChequeStatus} :
    ChequePath type status (path ++ [next]) ↔
      ChequePath type status path ∧ next ∈ chequeNextStatuses (some (path.getLastD status)) type := by
  induction path generalizing status with
  | nil => simp [ChequePath]
  | cons first rest ih =>
      rw [List.cons_append, ChequePath, ChequePath, ih, and_assoc, List.getLastD_cons]

/-- The history of a cheque is a legal path from its first status to its current one. -/
def Followed (cheque : ChequeRecord) : Prop :=
  ∃ path, cheque.statusHistory = initialChequeStatus cheque.type :: path ∧
    ChequePath cheque.type (initialChequeStatus cheque.type) path ∧
    cheque.status = some (path.getLastD (initialChequeStatus cheque.type))

/-- The cheques that stand cleared on a bank. -/
def clearedOn (bankId : ℕ) (cheque : ChequeRecord) : Bool :=
  decide (cheque.status = some .passed) && decide (cheque.bankAccountId = some bankId)

structure ChequeBookInvariant (config : ChequeConfig) (opening : ℕ → CurrentBalance)
    (s : ChequeBook) : Prop where
  below : ∀ q ∈ s.cheques, q.id < s.nextChequeId
  apart : s.cheques.Pairwise fun q q' => q.id ≠ q'.id
  vouchersBelow : ∀ v ∈ s.vouchers, v.sourceChequeId < s.nextChequeId
  balanced : ∀ v ∈ s.vouchers, v.Balanced
  scale : ∀ q ∈ s.cheques, AtScale 4 q.amount
  placed : ∀ q ∈ s.cheques, q.hasVoucher = true → ∃ held party, Placed config q held party
  standing : ∀ q ∈ s.cheques, q.hasVoucher = true →
    ∀ account, s.net q.id account = q.standing config account
  banks : ∀ bankId, s.balances bankId =
    opening bankId + sumWhere (clearedOn bankId) ChequeRecord.bankEffect s.cheques
  followed : ∀ q ∈ s.cheques, Followed q

namespace ChequeBookInvariant

variable {config : ChequeConfig} {opening : ℕ → CurrentBalance} {s t : ChequeBook}

theorem initial : ChequeBookInvariant config opening (.initial opening) := by
  constructor <;> simp [ChequeBook.initial]

/-- The vouchers written for a cheque change no other cheque's balances. -/
theorem net_append_of_ne {vouchers written : List ChequeVoucher} {chequeId account : ℕ}
    (other : ∀ v ∈ written, v.sourceChequeId ≠ chequeId) :
    sumWhere (fun v : ChequeVoucher => decide (v.sourceChequeId = chequeId))
        (fun v => v.on account) (vouchers ++ written) =
      sumWhere (fun v : ChequeVoucher => decide (v.sourceChequeId = chequeId))
        (fun v => v.on account) vouchers := by
  have none : sumWhere (fun v : ChequeVoucher => decide (v.sourceChequeId = chequeId))
      (fun v => v.on account) written = 0 :=
    sumWhere_eq_zero fun v hv => decide_eq_false (other v hv)
  rw [sumWhere_append, none, add_zero]

/-- The vouchers written for a cheque add what their posting says. -/
theorem net_append_posting (vouchers : List ChequeVoucher) (posting : Option ChequePosting)
    (chequeId account : ℕ) (amount : ℚ) :
    sumWhere (fun v : ChequeVoucher => decide (v.sourceChequeId = chequeId))
        (fun v => v.on account)
        (vouchers ++ posting.toList.map fun posting => posting.voucher chequeId amount) =
      sumWhere (fun v : ChequeVoucher => decide (v.sourceChequeId = chequeId))
        (fun v => v.on account) vouchers + postingOn posting amount account := by
  cases posting with
  | none => simp [postingOn]
  | some posting =>
      have own : (posting.voucher chequeId amount).sourceChequeId = chequeId := rfl
      simp [postingOn, own, ChequePosting.voucher_on]

theorem cheque_unique (inv : ChequeBookInvariant config opening s) {q q' : ChequeRecord}
    (hq : q ∈ s.cheques) (hq' : q' ∈ s.cheques) (same : q.id = q'.id) : q = q' :=
  eq_of_key_eq inv.apart hq hq' same

theorem record (inv : ChequeBookInvariant config opening s) {request : ChequeCreation}
    (h : recordCheque config s request = .ok t) : ChequeBookInvariant config opening t := by
  obtain ⟨vouchers, hvouchers, rfl⟩ := recordCheque_ok h
  have fresh : ∀ v ∈ s.vouchers, v.sourceChequeId ≠ s.nextChequeId :=
    fun v hv => (inv.vouchersBelow v hv).ne
  have written : ∀ v ∈ vouchers, v.sourceChequeId = s.nextChequeId ∧ v.Balanced := by
    intro v hv
    by_cases recorded : request.createVoucher = true
    · obtain ⟨posting, _, _, rfl, -, -⟩ := creationVouchers_standing recorded hvouchers
      rw [List.mem_singleton.mp hv]
      exact ⟨rfl, posting.voucher_balanced _ _⟩
    · have none_asked : (request.row s.nextChequeId).hasVoucher = false := by
        simpa [ChequeCreation.row] using recorded
      simp only [creationVouchers, none_asked, Bool.false_eq_true, if_false] at hvouchers
      cases hvouchers
      cases hv
  constructor
  · intro q hq
    rcases List.mem_append.mp hq with old | new
    · exact (inv.below q old).trans (Nat.lt_succ_self _)
    · rw [List.mem_singleton.mp new]
      exact Nat.lt_succ_self _
  · refine List.pairwise_append.mpr ⟨inv.apart, List.pairwise_singleton _ _, ?_⟩
    intro q hq q' hq'
    rw [List.mem_singleton.mp hq']
    exact (inv.below q hq).ne
  · intro v hv
    rcases List.mem_append.mp hv with old | new
    · exact (inv.vouchersBelow v old).trans (Nat.lt_succ_self _)
    · rw [(written v new).1]
      exact Nat.lt_succ_self _
  · intro v hv
    rcases List.mem_append.mp hv with old | new
    · exact inv.balanced v old
    · exact (written v new).2
  · intro q hq
    rcases List.mem_append.mp hq with old | new
    · exact inv.scale q old
    · rw [List.mem_singleton.mp new]
      exact atScale_money _
  · intro q hq recorded
    rcases List.mem_append.mp hq with old | new
    · exact inv.placed q old recorded
    · rw [List.mem_singleton.mp new] at recorded ⊢
      obtain ⟨_, held, party, -, placed, -⟩ := creationVouchers_standing recorded hvouchers
      exact ⟨held, party, placed⟩
  · intro q hq recorded account
    rcases List.mem_append.mp hq with old | new
    · have other : ∀ v ∈ vouchers, v.sourceChequeId ≠ q.id := by
        intro v hv
        rw [(written v hv).1]
        exact (inv.below q old).ne'
      rw [ChequeBook.net, net_append_of_ne other]
      exact inv.standing q old recorded account
    · rw [List.mem_singleton.mp new] at recorded ⊢
      obtain ⟨posting, _, _, rfl, -, stands⟩ := creationVouchers_standing recorded hvouchers
      have before : sumWhere (fun v : ChequeVoucher => decide (v.sourceChequeId = s.nextChequeId))
          (fun v => v.on account) s.vouchers = 0 :=
        sumWhere_eq_zero fun v hv => decide_eq_false (fresh v hv)
      have after := net_append_posting s.vouchers (some posting) s.nextChequeId account
        (request.row s.nextChequeId).amount
      rw [before, zero_add, stands] at after
      exact after
  · intro bankId
    have notCleared : clearedOn bankId (request.row s.nextChequeId) = false := by
      cases type : request.type <;>
        simp [clearedOn, ChequeCreation.row, initialChequeStatus, type]
    simp [inv.banks bankId, notCleared]
  · intro q hq
    rcases List.mem_append.mp hq with old | new
    · exact inv.followed q old
    · rw [List.mem_singleton.mp new]
      exact ⟨[], rfl, trivial, rfl⟩

theorem atScale_bankEffect {q : ChequeRecord} (scale : AtScale 4 q.amount) :
    AtScale 4 q.bankEffect := by
  unfold ChequeRecord.bankEffect
  split
  · exact scale
  · exact scale.neg

/-- Balances are sums of stored amounts, so clearing rounds nothing. -/
theorem balance_scale (inv : ChequeBookInvariant config opening s) (bankId : ℕ) :
    AtScale 4 (s.balances bankId) := by
  rw [inv.banks]
  refine (opening bankId).2.add (AtScale.sum fun x hx => ?_)
  obtain ⟨q, hq, rfl⟩ := List.mem_map.mp hx
  exact atScale_bankEffect (inv.scale q (List.mem_of_mem_filter hq))

/-- The cleared cheques of a bank after a step, and its balance with them. -/
theorem banks_step (inv : ChequeBookInvariant config opening s) {cheque : ChequeRecord}
    (member : cheque ∈ s.cheques) {status : ChequeStatus} {change : ChequeStatusChange}
    {bank : Option ClearingBank} {balances : ℕ → ℚ} (stands : cheque.status = some status)
    (legal : change.status ∈ chequeNextStatuses (some status) cheque.type)
    (hbank : stepBank config cheque change = .ok bank)
    (hbalances : clearedBalances s.balances cheque bank = .ok balances) (bankId : ℕ) :
    balances bankId = opening bankId + sumWhere (clearedOn bankId) ChequeRecord.bankEffect
      (s.cheques.map fun q => if q.id = cheque.id then q.afterStep change bank else q) := by
  have before : clearedOn bankId cheque = false := by
    have notPassed : status ≠ .passed := by
      rintro rfl
      exact absurd (mem_chequeNextStatuses.mp legal).1 List.not_mem_nil
    simp [clearedOn, stands, notPassed]
  have moved := sumWhere_update (p := clearedOn bankId) (f := ChequeRecord.bankEffect)
    (fun q => q.afterStep change bank) inv.apart member
  rw [before, if_neg Bool.false_ne_true, add_zero] at moved
  rw [moved]
  by_cases clears : change.status = .passed
  · obtain ⟨b, rfl, -⟩ := (stepBank_ok hbank).1 clears
    simp only [clearedBalances, bind_eq_ok, ensure_eq_ok, pure_eq_ok] at hbalances
    obtain ⟨-, -, rfl⟩ := hbalances
    have exact_sum : money (s.balances b.id + cheque.bankEffect) =
        s.balances b.id + cheque.bankEffect :=
      money_of_atScale ((inv.balance_scale b.id).add (atScale_bankEffect (inv.scale _ member)))
    by_cases same : bankId = b.id
    · subst same
      have after : clearedOn b.id (cheque.afterStep change (some b)) = true := by
        simp [clearedOn, ChequeRecord.afterStep, clears, nextBankAccountId]
      rw [Function.update_self, exact_sum, after, if_pos rfl, inv.banks, add_assoc]
      rfl
    · have after : clearedOn bankId (cheque.afterStep change (some b)) = false := by
        simp [clearedOn, ChequeRecord.afterStep, nextBankAccountId, Ne.symm same]
      rw [Function.update_of_ne same, after, if_neg Bool.false_ne_true, add_zero, inv.banks]
  · have none_moved : bank = none := (stepBank_ok hbank).2 clears
    subst none_moved
    cases hbalances
    have after : clearedOn bankId (cheque.afterStep change none) = false := by
      simp [clearedOn, ChequeRecord.afterStep, clears]
    rw [after, if_neg Bool.false_ne_true, add_zero, inv.banks]

theorem change (inv : ChequeBookInvariant config opening s) {id : ℕ}
    {change : ChequeStatusChange} (h : updateChequeStatus config s id change = .ok t) :
    ChequeBookInvariant config opening t := by
  obtain ⟨cheque, member, status, bank, balances, posting, stands, legal, hbank, hbalances,
    hposting, rfl⟩ := updateChequeStatus_ok h
  have written : ∀ v ∈ posting.toList.map fun posting => posting.voucher cheque.id cheque.amount,
      v.sourceChequeId = cheque.id ∧ v.Balanced := by
    intro v hv
    obtain ⟨posting, -, rfl⟩ := List.mem_map.mp hv
    exact ⟨rfl, posting.voucher_balanced _ _⟩
  -- a row of the new table is an untouched one or the cheque after its step
  have rows : ∀ q' ∈ s.cheques.map fun q =>
      if q.id = cheque.id then q.afterStep change bank else q,
      (q' ∈ s.cheques ∧ q'.id ≠ cheque.id) ∨ q' = cheque.afterStep change bank := by
    intro q' hq'
    obtain ⟨q, hq, rfl⟩ := List.mem_map.mp hq'
    by_cases same : q.id = cheque.id
    · rw [if_pos same]
      exact .inr (by rw [inv.cheque_unique hq member same])
    · rw [if_neg same]
      exact .inl ⟨hq, same⟩
  constructor
  · intro q' hq'
    rcases rows q' hq' with ⟨old, -⟩ | rfl
    · exact inv.below q' old
    · exact inv.below cheque member
  · refine List.pairwise_map.mpr (inv.apart.imp fun {q q'} apart => ?_)
    have keeps : ∀ q : ChequeRecord,
        (if q.id = cheque.id then q.afterStep change bank else q).id = q.id := by
      intro q
      split <;> rfl
    rwa [keeps q, keeps q']
  · intro v hv
    rcases List.mem_append.mp hv with old | new
    · exact inv.vouchersBelow v old
    · rw [(written v new).1]
      exact inv.below cheque member
  · intro v hv
    rcases List.mem_append.mp hv with old | new
    · exact inv.balanced v old
    · exact (written v new).2
  · intro q' hq'
    rcases rows q' hq' with ⟨old, -⟩ | rfl
    · exact inv.scale q' old
    · exact inv.scale cheque member
  · intro q' hq' recorded
    rcases rows q' hq' with ⟨old, -⟩ | rfl
    · exact inv.placed q' old recorded
    · obtain ⟨held, party, placed⟩ := inv.placed cheque member recorded
      obtain ⟨held', placed', -⟩ := stepPosting_moves placed stands legal (stepBank_ok hbank).1
        hposting
      exact ⟨held', party, placed'⟩
  · intro q' hq' recorded account
    rcases rows q' hq' with ⟨old, other⟩ | rfl
    · rw [ChequeBook.net, net_append_of_ne fun v hv => by rw [(written v hv).1]; exact other.symm]
      exact inv.standing q' old recorded account
    · obtain ⟨held, party, placed⟩ := inv.placed cheque member recorded
      obtain ⟨-, -, moves⟩ := stepPosting_moves placed stands legal (stepBank_ok hbank).1 hposting
      have sum := net_append_posting s.vouchers posting cheque.id account cheque.amount
      have old : s.net cheque.id account = cheque.standing config account :=
        inv.standing cheque member recorded account
      rw [ChequeBook.net] at old
      rw [old, moves account] at sum
      refine Eq.trans sum ?_
      ring
  · exact fun bankId => inv.banks_step member stands legal hbank hbalances bankId
  · intro q' hq'
    rcases rows q' hq' with ⟨old, -⟩ | rfl
    · exact inv.followed q' old
    · obtain ⟨path, history, legalPath, last⟩ := inv.followed cheque member
      have current : status = path.getLastD (initialChequeStatus cheque.type) :=
        Option.some.inj (stands.symm.trans last)
      refine ⟨path ++ [change.status], ?_, chequePath_append.mpr ⟨legalPath, current ▸ legal⟩, ?_⟩
      · show cheque.statusHistory ++ [change.status] = _
        rw [history]
        rfl
      · show some change.status = _
        rw [List.getLastD_concat]

end ChequeBookInvariant

/-- The cheque book after any requests, over banks with the given balances. -/
abbrev runCheques (config : ChequeConfig) (opening : ℕ → CurrentBalance)
    (ops : List ChequeOperation) : ChequeBook :=
  run (chequeStep config) (.initial opening) ops

theorem chequeBookInvariant_run (config : ChequeConfig) (opening : ℕ → CurrentBalance)
    (ops : List ChequeOperation) :
    ChequeBookInvariant config opening (runCheques config opening ops) := by
  refine run_invariant (fun s op t inv h => ?_) ChequeBookInvariant.initial ops
  cases op with
  | record request => exact inv.record h
  | change id change => exact inv.change h

/-- Every run of cheques keeps the vouchers balanced, the amount of each cheque that has
its voucher in the account of its status and nowhere else, and each bank's balance at the
cheques that stand cleared on it; and no cheque can take more than a few steps. -/
theorem cheque_ledger_invariant (config : ChequeConfig) (opening : ℕ → CurrentBalance)
    (ops : List ChequeOperation) :
    let s := runCheques config opening ops
    (∀ q ∈ s.cheques, q.hasVoucher = true →
      (∃ held party, q.holder config = some held ∧ q.partyAccountId = some party) ∧
        (∀ account, s.net q.id account =
          onAccount q.bankEffect (q.holder config) account -
            onAccount q.bankEffect q.partyAccountId account) ∧
        ∀ account, q.partyAccountId ≠ some account →
          s.net q.id account = if q.holder config = some account then q.bankEffect else 0) ∧
    (∀ v ∈ s.vouchers, v.Balanced) ∧
    (∀ bankId, s.balances bankId =
      opening bankId + sumWhere (clearedOn bankId) ChequeRecord.bankEffect s.cheques) ∧
    (∀ q ∈ s.cheques, q.statusHistory.length ≤
      (initialChequeStatus q.type).stepsLeft + 1) ∧
    ∀ type status path, ChequePath type status path → path.length ≤ status.stepsLeft := by
  have inv := chequeBookInvariant_run config opening ops
  refine ⟨fun q hq recorded => ⟨?_, inv.standing q hq recorded, fun account apart => ?_⟩,
    inv.balanced, inv.banks, fun q hq => ?_, fun _ _ _ path => path.length_le⟩
  · obtain ⟨held, party, placed⟩ := inv.placed q hq recorded
    exact ⟨held, party, placed.holder, placed.party⟩
  · rw [inv.standing q hq recorded, ChequeRecord.standing, onAccount, onAccount, if_neg apart,
      sub_zero]
  · obtain ⟨path, history, legal, -⟩ := inv.followed q hq
    rw [history, List.length_cons]
    exact Nat.succ_le_succ legal.length_le

end PapitalErp
