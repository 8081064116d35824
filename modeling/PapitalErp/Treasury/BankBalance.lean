import PapitalErp.Treasury.BankBook

/-!
# Bank balances never negative, and equal to the recomputed ones

Two properties of whole runs of `bankStep`.

No current balance becomes negative: every write of an account passes the
database constraint, and the operations that take money out refuse before it.

The current balance of a live account is the one `computeBankBalances` builds.
The proof follows the writes of one operation: `Off d book` says by how much
`d` each current balance is ahead of the recomputed one, a balance write adds to
`d` and a row takes from it. What is left at the end of the operation is zero,
except for one operation: the void of a payslip payment of method `cheque`.
-/

namespace PapitalErp.BankBook

open Rounding Transition FilteredSums

variable {book book' : Book} {bank new : Bank} {row : TreasuryRow} {d : ℕ → ℚ}

/-! ## What the reads and writes return -/

theorem anyBank_ok {id : Option ℕ} (h : book.anyBank id = .ok bank) :
    bank ∈ book.banks ∧ some bank.id = id := by
  unfold Book.anyBank at h
  split at h <;> cases h
  rename_i found
  exact ⟨List.mem_of_find?_eq_some found, by simpa using List.find?_some found⟩

theorem liveBank_ok {id : Option ℕ} (h : book.liveBank id = .ok bank) :
    bank ∈ book.banks ∧ some bank.id = id ∧ bank.isDeleted = false := by
  unfold Book.liveBank at h
  split at h <;> cases h
  rename_i found
  exact ⟨List.mem_of_find?_eq_some found, by simpa using List.find?_some found⟩

theorem liveRow_ok {id : ℕ} (h : book.liveRow id = .ok row) :
    row ∈ book.rows ∧ row.id = id ∧ row.isDeleted = false := by
  unfold Book.liveRow at h
  split at h <;> cases h
  rename_i found
  exact ⟨List.mem_of_find?_eq_some found, by simpa using List.find?_some found⟩

theorem liveCheque_ok {id : ℕ} {cheque : Cheque} (h : book.liveCheque id = .ok cheque) :
    cheque ∈ book.cheques ∧ cheque.id = id ∧ cheque.isDeleted = false := by
  unfold Book.liveCheque at h
  split at h <;> cases h
  rename_i found
  exact ⟨List.mem_of_find?_eq_some found, by simpa using List.find?_some found⟩

theorem putBank_ok :
    book.putBank new = .ok book' ↔ new.NonNegative ∧
      { book with banks := book.banks.map fun b => if b.id = new.id then new else b } = book' := by
  simp only [Book.putBank, bind_eq_ok, ensure_eq_ok, pure_eq_ok, exists_and_left, exists_const]

theorem insertRow_ok :
    book.insertRow row = .ok book' ↔ (∀ r ∈ book.rows, r.id ≠ row.id) ∧ 0 < (row.amount : ℚ) ∧
      { book with rows := book.rows ++ [row] } = book' := by
  simp only [Book.insertRow, bind_eq_ok, ensure_eq_ok, pure_eq_ok, exists_and_left, exists_const]

theorem otherSide_mem {partner : TreasuryRow} (h : book.otherSide row = some partner) :
    partner ∈ book.rows ∧ row.pairs partner = true := by
  unfold Book.otherSide at h
  split at h
  · cases h
  · split at h
    · rename_i only
      cases h
      have mem : partner ∈ book.rows.filter row.pairs := by simp [only]
      exact List.mem_filter.mp mem
    · cases h

/-- A cheque with a next step is not passed. -/
theorem not_passed_of_transition {cheque : Cheque} {next : ChequeStatus} {u : Unit}
    (h : assertChequeTransition cheque next = .ok u) : cheque.status ≠ some .passed := by
  simp only [assertChequeTransition, bind_eq_ok, ensure_eq_ok] at h
  obtain ⟨-, -, legal⟩ := h
  intro passed
  rw [passed] at legal
  exact absurd (mem_chequeNextStatuses.mp legal).1 List.not_mem_nil

/-! ## The writes of an operation -/

/-- The side of a transfer that is voided with the row. -/
def standingPartner (book : Book) (transactionId : ℕ) : Option TreasuryRow :=
  ((book.liveRow transactionId).toOption.bind book.otherSide).filter fun partner => !partner.voided

/-- The treasury rows that an operation voids. -/
def voidedBy (book : Book) : BankOperation → List ℕ
  | .voidTreasuryTransaction request =>
      request.transactionId :: (standingPartner book request.transactionId).toList.map (·.id)
  | .voidPayrollPayment request => [request.transactionId]
  | _ => []

/-- One write of an operation that starts from the book `start` and voids the rows `voids`. A cheque
is rewritten as the operation has read it, and only before it is passed. -/
inductive Write (start : Book) (voids : List ℕ) : Book → Book → Prop
  | insertBank {book : Book} {bank : Bank} (nonneg : bank.NonNegative) :
      Write start voids book { book with banks := book.banks ++ [bank] }
  | putBank {book book' : Book} {bank : Bank} (put : book.putBank bank = .ok book') :
      Write start voids book book'
  | insertRow {book book' : Book} {row : TreasuryRow} (inserted : book.insertRow row = .ok book') :
      Write start voids book book'
  | markVoided {book : Book} {id : ℕ} (voided : id ∈ voids) : Write start voids book (book.markVoided id)
  | insertCheque {book : Book} {cheque : Cheque} (fresh : ∀ c ∈ book.cheques, c.id ≠ cheque.id) :
      Write start voids book { book with cheques := book.cheques ++ [cheque] }
  | rewriteCheque {book : Book} {id : ℕ} {cheque : Cheque} {update : Cheque → Cheque}
      (found : start.liveCheque id = .ok cheque) (open_ : cheque.status ≠ some .passed)
      (keeps : ∀ c, (update c).id = c.id) : Write start voids book (book.rewriteCheque cheque.id update)

/-- Any number of writes. -/
abbrev Writes (start : Book) (voids : List ℕ) : Book → Book → Prop :=
  Relation.ReflTransGen (Write start voids)

section Writes

open Relation

variable {start : Book} {voids : List ℕ}

theorem writeBankBalance_write {direction : TreasuryType} {amount : ℚ}
    (h : writeBankBalance book bank direction amount = .ok book') : Write start voids book book' := by
  simp only [writeBankBalance, bind_eq_ok, ensure_eq_ok] at h
  obtain ⟨-, -, h⟩ := h
  exact .putBank h

theorem postTreasuryRow_writes {posting : TreasuryRowPosting}
    (h : postTreasuryRow book bank posting = .ok book') : Writes start voids book book' := by
  simp only [postTreasuryRow, bind_eq_ok, ensure_eq_ok] at h
  obtain ⟨-, -, -, -, moved, written, inserted⟩ := h
  exact .tail (.single (writeBankBalance_write written)) (.insertRow inserted)

theorem reverseTreasuryRow_writes {ids : ReversalIds} (voided : row.id ∈ voids)
    (h : reverseTreasuryRow book row bank ids = .ok book') : Writes start voids book book' := by
  simp only [reverseTreasuryRow, bind_eq_ok, pure_eq_ok] at h
  obtain ⟨moved, written, reversed, inserted, rfl⟩ := h
  have first : Writes start voids book moved := by
    unfold returnAmount at written
    split at written
    · exact .single (writeBankBalance_write written)
    · cases written
      exact .refl
  exact (first.tail (.insertRow inserted)).tail (.markVoided voided)

theorem voidTreasuryTransaction_writes {request : VoidRequest}
    (h : voidTreasuryTransaction book request = .ok book') :
    Writes book (voidedBy book (.voidTreasuryTransaction request)) book book' := by
  simp only [voidTreasuryTransaction, bind_eq_ok] at h
  obtain ⟨original, found, -, -, -, -, -, -, -, -, bank, -, reversed, first, second⟩ := h
  have first : Writes book (voidedBy book (.voidTreasuryTransaction request)) book reversed :=
    reverseTreasuryRow_writes (by simp [voidedBy, (liveRow_ok found).2.1]) first
  split at second
  · cases second
    exact first
  · rename_i partner standing
    rw [bind_eq_ok] at second
    obtain ⟨bank, -, second⟩ := second
    refine first.trans (reverseTreasuryRow_writes ?_ second)
    have named : standingPartner book request.transactionId = some partner := by
      rw [standingPartner, found]
      exact standing
    simp [voidedBy, named]

/-- Every accepted operation is a sequence of writes. -/
theorem bankStep_writes {op : BankOperation} (h : bankStep book op = .ok book') :
    Writes book (voidedBy book op) book book' := by
  cases op with
  | createBankAccount request =>
      simp only [bankStep, createBankAccount, Book.insertBank, bind_eq_ok, ensure_eq_ok,
        pure_eq_ok] at h
      obtain ⟨-, -, -, -, -, nonneg, rfl⟩ := h
      exact .single (.insertBank nonneg)
  | updateBankAccount edit =>
      simp only [bankStep, updateBankAccount, bind_eq_ok, ensure_eq_ok] at h
      obtain ⟨existing, -, -, -, changed, first, second⟩ := h
      have first : Writes book (voidedBy book (.updateBankAccount edit)) book changed :=
        .single (.putBank first)
      split at second
      · cases second
        exact first
      · split at second
        · cases second
          exact first
        · exact first.tail (.putBank second)
  | deleteBankAccount id refused =>
      simp only [bankStep, deleteBankAccount, bind_eq_ok, ensure_eq_ok] at h
      obtain ⟨existing, -, -, -, -, -, -, -, written⟩ := h
      exact .single (.putBank written)
  | createTreasuryTransaction type request =>
      simp only [bankStep, createTreasuryTransaction, bind_eq_ok] at h
      obtain ⟨-, -, -, -, bank, -, posted⟩ := h
      exact postTreasuryRow_writes posted
  | createTreasuryTransfer request =>
      simp only [bankStep, createTreasuryTransfer, bind_eq_ok] at h
      obtain ⟨-, -, -, -, source, -, target, -, -, -, -, -, paid, first, received, second,
        withPayment, third, fourth⟩ := h
      exact (((ReflTransGen.single (.putBank first)).tail (.putBank second)).tail
        (.insertRow third)).tail (.insertRow fourth)
  | voidTreasuryTransaction request => exact voidTreasuryTransaction_writes h
  | registerPayrollPayment payrollId request =>
      simp only [bankStep, registerPayrollPayment, bind_eq_ok] at h
      obtain ⟨-, -, bank, -, posted⟩ := h
      exact postTreasuryRow_writes posted
  | voidPayrollPayment request =>
      simp only [bankStep, voidPayrollPayment, bind_eq_ok] at h
      obtain ⟨payment, found, -, -, bank, -, -, -, -, -, reversed⟩ := h
      exact reverseTreasuryRow_writes (by simp [voidedBy, (liveRow_ok found).2.1]) reversed
  | createPettyCashExpense request =>
      simp only [bankStep, createPettyCashExpense, bind_eq_ok] at h
      obtain ⟨bank, -, posted⟩ := h
      exact postTreasuryRow_writes posted
  | createStatutoryRemittance request =>
      simp only [bankStep, createStatutoryRemittance, bind_eq_ok] at h
      obtain ⟨-, -, bank, -, posted⟩ := h
      exact postTreasuryRow_writes posted
  | createCheque request =>
      simp only [bankStep, createCheque, bind_eq_ok, ensure_eq_ok, pure_eq_ok] at h
      obtain ⟨-, -, -, -, -, -, -, fresh, rfl⟩ := h
      exact .single (.insertCheque fresh)
  | updateChequeStatus request =>
      simp only [bankStep, updateChequeStatus, bind_eq_ok] at h
      obtain ⟨cheque, found, h⟩ := h
      split at h
      · simp only [clearCheque, bind_eq_ok] at h
        obtain ⟨target, -, h⟩ := h
        split at h
        · cases h
        · simp only [bind_eq_ok, pure_eq_ok] at h
          obtain ⟨bank, -, -, -, _, allowed, -, -, -, -, moved, written, rfl⟩ := h
          exact (ReflTransGen.single (.putBank written)).tail
            (.rewriteCheque found (not_passed_of_transition allowed) fun _ => rfl)
      · simp only [bind_eq_ok, pure_eq_ok] at h
        obtain ⟨-, -, _, allowed, -, -, rfl⟩ := h
        exact .single (.rewriteCheque found (not_passed_of_transition allowed) fun _ => rfl)
  | deleteCheque id refused =>
      simp only [bankStep, deleteCheque, bind_eq_ok, ensure_eq_ok, pure_eq_ok] at h
      obtain ⟨cheque, found, -, ⟨notPassed, -⟩, -, -, rfl⟩ := h
      exact .single (.rewriteCheque found notPassed fun _ => rfl)
  | recalculateAndSyncBankBalances =>
      refine foldlM_invariant (I := Writes book [] book) ?_ .refl h
      intro kept next bank _ written put
      unfold syncBank at put
      split at put
      · cases put
        exact written
      · exact written.tail (.putBank put)

end Writes

/-- Every write of an account is checked. -/
theorem Write.nonneg {start : Book} {voids : List ℕ} (h : Write start voids book book')
    (nonneg : ∀ bank ∈ book.banks, 0 ≤ (bank.currentBalance : ℚ)) :
    ∀ bank ∈ book'.banks, 0 ≤ (bank.currentBalance : ℚ) := by
  cases h with
  | insertBank new => exact List.forall_mem_append.mpr ⟨nonneg, List.forall_mem_singleton.mpr new.2⟩
  | putBank put =>
      obtain ⟨new, rfl⟩ := putBank_ok.mp put
      refine List.forall_mem_map.mpr fun bank mem => ?_
      split
      · exact new.2
      · exact nonneg bank mem
  | insertRow inserted =>
      obtain ⟨-, -, rfl⟩ := insertRow_ok.mp inserted
      exact nonneg
  | markVoided | insertCheque | rewriteCheque => exact nonneg

/-- No current balance of a treasury account is negative in any state of a run. -/
theorem current_balance_nonneg {book : Book}
    (start : ∀ bank ∈ book.banks, 0 ≤ (bank.currentBalance : ℚ)) (ops : List BankOperation) :
    ∀ bank ∈ (run bankStep book ops).banks, 0 ≤ (bank.currentBalance : ℚ) := by
  refine run_invariant (I := fun book : Book => ∀ bank ∈ book.banks, 0 ≤ (bank.currentBalance : ℚ))
    ?_ start ops
  intro book op book' nonneg accepted
  have writes := bankStep_writes accepted
  clear accepted
  induction writes with
  | refl => exact nonneg
  | tail _ last ih => exact last.nonneg ih

/-- An account with 5, lowered by a payment of 2 and by an edit of its initial balance
from 5 to 3, keeps 1; a further payment of 2 is refused. -/
theorem current_balance_nonneg_one_account :
    let payment : ℕ → PaymentRequest := fun id => ⟨id, 1, .cash, 2, none, false⟩
    ∀ bank ∈ (run bankStep ⟨[⟨1, stored 5, stored 5, true, false⟩], [], []⟩
        [.createTreasuryTransaction .payment (payment 1), .updateBankAccount ⟨1, some 3, true, false⟩,
          .createTreasuryTransaction .payment (payment 2)]).banks,
      0 ≤ (bank.currentBalance : ℚ) := by
  intro payment
  exact current_balance_nonneg (by decide +kernel) _

/-! ## The treasury rows only grow -/

/-- Every treasury row keeps its place and its content; only a void is marked, for good. -/
def Grown (rows later : List TreasuryRow) : Prop :=
  ∀ (i : ℕ) (row : TreasuryRow), rows[i]? = some row → ∃ voided : Bool,
    later[i]? = some { row with voided := voided } ∧ (row.voided = true → voided = true)

theorem Grown.trans {rows middle later : List TreasuryRow} (first : Grown rows middle)
    (second : Grown middle later) : Grown rows later := by
  intro i row present
  obtain ⟨once, present, kept⟩ := first i row present
  obtain ⟨twice, present, keptAgain⟩ := second i _ present
  exact ⟨twice, present, fun voided => keptAgain (kept voided)⟩

theorem Write.grown {start : Book} {voids : List ℕ} (h : Write start voids book book') :
    Grown book.rows book'.rows := by
  have same : Grown book.rows book.rows := fun _ row present => ⟨row.voided, present, id⟩
  cases h with
  | insertBank | insertCheque | rewriteCheque => exact same
  | putBank put =>
      obtain ⟨-, rfl⟩ := putBank_ok.mp put
      exact same
  | insertRow inserted =>
      obtain ⟨-, -, rfl⟩ := insertRow_ok.mp inserted
      intro i row present
      refine ⟨row.voided, ?_, id⟩
      rw [List.getElem?_append_left (List.getElem?_eq_some_iff.mp present).1]
      exact present
  | @markVoided id _ =>
      intro i row present
      refine ⟨if row.id = id then true else row.voided, ?_, ?_⟩
      · simp only [Book.markVoided, List.getElem?_map, present, Option.map_some]
        split <;> rfl
      · intro voided
        split
        · rfl
        · exact voided

/-- No run removes, moves or rewrites a treasury row, and none takes back a void. -/
theorem rows_only_grow (book : Book) (ops : List BankOperation) :
    Grown book.rows (run bankStep book ops).rows := by
  refine run_invariant (I := fun later : Book => Grown book.rows later.rows) ?_ ?_ ops
  · intro later op next grown accepted
    have writes := bankStep_writes accepted
    clear accepted
    induction writes with
    | refl => exact grown
    | tail _ last ih => exact ih.trans last.grown
  · exact fun _ row present => ⟨row.voided, present, id⟩

/-! ## A passed cheque is final -/

/-- The cheque is in the book, and every cheque has an id of its own. -/
structure Book.Holds (book : Book) (cheque : Cheque) : Prop where
  chequeIds : book.cheques.Pairwise fun b c => b.id ≠ c.id
  mem : cheque ∈ book.cheques

/-- No write reaches a cheque that was passed before the operation. -/
theorem Write.holds {start : Book} {voids : List ℕ} {cheque : Cheque} (h : Write start voids book book')
    (before : start.Holds cheque) (passed : cheque.status = some .passed) (held : book.Holds cheque) :
    book'.Holds cheque := by
  obtain ⟨chequeIds, mem⟩ := held
  cases h with
  | insertBank | markVoided => exact ⟨chequeIds, mem⟩
  | putBank put =>
      obtain ⟨-, rfl⟩ := putBank_ok.mp put
      exact ⟨chequeIds, mem⟩
  | insertRow inserted =>
      obtain ⟨-, -, rfl⟩ := insertRow_ok.mp inserted
      exact ⟨chequeIds, mem⟩
  | insertCheque fresh =>
      exact ⟨List.pairwise_append.mpr ⟨chequeIds, List.pairwise_singleton _ _, by simpa using fresh⟩,
        List.mem_append_left _ mem⟩
  | rewriteCheque found notPassed keeps =>
      refine ⟨pairwise_update chequeIds keeps, List.mem_map.mpr ⟨cheque, mem, if_neg fun same => ?_⟩⟩
      obtain ⟨there, -, -⟩ := liveCheque_ok found
      obtain rfl := List.inj_on_of_nodup_map (List.pairwise_map.mpr before.chequeIds) before.mem there same
      exact notPassed passed

/-- No operation changes or removes a cheque that has been passed. -/
theorem passed_cheque_final {cheque : Cheque} (start : book.Holds cheque) (passed : cheque.status = some .passed)
    (ops : List BankOperation) : cheque ∈ (run bankStep book ops).cheques := by
  refine (run_invariant (I := fun later : Book => later.Holds cheque) ?_ start ops).mem
  intro later op next held accepted
  have writes := bankStep_writes accepted
  clear accepted
  induction writes with
  | refl => exact held
  | tail _ last ih => exact last.holds held passed ih

/-- A passed cheque of 3 is not deleted. -/
theorem passed_cheque_final_deleted :
    let cheque : Cheque := ⟨1, .received, some .passed, stored 3, some 1, false⟩
    cheque ∈ (run bankStep ⟨[], [], [cheque]⟩ [.deleteCheque 1 false]).cheques :=
  passed_cheque_final ⟨List.pairwise_singleton _ _, List.mem_singleton_self _⟩ rfl _

/-! ## By how much a balance is ahead of the recomputed one -/

/-- What a row adds to the recomputed balance of an account. -/
def TreasuryRow.effect (bankId : ℕ) (row : TreasuryRow) : ℚ :=
  (if row.counts bankId .receipt then (row.amount : ℚ) else 0) -
    if row.counts bankId .payment then (row.amount : ℚ) else 0

/-- What a cheque adds to the recomputed balance of an account. -/
def Cheque.effect (bankId : ℕ) (cheque : Cheque) : ℚ :=
  (if cheque.counts bankId .received then (cheque.amount : ℚ) else 0) -
    if cheque.counts bankId .paid then (cheque.amount : ℚ) else 0

/-- Everything that moved an account since its initial balance. -/
def Book.movement (book : Book) (bankId : ℕ) : ℚ :=
  (book.rows.map (TreasuryRow.effect bankId)).sum + (book.cheques.map (Cheque.effect bankId)).sum

theorem treasuryBalance_eq (book : Book) (bank : Bank) :
    treasuryBalance book bank = bank.initialBalance + book.movement bank.id := by
  unfold treasuryBalance Book.movement TreasuryRow.effect Cheque.effect
  rw [← sumWhere_sub_sumWhere, ← sumWhere_sub_sumWhere]
  ring

/-- A live row of another method than `cheque` moves its account by its amount. -/
theorem effect_of_counted {bankId : ℕ} (live : row.isDeleted = false) (method : row.method ≠ .cheque)
    (place : row.bankAccountId = some bankId) (id : ℕ) :
    row.effect id = (Pi.single bankId (row.type.signed row.amount) : ℕ → ℚ) id := by
  rcases eq_or_ne id bankId with rfl | other
  · rw [Pi.single_eq_same]
    cases kind : row.type <;>
      simp [TreasuryRow.effect, TreasuryRow.counts, TreasuryType.signed, live, method, place, kind]
  · rw [Pi.single_eq_of_ne other]
    simp [TreasuryRow.effect, TreasuryRow.counts, place, other.symm]

/-- A row of method `cheque` moves no recomputed balance. -/
theorem effect_of_cheque (method : row.method = .cheque) (id : ℕ) : row.effect id = 0 := by
  simp [TreasuryRow.effect, TreasuryRow.counts, method]

/-- A passed cheque moves its account by its amount. -/
theorem effect_of_passed {cheque : Cheque} {bankId : ℕ} (live : cheque.isDeleted = false)
    (passed : cheque.status = some .passed) (place : cheque.bankAccountId = some bankId) (id : ℕ) :
    cheque.effect id = (Pi.single bankId cheque.clearedAmount : ℕ → ℚ) id := by
  rcases eq_or_ne id bankId with rfl | other
  · rw [Pi.single_eq_same]
    cases kind : cheque.type <;>
      simp [Cheque.effect, Cheque.counts, Cheque.clearedAmount, live, passed, place, kind]
  · rw [Pi.single_eq_of_ne other]
    simp [Cheque.effect, Cheque.counts, place, other.symm]

theorem effect_of_not_passed {cheque : Cheque} (status : cheque.status ≠ some .passed) (id : ℕ) :
    cheque.effect id = 0 := by
  simp [Cheque.effect, Cheque.counts, status]

theorem effect_of_deleted {cheque : Cheque} (deleted : cheque.isDeleted = true) (id : ℕ) :
    cheque.effect id = 0 := by
  simp [Cheque.effect, Cheque.counts, deleted]

/-- The current balance of each live account is `d` ahead of the recomputed one. -/
def Off (d : ℕ → ℚ) (book : Book) : Prop :=
  ∀ bank ∈ book.banks, bank.isDeleted = false →
    (bank.currentBalance : ℚ) = bank.initialBalance + book.movement bank.id + d bank.id

/-- The current balance of each live account is the recomputed one. -/
def Kept (book : Book) : Prop :=
  ∀ bank ∈ book.banks, bank.isDeleted = false →
    (bank.currentBalance : ℚ) = treasuryBalance book bank

theorem kept_iff_off : Kept book ↔ Off 0 book := by
  unfold Kept Off
  simp only [treasuryBalance_eq, Pi.zero_apply, add_zero]

/-! ## The writes -/

/-- The account that an id names exists. -/
def Book.Knows (book : Book) (id : Option ℕ) : Prop :=
  ∀ bankId ∈ id, ∃ bank ∈ book.banks, bank.id = bankId

/-- The keys and constraints of the tables: a cheque id is of one cheque, a treasury row
has an amount, and the accounts of rows and cheques exist. -/
structure Book.Valid (book : Book) : Prop where
  chequeIds : book.cheques.Pairwise fun b c => b.id ≠ c.id
  amounts : ∀ row ∈ book.rows, 0 < (row.amount : ℚ)
  rowAccounts : ∀ row ∈ book.rows, book.Knows row.bankAccountId
  chequeAccounts : ∀ cheque ∈ book.cheques, book.Knows cheque.bankAccountId

/-- A valid book whose current balances are `d` ahead. -/
structure Ahead (d : ℕ → ℚ) (book : Book) : Prop where
  valid : book.Valid
  off : Off d book

theorem knows_of_mem (member : bank ∈ book.banks) {id : Option ℕ} (named : some bank.id = id) :
    book.Knows id := by
  intro bankId mem
  subst named
  cases Option.mem_some_iff.mp mem
  exact ⟨bank, member, rfl⟩

/-- A write of an account keeps the account ids. -/
theorem knows_putBank (h : book.putBank new = .ok book') {id : Option ℕ} (known : book.Knows id) :
    book'.Knows id := by
  obtain ⟨-, rfl⟩ := putBank_ok.mp h
  intro bankId mem
  obtain ⟨b, member, rfl⟩ := known bankId mem
  refine ⟨_, List.mem_map_of_mem member, ?_⟩
  split
  · exact Eq.symm ‹_›
  · rfl

theorem knows_writeBankBalance {direction : TreasuryType} {amount : ℚ}
    (h : writeBankBalance book bank direction amount = .ok book') {id : Option ℕ}
    (known : book.Knows id) : book'.Knows id := by
  simp only [writeBankBalance, bind_eq_ok] at h
  obtain ⟨-, -, h⟩ := h
  exact knows_putBank h known

/-- A write of an account adds what it moves the current balance beyond the initial one. -/
theorem Ahead.putBank {x : ℚ} (ahead : Ahead d book) (h : book.putBank new = .ok book')
    (member : bank ∈ book.banks) (sameId : new.id = bank.id)
    (live : new.isDeleted = false → bank.isDeleted = false)
    (moves : (new.currentBalance : ℚ) - new.initialBalance =
      bank.currentBalance - bank.initialBalance + x) :
    Ahead (d + Pi.single bank.id x) book' := by
  have known : ∀ id, book.Knows id → book'.Knows id := fun id => knows_putBank h
  obtain ⟨-, rfl⟩ := putBank_ok.mp h
  refine ⟨⟨ahead.valid.chequeIds, ahead.valid.amounts,
    fun row mem => known _ (ahead.valid.rowAccounts row mem),
    fun cheque mem => known _ (ahead.valid.chequeAccounts cheque mem)⟩, ?_⟩
  intro b mem alive
  obtain ⟨c, earlier, rfl⟩ := List.mem_map.mp mem
  have same : ∀ id, Book.movement
      { book with banks := book.banks.map fun b => if b.id = new.id then new else b } id =
        book.movement id := fun _ => rfl
  rw [same, Pi.add_apply]
  split at alive
  · rename_i here
    rw [if_pos here, sameId, Pi.single_eq_same]
    have before := ahead.off bank member (live alive)
    linarith
  · rename_i other
    rw [if_neg other, Pi.single_eq_of_ne (sameId ▸ other), add_zero]
    exact ahead.off c earlier alive

/-- A balance write adds the amount it brings. -/
theorem Ahead.writeBankBalance {direction : TreasuryType} {amount : ℚ} (ahead : Ahead d book)
    (member : bank ∈ book.banks) (scale : AtScale 4 amount)
    (h : writeBankBalance book bank direction amount = .ok book') :
    Ahead (d + Pi.single bank.id (direction.signed amount)) book' := by
  simp only [BankBook.writeBankBalance, bind_eq_ok, ensure_eq_ok] at h
  obtain ⟨-, -, h⟩ := h
  have signed : AtScale 4 (direction.signed amount) := by
    cases direction
    · exact scale
    · exact scale.neg
  refine ahead.putBank h member rfl id ?_
  rw [coe_stored, round_four, money_of_atScale (atScale_money _),
    money_of_atScale (bank.currentBalance.2.add signed)]
  ring

/-- A new row takes what it adds to the recomputed balances. -/
theorem Ahead.insertRow (ahead : Ahead d book) (h : book.insertRow row = .ok book')
    (known : book.Knows row.bankAccountId) : Ahead (fun id => d id - row.effect id) book' := by
  obtain ⟨-, amount, rfl⟩ := insertRow_ok.mp h
  refine ⟨⟨ahead.valid.chequeIds, ?_, ?_, ahead.valid.chequeAccounts⟩, ?_⟩
  · intro r mem
    rcases List.mem_append.mp mem with earlier | added
    · exact ahead.valid.amounts r earlier
    · cases List.mem_singleton.mp added
      exact amount
  · intro r mem
    rcases List.mem_append.mp mem with earlier | added
    · exact ahead.valid.rowAccounts r earlier
    · cases List.mem_singleton.mp added
      exact known
  · intro bank mem alive
    rw [ahead.off bank mem alive]
    simp only [Book.movement, List.map_append, List.sum_append, List.map_cons, List.map_nil,
      List.sum_cons, List.sum_nil]
    ring

/-- A voided row still counts. -/
theorem Ahead.markVoided (ahead : Ahead d book) (id : ℕ) : Ahead d (book.markVoided id) := by
  have kept : ∀ (P : TreasuryRow → Prop), (∀ row, P { row with voided := true } ↔ P row) →
      (∀ row ∈ book.rows, P row) → ∀ row ∈ (book.markVoided id).rows, P row := by
    intro P blind all row mem
    obtain ⟨r, earlier, rfl⟩ := List.mem_map.mp mem
    split
    · exact (blind r).mpr (all r earlier)
    · exact all r earlier
  refine ⟨⟨ahead.valid.chequeIds, kept _ (fun _ => Iff.rfl) ahead.valid.amounts,
    kept _ (fun _ => Iff.rfl) ahead.valid.rowAccounts, ahead.valid.chequeAccounts⟩, ?_⟩
  intro bank mem alive
  rw [ahead.off bank mem alive]
  have rows : ∀ bankId, ((book.markVoided id).rows.map (TreasuryRow.effect bankId)) =
      book.rows.map (TreasuryRow.effect bankId) := by
    intro bankId
    simp only [Book.markVoided, List.map_map]
    refine List.map_congr_left fun row _ => ?_
    simp only [Function.comp_apply]
    split <;> rfl
  simp only [Book.movement, rows]
  rfl

/-- A cheque rewritten in place moves the recomputed balances by what its effect changes. -/
theorem Ahead.rewriteCheque {cheque : Cheque} (update : Cheque → Cheque) (ahead : Ahead d book)
    (member : cheque ∈ book.cheques) (keeps : ∀ c, (update c).id = c.id)
    (known : ∀ c ∈ book.cheques, book.Knows (update c).bankAccountId) :
    Ahead (fun id => d id + cheque.effect id - (update cheque).effect id)
      (book.rewriteCheque cheque.id update) := by
  refine ⟨⟨pairwise_update ahead.valid.chequeIds keeps, ahead.valid.amounts, ahead.valid.rowAccounts,
    ?_⟩, ?_⟩
  · intro c mem
    obtain ⟨b, earlier, rfl⟩ := List.mem_map.mp mem
    split
    · exact known b earlier
    · exact ahead.valid.chequeAccounts b earlier
  · intro bank mem alive
    rw [ahead.off bank mem alive]
    have sums := sumWhere_update (p := fun _ => true) (f := Cheque.effect bank.id) update
      ahead.valid.chequeIds member
    rw [sumWhere_true, sumWhere_true, if_pos rfl, if_pos rfl] at sums
    simp only [Book.movement, Book.rewriteCheque]
    linarith

/-! ## The operations -/

theorem Ahead.postTreasuryRow {posting : TreasuryRowPosting} (ahead : Ahead d book)
    (member : bank ∈ book.banks) (method : posting.method ≠ .cheque)
    (h : postTreasuryRow book bank posting = .ok book') : Ahead d book' := by
  simp only [BankBook.postTreasuryRow, bind_eq_ok] at h
  obtain ⟨-, -, -, -, moved, written, inserted⟩ := h
  have known := knows_writeBankBalance written (knows_of_mem member rfl)
  have done := (ahead.writeBankBalance member (atScale_roundHalfUp 4 _) written).insertRow inserted known
  convert done using 1
  funext id
  have counted : (posting.row bank.id).effect id = _ := effect_of_counted rfl method rfl id
  have amount : ((posting.row bank.id).amount : ℚ) = FinancialDecimal.round posting.amount 4 := rfl
  rw [counted, amount, Pi.add_apply]
  exact (add_sub_cancel_right _ _).symm

/-- What a reversal leaves a balance ahead: the amount it returns, when its row moved the
balance but is of method `cheque`. -/
def TreasuryRow.uncounted (row : TreasuryRow) : ℚ :=
  if row.method = .cheque ∧ row.payrollId ≠ none then row.type.opposite.signed row.amount else 0

theorem Ahead.reverseTreasuryRow {ids : ReversalIds} (ahead : Ahead d book)
    (member : bank ∈ book.banks) (place : some bank.id = row.bankAccountId)
    (h : reverseTreasuryRow book row bank ids = .ok book') :
    Ahead (d + Pi.single bank.id row.uncounted) book' := by
  simp only [BankBook.reverseTreasuryRow, bind_eq_ok, pure_eq_ok] at h
  obtain ⟨moved, returned, reversed, inserted, rfl⟩ := h
  refine Ahead.markVoided ?_ row.id
  have known := knows_of_mem member place
  unfold returnAmount at returned
  split at returned
  · rename_i had
    have done := (ahead.writeBankBalance member row.amount.2 returned).insertRow inserted
      (knows_writeBankBalance returned known)
    convert done using 1
    funext id
    by_cases method : row.method = .cheque
    · have paid : row.payrollId ≠ none := by
        simpa [TreasuryRow.movedBankBalance, method, Option.isSome_iff_ne_none] using had
      have still := effect_of_cheque (show (row.reversal ids).method = .cheque from method) id
      rw [still, sub_zero, TreasuryRow.uncounted, if_pos ⟨method, paid⟩]
    · have counted := effect_of_counted (show (row.reversal ids).isDeleted = false from rfl) method
        place.symm id
      rw [counted, TreasuryRow.uncounted, if_neg fun both => method both.1, Pi.single_zero, add_zero,
        Pi.add_apply]
      exact (add_sub_cancel_right _ _).symm
  · rename_i stayed
    cases returned
    have cheque : row.method = .cheque ∧ row.payrollId = none := by
      simpa [TreasuryRow.movedBankBalance, Option.isSome_iff_ne_none] using stayed
    have done := ahead.insertRow inserted known
    convert done using 1
    funext id
    have still := effect_of_cheque (show (row.reversal ids).method = .cheque from cheque.1) id
    rw [still, sub_zero, TreasuryRow.uncounted, if_neg fun both => both.2 cheque.2, Pi.single_zero,
      add_zero]

theorem uncounted_of_payroll_none (none : row.payrollId = none) : row.uncounted = 0 := by
  simp [TreasuryRow.uncounted, none]

theorem Ahead.createBankAccount {request : BankRequest} (ahead : Ahead 0 book)
    (h : createBankAccount book request = .ok book') : Ahead 0 book' := by
  simp only [BankBook.createBankAccount, Book.insertBank, bind_eq_ok, ensure_eq_ok,
    pure_eq_ok] at h
  obtain ⟨-, -, -, fresh, -, -, rfl⟩ := h
  have known : ∀ id, book.Knows id → Book.Knows
      { book with banks := book.banks ++ [⟨request.id, stored request.initialBalance,
        stored request.initialBalance, request.clearing, false⟩] } id := by
    intro id known bankId mem
    obtain ⟨bank, member, named⟩ := known bankId mem
    exact ⟨bank, List.mem_append_left _ member, named⟩
  refine ⟨⟨ahead.valid.chequeIds, ahead.valid.amounts,
    fun row mem => known _ (ahead.valid.rowAccounts row mem),
    fun cheque mem => known _ (ahead.valid.chequeAccounts cheque mem)⟩, ?_⟩
  intro bank mem alive
  rcases List.mem_append.mp mem with earlier | created
  · exact ahead.off bank earlier alive
  · -- no row and no cheque can name the account before it exists
    cases List.mem_singleton.mp created
    have unnamed : ∀ id, book.Knows id → id ≠ some request.id := by
      intro id known named
      obtain ⟨b, member, same⟩ := known request.id (Option.mem_def.mpr named)
      exact fresh b member same
    have rows : ∀ row ∈ book.rows, row.effect request.id = 0 := fun row mem => by
      simp [TreasuryRow.effect, TreasuryRow.counts, unnamed _ (ahead.valid.rowAccounts row mem)]
    have cheques : ∀ cheque ∈ book.cheques, cheque.effect request.id = 0 := fun cheque mem => by
      simp [Cheque.effect, Cheque.counts, unnamed _ (ahead.valid.chequeAccounts cheque mem)]
    rw [Book.movement, List.map_congr_left rows, List.map_congr_left cheques]
    simp

theorem Ahead.updateBankAccount {edit : BankEdit} (ahead : Ahead 0 book)
    (h : updateBankAccount book edit = .ok book') : Ahead 0 book' := by
  simp only [BankBook.updateBankAccount, bind_eq_ok] at h
  obtain ⟨existing, found, -, -, changed, first, second⟩ := h
  obtain ⟨member, -, live⟩ := liveBank_ok found
  have edited : Ahead 0 changed := by
    have done := ahead.putBank (x := 0) first member rfl id (add_zero _).symm
    rwa [Pi.single_zero, add_zero] at done
  have mem : { existing with clearing := edit.clearing } ∈ changed.banks := by
    obtain ⟨-, rfl⟩ := putBank_ok.mp first
    exact List.mem_map.mpr ⟨existing, member, if_pos rfl⟩
  split at second
  · cases second
    exact edited
  · split at second
    · cases second
      exact edited
    · rename_i initialBalance _ _
      have done := edited.putBank (x := 0) second mem rfl id ?_
      · rwa [Pi.single_zero, add_zero] at done
      · -- the current balance moves by the difference of the initial ones
        have scale : AtScale 4 (money initialBalance - existing.initialBalance) :=
          (atScale_money initialBalance).sub existing.initialBalance.2
        simp only [coe_stored, round_four]
        rw [money_of_atScale (atScale_money (_ + _)), money_of_atScale (atScale_money initialBalance),
          money_of_atScale scale, money_of_atScale (existing.currentBalance.2.add scale)]
        ring

theorem Ahead.deleteBankAccount {id : ℕ} {refused : Bool} (ahead : Ahead 0 book)
    (h : deleteBankAccount book id refused = .ok book') : Ahead 0 book' := by
  simp only [BankBook.deleteBankAccount, bind_eq_ok] at h
  obtain ⟨existing, found, -, -, -, -, -, -, written⟩ := h
  obtain ⟨member, -, -⟩ := liveBank_ok found
  have done := ahead.putBank (x := 0) written member rfl (fun live => by cases live) (add_zero _).symm
  rwa [Pi.single_zero, add_zero] at done

theorem side_effect {request : TransferRequest} (scale : AtScale 4 request.amount) (rowId : ℕ)
    (type : TreasuryType) (bankId id : ℕ) :
    (request.side rowId type bankId).effect id =
      (Pi.single bankId (type.signed request.amount) : ℕ → ℚ) id := by
  have method : (request.side rowId type bankId).method ≠ .cheque := by simp [TransferRequest.side]
  have amount : ((request.side rowId type bankId).amount : ℚ) = request.amount :=
    money_of_atScale scale
  have counted := effect_of_counted (show (request.side rowId type bankId).isDeleted = false from rfl)
    method rfl id
  rwa [amount] at counted

theorem Ahead.createTreasuryTransfer {request : TransferRequest} (ahead : Ahead 0 book)
    (h : createTreasuryTransfer book request = .ok book') : Ahead 0 book' := by
  simp only [BankBook.createTreasuryTransfer, bind_eq_ok, ensure_eq_ok] at h
  obtain ⟨-, ⟨input, -⟩, -, apart, source, hsource, target, htarget, -, -, -, -, paid, first, received,
    second, withPayment, third, fourth⟩ := h
  obtain ⟨sourceMem, sourceId, -⟩ := liveBank_ok hsource
  obtain ⟨targetMem, targetId, -⟩ := liveBank_ok htarget
  have other : target.id ≠ source.id := by
    intro same
    exact apart (Option.some.inj (sourceId.symm.trans (same ▸ targetId)))
  have targetPaid : target ∈ paid.banks := by
    obtain ⟨-, rfl⟩ := putBank_ok.mp first
    exact List.mem_map.mpr ⟨target, targetMem, if_neg other⟩
  have amount : AtScale 4 request.amount := input.1
  have out := ahead.putBank (x := -request.amount) first sourceMem rfl id (by
    rw [coe_stored, round_four, money_of_atScale (atScale_money _),
      money_of_atScale (source.currentBalance.2.sub amount)]
    ring)
  have into := out.putBank (x := request.amount) second targetPaid rfl id (by
    rw [coe_stored, round_four, money_of_atScale (atScale_money _),
      money_of_atScale (target.currentBalance.2.add amount)]
    ring)
  have sourceKnown := knows_putBank second (knows_putBank first (knows_of_mem sourceMem rfl))
  have targetKnown := knows_putBank second (knows_putBank first (knows_of_mem targetMem rfl))
  have withPaid := into.insertRow third sourceKnown
  have kept : withPayment.Knows (some target.id) := by
    obtain ⟨-, -, rfl⟩ := insertRow_ok.mp third
    exact targetKnown
  have done := withPaid.insertRow fourth kept
  convert done using 1
  funext id
  rw [side_effect amount, side_effect amount]
  simp only [Pi.add_apply, Pi.zero_apply, TreasuryType.signed]
  ring

theorem Ahead.voidTreasuryTransaction {request : VoidRequest} (ahead : Ahead 0 book)
    (h : voidTreasuryTransaction book request = .ok book') : Ahead 0 book' := by
  simp only [BankBook.voidTreasuryTransaction, bind_eq_ok, ensure_eq_ok] at h
  obtain ⟨original, -, -, -, -, payroll, -, -, -, -, bank, found, reversed, first, second⟩ := h
  obtain ⟨member, place, -⟩ := liveBank_ok found
  have once := ahead.reverseTreasuryRow member place first
  rw [uncounted_of_payroll_none (payroll original List.mem_cons_self), Pi.single_zero, add_zero] at once
  split at second
  · cases second
    exact once
  · rename_i partner other
    rw [bind_eq_ok] at second
    obtain ⟨bank, found, second⟩ := second
    obtain ⟨member, place, -⟩ := liveBank_ok found
    have side : partner ∈ (book.otherSide original).toList := by
      rw [Option.mem_toList]
      exact Option.mem_def.mpr (Option.filter_eq_some_iff.mp other).1
    have twice := once.reverseTreasuryRow member place second
    rwa [uncounted_of_payroll_none (payroll partner (List.mem_cons_of_mem _ side)), Pi.single_zero,
      add_zero] at twice

/-! ## Cheques -/

theorem knows_of_required {id : Option ℕ} {clearing : Bool} {u : Unit}
    (h : requireChequeBankAccount book id clearing = .ok u) : book.Knows id := by
  intro bankId mem
  cases Option.mem_def.mp mem
  simp only [requireChequeBankAccount, bind_eq_ok] at h
  obtain ⟨bank, found, -⟩ := h
  obtain ⟨member, named, -⟩ := liveBank_ok found
  exact ⟨bank, member, Option.some.inj named⟩

/-- The step of an uncleared cheque takes what it brings its account afterwards. -/
theorem Ahead.moveCheque {cheque : Cheque} (ahead : Ahead d book) (status : ChequeStatus)
    {place : Option ℕ} (member : cheque ∈ book.cheques) (before : cheque.status ≠ some .passed)
    (known : book.Knows place) :
    Ahead (fun id => d id - (cheque.moveTo status place).effect id)
      (book.rewriteCheque cheque.id (Cheque.moveTo status place)) := by
  have done := ahead.rewriteCheque (Cheque.moveTo status place) member (fun _ => rfl) fun _ _ => known
  simpa only [effect_of_not_passed before, add_zero] using done

theorem Ahead.createCheque {request : ChequeRequest} (ahead : Ahead 0 book)
    (h : createCheque book request = .ok book') : Ahead 0 book' := by
  simp only [BankBook.createCheque, bind_eq_ok, ensure_eq_ok, pure_eq_ok] at h
  obtain ⟨-, -, -, -, _, required, -, fresh, rfl⟩ := h
  refine ⟨⟨?_, ahead.valid.amounts, ahead.valid.rowAccounts, ?_⟩, ?_⟩
  · refine List.pairwise_append.mpr ⟨ahead.valid.chequeIds, List.pairwise_singleton _ _, ?_⟩
    intro c mem new added
    cases List.mem_singleton.mp added
    exact fresh c mem
  · intro c mem
    rcases List.mem_append.mp mem with earlier | added
    · exact ahead.valid.chequeAccounts c earlier
    · cases List.mem_singleton.mp added
      exact knows_of_required required
  · intro bank mem alive
    rw [ahead.off bank mem alive]
    have start : some (initialChequeStatus request.type) ≠ some .passed := by
      cases request.type <;> decide
    have uncleared : Cheque.effect bank.id ⟨request.id, request.type,
        some (initialChequeStatus request.type), stored request.amount, request.bankAccountId, false⟩ = 0 :=
      effect_of_not_passed start bank.id
    simp only [Book.movement, List.map_append, List.sum_append, List.map_cons, List.map_nil,
      List.sum_cons, List.sum_nil, uncleared]
    ring

theorem Ahead.clearCheque {cheque : Cheque} {request : ChequeStatusRequest} (ahead : Ahead 0 book)
    (member : cheque ∈ book.cheques) (live : cheque.isDeleted = false)
    (h : clearCheque book cheque request = .ok book') : Ahead 0 book' := by
  simp only [BankBook.clearCheque, bind_eq_ok] at h
  obtain ⟨target, -, h⟩ := h
  split at h
  · cases h
  · simp only [bind_eq_ok, pure_eq_ok] at h
    obtain ⟨bank, found, -, -, _, transition, -, -, -, -, moved, written, rfl⟩ := h
    obtain ⟨bankMem, -, -⟩ := liveBank_ok found
    have scale : AtScale 4 cheque.clearedAmount := by
      unfold Cheque.clearedAmount
      cases cheque.type
      · exact cheque.amount.2
      · exact cheque.amount.2.neg
    have wrote := ahead.putBank (x := cheque.clearedAmount) written bankMem rfl id (by
      rw [coe_stored, money_of_atScale (bank.currentBalance.2.add scale)]
      ring)
    have still : cheque ∈ moved.cheques := by
      obtain ⟨-, rfl⟩ := putBank_ok.mp written
      exact member
    have done := wrote.moveCheque .passed still (not_passed_of_transition transition)
      (knows_putBank written (knows_of_mem bankMem rfl))
    convert done using 1
    funext id
    have cleared := effect_of_passed (show (cheque.moveTo .passed (some bank.id)).isDeleted = false
      from live) rfl rfl id
    rw [cleared]
    simp [Cheque.moveTo, Cheque.clearedAmount]

theorem Ahead.updateChequeStatus {request : ChequeStatusRequest} (ahead : Ahead 0 book)
    (h : updateChequeStatus book request = .ok book') : Ahead 0 book' := by
  simp only [BankBook.updateChequeStatus, bind_eq_ok] at h
  obtain ⟨cheque, found, h⟩ := h
  obtain ⟨member, -, live⟩ := liveCheque_ok found
  split at h
  · exact ahead.clearCheque member live h
  · rename_i other
    simp only [bind_eq_ok, pure_eq_ok] at h
    obtain ⟨_, required, _, transition, -, -, rfl⟩ := h
    have known : book.Knows (if decide (request.status = .inCollection) = true then
        request.bankAccountId.getD cheque.bankAccountId else cheque.bankAccountId) := by
      have stored := ahead.valid.chequeAccounts cheque member
      split
      · rename_i collecting
        rw [if_pos collecting] at required
        cases sent : request.bankAccountId with
        | none => exact stored
        | some place =>
            rw [sent] at required
            exact knows_of_required required
      · exact stored
    have done := ahead.moveCheque request.status member (not_passed_of_transition transition) known
    convert done using 1
    funext id
    have status : (cheque.moveTo request.status (if decide (request.status = .inCollection) = true then
        request.bankAccountId.getD cheque.bankAccountId else cheque.bankAccountId)).status ≠
        some .passed := fun passed => other (Option.some.inj passed)
    rw [effect_of_not_passed status, sub_zero]

theorem Ahead.deleteCheque {id : ℕ} {refused : Bool} (ahead : Ahead 0 book)
    (h : deleteCheque book id refused = .ok book') : Ahead 0 book' := by
  simp only [BankBook.deleteCheque, bind_eq_ok, ensure_eq_ok, pure_eq_ok] at h
  obtain ⟨cheque, found, -, ⟨notPassed, -⟩, -, -, rfl⟩ := h
  obtain ⟨member, -, -⟩ := liveCheque_ok found
  have done := ahead.rewriteCheque Cheque.deleted member (fun _ => rfl)
    fun c mem => ahead.valid.chequeAccounts c mem
  convert done using 1
  funext id
  have gone := effect_of_deleted (show cheque.deleted.isDeleted = true from rfl) id
  rw [gone, effect_of_not_passed notPassed, Pi.zero_apply]
  simp

/-! ## Synchronisation -/

/-- On a book whose balances are the recomputed ones a synchronisation writes nothing. -/
theorem sync_of_kept (kept : Kept book) : recalculateAndSyncBankBalances book = .ok book := by
  have loop : ∀ banks : List Bank, (∀ bank ∈ banks, bank ∈ book.banks) →
      banks.foldlM (syncBank (treasuryBalance book)) book = .ok book := by
    intro banks
    induction banks with
    | nil => intro _; rfl
    | cons bank banks ih =>
        intro known
        have first : syncBank (treasuryBalance book) book bank = .ok book := by
          refine if_pos ?_
          by_cases deleted : bank.isDeleted = true
          · exact Or.inl deleted
          · exact Or.inr (kept bank (known bank List.mem_cons_self) (Bool.eq_false_iff.mpr deleted))
        rw [List.foldlM_cons, bind_eq_ok]
        exact ⟨book, first, ih fun b mem => known b (List.mem_cons_of_mem _ mem)⟩
  exact loop book.banks fun _ mem => mem

/-- What a synchronisation leaves of an account. -/
def Book.synced (book : Book) (bank : Bank) : Bank :=
  if bank.isDeleted = true then bank
  else { bank with currentBalance := stored (treasuryBalance book bank) }

theorem atScale_treasuryBalance (book : Book) (bank : Bank) : AtScale 4 (treasuryBalance book bank) := by
  rw [treasuryBalance_eq]
  refine bank.initialBalance.2.add (AtScale.add (.sum ?_) (.sum ?_)) <;>
    refine List.forall_mem_map.mpr fun row _ => AtScale.sub ?_ ?_ <;> split
  all_goals first | exact row.amount.2 | exact .zero 4

theorem syncBank_ok {current next : Book} {done rest : List Bank}
    (banks : current.banks = done ++ bank :: rest)
    (distinct : (current.banks.map (·.id)).Nodup)
    (h : syncBank (treasuryBalance book) current bank = .ok next) :
    next = { current with banks := done ++ book.synced bank :: rest } := by
  unfold syncBank at h
  split at h
  · rename_i stays
    cases h
    have same : book.synced bank = bank := by
      unfold Book.synced
      split
      · rfl
      · rename_i live
        rw [← stays.resolve_left live]
        congr 1
        exact Subtype.ext (money_column _)
    rw [same, ← banks]
  · rename_i moves
    obtain ⟨-, rfl⟩ := putBank_ok.mp h
    have synced : book.synced bank =
        { bank with currentBalance := stored (treasuryBalance book bank) } :=
      if_neg fun deleted => moves (.inl deleted)
    rw [banks, List.map_append, List.map_cons, List.nodup_append, List.nodup_cons] at distinct
    obtain ⟨-, ⟨notAfter, -⟩, notBefore⟩ := distinct
    rw [banks, List.map_append, List.map_cons, if_pos rfl, synced]
    congr 2
    · refine (List.map_congr_left fun b mem => if_neg fun same => ?_).trans (List.map_id' _)
      exact notBefore b.id (List.mem_map_of_mem mem) bank.id List.mem_cons_self same
    · congr 1
      refine (List.map_congr_left fun b mem => if_neg fun same => ?_).trans (List.map_id' _)
      exact notAfter (List.mem_map.mpr ⟨b, mem, same⟩)

theorem syncBanks_ok {rest : List Bank} : ∀ {current : Book} (done : List Bank),
    current.banks = done ++ rest → (current.banks.map (·.id)).Nodup →
    rest.foldlM (syncBank (treasuryBalance book)) current = .ok book' →
    book' = { current with banks := done ++ rest.map book.synced } := by
  induction rest with
  | nil =>
      intro current done banks _ h
      cases h
      rw [List.map_nil, ← banks]
  | cons bank rest ih =>
      intro current done banks distinct h
      rw [List.foldlM_cons, bind_eq_ok] at h
      obtain ⟨next, first, h⟩ := h
      cases syncBank_ok banks distinct first
      have sameId : (book.synced bank).id = bank.id := by
        unfold Book.synced
        split <;> rfl
      refine (ih (done ++ [book.synced bank]) (by simp) ?_ h).trans (by simp)
      rw [banks] at distinct
      simpa [sameId] using distinct

/-- An accepted synchronisation gives every live account the recomputed balance, writes nothing
else, and a second one changes nothing. -/
theorem sync_repairs (distinct : (book.banks.map (·.id)).Nodup)
    (h : recalculateAndSyncBankBalances book = .ok book') :
    book' = { book with banks := book.banks.map book.synced } ∧ Kept book' ∧
      recalculateAndSyncBankBalances book' = .ok book' := by
  have result : book' = { book with banks := book.banks.map book.synced } :=
    syncBanks_ok [] rfl distinct h
  have kept : Kept book' := by
    rw [result]
    refine List.forall_mem_map.mpr fun bank _ live => ?_
    by_cases deleted : bank.isDeleted = true
    · rw [Book.synced, if_pos deleted, deleted] at live
      cases live
    · simp only [Book.synced, if_neg deleted]
      exact money_of_atScale (atScale_treasuryBalance book bank)
  exact ⟨result, kept, sync_of_kept kept⟩

/-- An account with 5 whose current balance drifted to 7. -/
theorem sync_repairs_drifted :
    let account : Bank := ⟨1, stored 5, stored 7, true, false⟩
    Kept ⟨[{ account with currentBalance := stored 5 }], [], []⟩ := by
  intro account
  let book : Book := ⟨[account], [], []⟩
  have accepted : recalculateAndSyncBankBalances book =
      .ok ⟨[{ account with currentBalance := stored 5 }], [], []⟩ := by
    have computed : stored (treasuryBalance book account) = stored 5 := by decide +kernel
    have synced : syncBank (treasuryBalance book) book account = _ := if_neg (by decide +kernel)
    rw [computed] at synced
    exact (bind_eq_ok ..).mpr ⟨_, synced.trans (putBank_ok.mpr ⟨by decide +kernel, rfl⟩), rfl⟩
  exact (sync_repairs (by decide) accepted).2.1

/-! ## Runs -/

/-- A void of a payslip payment is of a row that the recomputation counts, or of an
account that is gone. -/
def PayslipVoidCounted (book : Book) : BankOperation → Prop
  | .voidPayrollPayment request =>
      ∀ payment bank, book.liveRow request.transactionId = .ok payment →
        book.anyBank payment.bankAccountId = .ok bank → payment.method = .cheque →
          bank.isDeleted = true
  | _ => True

/-- The account of a reversed payslip payment keeps its flag. -/
theorem isDeleted_reverseTreasuryRow {ids : ReversalIds} (member : bank ∈ book.banks)
    (paid : row.payrollId ≠ none) (h : reverseTreasuryRow book row bank ids = .ok book') :
    (∃ b ∈ book'.banks, b.id = bank.id) ∧
      ∀ b ∈ book'.banks, b.id = bank.id → b.isDeleted = bank.isDeleted := by
  simp only [reverseTreasuryRow, bind_eq_ok, pure_eq_ok] at h
  obtain ⟨moved, returned, reversed, inserted, rfl⟩ := h
  obtain ⟨-, -, rfl⟩ := insertRow_ok.mp inserted
  have had : row.movedBankBalance = true := by
    simp [TreasuryRow.movedBankBalance, Option.isSome_iff_ne_none, paid]
  rw [returnAmount, if_pos had] at returned
  have known := knows_writeBankBalance returned (knows_of_mem member rfl)
  refine ⟨known bank.id rfl, ?_⟩
  simp only [writeBankBalance, bind_eq_ok] at returned
  obtain ⟨-, -, written⟩ := returned
  obtain ⟨-, rfl⟩ := putBank_ok.mp written
  intro b mem same
  obtain ⟨c, -, rfl⟩ := List.mem_map.mp mem
  split
  · rfl
  · rename_i other
    rw [if_neg other] at same
    exact absurd same other

/-- A payslip payment leaves its account ahead exactly when it is of method `cheque`. -/
theorem uncounted_eq_zero_iff (type : row.type = .payment) (paid : row.payrollId ≠ none)
    (amount : 0 < (row.amount : ℚ)) : row.uncounted = 0 ↔ row.method ≠ .cheque := by
  unfold TreasuryRow.uncounted
  by_cases method : row.method = .cheque
  · simp [method, paid, type, TreasuryType.opposite, TreasuryType.signed, amount.ne']
  · simp [method]

theorem Off.eq_zero (off : Off d book) (kept : Kept book) (member : bank ∈ book.banks)
    (live : bank.isDeleted = false) : d bank.id = 0 := by
  have first := off bank member live
  have second := kept_iff_off.mp kept bank member live
  rw [Pi.zero_apply, add_zero] at second
  linarith

theorem Ahead.voidPayrollPayment {request : PayrollVoidRequest} (ahead : Ahead 0 book)
    (h : BankBook.voidPayrollPayment book request = .ok book') :
    book'.Valid ∧ (Kept book' ↔ PayslipVoidCounted book (.voidPayrollPayment request)) := by
  simp only [BankBook.voidPayrollPayment, bind_eq_ok, ensure_eq_ok] at h
  obtain ⟨payment, located, -, ⟨payroll, type, -⟩, bank, found, -, -, -, -, reversed⟩ := h
  obtain ⟨member, place⟩ := anyBank_ok found
  have paid : payment.payrollId ≠ none := by
    rw [payroll]
    exact Option.some_ne_none _
  have done := ahead.reverseTreasuryRow member place reversed
  rw [zero_add] at done
  obtain ⟨⟨here, hereMem, hereId⟩, flags⟩ := isDeleted_reverseTreasuryRow member paid reversed
  have zero := uncounted_eq_zero_iff type paid (ahead.valid.amounts payment (liveRow_ok located).1)
  refine ⟨done.valid, ?_, ?_⟩
  · intro kept payment' bank' located' found' method
    cases located.symm.trans located'
    cases found.symm.trans found'
    by_contra live
    have open_ : here.isDeleted = false := (flags here hereMem hereId).trans (Bool.eq_false_iff.mpr live)
    have none := done.off.eq_zero kept hereMem open_
    rw [hereId, Pi.single_eq_same] at none
    exact zero.mp none method
  · intro counted
    refine kept_iff_off.mpr fun b mem live => ?_
    rw [done.off b mem live]
    congr 1
    by_cases method : payment.method = .cheque
    · -- the account is deleted, so it is none of the live ones
      have gone := counted payment bank located found method
      have other : b.id ≠ bank.id := fun same => by
        rw [flags b mem same, gone] at live
        cases live
      rw [Pi.single_eq_of_ne other, Pi.zero_apply]
    · rw [zero.mpr method, Pi.single_zero]

/-- One operation keeps the tables valid, and keeps the balances the recomputed ones
exactly when it voids no uncounted payslip payment. -/
theorem bankStep_kept_iff {op : BankOperation} (valid : book.Valid) (kept : Kept book)
    (h : bankStep book op = .ok book') :
    book'.Valid ∧ (Kept book' ↔ PayslipVoidCounted book op) := by
  have ahead : Ahead 0 book := ⟨valid, kept_iff_off.mp kept⟩
  have counted : Ahead 0 book' → book'.Valid ∧ (Kept book' ↔ True) := fun done =>
    ⟨done.valid, iff_of_true (kept_iff_off.mpr done.off) trivial⟩
  cases op with
  | createBankAccount request => exact counted (ahead.createBankAccount h)
  | updateBankAccount edit => exact counted (ahead.updateBankAccount h)
  | deleteBankAccount id refused => exact counted (ahead.deleteBankAccount h)
  | createTreasuryTransaction type request =>
      simp only [bankStep, createTreasuryTransaction, bind_eq_ok, ensure_eq_ok] at h
      obtain ⟨-, -, -, method, bank, found, posted⟩ := h
      exact counted (ahead.postTreasuryRow (liveBank_ok found).1 method posted)
  | createTreasuryTransfer request => exact counted (ahead.createTreasuryTransfer h)
  | voidTreasuryTransaction request => exact counted (ahead.voidTreasuryTransaction h)
  | registerPayrollPayment payrollId request =>
      simp only [bankStep, registerPayrollPayment, bind_eq_ok, ensure_eq_ok] at h
      obtain ⟨-, method, bank, found, posted⟩ := h
      exact counted (ahead.postTreasuryRow (liveBank_ok found).1 method posted)
  | voidPayrollPayment request => exact ahead.voidPayrollPayment h
  | createPettyCashExpense request =>
      simp only [bankStep, createPettyCashExpense, bind_eq_ok] at h
      obtain ⟨bank, found, posted⟩ := h
      exact counted (ahead.postTreasuryRow (liveBank_ok found).1 TreasuryMethod.noConfusion posted)
  | createStatutoryRemittance request =>
      simp only [bankStep, createStatutoryRemittance, bind_eq_ok, ensure_eq_ok] at h
      obtain ⟨-, method, bank, found, posted⟩ := h
      exact counted (ahead.postTreasuryRow (liveBank_ok found).1 method posted)
  | createCheque request => exact counted (ahead.createCheque h)
  | updateChequeStatus request => exact counted (ahead.updateChequeStatus h)
  | deleteCheque id refused => exact counted (ahead.deleteCheque h)
  | recalculateAndSyncBankBalances =>
      cases (sync_of_kept kept).symm.trans h
      exact counted ahead

/-- A valid book whose current balances are the recomputed ones. -/
structure KeptBook where
  book : Book
  valid : book.Valid
  kept : Kept book

/-- In every state of a run each live account's current balance is the recomputed one and
a synchronisation changes nothing, if and only if no accepted operation of the run voids
a payslip payment of method `cheque` on a live account. -/
theorem balance_recomputed_iff (start : KeptBook) (ops : List BankOperation) :
    (∀ moment, let book := run bankStep start.book (ops.take moment)
      Kept book ∧ recalculateAndSyncBankBalances book = .ok book) ↔
    Along bankStep PayslipVoidCounted start.book ops := by
  constructor
  · intro good
    refine along_of_prefixes (I := Kept) (J := fun book => book.Valid ∧ Kept book) ?_
      ⟨start.valid, start.kept⟩ fun moment => (good moment).1
    intro book op book' before accepted kept
    obtain ⟨valid, iff⟩ := bankStep_kept_iff before.1 before.2 accepted
    exact ⟨iff.mp kept, valid, kept⟩
  · intro along moment
    have kept := run_invariant_along (I := fun book : Book => book.Valid ∧ Kept book) ?_
      ⟨start.valid, start.kept⟩ (along.take moment)
    · exact ⟨kept.2, sync_of_kept kept.2⟩
    · intro book op book' before meets accepted
      obtain ⟨valid, iff⟩ := bankStep_kept_iff before.1 before.2 accepted
      exact ⟨valid, iff.mpr meets⟩

/-- A payslip was paid 200 with the method `cheque` from an account with 1000 that was
synchronised since; its void raises the current balance to 1200, which a synchronisation
takes back to 1000. -/
theorem payslip_void_breaks_balance :
    ∃ (start : KeptBook) (void : BankOperation), ∃ bank ∈ (run bankStep start.book [void]).banks,
      bank.isDeleted = false ∧ (bank.currentBalance : ℚ) = 1200 ∧
      treasuryBalance (run bankStep start.book [void]) bank = 1000 ∧
      (run bankStep start.book [void, .recalculateAndSyncBankBalances]).banks.map
        (fun bank => (bank.currentBalance : ℚ)) = [1000] := by
  let account : Bank := ⟨1, stored 1000, stored 1000, true, false⟩
  let payment : TreasuryRow := ⟨5, .payment, .cheque, stored 200, some 1, some 3, some 7, none, false, false⟩
  let book : Book := ⟨[account], [payment], []⟩
  let start : KeptBook :=
    { book := book
      valid := ⟨by simp [book], by decide +kernel, by simp [book, Book.Knows, account, payment],
        by simp [book]⟩
      kept := by unfold Kept; decide +kernel }
  refine ⟨start, .voidPayrollPayment ⟨5, 7, some 4, 6, false⟩,
    ⟨1, stored 1000, stored 1200, true, false⟩, ?_⟩
  decide +kernel

end PapitalErp.BankBook
