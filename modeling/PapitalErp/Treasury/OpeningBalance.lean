import PapitalErp.Treasury.OpeningVouchers

/-!
# The opening vouchers put the initial balance on the account

Along every run of `openingStep` from an empty book the vouchers that an account's
lookups find are its own, what they put on its bank detail is its initial balance,
and the balance comparison counts that balance once. Two things are left out, by
a condition on the requests of the run: an account whose id is the id of a voucher
that was reversed, and a code spelled like the reference of a reversal or a
correction.

`Frame` says which voucher belongs to which account; the deletion of an account
takes that account out of it (`gone`) while its vouchers are voided. `Sums` says
what the vouchers of each account add up to.
-/

namespace PapitalErp.BankOpening

open Rounding Transition FilteredSums

variable {capital : ℕ} {book book' : Book} {bank : Bank} {voucher v w : Voucher} {k : ℕ}
variable {gone pending : ℕ → Prop}

/-! ## References and rows -/

theorem hasPrefix_append (text rest : String) : hasPrefix (text ++ rest) text = true := by
  simp [hasPrefix]

theorem isReversalReference_reversal (n : ℕ) : isReversalReference (reversalReference n) = true := by
  simp [isReversalReference, reversalReference, hasPrefix_append]

/-- A reversal's reference is one of the reserved ones. -/
theorem reserved_of_reversal {text : String} (h : isReversalReference text = true) :
    reservedPrefix text = true := by
  simp only [isReversalReference, reservedPrefix, List.any_cons, List.any_nil, Bool.or_false,
    Bool.or_eq_true] at h ⊢
  tauto

/-- A voucher with an account's code reverses nothing. -/
theorem reversedBy_of_code (code : reservedPrefix w.referenceNumber = false) :
    v.reversedBy w = false := by
  by_contra reversed
  simp only [Voucher.reversedBy, Bool.not_eq_false, Bool.and_eq_true, List.contains_cons,
    List.contains_nil, Bool.or_false, Bool.or_eq_true, beq_iff_eq] at reversed
  have text := reversed.2
  rcases text with text | text
  · simp [text, reservedPrefix, reversalReference, hasPrefix_append] at code
  · simp [text, reservedPrefix, hasPrefix_append] at code

theorem net_voucher (capital ledger : ℕ) (type : VoucherType) (amount : ℚ) (ids : VoucherIds) :
    (bank.voucher capital ledger type amount ids).net k = if k = bank.id then amount else 0 := by
  rcases eq_or_ne k bank.id with rfl | other
  · rcases lt_or_ge 0 amount with positive | negative
    · simp [Bank.voucher, Voucher.net, openingItems, positive, abs_of_pos positive]
    · simp [Bank.voucher, Voucher.net, openingItems, negative.not_gt, abs_of_nonpos negative]
  · simp [Bank.voucher, Voucher.net, openingItems, other, other.symm]

theorem net_reversal (ids : VoucherIds) : (voucher.reversal ids).net k = -voucher.net k := by
  have items : ∀ items : List VoucherItem,
      sumWhere (fun item => decide (item.bankDetail = some k)) (fun item => item.debit - item.credit)
        (items.map VoucherItem.inverted) =
      -sumWhere (fun item => decide (item.bankDetail = some k)) (fun item => item.debit - item.credit)
        items := by
    intro items
    induction items with
    | nil => simp
    | cons item items ih =>
        rw [List.map_cons, sumWhere_cons, sumWhere_cons, ih]
        by_cases here : item.bankDetail = some k
        · simp only [VoucherItem.inverted, here, decide_true, if_true]
          ring
        · simp [VoucherItem.inverted, here]
  exact items voucher.items

/-! ## Which voucher belongs to which account -/

/-- The vouchers seen from a live account: those that refer to it are its own and not
reversed, and the others put nothing on its detail. -/
structure Account (vouchers : List Voucher) (bankId : ℕ) : Prop where
  own : ∀ v ∈ vouchers, v.refersTo bankId = true → Book.isOpening v = true
  other : ∀ v ∈ vouchers, v.isDeleted = false → v.refersTo bankId = false → v.net bankId = 0
  standing : ∀ v ∈ vouchers, v.refersTo bankId = true → ∀ w ∈ vouchers, v.reversedBy w = false

/-- A voucher is an opening voucher or an adjustment, or reverses one. -/
def Kind (vouchers : List Voucher) (v : Voucher) : Prop :=
  Book.isOpening v = true ∨
    isReversalReference v.referenceNumber = true ∧
      ∃ o ∈ vouchers, o.id = v.referenceId ∧ Book.isOpening o = true

/-- The details of a voucher's rows are accounts. -/
def Detailed (banks : List Bank) (v : Voucher) : Prop :=
  ∀ item ∈ v.items, ∀ bankId ∈ item.bankDetail, ∃ bank ∈ banks, bank.id = bankId

structure Frame (gone : ℕ → Prop) (book : Book) : Prop where
  bankIds : book.banks.Pairwise fun b c => b.id ≠ c.id
  voucherIds : book.vouchers.Pairwise fun v w => v.id ≠ w.id
  codes : ∀ bank ∈ book.banks, reservedPrefix bank.code = false
  kinds : ∀ v ∈ book.vouchers, Kind book.vouchers v
  details : ∀ v ∈ book.vouchers, Detailed book.banks v
  accounts : ∀ bank ∈ book.banks, bank.isDeleted = false → ¬gone bank.id →
    Account book.vouchers bank.id

/-- Every voucher of the book has a source, so the voucher page refuses to reverse or
delete it. -/
theorem Frame.hasSource (frame : Frame gone book) (member : v ∈ book.vouchers) :
    book.hasSource 5 v = true := by
  rcases frame.kinds v member with opening | ⟨reference, o, known, same, opening⟩
  · simp [Book.hasSource, opening]
  · have source : book.hasSource 4 o = true := by simp [Book.hasSource, opening]
    rw [Book.hasSource, reference, Bool.true_and, Bool.or_eq_true, List.any_eq_true]
    exact Or.inr ⟨o, known, by simp [same, source]⟩

/-- What the vouchers that refer to an account put on it. -/
def Book.opened (book : Book) (bankId : ℕ) : ℚ :=
  sumWhere (Voucher.refersTo bankId) (Voucher.net bankId) book.vouchers

def Book.issued (book : Book) (bankId : ℕ) : Bool := book.vouchers.any (Voucher.refersTo bankId)

/-- The account's workflow was started and has not been approved. -/
def Bank.unapproved (bank : Bank) : Prop := bank.workflow ≠ .none ∧ bank.workflow ≠ .approved

/-- What the vouchers of a live account add up to; without one its balance is nothing,
its workflow has not been approved, or its voucher is still to be issued (`pending`). -/
structure Balanced (pending : ℕ → Prop) (book : Book) (bank : Bank) : Prop where
  issued : book.issued bank.id = true → book.opened bank.id = bank.initialBalance
  waiting : book.issued bank.id = false →
    pending bank.id ∨ (bank.initialBalance : ℚ) = 0 ∨ bank.unapproved

def Sums (gone pending : ℕ → Prop) (book : Book) : Prop :=
  ∀ bank ∈ book.banks, bank.isDeleted = false → ¬gone bank.id → Balanced pending book bank

structure Inv (gone pending : ℕ → Prop) (book : Book) : Prop where
  frame : Frame gone book
  sums : Sums gone pending book

/-- Nothing is left out. -/
abbrev nobody : ℕ → Prop := fun _ => False

theorem opened_of_not_issued (h : book.issued k = false) : book.opened k = 0 :=
  sumWhere_eq_zero fun v mem => by
    rw [Book.issued, List.any_eq_false] at h
    exact Bool.eq_false_iff.mpr (h v mem)

/-! ## A voucher joins the book -/

theorem insertVoucher_ok :
    book.insertVoucher v = .ok book' ↔ (∀ w ∈ book.vouchers, w.id ≠ v.id) ∧
      { book with vouchers := book.vouchers ++ [v] } = book' := by
  simp only [Book.insertVoucher, bind_eq_ok, ensure_eq_ok, pure_eq_ok, exists_and_left, exists_const]

/-- An account does not notice a voucher that refers to another one, puts nothing on its
detail and reverses none of its vouchers. -/
theorem Account.insert {vouchers : List Voucher} (account : Account vouchers k)
    (far : v.refersTo k = false) (nothing : v.net k = 0)
    (quiet : ∀ w ∈ vouchers, w.refersTo k = true → w.reversedBy v = false) :
    Account (vouchers ++ [v]) k := by
  refine ⟨?_, ?_, ?_⟩
  · intro w mem refers
    rcases List.mem_append.mp mem with earlier | added
    · exact account.own w earlier refers
    · cases List.mem_singleton.mp added
      rw [far] at refers
      cases refers
  · intro w mem live refers
    rcases List.mem_append.mp mem with earlier | added
    · exact account.other w earlier live refers
    · cases List.mem_singleton.mp added
      exact nothing
  · intro w mem refers u mem'
    rcases List.mem_append.mp mem with earlier | added
    · rcases List.mem_append.mp mem' with earlier' | added'
      · exact account.standing w earlier refers u earlier'
      · cases List.mem_singleton.mp added'
        exact quiet w earlier refers
    · cases List.mem_singleton.mp added
      rw [far] at refers
      cases refers

/-- A voucher joins: it is of a known kind, its details are accounts, and every account
but one either does not notice it or is the one it belongs to. -/
theorem Frame.insert (frame : Frame gone book) (h : book.insertVoucher v = .ok book')
    (kind : Kind book.vouchers v) (details : Detailed book.banks v)
    (accounts : ∀ bank ∈ book.banks, bank.isDeleted = false → ¬gone bank.id →
      Account book.vouchers bank.id → Account (book.vouchers ++ [v]) bank.id) :
    Frame gone book' := by
  obtain ⟨fresh, rfl⟩ := insertVoucher_ok.mp h
  have grow : ∀ u, Kind book.vouchers u → Kind (book.vouchers ++ [v]) u := by
    intro u kind
    rcases kind with opening | ⟨reference, o, known, rest⟩
    · exact Or.inl opening
    · exact Or.inr ⟨reference, o, List.mem_append_left _ known, rest⟩
  refine ⟨frame.bankIds, ?_, frame.codes, ?_, ?_, ?_⟩
  · refine List.pairwise_append.mpr ⟨frame.voucherIds, List.pairwise_singleton _ _, ?_⟩
    intro w mem u added
    cases List.mem_singleton.mp added
    exact fresh w mem
  · intro u mem
    rcases List.mem_append.mp mem with earlier | added
    · exact grow u (frame.kinds u earlier)
    · cases List.mem_singleton.mp added
      exact grow v kind
  · intro u mem
    rcases List.mem_append.mp mem with earlier | added
    · exact frame.details u earlier
    · cases List.mem_singleton.mp added
      exact details
  · intro bank mem live stays
    exact accounts bank mem live stays (frame.accounts bank mem live stays)

/-- A reversed voucher is in the book, so a new one is not reversed yet. -/
theorem Frame.not_reversed (frame : Frame gone book) (fresh : ∀ u ∈ book.vouchers, u.id ≠ v.id)
    (member : w ∈ book.vouchers) : v.reversedBy w = false := by
  rcases frame.kinds w member with opening | ⟨-, o, known, same, -⟩
  · refine reversedBy_of_code ?_
    simp only [Book.isOpening, Bool.and_eq_true, Bool.not_eq_true'] at opening
    exact opening.1
  · have other : (v.id == w.referenceId) = false := by
      rw [← same]
      exact beq_eq_false_iff_ne.mpr (fresh o known).symm
    simp [Voucher.reversedBy, other]

section Own

variable {ledger : ℕ} {type : VoucherType} {amount : ℚ} {ids : VoucherIds}

/-- A voucher of a live account joins the vouchers of that account. -/
theorem Frame.insertOwn (frame : Frame gone book) (member : bank ∈ book.banks)
    (code : reservedPrefix bank.code = false)
    (h : book.insertVoucher (bank.voucher capital ledger type amount ids) = .ok book') :
    Frame gone book' := by
  obtain ⟨fresh, -⟩ := insertVoucher_ok.mp h
  have opening : Book.isOpening (bank.voucher capital ledger type amount ids) = true := by
    simp [Book.isOpening, Bank.voucher, openingItems, code]
  refine frame.insert h (Or.inl opening) ?_ ?_
  · intro item mem bankId named
    simp only [Bank.voucher, openingItems, List.mem_cons, List.not_mem_nil, or_false] at mem
    rcases mem with rfl | rfl
    · cases Option.mem_some_iff.mp named
      exact ⟨bank, member, rfl⟩
    · cases named
  · intro b mem live stays account
    have quiet : ∀ w ∈ book.vouchers, w.refersTo b.id = true →
        w.reversedBy (bank.voucher capital ledger type amount ids) = false :=
      fun w _ _ => reversedBy_of_code code
    by_cases same : bank.id = b.id
    · refine ⟨?_, ?_, ?_⟩
      · intro w mem refers
        rcases List.mem_append.mp mem with earlier | added
        · exact account.own w earlier refers
        · cases List.mem_singleton.mp added
          exact opening
      · intro w mem live refers
        rcases List.mem_append.mp mem with earlier | added
        · exact account.other w earlier live refers
        · cases List.mem_singleton.mp added
          simp [Voucher.refersTo, Bank.voucher, same] at refers
      · intro w mem refers u mem'
        rcases List.mem_append.mp mem with earlier | added
        · rcases List.mem_append.mp mem' with earlier' | added'
          · exact account.standing w earlier refers u earlier'
          · cases List.mem_singleton.mp added'
            exact quiet w earlier refers
        · cases List.mem_singleton.mp added
          rcases List.mem_append.mp mem' with earlier' | added'
          · exact frame.not_reversed fresh earlier'
          · cases List.mem_singleton.mp added'
            exact reversedBy_of_code code
    · refine account.insert ?_ ?_ quiet
      · simp [Voucher.refersTo, Bank.voucher, same]
      · rw [net_voucher, if_neg (Ne.symm same)]

theorem opened_insertOwn (h : book.insertVoucher (bank.voucher capital ledger type amount ids) = .ok book') :
    book'.opened k = book.opened k + if k = bank.id then amount else 0 := by
  obtain ⟨-, rfl⟩ := insertVoucher_ok.mp h
  rw [Book.opened, Book.opened, sumWhere_append, sumWhere_cons, sumWhere_nil, net_voucher, add_zero]
  by_cases same : k = bank.id
  · simp [Voucher.refersTo, Bank.voucher, same]
  · simp [same]

theorem issued_insertOwn (h : book.insertVoucher (bank.voucher capital ledger type amount ids) = .ok book') :
    book'.issued k = (book.issued k || decide (bank.id = k)) := by
  obtain ⟨-, rfl⟩ := insertVoucher_ok.mp h
  simp [Book.issued, Voucher.refersTo, Bank.voucher]

theorem banks_insertVoucher (h : book.insertVoucher v = .ok book') : book'.banks = book.banks := by
  obtain ⟨-, rfl⟩ := insertVoucher_ok.mp h
  rfl

end Own

/-! ## The accounts' rows -/

theorem liveBank_ok (h : book.liveBank k = .ok bank) :
    bank ∈ book.banks ∧ bank.id = k ∧ bank.isDeleted = false := by
  unfold Book.liveBank at h
  split at h
  · cases h
  · rename_i found
    cases h
    exact ⟨List.mem_of_find?_eq_some found, by simpa using List.find?_some found⟩

theorem liveVoucher_ok (h : book.liveVoucher k = .ok v) :
    v ∈ book.vouchers ∧ v.id = k ∧ v.isDeleted = false := by
  unfold Book.liveVoucher at h
  split at h
  · cases h
  · rename_i found
    cases h
    exact ⟨List.mem_of_find?_eq_some found, by simpa using List.find?_some found⟩

/-- A row of the book after an account's row was written. -/
theorem mem_putBank {new b : Bank} (mem : b ∈ (book.putBank new).banks) :
    b = new ∨ b ∈ book.banks ∧ b.id ≠ new.id := by
  obtain ⟨c, earlier, rfl⟩ := List.mem_map.mp mem
  split
  · exact Or.inl rfl
  · exact Or.inr ⟨earlier, ‹_›⟩

theorem Detailed.mono {banks banks' : List Bank} (h : ∀ b ∈ banks, ∃ c ∈ banks', c.id = b.id)
    (detailed : Detailed banks v) : Detailed banks' v := by
  intro item mem bankId named
  obtain ⟨b, known, rfl⟩ := detailed item mem bankId named
  exact h b known

/-- A write of an account's row keeps its id. What is left out may change to `gone'`, as
long as no live row that was left out comes in. -/
theorem Frame.putBank {new : Bank} {gone' : ℕ → Prop} (frame : Frame gone book)
    (member : bank ∈ book.banks) (sameId : new.id = bank.id) (code : reservedPrefix new.code = false)
    (here : new.isDeleted = false → ¬gone' new.id → bank.isDeleted = false ∧ ¬gone new.id)
    (others : ∀ b ∈ book.banks, b.id ≠ new.id → ¬gone' b.id → ¬gone b.id) :
    Frame gone' (book.putBank new) := by
  have ids : ∀ b ∈ book.banks, ∃ c ∈ (book.putBank new).banks, c.id = b.id := by
    intro b mem
    refine ⟨_, List.mem_map_of_mem mem, ?_⟩
    split
    · exact Eq.symm ‹_›
    · rfl
  refine ⟨?_, frame.voucherIds, ?_, frame.kinds, fun v mem => (frame.details v mem).mono ids, ?_⟩
  · refine List.pairwise_map.mpr (frame.bankIds.imp fun {b c} apart => ?_)
    split <;> split
    · exact absurd ((Eq.trans ‹_› (Eq.symm ‹_›))) apart
    · exact fun same => ‹¬c.id = new.id› same.symm
    · exact fun same => ‹¬b.id = new.id› same
    · exact apart
  · intro b mem
    rcases mem_putBank mem with rfl | ⟨earlier, -⟩
    · exact code
    · exact frame.codes b earlier
  · intro b mem live stays
    rcases mem_putBank mem with rfl | ⟨earlier, other⟩
    · obtain ⟨lived, stayed⟩ := here live stays
      have account := frame.accounts bank member lived (sameId ▸ stayed)
      rwa [← sameId] at account
    · exact frame.accounts b earlier live (others b earlier other stays)

theorem Sums.putBank {new : Bank} {gone' pending' : ℕ → Prop} (sums : Sums gone pending book)
    (here : new.isDeleted = false → ¬gone' new.id → Balanced pending' book new)
    (others : ∀ b ∈ book.banks, b.id ≠ new.id → ¬gone' b.id → ¬gone b.id)
    (waits : ∀ k, k ≠ new.id → pending k → pending' k) :
    Sums gone' pending' (book.putBank new) := by
  intro b mem live stays
  rcases mem_putBank mem with rfl | ⟨earlier, other⟩
  · have balanced := here live stays
    exact ⟨balanced.issued, balanced.waiting⟩
  · have balanced := sums b earlier live (others b earlier other stays)
    exact ⟨balanced.issued, fun none => (balanced.waiting none).imp_left (waits b.id other)⟩

/-! ## Issuing an opening voucher -/

theorem Inv.issue {ids : VoucherIds} (inv : Inv nobody (fun bankId => bankId = k) book)
    (h : issueTreasuryOpeningVoucher capital book k ids = .ok book') : Inv nobody nobody book' := by
  simp only [issueTreasuryOpeningVoucher, bind_eq_ok] at h
  obtain ⟨bank, found, h⟩ := h
  obtain ⟨member, rfl, live⟩ := liveBank_ok found
  have unique : ∀ b ∈ book.banks, b.id = bank.id → b = bank :=
    fun b mem same => eq_of_key_eq inv.frame.bankIds mem member same
  split at h
  · rename_i zero
    cases h
    refine ⟨inv.frame, fun b mem alive stays => ?_⟩
    have balanced := inv.sums b mem alive stays
    refine ⟨balanced.issued, fun none => Or.inr ?_⟩
    rcases balanced.waiting none with same | settled
    · rw [unique b mem same]
      exact Or.inl zero
    · exact settled
  · split at h
    · cases h
    · split at h
      · rename_i issued
        cases h
        refine ⟨inv.frame, fun b mem alive stays => ?_⟩
        have balanced := inv.sums b mem alive stays
        refine ⟨balanced.issued, fun none => Or.inr ?_⟩
        rcases balanced.waiting none with same | settled
        · rw [same, Book.issued, issued] at none
          cases none
        · exact settled
      · rename_i ledger _ issued
        have before : book.issued bank.id = false := Bool.eq_false_iff.mpr issued
        refine ⟨inv.frame.insertOwn member (inv.frame.codes bank member) h, ?_⟩
        intro b mem alive stays
        rw [banks_insertVoucher h] at mem
        have balanced := inv.sums b mem alive stays
        by_cases same : b.id = bank.id
        · rw [unique b mem same]
          refine ⟨fun _ => ?_, fun none => ?_⟩
          · rw [opened_insertOwn h, if_pos rfl, opened_of_not_issued before, zero_add]
          · rw [issued_insertOwn h, decide_eq_true rfl, Bool.or_true] at none
            cases none
        · have still : book'.issued b.id = book.issued b.id := by
            rw [issued_insertOwn h, decide_eq_false (Ne.symm same), Bool.or_false]
          refine ⟨fun issued => ?_, fun none => ?_⟩
          · rw [opened_insertOwn h, if_neg same, add_zero]
            exact balanced.issued (still ▸ issued)
          · exact Or.inr ((balanced.waiting (still ▸ none)).resolve_left same)

/-! ## The operations -/

theorem net_of_unknown (detailed : Detailed book.banks v) (unknown : ∀ b ∈ book.banks, b.id ≠ k) :
    v.net k = 0 := by
  refine sumWhere_eq_zero fun item mem => decide_eq_false fun named => ?_
  obtain ⟨b, known, same⟩ := detailed item mem k (Option.mem_def.mpr named)
  exact unknown b known same

theorem Inv.createBankAccount {request : BankRequest} (inv : Inv nobody nobody book)
    (code : reservedPrefix request.code = false) (unreferenced : book.issued request.id = false)
    (h : createBankAccount capital book request = .ok book') : Inv nobody nobody book' := by
  simp only [BankOpening.createBankAccount, bind_eq_ok, ensure_eq_ok] at h
  obtain ⟨-, -, -, -, -, fresh, -, -, h⟩ := h
  have silent : ∀ v ∈ book.vouchers, ¬v.refersTo request.id = true := by
    rw [Book.issued, List.any_eq_false] at unreferenced
    exact unreferenced
  have created : ∀ (waits : Bool) (pending : ℕ → Prop),
      (pending request.id ∨ ((stored request.initialBalance : MoneyColumn) : ℚ) = 0 ∨ waits = true) →
      Inv nobody pending { book with banks := book.banks ++ [⟨request.id, request.code,
        stored request.initialBalance, request.accountId, if waits then .inProgress else .none, false⟩] } := by
    intro waits pending reason
    refine ⟨⟨?_, inv.frame.voucherIds, ?_, inv.frame.kinds, ?_, ?_⟩, ?_⟩
    · refine List.pairwise_append.mpr ⟨inv.frame.bankIds, List.pairwise_singleton _ _, ?_⟩
      intro b mem c added
      cases List.mem_singleton.mp added
      exact fresh b mem
    · intro b mem
      rcases List.mem_append.mp mem with earlier | added
      · exact inv.frame.codes b earlier
      · cases List.mem_singleton.mp added
        exact code
    · intro v mem
      exact (inv.frame.details v mem).mono fun b known => ⟨b, List.mem_append_left _ known, rfl⟩
    · intro b mem live stays
      rcases List.mem_append.mp mem with earlier | added
      · exact inv.frame.accounts b earlier live stays
      · cases List.mem_singleton.mp added
        exact ⟨fun v mem refers => absurd refers (silent v mem),
          fun v mem _ _ => net_of_unknown (inv.frame.details v mem) fresh,
          fun v mem refers => absurd refers (silent v mem)⟩
    · intro b mem live stays
      rcases List.mem_append.mp mem with earlier | added
      · have balanced := inv.sums b earlier live stays
        exact ⟨balanced.issued, fun none => (balanced.waiting none).imp_left False.elim⟩
      · cases List.mem_singleton.mp added
        refine ⟨fun issued => ?_, fun _ => reason.imp_right (Or.imp_right fun waits => ?_)⟩
        · exact absurd issued (Bool.eq_false_iff.mp unreferenced)
        · simp [Bank.unapproved, waits]
  split at h
  · exact (created _ (fun bankId => bankId = request.id) (Or.inl rfl)).issue h
  · rename_i settled
    cases h
    refine created _ _ (Or.inr ?_)
    by_cases zero : ((stored request.initialBalance : MoneyColumn) : ℚ) = 0
    · exact Or.inl zero
    · exact Or.inr (Bool.of_not_eq_false fun waits => settled ⟨zero, waits⟩)

/-- A write of an account's workflow, to a state that waits or one that issues its voucher. -/
theorem Inv.putWorkflow {workflow : Workflow} (inv : Inv nobody nobody book)
    (member : bank ∈ book.banks) (live : bank.isDeleted = false)
    (moved : pending bank.id ∨ workflow ≠ .none ∧ workflow ≠ .approved) :
    Inv nobody pending (book.putBank { bank with workflow := workflow }) := by
  refine ⟨inv.frame.putBank member rfl (inv.frame.codes bank member)
    (fun _ stays => ⟨live, stays⟩) (fun _ _ _ stays => stays), ?_⟩
  refine inv.sums.putBank (fun _ stays => ?_) (fun _ _ _ stays => stays) (fun _ _ waits => waits.elim)
  have balanced := inv.sums bank member live stays
  exact ⟨balanced.issued, fun _ => moved.imp_right Or.inr⟩

theorem Inv.moveWorkflow {target : Workflow} {ids : VoucherIds} {refused : Bool}
    (inv : Inv nobody nobody book)
    (h : moveWorkflow capital book k target ids refused = .ok book') : Inv nobody nobody book' := by
  simp only [BankOpening.moveWorkflow, bind_eq_ok] at h
  obtain ⟨bank, found, -, -, h⟩ := h
  obtain ⟨member, rfl, live⟩ := liveBank_ok found
  cases target with
  | none => cases h
  | inProgress =>
      simp only [bind_eq_ok, pure_eq_ok] at h
      obtain ⟨-, -, rfl⟩ := h
      exact inv.putWorkflow member live (Or.inr ⟨Workflow.noConfusion, Workflow.noConfusion⟩)
  | rejected =>
      simp only [bind_eq_ok, pure_eq_ok] at h
      obtain ⟨-, -, rfl⟩ := h
      exact inv.putWorkflow member live (Or.inr ⟨Workflow.noConfusion, Workflow.noConfusion⟩)
  | terminated =>
      simp only [bind_eq_ok, pure_eq_ok] at h
      obtain ⟨-, -, rfl⟩ := h
      exact inv.putWorkflow member live (Or.inr ⟨Workflow.noConfusion, Workflow.noConfusion⟩)
  | approved =>
      simp only [bind_eq_ok] at h
      obtain ⟨-, -, issued⟩ := h
      have expected : Inv nobody (fun bankId => bankId = bank.id)
          (book.putBank { bank with workflow := .approved }) :=
        inv.putWorkflow member live (Or.inl rfl)
      exact expected.issue issued

theorem Inv.updateBankAccount {edit : BankEdit} (inv : Inv nobody nobody book)
    (code : ∀ code ∈ edit.code, reservedPrefix code = false)
    (h : updateBankAccount capital book edit = .ok book') : Inv nobody nobody book' := by
  simp only [BankOpening.updateBankAccount, bind_eq_ok] at h
  obtain ⟨existing, found, -, -, -, -, -, -, h⟩ := h
  obtain ⟨member, -, live⟩ := liveBank_ok found
  have codes : reservedPrefix (existing.edited edit).code = false := by
    cases sent : edit.code with
    | none => simpa [Bank.edited, sent] using inv.frame.codes existing member
    | some text => simpa [Bank.edited, sent] using code text (by simp [sent])
  have balanced := inv.sums existing member live not_false
  set newInitial := FinancialDecimal.round (edit.initialBalance.getD existing.initialBalance) 4
    with newInitial_def
  have framed : ∀ initialBalance : MoneyColumn, Frame nobody
      (book.putBank ((existing.edited edit).withInitialBalance initialBalance)) := fun _ =>
    inv.frame.putBank member rfl codes (fun _ stays => ⟨live, stays⟩) (fun _ _ _ stays => stays)
  split at h
  · cases h
    exact ⟨framed existing.initialBalance, inv.sums.putBank
      (fun _ _ => ⟨balanced.issued, balanced.waiting⟩) (fun _ _ _ stays => stays) (fun _ _ waits => waits)⟩
  · simp only [bind_eq_ok] at h
    obtain ⟨-, -, h⟩ := h
    have scale : AtScale 4 newInitial := atScale_roundHalfUp 4 _
    have written : ((stored newInitial : MoneyColumn) : ℚ) = newInitial := money_of_atScale scale
    split at h
    · cases h
    · rename_i ledger _
      set row := (existing.edited edit).withInitialBalance (stored newInitial) with row_def
      split at h
      · -- the account has a voucher: the difference is adjusted
        rename_i issued
        have delta : FinancialDecimal.round (newInitial - existing.initialBalance) 4 =
            newInitial - existing.initialBalance :=
          roundHalfUp_of_atScale (scale.sub existing.initialBalance.2)
        rw [delta] at h
        have added : (book.putBank row).insertVoucher (row.voucher capital ledger .adjustment
            (newInitial - existing.initialBalance) edit.voucher) = .ok book' := h
        have known : row ∈ (book.putBank row).banks :=
          List.mem_map.mpr ⟨existing, member, if_pos rfl⟩
        refine ⟨(framed (stored newInitial)).insertOwn known codes added, ?_⟩
        intro b mem alive stays
        rw [banks_insertVoucher added] at mem
        rcases mem_putBank mem with rfl | ⟨earlier, other⟩
        · refine ⟨fun _ => ?_, fun none => ?_⟩
          · have before : (book.putBank row).opened row.id = existing.initialBalance :=
              balanced.issued issued
            have after : (row.initialBalance : ℚ) = newInitial := written
            rw [opened_insertOwn added, if_pos rfl, before, after]
            ring
          · rw [issued_insertOwn added, decide_eq_true rfl, Bool.or_true] at none
            cases none
        · have balanced := inv.sums b earlier alive stays
          have still : book'.issued b.id = book.issued b.id := by
            rw [issued_insertOwn added, decide_eq_false (Ne.symm other), Bool.or_false]
            rfl
          refine ⟨fun issued => ?_, fun none => balanced.waiting (still ▸ none)⟩
          rw [opened_insertOwn added, if_neg other, add_zero]
          exact balanced.issued (still ▸ issued)
      · rename_i unissued
        have none : book.issued existing.id = false := Bool.eq_false_iff.mpr unissued
        split at h
        · have expected : Inv nobody (fun bankId => bankId = existing.id) (book.putBank row) := by
            refine ⟨framed (stored newInitial), inv.sums.putBank
              (fun _ _ => ⟨fun issued => ?_, fun _ => Or.inl rfl⟩)
              (fun _ _ _ stays => stays) (fun _ _ waits => waits.elim)⟩
            exact absurd issued (Bool.eq_false_iff.mp none)
          exact expected.issue h
        · rename_i zero
          cases h
          refine ⟨framed (stored newInitial), inv.sums.putBank
            (fun _ _ => ⟨fun issued => ?_, fun _ => Or.inr (Or.inl ?_)⟩)
            (fun _ _ _ stays => stays) (fun _ _ waits => waits)⟩
          · exact absurd issued (Bool.eq_false_iff.mp none)
          · exact written.trans (not_not.mp zero)

/-! ## Vouchers rewritten in place -/

/-- An update that changes the status of a voucher, or deletes it. -/
structure Keeps (update : Voucher → Voucher) : Prop where
  id : ∀ v, (update v).id = v.id
  voucherNumber : ∀ v, (update v).voucherNumber = v.voucherNumber
  referenceId : ∀ v, (update v).referenceId = v.referenceId
  referenceNumber : ∀ v, (update v).referenceNumber = v.referenceNumber
  items : ∀ v, (update v).items = v.items
  isDeleted : ∀ v, (update v).isDeleted = false → v.isDeleted = false

theorem keeps_withStatus (status : VoucherStatus) : Keeps (Voucher.withStatus status) :=
  ⟨fun _ => rfl, fun _ => rfl, fun _ => rfl, fun _ => rfl, fun _ => rfl, fun _ live => live⟩

theorem keeps_deleted : Keeps Voucher.deleted :=
  ⟨fun _ => rfl, fun _ => rfl, fun _ => rfl, fun _ => rfl, fun _ => rfl, fun _ live => by cases live⟩

/-- The update of the voucher with one id. -/
theorem Keeps.at {update : Voucher → Voucher} (keeps : Keeps update) (k : ℕ) :
    Keeps fun v => if v.id = k then update v else v := by
  refine ⟨fun v => ?_, fun v => ?_, fun v => ?_, fun v => ?_, fun v => ?_, fun v => ?_⟩
  · split <;> simp [keeps.id]
  · split <;> simp [keeps.voucherNumber]
  · split <;> simp [keeps.referenceId]
  · split <;> simp [keeps.referenceNumber]
  · split <;> simp [keeps.items]
  · split
    · exact keeps.isDeleted v
    · exact fun live => live

section Rewrite

variable {update : Voucher → Voucher}

theorem Keeps.isOpening (keeps : Keeps update) (v : Voucher) :
    Book.isOpening (update v) = Book.isOpening v := by
  simp [Book.isOpening, keeps.referenceNumber, keeps.items, keeps.referenceId]

theorem Keeps.net (keeps : Keeps update) (v : Voucher) : (update v).net k = v.net k := by
  simp [Voucher.net, keeps.items]

theorem Keeps.refersTo (keeps : Keeps update) (h : (update v).refersTo k = true) :
    v.refersTo k = true := by
  simp only [Voucher.refersTo, keeps.referenceId, Bool.and_eq_true, Bool.not_eq_true'] at h ⊢
  exact ⟨h.1, keeps.isDeleted v h.2⟩

theorem Keeps.reversedBy (keeps : Keeps update) (h : (update v).reversedBy (update w) = true) :
    v.reversedBy w = true := by
  simp only [Voucher.reversedBy, keeps.id, keeps.voucherNumber, keeps.referenceId,
    keeps.referenceNumber, Bool.and_eq_true, Bool.not_eq_true'] at h ⊢
  exact ⟨⟨h.1.1, keeps.isDeleted w h.1.2⟩, h.2⟩

theorem Frame.rewrite (frame : Frame gone book) (keeps : Keeps update) :
    Frame gone { book with vouchers := book.vouchers.map update } := by
  refine ⟨frame.bankIds, ?_, frame.codes, ?_, ?_, ?_⟩
  · refine List.pairwise_map.mpr (frame.voucherIds.imp fun {v w} apart => ?_)
    rwa [keeps.id, keeps.id]
  · intro u mem
    obtain ⟨v, earlier, rfl⟩ := List.mem_map.mp mem
    rcases frame.kinds v earlier with opening | ⟨reference, o, known, same, opening⟩
    · exact Or.inl (by rw [keeps.isOpening, opening])
    · refine Or.inr ⟨by rw [keeps.referenceNumber, reference], update o, List.mem_map_of_mem known, ?_, ?_⟩
      · rw [keeps.id, keeps.referenceId, same]
      · rw [keeps.isOpening, opening]
  · intro u mem
    obtain ⟨v, earlier, rfl⟩ := List.mem_map.mp mem
    intro item mem
    exact frame.details v earlier item (keeps.items v ▸ mem)
  · intro bank mem live stays
    have account := frame.accounts bank mem live stays
    refine ⟨?_, ?_, ?_⟩
    · intro u mem refers
      obtain ⟨v, earlier, rfl⟩ := List.mem_map.mp mem
      rw [keeps.isOpening]
      exact account.own v earlier (keeps.refersTo refers)
    · intro u mem alive refers
      obtain ⟨v, earlier, rfl⟩ := List.mem_map.mp mem
      rw [keeps.net]
      refine account.other v earlier (keeps.isDeleted v alive) ?_
      simp only [Voucher.refersTo, keeps.referenceId, alive, keeps.isDeleted v alive] at refers ⊢
      exact refers
    · intro u mem refers x mem'
      obtain ⟨v, earlier, rfl⟩ := List.mem_map.mp mem
      obtain ⟨w, earlier', rfl⟩ := List.mem_map.mp mem'
      refine Bool.eq_false_iff.mpr fun reversed => ?_
      have quiet := account.standing v earlier (keeps.refersTo refers) w earlier'
      rw [keeps.reversedBy reversed] at quiet
      cases quiet

/-- The sums of an account whose vouchers refer to it as before stay. -/
theorem opened_rewrite (keeps : Keeps update)
    (same : ∀ v ∈ book.vouchers, (update v).refersTo k = v.refersTo k) :
    Book.opened { book with vouchers := book.vouchers.map update } k = book.opened k ∧
      Book.issued { book with vouchers := book.vouchers.map update } k = book.issued k := by
  refine ⟨?_, ?_⟩
  · rw [Book.opened, sumWhere_map]
    exact sumWhere_congr same fun v _ _ => keeps.net v
  · simp only [Book.issued, List.any_map]
    exact Bool.eq_iff_iff.mpr (by
      simp only [List.any_eq_true, Function.comp_apply]
      exact ⟨fun ⟨v, mem, h⟩ => ⟨v, mem, same v mem ▸ h⟩, fun ⟨v, mem, h⟩ => ⟨v, mem, (same v mem).symm ▸ h⟩⟩)

theorem Sums.rewrite (sums : Sums gone pending book) (keeps : Keeps update)
    (same : ∀ bank ∈ book.banks, bank.isDeleted = false → ¬gone bank.id →
      ∀ v ∈ book.vouchers, (update v).refersTo bank.id = v.refersTo bank.id) :
    Sums gone pending { book with vouchers := book.vouchers.map update } := by
  intro bank mem live stays
  obtain ⟨opened, issued⟩ := opened_rewrite keeps (same bank mem live stays)
  have balanced := sums bank mem live stays
  refine ⟨fun has => ?_, fun none => balanced.waiting (issued ▸ none)⟩
  rw [opened]
  exact balanced.issued (issued ▸ has)

end Rewrite

theorem Inv.setVoucherStatus {status : VoucherStatus} {refused : Bool} (inv : Inv nobody nobody book)
    (h : setVoucherStatus book k status refused = .ok book') : Inv nobody nobody book' := by
  simp only [BankOpening.setVoucherStatus, bind_eq_ok, pure_eq_ok] at h
  obtain ⟨existing, -, -, -, -, -, -, -, -, -, -, -, rfl⟩ := h
  have keeps := (keeps_withStatus status).at existing.id
  refine ⟨inv.frame.rewrite keeps, inv.sums.rewrite keeps fun _ _ _ _ v _ => ?_⟩
  split <;> rfl

/-! ## The deletion of an account -/

/-- What holds while the vouchers of an account are voided. -/
structure Voiding (bankId : ℕ) (standing : List Voucher) (book : Book) : Prop where
  frame : Frame (fun k => k = bankId) book
  sums : Sums (fun k => k = bankId) nobody book
  ours : ∀ s ∈ standing, ∃ v ∈ book.vouchers, v.id = s.id ∧ v.referenceId = bankId ∧
    Book.isOpening v = true
  apart : ∀ bank ∈ book.banks, bank.isDeleted = false → bank.id ≠ bankId →
    ∀ s ∈ standing, bank.id ≠ s.id

theorem Voiding.step {standing : List Voucher} {ids : ℕ → VoucherIds} {bankId : ℕ} {s : Voucher}
    (voiding : Voiding bankId standing book) (member : s ∈ standing)
    (h : voidSourceVoucher ids book s = .ok book') : Voiding bankId standing book' := by
  simp only [voidSourceVoucher, bind_eq_ok] at h
  obtain ⟨existing, found, h⟩ := h
  obtain ⟨existingMem, existingId, alive⟩ := liveVoucher_ok found
  obtain ⟨v, mem, same, refers, opening⟩ := voiding.ours s member
  obtain rfl : existing = v :=
    eq_of_key_eq voiding.frame.voucherIds existingMem mem (existingId.trans same.symm)
  have far : ∀ k, k ≠ bankId → existing.refersTo k = false := by
    intro k other
    simp [Voucher.refersTo, refers, other.symm]
  split at h
  · -- a draft is deleted
    cases h
    have keeps := keeps_deleted.at existing.id
    refine ⟨voiding.frame.rewrite keeps, voiding.sums.rewrite keeps ?_, ?_, voiding.apart⟩
    · intro bank _ _ stays w mem
      split
      · rename_i here
        cases eq_of_key_eq voiding.frame.voucherIds mem existingMem here
        rw [far bank.id stays]
        simp [Voucher.refersTo, Voucher.deleted]
      · rfl
    · intro t mem
      obtain ⟨w, known, same, refers, opening⟩ := voiding.ours t mem
      refine ⟨_, List.mem_map_of_mem known, ?_, ?_, ?_⟩
      · rw [keeps.id, same]
      · rw [keeps.referenceId, refers]
      · rw [keeps.isOpening, opening]
  · -- an approved voucher is reversed
    simp only [reverseVoucher, bind_eq_ok] at h
    obtain ⟨original, found', -, -, -, -, -, -, -, -, -, -, added⟩ := h
    obtain ⟨originalMem, originalId, -⟩ := liveVoucher_ok found'
    cases eq_of_key_eq voiding.frame.voucherIds originalMem existingMem originalId
    have banks := banks_insertVoucher added
    have reference : isReversalReference (existing.reversal (ids existing.id)).referenceNumber = true :=
      isReversalReference_reversal existing.voucherNumber
    refine ⟨voiding.frame.insert added (Or.inr ⟨reference, existing, existingMem, rfl, opening⟩) ?_ ?_, ?_, ?_, ?_⟩
    · intro item mem named
      obtain ⟨row, known, rfl⟩ := List.mem_map.mp mem
      exact voiding.frame.details existing existingMem row known named
    · intro bank mem live stays account
      refine account.insert ?_ ?_ ?_
      · have other : existing.id ≠ bank.id := fun eq =>
          voiding.apart bank mem live stays s member (eq.symm.trans same)
        simp [Voucher.refersTo, Voucher.reversal, other]
      · rw [net_reversal, account.other existing existingMem alive (far bank.id stays), neg_zero]
      · intro w known refersTo
        have other : w.id ≠ existing.id := by
          intro eq
          cases eq_of_key_eq voiding.frame.voucherIds known existingMem eq
          rw [far bank.id stays] at refersTo
          cases refersTo
        simp [Voucher.reversedBy, Voucher.reversal, other]
    · intro bank mem live stays
      rw [banks] at mem
      obtain ⟨-, rfl⟩ := insertVoucher_ok.mp added
      have balanced := voiding.sums bank mem live stays
      have other : existing.id ≠ bank.id := fun eq =>
        voiding.apart bank mem live stays s member (eq.symm.trans same)
      have silent : (existing.reversal (ids existing.id)).refersTo bank.id = false := by
        simp [Voucher.refersTo, Voucher.reversal, other]
      have still : Book.issued { book with vouchers := book.vouchers ++ [existing.reversal (ids existing.id)] }
          bank.id = book.issued bank.id := by
        rw [Book.issued, Book.issued, List.any_append, List.any_cons, silent, List.any_nil,
          Bool.or_false, Bool.or_false]
      refine ⟨fun issued => ?_, fun none => balanced.waiting (still ▸ none)⟩
      have before : book.opened bank.id = bank.initialBalance := balanced.issued (still ▸ issued)
      rw [Book.opened, sumWhere_append, sumWhere_cons, silent]
      simpa [Book.opened] using before
    · intro t mem
      obtain ⟨w, known, rest⟩ := voiding.ours t mem
      obtain ⟨-, rfl⟩ := insertVoucher_ok.mp added
      exact ⟨w, List.mem_append_left _ known, rest⟩
    · rw [banks]
      exact voiding.apart

theorem Inv.deleteBankAccount {reversals : ℕ → VoucherIds} {refused : Bool}
    (inv : Inv nobody nobody book)
    (apart : ∀ v ∈ book.vouchers, v.refersTo k = true →
      ∀ bank ∈ book.banks, bank.isDeleted = false → bank.id ≠ k → bank.id ≠ v.id)
    (h : deleteBankAccount book k reversals refused = .ok book') : Inv nobody nobody book' := by
  simp only [BankOpening.deleteBankAccount, bind_eq_ok, pure_eq_ok] at h
  obtain ⟨existing, found, -, -, -, -, voided, loop, rfl⟩ := h
  obtain ⟨member, rfl, live⟩ := liveBank_ok found
  have standing : ∀ s ∈ standingOpeningVouchers book existing,
      s ∈ book.vouchers ∧ s.refersTo existing.id = true := by
    intro s mem
    obtain ⟨known, meets⟩ := List.mem_filter.mp mem
    simp only [Bool.and_eq_true] at meets
    exact ⟨known, meets.1.1.1⟩
  have account := inv.frame.accounts existing member live not_false
  have start : Voiding existing.id (standingOpeningVouchers book existing) book := by
    refine ⟨⟨inv.frame.bankIds, inv.frame.voucherIds, inv.frame.codes, inv.frame.kinds,
      inv.frame.details, fun bank mem live _ => inv.frame.accounts bank mem live not_false⟩,
      fun bank mem live _ => inv.sums bank mem live not_false, ?_, ?_⟩
    · intro s mem
      obtain ⟨known, refers⟩ := standing s mem
      refine ⟨s, known, rfl, ?_, account.own s known refers⟩
      simp only [Voucher.refersTo, Bool.and_eq_true, decide_eq_true_eq] at refers
      exact refers.1
    · intro bank mem live other s smem
      obtain ⟨known, refers⟩ := standing s smem
      exact apart s known refers bank mem live other
  have done := foldlM_invariant
    (I := fun cur => Voiding existing.id (standingOpeningVouchers book existing) cur ∧
      cur.banks = book.banks) ?_ ⟨start, rfl⟩ loop
  · obtain ⟨voiding, banks⟩ := done
    have others : ∀ b ∈ voided.banks, b.id ≠ existing.id → ¬nobody b.id → ¬b.id = existing.id :=
      fun _ _ other _ => other
    have row : existing ∈ voided.banks := by
      rw [banks]
      exact member
    refine ⟨voiding.frame.putBank row rfl (inv.frame.codes existing member)
      (fun alive => by cases alive) others, voiding.sums.putBank (fun alive => by cases alive) others
      (fun _ _ waits => waits)⟩
  · intro cur next s mem before voids
    refine ⟨before.1.step mem voids, ?_⟩
    simp only [voidSourceVoucher, bind_eq_ok] at voids
    obtain ⟨v, -, voids⟩ := voids
    split at voids
    · cases voids
      exact before.2
    · simp only [reverseVoucher, bind_eq_ok] at voids
      obtain ⟨original, -, -, -, -, -, -, -, -, -, -, -, added⟩ := voids
      rw [banks_insertVoucher added]
      exact before.2

/-! ## Every request -/

/-- The ids and codes of a request are told apart from the vouchers' references: an
account is created with an id that no voucher refers to, a code is not spelled like a
reversal's reference, and the vouchers of a deleted account have ids that no other live
account has. -/
def OwnReferences (book : Book) : OpeningOperation → Prop
  | .createBankAccount request =>
      reservedPrefix request.code = false ∧ book.issued request.id = false
  | .updateBankAccount edit => ∀ code ∈ edit.code, reservedPrefix code = false
  | .deleteBankAccount id _ _ =>
      ∀ v ∈ book.vouchers, v.refersTo id = true →
        ∀ bank ∈ book.banks, bank.isDeleted = false → bank.id ≠ id → bank.id ≠ v.id
  | _ => True

instance (book : Book) (op : OpeningOperation) : Decidable (OwnReferences book op) := by
  cases op <;> unfold OwnReferences <;> infer_instance

theorem Inv.step {op : OpeningOperation} (inv : Inv nobody nobody book)
    (own : OwnReferences book op) (h : openingStep capital book op = .ok book') :
    Inv nobody nobody book' := by
  cases op with
  | createBankAccount request => exact inv.createBankAccount own.1 own.2 h
  | moveWorkflow bankId target ids refused => exact inv.moveWorkflow h
  | updateBankAccount edit => exact inv.updateBankAccount own h
  | setVoucherStatus voucherId status refused => exact inv.setVoucherStatus h
  | reverseVoucher voucherId ids refused =>
      simp only [openingStep, BankOpening.reverseVoucher, bind_eq_ok, ensure_eq_ok] at h
      obtain ⟨original, found, -, unsourced, -⟩ := h
      rw [inv.frame.hasSource (liveVoucher_ok found).1] at unsourced
      cases unsourced trivial
  | deleteJournalVoucher voucherId refused =>
      simp only [openingStep, BankOpening.deleteJournalVoucher, bind_eq_ok, ensure_eq_ok] at h
      obtain ⟨existing, found, -, unsourced, -⟩ := h
      rw [inv.frame.hasSource (liveVoucher_ok found).1] at unsourced
      cases unsourced
  | deleteBankAccount id reversals refused => exact inv.deleteBankAccount own h

theorem Inv.empty : Inv nobody nobody ⟨[], []⟩ := by
  refine ⟨⟨List.Pairwise.nil, List.Pairwise.nil, ?_, ?_, ?_, ?_⟩, ?_⟩ <;> intro _ mem <;> cases mem

/-! ## The initial balance is counted once -/

/-- An opening or adjustment voucher that stands: not deleted, not reversed, and itself
no reversal. -/
def Book.stands (book : Book) (voucher : Voucher) : Bool :=
  !voucher.isDeleted && !book.hasReversal voucher && !isReversalReference voucher.referenceNumber

/-- What the standing vouchers put on an account. -/
def Book.standingTotal (book : Book) (bankId : ℕ) : ℚ :=
  sumWhere book.stands (Voucher.net bankId) book.vouchers

/-- Sums over the vouchers that refer to an account, from sums over any of them. -/
theorem Account.sumWhere_eq {vouchers : List Voucher} (account : Account vouchers k)
    {p q : Voucher → Bool} (deleted : ∀ v ∈ vouchers, v.isDeleted = true → p v = q v)
    (own : ∀ v ∈ vouchers, v.refersTo k = true → p v = q v) :
    sumWhere p (Voucher.net k) vouchers = sumWhere q (Voucher.net k) vouchers := by
  refine sumWhere_eq_of_terms fun v mem => ?_
  cases gone : v.isDeleted with
  | true => rw [deleted v mem gone]
  | false =>
      cases refers : v.refersTo k with
      | true => rw [own v mem refers]
      | false => rw [account.other v mem gone refers, ite_self, ite_self]

theorem standingTotal_eq (account : Account book.vouchers k) :
    book.standingTotal k = book.opened k := by
  refine account.sumWhere_eq (fun v _ gone => ?_) fun v mem refers => ?_
  · simp [Book.stands, Voucher.refersTo, gone]
  · have opening := account.own v mem refers
    simp only [Book.isOpening, Bool.and_eq_true, Bool.not_eq_true'] at opening
    have reference : isReversalReference v.referenceNumber = false :=
      Bool.eq_false_iff.mpr fun reversal => by
        rw [reserved_of_reversal reversal] at opening
        cases opening.1
    have live : v.isDeleted = false := by
      simp only [Voucher.refersTo, Bool.and_eq_true, Bool.not_eq_true'] at refers
      exact refers.2
    have unreversed : book.hasReversal v = false :=
      List.any_eq_false.mpr fun w known => Bool.eq_false_iff.mp (account.standing v mem refers w known)
    rw [Book.stands, live, unreversed, reference, refers]
    rfl

/-- The posted vouchers and the drafts together are all that are not deleted. -/
theorem posted_add_drafted (account : Account book.vouchers k) :
    sumWhere Voucher.posted (Voucher.net k) book.vouchers +
      sumWhere Voucher.drafted (Voucher.net k) book.vouchers = book.opened k := by
  rw [sumWhere_add_sumWhere fun v _ => ?_]
  · refine account.sumWhere_eq (fun v _ gone => ?_) fun v _ refers => ?_
    · simp [Voucher.posted, Voucher.drafted, Voucher.refersTo, gone]
    · simp only [Voucher.refersTo, Bool.and_eq_true, Bool.not_eq_true'] at refers
      simp [Voucher.posted, Voucher.drafted, Voucher.refersTo, refers]
  · cases draft : decide (v.status = .draft) <;> simp_all [Voucher.posted, Voucher.drafted]

theorem issued_iff : book.issued k = true ↔ ∃ v ∈ book.vouchers, v.refersTo k = true := List.any_eq_true

theorem openingVoucherBanks_iff : openingVoucherBanks book k = true ↔
    ∃ v ∈ book.vouchers, v.refersTo k = true ∧ v.status ≠ .draft := by
  simp only [openingVoucherBanks, List.any_eq_true, Voucher.posted, Voucher.refersTo, Bool.and_eq_true,
    Bool.not_eq_true', decide_eq_true_eq]
  exact ⟨fun ⟨v, mem, ⟨live, status⟩, refers⟩ => ⟨v, mem, ⟨refers, live⟩, status⟩,
    fun ⟨v, mem, ⟨refers, live⟩, status⟩ => ⟨v, mem, ⟨live, status⟩, refers⟩⟩

theorem draftOpeningBanks_iff : draftOpeningBanks book k = true ↔
    ∃ v ∈ book.vouchers, v.refersTo k = true ∧ v.status = .draft := by
  simp only [draftOpeningBanks, List.any_eq_true, Voucher.drafted, Voucher.refersTo, Bool.and_eq_true,
    Bool.not_eq_true', decide_eq_true_eq]
  exact ⟨fun ⟨v, mem, ⟨live, status⟩, refers⟩ => ⟨v, mem, ⟨refers, live⟩, status⟩,
    fun ⟨v, mem, ⟨refers, live⟩, status⟩ => ⟨v, mem, ⟨live, status⟩, refers⟩⟩

/-- The lookup finds a posted voucher or a draft. -/
theorem openingVoucherBanks_or :
    (openingVoucherBanks book k || draftOpeningBanks book k) = true ↔ book.issued k = true := by
  rw [Bool.or_eq_true, openingVoucherBanks_iff, draftOpeningBanks_iff, issued_iff]
  constructor
  · rintro (⟨v, mem, refers, -⟩ | ⟨v, mem, refers, -⟩) <;> exact ⟨v, mem, refers⟩
  · rintro ⟨v, mem, refers⟩
    by_cases draft : v.status = .draft
    · exact Or.inr ⟨v, mem, refers, draft⟩
    · exact Or.inl ⟨v, mem, refers, draft⟩

/-- Posted vouchers only: the posted sum is what was opened. -/
theorem posted_eq_opened (account : Account book.vouchers k)
    (posted : ∀ v ∈ book.vouchers, v.refersTo k = true → v.status ≠ .draft) :
    sumWhere Voucher.posted (Voucher.net k) book.vouchers = book.opened k := by
  refine account.sumWhere_eq (fun v _ gone => ?_) fun v mem refers => ?_
  · simp [Voucher.posted, Voucher.refersTo, gone]
  · have status := posted v mem refers
    rw [refers]
    simp only [Voucher.refersTo, Bool.and_eq_true, Bool.not_eq_true'] at refers
    simp [Voucher.posted, refers, status]

/-- Drafts only: the posted sum has nothing on the account. -/
theorem posted_eq_zero (account : Account book.vouchers k)
    (drafts : ∀ v ∈ book.vouchers, v.refersTo k = true → v.status = .draft) :
    sumWhere Voucher.posted (Voucher.net k) book.vouchers = 0 := by
  rw [account.sumWhere_eq (q := fun _ => false) (fun v _ gone => ?_) fun v mem refers => ?_]
  · exact sumWhere_eq_zero fun _ _ => rfl
  · simp [Voucher.posted, gone]
  · simp [Voucher.posted, drafts v mem refers]

/-- What the amended statement says of one account. -/
structure CountedOnce (book : Book) (bank : Bank) : Prop where
  /-- the lookup by reference finds its opening vouchers and adjustments, never a reversal -/
  own : ∀ v ∈ book.vouchers, v.refersTo bank.id = true →
    Book.isOpening v = true ∧ isReversalReference v.referenceNumber = false
  /-- its standing vouchers put the initial balance on it; before the voucher is issued,
  its workflow has not been approved -/
  standing : book.standingTotal bank.id = bank.initialBalance ∨
    book.issued bank.id = false ∧ bank.unapproved
  withDrafts : ledgerOpeningWithDrafts book bank = bank.initialBalance
  posted : (∀ v ∈ book.vouchers, v.refersTo bank.id = true → v.status ≠ .draft) ∨
    (∀ v ∈ book.vouchers, v.refersTo bank.id = true → v.status = .draft) →
      ledgerOpening book bank = bank.initialBalance

theorem Inv.countedOnce (inv : Inv nobody nobody book) (member : bank ∈ book.banks)
    (live : bank.isDeleted = false) : CountedOnce book bank := by
  have account := inv.frame.accounts bank member live not_false
  have balanced := inv.sums bank member live not_false
  have opened : ∀ counts : Bool, (counts = true ↔ book.issued bank.id = true) →
      (if counts then 0 else (bank.initialBalance : ℚ)) + book.opened bank.id = bank.initialBalance := by
    intro counts iff
    cases issued : book.issued bank.id with
    | true => rw [if_pos (iff.mpr issued), zero_add, balanced.issued issued]
    | false =>
        have not : ¬counts = true := fun h => by rw [iff.mp h] at issued; cases issued
        rw [if_neg not, opened_of_not_issued issued, add_zero]
  refine ⟨fun v mem refers => ?_, ?_, ?_, ?_⟩
  · have opening := account.own v mem refers
    refine ⟨opening, Bool.eq_false_iff.mpr fun reversal => ?_⟩
    simp only [Book.isOpening, reserved_of_reversal reversal, Bool.not_true, Bool.false_and] at opening
    cases opening
  · rw [standingTotal_eq account]
    cases issued : book.issued bank.id with
    | true => exact Or.inl (balanced.issued issued)
    | false =>
        rcases balanced.waiting issued with none | zero | unapproved
        · exact none.elim
        · exact Or.inl (by rw [opened_of_not_issued issued, zero])
        · exact Or.inr ⟨rfl, unapproved⟩
  · rw [ledgerOpeningWithDrafts, add_assoc, posted_add_drafted account]
    exact opened _ openingVoucherBanks_or
  · rintro (posted | drafts)
    · rw [ledgerOpening, posted_eq_opened account posted]
      refine opened _ ?_
      rw [openingVoucherBanks_iff, issued_iff]
      exact ⟨fun ⟨v, mem, refers, _⟩ => ⟨v, mem, refers⟩,
        fun ⟨v, mem, refers⟩ => ⟨v, mem, refers, posted v mem refers⟩⟩
    · have none : ¬openingVoucherBanks book bank.id = true := by
        rw [openingVoucherBanks_iff]
        rintro ⟨v, mem, refers, status⟩
        exact status (drafts v mem refers)
      rw [ledgerOpening, posted_eq_zero account drafts, if_neg none, add_zero]

/-- The accounts of a run whose requests keep the references apart. -/
theorem initial_balance_counted_once (capital : ℕ) (ops : List OpeningOperation)
    (own : Along (openingStep capital) OwnReferences ⟨[], []⟩ ops) :
    ∀ bank ∈ (run (openingStep capital) ⟨[], []⟩ ops).banks, bank.isDeleted = false →
      CountedOnce (run (openingStep capital) ⟨[], []⟩ ops) bank := by
  have inv := run_invariant_along (fun s op t inv own ok => Inv.step inv own ok) Inv.empty own
  intro bank member live
  exact inv.countedOnce member live

/-- A request for an account with a ledger account. -/
def newAccount (id : ℕ) (code : String) (initialBalance : ℚ) (startsWorkflow : Bool)
    (voucher : VoucherIds) : OpeningOperation :=
  .createBankAccount
    { id := id, code := code, initialBalance := initialBalance, accountId := some 5
      startsWorkflow := startsWorkflow, voucher := voucher, refused := false }

/-- An account whose initial balance is raised, one approved by its workflow, and one deleted. -/
def threeAccounts : List OpeningOperation :=
  [newAccount 1 "BANK-1" 100 false ⟨10, 1⟩,
    .setVoucherStatus 10 .approved false,
    .updateBankAccount ⟨1, none, none, some 150, ⟨11, 2⟩, false⟩,
    newAccount 2 "BANK-2" 40 true ⟨12, 3⟩,
    .moveWorkflow 2 .approved ⟨12, 3⟩ false,
    newAccount 3 "BANK-3" 70 false ⟨13, 4⟩,
    .setVoucherStatus 13 .approved false,
    .deleteBankAccount 3 (fun _ => ⟨14, 5⟩) false]

theorem initial_balance_counted_once_three_accounts :
    (run (openingStep 9) ⟨[], []⟩ threeAccounts).vouchers.length = 5 ∧
      ∀ bank ∈ (run (openingStep 9) ⟨[], []⟩ threeAccounts).banks, bank.isDeleted = false →
        CountedOnce (run (openingStep 9) ⟨[], []⟩ threeAccounts) bank :=
  ⟨by decide +kernel, initial_balance_counted_once 9 threeAccounts (by decide +kernel)⟩

/-- The account takes the id that its predecessor's opening voucher had. -/
def reusedId : List OpeningOperation :=
  [newAccount 1 "BANK-1" 100 false ⟨2, 1⟩,
    .setVoucherStatus 2 .approved false,
    .deleteBankAccount 1 (fun _ => ⟨3, 2⟩) false,
    newAccount 2 "BANK-2" 50 false ⟨4, 3⟩]

/-- An account under a workflow has no voucher yet; and an account whose id is the id of a
reversed opening voucher is taken to have one, and its initial balance is not counted. -/
theorem initial_balance_not_on_account :
    (∃ bank ∈ (run (openingStep 9) ⟨[], []⟩ [newAccount 1 "BANK-1" 100 true ⟨2, 1⟩]).banks,
      bank.isDeleted = false ∧ bank.accountId ≠ none ∧
        (run (openingStep 9) ⟨[], []⟩ [newAccount 1 "BANK-1" 100 true ⟨2, 1⟩]).standingTotal bank.id ≠
          bank.initialBalance) ∧
      ∃ bank ∈ (run (openingStep 9) ⟨[], []⟩ reusedId).banks,
        bank.isDeleted = false ∧ bank.workflow = .none ∧
          (run (openingStep 9) ⟨[], []⟩ reusedId).standingTotal bank.id ≠ bank.initialBalance ∧
          ledgerOpening (run (openingStep 9) ⟨[], []⟩ reusedId) bank = 0 ∧
          (bank.initialBalance : ℚ) = 50 := by
  decide +kernel

end PapitalErp.BankOpening
