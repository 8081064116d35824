import PapitalErp.Accounting.FiscalPeriod

/-!
# Closed years are frozen

A transaction that writes a voucher holds a lock on the year of its date, or has
inserted the year's row itself, so a closing that holds the row alone has no writer
beside it. This rests on the row being there: a year goes into the cache when its
insert meets a row, and the row it meets may be the transaction's own, uncommitted
one. Where no transaction asks again for a year whose row it has inserted itself,
cached years have committed rows and every lock takes hold.
-/

namespace PapitalErp

open Interleaving

/-- A transaction does not ask for a year again whose row it has inserted itself. -/
def AsksOnce (i : ℕ) (turn : FiscalTurn) (t : FiscalTables) (progress : FiscalProgress) : Prop :=
  match turn, progress with
  | .proceed, .ensuring _ write =>
      write.row.year ∉ t.knownYears → t.inserter write.row.year ≠ some i
  | .proceed, .asking _ year => year ∉ t.knownYears → t.inserter year ≠ some i
  | _, _ => True

instance (i : ℕ) (turn : FiscalTurn) (t : FiscalTables) (progress : FiscalProgress) :
    Decidable (AsksOnce i turn t progress) :=
  match turn, progress with
  | .proceed, .ensuring _ write => inferInstanceAs (Decidable (write.row.year ∉ t.knownYears → _))
  | .proceed, .asking _ year => inferInstanceAs (Decidable (year ∉ t.knownYears → _))
  | .proceed, .start | .proceed, .closingRow _ | .proceed, .closingLocked _
  | .proceed, .closingChecked _ | .proceed, .idle _ | .proceed, .sharing _ _
  | .proceed, .reading _ _ | .proceed, .done | .operation _, _ | .isClosedShared _, _
  | .commit, _ | .abort, _ => .isTrue trivial

namespace FiscalTables

variable {t t' : FiscalTables} {i j : ℕ} {year : ℤ}

/-- A transaction keeps the year from being closed by another one. -/
def Protects (t : FiscalTables) (i : ℕ) (year : ℤ) : Prop :=
  t.yearLocks.Holds i year ∨ t.inserter year = some i

/-- A transaction keeps every other one from writing in the year. -/
def Excludes (t : FiscalTables) (i : ℕ) (year : ℤ) : Prop :=
  t.yearLocks.owner year = some i ∨ t.inserter year = some i

/-- What holds of the tables at every moment. -/
structure Valid (t : FiscalTables) : Prop where
  known : ∀ year ∈ t.knownYears, t.years year ≠ none
  inserted : ∀ year i, t.inserter year = some i → t.years year = none
  consistent : t.yearLocks.Consistent
  locked : ∀ year i, t.yearLocks.Holds i year → t.years year ≠ none
  fresh : ∀ id, t.nextId ≤ id → t.vouchers id = none ∧ t.voucherLocks id = none
  settled : ∀ year, t.years year = some .closed → ∀ id row, t.vouchers id = some row →
    row.year = year → row.isDeleted = false → row.status ≠ .draft
  counted : ∀ year, t.years year = some .closed → ∀ id row, t.vouchers id = some row →
    row.year = year → t.counted year id = some row ∨ t.written year id = some row

theorem Excludes.protects (h : t.Excludes i year) : t.Protects i year :=
  h.imp .inl id

/-- Nobody else protects a year that a transaction holds alone. -/
theorem Valid.eq_of_excludes (h : t.Valid) (alone : t.Excludes i year) (other : t.Protects j year) :
    j = i := by
  obtain owner | inserter := alone
  · obtain held | inserted := other
    · exact h.consistent.eq_of_owner owner held
    · exact absurd (h.inserted year j inserted) (h.locked year i (.inl owner))
  · obtain held | inserted := other
    · exact absurd (h.inserted year i inserter) (h.locked year j held)
    · exact Option.some.inj (inserted.symm.trans inserter)

/-- A transaction may write in a year that it protects and sees open. -/
def MayWrite (t : FiscalTables) (i : ℕ) (kind : FiscalKind) (year : ℤ) : Prop :=
  t.Protects i year ∧ (t.years year = some .closed → kind = .reopening year)

/-- What a transaction relies on by its kind. -/
def HoldsKind (t : FiscalTables) (i : ℕ) (tx : FiscalTx) : Prop :=
  match tx.kind with
  | .posting => True
  | .reopening year => t.yearLocks.owner year = some i
  | .closing year counted => t.Excludes i year ∧
      (∀ id row, t.vouchers id = some row → row.year = year →
        counted id = some row ∧ (row.isDeleted = false → row.status ≠ .draft)) ∧
      ∀ id row, tx.writes id = some row → row.status ≠ .draft

/-- What a running transaction relies on: it holds the rows it has written, their
years, and the years of the rows it writes over, but for drafts. -/
structure HoldsTx (t : FiscalTables) (i : ℕ) (tx : FiscalTx) : Prop where
  voucher : ∀ id row, tx.writes id = some row → t.voucherLocks id = some i
  year : ∀ id row, tx.writes id = some row → t.MayWrite i tx.kind row.year
  replaced : ∀ id row old, tx.writes id = some row → t.vouchers id = some old →
    t.MayWrite i tx.kind old.year ∨ old.isDeleted = false ∧ old.status = .draft
  kind : t.HoldsKind i tx

/-- What a transaction relies on while an operation waits for its year. -/
structure HoldsWrite (t : FiscalTables) (i : ℕ) (tx : FiscalTx) (write : VoucherWrite) : Prop where
  running : t.HoldsTx i tx
  voucher : ∀ id, write.id = some id → t.voucherLocks id = some i
  replaced : ∀ id old, write.id = some id → t.vouchers id = some old → old.year = write.row.year ∨
    t.MayWrite i tx.kind old.year ∨ old.isDeleted = false ∧ old.status = .draft
  closing : ∀ year counted, tx.kind = .closing year counted → write.row.status ≠ .draft

/-- A transaction sees the row of a year. -/
def SeesRow (t : FiscalTables) (i : ℕ) (year : ℤ) : Prop :=
  t.years year ≠ none ∨ t.inserter year = some i

end FiscalTables

open FiscalTables

/-- What a transaction relies on. -/
def FiscalAssertion (i : ℕ) (t : FiscalTables) : FiscalProgress → Prop
  | .start => ∀ year, t.inserter year ≠ some i
  | .closingRow year => t.SeesRow i year
  | .closingLocked year => t.Excludes i year ∧ t.years year ≠ some .closed
  | .closingChecked year => t.Excludes i year ∧ t.years year ≠ some .closed ∧
      ∀ id row, t.vouchers id = some row → row.year = year → row.isDeleted = false →
        row.status ≠ .draft
  | .idle tx => t.HoldsTx i tx
  | .ensuring tx write => t.HoldsWrite i tx write
  | .sharing tx write => t.HoldsWrite i tx write ∧ t.SeesRow i write.row.year
  | .asking tx _ => t.HoldsTx i tx
  | .reading tx year => t.HoldsTx i tx ∧ t.SeesRow i year
  | .done => True

/-- What a statement leaves to a transaction that runs. -/
structure Leaves (i : ℕ) (t t' : FiscalTables) : Prop where
  years : ∀ year, t.years year ≠ none → t'.years year ≠ none
  locks : t.yearLocks.Keeps i t'.yearLocks
  inserter : ∀ year, t.inserter year = some i → t'.inserter year = some i
  closed : ∀ year, t.Protects i year → (t'.years year = some .closed ↔ t.years year = some .closed)
  voucherLocks : ∀ id, t.voucherLocks id = some i → t'.voucherLocks id = some i
  vouchers : ∀ id, t.voucherLocks id = some i → t'.vouchers id = t.vouchers id
  alone : ∀ year, t.Excludes i year →
    ∀ id row, t'.vouchers id = some row → row.year = year → t.vouchers id = some row

namespace Leaves

variable {t t' : FiscalTables} {i : ℕ} {year : ℤ}

theorem protects (h : Leaves i t t') (held : t.Protects i year) : t'.Protects i year :=
  held.imp h.locks.holds (h.inserter year)

theorem excludes (h : Leaves i t t') (alone : t.Excludes i year) : t'.Excludes i year :=
  alone.imp (h.locks.owner year) (h.inserter year)

theorem mayWrite (h : Leaves i t t') {kind : FiscalKind} (may : t.MayWrite i kind year) :
    t'.MayWrite i kind year :=
  ⟨h.protects may.1, fun closed => may.2 ((h.closed year may.1).mp closed)⟩

theorem holdsKind (h : Leaves i t t') {tx : FiscalTx} (holds : t.HoldsKind i tx) :
    t'.HoldsKind i tx := by
  unfold HoldsKind at holds ⊢
  split at holds
  · trivial
  · exact h.locks.owner _ holds
  · obtain ⟨alone, counted, writes⟩ := holds
    exact ⟨h.excludes alone, fun id row found same => counted id row (h.alone _ alone id row found same) same,
      writes⟩

theorem holdsTx (h : Leaves i t t') {tx : FiscalTx} (holds : t.HoldsTx i tx) : t'.HoldsTx i tx := by
  refine ⟨fun id row write => h.voucherLocks id (holds.voucher id row write),
    fun id row write => h.mayWrite (holds.year id row write), fun id row old write found => ?_,
    h.holdsKind holds.kind⟩
  rw [h.vouchers id (holds.voucher id row write)] at found
  exact (holds.replaced id row old write found).imp_left h.mayWrite

theorem holdsWrite (h : Leaves i t t') {tx : FiscalTx} {write : VoucherWrite}
    (holds : t.HoldsWrite i tx write) : t'.HoldsWrite i tx write := by
  refine ⟨h.holdsTx holds.running, fun id target => h.voucherLocks id (holds.voucher id target),
    fun id old target found => ?_, holds.closing⟩
  rw [h.vouchers id (holds.voucher id target)] at found
  exact (holds.replaced id old target found).imp_right (Or.imp_left h.mayWrite)

theorem seesRow (h : Leaves i t t') (sees : t.SeesRow i year) : t'.SeesRow i year :=
  sees.imp (h.years year) (h.inserter year)

/-- What a transaction relies on survives the others. -/
theorem assertion (h : Leaves i t t') (inserter : ∀ year, t'.inserter year = some i →
    t.inserter year = some i) {progress : FiscalProgress}
    (holds : FiscalAssertion i t progress) : FiscalAssertion i t' progress := by
  cases progress with
  | start => exact fun year inserted => holds year (inserter year inserted)
  | closingRow year => exact h.seesRow holds
  | closingLocked year =>
      exact ⟨h.excludes holds.1, fun closed => holds.2 ((h.closed year holds.1.protects).mp closed)⟩
  | closingChecked year =>
      exact ⟨h.excludes holds.1,
        fun closed => holds.2.1 ((h.closed year holds.1.protects).mp closed),
        fun id row found same => holds.2.2 id row (h.alone year holds.1 id row found same) same⟩
  | idle tx => exact h.holdsTx holds
  | ensuring tx write => exact h.holdsWrite holds
  | sharing tx write => exact ⟨h.holdsWrite holds.1, h.seesRow holds.2⟩
  | asking tx year => exact h.holdsTx holds
  | reading tx year => exact ⟨h.holdsTx holds.1, h.seesRow holds.2⟩
  | done => trivial

theorem trans {t'' : FiscalTables} (h : Leaves i t t') (h' : Leaves i t' t'') : Leaves i t t'' where
  years year seen := h'.years year (h.years year seen)
  locks := ⟨fun row held => h'.locks.owner row (h.locks.owner row held),
    fun row held => h'.locks.sharers row (h.locks.sharers row held)⟩
  inserter year held := h'.inserter year (h.inserter year held)
  closed year held := (h'.closed year (h.protects held)).trans (h.closed year held)
  voucherLocks id held := h'.voucherLocks id (h.voucherLocks id held)
  vouchers id held := (h'.vouchers id (h.voucherLocks id held)).trans (h.vouchers id held)
  alone year excludes id row found same :=
    h.alone year excludes id row (h'.alone year (h.excludes excludes) id row found same) same

/-- A statement that only takes locks, inserts years and caches them. -/
theorem of_same (vouchers : t'.vouchers = t.vouchers) (years : t'.years = t.years)
    (locks : t.yearLocks.Keeps i t'.yearLocks)
    (inserter : ∀ year, t.inserter year = some i → t'.inserter year = some i)
    (voucherLocks : ∀ id, t.voucherLocks id = some i → t'.voucherLocks id = some i) :
    Leaves i t t' where
  years year seen := by rwa [years]
  locks := locks
  inserter := inserter
  closed year _ := by rw [years]
  voucherLocks := voucherLocks
  vouchers id _ := by rw [vouchers]
  alone year _ id row found _ := by rwa [vouchers] at found

end Leaves

/-- The effect of a statement of transaction `i` on the others. -/
structure LeavesOthers (i : ℕ) (t t' : FiscalTables) : Prop where
  leaves : ∀ j, j ≠ i → Leaves j t t'
  inserter : ∀ j, j ≠ i → ∀ year, t'.inserter year = some j → t.inserter year = some j

/-- The effect of a statement of transaction `i`. -/
structure FiscalOutcome (i : ℕ) (t t' : FiscalTables) (next : FiscalProgress) : Prop where
  valid : t'.Valid
  own : FiscalAssertion i t' next
  others : LeavesOthers i t t'

theorem LeavesOthers.refl (i : ℕ) (t : FiscalTables) : LeavesOthers i t t :=
  ⟨fun _ _ => .of_same rfl rfl (.refl _ _) (fun _ => id) fun _ => id, fun _ _ _ => id⟩

theorem LeavesOthers.trans {i : ℕ} {t t' t'' : FiscalTables} (h : LeavesOthers i t t')
    (h' : LeavesOthers i t' t'') : LeavesOthers i t t'' :=
  ⟨fun j apart => (h.leaves j apart).trans (h'.leaves j apart),
    fun j apart year held => h.inserter j apart year (h'.inserter j apart year held)⟩

section Statements

variable {requests : ℕ → FiscalRequest} {i : ℕ} {t t' : FiscalTables} {next : FiscalProgress}
  {year : ℤ}

theorem FiscalOutcome.stay (h : t.Valid) (own : FiscalAssertion i t next) :
    FiscalOutcome i t t next :=
  ⟨h, own, .refl i t⟩

theorem FiscalOutcome.after {t₀ : FiscalTables} (h : FiscalOutcome i t t' next)
    (before : LeavesOthers i t₀ t) : FiscalOutcome i t₀ t' next :=
  ⟨h.valid, h.own, before.trans h.others⟩

/-! ### The end of a transaction -/

theorem finish_valid (h : t.Valid) : (t.finish i).Valid where
  known := h.known
  inserted year j held := by
    refine h.inserted year j ?_
    by_cases own : t.inserter year = some i
    · simp [finish, own] at held
    · simpa [finish, own] using held
  consistent := RowLocks.release_consistent h.consistent
  locked year j held := h.locked year j (RowLocks.release_holds held)
  fresh id later := by
    obtain ⟨none, free⟩ := h.fresh id later
    exact ⟨none, by simp [finish, Locks.release, free]⟩
  settled := h.settled
  counted := h.counted

theorem finish_leaves (i : ℕ) (t : FiscalTables) : LeavesOthers i t (t.finish i) where
  leaves j apart := by
    refine .of_same rfl rfl (RowLocks.release_keeps apart) (fun year held => ?_)
      fun id => Locks.release_keeps apart
    simp [finish, held, apart]
  inserter j apart year held := by
    by_cases own : t.inserter year = some i
    · simp [finish, own] at held
    · simpa [finish, own] using held

theorem outcome_rollback (h : t.Valid) : FiscalOutcome i t (rollback i t).1 (rollback i t).2 :=
  ⟨finish_valid h, trivial, finish_leaves i t⟩

/-! ### The row of a year -/

/-- Where the transaction has not inserted the year itself, the cache gains a committed
year, or the transaction inserts the row. -/
theorem ensureRow_spec (h : t.Valid) (once : year ∉ t.knownYears → t.inserter year ≠ some i)
    (runs : t.ensureRow i year = some t') :
    t'.Valid ∧ t'.SeesRow i year ∧ Leaves i t t' ∧ LeavesOthers i t t' := by
  unfold FiscalTables.ensureRow at runs
  split at runs
  · rename_i known
    cases runs
    exact ⟨h, .inl (h.known year known), .of_same rfl rfl (.refl _ _) (fun _ => id) fun _ => id, .refl i t⟩
  · rename_i known
    split at runs
    · rename_i j inserted
      split_ifs at runs with own
      subst own
      exact absurd inserted (once known)
    · rename_i free
      split_ifs at runs with committed
      · cases runs
        have same : ∀ j, Leaves j t { t with knownYears := insert year t.knownYears } :=
          fun j => .of_same rfl rfl (.refl _ _) (fun _ => id) fun _ => id
        refine ⟨⟨?_, h.inserted, h.consistent, h.locked, h.fresh, h.settled, h.counted⟩, .inl committed,
          same i, fun j _ => same j, fun _ _ _ => id⟩
        intro year' mem
        obtain rfl | old := Finset.mem_insert.mp mem
        · exact committed
        · exact h.known year' old
      · cases runs
        have keeps : ∀ j year', t.inserter year' = some j →
            Function.update t.inserter year (some i) year' = some j := by
          intro j year' held
          rw [Function.update_of_ne, held]
          rintro rfl
          cases held.symm.trans free
        have same : ∀ j, Leaves j t { t with inserter := Function.update t.inserter year (some i) } :=
          fun j => .of_same rfl rfl (.refl _ _) (keeps j) fun _ => id
        refine ⟨⟨h.known, ?_, h.consistent, h.locked, h.fresh, h.settled, h.counted⟩,
          .inr (Function.update_self _ _ _), same i, fun j _ => same j, ?_⟩
        · intro year' j held
          by_cases new : year' = year
          · subst new
            exact not_not.mp committed
          · exact h.inserted year' j (by simpa [new] using held)
        · intro j apart year' held
          by_cases new : year' = year
          · subst new
            simp only [Function.update_self] at held
            exact absurd (Option.some.inj held).symm apart
          · simpa [new] using held

/-- The read of a year and its lock. -/
structure ReadYear (i : ℕ) (year : ℤ) (t t' : FiscalTables) (status : Option YearStatus) : Prop where
  valid : t'.Valid
  status : status = some .closed ↔ t'.years year = some .closed
  own : Leaves i t t'
  others : LeavesOthers i t t'

theorem withLocks_valid (h : t.Valid) {yearLocks : RowLocks ℤ ℕ} (consistent : yearLocks.Consistent)
    (locked : ∀ year j, yearLocks.Holds j year → t.years year ≠ none) :
    ({ t with yearLocks } : FiscalTables).Valid :=
  ⟨h.known, h.inserted, consistent, locked, h.fresh, h.settled, h.counted⟩

theorem selectYear_none (h : t.Valid) (absent : t.years year = none) : ReadYear i year t t
    (if t.inserter year = some i then some .open else none) := by
  refine ⟨h, ?_, .of_same rfl rfl (.refl _ _) (fun _ => id) fun _ => id, .refl i t⟩
  rw [absent]
  split_ifs <;> simp

theorem selectYear_share (h : t.Valid) (sees : t.SeesRow i year) {status : Option YearStatus}
    (runs : t.selectYear i year (fun locks => locks.share i year) = some (t', status)) :
    ReadYear i year t t' status ∧ t'.Protects i year := by
  unfold FiscalTables.selectYear at runs
  split at runs
  · rename_i committed found
    obtain ⟨yearLocks, taken, eq⟩ := Option.map_eq_some_iff.mp runs
    cases eq
    have same : ∀ j, Leaves j t { t with yearLocks } := fun j =>
      .of_same rfl rfl (RowLocks.share_keeps taken j) (fun _ => id) fun _ => id
    refine ⟨⟨withLocks_valid h (RowLocks.share_consistent h.consistent taken) ?_, ?_, same i,
      fun j _ => same j, fun _ _ _ => id⟩, .inl (RowLocks.share_holds taken)⟩
    · intro year' j held
      by_cases here : year' = year
      · subst here
        simp [found]
      · refine h.locked year' j (held.imp (fun owner => ?_) fun mem => ?_)
        · rwa [RowLocks.share_owner taken] at owner
        · exact ((RowLocks.mem_share taken year' j).mp mem).resolve_right fun new => here new.2
    · show some committed = some .closed ↔ t.years year = some .closed
      rw [found]
  · rename_i absent
    cases runs
    exact ⟨selectYear_none h absent, .inr (sees.resolve_left fun seen => seen absent)⟩

theorem selectYear_own (h : t.Valid) (sees : t.SeesRow i year) {status : Option YearStatus}
    (runs : t.selectYear i year (fun locks => locks.own i year) = some (t', status)) :
    ReadYear i year t t' status ∧ t'.Excludes i year := by
  unfold FiscalTables.selectYear at runs
  split at runs
  · rename_i committed found
    obtain ⟨yearLocks, taken, eq⟩ := Option.map_eq_some_iff.mp runs
    cases eq
    have same : ∀ j, Leaves j t { t with yearLocks } := fun j =>
      .of_same rfl rfl (RowLocks.own_keeps taken j) (fun _ => id) fun _ => id
    refine ⟨⟨withLocks_valid h (RowLocks.own_consistent h.consistent taken) ?_, ?_, same i,
      fun j _ => same j, fun _ _ _ => id⟩, .inl (RowLocks.own_owner taken)⟩
    · intro year' j held
      by_cases here : year' = year
      · subst here
        simp [found]
      · refine h.locked year' j (held.imp (fun owner => ?_) fun mem => ?_)
        · rwa [RowLocks.owner_own taken, if_neg here] at owner
        · rwa [RowLocks.own_sharers taken] at mem
    · show some committed = some .closed ↔ t.years year = some .closed
      rw [found]
  · rename_i absent
    cases runs
    exact ⟨selectYear_none h absent, .inr (sees.resolve_left fun seen => seen absent)⟩

/-! ### Operations -/

/-- An operation writes a new voucher, or the one it locked, which is a draft or keeps
its year. -/
theorem plan_spec {kind : FiscalKind} {existing : Option Voucher} {op : VoucherOp}
    {write : VoucherWrite} (plans : op.plan kind existing = some write) :
    write.id = none ∨ write.id = op.target ∧ ∃ old, existing = some old ∧
      (old.year = write.row.year ∨ old.isDeleted = false ∧ old.status = .draft) := by
  cases op with
  | createJournalVoucher row =>
      left
      cases kind <;> cases plans <;> rfl
  | updateJournalVoucher id row =>
      right
      cases existing with
      | none => cases plans
      | some old =>
          simp only [VoucherOp.plan] at plans
          split_ifs at plans with draft
          cases plans
          exact ⟨rfl, old, rfl, .inr draft⟩
  | applyVoucherStatus id status =>
      right
      cases existing with
      | none => cases plans
      | some old =>
          simp only [VoucherOp.plan] at plans
          split_ifs at plans
          cases plans
          exact ⟨rfl, old, rfl, .inl rfl⟩
  | deleteJournalVoucher id =>
      right
      cases existing with
      | none => cases plans
      | some old =>
          simp only [VoucherOp.plan] at plans
          split_ifs at plans
          cases plans
          exact ⟨rfl, old, rfl, .inl rfl⟩
  | reverseVoucher id row =>
      left
      cases existing with
      | none => cases kind <;> cases plans
      | some old =>
          cases kind <;> simp only [VoucherOp.plan] at plans <;> split_ifs at plans <;>
            cases plans <;> rfl

/-- A closing writes approved vouchers. -/
theorem plan_closing {counted : ℕ → Option Voucher} {existing : Option Voucher} {op : VoucherOp}
    {write : VoucherWrite} (allowed : FiscalKind.allows (.closing year counted) op ≠ false)
    (plans : op.plan (.closing year counted) existing = some write) : write.row.status ≠ .draft := by
  cases op with
  | createJournalVoucher row =>
      cases plans
      simp
  | updateJournalVoucher | applyVoucherStatus | deleteJournalVoucher | reverseVoucher =>
      exact absurd rfl allowed

theorem outcome_beginOperation (h : t.Valid) {tx : FiscalTx} (own : t.HoldsTx i tx) {op : VoucherOp}
    (runs : beginOperation i t tx op = some (t', next)) : FiscalOutcome i t t' next := by
  unfold beginOperation at runs
  split at runs
  · cases runs
    exact outcome_rollback h
  rename_i allowed
  have closing : ∀ {existing write}, op.plan tx.kind existing = some write →
      ∀ year counted, tx.kind = .closing year counted → write.row.status ≠ .draft := by
    intro existing write plans year counted kind
    rw [kind] at allowed plans
    exact plan_closing allowed plans
  split at runs
  · rename_i target
    split at runs
    · cases runs
      exact outcome_rollback h
    · rename_i write plans
      cases runs
      have new : write.id = none := by
        obtain new | ⟨-, old, existing, -⟩ := plan_spec plans
        · exact new
        · cases existing
      exact .stay h ⟨own, by simp [new], by simp [new], closing plans⟩
  · rename_i voucher target
    split at runs
    · cases runs
      exact outcome_rollback h
    rename_i old found
    split at runs
    · cases runs
    rename_i voucherLocks taken
    split at runs
    · cases runs
      exact outcome_rollback h
    rename_i write plans
    cases runs
    have valid : ({ t with voucherLocks } : FiscalTables).Valid := by
      refine ⟨h.known, h.inserted, h.consistent, h.locked, fun new later => ?_, h.settled, h.counted⟩
      obtain ⟨none, free⟩ := h.fresh new later
      refine ⟨none, ?_⟩
      by_cases same : new = voucher
      · subst same
        obtain written | ⟨-, committed⟩ := Option.or_eq_some_iff.mp found
        · cases (own.voucher new old written).symm.trans free
        · cases committed.symm.trans none
      · exact (Locks.take_other taken same).trans free
    have same : ∀ j, j ≠ i → Leaves j t { t with voucherLocks } := fun j apart =>
      .of_same rfl rfl (.refl _ _) (fun _ => id) fun _ held =>
        (Locks.take_keeps taken held).resolve_right fun new => apart new.2
    have mine : Leaves i t { t with voucherLocks } :=
      .of_same rfl rfl (.refl _ _) (fun _ => id) fun _ => Locks.take_keeps_own taken
    obtain new | ⟨eq, read, existing, dated⟩ := plan_spec plans
    · exact ⟨valid, ⟨mine.holdsTx own, by simp [new], by simp [new], closing plans⟩, same, fun _ _ _ => id⟩
    · obtain rfl := Option.some.inj existing
      have locks (number : ℕ) (some : write.id = some number) : number = voucher :=
        Option.some.inj (some.symm.trans (eq.trans target))
      refine ⟨valid, ⟨mine.holdsTx own, fun number some => ?_, fun number committed some stored => ?_,
        closing plans⟩, same, fun _ _ _ => id⟩
      · obtain rfl := locks number some
        exact Locks.take_self taken
      · obtain rfl := locks number some
        obtain written | ⟨-, found⟩ := Option.or_eq_some_iff.mp found
        · exact .inr ((own.replaced number old committed written stored).imp_left mine.mayWrite)
        · obtain rfl := Option.some.inj (found.symm.trans stored)
          exact dated.imp_right .inr

/-! ### Writing -/

/-- One more row that the transaction may write. -/
theorem FiscalTables.HoldsTx.write {tx : FiscalTx} (h : t.HoldsTx i tx) {number : ℕ} {row : Voucher}
    (lock : t.voucherLocks number = some i) (may : t.MayWrite i tx.kind row.year)
    (replaced : ∀ old, t.vouchers number = some old →
      t.MayWrite i tx.kind old.year ∨ old.isDeleted = false ∧ old.status = .draft)
    (closing : ∀ year counted, tx.kind = .closing year counted → row.status ≠ .draft) :
    t.HoldsTx i { tx with writes := Function.update tx.writes number (some row) } := by
  have either {id : ℕ} {row' : Voucher}
      (written : Function.update tx.writes number (some row) id = some row') :
      id = number ∧ row = row' ∨ tx.writes id = some row' := by
    by_cases new : id = number
    · subst new
      exact .inl ⟨rfl, by simpa using written⟩
    · exact .inr (by simpa [new] using written)
  refine ⟨fun id row' written => ?_, fun id row' written => ?_, fun id row' old written stored => ?_, ?_⟩
  · obtain ⟨rfl, -⟩ | before := either written
    · exact lock
    · exact h.voucher id row' before
  · obtain ⟨-, rfl⟩ | before := either written
    · exact may
    · exact h.year id row' before
  · obtain ⟨rfl, -⟩ | before := either written
    · exact replaced old stored
    · exact h.replaced id row' old before stored
  · have kind := h.kind
    unfold HoldsKind at kind ⊢
    cases eq : tx.kind with
    | posting => trivial
    | reopening year =>
        simp only [eq] at kind
        exact kind
    | closing year counted =>
        simp only [eq] at kind
        refine ⟨kind.1, kind.2.1, fun id row' written => ?_⟩
        obtain ⟨-, rfl⟩ | before := either written
        · exact closing year counted eq
        · exact kind.2.2 id row' before

theorem outcome_writeVoucher (h : t.Valid) {tx : FiscalTx} {write : VoucherWrite}
    (own : t.HoldsWrite i tx write) (may : t.MayWrite i tx.kind write.row.year) {out}
    (runs : writeVoucher i t tx write = out) : FiscalOutcome i t out.1 out.2 := by
  subst runs
  unfold writeVoucher
  split
  · rename_i number target
    refine .stay h (own.running.write (own.voucher number target) may (fun old stored => ?_) own.closing)
    obtain same | other := own.replaced number old target stored
    · exact .inl (same ▸ may)
    · exact other
  · obtain ⟨absent, unlocked⟩ := h.fresh t.nextId le_rfl
    have keeps (j id : ℕ) (held : t.voucherLocks id = some j) :
        Function.update t.voucherLocks t.nextId (some i) id = some j := by
      rw [Function.update_of_ne, held]
      rintro rfl
      cases held.symm.trans unlocked
    have same (j : ℕ) : Leaves j t { t with
        nextId := t.nextId + 1
        voucherLocks := Function.update t.voucherLocks t.nextId (some i) } :=
      .of_same rfl rfl (.refl _ _) (fun _ => id) (keeps j)
    refine ⟨⟨h.known, h.inserted, h.consistent, h.locked, fun id later => ?_, h.settled, h.counted⟩, ?_,
      fun j _ => same j, fun _ _ _ => id⟩
    · obtain ⟨empty, free⟩ := h.fresh id (Nat.le_of_succ_le later)
      refine ⟨empty, ?_⟩
      show Function.update t.voucherLocks t.nextId (some i) id = none
      rw [Function.update_of_ne (Nat.ne_of_gt later), free]
    · refine ((same i).holdsTx own.running).write (Function.update_self _ _ _) ((same i).mayWrite may)
        (fun old stored => ?_) own.closing
      cases stored.symm.trans absent

theorem outcome_assertOpen (h : t.Valid) {tx : FiscalTx} {write : VoucherWrite}
    (own : t.HoldsWrite i tx write) (sees : t.SeesRow i write.row.year)
    (runs : assertOpen i t tx write = some (t', next)) : FiscalOutcome i t t' next := by
  obtain ⟨⟨t₁, status⟩, selects, eq⟩ := Option.map_eq_some_iff.mp runs
  obtain ⟨read, protects⟩ := selectYear_share h sees selects
  dsimp only at eq
  split_ifs at eq with refused
  · cases eq
    exact (outcome_rollback read.valid).after read.others
  · have may : t₁.MayWrite i tx.kind write.row.year := by
      refine ⟨protects, fun closed => ?_⟩
      cases kind : tx.kind with
      | posting => exact absurd (read.status.mpr closed) (by simpa [FiscalKind.sees, kind] using refused)
      | closing => exact absurd (read.status.mpr closed) (by simpa [FiscalKind.sees, kind] using refused)
      | reopening year =>
          by_cases own : year = write.row.year
          · rw [own]
          · exact absurd (read.status.mpr closed) (by simpa [FiscalKind.sees, kind, own] using refused)
    exact (outcome_writeVoucher read.valid (read.own.holdsWrite own) may eq).after read.others

/-! ### COMMIT -/

/-- What a commit does to the tables. -/
structure Commits (i : ℕ) (tx : FiscalTx) (t t' : FiscalTables) : Prop where
  vouchers : t'.vouchers = t.view tx
  nextId : t'.nextId = t.nextId
  known : t'.knownYears = t.knownYears
  voucherLocks : t'.voucherLocks = (t.finish i).voucherLocks
  inserter : t'.inserter = (t.finish i).inserter
  yearLocks : t'.yearLocks = (t.finish i).yearLocks
  seen : ∀ year, t.years year ≠ none → t'.years year ≠ none
  uncommitted : ∀ year j, j ≠ i → t.inserter year = some j → t'.years year = none
  closed : ∀ year, t'.years year = some .closed ↔
    (∃ counted, tx.kind = .closing year counted) ∨
      tx.kind ≠ .reopening year ∧ t.years year = some .closed
  counted : ∀ year, (∃ counted, tx.kind = .closing year counted ∧ t'.counted year = counted ∧
      t'.written year = tx.writes) ∨
    (∀ counted, tx.kind ≠ .closing year counted) ∧ t'.counted year = t.counted year ∧
      t'.written year = t.written year

/-- The years after a commit, but for the year that is closed or reopened. -/
theorem insertedYears_spec (h : t.Valid) (year : ℤ) :
    (t.years year ≠ none →
        (if t.inserter year = some i then some YearStatus.open else t.years year) ≠ none) ∧
      (∀ j, j ≠ i → t.inserter year = some j →
        (if t.inserter year = some i then some YearStatus.open else t.years year) = none) ∧
      ((if t.inserter year = some i then some YearStatus.open else t.years year) = some .closed ↔
        t.years year = some .closed) := by
  by_cases own : t.inserter year = some i
  · have absent := h.inserted year i own
    refine ⟨fun seen => absurd absent seen, fun j apart other => ?_, by simp [own, absent]⟩
    exact absurd (Option.some.inj (other.symm.trans own)) apart
  · rw [if_neg own]
    exact ⟨id, fun j _ other => h.inserted year j other, Iff.rfl⟩

theorem commitTx_spec (h : t.Valid) {tx : FiscalTx} (own : t.HoldsTx i tx)
    (runs : commitTx i t tx = some t') : Commits i tx t t' := by
  unfold commitTx at runs
  cases kind : tx.kind with
  | posting =>
      simp only [kind] at runs
      cases runs
      refine ⟨rfl, rfl, rfl, rfl, rfl, rfl, fun year => (insertedYears_spec h year).1,
        fun year => (insertedYears_spec h year).2.1, fun year => ?_, fun year => .inr ?_⟩
      · simpa [kind, finish, commitVouchers] using (insertedYears_spec h year).2.2
      · simp [kind, finish, commitVouchers]
  | reopening own' =>
      simp only [kind] at runs
      cases runs
      have holder : t.yearLocks.owner own' = some i := by
        have := own.kind
        simpa [HoldsKind, kind] using this
      refine ⟨rfl, rfl, rfl, rfl, rfl, rfl, fun year seen => ?_, fun year j apart other => ?_,
        fun year => ?_, fun year => .inr ?_⟩
      · by_cases same : year = own'
        · simp [finish, same]
        · simpa [finish, commitVouchers, same] using (insertedYears_spec h year).1 seen
      · by_cases same : year = own'
        · subst same
          exact absurd (h.inserted year j other) (h.locked year i (.inl holder))
        · simpa [finish, commitVouchers, same] using (insertedYears_spec h year).2.1 j apart other
      · by_cases same : year = own'
        · simp [finish, same, kind]
        · simpa [finish, commitVouchers, same, kind, Ne.symm same] using (insertedYears_spec h year).2.2
      · simp [kind, finish, commitVouchers]
  | closing own' counted =>
      simp only [kind] at runs
      split_ifs at runs with waits
      cases runs
      refine ⟨rfl, rfl, rfl, rfl, rfl, rfl, fun year seen => ?_, fun year j apart other => ?_,
        fun year => ?_, fun year => ?_⟩
      · by_cases same : year = own'
        · simp [finish, same]
        · simpa [finish, commitVouchers, same] using (insertedYears_spec h year).1 seen
      · by_cases same : year = own'
        · subst same
          obtain none | mine := waits.1
          · cases other.symm.trans none
          · exact absurd (Option.some.inj (other.symm.trans mine)) apart
        · simpa [finish, commitVouchers, same] using (insertedYears_spec h year).2.1 j apart other
      · by_cases same : year = own'
        · simp [finish, same, kind]
        · simpa [finish, commitVouchers, same, kind, Ne.symm same] using (insertedYears_spec h year).2.2
      · by_cases same : year = own'
        · exact .inl ⟨counted, by simp [kind, same], by simp [finish, same], by simp [finish, same]⟩
        · refine .inr ⟨fun counted' eq => ?_, by simp [finish, commitVouchers, same],
            by simp [finish, commitVouchers, same]⟩
          rw [kind] at eq
          cases eq
          exact same rfl

namespace Commits

variable {tx : FiscalTx}

/-- A row after the commit: written by the transaction, or the row from before. -/
theorem row (h : Commits i tx t t') {id : ℕ} {row : Voucher} (stored : t'.vouchers id = some row) :
    tx.writes id = some row ∨ tx.writes id = none ∧ t.vouchers id = some row := by
  rw [h.vouchers] at stored
  exact Option.or_eq_some_iff.mp stored

/-- Where the year is closed afterwards, the transaction closed it, or wrote nothing in it. -/
theorem row_of_closed (h : Commits i tx t t') (own : t.HoldsTx i tx) (year_closed : t'.years year = some .closed)
    {id : ℕ} {row : Voucher} (stored : t'.vouchers id = some row) (dated : row.year = year) :
    (∃ counted, tx.kind = .closing year counted) ∨
      t.years year = some .closed ∧ t.vouchers id = some row := by
  obtain closing | ⟨kind, closed⟩ := (h.closed year).mp year_closed
  · exact .inl closing
  · obtain written | ⟨-, before⟩ := h.row stored
    · exact absurd ((own.year id row written).2 (dated ▸ closed)) (dated ▸ kind)
    · exact .inr ⟨closed, before⟩

theorem valid (h : Commits i tx t t') (before : t.Valid) (own : t.HoldsTx i tx) : t'.Valid where
  known year mem := h.seen year (before.known year (h.known ▸ mem))
  inserted year j held := by
    rw [h.inserter] at held
    by_cases mine : t.inserter year = some i
    · simp [finish, mine] at held
    · have other : t.inserter year = some j := by simpa [finish, mine] using held
      refine h.uncommitted year j (fun same => ?_) other
      exact mine (same ▸ other)
  consistent := by
    rw [h.yearLocks]
    exact RowLocks.release_consistent before.consistent
  locked year j held := by
    rw [h.yearLocks] at held
    exact h.seen year (before.locked year j (RowLocks.release_holds held))
  fresh id later := by
    obtain ⟨empty, free⟩ := before.fresh id (h.nextId ▸ later)
    have unwritten : tx.writes id = none := by
      cases written : tx.writes id with
      | none => rfl
      | some row => cases (own.voucher id row written).symm.trans free
    refine ⟨?_, ?_⟩
    · rw [h.vouchers]
      simp [FiscalTables.view, unwritten, empty]
    · rw [h.voucherLocks]
      simp [finish, Locks.release, free]
  settled year closed id row stored dated live := by
    obtain ⟨counted, kind⟩ | ⟨closed, before'⟩ := h.row_of_closed own closed stored dated
    · have holds := own.kind
      simp only [HoldsKind, kind] at holds
      obtain written | ⟨-, old⟩ := h.row stored
      · exact holds.2.2 id row written
      · exact (holds.2.1 id row old dated).2 live
    · exact before.settled year closed id row before' dated live
  counted year closed id row stored dated := by
    obtain ⟨counted, kind, eq, eq'⟩ | ⟨other, eq, eq'⟩ := h.counted year
    · rw [eq, eq']
      have holds := own.kind
      simp only [HoldsKind, kind] at holds
      obtain written | ⟨-, old⟩ := h.row stored
      · exact .inr written
      · exact .inl (holds.2.1 id row old dated).1
    · rw [eq, eq']
      obtain ⟨counted, kind⟩ | ⟨closed, before'⟩ := h.row_of_closed own closed stored dated
      · exact absurd kind (other counted)
      · exact before.counted year closed id row before' dated

/-- A commit leaves every other transaction what it holds. -/
theorem leaves (h : Commits i tx t t') (before : t.Valid) (own : t.HoldsTx i tx) :
    LeavesOthers i t t' where
  leaves j apart := by
    have ends := (finish_leaves i t).leaves j apart
    refine ⟨h.seen, ⟨fun year held => ?_, fun year held => ?_⟩, fun year held => ?_,
      fun year protects => ?_, fun id held => ?_, fun id held => ?_, fun year alone id row stored dated => ?_⟩
    · rw [h.yearLocks]
      exact ends.locks.owner year held
    · rw [h.yearLocks]
      exact ends.locks.sharers year held
    · rw [h.inserter]
      exact ends.inserter year held
    · have holds := own.kind
      refine (h.closed year).trans ⟨?_, fun closed => .inr ⟨fun kind => ?_, closed⟩⟩
      · rintro (⟨counted, kind⟩ | ⟨-, closed⟩)
        · simp only [HoldsKind, kind] at holds
          exact absurd (before.eq_of_excludes holds.1 protects) apart
        · exact closed
      · simp only [HoldsKind, kind] at holds
        exact absurd (before.eq_of_excludes (.inl holds) protects) apart
    · rw [h.voucherLocks]
      exact ends.voucherLocks id held
    · rw [h.vouchers]
      cases written : tx.writes id with
      | none => simp [FiscalTables.view, written]
      | some row => exact absurd (Option.some.inj (held.symm.trans (own.voucher id row written))) apart
    · obtain written | ⟨-, old⟩ := h.row stored
      · have mine := (own.year id row written).1
        rw [dated] at mine
        exact absurd (before.eq_of_excludes alone mine).symm apart
      · exact old
  inserter j apart year held := by
    rw [h.inserter] at held
    exact (finish_leaves i t).inserter j apart year held

/-- A commit neither writes in a year that is and stays closed nor takes a voucher out. -/
theorem frozen (h : Commits i tx t t') (before : t.Valid) (own : t.HoldsTx i tx)
    (closed : t.years year = some .closed) (still : t'.years year = some .closed) {id : ℕ} {row : Voucher}
    (dated : row.year = year) (found : t.vouchers id = some row ∨ t'.vouchers id = some row) :
    t'.vouchers id = t.vouchers id := by
  have shut : ¬t.MayWrite i tx.kind year := by
    rintro ⟨protects, kind⟩
    obtain ⟨counted, closing⟩ | ⟨other, -⟩ := (h.closed year).mp still
    · cases closing.symm.trans (kind closed)
    · exact other (kind closed)
  cases written : tx.writes id with
  | none => rw [h.vouchers, FiscalTables.view, written, Option.none_or]
  | some new =>
      exfalso
      obtain old | stored := found
      · obtain may | ⟨live, draft⟩ := own.replaced id new row written old
        · exact shut (dated ▸ may)
        · exact before.settled year closed id row old dated live draft
      · obtain same | ⟨none, -⟩ := h.row stored
        · exact shut (dated ▸ own.year id row same)
        · cases none.symm.trans written

end Commits

/-! ### The statements -/

theorem settled_of_hasDraft (h : t.Valid) (none : ¬t.hasDraft year = true) {id : ℕ} {row : Voucher}
    (found : t.vouchers id = some row) (dated : row.year = year) (live : row.isDeleted = false) :
    row.status ≠ .draft := by
  intro draft
  have bound : id < t.nextId := by
    by_contra later
    cases found.symm.trans (h.fresh id (not_lt.mp later)).1
  refine none (List.any_eq_true.mpr ⟨id, List.mem_range.mpr bound, ?_⟩)
  simp [found, dated, live, draft]

/-- A transaction that has written nothing. -/
theorem holdsTx_start {kind : FiscalKind} (holds : t.HoldsKind i ⟨kind, fun _ => none⟩) :
    t.HoldsTx i ⟨kind, fun _ => none⟩ := by
  refine ⟨?_, ?_, ?_, holds⟩
  · rintro _ _ ⟨⟩
  · rintro _ _ ⟨⟩
  · rintro _ _ _ ⟨⟩

theorem outcome_reopen (h : t.Valid) (own : ∀ year, t.inserter year ≠ some i)
    {out : FiscalTables × Option YearStatus}
    (selects : t.selectYear i year (fun locks => locks.own i year) = some out)
    (eq : (if out.2 = some .closed then (out.1, .idle ⟨.reopening year, fun _ => none⟩)
      else rollback i out.1) = (t', next)) : FiscalOutcome i t t' next := by
  cases found : t.years year with
  | none =>
      simp only [FiscalTables.selectYear, found, if_neg (own year)] at selects
      cases selects
      cases eq
      exact outcome_rollback h
  | some committed =>
      have sees : t.SeesRow i year := .inl (by simp [found])
      obtain ⟨read, alone⟩ := selectYear_own h sees selects
      split_ifs at eq with closed
      · cases eq
        refine ⟨read.valid, holdsTx_start ?_, read.others⟩
        obtain owner | inserter := alone
        · exact owner
        · have absent := read.valid.inserted year i inserter
          cases absent.symm.trans (read.status.mp closed)
      · cases eq
        exact (outcome_rollback read.valid).after read.others

/-- Every statement that meets the condition has its outcome. -/
theorem fiscalStatement_outcome (h : t.Valid) {turn : FiscalTurn} {progress : FiscalProgress}
    (own : FiscalAssertion i t progress) (meets : AsksOnce i turn t progress)
    (runs : fiscalStatement requests i turn t progress = some (t', next)) :
    FiscalOutcome i t t' next := by
  unfold fiscalStatement at runs
  split at runs
  · cases runs
    exact outcome_rollback h
  · split at runs
    · cases runs
      exact .stay h (holdsTx_start trivial)
    · obtain ⟨t₁, ensures, eq⟩ := Option.map_eq_some_iff.mp runs
      cases eq
      obtain ⟨valid, sees, -, others⟩ := ensureRow_spec h (fun _ => own _) ensures
      exact ⟨valid, sees, others⟩
    · obtain ⟨out, selects, eq⟩ := Option.map_eq_some_iff.mp runs
      exact outcome_reopen h own selects eq
  · obtain ⟨⟨t₁, status⟩, selects, eq⟩ := Option.map_eq_some_iff.mp runs
    obtain ⟨read, alone⟩ := selectYear_own h own selects
    dsimp only at eq
    split_ifs at eq with refused
    · cases eq
      exact (outcome_rollback read.valid).after read.others
    · cases eq
      exact ⟨read.valid, ⟨alone, fun closed => refused (read.status.mpr closed)⟩, read.others⟩
  · split_ifs at runs with drafts
    · cases runs
      exact outcome_rollback h
    · cases runs
      exact .stay h ⟨own.1, own.2, fun _ _ found dated live => settled_of_hasDraft h drafts found dated live⟩
  · cases runs
    refine .stay h (holdsTx_start ⟨own.1, fun id row found dated => ⟨found, ?_⟩, ?_⟩)
    · exact own.2.2 id row found dated
    · rintro _ _ ⟨⟩
  · exact outcome_beginOperation h own runs
  · obtain ⟨t₁, ensures, eq⟩ := Option.map_eq_some_iff.mp runs
    cases eq
    obtain ⟨valid, sees, mine, others⟩ := ensureRow_spec h meets ensures
    exact ⟨valid, ⟨mine.holdsWrite own, sees⟩, others⟩
  · exact outcome_assertOpen h own.1 own.2 runs
  · cases runs
    exact .stay h own
  · obtain ⟨t₁, ensures, eq⟩ := Option.map_eq_some_iff.mp runs
    cases eq
    obtain ⟨valid, sees, mine, others⟩ := ensureRow_spec h meets ensures
    exact ⟨valid, ⟨mine.holdsTx own, sees⟩, others⟩
  · obtain ⟨⟨t₁, status⟩, selects, eq⟩ := Option.map_eq_some_iff.mp runs
    cases eq
    obtain ⟨read, -⟩ := selectYear_share h own.2 selects
    exact ⟨read.valid, read.own.holdsTx own.1, read.others⟩
  · obtain ⟨t₁, commits, eq⟩ := Option.map_eq_some_iff.mp runs
    cases eq
    have commit := commitTx_spec h own commits
    exact ⟨commit.valid h own, trivial, commit.leaves h own⟩
  · cases runs

/-- The statements that meet the condition follow the outline. -/
theorem fiscalOutline (requests : ℕ → FiscalRequest) :
    Outline (fiscalStatement requests) AsksOnce Valid FiscalAssertion where
  own h own meets runs :=
    have outcome := fiscalStatement_outcome h own meets runs
    ⟨outcome.valid, outcome.own⟩
  others apart h own other meets runs :=
    have outcome := fiscalStatement_outcome h own meets runs
    (outcome.others.leaves _ apart).assertion (outcome.others.inserter _ apart) other

/-! ### Only a commit changes vouchers -/

theorem ensureRow_vouchers (runs : t.ensureRow i year = some t') :
    t'.vouchers = t.vouchers ∧ t'.years = t.years := by
  unfold FiscalTables.ensureRow at runs
  split at runs
  · cases runs
    exact ⟨rfl, rfl⟩
  · split at runs
    · split at runs <;> cases runs
      exact ⟨rfl, rfl⟩
    · split at runs <;> cases runs
      · exact ⟨rfl, rfl⟩
      · exact ⟨rfl, rfl⟩

theorem selectYear_vouchers {lock : RowLocks ℤ ℕ → Option (RowLocks ℤ ℕ)}
    {out : FiscalTables × Option YearStatus} (runs : t.selectYear i year lock = some out) :
    out.1.vouchers = t.vouchers := by
  unfold FiscalTables.selectYear at runs
  split at runs
  · obtain ⟨yearLocks, -, rfl⟩ := Option.map_eq_some_iff.mp runs
    rfl
  · cases runs
    rfl

theorem beginOperation_vouchers {tx : FiscalTx} {op : VoucherOp}
    (runs : beginOperation i t tx op = some (t', next)) : t'.vouchers = t.vouchers := by
  unfold beginOperation at runs
  split at runs
  · cases runs
    rfl
  · split at runs
    · split at runs <;> cases runs <;> rfl
    · split at runs
      · cases runs
        rfl
      · split at runs
        · cases runs
        · split at runs <;> cases runs <;> rfl

theorem assertOpen_vouchers {tx : FiscalTx} {write : VoucherWrite}
    (runs : assertOpen i t tx write = some (t', next)) : t'.vouchers = t.vouchers := by
  obtain ⟨out, selects, eq⟩ := Option.map_eq_some_iff.mp runs
  have same := selectYear_vouchers selects
  dsimp only at eq
  split_ifs at eq
  · cases eq
    exact same
  · unfold writeVoucher at eq
    split at eq <;> cases eq <;> exact same

theorem fiscalStatement_vouchers {turn : FiscalTurn} {progress : FiscalProgress}
    (runs : fiscalStatement requests i turn t progress = some (t', next)) :
    t'.vouchers = t.vouchers ∨ ∃ tx, progress = .idle tx ∧ commitTx i t tx = some t' := by
  unfold fiscalStatement at runs
  split at runs
  · cases runs
    exact .inl rfl
  · split at runs
    · cases runs
      exact .inl rfl
    · obtain ⟨t₁, ensures, eq⟩ := Option.map_eq_some_iff.mp runs
      cases eq
      exact .inl (ensureRow_vouchers ensures).1
    · obtain ⟨out, selects, eq⟩ := Option.map_eq_some_iff.mp runs
      have same := selectYear_vouchers selects
      dsimp only at eq
      split_ifs at eq <;> cases eq <;> exact .inl same
  · obtain ⟨out, selects, eq⟩ := Option.map_eq_some_iff.mp runs
    have same := selectYear_vouchers selects
    dsimp only at eq
    split_ifs at eq <;> cases eq <;> exact .inl same
  · split_ifs at runs <;> cases runs <;> exact .inl rfl
  · cases runs
    exact .inl rfl
  · exact .inl (beginOperation_vouchers runs)
  · obtain ⟨t₁, ensures, eq⟩ := Option.map_eq_some_iff.mp runs
    cases eq
    exact .inl (ensureRow_vouchers ensures).1
  · exact .inl (assertOpen_vouchers runs)
  · cases runs
    exact .inl rfl
  · obtain ⟨t₁, ensures, eq⟩ := Option.map_eq_some_iff.mp runs
    cases eq
    exact .inl (ensureRow_vouchers ensures).1
  · obtain ⟨out, selects, eq⟩ := Option.map_eq_some_iff.mp runs
    cases eq
    exact .inl (selectYear_vouchers selects)
  · obtain ⟨t₁, commits, eq⟩ := Option.map_eq_some_iff.mp runs
    cases eq
    exact .inr ⟨_, rfl, commits⟩
  · cases runs

end Statements

/-- In every schedule that meets the condition, the vouchers of a closed year are those
that the balances of its closing were computed from and those that the closing wrote, and
no statement creates, changes or removes a voucher of a year that is and stays closed. -/
theorem closed_years_frozen (requests : ℕ → FiscalRequest) (schedule : List (ℕ × FiscalTurn)) :
    let P := fiscalStatement requests
    let start : Config ℕ FiscalTables FiscalProgress := ⟨.initial, fun _ => .start⟩
    let c := P.after start schedule
    P.Meets AsksOnce start schedule →
      (∀ year id row, c.shared.years year = some .closed → c.shared.vouchers id = some row →
        row.year = year → (row.isDeleted = false → row.status ≠ .draft) ∧
          (c.shared.counted year id = some row ∨ c.shared.written year id = some row)) ∧
      ∀ turn c', P.step c turn = .ok c' → ∀ year, c.shared.years year = some .closed →
        c'.shared.years year = some .closed → ∀ id row, row.year = year →
          c.shared.vouchers id = some row ∨ c'.shared.vouchers id = some row →
            c'.shared.vouchers id = c.shared.vouchers id := by
  intro P start c meets
  have begins : Holds Valid FiscalAssertion start := by
    refine ⟨⟨?_, ?_, ?_, ?_, ?_, ?_, ?_⟩, ?_⟩ <;>
      simp [start, FiscalTables.initial, FiscalAssertion, RowLocks.Consistent, RowLocks.free,
        RowLocks.Holds]
  have holds := (fiscalOutline requests).after_meets begins meets
  refine ⟨fun year id row closed found dated => ?_, fun turn c' runs year closed still id row dated found => ?_⟩
  · exact ⟨holds.shared.settled year closed id row found dated,
      holds.shared.counted year closed id row found dated⟩
  · obtain ⟨t', next, statement, rfl⟩ := Program.step_ok.mp runs
    obtain same | ⟨tx, idle, commits⟩ := fiscalStatement_vouchers statement
    · rw [same]
    · have own := holds.locals turn.1
      rw [show c.locals turn.1 = .idle tx from idle] at own
      exact (commitTx_spec holds.shared own commits).frozen holds.shared own closed still dated found

/-- A posting in 1403, its closing with one closing voucher. -/
theorem closed_year_frozen_after_closing :
    let row : Voucher := ⟨1403, .approved, false, none, 7⟩
    let P := fiscalStatement fun i => if i = 0 then .post else .close 1403
    let c := P.after ⟨.initial, fun _ => .start⟩ [(0, .proceed), (0, .operation (.createJournalVoucher row)),
      (0, .proceed), (0, .proceed), (0, .commit), (1, .proceed), (1, .proceed), (1, .proceed), (1, .proceed),
      (1, .operation (.createJournalVoucher ⟨1403, .approved, false, none, 8⟩)), (1, .proceed),
      (1, .proceed), (1, .commit)]
    c.shared.years 1403 = some .closed ∧ c.shared.vouchers 1 = some row ∧
      (c.shared.counted 1403 1 = some row ∨ c.shared.written 1403 1 = some row) := by
  dsimp only
  have frozen := closed_years_frozen (fun i => if i = 0 then .post else .close 1403)
    [(0, .proceed), (0, .operation (.createJournalVoucher ⟨1403, .approved, false, none, 7⟩)),
      (0, .proceed), (0, .proceed), (0, .commit), (1, .proceed), (1, .proceed), (1, .proceed), (1, .proceed),
      (1, .operation (.createJournalVoucher ⟨1403, .approved, false, none, 8⟩)), (1, .proceed),
      (1, .proceed), (1, .commit)] (by decide +kernel)
  refine ⟨by decide +kernel, by decide +kernel, (frozen.1 1403 1 _ ?_ ?_ rfl).2⟩
  · decide +kernel
  · decide +kernel

/-- A transaction that opens a year with two vouchers and rolls back leaves the year in
the cache without a row. A posting and a closing then both find nothing to lock, and the
posting commits after the closing. -/
theorem voucher_enters_closed_year :
    ∃ (requests : ℕ → FiscalRequest) (schedule : List (ℕ × FiscalTurn)) (id : ℕ) (row : Voucher),
      let P := fiscalStatement requests
      let c := P.after ⟨.initial, fun _ => .start⟩ schedule
      let c' := P.after c [(1, .commit)]
      c.shared.years row.year = some .closed ∧ c'.shared.years row.year = some .closed ∧
        c.shared.vouchers id = none ∧ c'.shared.vouchers id = some row ∧
        row.isDeleted = false ∧ row.status = .approved ∧
        c'.shared.counted row.year id = none ∧ c'.shared.written row.year id = none := by
  refine ⟨fun i => if i = 2 then .close 1403 else .post,
    [(0, .proceed), (0, .operation (.createJournalVoucher ⟨1403, .approved, false, none, 7⟩)),
      (0, .proceed), (0, .proceed),
      (0, .operation (.createJournalVoucher ⟨1403, .approved, false, none, 8⟩)), (0, .proceed), (0, .abort),
      (1, .proceed), (1, .operation (.createJournalVoucher ⟨1403, .approved, false, none, 9⟩)),
      (1, .proceed), (1, .proceed), (2, .proceed), (2, .proceed), (2, .proceed), (2, .proceed),
      (2, .commit)], 2, ⟨1403, .approved, false, none, 9⟩, ?_⟩
  decide +kernel

end PapitalErp
