import PapitalErp.Treasury.BankReconciliation

/-!
# Reconciled rows stay live while no void takes one back

`Leaves` is what one operation of the bank book does to the reconciled rows: they
keep their place in the totals, and stay live unless the operation voids them.
The guard that is missing is the other half of `refusalReason`: a voided row is
not reconciled, yet a reconciled row is voided and keeps its mark.
-/

namespace PapitalErp.BankBook

open Transition FilteredSums

variable {book book' : Book} {marks : RowKey → Option Mark} {voids : List ℕ} {row : TreasuryRow}
variable {t t' : StatementBook}

/-! ## What an operation leaves of the reconciled rows -/

/-- Every marked row exists. -/
structure Known (marks : RowKey → Option Mark) (book : Book) : Prop where
  row : ∀ id, (marks ⟨.treasury, id⟩).isSome → ∃ row ∈ book.rows, row.id = id
  cheque : ∀ id, (marks ⟨.cheque, id⟩).isSome → ∃ cheque ∈ book.cheques, cheque.id = id

/-- The reconciled total over the rows of a book. -/
def totalOf (marks : RowKey → Option Mark) (book : Book) (bankAccountId : ℕ) : ℚ :=
  reconciledTotal ⟨book, marks, []⟩ bankAccountId

/-- What an operation that voids the rows `voids` leaves of the marked ones. -/
structure Leaves (marks : RowKey → Option Mark) (voids : List ℕ) (book book' : Book) : Prop where
  known : Known marks book'
  total : ∀ bankAccountId, totalOf marks book' bankAccountId = totalOf marks book bankAccountId
  live : ∀ key bankAccountId, (marks key).isSome → (key.kind = .treasury → key.id ∉ voids) →
    LiveIn book bankAccountId key → LiveIn book' bankAccountId key

theorem Leaves.refl (known : Known marks book) : Leaves marks voids book book :=
  ⟨known, fun _ => rfl, fun _ _ _ _ live => live⟩

theorem Leaves.trans {middle : Book} (first : Leaves marks voids book middle)
    (second : Leaves marks voids middle book') : Leaves marks voids book book' := by
  refine ⟨second.known, ?_, ?_⟩
  · intro bankAccountId
    rw [second.total, first.total]
  · intro key bankAccountId marked kept live
    exact second.live key bankAccountId marked kept (first.live key bankAccountId marked kept live)

/-- An operation that writes neither treasury rows nor cheques. -/
theorem Leaves.of_same (known : Known marks book) (rows : book'.rows = book.rows)
    (cheques : book'.cheques = book.cheques) : Leaves marks voids book book' := by
  refine ⟨⟨rows ▸ known.row, cheques ▸ known.cheque⟩, ?_, ?_⟩
  · intro bankAccountId
    simp only [totalOf, reconciledTotal, rows, cheques]
  · intro key bankAccountId _ _ live
    obtain ⟨kind, id⟩ := key
    cases kind <;> simpa only [LiveIn, findRow, findCheque, rows, cheques] using live

theorem Leaves.putBank {bank : Bank} (known : Known marks book) (h : book.putBank bank = .ok book') :
    Leaves marks voids book book' := by
  obtain ⟨-, rfl⟩ := putBank_ok.mp h
  exact .of_same known rfl rfl

/-- A new treasury row carries no mark. -/
theorem Leaves.insertRow (known : Known marks book) (h : book.insertRow row = .ok book') :
    Leaves marks voids book book' := by
  obtain ⟨fresh, -, rfl⟩ := insertRow_ok.mp h
  have unmarked : (marks ⟨.treasury, row.id⟩).isSome = false := by
    rw [Bool.eq_false_iff]
    intro marked
    obtain ⟨earlier, mem, same⟩ := known.row row.id marked
    exact fresh earlier mem same
  refine ⟨⟨?_, known.cheque⟩, ?_, ?_⟩
  · intro id marked
    obtain ⟨earlier, mem, same⟩ := known.row id marked
    exact ⟨earlier, List.mem_append_left _ mem, same⟩
  · intro bankAccountId
    simp [totalOf, reconciledTotal, unmarked]
  · intro key bankAccountId _ _ live
    obtain ⟨kind, id⟩ := key
    cases kind with
    | cheque => exact live
    | treasury =>
        obtain ⟨r, found, isLive⟩ := live
        refine ⟨r, ?_, isLive⟩
        unfold findRow at *
        rw [List.find?_append, found, Option.some_or]

theorem find?_update {α : Type*} {key : α → ℕ} {update : α → α} (keeps : ∀ a, key (update a) = key a)
    (rows : List α) (id k : ℕ) :
    (rows.map fun a => if key a = k then update a else a).find? (fun a => decide (key a = id)) =
      (rows.find? fun a => decide (key a = id)).map fun a => if key a = k then update a else a := by
  rw [List.find?_map]
  congr 2
  funext a
  simp only [Function.comp, FilteredSums.key_update keeps]

/-- Voiding a row keeps what it counts for; every other row stays as it was. -/
theorem Leaves.markVoided (known : Known marks book) {id : ℕ} (voided : id ∈ voids) :
    Leaves marks voids book (book.markVoided id) := by
  have keeps (r : TreasuryRow) : (if r.id = id then { r with voided := true } else r).id = r.id := by
    split <;> rfl
  refine ⟨⟨?_, known.cheque⟩, ?_, ?_⟩
  · intro rowId marked
    obtain ⟨earlier, mem, same⟩ := known.row rowId marked
    exact ⟨_, List.mem_map_of_mem mem, (keeps earlier).trans same⟩
  · intro bankAccountId
    simp only [totalOf, reconciledTotal, Book.markVoided, sumWhere_map]
    congr 1
    apply sumWhere_congr
    · intro r _
      simp only [Function.comp]
      split <;> rfl
    · intro r _ _
      simp only [Function.comp]
      split <;> rfl
  · intro key bankAccountId _ kept live
    obtain ⟨kind, rowId⟩ := key
    cases kind with
    | cheque => exact live
    | treasury =>
        have other : rowId ≠ id := fun same => kept rfl (same ▸ voided)
        obtain ⟨r, found, isLive⟩ := live
        have named : r.id = rowId := by simpa using List.find?_some found
        refine ⟨r, ?_, isLive⟩
        have sameId : ∀ r : TreasuryRow, TreasuryRow.id { r with voided := true } = r.id :=
          fun _ => rfl
        have moved := find?_update sameId book.rows rowId id
        unfold findRow at *
        rw [Book.markVoided, moved, found, Option.map_some, if_neg (named ▸ other)]

/-- A cheque that carries no mark may be rewritten. -/
theorem Leaves.rewriteCheque (known : Known marks book) {id : ℕ} {update : Cheque → Cheque}
    (keeps : ∀ cheque, (update cheque).id = cheque.id) (unmarked : marks ⟨.cheque, id⟩ = none) :
    Leaves marks voids book (book.rewriteCheque id update) := by
  refine ⟨⟨known.row, ?_⟩, ?_, ?_⟩
  · intro chequeId marked
    obtain ⟨earlier, mem, same⟩ := known.cheque chequeId marked
    exact ⟨_, List.mem_map_of_mem mem, (key_update keeps earlier).trans same⟩
  · intro bankAccountId
    simp only [totalOf, reconciledTotal, Book.rewriteCheque, sumWhere_map]
    congr 1
    apply sumWhere_eq_of_terms
    intro cheque _
    simp only [Function.comp]
    by_cases same : cheque.id = id
    · simp [same, keeps, unmarked]
    · simp [same]
  · intro key bankAccountId marked _ live
    obtain ⟨kind, chequeId⟩ := key
    cases kind with
    | treasury => exact live
    | cheque =>
        have other : chequeId ≠ id := by
          rintro rfl
          rw [unmarked] at marked
          cases marked
        obtain ⟨cheque, found, isLive⟩ := live
        have named : cheque.id = chequeId := by simpa using List.find?_some found
        refine ⟨cheque, ?_, isLive⟩
        have moved := find?_update keeps book.cheques chequeId id
        unfold findCheque at *
        rw [Book.rewriteCheque, moved, found, Option.map_some, if_neg (named ▸ other)]

/-- A new cheque carries no mark. -/
theorem Leaves.insertCheque (known : Known marks book) {cheque : Cheque}
    (fresh : ∀ c ∈ book.cheques, c.id ≠ cheque.id) :
    Leaves marks voids book { book with cheques := book.cheques ++ [cheque] } := by
  have unmarked : (marks ⟨.cheque, cheque.id⟩).isSome = false := by
    rw [Bool.eq_false_iff]
    intro marked
    obtain ⟨earlier, mem, same⟩ := known.cheque cheque.id marked
    exact fresh earlier mem same
  refine ⟨⟨known.row, ?_⟩, ?_, ?_⟩
  · intro id marked
    obtain ⟨earlier, mem, same⟩ := known.cheque id marked
    exact ⟨earlier, List.mem_append_left _ mem, same⟩
  · intro bankAccountId
    simp [totalOf, reconciledTotal, unmarked]
  · intro key bankAccountId _ _ live
    obtain ⟨kind, id⟩ := key
    cases kind with
    | treasury => exact live
    | cheque =>
        obtain ⟨c, found, isLive⟩ := live
        refine ⟨c, ?_, isLive⟩
        unfold findCheque at *
        rw [List.find?_append, found, Option.some_or]

/-! ## Every operation of the bank book -/

/-- Every marked row is live in some account. -/
def MarksLive (marks : RowKey → Option Mark) (book : Book) : Prop :=
  ∀ key, (marks key).isSome → ∃ bankAccountId, LiveIn book bankAccountId key

theorem MarksLive.known (live : MarksLive marks book) : Known marks book := by
  constructor
  · intro id marked
    obtain ⟨-, row, found, -⟩ := live ⟨.treasury, id⟩ marked
    exact ⟨row, List.mem_of_find?_eq_some found, by simpa using List.find?_some found⟩
  · intro id marked
    obtain ⟨-, cheque, found, -⟩ := live ⟨.cheque, id⟩ marked
    exact ⟨cheque, List.mem_of_find?_eq_some found, by simpa using List.find?_some found⟩

/-- A cheque that is read and is not passed carries no mark. -/
theorem MarksLive.unmarked (live : MarksLive marks book) {id : ℕ} {cheque : Cheque}
    (found : book.liveCheque id = .ok cheque) (open_ : cheque.status ≠ some .passed) :
    marks ⟨.cheque, cheque.id⟩ = none := by
  rw [← Option.not_isSome_iff_eq_none]
  intro marked
  obtain ⟨mem, named, notDeleted⟩ := liveCheque_ok found
  obtain ⟨-, passed, passedFound, isLive, -, status⟩ := live _ marked
  have same : passed = cheque := by
    unfold Book.liveCheque at found
    split at found
    · cases found
    · rename_i there
      cases found
      have apart : book.cheques.find? (fun c => decide (c.id = id) && !c.isDeleted) = some passed := by
        unfold findCheque at passedFound
        obtain ⟨is, before, after, split_, earlier⟩ := List.find?_eq_some_iff_append.mp passedFound
        refine List.find?_eq_some_iff_append.mpr ⟨?_, before, after, split_, ?_⟩
        · simp only [decide_eq_true_eq] at is
          simp [is, named, isLive]
        · intro c mem
          have other := earlier c mem
          simp only [Bool.not_eq_eq_eq_not, Bool.not_true, decide_eq_false_iff_not] at other
          simp [named ▸ other]
      exact Option.some.inj (apart.symm.trans there)
  exact open_ (same ▸ status)

/-- One operation leaves the reconciled rows as they were, unless it voids one. -/
theorem bankStep_leaves {op : BankOperation} (live : MarksLive marks book)
    (h : bankStep book op = .ok book') : Leaves marks (voidedBy book op) book book' := by
  have writes := bankStep_writes h
  clear h
  induction writes with
  | refl => exact .refl live.known
  | tail _ write first =>
      refine first.trans ?_
      cases write with
      | insertBank => exact .of_same first.known rfl rfl
      | putBank put => exact .putBank first.known put
      | insertRow inserted => exact .insertRow first.known inserted
      | markVoided voided => exact .markVoided first.known voided
      | insertCheque fresh => exact .insertCheque first.known fresh
      | rewriteCheque found open_ keeps => exact .rewriteCheque first.known keeps (live.unmarked found open_)

/-! ## A void leaves a voided row -/

/-- A row has this id. -/
def Book.Has (book : Book) (id : ℕ) : Prop := ∃ row ∈ book.rows, row.id = id

/-- Every row with this id is voided. -/
def AllVoided (book : Book) (id : ℕ) : Prop := ∀ row ∈ book.rows, row.id = id → row.voided = true

theorem AllVoided.not_live {id bankAccountId : ℕ} (voided : AllVoided book id) :
    ¬LiveIn book bankAccountId ⟨.treasury, id⟩ := by
  rintro ⟨row, found, -, -, standing⟩
  have named : row.id = id := by simpa using List.find?_some found
  rw [voided row (List.mem_of_find?_eq_some found) named] at standing
  cases standing

/-- A reversal adds one row of a new id and voids the rows of the original's id. -/
theorem rows_reverseTreasuryRow {bank : Bank} {ids : ReversalIds}
    (h : reverseTreasuryRow book row bank ids = .ok book') :
    (∀ r ∈ book.rows, r.id ≠ ids.id) ∧
      book'.rows = (book.rows ++ [row.reversal ids]).map fun r =>
        if r.id = row.id then { r with voided := true } else r := by
  simp only [BankBook.reverseTreasuryRow, bind_eq_ok, pure_eq_ok] at h
  obtain ⟨moved, written, reversed, inserted, rfl⟩ := h
  have same : moved.rows = book.rows := by
    unfold returnAmount at written
    split at written
    · simp only [BankBook.writeBankBalance, bind_eq_ok, ensure_eq_ok] at written
      obtain ⟨-, -, written⟩ := written
      obtain ⟨-, rfl⟩ := putBank_ok.mp written
      rfl
    · cases written
      rfl
  obtain ⟨fresh, -, rfl⟩ := insertRow_ok.mp inserted
  rw [same] at fresh
  refine ⟨fresh, ?_⟩
  simp only [Book.markVoided, same]

theorem Book.Has.of_reverse {bank : Bank} {ids : ReversalIds} {id : ℕ} (there : book.Has id)
    (h : BankBook.reverseTreasuryRow book row bank ids = .ok book') : book'.Has id := by
  obtain ⟨-, rows⟩ := rows_reverseTreasuryRow h
  obtain ⟨r, mem, named⟩ := there
  refine ⟨if r.id = row.id then { r with voided := true } else r, ?_, by split <;> exact named⟩
  rw [rows]
  exact List.mem_map_of_mem (f := fun r : TreasuryRow =>
    if r.id = row.id then { r with voided := true } else r) (List.mem_append_left _ mem)

theorem AllVoided.of_reverse {bank : Bank} {ids : ReversalIds} {id : ℕ} (there : book.Has id)
    (here : row.id = id ∨ AllVoided book id) (h : reverseTreasuryRow book row bank ids = .ok book') :
    AllVoided book' id := by
  obtain ⟨fresh, rows⟩ := rows_reverseTreasuryRow h
  intro after mem named
  rw [rows] at mem
  obtain ⟨before, beforeMem, rfl⟩ := List.mem_map.mp mem
  by_cases original : before.id = row.id
  · rw [if_pos original]
  · rw [if_neg original] at named ⊢
    rcases here with same | voided
    · exact absurd (named.trans same.symm) original
    · rcases List.mem_append.mp beforeMem with earlier | new
      · exact voided before earlier named
      · -- the new row's id is none of the earlier ones
        obtain ⟨r, mem, same⟩ := there
        rw [List.mem_singleton.mp new] at named
        exact absurd (same.trans named.symm) (fresh r mem)

/-- An accepted operation that voids a row leaves it voided. -/
theorem bankStep_voids {op : BankOperation} {id : ℕ} (h : bankStep book op = .ok book')
    (voided : id ∈ voidedBy book op) : AllVoided book' id := by
  cases op with
  | voidTreasuryTransaction request =>
      simp only [bankStep, BankBook.voidTreasuryTransaction, bind_eq_ok] at h
      obtain ⟨original, found, -, -, -, -, -, -, -, -, bank, -, reversed, first, second⟩ := h
      obtain ⟨mem, named, -⟩ := liveRow_ok found
      have standing : standingPartner book request.transactionId =
          (book.otherSide original).filter fun partner => !partner.voided := by
        rw [standingPartner, found]
        rfl
      have there : book.Has request.transactionId := ⟨original, mem, named⟩
      have done : AllVoided reversed request.transactionId := .of_reverse there (Or.inl named) first
      simp only [voidedBy, standing] at voided
      split at second
      · rename_i alone
        cases second
        simp only [alone, Option.toList_none, List.map_nil, List.mem_singleton] at voided
        exact voided ▸ done
      · rename_i partner withPartner
        rw [bind_eq_ok] at second
        obtain ⟨bank, -, second⟩ := second
        simp only [withPartner, Option.toList_some, List.map_cons, List.map_nil, List.mem_cons,
          List.not_mem_nil, or_false] at voided
        rcases voided with rfl | rfl
        · exact .of_reverse (there.of_reverse first) (Or.inr done) second
        · have partnerMem := (otherSide_mem (Option.filter_eq_some_iff.mp withPartner).1).1
          have partnerThere : book.Has partner.id := ⟨partner, partnerMem, rfl⟩
          exact .of_reverse (partnerThere.of_reverse first) (Or.inl rfl) second
  | voidPayrollPayment request =>
      simp only [bankStep, BankBook.voidPayrollPayment, bind_eq_ok] at h
      obtain ⟨payment, found, -, -, bank, -, -, -, -, -, reversed⟩ := h
      obtain ⟨mem, named, -⟩ := liveRow_ok found
      simp only [voidedBy, List.mem_singleton] at voided
      exact .of_reverse ⟨payment, mem, named.trans voided.symm⟩ (Or.inl (named.trans voided.symm))
        reversed
  | _ => cases voided

/-! ## A batch -/

theorem mem_readRows {params : ReconcileParams} {key : RowKey} :
    key ∈ params.readRows ↔ key ∈ params.keys := by
  simp only [ReconcileParams.readRows, ReconcileParams.keys, List.mem_append, List.mem_map,
    List.mem_mergeSort]

/-- A batch is accepted when each of its rows is live in the account and, if it marks, none
carries a mark. -/
theorem reconcileTreasuryRows_ok {params : ReconcileParams} :
    reconcileTreasuryRows t params = .ok t' ↔
      (∀ key ∈ params.keys, LiveIn t.book params.bankAccountId key) ∧
      (params.reconciled = true → ∀ key ∈ params.keys, t.marks key = none) ∧
      t.write params = t' := by
  have rows : (params.keys.filterMap fun key =>
      (reasonFor t.book params.bankAccountId key).map (key, ·)) = [] ↔
        ∀ key ∈ params.keys, LiveIn t.book params.bankAccountId key := by
    simp only [List.filterMap_eq_nil_iff, Option.map_eq_none_iff, reasonFor_eq_none]
  have free : t.alreadyReconciled params = none ↔
      (params.reconciled = true → ∀ key ∈ params.keys, t.marks key = none) := by
    unfold StatementBook.alreadyReconciled
    split
    · simp only [List.findSome?_eq_none_iff, Option.map_eq_none_iff, mem_readRows, *,
        forall_true_left]
    · simp [*]
  rw [← rows, ← free]
  unfold reconcileTreasuryRows
  simp only [ne_eq, ite_not]
  split
  · cases found : t.alreadyReconciled params <;> simp [*]
  · rename_i refused
    exact iff_of_false (fun accepted => by cases accepted) fun accepted => refused accepted.1

theorem mem_changed {params : ReconcileParams} {key : RowKey} :
    key ∈ t.changed params ↔ key ∈ params.keys ∧ (t.marks key).isSome ≠ params.reconciled := by
  rw [StatementBook.changed, List.mem_filter, mem_readRows, bne_iff_ne]

@[simp] theorem write_book {params : ReconcileParams} : (t.write params).book = t.book := by
  unfold StatementBook.write
  split <;> rfl

theorem write_marks {params : ReconcileParams} (key : RowKey) :
    (t.write params).marks key =
      if key ∈ t.changed params then StatementBook.ofParams params else t.marks key := by
  unfold StatementBook.write
  split
  · simp [*]
  · rfl

theorem write_history {params : ReconcileParams} (key : RowKey) :
    (t.write params).history key =
      if key ∈ t.changed params then
        t.history key ++ [⟨params.bankAccountId, params.batch, params.reconciled, t.changed params⟩]
      else t.history key := by
  unfold StatementBook.write StatementBook.history
  split
  · simp [*]
  · rw [List.filter_append]
    split <;> simp [*]

/-- A batch marks live rows of its account that were not marked, or takes marks back. -/
theorem OnLiveRows.reconcile {params : ReconcileParams} (sound : OnLiveRows t)
    (h : reconcileTreasuryRows t params = .ok t') : OnLiveRows t' := by
  obtain ⟨live, -, rfl⟩ := reconcileTreasuryRows_ok.mp h
  constructor
  · intro key mark marked
    rw [write_marks] at marked
    rw [write_history, write_book]
    split at marked
    · rename_i changed
      rw [if_pos changed]
      unfold StatementBook.ofParams at marked
      split at marked
      · cases marked
        exact ⟨_, List.getLast?_concat, ‹_›, rfl, live key (mem_changed.mp changed).1⟩
      · cases marked
    · rename_i kept
      rw [if_neg kept]
      exact sound.marked key mark marked
  · intro key unmarked
    rw [write_marks] at unmarked
    rw [write_history]
    split at unmarked
    · rename_i changed
      rw [if_pos changed, List.getLast?_concat]
      unfold StatementBook.ofParams at unmarked
      split at unmarked
      · cases unmarked
      · rintro entry ⟨⟩
        exact Bool.eq_false_iff.mpr ‹_›
    · rename_i kept
      rw [if_neg kept]
      exact sound.unmarked key unmarked
  · intro key
    rw [write_history]
    split
    · rename_i changed
      have other := (mem_changed.mp changed).2
      refine List.isChain_append.mpr ⟨sound.alternating key, List.isChain_singleton _, ?_⟩
      rintro last isLast entry ⟨⟩
      cases before : t.marks key with
      | none =>
          rw [sound.unmarked key before last isLast]
          simpa [before] using other
      | some mark =>
          obtain ⟨entry, isEntry, reconciled, -⟩ := sound.marked key mark before
          cases isEntry.symm.trans isLast
          rw [reconciled]
          simpa [before] using other
    · exact sound.alternating key

/-! ## Runs -/

/-- The operation voids no reconciled row. -/
def SparesReconciled (t : StatementBook) : StatementOperation → Prop
  | .bank op => ∀ id ∈ voidedBy t.book op, t.marks ⟨.treasury, id⟩ = none
  | .reconcile _ => True

theorem OnLiveRows.marksLive (sound : OnLiveRows t) : MarksLive t.marks t.book := by
  intro key marked
  obtain ⟨mark, here⟩ := Option.isSome_iff_exists.mp marked
  obtain ⟨entry, -, -, -, live⟩ := sound.marked key mark here
  exact ⟨entry.bankAccountId, live⟩

/-- An accepted operation keeps the reconciled rows live exactly when it voids none. -/
theorem statementStep_live_iff {op : StatementOperation} (sound : OnLiveRows t)
    (h : statementStep t op = .ok t') : OnLiveRows t' ↔ SparesReconciled t op := by
  cases op with
  | reconcile params => exact iff_of_true (sound.reconcile h) trivial
  | bank op =>
      cases accepted : bankStep t.book op with
      | error e => simp [statementStep, accepted] at h
      | ok book =>
          simp only [statementStep, accepted] at h
          cases h
          constructor
          · intro after id voided
            rw [← Option.not_isSome_iff_eq_none]
            intro marked
            obtain ⟨mark, here⟩ := Option.isSome_iff_exists.mp marked
            obtain ⟨entry, -, -, -, live⟩ := after.marked _ mark here
            exact (bankStep_voids accepted voided).not_live live
          · intro spares
            have leaves := bankStep_leaves sound.marksLive accepted
            refine ⟨?_, sound.unmarked, sound.alternating⟩
            intro key mark marked
            obtain ⟨entry, last, reconciled, batch, live⟩ := sound.marked key mark marked
            have carried : (t.marks key).isSome := by rw [marked, Option.isSome_some]
            refine ⟨entry, last, reconciled, batch, leaves.live key _ carried ?_ live⟩
            intro treasury voided
            have free := spares key.id voided
            rw [← treasury, marked] at free
            cases free

/-- An operation of the bank book changes no reconciled total. -/
theorem reconciledTotal_bank (sound : OnLiveRows t) (op : BankOperation) (bankAccountId : ℕ) :
    reconciledTotal (exec statementStep t (.bank op)) bankAccountId =
      reconciledTotal t bankAccountId := by
  cases accepted : bankStep t.book op with
  | error e =>
      have refused : statementStep t (.bank op) = .error (.book e) := by rw [statementStep, accepted]
      rw [exec_of_error refused]
  | ok book =>
      have done : statementStep t (.bank op) = .ok { t with book } := by rw [statementStep, accepted]
      rw [exec_of_ok done]
      exact (bankStep_leaves sound.marksLive accepted).total bankAccountId

/-- A book whose reconciled rows are live. -/
structure ReconciledBook where
  book : StatementBook
  sound : OnLiveRows book

/-- In every state of a run the reconciliation stands on live rows, no operation but a batch
changes a reconciled total and a refused batch changes nothing, if and only if no accepted
void of the run takes a reconciled row back. -/
theorem reconciliation_on_live_rows_iff (start : ReconciledBook) (ops : List StatementOperation) :
    (∀ moment, let t := run statementStep start.book (ops.take moment)
      OnLiveRows t ∧
      (∀ op bankAccountId, reconciledTotal (exec statementStep t (.bank op)) bankAccountId =
        reconciledTotal t bankAccountId) ∧
      ∀ params e, reconcileTreasuryRows t params = .error e →
        exec statementStep t (.reconcile params) = t) ↔
    Along statementStep SparesReconciled start.book ops := by
  constructor
  · intro good
    refine along_of_prefixes (I := OnLiveRows) (J := OnLiveRows) ?_ start.sound
      fun moment => (good moment).1
    intro t op t' before accepted after
    exact ⟨(statementStep_live_iff before accepted).mp after, after⟩
  · intro along moment
    have sound := run_invariant_along (I := OnLiveRows)
      (fun t op t' before spares accepted => (statementStep_live_iff before accepted).mpr spares)
      start.sound (along.take moment)
    exact ⟨sound, reconciledTotal_bank sound, fun params e refused => exec_of_error refused⟩

/-- A receipt of 100 is reconciled in a statement of its account and voided afterwards: the
voided row keeps its mark, and no batch takes it back. -/
theorem reconciled_row_voided :
    ∃ (start : ReconciledBook) (mark void unmark : StatementOperation),
      let t := run statementStep start.book [mark, void]
      t.marks ⟨.treasury, 5⟩ = some ⟨"2026-10-01T08:00:00.000Z", "stmt-1"⟩ ∧
      (findRow t.book 5).map (·.voided) = some true ∧
      (exec statementStep t unmark).marks ⟨.treasury, 5⟩ =
        some ⟨"2026-10-01T08:00:00.000Z", "stmt-1"⟩ ∧ ¬OnLiveRows t := by
  let account : Bank := ⟨1, stored 0, stored 100, true, false⟩
  let receipt : TreasuryRow := ⟨5, .receipt, .bankTransfer, stored 100, some 1, none, none, none, false, false⟩
  let start : ReconciledBook :=
    { book := ⟨⟨[account], [receipt], []⟩, fun _ => none, []⟩
      sound := ⟨by simp, by simp [StatementBook.history], by simp [StatementBook.history]⟩ }
  let batch (reconciled : Bool) : StatementOperation :=
    .reconcile ⟨1, [5], [], "stmt-1", reconciled, "2026-10-01T08:00:00.000Z"⟩
  let t := run statementStep start.book [batch true, .bank (.voidTreasuryTransaction ⟨5, none, 6, 7, false⟩)]
  have marked : t.marks ⟨.treasury, 5⟩ = some ⟨"2026-10-01T08:00:00.000Z", "stmt-1"⟩ := by decide +kernel
  have voided : (findRow t.book 5).map (·.voided) = some true := by decide +kernel
  refine ⟨start, batch true, _, batch false, marked, voided, by decide +kernel, ?_⟩
  intro sound
  obtain ⟨-, -, -, -, row, found, -, -, standing⟩ := sound.marked _ _ marked
  rw [show findRow t.book 5 = some row from found, Option.map_some, standing] at voided
  cases voided

end PapitalErp.BankBook
