import PapitalErp.Accounting.FiscalPeriod
import PapitalErp.Accounting.VoucherBalance

/-!
# What is accepted can be finalized

A draft voucher is written by `createJournalVoucher` and rewritten by
`updateJournalVoucher`, and finalizing it judges it once more, from its stored header and
rows. A voucher that was judged by its raw totals is within the tolerance there too. One
that was judged in rial is judged again row by row, and the rows of an automatic voucher
are stored after the judgement: without a currency as rial, amounts and rates in four
decimals.

The dates, the accounts, the control accounts and the version a write checks besides only
refuse it and are left out.
-/

namespace PapitalErp

open Rounding Transition

/-! ## Writing a voucher -/

/-- What finalizing reads of a stored voucher, and its status. -/
structure StoredVoucher where
  status : VoucherStatus
  totalDebit : ℚ
  totalCredit : ℚ
  currency : String
  rows : List VoucherItemAmounts
  deriving DecidableEq

inductive VoucherWriteError where
  | tooFewRows
  | rows (error : VoucherRowsError)
  | notFound
  | notDraft (status : VoucherStatus)
  deriving DecidableEq

/-- The rows that are stored and the totals of the header, once the rows are judged. -/
def judgedRows (items : List VoucherRowAmounts) (voucherCurrency : Option String) (manualEntry : Bool) :
    Except VoucherRowsError (List VoucherRowAmounts × VoucherRowTotals) :=
  if manualEntry then resolveManualVoucherRows items voucherCurrency
  else do
    let totals ← assertVoucherRowsBalanced items voucherCurrency false
    return (items, totals)

structure NewVoucher where
  items : List VoucherRowAmounts
  currency : Option String
  status : Option VoucherStatus
  manualEntry : Bool

def createJournalVoucher (data : NewVoucher) : Except VoucherWriteError StoredVoucher := do
  ensure (2 ≤ data.items.length) VoucherWriteError.tooFewRows
  let (rows, totals) ← (judgedRows data.items data.currency data.manualEntry).mapError .rows
  return { status := data.status.getD .draft
           totalDebit := money totals.sumDebit
           totalCredit := money totals.sumCredit
           currency := (data.currency.filter (· ≠ "")).getD "IRR"
           rows := rows.map storeAmounts }

structure VoucherEdit where
  items : Option (List VoucherRowAmounts)
  status : Option VoucherStatus
  manualEntry : Bool

/-- The rows of an edit that replace the rows of the voucher. -/
def VoucherEdit.replacement (data : VoucherEdit) : Option (List VoucherRowAmounts) :=
  data.items.filter (2 ≤ ·.length)

def updateJournalVoucher (existing : StoredVoucher) (data : VoucherEdit) :
    Except VoucherWriteError StoredVoucher := do
  ensure (existing.status = .draft) (VoucherWriteError.notDraft existing.status)
  match data.replacement with
  | some items =>
      let (rows, totals) ← (judgedRows items (some existing.currency) data.manualEntry).mapError .rows
      return { existing with
        status := data.status.getD existing.status
        totalDebit := money totals.sumDebit
        totalCredit := money totals.sumCredit
        rows := rows.map storeAmounts }
  | none =>
      return { existing with
        status := data.status.getD existing.status
        totalDebit := money existing.totalDebit
        totalCredit := money existing.totalCredit }

/-- A stored row as finalizing reads it. -/
def VoucherItemAmounts.asRow (item : VoucherItemAmounts) : VoucherRowAmounts :=
  ⟨item.debit, item.credit, some item.currency, some item.exchangeRate⟩

def isVoucherBalancedForFinalize (voucher : StoredVoucher) : Bool :=
  decide (|voucher.totalDebit - voucher.totalCredit| ≤ voucherBalanceTolerance) ||
    (computeVoucherCurrencyBalance (voucher.rows.map (·.asRow)) (some voucher.currency)).isBalanced

inductive JournalVoucherRequest where
  | create (data : NewVoucher)
  | update (id : ℕ) (data : VoucherEdit)

/-- One write of the vouchers of the books, each under its place among them. -/
def journalVoucherStep (vouchers : List StoredVoucher) : JournalVoucherRequest → Except VoucherWriteError (List StoredVoucher)
  | .create data => do
      let voucher ← createJournalVoucher data
      return vouchers ++ [voucher]
  | .update id data =>
      match vouchers[id]? with
      | some existing => do
          let voucher ← updateJournalVoucher existing data
          return vouchers.set id voucher
      | none => throw .notFound

/-! ## Rows that storing does not change -/

/-- A row that is read back in the currency and at the rate it was judged in, with the same
amounts in rial. -/
structure KeptByStoring (header : String) (voucherCurrency : Option String) (item : VoucherRowAmounts) :
    Prop where
  currency : (resolveRow (some header) (storeAmounts item).asRow).currency =
    (resolveRow voucherCurrency item).currency
  rate : (resolveRow (some header) (storeAmounts item).asRow).rate = (resolveRow voucherCurrency item).rate
  debit : (resolveRow (some header) (storeAmounts item).asRow).toRial (storeAmounts item).debit =
    (resolveRow voucherCurrency item).toRial item.debit
  credit : (resolveRow (some header) (storeAmounts item).asRow).toRial (storeAmounts item).credit =
    (resolveRow voucherCurrency item).toRial item.credit

instance (header : String) (voucherCurrency : Option String) (item : VoucherRowAmounts) :
    Decidable (KeptByStoring header voucherCurrency item) :=
  decidable_of_iff (_ = _ ∧ _ = _ ∧ _ = _ ∧ _ = _)
    ⟨fun ⟨currency, rate, debit, credit⟩ => ⟨currency, rate, debit, credit⟩,
      fun h => ⟨h.currency, h.rate, h.debit, h.credit⟩⟩

/-- The rows as they are judged: those of a manual voucher have their currency and rate. -/
def rowsToStore (items : List VoucherRowAmounts) (voucherCurrency : Option String) (manualEntry : Bool) :
    List VoucherRowAmounts :=
  if manualEntry then items.map fun item =>
    let r := resolveRow voucherCurrency item
    { item with currency := some r.currency, exchangeRate := r.rate.map money }
  else items

/-- The raw totals of the rows are within the tolerance, or storing keeps every row. -/
def RowsKept (header : String) (voucherCurrency : Option String) (manualEntry : Bool)
    (items : List VoucherRowAmounts) : Prop :=
  |(items.map (·.debit)).sum - (items.map (·.credit)).sum| ≤ voucherBalanceTolerance ∨
    ∀ item ∈ rowsToStore items voucherCurrency manualEntry, KeptByStoring header voucherCurrency item

instance (header : String) (voucherCurrency : Option String) (manualEntry : Bool)
    (items : List VoucherRowAmounts) : Decidable (RowsKept header voucherCurrency manualEntry items) :=
  inferInstanceAs (Decidable (_ ∨ _))

/-- The rows a write brings, if any, are kept. -/
def KeepsRows (vouchers : List StoredVoucher) : JournalVoucherRequest → Prop
  | .create data =>
      RowsKept ((data.currency.filter (· ≠ "")).getD "IRR") data.currency data.manualEntry data.items
  | .update id data => ∀ existing ∈ vouchers[id]?, ∀ items ∈ data.replacement,
      RowsKept existing.currency (some existing.currency) data.manualEntry items

instance (vouchers : List StoredVoucher) : ∀ op, Decidable (KeepsRows vouchers op)
  | .create _ => inferInstanceAs (Decidable (RowsKept _ _ _ _))
  | .update id data => inferInstanceAs (Decidable (∀ existing ∈ vouchers[id]?, ∀ items ∈ data.replacement,
      RowsKept existing.currency (some existing.currency) data.manualEntry items))

/-! ## The verdict on what was accepted -/

section Verdict

variable {items rows : List VoucherRowAmounts} {voucherCurrency : Option String} {header : String}
  {manualEntry : Bool} {totals : VoucherRowTotals}

/-- Totals within a whole number of units are within it once they are rounded. -/
theorem roundHalfUp_le_add {n : ℕ} {a b δ : ℚ} (ha : 0 ≤ a) (hb : 0 ≤ b) (hδ : AtScale n δ)
    (le : a ≤ b + δ) : roundHalfUp n a ≤ roundHalfUp n b + δ := by
  have near := (roundHalfUp_le_iff hb (atScale_roundHalfUp n b)).mp le_rfl
  refine (roundHalfUp_le_iff ha ((atScale_roundHalfUp n b).add hδ)).mpr ?_
  have scaled := mul_le_mul_of_nonneg_right le (by positivity : (0 : ℚ) ≤ 10 ^ n)
  linarith

theorem atScale_tolerance : AtScale 4 voucherBalanceTolerance := ⟨100, by norm_num [voucherBalanceTolerance]⟩

theorem abs_money_sub_money_le {a b : ℚ} (ha : 0 ≤ a) (hb : 0 ≤ b)
    (close : |a - b| ≤ voucherBalanceTolerance) : |money a - money b| ≤ voucherBalanceTolerance := by
  obtain ⟨below, above⟩ := abs_le.mp close
  have up := roundHalfUp_le_add ha hb atScale_tolerance (by linarith)
  have down := roundHalfUp_le_add hb ha atScale_tolerance (by linarith)
  simp only [money, FinancialDecimal.round, abs_le]
  constructor <;> linarith

theorem rawTotals_ok (h : rawTotals items = .ok totals) :
    totals = ⟨(items.map (·.debit)).sum, (items.map (·.credit)).sum⟩ ∧
      0 ≤ totals.sumDebit ∧ 0 ≤ totals.sumCredit := by
  simp only [rawTotals, bind_eq_ok, forM_eq_ok, ensure_eq_ok, pure_eq_ok] at h
  obtain ⟨_, each, rfl⟩ := h
  refine ⟨rfl, List.sum_nonneg fun x mem => ?_, List.sum_nonneg fun x mem => ?_⟩ <;>
    obtain ⟨item, listed, rfl⟩ := List.mem_map.mp mem <;> obtain ⟨_, signs, -⟩ := each item listed
  · exact signs.1
  · exact signs.2

theorem totals_of_assert {manual : Bool} (h : assertVoucherRowsBalanced items voucherCurrency manual = .ok totals) :
    rawTotals items = .ok totals := by
  simp only [assertVoucherRowsBalanced, bind_eq_ok] at h
  obtain ⟨sums, counted, h⟩ := h
  split at h <;> simp only [bind_eq_ok, pure_eq_ok] at h
  · obtain ⟨_, -, rfl⟩ := h
    exact counted
  · obtain ⟨_, -, _, -, rfl⟩ := h
    exact counted

/-- What is stored was judged, and by the rule of its path. -/
theorem judgedRows_ok (h : judgedRows items voucherCurrency manualEntry = .ok (rows, totals)) :
    rows = rowsToStore items voucherCurrency manualEntry ∧
      assertVoucherRowsBalanced rows voucherCurrency manualEntry = .ok totals := by
  cases manualEntry with
  | true =>
      simp only [judgedRows, if_true, resolveManualVoucherRows, bind_eq_ok, pure_eq_ok, Prod.mk.injEq] at h
      obtain ⟨_, -, sums, judged, rfl, rfl⟩ := h
      exact ⟨rfl, judged⟩
  | false =>
      simp only [judgedRows, Bool.false_eq_true, if_false, bind_eq_ok, pure_eq_ok, Prod.mk.injEq] at h
      obtain ⟨sums, judged, rfl, rfl⟩ := h
      exact ⟨rfl, judged⟩

/-- The balance of rows of several currencies or rates is that of their rial amounts. -/
theorem isBalanced_iff (several : ¬ IsSingle (rows.map (resolveRow voucherCurrency))) :
    (computeVoucherCurrencyBalance rows voucherCurrency).isBalanced = true ↔
      (∀ row ∈ rows, (resolveRow voucherCurrency row).rate ≠ none) ∧
        0 < (rows.map fun row => (resolveRow voucherCurrency row).toRial row.debit).sum ∧
          |(rows.map fun row => (resolveRow voucherCurrency row).toRial row.debit).sum -
            (rows.map fun row => (resolveRow voucherCurrency row).toRial row.credit).sum| ≤
              voucherBalanceTolerance := by
  simp only [computeVoucherCurrencyBalance, if_neg several, decide_eq_true_eq, List.map_map,
    Function.comp_def, List.filterMap_eq_nil_iff, Prod.forall]
  refine and_congr_left' ⟨fun passed row mem unrated => ?_, fun each r i listed => ?_⟩
  · obtain ⟨i, found⟩ := List.mem_iff_getElem?.mp (List.mem_map_of_mem (f := resolveRow voucherCurrency) mem)
    have rated := passed _ i (List.mem_zipIdx_iff_getElem?.mpr found)
    simp at rated
    exact rated unrated
  · obtain ⟨row, mem, rfl⟩ := List.mem_map.mp (List.fst_mem_of_mem_zipIdx listed)
    exact if_neg (each row mem)

theorem isBalanced_of_assert {manual : Bool}
    (accepted : assertVoucherRowsBalanced rows voucherCurrency manual = .ok totals)
    (rial : checkRaw rows voucherCurrency manual = false) :
    (computeVoucherCurrencyBalance rows voucherCurrency).isBalanced = true := by
  simp only [assertVoucherRowsBalanced, bind_eq_ok, rial, Bool.false_eq_true, if_false,
    ensure_eq_ok] at accepted
  obtain ⟨_, -, _, -, _, balanced, -⟩ := accepted
  exact balanced

/-- Rows that storing keeps are of as many currencies and rates as they were. -/
theorem isSingle_stored (kept : ∀ row ∈ rows, KeptByStoring header voucherCurrency row) :
    IsSingle (((rows.map storeAmounts).map (·.asRow)).map (resolveRow (some header))) ↔
      IsSingle (rows.map (resolveRow voucherCurrency)) := by
  have currencies : ((((rows.map storeAmounts).map (·.asRow)).map (resolveRow (some header))).map (·.currency)) =
      (rows.map (resolveRow voucherCurrency)).map (·.currency) := by
    simp only [List.map_map, Function.comp_def]
    exact List.map_congr_left fun row mem => (kept row mem).currency
  have rates : ((((rows.map storeAmounts).map (·.asRow)).map (resolveRow (some header))).map (·.rate)) =
      (rows.map (resolveRow voucherCurrency)).map (·.rate) := by
    simp only [List.map_map, Function.comp_def]
    exact List.map_congr_left fun row mem => (kept row mem).rate
  rw [IsSingle, IsSingle, currencies, rates]

/-- Rows that balance in rial and that storing keeps balance as they are stored. -/
theorem isBalanced_stored (several : ¬ IsSingle (rows.map (resolveRow voucherCurrency)))
    (kept : ∀ row ∈ rows, KeptByStoring header voucherCurrency row)
    (balanced : (computeVoucherCurrencyBalance rows voucherCurrency).isBalanced = true) :
    (computeVoucherCurrencyBalance ((rows.map storeAmounts).map (·.asRow)) (some header)).isBalanced = true := by
  obtain ⟨rated, positive, close⟩ := (isBalanced_iff several).mp balanced
  rw [isBalanced_iff (mt (isSingle_stored kept).mp several)]
  have debits : (((rows.map storeAmounts).map (·.asRow)).map fun row =>
      (resolveRow (some header) row).toRial row.debit) =
        rows.map fun row => (resolveRow voucherCurrency row).toRial row.debit := by
    simp only [List.map_map, Function.comp_def]
    exact List.map_congr_left fun row mem => (kept row mem).debit
  have credits : (((rows.map storeAmounts).map (·.asRow)).map fun row =>
      (resolveRow (some header) row).toRial row.credit) =
        rows.map fun row => (resolveRow voucherCurrency row).toRial row.credit := by
    simp only [List.map_map, Function.comp_def]
    exact List.map_congr_left fun row mem => (kept row mem).credit
  rw [debits, credits]
  refine ⟨fun stored listed unrated => ?_, positive, close⟩
  rw [List.map_map] at listed
  obtain ⟨row, mem, rfl⟩ := List.mem_map.mp listed
  exact rated row mem ((kept row mem).rate.symm.trans unrated)

/-- A manual row is stored with the amounts it was sent with. -/
theorem map_rowsToStore (column : VoucherRowAmounts → ℚ)
    (amount : ∀ row currency rate, column { row with currency, exchangeRate := rate } = column row) :
    (rowsToStore items voucherCurrency manualEntry).map column = items.map column := by
  cases manualEntry with
  | true =>
      rw [rowsToStore, if_pos rfl, List.map_map]
      exact List.map_congr_left fun row _ => amount row _ _
  | false => rfl

/-- What was accepted and is kept by storing is balanced when it is finalized. -/
theorem isVoucherBalancedForFinalize_of_judged
    (judged : judgedRows items voucherCurrency manualEntry = .ok (rows, totals))
    (kept : RowsKept header voucherCurrency manualEntry items) (status : VoucherStatus) :
    isVoucherBalancedForFinalize ⟨status, money totals.sumDebit, money totals.sumCredit, header,
      rows.map storeAmounts⟩ = true := by
  obtain ⟨rfl, accepted⟩ := judgedRows_ok judged
  obtain ⟨sums, debit, credit⟩ := rawTotals_ok (totals_of_assert accepted)
  rw [isVoucherBalancedForFinalize, Bool.or_eq_true, decide_eq_true_eq]
  by_cases close : |totals.sumDebit - totals.sumCredit| ≤ voucherBalanceTolerance
  · exact .inl (abs_money_sub_money_le debit credit close)
  · have rial : checkRaw (rowsToStore items voucherCurrency manualEntry) voucherCurrency manualEntry = false := by
      by_contra raw
      exact close (by rw [sums]; exact checkRaw_ok accepted (by simpa using raw))
    obtain near | kept := kept
    · refine absurd ?_ close
      rw [sums, map_rowsToStore _ fun _ _ _ => rfl, map_rowsToStore _ fun _ _ _ => rfl]
      exact near
    · exact .inr (isBalanced_stored (not_isSingle_of_checkRaw rial) kept (isBalanced_of_assert accepted rial))

end Verdict

/-! ## Every voucher of the books -/

section Books

variable {vouchers : List StoredVoucher} {op : JournalVoucherRequest}

/-- Header totals of the scale of the column, and a voucher that finalizing takes. -/
structure Finalizes (voucher : StoredVoucher) : Prop where
  debit : AtScale 4 voucher.totalDebit
  credit : AtScale 4 voucher.totalCredit
  balanced : isVoucherBalancedForFinalize voucher = true

theorem mapError_eq_ok {ε ε' α : Type*} {f : ε → ε'} {x : Except ε α} {a : α} :
    x.mapError f = .ok a ↔ x = .ok a := by
  cases x <;> simp [Except.mapError]

theorem finalizes_create {data : NewVoucher} {voucher : StoredVoucher}
    (kept : RowsKept ((data.currency.filter (· ≠ "")).getD "IRR") data.currency data.manualEntry data.items)
    (created : createJournalVoucher data = .ok voucher) : Finalizes voucher := by
  simp only [createJournalVoucher, bind_eq_ok, pure_eq_ok, mapError_eq_ok] at created
  obtain ⟨_, -, ⟨rows, totals⟩, judged, rfl⟩ := created
  exact ⟨atScale_money _, atScale_money _, isVoucherBalancedForFinalize_of_judged judged kept _⟩

theorem finalizes_update {existing voucher : StoredVoucher} {data : VoucherEdit} (good : Finalizes existing)
    (kept : ∀ items ∈ data.replacement,
      RowsKept existing.currency (some existing.currency) data.manualEntry items)
    (updated : updateJournalVoucher existing data = .ok voucher) : Finalizes voucher := by
  simp only [updateJournalVoucher, bind_eq_ok] at updated
  obtain ⟨_, -, updated⟩ := updated
  cases sent : data.replacement with
  | some items =>
      simp only [sent, bind_eq_ok, pure_eq_ok, mapError_eq_ok] at updated
      obtain ⟨⟨rows, totals⟩, judged, rfl⟩ := updated
      exact ⟨atScale_money _, atScale_money _,
        isVoucherBalancedForFinalize_of_judged judged (kept items sent) _⟩
  | none =>
      simp only [sent, pure_eq_ok] at updated
      subst updated
      -- the header is written back as it was read
      refine ⟨atScale_money _, atScale_money _, ?_⟩
      have same := good.balanced
      rwa [isVoucherBalancedForFinalize, money_of_atScale good.debit, money_of_atScale good.credit]

/-- One accepted write keeps every voucher fit for finalizing. -/
theorem finalizes_step {after : List StoredVoucher} (good : ∀ voucher ∈ vouchers, Finalizes voucher)
    (kept : KeepsRows vouchers op) (accepted : journalVoucherStep vouchers op = .ok after) :
    ∀ voucher ∈ after, Finalizes voucher := by
  intro voucher mem
  cases op with
  | create data =>
      simp only [journalVoucherStep, bind_eq_ok, pure_eq_ok] at accepted
      obtain ⟨created, built, rfl⟩ := accepted
      rcases List.mem_append.mp mem with old | new
      · exact good voucher old
      · obtain rfl := List.mem_singleton.mp new
        exact finalizes_create kept built
  | update id data =>
      simp only [journalVoucherStep] at accepted
      cases found : vouchers[id]? with
      | none => simp [found] at accepted
      | some existing =>
          simp only [found, bind_eq_ok, pure_eq_ok] at accepted
          obtain ⟨updated, written, rfl⟩ := accepted
          rcases List.mem_or_eq_of_mem_set mem with old | rfl
          · exact good voucher old
          · exact finalizes_update (good existing (List.mem_of_getElem? found)) (kept existing found) written

/-- Over any writes of vouchers whose rows are kept, every stored voucher can be finalized. -/
theorem accepted_can_be_finalized {ops : List JournalVoucherRequest}
    (kept : Along journalVoucherStep KeepsRows [] ops) :
    ∀ voucher ∈ run journalVoucherStep [] ops, isVoucherBalancedForFinalize voucher = true :=
  fun voucher mem => (run_invariant_along (fun _ _ _ good meets accepted => finalizes_step good meets accepted)
    (fun _ listed => absurd listed List.not_mem_nil) kept voucher mem).balanced

end Books

/-- A voucher in dollars and rial, and an edit that doubles it. -/
theorem accepted_can_be_finalized_after_edit :
    let mixed : List VoucherRowAmounts := [⟨2, 0, some "USD", some 600000⟩, ⟨0, 1200000, none, none⟩]
    let doubled : List VoucherRowAmounts := [⟨4, 0, some "USD", some 600000⟩, ⟨0, 2400000, none, none⟩]
    ∀ voucher ∈ run journalVoucherStep []
        [.create ⟨mixed, none, none, false⟩, .update 0 ⟨some doubled, some .approved, false⟩],
      isVoucherBalancedForFinalize voucher = true := by
  intro mixed doubled
  exact accepted_can_be_finalized (by decide +kernel)

/-- A hundred dollars in a row without a currency: judged in the dollars of the voucher and
stored as a hundred rial. -/
theorem accepted_cannot_be_finalized :
    let items : List VoucherRowAmounts := [⟨100, 0, none, some 600000⟩, ⟨0, 60000000, some "IRR", none⟩]
    let voucher : StoredVoucher := { status := .draft
                                     totalDebit := 100
                                     totalCredit := 60000000
                                     currency := "USD"
                                     rows := [⟨100, 0, "IRR", 600000⟩, ⟨0, 60000000, "IRR", 1⟩] }
    createJournalVoucher ⟨items, some "USD", none, false⟩ = .ok voucher ∧
      voucher ∈ run journalVoucherStep [] [.create ⟨items, some "USD", none, false⟩] ∧
        isVoucherBalancedForFinalize voucher = false := by
  decide +kernel

end PapitalErp
