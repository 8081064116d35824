import PapitalErp.Reports.SalesGroups
import PapitalErp.Reports.SalesVouchers

/-!
# The sales report and the ledger

Document by document, what the report counts of a sale or a return is what its
voucher posts on the accounts of the check: exactly in the view of one currency, and
but for a rial in a foreign document of the view of all. This is so of documents
whose amount has four decimals, whose currency stands without blanks around it and,
in the view of all, which have a rate.
-/

namespace PapitalErp.Sales

open FilteredSums Rounding SalesReports

variable {books : Books} {posting : Posting} {view : CurrencyView} {scope : SalesScope}

/-! ## The rows of the check as items of vouchers -/

/-- `voucherItemReportAmountSql` of a column of an item. -/
def Entry.reportAmount (view : CurrencyView) (e : Entry) (column : ℚ) : ℚ :=
  match view with
  | .all => if e.currency = "IRR" then column else roundHalfUp 0 (column * e.rate)
  | .one _ _ _ => column

/-- `voucherItemCurrencyCondition`. -/
def Entry.inView (view : CurrencyView) (e : Entry) : Bool :=
  match view with
  | .all => true
  | .one code _ _ => e.currency == code

def Entry.amount (view : CurrencyView) (e : Entry) : ℚ :=
  e.reportAmount view e.credit - e.reportAmount view e.debit

theorem isAllCurrenciesView_all : Aging.isAllCurrenciesView "all" = true := rfl

theorem checkAmount_eq (row : LedgerRow) : checkAmount view row = row.entry.amount view := by
  cases view with
  | all =>
    simp only [checkAmount, CurrencyView.text, Aging.voucherItemReportAmount,
      isAllCurrenciesView_all, if_true]
    rfl
  | one code capitals single =>
    simp only [checkAmount, CurrencyView.text, Aging.voucherItemReportAmount, single]
    rfl

theorem currencyCondition_eq (row : LedgerRow) :
    Aging.voucherItemCurrencyCondition row.aging view.text = row.entry.inView view := by
  cases view with
  | all => rfl
  | one code capitals single =>
    simp only [Aging.voucherItemCurrencyCondition, CurrencyView.text, single, capitals,
      Bool.false_or]
    rfl

/-- The check has the rows of every status between its two figures. -/
theorem ledgerSum_add (accounts : SalesAccounts) (range : ReportRange) :
    ledgerSum books accounts range view ["approved", "permanent"] +
        ledgerSum books accounts range view ["draft"] =
      sumWhere (fun e : Entry => range.holds e.day && e.inView view) (Entry.amount view)
        ((checkRows books accounts).map LedgerRow.entry) := by
  rw [ledgerSum, ledgerSum, sumWhere_map, sumWhere_add_sumWhere]
  · refine sumWhere_congr (fun row hrow => ?_) fun row _ _ => checkAmount_eq row
    obtain ⟨member, keeps⟩ := List.mem_filter.mp hrow
    have live : row.voucher.isDeleted = false := by
      simp only [Bool.and_eq_true, Bool.not_eq_true'] at keeps
      exact keeps.1.1.2
    have status := books.statuses row member live
    rw [currencyCondition_eq, ← Bool.and_or_distrib_left]
    have one : (["approved", "permanent"].contains row.voucher.status ||
        ["draft"].contains row.voucher.status) = true := by
      simpa [or_assoc] using status
    rw [one, Bool.and_true]
    rfl
  · intro row _
    have apart : (["approved", "permanent"].contains row.voucher.status &&
        ["draft"].contains row.voucher.status) = false := by
      by_cases draft : row.voucher.status = "draft" <;> simp [draft]
    have split : ∀ a b c : Bool, (b && c) = false → (a && b && (a && c)) = false := by decide
    exact split _ _ _ apart

/-! ## What a document's voucher has on the accounts of the check -/

/-- The items of the document's voucher on the check's accounts, in the view. -/
def docLedger (books : Books) (posting : Posting) (view : CurrencyView) (d : SalesDocument) : ℚ :=
  sumWhere (fun e => onCheck posting.accounts e && e.inView view) (Entry.amount view)
    ((autoEntries books posting d).getD [])

theorem day_of_mem_itemIf {amount : ℚ} {account : Option ℕ} {entry : ℕ → Entry} {e : Entry}
    {day : ℤ} (days : ∀ id, (entry id).day = day) (h : e ∈ itemIf amount account entry) :
    e.day = day := by
  unfold itemIf at h
  split at h
  · obtain ⟨id, -, rfl⟩ := List.mem_map.mp h
    exact days id
  · exact absurd h List.not_mem_nil

/-- A voucher is dated as its document. -/
theorem day_of_mem_autoEntries {d : SalesDocument} {entries : List Entry}
    (posted : autoEntries books posting d = some entries) {e : Entry} (h : e ∈ entries) :
    e.day = d.day := by
  have debits : ∀ rate amount id, (debitEntry d rate amount id).day = d.day := fun _ _ _ => rfl
  have credits : ∀ rate amount id, (creditEntry d rate amount id).day = d.day := fun _ _ _ => rfl
  unfold autoEntries at posted
  split at posted
  · unfold returnEntries at posted
    dsimp only at posted
    split at posted
    · cases posted
    obtain ⟨rate, -, posted⟩ := Option.bind_eq_some_iff.mp posted
    split at posted
    · cases posted
    split at posted
    · cases posted
    obtain rfl := Option.some.inj posted
    simp only [List.mem_append] at h
    obtain (h | h) | h := h
    · exact day_of_mem_itemIf (debits _ _) h
    · exact day_of_mem_itemIf (debits _ _) h
    · exact day_of_mem_itemIf (credits _ _) h
  · unfold salesEntries at posted
    dsimp only at posted
    split at posted
    · cases posted
    split at posted
    · cases posted
    split at posted
    · cases posted
    obtain ⟨rate, -, rfl⟩ := Option.map_eq_some_iff.mp posted
    simp only [List.mem_append] at h
    obtain (((h | h) | h) | h) | h := h
    · exact day_of_mem_itemIf (debits _ _) h
    · exact day_of_mem_itemIf (debits _ _) h
    · exact day_of_mem_itemIf (credits _ _) h
    · exact day_of_mem_itemIf (credits _ _) h
    · exact day_of_mem_itemIf (credits _ _) h

section Accounts

variable {accounts : SalesAccounts} {id : ℕ}

theorem mem_checkAccounts {account : Option ℕ} (h : account = some id)
    (mem : account ∈ [accounts.revenue, accounts.discount, accounts.returns]) :
    (checkAccounts accounts).contains id = true := by
  rw [List.contains_iff_mem]
  exact List.mem_filterMap.mpr ⟨account, mem, h⟩

/-- The receivables, the VAT and the services are not in the check. -/
theorem not_mem_checkAccounts {account : Option ℕ} (h : account = some id)
    (mem : account ∈ [accounts.receivables, accounts.vat, accounts.service]) :
    (checkAccounts accounts).contains id = false := by
  rw [← Bool.not_eq_true, List.contains_iff_mem]
  intro inCheck
  obtain ⟨other, hother, same⟩ := List.mem_filterMap.mp inCheck
  have none := accounts.apart account mem other hother (h.trans same.symm)
  rw [h] at none
  cases none

end Accounts

/-- An amount of a document as the check reads it. -/
def posted (view : CurrencyView) (d : SalesDocument) (rate amount : ℚ) : ℚ :=
  (creditEntry d rate amount 0).reportAmount view amount

theorem posted_zero (d : SalesDocument) (rate : ℚ) : posted view d rate 0 = 0 := by
  unfold posted Entry.reportAmount
  cases view with
  | all => simp
  | one => rfl

theorem amount_creditEntry (d : SalesDocument) (rate amount : ℚ) (id : ℕ) :
    (creditEntry d rate amount id).amount view = posted view d rate amount := by
  have zero : (creditEntry d rate amount id).reportAmount view 0 = 0 := posted_zero d rate
  exact (congrArg _ zero).trans (sub_zero _)

theorem amount_debitEntry (d : SalesDocument) (rate amount : ℚ) (id : ℕ) :
    (debitEntry d rate amount id).amount view = -posted view d rate amount := by
  have zero : (debitEntry d rate amount id).reportAmount view 0 = 0 := posted_zero d rate
  exact (congrArg (· - _) zero).trans (zero_sub _)

/-- The document's items are in the view of their currency. -/
def docInView (view : CurrencyView) (d : SalesDocument) : Bool :=
  match view with
  | .all => true
  | .one code _ _ => voucherCurrency d == code

theorem inView_creditEntry (d : SalesDocument) (rate amount : ℚ) (id : ℕ) :
    (creditEntry d rate amount id).inView view = docInView view d := rfl

theorem inView_debitEntry (d : SalesDocument) (rate amount : ℚ) (id : ℕ) :
    (debitEntry d rate amount id).inView view = docInView view d := rfl

/-- Live lines have no negative amount. -/
theorem discountOf_nonneg (books : Books) (d : SalesDocument) : 0 ≤ discountOf books d := by
  refine List.sum_nonneg fun x hx => ?_
  obtain ⟨di, hdi, rfl⟩ := List.mem_map.mp hx
  obtain ⟨member, live⟩ := List.mem_filter.mp hdi
  exact (books.lines di member (by simpa using (Bool.and_eq_true_iff.mp live).2)).1

theorem net_nonneg (books : Books) (d : SalesDocument) :
    0 ≤ ((linesOf books d.id).map fun di => di.gross - di.discountAmount).sum := by
  refine List.sum_nonneg fun x hx => ?_
  obtain ⟨di, hdi, rfl⟩ := List.mem_map.mp hx
  obtain ⟨member, live⟩ := List.mem_filter.mp hdi
  exact sub_nonneg.mpr (books.lines di member (by simpa using (Bool.and_eq_true_iff.mp live).2)).2

theorem net_eq (books : Books) (d : SalesDocument) :
    ((linesOf books d.id).map fun di => di.gross - di.discountAmount).sum =
      grossOf books d - discountOf books d := sum_map_sub _ _ _

theorem grossOf_nonneg (books : Books) (d : SalesDocument) : 0 ≤ grossOf books d := by
  have net := net_nonneg books d
  rw [net_eq] at net
  exact (discountOf_nonneg books d).trans (sub_nonneg.mp net)

/-- The items of the check's accounts in the view. -/
def checked (posting : Posting) (view : CurrencyView) (e : Entry) : Bool :=
  onCheck posting.accounts e && e.inView view

/-- An item on an account outside the check adds nothing to it. -/
theorem sumWhere_off {amount : ℚ} {account : Option ℕ} {entry : ℕ → Entry}
    (mem : account ∈ [posting.accounts.receivables, posting.accounts.vat, posting.accounts.service])
    (ids : ∀ id, (entry id).accountId = id) :
    sumWhere (checked posting view) (Entry.amount view) (itemIf amount account entry) = 0 := by
  refine sumWhere_eq_zero fun e he => ?_
  unfold itemIf at he
  split at he
  · obtain ⟨id, hid, rfl⟩ := List.mem_map.mp he
    have off := not_mem_checkAccounts (Option.mem_toList.mp hid) mem
    rw [checked, onCheck, ids, off, Bool.false_and]
  · exact absurd he List.not_mem_nil

/-- An item on an account of the check adds what is posted of its amount. -/
theorem sumWhere_on {d : SalesDocument} {amount x : ℚ} {account : Option ℕ} {entry : ℕ → Entry}
    (nonneg : 0 ≤ amount) (balanced : unmapped amount account = false)
    (mem : account ∈ [posting.accounts.revenue, posting.accounts.discount, posting.accounts.returns])
    (ids : ∀ id, (entry id).accountId = id)
    (views : ∀ id, (entry id).inView view = docInView view d)
    (amounts : ∀ id, (entry id).amount view = x) (zero : amount = 0 → x = 0) :
    sumWhere (checked posting view) (Entry.amount view) (itemIf amount account entry) =
      if docInView view d then x else 0 := by
  unfold itemIf
  split
  · have mapped : account.isSome := by simpa [unmapped, *] using balanced
    obtain ⟨id, rfl⟩ := Option.isSome_iff_exists.mp mapped
    have on := mem_checkAccounts rfl mem
    rw [Option.toList_some, List.map_singleton, sumWhere_cons, sumWhere_nil, add_zero, checked,
      onCheck, ids, on, Bool.true_and, views, amounts]
  · rw [zero (le_antisymm (not_lt.mp ‹_›) nonneg), ite_self, sumWhere_nil]

/-- A sale's voucher has its revenue less its discount on the check's accounts. -/
theorem docLedger_sale {d : SalesDocument} {entries : List Entry} (sale : d.isReturn = false)
    (ok : autoEntries books posting d = some entries) :
    ∃ rate, resolveVoucherExchangeRate posting d = some rate ∧
      docLedger books posting view d =
        if docInView view d then
          posted view d rate (money (grossOf books d)) -
            posted view d rate (money (discountOf books d))
        else 0 := by
  rw [docLedger, ok, Option.getD_some]
  rw [autoEntries, sale, if_neg Bool.false_ne_true] at ok
  unfold salesEntries at ok
  dsimp only at ok
  split at ok
  · cases ok
  split at ok
  · cases ok
  rename_i mapped
  split at ok
  · cases ok
  rename_i balanced
  obtain ⟨rate, resolved, rfl⟩ := Option.map_eq_some_iff.mp ok
  refine ⟨rate, resolved, ?_⟩
  simp only [Bool.or_eq_true, not_or, Bool.not_eq_true] at mapped balanced
  have revenue : unmapped (money (grossOf books d)) posting.accounts.revenue = false := by
    rw [unmapped, mapped.2, Bool.and_false]
  have gross : sumWhere (checked posting view) (Entry.amount view)
      (itemIf (money (grossOf books d)) posting.accounts.revenue
        (creditEntry d rate (money (grossOf books d)))) =
      if docInView view d then posted view d rate (money (grossOf books d)) else 0 :=
    sumWhere_on (money_nonneg (grossOf_nonneg books d)) revenue (by simp) (fun _ => rfl)
      (inView_creditEntry d rate _) (amount_creditEntry d rate _)
      fun zero => by rw [zero, posted_zero]
  have discount : sumWhere (checked posting view) (Entry.amount view)
      (itemIf (money (discountOf books d)) posting.accounts.discount
        (debitEntry d rate (money (discountOf books d)))) =
      if docInView view d then -posted view d rate (money (discountOf books d)) else 0 :=
    sumWhere_on (money_nonneg (discountOf_nonneg books d)) balanced.1.1 (by simp) (fun _ => rfl)
      (inView_debitEntry d rate _) (amount_debitEntry d rate _)
      fun zero => by rw [zero, posted_zero, neg_zero]
  have receivables : ∀ x, sumWhere (checked posting view) (Entry.amount view)
      (itemIf x posting.accounts.receivables (debitEntry d rate x)) = 0 :=
    fun _ => sumWhere_off (by simp) fun _ => rfl
  have vat : ∀ x, sumWhere (checked posting view) (Entry.amount view)
      (itemIf x posting.accounts.vat (creditEntry d rate x)) = 0 :=
    fun _ => sumWhere_off (by simp) fun _ => rfl
  have service : ∀ x, sumWhere (checked posting view) (Entry.amount view)
      (itemIf x posting.accounts.service (creditEntry d rate x)) = 0 :=
    fun _ => sumWhere_off (by simp) fun _ => rfl
  change sumWhere (checked posting view) _ _ = _
  rw [sumWhere_append, sumWhere_append, sumWhere_append, sumWhere_append, gross, discount,
    receivables, vat, service]
  split_ifs <;> ring

/-- A return's voucher has its net amount there, on the other side. -/
theorem docLedger_return {d : SalesDocument} {entries : List Entry} (isReturn : d.isReturn = true)
    (ok : autoEntries books posting d = some entries) :
    ∃ rate, resolveVoucherExchangeRate posting d = some rate ∧
      docLedger books posting view d =
        if docInView view d then
          -posted view d rate (money (grossOf books d - discountOf books d))
        else 0 := by
  rw [docLedger, ok, Option.getD_some]
  rw [autoEntries, if_pos isReturn] at ok
  unfold returnEntries at ok
  dsimp only at ok
  split at ok
  · cases ok
  obtain ⟨rate, resolved, ok⟩ := Option.bind_eq_some_iff.mp ok
  split at ok
  · cases ok
  rename_i mapped
  split at ok
  · cases ok
  obtain rfl := Option.some.inj ok
  refine ⟨rate, resolved, ?_⟩
  simp only [Bool.or_eq_true, not_or, Bool.not_eq_true] at mapped
  have net := net_nonneg books d
  rw [net_eq] at net ⊢
  have returns : unmapped (money (grossOf books d - discountOf books d))
      posting.accounts.returns = false := by
    rw [unmapped, mapped.1, Bool.and_false]
  have amount : sumWhere (checked posting view) (Entry.amount view)
      (itemIf (money (grossOf books d - discountOf books d)) posting.accounts.returns
        (debitEntry d rate (money (grossOf books d - discountOf books d)))) =
      if docInView view d then
        -posted view d rate (money (grossOf books d - discountOf books d))
      else 0 :=
    sumWhere_on (money_nonneg net) returns (by simp) (fun _ => rfl)
      (inView_debitEntry d rate _) (amount_debitEntry d rate _)
      fun zero => by rw [zero, posted_zero, neg_zero]
  have vat : ∀ x, sumWhere (checked posting view) (Entry.amount view)
      (itemIf x posting.accounts.vat (debitEntry d rate x)) = 0 :=
    fun _ => sumWhere_off (by simp) fun _ => rfl
  have receivables : ∀ x, sumWhere (checked posting view) (Entry.amount view)
      (itemIf x posting.accounts.receivables (creditEntry d rate x)) = 0 :=
    fun _ => sumWhere_off (by simp) fun _ => rfl
  change sumWhere (checked posting view) _ _ = _
  rw [sumWhere_append, sumWhere_append, amount, vat, receivables, add_zero, add_zero]

/-! ## Document by document -/

/-- What the report counts of a document. -/
def docReport (books : Books) (view : CurrencyView) (d : SalesDocument) : ℚ :=
  (viewDoc view (baseDoc books d)).elim 0 fun sd =>
    if d.isReturn then -((grossOf books d - discountOf books d) * sd.factor)
    else (grossOf books d - discountOf books d) * sd.factor

/-- The currency stands without blanks around it. -/
def Trimmed (d : SalesDocument) : Prop := d.currency.map Aging.btrim = d.currency

instance (d : SalesDocument) : Decidable (Trimmed d) := inferInstanceAs (Decidable (_ = _))

theorem Trimmed.reportCurrency_eq {d : SalesDocument} (trimmed : Trimmed d) :
    d.reportCurrency = voucherCurrency d := by
  rw [Document.reportCurrency, voucherCurrency, trimmed]

theorem atScale_discountOf (books : Books) (d : SalesDocument) :
    AtScale 4 (discountOf books d) := by
  refine AtScale.sum fun x hx => ?_
  obtain ⟨di, -, rfl⟩ := List.mem_map.mp hx
  unfold DocumentItem.discountAmount
  cases di.discount with
  | none => exact AtScale.zero 4
  | some discount => exact discount.2

/-- In the view of one currency the voucher posts what the report counts. -/
theorem docLedger_one {d : SalesDocument} {code : String} {capitals : code.toUpper = code}
    {single : Aging.isAllCurrenciesView code = false}
    (hasVoucher : (autoEntries books posting d).isSome) (trimmed : Trimmed d)
    (scale : docInView (.one code capitals single) d = true → AtScale 4 (grossOf books d)) :
    docLedger books posting (.one code capitals single) d =
      docReport books (.one code capitals single) d := by
  obtain ⟨entries, ok⟩ := Option.isSome_iff_exists.mp hasVoucher
  have discount := atScale_discountOf books d
  have currency : (baseDoc books d).currency = voucherCurrency d := trimmed.reportCurrency_eq
  have inView : docInView (.one code capitals single) d = decide (voucherCurrency d = code) := rfl
  rw [inView, decide_eq_true_eq] at scale
  cases isReturn : d.isReturn with
  | false =>
    obtain ⟨rate, -, ledger⟩ := docLedger_sale isReturn ok
    rw [ledger, inView, docReport, viewDoc, currency, isReturn]
    by_cases same : voucherCurrency d = code
    · simp [same, posted, Entry.reportAmount, money_of_atScale (scale same),
        money_of_atScale discount]
    · simp [same]
  | true =>
    obtain ⟨rate, -, ledger⟩ := docLedger_return isReturn ok
    rw [ledger, inView, docReport, viewDoc, currency, isReturn]
    by_cases same : voucherCurrency d = code
    · simp [same, posted, Entry.reportAmount, money_of_atScale ((scale same).sub discount)]
    · simp [same]

/-- A rial amount is posted as it is. -/
theorem posted_rial {d : SalesDocument} (rial : voucherCurrency d = "IRR") (rate x : ℚ) :
    posted .all d rate x = x := if_pos rial

/-- A foreign amount is posted within half a rial of its value at the rate. -/
theorem abs_posted_sub_le {d : SalesDocument} (foreign : voucherCurrency d ≠ "IRR") (rate x : ℚ) :
    |posted .all d rate x - x * storedRate rate| ≤ 1 / 2 := by
  have value : posted .all d rate x = roundHalfUp 0 (x * storedRate rate) := if_neg foreign
  rw [value]
  refine (abs_roundHalfUp_sub_le 0 _).trans (le_of_eq ?_)
  norm_num [halfUnit]

/-- The voucher of a foreign document is posted at the document's rate. -/
theorem storedRate_of_rate {d : SalesDocument} (member : d ∈ books.documents)
    (foreign : voucherCurrency d ≠ "IRR") {rate resolved : ℚ} (hasRate : d.rate = some rate)
    (ok : resolveVoucherExchangeRate posting d = some resolved) : storedRate resolved = rate := by
  obtain ⟨stored, nonzero⟩ := Option.filter_eq_some_iff.mp hasRate
  obtain ⟨column, hcolumn, rfl⟩ := Option.map_eq_some_iff.mp stored
  have positive : (0 : ℚ) < column := books.rates d member column hcolumn
  rw [resolveVoucherExchangeRate, if_neg foreign, hcolumn] at ok
  simp only [Option.map_some, Option.filter_some, decide_eq_true positive, if_true,
    Option.some_or, Option.some.injEq] at ok
  rw [← ok, storedRate, money_column, if_neg positive.ne']

/-- In the view of all currencies it posts that, within a rial for a foreign one. -/
theorem abs_docReport_sub_le {d : SalesDocument} (member : d ∈ books.documents)
    (hasVoucher : (autoEntries books posting d).isSome) (trimmed : Trimmed d)
    (scale : AtScale 4 (grossOf books d))
    (converted : d.reportCurrency = "IRR" ∨ d.rate.isSome) :
    |docReport books .all d - docLedger books posting .all d| ≤
      if d.reportCurrency = "IRR" then 0 else 1 := by
  obtain ⟨entries, ok⟩ := Option.isSome_iff_exists.mp hasVoucher
  have discount := atScale_discountOf books d
  have currency : (baseDoc books d).currency = d.reportCurrency := rfl
  by_cases rial : d.reportCurrency = "IRR"
  · have rialVoucher : voucherCurrency d = "IRR" := trimmed.reportCurrency_eq ▸ rial
    have same : docReport books .all d = docLedger books posting .all d := by
      cases isReturn : d.isReturn with
      | false =>
        obtain ⟨rate, -, ledger⟩ := docLedger_sale isReturn ok
        rw [ledger, money_of_atScale scale, money_of_atScale discount, posted_rial rialVoucher,
          posted_rial rialVoucher, docReport, viewDoc, currency, if_pos rial, isReturn]
        simp [docInView]
      | true =>
        obtain ⟨rate, -, ledger⟩ := docLedger_return isReturn ok
        rw [ledger, money_of_atScale (scale.sub discount), posted_rial rialVoucher, docReport,
          viewDoc, currency, if_pos rial, isReturn]
        simp [docInView]
    rw [same, sub_self, abs_zero, if_pos rial]
  · have foreign : voucherCurrency d ≠ "IRR" := trimmed.reportCurrency_eq ▸ rial
    obtain ⟨rate, hasRate⟩ := Option.isSome_iff_exists.mp (converted.resolve_left rial)
    have baseRate : (baseDoc books d).rate = some rate := hasRate
    rw [if_neg rial]
    cases isReturn : d.isReturn with
    | false =>
      obtain ⟨resolved, resolves, ledger⟩ := docLedger_sale isReturn ok
      have stored := storedRate_of_rate member foreign hasRate resolves
      have gross := abs_posted_sub_le foreign resolved (grossOf books d)
      have less := abs_posted_sub_le foreign resolved (discountOf books d)
      rw [ledger, money_of_atScale scale, money_of_atScale discount, docReport, viewDoc, currency,
        if_neg rial, baseRate, isReturn]
      simp only [docInView, Option.map_some, Option.elim_some, if_true]
      rw [stored, abs_le] at gross less
      rw [if_neg Bool.false_ne_true, abs_le]
      constructor <;> linarith
    | true =>
      obtain ⟨resolved, resolves, ledger⟩ := docLedger_return isReturn ok
      have stored := storedRate_of_rate member foreign hasRate resolves
      have net := abs_posted_sub_le foreign resolved (grossOf books d - discountOf books d)
      rw [ledger, money_of_atScale (scale.sub discount), docReport, viewDoc, currency,
        if_neg rial, baseRate, isReturn]
      simp only [docInView, Option.map_some, Option.elim_some, if_true]
      rw [stored, abs_le] at net
      rw [abs_le]
      constructor <;> linarith

end PapitalErp.Sales
