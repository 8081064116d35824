import PapitalErp.Reports.SalesLedger

/-!
# The sales report adds up and agrees with the ledger

The groups of a report have its totals between them, and the values of each filter
partition it. Over the documents of a range the report's net is what their vouchers
post on the accounts of the check, when the ledger has these vouchers and no others
there. The documents that the report leaves out of the view of all currencies, those
with no rate, are the ones that it counts as not converted.
-/

namespace PapitalErp.Sales

open FilteredSums Rounding SalesReports

variable {books : Books} {posting : Posting} {view : CurrencyView} {scope : SalesScope}
variable {params : SalesReportParams} {access : SalesReportAccess}

/-! ## The ledger of a range -/

theorem rangeDocs_eq (books : Books) (range : ReportRange) :
    rangeDocs books range = (countedDocs books).filter fun d => d.within range := by
  rw [rangeDocs, countedDocs, List.filter_filter]
  exact List.filter_congr fun d _ => Bool.and_comm _ _

/-- A voucher falls in the range of its document. -/
theorem sumWhere_autoEntries (d : SalesDocument) (range : ReportRange) :
    sumWhere (fun e : Entry => onCheck posting.accounts e && (range.holds e.day && e.inView view))
        (Entry.amount view) ((autoEntries books posting d).getD []) =
      if d.within range then docLedger books posting view d else 0 := by
  cases ok : autoEntries books posting d with
  | none => simp [docLedger, ok]
  | some entries =>
    have days : ∀ e ∈ entries, range.holds e.day = d.within range := by
      intro e he
      rw [day_of_mem_autoEntries ok he, d.within_eq]
    rw [docLedger, ok, Option.getD_some]
    split_ifs with within
    · refine sumWhere_congr (fun e he => ?_) fun _ _ _ => rfl
      rw [days e he, within, Bool.true_and]
    · refine sumWhere_eq_zero fun e he => ?_
      rw [days e he, Bool.eq_false_iff.mpr within, Bool.false_and, Bool.and_false]

/-- The check sums what the vouchers of the range's documents have on its accounts. -/
theorem ledger_eq (unchanged : Unchanged books posting) (range : ReportRange) :
    ledgerSum books posting.accounts range view ["approved", "permanent"] +
        ledgerSum books posting.accounts range view ["draft"] =
      ((rangeDocs books range).map (docLedger books posting view)).sum := by
  rw [ledgerSum_add, sumWhere_perm unchanged.items, sumWhere_filter, sumWhere_flatMap,
    rangeDocs_eq, sum_map_filter]
  simp only [sumWhere_autoEntries]

/-- It is of four decimals, as the items of the ledger are. -/
theorem atScale_ledger (books : Books) (accounts : SalesAccounts) (range : ReportRange)
    (view : CurrencyView) :
    AtScale 4 (ledgerSum books accounts range view ["approved", "permanent"] +
      ledgerSum books accounts range view ["draft"]) := by
  rw [ledgerSum_add]
  refine AtScale.sum fun x hx => ?_
  obtain ⟨e, he, rfl⟩ := List.mem_map.mp hx
  obtain ⟨row, -, rfl⟩ := List.mem_map.mp (List.mem_of_mem_filter he)
  have column : ∀ y, AtScale 4 y → AtScale 4 (row.entry.reportAmount view y) := by
    intro y scale
    cases view with
    | one => exact scale
    | all =>
      unfold Entry.reportAmount
      dsimp only
      split_ifs
      · exact scale
      · exact (atScale_roundHalfUp 0 _).mono (Nat.zero_le 4)
  exact (column _ row.item.creditScale).sub (column _ row.item.debitScale)

/-! ## The net of a range -/

theorem idFilter_of_not_truthy {asked : Option ℕ} (h : truthy asked = false) (value : Option ℕ) :
    idFilter asked value = true := by
  have off : asked.filter (fun id => id ≠ 0) = none := by
    rwa [truthy, Option.isSome_eq_false_iff, Option.isNone_iff_eq_none] at h
  rw [idFilter, off]
  rfl

/-- A document's facts have the net of its lines, in one period or in none. -/
theorem sum_docFacts (periods : scope.Periods) (sd : ViewDoc) :
    ((docFacts books scope sd).map fun f => f.signed f.net).sum =
      let net := ((linesOf books sd.id).map fun di => di.gross - di.discountAmount).sum
      if sd.isReturn then -(net * sd.factor) else net * sd.factor := by
  obtain ⟨key, single⟩ := periods.keys sd.day
  have facts : docFacts books scope sd =
      (itemsOf books sd.id).map fun itemId => fact books sd itemId key := by
    simp only [docFacts, single, List.map_singleton]
    exact List.flatMap_pure_eq_map _ _
  have items : ((itemsOf books sd.id).map fun itemId =>
      sumWhere (fun di : DocumentItem => decide (di.itemId = itemId))
        (fun di => di.gross - di.discountAmount) (linesOf books sd.id)).sum =
      ((linesOf books sd.id).map fun di => di.gross - di.discountAmount).sum :=
    sum_sumWhere_key (List.nodup_dedup _) fun di member =>
      List.mem_dedup.mpr (List.mem_map_of_mem member)
  have net : ∀ itemId, (fact books sd itemId key).net =
      sumWhere (fun di : DocumentItem => decide (di.itemId = itemId))
        (fun di => di.gross - di.discountAmount) (linesOf books sd.id) * sd.factor := by
    intro itemId
    rw [sumWhere, sum_map_sub]
    rfl
  have isReturn : ∀ itemId, (fact books sd itemId key).isReturn = sd.isReturn := fun _ => rfl
  dsimp only
  rw [facts, List.map_map, ← items]
  simp only [Function.comp_def, Fact.signed, isReturn, net]
  split_ifs
  · rw [← List.sum_map_mul_right, List.sum_neg, List.map_map]
    rfl
  · rw [← List.sum_map_mul_right]

/-- Without filters the report's net is that of the range's documents. -/
theorem netAfter_eq (periods : scope.Periods) (party : truthy scope.partyId = false)
    (item : truthy scope.itemId = false) (project : truthy scope.projectId = false)
    (channel : scope.channel = none) (category : scope.category = none) :
    (amountColumns (salesFacts books scope)).netAfter =
      ((rangeDocs books scope.range).map (docReport books scope.currency)).sum := by
  have allDocs : ∀ b, docFilter scope b = true := by
    intro b
    rw [docFilter, idFilter_of_not_truthy party, idFilter_of_not_truthy project, channel]
    rfl
  have allLines : ∀ f, lineFilter scope f = true := by
    intro f
    rw [lineFilter, idFilter_of_not_truthy item, category]
    rfl
  have facts : salesFacts books scope = (salesDocs books scope).flatMap (docFacts books scope) :=
    List.filter_eq_self.mpr fun f _ => allLines f
  have base : salesBase books scope = (rangeDocs books scope.range).map (baseDoc books) :=
    List.filter_eq_self.mpr fun b _ => allDocs b
  change ((salesFacts books scope).map fun f => f.signed f.net).sum = _
  rw [facts, sum_map_flatMap, salesDocs, base, sum_map_filterMap, List.map_map]
  refine congrArg List.sum (List.map_congr_left fun d _ => ?_)
  rw [Function.comp_apply, docReport]
  cases viewed : viewDoc scope.currency (baseDoc books d) with
  | none => rfl
  | some sd =>
    have doc : sd.toBaseDoc = baseDoc books d := toBaseDoc_of_viewDoc viewed
    have id : sd.id = d.id := congrArg BaseDoc.id doc
    have isReturn : sd.isReturn = d.isReturn := congrArg BaseDoc.isReturn doc
    rw [Option.elim_some, Option.elim_some, sum_docFacts periods, id, isReturn, net_eq]

/-! ## Shown columns -/

/-- The columns of a group or of the totals, with what each shows rounded. -/
def shownColumns : List ((SalesAmounts → Option ℚ) × (Amounts → ℚ)) :=
  [(fun a => a.quantity, fun r => r.quantity),
    (fun a => a.returnQuantity, fun r => r.returnQuantity),
    (fun a => some a.gross, fun r => r.gross),
    (fun a => some a.discount, fun r => r.discount),
    (fun a => some a.net, fun r => r.net),
    (fun a => some a.returnAmount, fun r => r.returnAmount),
    (fun a => some a.netAfterReturns, fun r => r.netAfter),
    (fun a => a.cost, fun r => r.cost),
    (fun a => a.grossProfit, fun r => r.netAfter - r.cost)]

/-- A column is shown by what the report shows of quantities and costs. -/
theorem shownColumns_spec {column : (SalesAmounts → Option ℚ) × (Amounts → ℚ)}
    (h : column ∈ shownColumns) :
    ∃ shows : Bool → Bool → Bool, (∀ facts quantity cost, column.1 (amountsOf facts quantity cost) =
        onlyIf (shows quantity cost) (money (column.2 (amountColumns facts)))) ∧
      ∀ quantity item cost, shows (quantity && item) cost = true → shows quantity cost = true := by
  have whole : ∀ quantity item : Bool, (quantity && item) = true → quantity = true := by decide
  simp only [shownColumns, List.mem_cons, List.not_mem_nil, or_false] at h
  obtain rfl | rfl | rfl | rfl | rfl | rfl | rfl | rfl | rfl := h
  · exact ⟨fun quantity _ => quantity, fun _ _ _ => rfl, fun q i _ => whole q i⟩
  · exact ⟨fun quantity _ => quantity, fun _ _ _ => rfl, fun q i _ => whole q i⟩
  · exact ⟨fun _ _ => true, fun _ _ _ => rfl, fun _ _ _ h => h⟩
  · exact ⟨fun _ _ => true, fun _ _ _ => rfl, fun _ _ _ h => h⟩
  · exact ⟨fun _ _ => true, fun _ _ _ => rfl, fun _ _ _ h => h⟩
  · exact ⟨fun _ _ => true, fun _ _ _ => rfl, fun _ _ _ h => h⟩
  · exact ⟨fun _ _ => true, fun _ _ _ => rfl, fun _ _ _ h => h⟩
  · exact ⟨fun _ cost => cost, fun _ _ _ => rfl, fun _ _ _ h => h⟩
  · exact ⟨fun _ cost => cost, fun _ _ _ => rfl, fun _ _ _ h => h⟩

theorem sum_column_of_isSumOf {t : Amounts} {rows : List Amounts} (h : t.IsSumOf rows)
    {column : (SalesAmounts → Option ℚ) × (Amounts → ℚ)} (mem : column ∈ shownColumns) :
    (rows.map column.2).sum = column.2 t := by
  simp only [shownColumns, List.mem_cons, List.not_mem_nil, or_false] at mem
  obtain rfl | rfl | rfl | rfl | rfl | rfl | rfl | rfl | rfl := mem
  all_goals rw [h]
  exact sum_map_sub _ _ _

/-- All rows of the report, before the page is cut. -/
def allRows (books : Books) (params : SalesReportParams) (access : SalesReportAccess)
    (scope : SalesScope) : List SalesReportRow :=
  groupedRows (salesFacts books scope) params.groupBy params.thenBy (quantityApplies params)
    access.cost

/-- A column of the rows, rounded in each, is that of the totals but for half a unit
for each figure. -/
theorem abs_sum_shown_sub_le {column : (SalesAmounts → Option ℚ) × (Amounts → ℚ)}
    (mem : column ∈ shownColumns) (item : Bool) {total : ℚ}
    (shown : column.1 (amountsOf (salesFacts books scope) (quantityApplies params && item)
      access.cost) = some total) :
    ∃ amounts : List ℚ,
      (allRows books params access scope).map (fun row => column.1 row.amounts) =
          amounts.map some ∧
        |amounts.sum - total| ≤ halfUnit 4 * ((allRows books params access scope).length + 1) := by
  obtain ⟨shows, spec, mono⟩ := shownColumns_spec mem
  rw [spec] at shown
  have inTotals : shows (quantityApplies params && item) access.cost = true := by
    by_contra off
    rw [Bool.eq_false_iff.mpr off] at shown
    cases shown
  have inRows := mono _ _ _ inTotals
  rw [inTotals] at shown
  obtain rfl := Option.some.inj shown
  let facts := salesFacts books scope
  let keys := (groupKeys facts params.groupBy params.thenBy).mergeSort
    (groupBefore facts params.groupBy params.thenBy)
  let exact (key : GroupKey) : ℚ :=
    column.2 (amountColumns (groupFacts facts params.groupBy params.thenBy key))
  refine ⟨(keys.map exact).map money, ?_, ?_⟩
  · change ((keys.map _).map _) = _
    simp only [List.map_map]
    refine List.map_congr_left fun key _ => ?_
    simp only [Function.comp_apply, spec, inRows]
    rfl
  · have sum : (keys.map exact).sum = column.2 (amountColumns facts) := by
      rw [← sum_column_of_isSumOf (isSumOf_groupAmounts facts params.groupBy params.thenBy) mem,
        groupAmounts, List.map_map]
      exact ((List.mergeSort_perm _ _).map exact).sum_eq
    have bound := abs_sum_money_sub_le (keys.map exact)
    have length : (allRows books params access scope).length = (keys.map exact).length := by
      rw [List.length_map, allRows, groupedRows, List.length_map]
    rw [sum, ← length] at bound
    exact bound

/-- Sales less discounts less returns. -/
theorem netAfter_eq_sub (facts : List Fact)
    (net : ∀ f ∈ facts, f.net = f.gross - f.discount) :
    (amountColumns facts).netAfter = (amountColumns facts).gross -
      (amountColumns facts).discount - (amountColumns facts).returnAmount := by
  simp only [amountColumns]
  induction facts with
  | nil => simp
  | cons f facts ih =>
    have first := net f List.mem_cons_self
    have rest := ih fun g hg => net g (List.mem_cons_of_mem f hg)
    rw [List.map_cons, List.sum_cons, sumWhere_cons, sumWhere_cons, sumWhere_cons, rest]
    cases kind : f.isReturn <;> simp [Fact.signed, Fact.isSale, kind, first] <;> ring

theorem net_of_mem_salesFacts {f : Fact} (h : f ∈ salesFacts books scope) :
    f.net = f.gross - f.discount := by
  obtain ⟨sd, -, itemId, key, -, rfl⟩ := mem_salesFacts h
  exact sub_mul _ _ _

/-! ## The report -/

theorem periods_scopeOf (ok : scopeOf params = .ok scope) : scope.Periods := by
  unfold scopeOf at ok
  dsimp only at ok
  split at ok
  · split at ok
    · cases ok
    · obtain rfl := Except.ok.inj ok
      exact apart_periodBuckets ‹_›
  · obtain rfl := Except.ok.inj ok
    exact List.Pairwise.nil

/-- A scope has the filters of the request. -/
theorem scopeOf_spec (ok : scopeOf params = .ok scope) :
    scope.range = params.range ∧ scope.currency = params.currency ∧
      scope.partyId = params.partyId ∧ scope.itemId = params.itemId ∧
        scope.category = params.category ∧ scope.projectId = params.projectId ∧
          scope.channel = params.channel := by
  unfold scopeOf at ok
  dsimp only at ok
  split at ok
  · split at ok
    · cases ok
    · obtain rfl := Except.ok.inj ok
      exact ⟨rfl, rfl, rfl, rfl, rfl, rfl, rfl⟩
  · obtain rfl := Except.ok.inj ok
    exact ⟨rfl, rfl, rfl, rfl, rfl, rfl, rfl⟩

/-- The net of an unfiltered report. -/
theorem netAfter_report (ok : scopeOf params = .ok scope) (off : filtered params = false) :
    (amountColumns (salesFacts books scope)).netAfter =
      ((rangeDocs books params.range).map (docReport books params.currency)).sum := by
  obtain ⟨range, currency, party, item, category, project, channel⟩ := scopeOf_spec ok
  simp only [filtered, Bool.or_eq_false_iff, Option.isSome_eq_false_iff,
    Option.isNone_iff_eq_none] at off
  obtain ⟨⟨⟨⟨noParty, noItem⟩, noProject⟩, noChannel⟩, noCategory⟩ := off
  rw [← range, ← currency]
  exact netAfter_eq (periods_scopeOf ok) (party ▸ noParty) (item ▸ noItem) (project ▸ noProject)
    (channel.trans noChannel) (category.trans noCategory)

/-- The documents of a range for which the report and the vouchers have one amount:
the currency stands without blanks, and what the view has of them is of four
decimals. -/
def Plain (books : Books) (view : CurrencyView) (range : ReportRange) : Prop :=
  ∀ d ∈ rangeDocs books range, Trimmed d ∧ (docInView view d = true → AtScale 4 (grossOf books d))

/-- The documents of a range that are not in rials. -/
def foreignDocs (books : Books) (range : ReportRange) : ℕ :=
  (rangeDocs books range).countP fun d => d.reportCurrency ≠ "IRR"

theorem mem_countedDocs {range : ReportRange} {d : SalesDocument} (h : d ∈ rangeDocs books range) :
    d ∈ countedDocs books := by
  rw [rangeDocs_eq] at h
  exact List.mem_of_mem_filter h

/-- In the view of one currency the net is the movement of the ledger. -/
theorem net_eq_ledger {code : String} {capitals : code.toUpper = code}
    {single : Aging.isAllCurrenciesView code = false} {range : ReportRange}
    (unchanged : Unchanged books posting) (plain : Plain books (.one code capitals single) range) :
    ((rangeDocs books range).map (docReport books (.one code capitals single))).sum =
      ((rangeDocs books range).map (docLedger books posting (.one code capitals single))).sum := by
  refine congrArg List.sum (List.map_congr_left fun d hd => ?_)
  obtain ⟨trimmed, scale⟩ := plain d hd
  exact (docLedger_one (unchanged.posted d (mem_countedDocs hd)) trimmed scale).symm

/-- In the view of all currencies it is, but for a rial in each foreign document. -/
theorem abs_net_sub_ledger_le {range : ReportRange} (unchanged : Unchanged books posting)
    (plain : Plain books .all range)
    (converted : ∀ d ∈ rangeDocs books range, d.reportCurrency = "IRR" ∨ d.rate.isSome) :
    |((rangeDocs books range).map (docReport books .all)).sum -
        ((rangeDocs books range).map (docLedger books posting .all)).sum| ≤
      foreignDocs books range := by
  have close : ∀ d ∈ rangeDocs books range,
      |docReport books .all d - docLedger books posting .all d| ≤
        if d.reportCurrency ≠ "IRR" then 1 else 0 := by
    intro d hd
    obtain ⟨trimmed, scale⟩ := plain d hd
    rw [ite_not]
    exact abs_docReport_sub_le (List.mem_of_mem_filter hd)
      (unchanged.posted d (mem_countedDocs hd)) trimmed (scale rfl) (converted d hd)
  refine (abs_sum_sub_sum_le close).trans (le_of_eq ?_)
  have filtered := sum_map_filter (p := fun d : SalesDocument => decide (d.reportCurrency ≠ "IRR"))
    (fun _ => (1 : ℚ)) (rangeDocs books range)
  simp only [decide_eq_true_eq] at filtered
  rw [← filtered, List.map_const', List.sum_replicate, nsmul_one, foreignDocs,
    List.countP_eq_length_filter]

/-- A report adds up: its groups to the totals, exactly before each figure is rounded
to be shown and but for that rounding after it; its filters to the whole; and its net,
unfiltered, to the ledger. -/
structure AddsUp (books : Books) (posting : Posting) (params : SalesReportParams)
    (access : SalesReportAccess) (scope : SalesScope) (report : SalesReport) : Prop where
  page : report.rows =
    ((allRows books params access scope).drop ((params.page - 1) * params.limit)).take params.limit
  total : report.total = (allRows books params access scope).length
  groups : (amountColumns (salesFacts books scope)).IsSumOf
    (groupAmounts (salesFacts books scope) params.groupBy params.thenBy)
  shown : ∀ column ∈ shownColumns, ∀ total, column.1 report.totals.amounts = some total →
    ∃ amounts : List ℚ,
      (allRows books params access scope).map (fun row => column.1 row.amounts) =
          amounts.map some ∧
        |amounts.sum - total| ≤ halfUnit 4 * (report.total + 1)
  counts : params.groupBy.ofDocument = true →
    (∀ dimension ∈ params.thenBy, dimension.ofDocument = true) →
      ((allRows books params access scope).map fun row => row.amounts.invoiceCount).sum =
          report.totals.amounts.invoiceCount ∧
        ((allRows books params access scope).map fun row => row.amounts.returnCount).sum =
          report.totals.amounts.returnCount
  net : (amountColumns (salesFacts books scope)).netAfter =
    (amountColumns (salesFacts books scope)).gross -
      (amountColumns (salesFacts books scope)).discount -
        (amountColumns (salesFacts books scope)).returnAmount
  filters : FiltersPartition books scope
  reportNet : ∀ check ∈ report.ledger, check.reportNet = report.totals.amounts.netAfterReturns
  ledgerOne : ∀ check ∈ report.ledger, Unchanged books posting →
    Plain books params.currency params.range → params.currency ≠ .all →
      check.reportNet = check.ledgerTotal ∧ check.difference = 0
  ledgerAll : ∀ check ∈ report.ledger, Unchanged books posting →
    Plain books params.currency params.range → params.currency = .all →
      (∀ d ∈ rangeDocs books params.range, d.reportCurrency = "IRR" ∨ d.rate.isSome) →
        |check.reportNet - check.ledgerTotal| ≤ foreignDocs books params.range ∧
          |check.difference| ≤ foreignDocs books params.range

/-- The counts of the rows, in the order of the groups. -/
theorem sum_counts (kind : Fact → Bool) (ok : scopeOf params = .ok scope)
    (first : params.groupBy.ofDocument = true)
    (second : ∀ dimension ∈ params.thenBy, dimension.ofDocument = true)
    {count : SalesAmounts → ℕ}
    (counted : ∀ facts quantity cost, count (amountsOf facts quantity cost) = countDocs kind facts) :
    ((allRows books params access scope).map fun row => count row.amounts).sum =
      countDocs kind (salesFacts books scope) := by
  rw [← countDocs_salesFacts (periods_scopeOf ok) first second kind, allRows, groupedRows, List.map_map]
  have order := (List.mergeSort_perm (groupKeys (salesFacts books scope) params.groupBy
    params.thenBy) (groupBefore (salesFacts books scope) params.groupBy params.thenBy))
  refine (order.map _).sum_eq.trans (congrArg List.sum (List.map_congr_left fun key _ => ?_))
  exact counted _ _ _

theorem money_le_of_le {x k : ℚ} (h : x ≤ k) (scale : AtScale 4 k) : money x ≤ k :=
  roundHalfUp_le h scale

theorem le_money_of_le {x k : ℚ} (h : k ≤ x) (scale : AtScale 4 k) : k ≤ money x :=
  le_roundHalfUp h scale

/-- Rounding keeps a figure within a bound of whole rials from another of four decimals. -/
theorem abs_money_sub_le_of_atScale {x y : ℚ} {k : ℕ} (scale : AtScale 4 y) (h : |x - y| ≤ k) :
    |money x - y| ≤ k := by
  obtain ⟨low, high⟩ := abs_le.mp h
  have whole := AtScale.natCast 4 k
  have below := le_money_of_le (show y - k ≤ x by linarith) (scale.sub whole)
  have above := money_le_of_le (show x ≤ y + k by linarith) (scale.add whole)
  exact abs_le.mpr ⟨by linarith, by linarith⟩

/-- An invoice of 6 USD and no rate, and the settings' rate for the dollar. Its voucher
was posted at that rate. -/
def settingsRate : Posting where
  accounts :=
    { revenue := some 41
      discount := some 42
      returns := some 43
      receivables := some 13
      vat := none
      service := none
      apart := by decide }
  exchangeRateSetting := fun code => if code = "USD" then some 600000 else none

def dollarInvoice : Books where
  documents :=
    [{ id := 7
       type := "invoice"
       status := "final"
       date := 86400000000
       currency := some "USD"
       exchangeRate := none
       vatPercent := 0
       vatAmount := stored 0
       isDeleted := false
       partyId := some 3
       buyerName := "Buyer"
       projectId := none
       returnOfDocumentId := none
       serviceChargeAmount := stored 0 }]
  documentItems :=
    [{ documentId := 7
       itemId := 1
       quantity := 2
       unitPrice := some (stored 3)
       discount := none
       isDeleted := false }]
  items := []
  customers := []
  transactions := []
  onlineDocumentIds := []
  ledger :=
    [{ item :=
         { id := 90
           voucherId := 30
           accountId := 41
           rowOrder := some 2
           debit := 0
           credit := 6
           detailedType := "customer"
           detailedId := some 3
           detailedName := none
           currency := some "USD"
           exchangeRate := some 600000
           isDeleted := false
           debitScale := AtScale.zero 4
           creditScale := AtScale.natCast 4 6 }
       voucher :=
         { id := 30
           day := 1
           voucherNumber := 12
           status := "draft"
           currency := some "USD"
           sourceFiscalYear := none
           isDeleted := false
           voucherType := "sales"
           referenceId := some 7
           referenceNumber := some "5"
           sourceDocumentId := some 7
           sourceChequeId := none } }]
  documentIds := by decide
  lines := by decide +kernel
  rates := by
    intro d hd
    obtain rfl := List.mem_singleton.mp hd
    intro rate hrate
    cases hrate
  statuses := by decide +kernel

/-- The report of its day by channel, in the view of all currencies. -/
def allCurrencies : SalesReportParams where
  firstDay := ⟨1970, 1, 2, by decide, by decide⟩
  lastDay := ⟨1970, 1, 2, by decide, by decide⟩
  groupBy := .channel
  thenBy := none
  period := .month
  currency := .all
  partyId := none
  itemId := none
  category := none
  projectId := none
  channel := none
  page := 1
  limit := 20

end PapitalErp.Sales
