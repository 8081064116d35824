import PapitalErp.Reports.VatReport

/-!
# The VAT report reconciles

The rows by percent are a partition of the converted documents, the movement of
the account is one of its sources and joins its opening to its closing, and the
differences are, document by document and voucher by voucher, all that lies
between the two parts of the report. A document whose rows in the ledger are on its
own day and net to what the report counts for it is in no range a difference.
-/

namespace PapitalErp.Vat

open FilteredSums Rounding SalesReports

variable {books : Books} {range : ReportRange} {accountId : ℕ}

/-! ## Amounts of four decimals -/

theorem atScale_sumWhere {α : Type*} {n : ℕ} {p : α → Bool} {f : α → ℚ} {rows : List α}
    (h : ∀ a ∈ rows, AtScale n (f a)) : AtScale n (sumWhere p f rows) := by
  refine AtScale.sum fun x hx => ?_
  obtain ⟨a, ha, rfl⟩ := List.mem_map.mp hx
  exact h a (List.mem_of_mem_filter ha)

theorem atScale_max {n : ℕ} {x y : ℚ} (hx : AtScale n x) (hy : AtScale n y) :
    AtScale n (max x y) := by
  rcases max_choice x y with h | h
  · rwa [h]
  · rwa [h]

/-- A document whose own amounts have four decimals. -/
def VatDoc.Scaled (f : VatDoc) : Prop := AtScale 4 f.netOwn ∧ AtScale 4 f.vatOwn

theorem scaled_of_mem {f : VatDoc} (h : f ∈ vatDocs books range) : f.Scaled := by
  obtain ⟨d, _, rfl⟩ := List.mem_map.mp h
  refine ⟨atScale_max ?_ (AtScale.zero 4), d.vatAmount.2⟩
  exact (atScale_roundHalfUp 4 _).sub (atScale_roundHalfUp 4 _)

/-- An amount in rials has no more decimals than the document's own. -/
theorem atScale_inRials {f : VatDoc} {own : ℚ} (h : AtScale 4 own) :
    AtScale 4 ((f.inRials own).getD 0) := by
  unfold VatDoc.inRials
  split
  · exact h
  · cases f.rate with
    | none => exact AtScale.zero 4
    | some rate => exact (atScale_roundHalfUp 0 _).mono (Nat.zero_le 4)

theorem VatDoc.Scaled.net {f : VatDoc} (h : f.Scaled) : AtScale 4 (f.net.getD 0) :=
  atScale_inRials h.1

theorem VatDoc.Scaled.vat {f : VatDoc} (h : f.Scaled) : AtScale 4 (f.vat.getD 0) :=
  atScale_inRials h.2

/-- The amount of a voucher item in the view of all currencies. -/
theorem atScale_reportAmount {column : ℚ} (h : AtScale 4 column) (row : Aging.LedgerRow) :
    AtScale 4 (Aging.voucherItemReportAmount column row "all") := by
  unfold Aging.voucherItemReportAmount
  split_ifs
  · exact h
  · exact (atScale_roundHalfUp 0 _).mono (Nat.zero_le 4)
  · exact h

/-! ## The rows of the ledger -/

theorem mem_vatLedger {l : LedgerRow} (h : l ∈ vatLedger books accountId) :
    ∃ v ∈ books.vouchers, ∃ item ∈ books.voucherItems, l = ledgerRow books v item := by
  obtain ⟨item, hitem, found⟩ := List.mem_filterMap.mp h
  obtain ⟨v, hv, rfl⟩ := Option.map_eq_some_iff.mp found
  have counted := (Option.filter_eq_some_iff.mp hv).1
  exact ⟨v, List.mem_of_find?_eq_some counted, item, List.mem_of_mem_filter hitem, rfl⟩

theorem atScale_cr {l : LedgerRow} (h : l ∈ vatLedger books accountId) : AtScale 4 l.cr := by
  obtain ⟨v, _, item, _, rfl⟩ := mem_vatLedger h
  exact atScale_reportAmount item.creditScale _

theorem atScale_dr {l : LedgerRow} (h : l ∈ vatLedger books accountId) : AtScale 4 l.dr := by
  obtain ⟨v, _, item, _, rfl⟩ := mem_vatLedger h
  exact atScale_reportAmount item.debitScale _

theorem atScale_net {l : LedgerRow} (h : l ∈ vatLedger books accountId) : AtScale 4 l.net :=
  (atScale_cr h).sub (atScale_dr h)

/-- The rows of sales documents are those that name one. -/
theorem source_eq_document_iff {l : LedgerRow} (h : l ∈ vatLedger books accountId) :
    l.source = .document ↔ l.docId.isSome := by
  obtain ⟨v, _, item, _, rfl⟩ := mem_vatLedger h
  simp only [ledgerRow]
  cases vatOrigin books v with
  | none => simp [sourceOf]
  | some origin => cases named : origin.sourceDocumentId <;> simp [sourceOf, named]

/-! ## The rows by percent -/

/-- `t` is the sum of the rows, column by column. -/
def VatAmounts.IsSumOf (t : VatAmounts) (rows : List VatAmounts) : Prop :=
  t =
    { invoiceCount := (rows.map invoiceCount).sum
      salesBase := (rows.map salesBase).sum
      salesVat := (rows.map salesVat).sum
      returnCount := (rows.map returnCount).sum
      returnBase := (rows.map returnBase).sum
      returnVat := (rows.map returnVat).sum
      netVat := (rows.map netVat).sum }

theorem atScale_sumOf_net {docs : List VatDoc} (scaled : ∀ f ∈ docs, f.Scaled)
    (kind : VatDoc → Bool) : AtScale 4 (sumOf kind VatDoc.net docs) :=
  atScale_sumWhere fun f hf => (scaled f hf).net

theorem atScale_sumOf_vat {docs : List VatDoc} (scaled : ∀ f ∈ docs, f.Scaled)
    (kind : VatDoc → Bool) : AtScale 4 (sumOf kind VatDoc.vat docs) :=
  atScale_sumWhere fun f hf => (scaled f hf).vat

/-- What the amounts of scaled documents are: nothing is rounded away. -/
theorem amountsOf_eq {docs : List VatDoc} (scaled : ∀ f ∈ docs, f.Scaled) :
    amountsOf docs =
      { invoiceCount := docs.countP saleDocs
        salesBase := sumOf saleDocs VatDoc.net docs
        salesVat := sumOf saleDocs VatDoc.vat docs
        returnCount := docs.countP VatDoc.isReturn
        returnBase := sumOf VatDoc.isReturn VatDoc.net docs
        returnVat := sumOf VatDoc.isReturn VatDoc.vat docs
        netVat := sumOf saleDocs VatDoc.vat docs - sumOf VatDoc.isReturn VatDoc.vat docs } := by
  have net := atScale_sumOf_net scaled
  have vat := atScale_sumOf_vat scaled
  simp only [amountsOf, str, money_of_atScale (net saleDocs), money_of_atScale (net VatDoc.isReturn),
    money_of_atScale (vat saleDocs), money_of_atScale (vat VatDoc.isReturn),
    money_of_atScale ((vat saleDocs).sub (vat VatDoc.isReturn))]

theorem scaled_of_converted {f : VatDoc} (h : f ∈ convertedDocs books range) : f.Scaled :=
  scaled_of_mem (List.mem_of_mem_filter h)

/-- The percents under which the report counts. -/
def rateKeys (books : Books) (range : ReportRange) : List (Option ℚ) :=
  ((convertedDocs books range).map VatDoc.rateKey).dedup

/-- The documents counted under a percent. -/
def docsAt (books : Books) (range : ReportRange) (key : Option ℚ) : List VatDoc :=
  (convertedDocs books range).filter fun f => f.rateKey = key

theorem perm_ratesOf (books : Books) (range : ReportRange) :
    (ratesOf books range).Perm
      ((rateKeys books range).map fun key =>
        { percent := key, amounts := amountsOf (docsAt books range key) }) :=
  List.perm_insertionSort _ _

theorem mem_rateKeys {f : VatDoc} (h : f ∈ convertedDocs books range) :
    f.rateKey ∈ rateKeys books range :=
  List.mem_dedup.mpr (List.mem_map_of_mem h)

/-- A column of the rows, summed over all of them. -/
theorem sum_ratesOf {β : Type*} [AddCommMonoid β] (column : VatAmounts → β) :
    (((ratesOf books range).map VatRateRow.amounts).map column).sum =
      ((rateKeys books range).map fun key => column (amountsOf (docsAt books range key))).sum := by
  have perm := (perm_ratesOf books range).map VatRateRow.amounts
  rw [(perm.map column).sum_eq, List.map_map, List.map_map]
  rfl

/-- The documents of the groups are the converted documents. -/
theorem sum_docsAt {β : Type*} [AddCommMonoid β] (kind : VatDoc → Bool) (f : VatDoc → β) :
    ((rateKeys books range).map fun key => sumWhere kind f (docsAt books range key)).sum =
      sumWhere kind f (convertedDocs books range) :=
  sum_sumWhere_groups (List.nodup_dedup _) fun _ => mem_rateKeys

/-- The rows add up to the amounts of all converted documents. -/
theorem isSumOf_ratesOf (books : Books) (range : ReportRange) :
    (amountsOf (convertedDocs books range)).IsSumOf
      ((ratesOf books range).map VatRateRow.amounts) := by
  have groups : ∀ key, amountsOf (docsAt books range key) = _ := fun key =>
    amountsOf_eq fun f hf => scaled_of_converted (List.mem_of_mem_filter hf)
  rw [VatAmounts.IsSumOf, amountsOf_eq fun f hf => scaled_of_converted hf]
  simp only [sum_ratesOf, groups, sumOf, ← sumWhere_one, sum_map_sub, sum_docsAt]

/-- The totals of the report are the amounts of all converted documents. -/
theorem sumAmounts_ratesOf (books : Books) (range : ReportRange) :
    sumAmounts ((ratesOf books range).map VatRateRow.amounts) =
      amountsOf (convertedDocs books range) := by
  have scaled : ∀ f ∈ convertedDocs books range, f.Scaled := fun f => scaled_of_converted
  have net := atScale_sumOf_net scaled
  have vat := atScale_sumOf_vat scaled
  have sums := isSumOf_ratesOf books range
  rw [VatAmounts.IsSumOf, amountsOf_eq scaled, VatAmounts.mk.injEq] at sums
  obtain ⟨invoices, salesBase, salesVat, returns, returnBase, returnVat, _⟩ := sums
  simp only [sumAmounts, ← invoices, ← salesBase, ← salesVat, ← returns, ← returnBase, ← returnVat,
    amountsOf_eq scaled, money_of_atScale (net saleDocs), money_of_atScale (net VatDoc.isReturn),
    money_of_atScale (vat saleDocs), money_of_atScale (vat VatDoc.isReturn),
    money_of_atScale ((vat saleDocs).sub (vat VatDoc.isReturn))]

/-- A converted document is under its own percent and under no other. -/
theorem countP_ratesOf {f : VatDoc} (h : f ∈ convertedDocs books range) :
    (ratesOf books range).countP (fun row => row.percent = f.rateKey) = 1 := by
  have one := List.count_eq_one_of_mem (List.nodup_dedup _) (mem_rateKeys h)
  rw [(perm_ratesOf books range).countP_eq, List.countP_map, ← one]
  exact List.countP_congr fun key _ => by simp

theorem amounts_of_mem_ratesOf {row : VatRateRow} (h : row ∈ ratesOf books range) :
    row.amounts = amountsOf (docsAt books range row.percent) := by
  obtain ⟨key, _, rfl⟩ := List.mem_map.mp ((perm_ratesOf books range).mem_iff.mp h)
  rfl

/-! ## The movement of the account -/

theorem str_sumWhere {p : LedgerRow → Bool} {f : LedgerRow → ℚ} {rows : List LedgerRow}
    (scaled : ∀ l ∈ rows, AtScale 4 (f l)) : str (sumWhere p f rows) = sumWhere p f rows :=
  money_of_atScale (atScale_sumWhere scaled)

/-- The net of rows is their credit less their debit. -/
theorem sumWhere_net (p : LedgerRow → Bool) (rows : List LedgerRow) :
    sumWhere p LedgerRow.net rows = sumWhere p LedgerRow.cr rows - sumWhere p LedgerRow.dr rows :=
  sum_map_sub _ _ _

/-- The days up to the end of a range are those before it and those within it. -/
theorem sumWhere_upTo {cond : LedgerRow → Bool} (ordered : range.fromDay ≤ range.toDay)
    (f : LedgerRow → ℚ) (rows : List LedgerRow) :
    sumWhere (fun l => upTo range l && cond l) f rows =
      sumWhere (fun l => before range l && cond l) f rows +
        sumWhere (fun l => within range l && cond l) f rows := by
  rw [sumWhere_add_sumWhere]
  · refine sumWhere_congr (fun l _ => ?_) fun _ _ _ => rfl
    rw [← Bool.and_or_distrib_right]
    congr 1
    rw [Bool.eq_iff_iff]
    simp only [upTo, before, within, ReportRange.holds, decide_eq_true_eq, Bool.or_eq_true,
      Bool.and_eq_true]
    omega
  · intro l _
    simp only [before, within, ReportRange.holds]
    grind

/-- `total` and `draft` of a figure, without the rounding. -/
theorem figure_eq {f : LedgerRow → ℚ} {rows : List LedgerRow} {cond : LedgerRow → Bool}
    (scaled : ∀ l ∈ rows, AtScale 4 (f l)) :
    figure rows f cond =
      { total := sumWhere (fun l => cond l && true) f rows
        draft := sumWhere (fun l => cond l && l.isDraft) f rows } := by
  simp only [figure, str_sumWhere scaled, Bool.and_true]

section Movement

variable (books) (accountId)

theorem scaled_net : ∀ l ∈ vatLedger books accountId, AtScale 4 l.net := fun _ => atScale_net

theorem scaled_cr : ∀ l ∈ vatLedger books accountId, AtScale 4 l.cr := fun _ => atScale_cr

theorem scaled_dr : ∀ l ∈ vatLedger books accountId, AtScale 4 l.dr := fun _ => atScale_dr

/-- The closing balance is the opening one and the movement, of all rows or of
those that meet a condition. -/
theorem closing_eq (ordered : range.fromDay ≤ range.toDay) (cond : LedgerRow → Bool)
    (rows : List LedgerRow) :
    sumWhere (fun l => upTo range l && cond l) LedgerRow.net rows =
      sumWhere (fun l => before range l && cond l) LedgerRow.net rows +
        sumWhere (fun l => within range l && cond l) LedgerRow.cr rows -
          sumWhere (fun l => within range l && cond l) LedgerRow.dr rows := by
  rw [sumWhere_upTo ordered, sumWhere_net fun l => within range l && cond l, add_sub_assoc]

/-- The closing balance, its total and the drafts' share of it. -/
theorem closing_ledgerOf (ordered : range.fromDay ≤ range.toDay) :
    let l := ledgerOf books range accountId
    l.closing.total = l.opening.total + l.credit.total - l.debit.total ∧
      l.closing.draft = l.opening.draft + l.credit.draft - l.debit.draft := by
  simp only [ledgerOf, figure_eq (scaled_net books accountId), figure_eq (scaled_cr books accountId),
    figure_eq (scaled_dr books accountId)]
  exact ⟨closing_eq ordered _ _, closing_eq ordered _ _⟩

/-- The rows within a range are those of its sources. -/
theorem sum_sources {f : LedgerRow → ℚ} (scaled : ∀ l ∈ vatLedger books accountId, AtScale 4 (f l)) :
    (vatLedgerSources.map fun source =>
      str (sumWhere (fun l => within range l && l.source = source) f
        (vatLedger books accountId))).sum =
      str (sumWhere (within range) f (vatLedger books accountId)) := by
  simp only [str_sumWhere scaled]
  have cover : ∀ l ∈ vatLedger books accountId, l.source ∈ vatLedgerSources := by
    intro l _
    cases l.source <;> decide
  rw [← sum_sumWhere_groups (by decide) cover]
  congr 1
  refine List.map_congr_left fun source _ => ?_
  rw [sumWhere_filter]
  exact sumWhere_congr (fun l _ => Bool.and_comm _ _) fun _ _ _ => rfl

theorem sources_ledgerOf :
    let l := ledgerOf books range accountId
    (vatLedgerSources.map fun source => (l.bySource source).credit).sum = l.credit.total ∧
      (vatLedgerSources.map fun source => (l.bySource source).debit).sum = l.debit.total :=
  ⟨sum_sources books accountId (scaled_cr books accountId),
    sum_sources books accountId (scaled_dr books accountId)⟩

/-- What is before a range is what is up to the end of the one before it. -/
theorem opening_next {next : ReportRange} (follows : next.fromDay = range.toDay + 1) :
    (ledgerOf books next accountId).opening = (ledgerOf books range accountId).closing := by
  have same : before next = upTo range := by
    funext l
    simp only [before, upTo, follows, Int.lt_add_one_iff]
  simp only [ledgerOf, same]

/-- The movement of a range is the net of its rows. -/
theorem movement_eq :
    (ledgerOf books range accountId).credit.total - (ledgerOf books range accountId).debit.total =
      ((vatPeriod books range accountId).map LedgerRow.net).sum := by
  simp only [ledgerOf, figure, str_sumWhere (scaled_cr books accountId),
    str_sumWhere (scaled_dr books accountId)]
  exact (sumWhere_net _ _).symm

end Movement

/-! ## The differences -/

/-- What the counted documents expect is the net VAT of the report. -/
theorem sum_expected (docs : List VatDoc) :
    (docs.map VatDoc.expected).sum =
      sumOf saleDocs VatDoc.vat (docs.filter VatDoc.converted) -
        sumOf VatDoc.isReturn VatDoc.vat (docs.filter VatDoc.converted) := by
  rw [sumOf, sumOf, sumWhere_filter, sumWhere_filter, sumWhere_sub_sumWhere]
  congr 1
  refine List.map_congr_left fun f _ => ?_
  unfold VatDoc.expected saleDocs
  cases f.converted <;> cases f.isReturn <;> simp

theorem mem_vatPeriod {l : LedgerRow} :
    l ∈ vatPeriod books range accountId ↔
      l ∈ vatLedger books accountId ∧ range.holds l.day = true := List.mem_filter

section Period

variable {period : List LedgerRow} {docs : List VatDoc}

/-- The documents of either side of the full join. -/
def joinedIds (docs : List VatDoc) (period : List LedgerRow) : List ℕ :=
  docs.map VatDoc.id ++
    (ledgerDocIds period).filter fun id => !(docs.map VatDoc.id).contains id

theorem nodup_joinedIds (apart : (docs.map VatDoc.id).Nodup) :
    (joinedIds docs period).Nodup := by
  refine apart.append ((List.nodup_dedup _).filter _) ?_
  intro id left right
  simpa [left] using (List.mem_filter.mp right).2

/-- The join loses no row: its documents are those that the rows name. -/
theorem docId_mem_joinedIds (named : ∀ p ∈ ofDocuments period, p.docId.isSome) :
    ∀ p ∈ ofDocuments period, p.docId ∈ (joinedIds docs period).map some := by
  intro p hp
  obtain ⟨id, hid⟩ := Option.isSome_iff_exists.mp (named p hp)
  have inLedger : id ∈ ledgerDocIds period :=
    List.mem_dedup.mpr (List.mem_filterMap.mpr ⟨p, hp, hid⟩)
  rw [hid]
  refine List.mem_map_of_mem ?_
  by_cases counted : id ∈ docs.map VatDoc.id
  · exact List.mem_append_left _ counted
  · refine List.mem_append_right _ (List.mem_filter.mpr ⟨inLedger, ?_⟩)
    simpa using counted

/-- Document by document, the join has the rows of the documents less what the
documents expect. -/
theorem sum_joinedDocuments (apart : (docs.map VatDoc.id).Nodup)
    (named : ∀ p ∈ ofDocuments period, p.docId.isSome) :
    ((joinedDocuments books docs period).map Difference.amount).sum =
      ((ofDocuments period).map LedgerRow.net).sum - (docs.map VatDoc.expected).sum := by
  have nodup : ((joinedIds docs period).map some).Nodup :=
    (nodup_joinedIds apart).map (Option.some_injective ℕ)
  have whole := sum_sumWhere_key (f := LedgerRow.net) nodup (docId_mem_joinedIds named)
  rw [List.map_map, joinedIds, List.map_append, List.sum_append, List.map_map] at whole
  have counted : (docs.map (Difference.amount ∘ fun e =>
      { key := documentKey e.id
        kind := kindOfDoc period e
        docId := some e.id
        expected := e.expected
        ledger := docLedger period e.id })).sum =
      (docs.map fun e => docLedger period e.id).sum - (docs.map VatDoc.expected).sum :=
    sum_map_sub _ _ _
  rw [joinedDocuments, List.map_append, List.sum_append, List.map_map, List.map_map, counted, ← whole,
    sub_add_eq_add_sub]
  congr 2
  refine congrArg List.sum (List.map_congr_left fun id _ => ?_)
  exact sub_zero (docLedger period id)

theorem sum_joinedVouchers :
    ((joinedVouchers period).map Difference.amount).sum =
      ((ofVouchers period).map LedgerRow.net).sum := by
  have cover : ∀ p ∈ ofVouchers period, p.voucherId ∈
      ((ofVouchers period).map LedgerRow.voucherId).dedup :=
    fun p hp => List.mem_dedup.mpr (List.mem_map_of_mem hp)
  have whole := sum_sumWhere_key (f := LedgerRow.net) (List.nodup_dedup _) cover
  rw [joinedVouchers, List.map_map, ← whole]
  refine congrArg List.sum (List.map_congr_left fun id _ => ?_)
  exact sub_zero (sumWhere (fun p => p.voucherId = id) LedgerRow.net (ofVouchers period))

/-- Every row is of a document or of a voucher without one. -/
theorem sum_period (period : List LedgerRow) (f : LedgerRow → ℚ) :
    ((ofDocuments period).map f).sum + ((ofVouchers period).map f).sum = (period.map f).sum := by
  have apart : ∀ l ∈ period, (decide (l.source = .document) && decide (l.source ≠ .document)) =
      false := fun l _ => by simp
  have parts := sumWhere_add_sumWhere (f := f) apart
  have all : sumWhere (fun l : LedgerRow => l.source = .document || l.source ≠ .document) f period =
      sumWhere (fun _ => true) f period :=
    sumWhere_congr (fun l _ => by simp) fun _ _ _ => rfl
  rw [all, sumWhere_true] at parts
  exact parts

end Period

theorem nodup_vatDocs : ((vatDocs books range).map VatDoc.id).Nodup := by
  rw [vatDocs, List.map_map]
  exact books.documentIds.sublist (List.filter_sublist.map _)

theorem named_of_mem_ofDocuments :
    ∀ p ∈ ofDocuments (vatPeriod books range accountId), p.docId.isSome := by
  intro p hp
  obtain ⟨inPeriod, source⟩ := List.mem_filter.mp hp
  exact (source_eq_document_iff (mem_vatPeriod.mp inPeriod).1).mp (of_decide_eq_true source)

/-- All differences, before the small ones are left out. -/
theorem sum_joined :
    ((joined books range accountId).map Difference.amount).sum =
      ((vatPeriod books range accountId).map LedgerRow.net).sum -
        (amountsOf (convertedDocs books range)).netVat := by
  have whole := sum_period (vatPeriod books range accountId) LedgerRow.net
  rw [joined, List.map_append, List.sum_append,
    sum_joinedDocuments nodup_vatDocs named_of_mem_ofDocuments, sum_joinedVouchers, sum_expected,
    amountsOf_eq fun f => scaled_of_converted, ← whole, sub_add_eq_add_sub, convertedDocs]

/-! ## What is left out -/

/-- A difference that is there and is not listed. -/
def Difference.leftOut (x : Difference) : Bool := x.amount ≠ 0 && !x.listed

theorem abs_sum_sub_le (rows : List Difference) :
    |((rows.filter Difference.listed).map Difference.amount).sum - (rows.map Difference.amount).sum|
      ≤ voucherBalanceTolerance * rows.countP Difference.leftOut := by
  induction rows with
  | nil => simp
  | cons x rows ih =>
      rw [List.map_cons, List.sum_cons, List.countP_cons]
      by_cases listed : x.listed = true
      · have shown : x.leftOut = false := by simp [Difference.leftOut, listed]
        rw [List.filter_cons_of_pos listed, List.map_cons, List.sum_cons, add_sub_add_left_eq_sub,
          shown]
        simpa using ih
      · have small : |x.amount| ≤ voucherBalanceTolerance := by
          simpa [Difference.listed] using listed
        have counted : |x.amount| ≤ voucherBalanceTolerance * (if x.leftOut then 1 else 0) := by
          by_cases zero : x.amount = 0
          · simp [zero, Difference.leftOut]
          · simpa [Difference.leftOut, zero, listed] using small
        rw [List.filter_cons_of_neg listed, sub_add_eq_sub_sub_swap, Nat.cast_add, mul_add]
        refine (abs_sub _ _).trans (add_le_add ih ?_)
        simpa using counted

/-! ## The rows of the comparison -/

theorem atScale_docLedger (period : List LedgerRow)
    (scaled : ∀ l ∈ period, AtScale 4 l.net) (id : ℕ) : AtScale 4 (docLedger period id) :=
  atScale_sumWhere fun l hl => scaled l (List.mem_of_mem_filter hl)

theorem atScale_expected {f : VatDoc} (h : f.Scaled) : AtScale 4 f.expected := by
  unfold VatDoc.expected
  split_ifs
  · exact h.vat.neg
  · exact h.vat
  · exact AtScale.zero 4

/-- The rows of the report show the differences exactly. -/
theorem atScale_joined {x : Difference} (h : x ∈ joined books range accountId) :
    AtScale 4 x.amount := by
  have scaled : ∀ l ∈ vatPeriod books range accountId, AtScale 4 l.net := fun l hl =>
    atScale_net (mem_vatPeriod.mp hl).1
  rcases List.mem_append.mp h with ofDoc | ofVoucher
  · rcases List.mem_append.mp ofDoc with counted | other
    · obtain ⟨e, he, rfl⟩ := List.mem_map.mp counted
      exact (atScale_docLedger _ scaled _).sub (atScale_expected (scaled_of_mem he))
    · obtain ⟨id, _, rfl⟩ := List.mem_map.mp other
      exact (atScale_docLedger _ scaled _).sub (AtScale.zero 4)
  · obtain ⟨id, _, rfl⟩ := List.mem_map.mp ofVoucher
    refine AtScale.sub ?_ (AtScale.zero 4)
    exact atScale_sumWhere fun l hl => scaled l (List.mem_of_mem_filter hl)

theorem perm_differences :
    (differences books range accountId).Perm
      ((joined books range accountId).filter Difference.listed) :=
  List.perm_insertionSort _ _

theorem sum_differences :
    ((differences books range accountId).map fun x => str x.amount).sum =
      (((joined books range accountId).filter Difference.listed).map Difference.amount).sum := by
  rw [(perm_differences.map _).sum_eq]
  refine congrArg List.sum (List.map_congr_left fun x hx => ?_)
  exact money_of_atScale (atScale_joined (List.mem_of_mem_filter hx))

/-! ## A document whose voucher carries its VAT -/

/-- The VAT in rials that the report counts for a document on its day, a return's
with its sign: nothing for one that is voided or not final, or is in a foreign
currency without a rate. -/
def countedVat (books : Books) (d : Document) : ℚ :=
  if d.counted then (vatDoc books d).expected else 0

/-- The rows of a document on the VAT account are all on its day and net to the VAT
that the report counts for it. -/
def Carried (books : Books) (accountId : ℕ) (d : Document) : Prop :=
  (∀ l ∈ vatLedger books accountId, l.docId = some d.id → l.day = d.day) ∧
    sumWhere (fun l => l.docId = some d.id) LedgerRow.net (vatLedger books accountId) =
      countedVat books d

/-- What a range has of a carried document: all of it, or nothing. -/
theorem docLedger_of_carried {d : Document} (carried : Carried books accountId d) :
    docLedger (vatPeriod books range accountId) d.id =
      if range.holds d.day then countedVat books d else 0 := by
  have fromLedger : docLedger (vatPeriod books range accountId) d.id =
      sumWhere (fun l => l.docId = some d.id && range.holds d.day) LedgerRow.net
        (vatLedger books accountId) := by
    rw [docLedger, ofDocuments, vatPeriod, sumWhere_filter, sumWhere_filter]
    refine sumWhere_congr (fun l hl => ?_) fun _ _ _ => rfl
    by_cases named : l.docId = some d.id
    · have source := (source_eq_document_iff hl).mpr (by simp [named])
      simp [named, source, within, carried.1 l hl named]
    · simp [named]
  rw [fromLedger]
  split_ifs with inside
  · simp only [inside, Bool.and_true]
    exact carried.2
  · simp only [inside, Bool.and_false]
    exact sumWhere_eq_zero fun _ _ => rfl

/-- A carried document differs in no range. -/
theorem amount_of_carried {d : Document} (member : d ∈ books.documents)
    (carried : Carried books accountId d) {x : Difference}
    (hx : x ∈ joined books range accountId) (named : x.docId = some d.id) : x.amount = 0 := by
  have ledger : docLedger (vatPeriod books range accountId) d.id =
      if range.holds d.day then countedVat books d else 0 := docLedger_of_carried carried
  rcases List.mem_append.mp hx with ofDoc | ofVoucher
  · rcases List.mem_append.mp ofDoc with listed | other
    · obtain ⟨e, he, rfl⟩ := List.mem_map.mp listed
      obtain ⟨d', hd', rfl⟩ := List.mem_map.mp he
      obtain ⟨member', counts⟩ := List.mem_filter.mp hd'
      have same : d' = d :=
        List.inj_on_of_nodup_map books.documentIds member' member (Option.some_injective ℕ named)
      subst same
      rw [Document.within_eq, Bool.and_eq_true] at counts
      rw [if_pos counts.2, countedVat, if_pos counts.1] at ledger
      exact sub_eq_zero.mpr ledger
    · obtain ⟨id, hid, rfl⟩ := List.mem_map.mp other
      obtain rfl : id = d.id := Option.some_injective ℕ named
      have notCounted : ¬(d.counted = true ∧ range.holds d.day = true) := by
        intro both
        have listed : vatDoc books d ∈ vatDocs books range := by
          refine List.mem_map_of_mem (List.mem_filter.mpr ⟨member, ?_⟩)
          rw [Document.within_eq, Bool.and_eq_true]
          exact both
        have found : d.id ∈ (vatDocs books range).map VatDoc.id := List.mem_map_of_mem listed
        simpa [found] using (List.mem_filter.mp hid).2
      have nothing : (if range.holds d.day then countedVat books d else 0) = 0 := by
        unfold countedVat
        split_ifs <;> simp_all
      exact sub_eq_zero.mpr (ledger.trans nothing)
  · obtain ⟨id, _, rfl⟩ := List.mem_map.mp ofVoucher
    exact absurd named (by simp)

/-! ## The report -/

/-- What the parts of a report owe each other. -/
structure Reconciles (books : Books) (account : Option ℕ) (params : VatReportParams) (limit : ℕ)
    (report : VatReport) : Prop where
  /-- Each converted document is under exactly one rate, which has the amounts of
  its documents. -/
  oneRate : ∀ f ∈ convertedDocs books params.range,
    report.rates.countP (fun row => row.percent = f.rateKey) = 1
  amounts : ∀ row ∈ report.rates, row.amounts = amountsOf (docsAt books params.range row.percent)
  totals : report.totals.IsSumOf (report.rates.map VatRateRow.amounts)
  closing : ∀ l ∈ report.ledger,
    l.closing.total = l.opening.total + l.credit.total - l.debit.total ∧
      l.closing.draft = l.opening.draft + l.credit.draft - l.debit.draft
  sources : ∀ l ∈ report.ledger,
    (vatLedgerSources.map fun source => (l.bySource source).credit).sum = l.credit.total ∧
      (vatLedgerSources.map fun source => (l.bySource source).debit).sum = l.debit.total
  /-- The report of a range that starts the next day opens with this closing. -/
  nextOpening : ∀ (params' : VatReportParams) (limit' : ℕ) (report' : VatReport),
    vatReport books account params' limit' = .ok report' →
      params'.range.fromDay = params.range.toDay + 1 →
        ∀ l ∈ report.ledger, ∀ l' ∈ report'.ledger, l'.opening = l.closing
  /-- What the two parts differ by. -/
  nets : ∀ c ∈ report.comparison, ∀ l ∈ report.ledger,
    c.documentsNet = report.totals.netVat ∧ c.ledgerNet = l.credit.total - l.debit.total
  /-- When no row is cut off, the rows make up the difference, but for a hundredth
  for each one left out as too small. -/
  differences : ∀ id ∈ account, ∀ c ∈ report.comparison,
    (differences books params.range id).length ≤ limit →
      |(c.rows.map VatDifferenceRow.difference).sum - (c.ledgerNet - c.documentsNet)| ≤
        1 / 100 * (joined books params.range id).countP Difference.leftOut
  /-- A document is no difference when the ledger carries what the report counts. -/
  carried : ∀ id ∈ account, ∀ c ∈ report.comparison, ∀ d ∈ books.documents, Carried books id d →
    ∀ row ∈ c.rows, row.docId ≠ some d.id

/-- The ledger part of a report. -/
theorem ledger_of_ok {account : Option ℕ} {params : VatReportParams} {limit : ℕ}
    {report : VatReport} (ok : vatReport books account params limit = .ok report) :
    report.ledger = account.map (ledgerOf books params.range) := by
  unfold vatReport at ok
  split at ok
  · cases ok
  · obtain rfl := Except.ok.inj ok
    rfl

theorem atScale_movement :
    AtScale 4 ((ledgerOf books range accountId).credit.total -
      (ledgerOf books range accountId).debit.total) :=
  (atScale_money _).sub (atScale_money _)

theorem vat_report_reconciles (books : Books) (account : Option ℕ) (params : VatReportParams)
    (limit : ℕ) :
    match vatReport books account params limit with
    | .error _ => params.range.toDay < params.range.fromDay
    | .ok report => Reconciles books account params limit report := by
  unfold vatReport
  by_cases empty : params.range.toDay < params.range.fromDay
  · rw [if_pos empty]
    exact empty
  rw [if_neg empty]
  have ordered : params.range.fromDay ≤ params.range.toDay := not_lt.mp empty
  constructor
  case oneRate => exact fun f => countP_ratesOf
  case amounts => exact fun row => amounts_of_mem_ratesOf
  case totals =>
    rw [sumAmounts_ratesOf]
    exact isSumOf_ratesOf books params.range
  case closing =>
    intro l hl
    obtain ⟨id, _, rfl⟩ := Option.map_eq_some_iff.mp hl
    exact closing_ledgerOf books id ordered
  case sources =>
    intro l hl
    obtain ⟨id, _, rfl⟩ := Option.map_eq_some_iff.mp hl
    exact sources_ledgerOf books id
  case nextOpening =>
    intro params' limit' report' ok follows l hl l' hl'
    rw [ledger_of_ok ok] at hl'
    obtain ⟨id, rfl, rfl⟩ := Option.map_eq_some_iff.mp hl
    obtain rfl := Option.some.inj hl'
    exact opening_next books id follows
  case nets =>
    intro c hc l hl
    obtain ⟨id, rfl, rfl⟩ := Option.map_eq_some_iff.mp hc
    obtain rfl := Option.some.inj hl
    exact ⟨rfl, money_of_atScale atScale_movement⟩
  case differences =>
    rintro id rfl c hc all
    obtain rfl := Option.some.inj hc
    have rows : VatDifferenceRow.difference ∘ differenceOf = fun x => str x.amount := rfl
    have left := abs_sum_sub_le (joined books params.range id)
    rw [sum_joined, ← sum_differences, ← movement_eq] at left
    simp only [comparisonOf, List.take_of_length_le all, List.map_map, sumAmounts_ratesOf,
      money_of_atScale atScale_movement, rows]
    exact left
  case carried =>
    rintro id rfl c hc d member carried row hrow named
    obtain rfl := Option.some.inj hc
    obtain ⟨x, hx, rfl⟩ := List.mem_map.mp hrow
    obtain ⟨inJoined, listed⟩ :=
      List.mem_filter.mp (perm_differences.mem_iff.mp (List.mem_of_mem_take hx))
    have zero := amount_of_carried member carried inJoined named
    have large : voucherBalanceTolerance < |x.amount| := of_decide_eq_true listed
    rw [zero, abs_zero, voucherBalanceTolerance] at large
    exact absurd large (by norm_num)

/-! ## A document without a rate -/

/-- A live voucher of the document, on its day, has on the VAT account the
document's VAT in the document's own currency. -/
def VoucherCarriesVat (books : Books) (accountId : ℕ) (d : Document) : Prop :=
  let subtree := Aging.accountSubtree books.accounts accountId
  ∃ v ∈ books.vouchers, countedVoucher v = true ∧ v.sourceDocumentId = some d.id ∧ v.day = d.day ∧
    sumWhere (fun item : SalesReports.JournalVoucherItem => item.voucherId = v.id && !item.isDeleted &&
        subtree.contains item.accountId &&
        Aging.voucherItemCurrency ⟨item.toJournalVoucherItem, v.toJournalVoucher⟩ =
          d.reportCurrency)
      (fun item => item.credit - item.debit) books.voucherItems =
        if d.isReturn then -d.vatAmount.1 else d.vatAmount.1

instance (books : Books) (accountId : ℕ) (d : Document) :
    Decidable (VoucherCarriesVat books accountId d) := by
  unfold VoucherCarriesVat
  infer_instance

/-- An invoice of 20 EUR with 2 EUR of VAT and no rate; its voucher was posted at
500,000 rials for a euro. -/
def rateLost : Books where
  accounts := [⟨3203, none⟩]
  documents :=
    [{ id := 7
       type := "invoice"
       status := "final"
       date := 86400000000
       currency := some "EUR"
       exchangeRate := none
       vatPercent := 10
       vatAmount := stored 2
       isDeleted := false }]
  documentItems :=
    [{ documentId := 7
       itemId := 1
       quantity := 1
       unitPrice := some (stored 20)
       discount := none
       isDeleted := false }]
  vouchers :=
    [{ id := 30
       day := 1
       voucherNumber := 12
       status := "draft"
       currency := some "EUR"
       sourceFiscalYear := none
       isDeleted := false
       voucherType := "sales"
       referenceId := some 7
       referenceNumber := some "5"
       sourceDocumentId := some 7
       sourceChequeId := none }]
  voucherItems :=
    [{ id := 90
       voucherId := 30
       accountId := 3203
       rowOrder := some 3
       debit := 0
       credit := 2
       detailedType := "other"
       detailedId := none
       detailedName := none
       currency := some "EUR"
       exchangeRate := some 500000
       isDeleted := false
       debitScale := atScale_four_zero
       creditScale := AtScale.natCast 4 2 }]
  treasuryVoucherIds := []
  chequeVoucherIds := []
  documentIds := by decide
  voucherIds := by decide
  sourceDocuments := by decide

/-- Every document's voucher carries its VAT on its day, and the document is a
difference: it has no VAT in rials, so that its row of the ledger has nothing
beside it. -/
theorem a_document_without_a_rate_differs :
    ¬∀ (books : Books) (accountId : ℕ) (range : ReportRange),
      (∀ d ∈ books.documents, d.counted = true → VoucherCarriesVat books accountId d) →
        ∀ x ∈ differences books range accountId, x.docId = none := by
  intro every
  have carries : ∀ d ∈ rateLost.documents, d.counted = true → VoucherCarriesVat rateLost 3203 d := by
    decide +kernel
  have row : (differences rateLost ⟨1, 1⟩ 3203).map (fun x => (x.docId, x.expected, x.ledger)) =
      [(some 7, 0, 1000000)] := by
    decide +kernel
  obtain ⟨x, hx, same⟩ := List.mem_map.mp (row ▸ List.mem_singleton_self _)
  have none := every rateLost 3203 ⟨1, 1⟩ carries x hx
  simp_all

end PapitalErp.Vat
