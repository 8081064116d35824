import PapitalErp.Reports.SalesDocuments

/-!
# The VAT report

`vatReportQuery.ts` and `vatReport.service.ts`: the VAT of the sales documents of
a range by percent, the movement of the VAT account in it by source, and the
differences between the two. The queries read one state of the tables; amounts
are exact until the service rounds each to four decimals (`str`). Left out are the
texts that are only shown: the names, the numbers and the voucher references
beside a difference.
-/

namespace PapitalErp.Vat

open FilteredSums Rounding SalesReports

/-- The tables the report reads. Ids are primary keys, and a voucher's
`source_document_id` is a foreign key. -/
structure Books where
  accounts : List Aging.Account
  documents : List Document
  documentItems : List DocumentItem
  vouchers : List SalesReports.JournalVoucher
  voucherItems : List SalesReports.JournalVoucherItem
  /-- `voucher_id` of the rows of `treasury_transactions` and of `cheques`. -/
  treasuryVoucherIds : List (Option ℕ)
  chequeVoucherIds : List (Option ℕ)
  documentIds : (documents.map Document.id).Nodup
  voucherIds : (vouchers.map SalesReports.JournalVoucher.id).Nodup
  sourceDocuments : ∀ v ∈ vouchers, ∀ id ∈ v.sourceDocumentId, id ∈ documents.map Document.id

/-! ## The documents (`vatDocsCte`) -/

/-- The lines of a document that are not deleted. -/
def linesOf (d : Document) (di : DocumentItem) : Bool :=
  di.documentId == d.id && !di.isDeleted

/-- `GREATEST(ROUND(gross, 4) - ROUND(discount, 4), 0)`. -/
def netOwn (books : Books) (d : Document) : ℚ :=
  let gross := sumWhere (linesOf d) DocumentItem.gross books.documentItems
  let discount := sumWhere (linesOf d) DocumentItem.discountAmount books.documentItems
  max (roundHalfUp 4 gross - roundHalfUp 4 discount) 0

inductive VatWarning where
  | unconverted
  | rateMismatch
  | rateMissing
  deriving DecidableEq

/-- A row of `vat_docs`. A document of which the currency is foreign and has no
rate is not converted: its `net` and `vat` are `NULL`. -/
structure VatDoc where
  id : ℕ
  isReturn : Bool
  day : ℤ
  currency : String
  rate : Option ℚ
  percent : ℚ
  vatOwn : ℚ
  netOwn : ℚ

def vatDoc (books : Books) (d : Document) : VatDoc where
  id := d.id
  isReturn := d.isReturn
  day := d.day
  currency := d.reportCurrency
  rate := d.rate
  percent := d.vatPercent
  vatOwn := d.vatAmount
  netOwn := netOwn books d

def vatDocs (books : Books) (range : ReportRange) : List VatDoc :=
  (books.documents.filter fun d => d.counted && d.within range).map (vatDoc books)

namespace VatDoc

def converted (f : VatDoc) : Bool := f.currency == "IRR" || f.rate.isSome

/-- An amount of the document in rials. -/
def inRials (f : VatDoc) (own : ℚ) : Option ℚ :=
  if f.currency = "IRR" then some own else f.rate.map fun rate => roundHalfUp 0 (own * rate)

def net (f : VatDoc) : Option ℚ := f.inRials f.netOwn

def vat (f : VatDoc) : Option ℚ := f.inRials f.vatOwn

/-- `rate_key`: the percent, or `none` for `'unknown'`. A percent of two decimals
and its `float8` text name each other. -/
def rateKey (f : VatDoc) : Option ℚ :=
  if f.percent = 0 ∧ f.vatOwn ≠ 0 then none else some f.percent

def expectedVatOwn (f : VatDoc) : Option ℚ :=
  if !f.isReturn && 0 < f.percent then
    some (roundHalfUp (if f.currency = "IRR" then 0 else 2) (f.netOwn * f.percent / 100))
  else none

def warning (f : VatDoc) : Option VatWarning :=
  if !f.converted then some .unconverted
  else if f.expectedVatOwn.any fun expected => f.vatOwn ≠ expected then some .rateMismatch
  else if !f.isReturn && f.percent = 0 && f.vatOwn ≠ 0 then some .rateMissing
  else none

end VatDoc

/-! ## The totals by percent (`vatRatesSql`) -/

/-- `VatAmounts`. -/
structure VatAmounts where
  invoiceCount : ℕ
  salesBase : ℚ
  salesVat : ℚ
  returnCount : ℕ
  returnBase : ℚ
  returnVat : ℚ
  netVat : ℚ
  deriving DecidableEq

/-- `str`. -/
def str (value : ℚ) : ℚ := money value

def saleDocs (f : VatDoc) : Bool := !f.isReturn

/-- `COALESCE(SUM(column) FILTER (WHERE kind), 0)`; `NULL` adds nothing. -/
def sumOf (kind : VatDoc → Bool) (column : VatDoc → Option ℚ) (docs : List VatDoc) : ℚ :=
  sumWhere kind (fun f => (column f).getD 0) docs

/-- `amountsOf` the row of one group. -/
def amountsOf (docs : List VatDoc) : VatAmounts :=
  let salesVat := sumOf saleDocs VatDoc.vat docs
  let returnVat := sumOf VatDoc.isReturn VatDoc.vat docs
  { invoiceCount := docs.countP saleDocs
    salesBase := str (sumOf saleDocs VatDoc.net docs)
    salesVat := money salesVat
    returnCount := docs.countP VatDoc.isReturn
    returnBase := str (sumOf VatDoc.isReturn VatDoc.net docs)
    returnVat := money returnVat
    netVat := money (salesVat - returnVat) }

/-- `VatRateRow`; `percent` is its key. -/
structure VatRateRow where
  percent : Option ℚ
  amounts : VatAmounts

/-- `rateOrder`: the higher percent first, the unknown one last. -/
def rateOrder (a b : VatRateRow) : Prop :=
  match a.percent, b.percent with
  | none, none => True
  | none, some _ => False
  | some _, none => True
  | some x, some y => y ≤ x

instance : DecidableRel rateOrder := fun a b => by
  unfold rateOrder
  split <;> infer_instance

/-- The documents whose VAT is in rials. -/
def convertedDocs (books : Books) (range : ReportRange) : List VatDoc :=
  (vatDocs books range).filter VatDoc.converted

/-- The rows of `GROUP BY f.rate_key`. -/
def ratesOf (books : Books) (range : ReportRange) : List VatRateRow :=
  let docs := convertedDocs books range
  ((docs.map VatDoc.rateKey).dedup.map fun key =>
    { percent := key, amounts := amountsOf (docs.filter fun f => f.rateKey = key) }).insertionSort
      rateOrder

def sumAmounts (rows : List VatAmounts) : VatAmounts :=
  let salesVat := (rows.map VatAmounts.salesVat).sum
  let returnVat := (rows.map VatAmounts.returnVat).sum
  { invoiceCount := (rows.map VatAmounts.invoiceCount).sum
    salesBase := money (rows.map VatAmounts.salesBase).sum
    salesVat := money salesVat
    returnCount := (rows.map VatAmounts.returnCount).sum
    returnBase := money (rows.map VatAmounts.returnBase).sum
    returnVat := money returnVat
    netVat := money (salesVat - returnVat) }

/-! ## The rows of the VAT account (`vatLedgerRowsCte`) -/

def voucherOf (books : Books) (id : ℕ) : Option SalesReports.JournalVoucher :=
  books.vouchers.find? fun v => v.id == id

def countedStatuses : List String := ["draft", "approved", "permanent"]

/-- A voucher the ledger part counts: no closing run's. -/
def countedVoucher (v : SalesReports.JournalVoucher) : Bool :=
  !v.isDeleted && countedStatuses.contains v.status && v.sourceFiscalYear.isNone

def reversalPrefixes : List String := ["REV-V", "VOID-REPOST-V", "RE-REV-V"]

/-- `reference_number ~ '^(REV-V|VOID-REPOST-V|RE-REV-V)'`. -/
def JournalVoucher.reverses (v : SalesReports.JournalVoucher) : Bool :=
  v.referenceNumber.any fun text => reversalPrefixes.any fun start =>
    start.toList.isPrefixOf text.toList

/-- `vat_chain`: the voucher and, as far as it reverses another one, the vouchers
behind it. -/
def vatChain (books : Books) : ℕ → SalesReports.JournalVoucher → List SalesReports.JournalVoucher
  | 0, v => [v]
  | depth + 1, v =>
    let original := if JournalVoucher.reverses v then v.referenceId.bind (voucherOf books) else none
    v :: original.elim [] (vatChain books depth)

def treasuryLinked (books : Books) (v : SalesReports.JournalVoucher) : Bool :=
  books.treasuryVoucherIds.contains (some v.id) || books.chequeVoucherIds.contains (some v.id)

/-- `vat_origin`: the nearest voucher of the chain that names where it comes from. -/
def vatOrigin (books : Books) (v : SalesReports.JournalVoucher) : Option SalesReports.JournalVoucher :=
  (vatChain books 5 v).find? fun x =>
    x.sourceDocumentId.isSome || x.sourceChequeId.isSome || treasuryLinked books x

inductive VatLedgerSource where
  | document
  | treasury
  | other
  deriving DecidableEq

/-- `VAT_LEDGER_SOURCES`. -/
def vatLedgerSources : List VatLedgerSource := [.document, .treasury, .other]

/-- A row of `vat_ledger`. -/
structure LedgerRow where
  voucherId : ℕ
  day : ℤ
  isDraft : Bool
  cr : ℚ
  dr : ℚ
  docId : Option ℕ
  source : VatLedgerSource

def sourceOf : Option SalesReports.JournalVoucher → VatLedgerSource
  | none => .other
  | some origin => if origin.sourceDocumentId.isSome then .document else .treasury

def ledgerRow (books : Books) (v : SalesReports.JournalVoucher) (item : SalesReports.JournalVoucherItem) :
    LedgerRow :=
  let row : Aging.LedgerRow := ⟨item.toJournalVoucherItem, v.toJournalVoucher⟩
  let origin := vatOrigin books v
  { voucherId := v.id
    day := v.day
    isDraft := v.status == "draft"
    cr := Aging.voucherItemReportAmount item.credit row "all"
    dr := Aging.voucherItemReportAmount item.debit row "all"
    docId := origin.bind SalesReports.JournalVoucher.sourceDocumentId
    source := sourceOf origin }

/-- A live item of a counted voucher on the account or below it. -/
def vatLedger (books : Books) (accountId : ℕ) : List LedgerRow :=
  let subtree := Aging.accountSubtree books.accounts accountId
  (books.voucherItems.filter fun item => !item.isDeleted && subtree.contains item.accountId).filterMap
    fun item => ((voucherOf books item.voucherId).filter countedVoucher).map fun v =>
      ledgerRow books v item

def LedgerRow.net (l : LedgerRow) : ℚ := l.cr - l.dr

/-! ## The movement of the account (`vatLedgerSummarySql`) -/

/-- `VatLedgerFigure`. -/
structure Figure where
  total : ℚ
  draft : ℚ

structure Turnover where
  credit : ℚ
  debit : ℚ

/-- `VatLedger`. -/
structure VatLedger where
  opening : Figure
  credit : Figure
  debit : Figure
  closing : Figure
  bySource : VatLedgerSource → Turnover

/-- `figure`: an amount under a condition, and the drafts' share of it. -/
def figure (rows : List LedgerRow) (amount : LedgerRow → ℚ) (cond : LedgerRow → Bool) : Figure where
  total := str (sumWhere cond amount rows)
  draft := str (sumWhere (fun l => cond l && l.isDraft) amount rows)

def before (range : ReportRange) (l : LedgerRow) : Bool := l.day < range.fromDay

def within (range : ReportRange) (l : LedgerRow) : Bool := range.holds l.day

def upTo (range : ReportRange) (l : LedgerRow) : Bool := l.day ≤ range.toDay

def ledgerOf (books : Books) (range : ReportRange) (accountId : ℕ) : VatLedger :=
  let rows := vatLedger books accountId
  { opening := figure rows LedgerRow.net (before range)
    credit := figure rows LedgerRow.cr (within range)
    debit := figure rows LedgerRow.dr (within range)
    closing := figure rows LedgerRow.net (upTo range)
    bySource := fun source =>
      { credit := str (sumWhere (fun l => within range l && l.source = source) LedgerRow.cr rows)
        debit := str (sumWhere (fun l => within range l && l.source = source) LedgerRow.dr rows) } }

/-! ## The differences (`vatDifferencesSql`) -/

inductive VatDifferenceKind where
  | documentMissing
  | documentDiffers
  | documentVoided
  | documentOutside
  | documentUnconverted
  | treasury
  | other
  deriving DecidableEq

/-- `'d'` and the document, or `'v'` and the voucher. -/
def documentKey (id : ℕ) : String := "d" ++ toString id

def voucherKey (id : ℕ) : String := "v" ++ toString id

/-- A row of `diffs`. -/
structure Difference where
  key : String
  kind : VatDifferenceKind
  docId : Option ℕ
  expected : ℚ
  ledger : ℚ

def Difference.amount (x : Difference) : ℚ := x.ledger - x.expected

/-- `vat_period`. -/
def vatPeriod (books : Books) (range : ReportRange) (accountId : ℕ) : List LedgerRow :=
  (vatLedger books accountId).filter (within range)

/-- The rows of the period that come from sales documents. -/
def ofDocuments (period : List LedgerRow) : List LedgerRow :=
  period.filter fun p => p.source = .document

def ofVouchers (period : List LedgerRow) : List LedgerRow :=
  period.filter fun p => p.source ≠ .document

/-- `doc_ledger.doc_id`. -/
def ledgerDocIds (period : List LedgerRow) : List ℕ :=
  ((ofDocuments period).filterMap LedgerRow.docId).dedup

/-- `doc_ledger.ledger`, none for a document without rows. -/
def docLedger (period : List LedgerRow) (id : ℕ) : ℚ :=
  sumWhere (fun p => p.docId = some id) LedgerRow.net (ofDocuments period)

/-- `doc_expected.expected`. -/
def VatDoc.expected (f : VatDoc) : ℚ :=
  if f.converted then
    if f.isReturn then -(f.vat.getD 0) else f.vat.getD 0
  else 0

def kindOfDoc (period : List LedgerRow) (e : VatDoc) : VatDifferenceKind :=
  if !e.converted then .documentUnconverted
  else if !(ledgerDocIds period).contains e.id then .documentMissing
  else .documentDiffers

/-- `od.is_deleted = 1`. -/
def isVoided (books : Books) (id : ℕ) : Bool :=
  books.documents.any fun d => d.id == id && d.isDeleted

/-- The full join of the counted documents with the documents of the ledger. -/
def joinedDocuments (books : Books) (docs : List VatDoc) (period : List LedgerRow) :
    List Difference :=
  docs.map (fun e =>
    { key := documentKey e.id
      kind := kindOfDoc period e
      docId := some e.id
      expected := e.expected
      ledger := docLedger period e.id }) ++
  ((ledgerDocIds period).filter fun id => !(docs.map VatDoc.id).contains id).map fun id =>
    { key := documentKey id
      kind := if isVoided books id then .documentVoided else .documentOutside
      docId := some id
      expected := 0
      ledger := docLedger period id }

/-- `MIN(p.source)` of the rows of a voucher: `'other'` comes before `'treasury'`. -/
def kindOfVoucher (period : List LedgerRow) (id : ℕ) : VatDifferenceKind :=
  if (ofVouchers period).any fun p => p.voucherId == id && p.source = .other then .other
  else .treasury

/-- The vouchers of the period that come from no sales document. -/
def joinedVouchers (period : List LedgerRow) : List Difference :=
  ((ofVouchers period).map LedgerRow.voucherId).dedup.map fun id =>
    { key := voucherKey id
      kind := kindOfVoucher period id
      docId := none
      expected := 0
      ledger := sumWhere (fun p => p.voucherId = id) LedgerRow.net (ofVouchers period) }

def joined (books : Books) (range : ReportRange) (accountId : ℕ) : List Difference :=
  let period := vatPeriod books range accountId
  joinedDocuments books (vatDocs books range) period ++ joinedVouchers period

/-- `VOUCHER_BALANCE_TOLERANCE`. -/
def voucherBalanceTolerance : ℚ := 1 / 100

/-- A difference large enough to be listed. -/
def Difference.listed (x : Difference) : Bool := voucherBalanceTolerance < |x.amount|

/-- `ORDER BY ABS(x.ledger - x.expected) DESC, x.key ASC`. -/
def Difference.order (a b : Difference) : Prop :=
  |b.amount| < |a.amount| ∨ |a.amount| = |b.amount| ∧ a.key ≤ b.key

instance : DecidableRel Difference.order := fun _ _ => inferInstanceAs (Decidable (_ ∨ _))

def differences (books : Books) (range : ReportRange) (accountId : ℕ) : List Difference :=
  ((joined books range accountId).filter Difference.listed).insertionSort Difference.order

/-! ## The report -/

/-- `VatDifferenceRow`. -/
structure VatDifferenceRow where
  key : String
  kind : VatDifferenceKind
  docId : Option ℕ
  expected : ℚ
  ledger : ℚ
  difference : ℚ

def differenceOf (x : Difference) : VatDifferenceRow where
  key := x.key
  kind := x.kind
  docId := x.docId
  expected := str x.expected
  ledger := str x.ledger
  difference := str x.amount

/-- `VatComparison`. -/
structure VatComparison where
  documentsNet : ℚ
  ledgerNet : ℚ
  difference : ℚ
  rows : List VatDifferenceRow
  rowCount : ℕ

/-- `rowCount` is the window's count, read from the first row. -/
def comparisonOf (books : Books) (range : ReportRange) (accountId : ℕ) (ledger : VatLedger)
    (totals : VatAmounts) (limit : ℕ) : VatComparison :=
  let all := differences books range accountId
  let rows := all.take limit
  let ledgerNet := ledger.credit.total - ledger.debit.total
  { documentsNet := totals.netVat
    ledgerNet := money ledgerNet
    difference := money (ledgerNet - totals.netVat)
    rows := rows.map differenceOf
    rowCount := rows.head?.elim 0 fun _ => all.length }

inductive VatListFilter where
  | all
  | warnings
  deriving DecidableEq

structure VatReportParams where
  range : ReportRange
  list : VatListFilter
  page : ℕ
  limit : ℕ

/-- `ORDER BY f.day ASC, f.id ASC`. -/
def VatDoc.order (a b : VatDoc) : Prop := a.day < b.day ∨ a.day = b.day ∧ a.id ≤ b.id

instance : DecidableRel VatDoc.order := fun _ _ => inferInstanceAs (Decidable (_ ∨ _))

/-- The documents of the list, in their order. -/
def listedDocs (books : Books) (params : VatReportParams) : List VatDoc :=
  ((vatDocs books params.range).filter fun f =>
    params.list = .all || f.warning.isSome).insertionSort VatDoc.order

def warningCount (books : Books) (range : ReportRange) (warning : VatWarning) : ℕ :=
  (vatDocs books range).countP fun f => f.warning = some warning

/-- `VatReport`. A page past the end asks for the count again, so `total` is the
length of the list on every page. -/
structure VatReport where
  rates : List VatRateRow
  totals : VatAmounts
  warnings : VatWarning → ℕ
  ledger : Option VatLedger
  comparison : Option VatComparison
  documents : List VatDoc
  total : ℕ

inductive ReportError where
  | reportRangeInvalid

/-- `vatReport`, with the mapped VAT account, if there is one, and the limit on
the differences. -/
def vatReport (books : Books) (account : Option ℕ) (params : VatReportParams)
    (differenceLimit : ℕ) : Except ReportError VatReport :=
  if params.range.toDay < params.range.fromDay then .error .reportRangeInvalid
  else
    let rates := ratesOf books params.range
    let totals := sumAmounts (rates.map VatRateRow.amounts)
    let listed := listedDocs books params
    .ok
      { rates := rates
        totals := totals
        warnings := warningCount books params.range
        ledger := account.map (ledgerOf books params.range)
        comparison := account.map fun id =>
          comparisonOf books params.range id (ledgerOf books params.range id) totals differenceLimit
        documents := (listed.drop ((params.page - 1) * params.limit)).take params.limit
        total := listed.length }

end PapitalErp.Vat
