import PapitalErp.CalendarDate
import PapitalErp.Reports.SalesDocuments

/-!
# The sales report

`salesReportQuery.ts`, `salesReport.service.ts` and `salesLedgerCheck.ts`: the facts
of a scope, one for each document and item; their groups under one or two
dimensions; the totals; and the line that compares the report's net with the ledger.
The queries read one state of the tables, and amounts are exact until the service
rounds each to four decimals (`str`). Left out are the labels, the margin in percent,
the lists of the ten highest and the comparison with another range, which are the
same queries over that range.
-/

namespace PapitalErp.Sales

open FilteredSums Rounding SalesReports

/-! ## The tables -/

/-- A row of `documents` with what only this report reads. -/
structure SalesDocument extends Document where
  partyId : Option ℕ
  buyerName : String
  projectId : Option ℕ
  returnOfDocumentId : Option ℕ
  serviceChargeAmount : MoneyColumn

/-- A row of `items`. -/
structure Item where
  id : ℕ
  category : Option String
  weightedAverageCost : Option MoneyColumn

/-- A row of `transactions`. -/
structure Transaction where
  documentId : Option ℕ
  itemId : ℕ
  type : String
  totalPrice : ℚ
  reversalOfId : Option ℕ
  isDeleted : Bool

/-- A voucher item with its voucher. -/
structure LedgerRow where
  item : SalesReports.JournalVoucherItem
  voucher : SalesReports.JournalVoucher

/-- The tables. A live line has no negative amount and no discount above its own
amount (`chk_document_items_*`, `assertLineDiscountsWithinAmount`), a rate is
positive (`chk_documents_exchange_rate_positive`), and a live voucher has one of
three statuses (`chk_jv_status`). -/
structure Books where
  documents : List SalesDocument
  documentItems : List DocumentItem
  items : List Item
  customers : List Aging.Party
  transactions : List Transaction
  /-- `erp_document_id` of the rows of `woocommerce_order_logs`. -/
  onlineDocumentIds : List (Option ℕ)
  ledger : List LedgerRow
  documentIds : (documents.map fun d => d.id).Nodup
  lines : ∀ di ∈ documentItems, di.isDeleted = false →
    0 ≤ di.discountAmount ∧ di.discountAmount ≤ di.gross
  rates : ∀ d ∈ documents, ∀ rate ∈ d.exchangeRate, (0 : ℚ) < rate
  statuses : ∀ row ∈ ledger, row.voucher.isDeleted = false →
    row.voucher.status ∈ ["approved", "permanent", "draft"]

/-- `'all'`, or a code in capitals (`reportCurrency`, `normalizeCurrency`). -/
inductive CurrencyView where
  | all
  | one (code : String) (capitals : code.toUpper = code)
      (single : Aging.isAllCurrenciesView code = false)

def CurrencyView.text : CurrencyView → String
  | .all => "all"
  | .one code _ _ => code

inductive SalesChannel where
  | online
  | direct
  deriving DecidableEq

def SalesChannel.text : SalesChannel → String
  | .online => "online"
  | .direct => "direct"

/-! ## The periods (`reportPeriods.ts`) -/

inductive ReportPeriodUnit where
  | month
  | quarter
  | year

/-- `UNIT_MONTHS`. -/
def ReportPeriodUnit.months : ReportPeriodUnit → ℤ
  | .month => 1
  | .quarter => 3
  | .year => 12

def monthIndex (jy jm : ℤ) : ℤ := jy * 12 + jm - 1

/-- `yearOfIndex` and `monthOfIndex`. -/
def monthOfIndex (index : ℤ) : JalaliMonth := ⟨index / 12, index % 12 + 1⟩

def unitStartMonth (jm : ℤ) (unit : ReportPeriodUnit) : ℤ :=
  (jm - 1) / unit.months * unit.months + 1

/-- `isoOf`, as a day number. -/
def isoOf (m : JalaliMonth) (jd : ℤ) : ℤ :=
  let (gy, gm, gd) := jalaliToGregorian m.year m.month jd
  GregorianCalendar.dayNumber gy gm gd

/-- The index of the first month of a unit. -/
def unitStart (day : JalaliMonth) (unit : ReportPeriodUnit) (offset : ℤ) : ℤ :=
  monthIndex day.year (unitStartMonth day.month unit) + offset * unit.months

/-- `unitRange` of the unit that holds a day of the given month; a month's length
is `jalaliMonthLength`. -/
def unitRange (day : JalaliMonth) (unit : ReportPeriodUnit) (offset : ℤ) : ReportRange :=
  let start := unitStart day unit offset
  let last := monthOfIndex (start + unit.months - 1)
  { fromDay := isoOf (monthOfIndex start) 1
    toDay := isoOf last last.days }

def pad2 (n : ℤ) : String := (if n < 10 then "0" else "") ++ toString n

/-- `periodKeyOf` a day of the month. -/
def periodKey (m : JalaliMonth) : ReportPeriodUnit → String
  | .year => toString m.year
  | .quarter => toString m.year ++ "/Q" ++ toString ((m.month - 1) / 3 + 1)
  | .month => toString m.year ++ "/" ++ pad2 m.month

structure PeriodBucket where
  key : String
  range : ReportRange

/-- The loop of `periodBuckets`: `remaining` more periods are allowed. -/
def bucketsFrom (day : JalaliMonth) (unit : ReportPeriodUnit) (toDay : ℤ) :
    ℕ → ℤ → Option (List PeriodBucket)
  | remaining, offset =>
    let span := unitRange day unit offset
    if toDay < span.fromDay then some []
    else match remaining with
      | 0 => none
      | remaining + 1 => (bucketsFrom day unit toDay remaining (offset + 1)).map
          ({ key := periodKey (monthOfIndex (unitStart day unit offset)) unit
             range := span } :: ·)

/-- `MAX_PERIOD_BUCKETS`. -/
def maxPeriodBuckets : ℕ := 240

def periodBuckets (firstDay : StorageDate) (toDay : ℤ) (unit : ReportPeriodUnit) :
    Option (List PeriodBucket) :=
  bucketsFrom firstDay.jalaliMonth unit toDay maxPeriodBuckets 0

/-! ## The documents of a scope -/

/-- `SalesScope`. An id of zero filters nothing. -/
structure SalesScope where
  range : ReportRange
  currency : CurrencyView
  buckets : Option (List PeriodBucket)
  partyId : Option ℕ
  itemId : Option ℕ
  category : Option String
  projectId : Option ℕ
  channel : Option SalesChannel

/-- A row of `sales_base`. -/
structure BaseDoc where
  id : ℕ
  isReturn : Bool
  day : ℤ
  partyId : Option ℕ
  buyerName : String
  projectId : Option ℕ
  currency : String
  rate : Option ℚ
  vat : ℚ
  serviceCharge : ℚ
  channel : SalesChannel

/-- The live customer of exactly this name, the first by id. -/
def customerNamed (books : Books) (name : String) : Option ℕ :=
  ((books.customers.filter fun c => !c.isDeleted && c.name == name).map Aging.Party.id).min?

def documentById (books : Books) (id : Option ℕ) : Option SalesDocument :=
  books.documents.find? fun d => some d.id == id

def baseDoc (books : Books) (d : SalesDocument) : BaseDoc where
  id := d.id
  isReturn := d.isReturn
  day := d.day
  partyId := d.partyId.or (customerNamed books (Aging.btrim d.buyerName))
  buyerName := Aging.btrim d.buyerName
  projectId := d.projectId.or ((documentById books d.returnOfDocumentId).bind SalesDocument.projectId)
  currency := d.reportCurrency
  rate := d.rate
  vat := d.vatAmount
  serviceCharge := d.serviceChargeAmount
  channel :=
    if books.onlineDocumentIds.contains (some (d.returnOfDocumentId.getD d.id)) then .online
    else .direct

/-- A filter that a falsy id turns off. -/
def idFilter (asked value : Option ℕ) : Bool :=
  (asked.filter fun id => id ≠ 0).all fun id => value = some id

/-- The filters of `baseDocsCte`. -/
def docFilter (scope : SalesScope) (b : BaseDoc) : Bool :=
  idFilter scope.partyId b.partyId && idFilter scope.projectId b.projectId &&
    scope.channel.all fun channel => b.channel = channel

/-- The final documents of a range. -/
def rangeDocs (books : Books) (range : ReportRange) : List SalesDocument :=
  books.documents.filter fun d => d.counted && d.within range

def salesBase (books : Books) (scope : SalesScope) : List BaseDoc :=
  ((rangeDocs books scope.range).map (baseDoc books)).filter (docFilter scope)

/-- A row of `sales_docs`: what its amounts and its cost are multiplied by. -/
structure ViewDoc extends BaseDoc where
  factor : ℚ
  costFactor : Option ℚ

/-- `viewDocsCte`. -/
def viewDoc (view : CurrencyView) (sb : BaseDoc) : Option ViewDoc :=
  match view with
  | .all =>
    if sb.currency = "IRR" then some { sb with factor := 1, costFactor := some 1 }
    else sb.rate.map fun rate => { sb with factor := rate, costFactor := some 1 }
  | .one code _ _ =>
    if sb.currency = code then
      let costFactor := if code = "IRR" then some 1 else sb.rate.map fun rate => 1 / rate
      some { sb with factor := 1, costFactor := costFactor }
    else none

def salesDocs (books : Books) (scope : SalesScope) : List ViewDoc :=
  (salesBase books scope).filterMap (viewDoc scope.currency)

/-! ## The facts (`salesFactsCte`) -/

/-- A row of `sales_facts`. -/
structure Fact where
  docId : ℕ
  isReturn : Bool
  channel : SalesChannel
  projectId : Option ℕ
  partyId : Option ℕ
  customerKey : String
  itemId : ℕ
  category : String
  periodKey : Option String
  qty : ℚ
  gross : ℚ
  discount : ℚ
  net : ℚ
  cost : Option ℚ

/-- The live lines of a document. -/
def linesOf (books : Books) (docId : ℕ) : List DocumentItem :=
  books.documentItems.filter fun di => di.documentId == docId && !di.isDeleted

/-- `sales_kardex.cost`, `NULL` without rows. -/
def kardexCost (books : Books) (sd : ViewDoc) (itemId : ℕ) : Option ℚ :=
  let rows := books.transactions.filter fun t =>
    t.documentId == some sd.id && t.itemId == itemId && !t.isDeleted && t.reversalOfId.isNone &&
      t.type == (if sd.isReturn then "in" else "out")
  if rows.isEmpty then none else some (rows.map Transaction.totalPrice).sum

def itemOf (books : Books) (id : ℕ) : Option Item := books.items.find? fun i => i.id == id

def categoryOf (books : Books) (itemId : ℕ) : String :=
  Aging.btrim (((itemOf books itemId).bind Item.category).getD "")

/-- `'p'` and the party, or `'n'` and the name. -/
def customerKeyOf (sd : ViewDoc) : String :=
  match sd.partyId with
  | some id => "p" ++ toString id
  | none => "n" ++ sd.buyerName.toLower

/-- `LEFT JOIN sales_buckets`: the keys of the periods that hold the day, or no key. -/
def periodKeysOf (scope : SalesScope) (day : ℤ) : List (Option String) :=
  match (scope.buckets.getD []).filter fun bucket => bucket.range.holds day with
  | [] => [none]
  | buckets => buckets.map fun bucket => some bucket.key

def fact (books : Books) (sd : ViewDoc) (itemId : ℕ) (period : Option String) : Fact :=
  let lines := (linesOf books sd.id).filter fun di => di.itemId = itemId
  let qty := (lines.map DocumentItem.quantity).sum
  let gross := (lines.map DocumentItem.gross).sum
  let discount := (lines.map DocumentItem.discountAmount).sum
  let average := ((itemOf books itemId).bind Item.weightedAverageCost).elim (0 : ℚ) Subtype.val
  { docId := sd.id
    isReturn := sd.isReturn
    channel := sd.channel
    projectId := sd.projectId
    partyId := sd.partyId
    customerKey := customerKeyOf sd
    itemId := itemId
    category := categoryOf books itemId
    periodKey := period
    qty := qty
    gross := gross * sd.factor
    discount := discount * sd.factor
    net := (gross - discount) * sd.factor
    cost := sd.costFactor.map fun factor =>
      ((kardexCost books sd itemId).getD (qty * average)) * factor }

/-- The filters on a line. -/
def lineFilter (scope : SalesScope) (f : Fact) : Bool :=
  idFilter scope.itemId (some f.itemId) &&
    scope.category.all fun category => f.category.toLower = (Aging.btrim category).toLower

/-- The items of a document's lines. -/
def itemsOf (books : Books) (docId : ℕ) : List ℕ :=
  ((linesOf books docId).map DocumentItem.itemId).dedup

def docFacts (books : Books) (scope : SalesScope) (sd : ViewDoc) : List Fact :=
  (itemsOf books sd.id).flatMap fun itemId =>
    (periodKeysOf scope sd.day).map (fact books sd itemId)

def salesFacts (books : Books) (scope : SalesScope) : List Fact :=
  ((salesDocs books scope).flatMap (docFacts books scope)).filter (lineFilter scope)

/-! ## The amounts of facts (`AMOUNT_COLUMNS`) -/

/-- The columns of a group, before the service rounds them. -/
structure Amounts where
  quantity : ℚ
  returnQuantity : ℚ
  gross : ℚ
  discount : ℚ
  net : ℚ
  returnAmount : ℚ
  netAfter : ℚ
  cost : ℚ

def Fact.isSale (f : Fact) : Bool := !f.isReturn

/-- `CASE WHEN f.kind = 'return' THEN -x ELSE x END`. -/
def Fact.signed (f : Fact) (x : ℚ) : ℚ := if f.isReturn then -x else x

def amountColumns (facts : List Fact) : Amounts where
  quantity := sumWhere Fact.isSale Fact.qty facts
  returnQuantity := sumWhere Fact.isReturn Fact.qty facts
  gross := sumWhere Fact.isSale Fact.gross facts
  discount := sumWhere Fact.isSale Fact.discount facts
  net := sumWhere Fact.isSale Fact.net facts
  returnAmount := sumWhere Fact.isReturn Fact.net facts
  netAfter := (facts.map fun f => f.signed f.net).sum
  cost := (facts.map fun f => (f.cost.map f.signed).getD 0).sum

/-- `COUNT(DISTINCT f.doc_id) FILTER (WHERE kind)`. -/
def countDocs (kind : Fact → Bool) (facts : List Fact) : ℕ :=
  ((facts.filter kind).map Fact.docId).dedup.length

/-- `SalesAmounts`. -/
structure SalesAmounts where
  invoiceCount : ℕ
  returnCount : ℕ
  quantity : Option ℚ
  returnQuantity : Option ℚ
  gross : ℚ
  discount : ℚ
  net : ℚ
  returnAmount : ℚ
  netAfterReturns : ℚ
  cost : Option ℚ
  grossProfit : Option ℚ

/-- `str`. -/
def str (value : ℚ) : ℚ := money value

def onlyIf (shown : Bool) (value : ℚ) : Option ℚ := if shown then some value else none

/-- `amountsOf` the row of some facts. -/
def amountsOf (facts : List Fact) (withQuantity withCost : Bool) : SalesAmounts :=
  let r := amountColumns facts
  { invoiceCount := countDocs Fact.isSale facts
    returnCount := countDocs Fact.isReturn facts
    quantity := onlyIf withQuantity (str r.quantity)
    returnQuantity := onlyIf withQuantity (str r.returnQuantity)
    gross := str r.gross
    discount := str r.discount
    net := str r.net
    returnAmount := str r.returnAmount
    netAfterReturns := money r.netAfter
    cost := onlyIf withCost (str r.cost)
    grossProfit := onlyIf withCost (money (r.netAfter - r.cost)) }

/-! ## The groups (`groupedSql`) -/

inductive SalesDimension where
  | item
  | customer
  | category
  | period
  | project
  | channel
  deriving DecidableEq

/-- `DIMENSION_SQL[dimension].key`. -/
def SalesDimension.key : SalesDimension → Fact → String
  | .item, f => toString f.itemId
  | .customer, f => f.customerKey
  | .category, f => f.category.toLower
  | .period, f => f.periodKey.getD ""
  | .project, f => (f.projectId.map toString).getD ""
  | .channel, f => f.channel.text

/-- `g_key` and `t_key`; `t_key` is `NULL` without a second dimension. -/
abbrev GroupKey := String × Option String

def groupKey (groupBy : SalesDimension) (thenBy : Option SalesDimension) (f : Fact) : GroupKey :=
  (groupBy.key f, thenBy.map fun dimension => dimension.key f)

def groupFacts (facts : List Fact) (groupBy : SalesDimension) (thenBy : Option SalesDimension)
    (key : GroupKey) : List Fact :=
  facts.filter fun f => groupKey groupBy thenBy f = key

def groupKeys (facts : List Fact) (groupBy : SalesDimension) (thenBy : Option SalesDimension) :
    List GroupKey :=
  (facts.map (groupKey groupBy thenBy)).dedup

/-- `net_after_n` of a group. -/
def netAfterOf (facts : List Fact) (groupBy : SalesDimension) (thenBy : Option SalesDimension)
    (key : GroupKey) : ℚ :=
  (amountColumns (groupFacts facts groupBy thenBy key)).netAfter

/-- `group_net`, over the groups of one first key. -/
def groupNet (facts : List Fact) (groupBy : SalesDimension) (key : GroupKey) : ℚ :=
  (amountColumns (facts.filter fun f => groupBy.key f = key.1)).netAfter

/-- `ORDER BY`: periods by their key, other groups by their net, the highest first. -/
def groupBefore (facts : List Fact) (groupBy : SalesDimension) (thenBy : Option SalesDimension)
    (a b : GroupKey) : Bool :=
  let netA := groupNet facts groupBy a
  let netB := groupNet facts groupBy b
  let thenNetA := netAfterOf facts groupBy thenBy a
  let thenNetB := netAfterOf facts groupBy thenBy b
  let thenKey := a.2.getD "" ≤ b.2.getD ""
  let thenOrder := if thenBy = some .period then thenKey
    else thenNetB < thenNetA ∨ thenNetA = thenNetB ∧ thenKey
  let groupOrder := a.1 < b.1 ∨ a.1 = b.1 ∧ thenOrder
  if groupBy = .period then groupOrder
  else netB < netA ∨ netA = netB ∧ groupOrder

structure SalesReportRow where
  key : GroupKey
  amounts : SalesAmounts

/-- All groups in their order, before the page is cut. -/
def groupedRows (facts : List Fact) (groupBy : SalesDimension) (thenBy : Option SalesDimension)
    (withQuantity withCost : Bool) : List SalesReportRow :=
  ((groupKeys facts groupBy thenBy).mergeSort (groupBefore facts groupBy thenBy)).map fun key =>
    { key := key
      amounts := amountsOf (groupFacts facts groupBy thenBy key) withQuantity withCost }

/-! ## The totals -/

/-- `SalesTotals`; the document level is shown only without a line filter. -/
structure SalesTotals where
  amounts : SalesAmounts
  vat : Option ℚ
  returnVat : Option ℚ
  serviceCharge : Option ℚ

def lineFiltered (scope : SalesScope) : Bool :=
  (scope.itemId.filter fun id => id ≠ 0).isSome || scope.category.isSome

/-- A column of `documentLevelSql`. -/
def documentLevel (docs : List ViewDoc) (returns : Bool) (column : ViewDoc → ℚ) : ℚ :=
  sumWhere (fun sd => sd.isReturn == returns) (fun sd => column sd * sd.factor) docs

def totalsOf (books : Books) (scope : SalesScope) (withQuantity withCost : Bool) : SalesTotals :=
  let docs := salesDocs books scope
  let shown := !lineFiltered scope
  { amounts := amountsOf (salesFacts books scope) withQuantity withCost
    vat := onlyIf shown (str (documentLevel docs false fun sd => sd.vat))
    returnVat := onlyIf shown (str (documentLevel docs true fun sd => sd.vat))
    serviceCharge := onlyIf shown (str (documentLevel docs false fun sd => sd.serviceCharge)) }

/-! ## The line of the ledger (`salesLedgerCheck`) -/

/-- The accounts of the sales and return vouchers. Those of the receivables, the
VAT and the services are not among those of the check. -/
structure SalesAccounts where
  revenue : Option ℕ
  discount : Option ℕ
  returns : Option ℕ
  receivables : Option ℕ
  vat : Option ℕ
  service : Option ℕ
  apart : ∀ a ∈ [receivables, vat, service], ∀ b ∈ [revenue, discount, returns], a = b → a = none

/-- `byId.keys()`. -/
def checkAccounts (accounts : SalesAccounts) : List ℕ :=
  [accounts.revenue, accounts.discount, accounts.returns].filterMap id

/-- `yearEndClosingVoucherSql`. -/
def yearEndClosingVoucher (v : SalesReports.JournalVoucher) : Bool :=
  v.voucherType == "closing" && v.sourceFiscalYear.isSome

def LedgerRow.aging (row : LedgerRow) : Aging.LedgerRow :=
  ⟨row.item.toJournalVoucherItem, row.voucher.toJournalVoucher⟩

/-- The rows of the check, of all days and currencies. -/
def checkRows (books : Books) (accounts : SalesAccounts) : List LedgerRow :=
  books.ledger.filter fun row =>
    !row.item.isDeleted && !row.voucher.isDeleted &&
      (checkAccounts accounts).contains row.item.accountId && !yearEndClosingVoucher row.voucher

/-- Credit less debit of a row in a view. -/
def checkAmount (view : CurrencyView) (row : LedgerRow) : ℚ :=
  Aging.voucherItemReportAmount row.item.credit row.aging view.text -
    Aging.voucherItemReportAmount row.item.debit row.aging view.text

def ledgerSum (books : Books) (accounts : SalesAccounts) (range : ReportRange)
    (view : CurrencyView) (statuses : List String) : ℚ :=
  sumWhere (fun row => range.holds row.voucher.day &&
    Aging.voucherItemCurrencyCondition row.aging view.text &&
      statuses.contains row.voucher.status) (checkAmount view) (checkRows books accounts)

/-- `SalesLedgerCheck`. -/
structure SalesLedgerCheck where
  reportNet : ℚ
  approved : ℚ
  draft : ℚ
  ledgerTotal : ℚ
  difference : ℚ
  accounts : List ℕ

def salesLedgerCheck (books : Books) (accounts : SalesAccounts) (range : ReportRange)
    (view : CurrencyView) (reportNet : ℚ) : SalesLedgerCheck :=
  let approved := ledgerSum books accounts range view ["approved", "permanent"]
  let draft := ledgerSum books accounts range view ["draft"]
  let ledgerTotal := approved + draft
  { reportNet := reportNet
    approved := money approved
    draft := money draft
    ledgerTotal := money ledgerTotal
    difference := money (reportNet - ledgerTotal)
    accounts := checkAccounts accounts }

/-! ## The report -/

structure SalesReportParams where
  firstDay : StorageDate
  lastDay : StorageDate
  groupBy : SalesDimension
  thenBy : Option SalesDimension
  period : ReportPeriodUnit
  currency : CurrencyView
  partyId : Option ℕ
  itemId : Option ℕ
  category : Option String
  projectId : Option ℕ
  channel : Option SalesChannel
  page : ℕ
  limit : ℕ

def SalesReportParams.range (params : SalesReportParams) : ReportRange :=
  ⟨isoToUtc params.firstDay, isoToUtc params.lastDay⟩

structure SalesReportAccess where
  cost : Bool
  ledger : Bool

inductive ReportError where
  | reportRangeInvalid
  | reportDimensionsSame
  | reportPeriodsTooMany

def usesPeriod (params : SalesReportParams) : Bool :=
  params.groupBy = .period || params.thenBy = some .period

/-- `scopeOf`. -/
def scopeOf (params : SalesReportParams) : Except ReportError SalesScope :=
  let scope (buckets : Option (List PeriodBucket)) : SalesScope :=
    { range := params.range
      currency := params.currency
      buckets := buckets
      partyId := params.partyId
      itemId := params.itemId
      category := params.category
      projectId := params.projectId
      channel := params.channel }
  if usesPeriod params then
    match periodBuckets params.firstDay (isoToUtc params.lastDay) params.period with
    | none => .error .reportPeriodsTooMany
    | some buckets => .ok (scope (some buckets))
  else .ok (scope none)

def truthy (id : Option ℕ) : Bool := (id.filter fun id => id ≠ 0).isSome

/-- `quantityApplies`. -/
def quantityApplies (params : SalesReportParams) : Bool :=
  params.groupBy = .item || params.thenBy = some .item || truthy params.itemId

def filtered (params : SalesReportParams) : Bool :=
  truthy params.partyId || truthy params.itemId || truthy params.projectId ||
    params.channel.isSome || params.category.isSome

/-- `SalesReport`; a page past the end asks for the count again. -/
structure SalesReport where
  rows : List SalesReportRow
  total : ℕ
  totals : SalesTotals
  ledger : Option SalesLedgerCheck
  unconvertedDocuments : ℕ

/-- `unconvertedDocsSql`. -/
def unconvertedDocs (books : Books) (scope : SalesScope) : ℕ :=
  (salesBase books scope).countP fun sb =>
    sb.currency ≠ "IRR" && sb.rate.isNone &&
      match scope.currency with
      | .all => true
      | .one code _ _ => sb.currency = code

def reportOf (books : Books) (accounts : SalesAccounts) (params : SalesReportParams)
    (access : SalesReportAccess) (scope : SalesScope) : SalesReport :=
  let withQuantity := quantityApplies params
  let facts := salesFacts books scope
  let rows := groupedRows facts params.groupBy params.thenBy withQuantity access.cost
  let totals := totalsOf books scope (withQuantity && truthy params.itemId) access.cost
  { rows := (rows.drop ((params.page - 1) * params.limit)).take params.limit
    total := rows.length
    totals := totals
    ledger := if access.ledger && !filtered params then
        some (salesLedgerCheck books accounts scope.range params.currency
          totals.amounts.netAfterReturns)
      else none
    unconvertedDocuments := unconvertedDocs books scope }

/-- `salesReport`. -/
def salesReport (books : Books) (accounts : SalesAccounts) (params : SalesReportParams)
    (access : SalesReportAccess) : Except ReportError SalesReport :=
  if params.range.toDay < params.range.fromDay then .error .reportRangeInvalid
  else if params.thenBy = some params.groupBy then .error .reportDimensionsSame
  else (scopeOf params).map (reportOf books accounts params access)

end PapitalErp.Sales
