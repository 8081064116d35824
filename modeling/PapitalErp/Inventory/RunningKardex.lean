import PapitalErp.Lib.RunningColumns
import PapitalErp.Inventory.StockMovementDate
import PapitalErp.Inventory.KardexReplay

/-!
# The running Kardex

`buildItemRunningKardex` shows the rows of one item in (day, id) order. Beside
each row stand the item's balance, the stock of the row's warehouse and the
average cost after it; the average is the replay's, in id order. A page of it is
a range of days, opened by the figures of the last row before the range.

Notes, authors and the item's own texts are left out; the search of a page,
which also reads them, is a parameter of the query.
-/

namespace PapitalErp

namespace FinancialMath

/-- `FinancialMath.add`. -/
def add (a b : ℚ) : ℚ := money (a + b)

/-- `FinancialMath.subtract`. -/
def subtract (a b : ℚ) : ℚ := money (a - b)

/-- `FinancialMath.multiply`. -/
def multiply (a b : ℚ) : ℚ := money (a * b)

end FinancialMath

namespace KardexReplay

/-- `isVoidedOriginal` of a replayer. -/
def isVoidedOriginal (allRows : List KardexRow) (row : KardexRow) : Bool :=
  row.isDeleted && activelyReversed allRows row.id

end KardexReplay

open Rounding KardexReplay RunningColumns

structure RunningKardexEntry where
  transactionId : ℕ
  date : ℤ
  type : StockDirection
  documentType : DocumentType
  documentRef : String
  location : WarehouseId
  quantity : ℚ
  unitPrice : ℚ
  totalAmount : ℚ
  runningBalance : ℚ
  runningLocationStock : ℚ
  runningGlobalStock : ℚ
  runningWac : ℚ
  runningTotalValue : ℚ
  reversalOfId : Option ℕ
  isReversal : Bool
  isVoided : Bool

namespace RunningKardexEntry

/-- The units an entry brings in, negative when it takes them out. -/
def signedQuantity (entry : RunningKardexEntry) : ℚ := signed entry.type.type entry.quantity

end RunningKardexEntry

structure RunningKardexSummary where
  totalIn : ℚ
  totalOut : ℚ
  netBalance : ℚ
  transactionCount : ℕ
  valuation : ℚ

structure RunningKardexResponse where
  currentStock : ℚ
  weightedAverageCost : ℚ
  summary : RunningKardexSummary
  entries : List RunningKardexEntry

namespace RunningKardex

/-- The averages the replay reaches, each with the id of its row. -/
def replayedWacs (allTxs : List KardexRow) : Valuation → List KardexRow → List (ℕ × ℚ)
  | _, [] => []
  | v, tx :: rest =>
      match apply allTxs v tx with
      | some step => (tx.id, step.wac) :: replayedWacs allTxs step rest
      | none => replayedWacs allTxs v rest

/-- `wacAfterRow.get(id) ?? 0`. -/
def wacAfterRow (allTxs : List KardexRow) (id : ℕ) : ℚ :=
  (((replayedWacs allTxs ⟨0, 0⟩ (sortById allTxs)).find? fun p => decide (p.1 = id)).map
    Prod.snd).getD 0

/-- The variables of the loop over the displayed rows. -/
structure Walk where
  runningBal : ℚ
  locationRunning : WarehouseId → ℚ
  totalIn : ℚ
  totalOut : ℚ
  entries : List RunningKardexEntry

/-- Before the first row. -/
def Walk.start : Walk := ⟨0, fun _ => 0, 0, 0, []⟩

/-- The average shown beside a row. -/
def rowWac (allTxs : List KardexRow) (defaultWac : ℚ) (tx : KardexRow) : ℚ :=
  let runningWac := wacAfterRow allTxs tx.id
  if 0 < runningWac then runningWac else defaultWac

/-- The entry of a row, given the balance and the warehouse stock after it. -/
def entryOf (allTxs : List KardexRow) (defaultWac : ℚ) (tx : KardexRow)
    (runningBal locationStock : ℚ) : RunningKardexEntry :=
  let wac := rowWac allTxs defaultWac tx
  let effectiveUnitPrice := if 0 < tx.unitPrice then tx.unitPrice else wac
  { transactionId := tx.id
    date := tx.day
    type := if isInType tx.type then .incoming else .outgoing
    documentType := tx.documentType
    documentRef := tx.documentRef
    location := tx.location
    quantity := tx.quantity
    unitPrice := effectiveUnitPrice
    totalAmount := FinancialMath.multiply tx.quantity effectiveUnitPrice
    runningBalance := runningBal
    runningLocationStock := locationStock
    runningGlobalStock := runningBal
    runningWac := wac
    runningTotalValue := FinancialMath.multiply runningBal wac
    reversalOfId := tx.reversalOfId
    isReversal := tx.reversalOfId.isSome || isReversalRef tx.documentRef
    isVoided := isVoidedOriginal allTxs tx }

/-- A real movement: no row of a voided document and no reversal of one. -/
def inLedger (allTxs : List KardexRow) (tx : KardexRow) : Bool :=
  !isVoidedOriginal allTxs tx &&
    !(allTxs.any fun o => decide (tx.reversalOfId = some o.id) && o.isDeleted)

/-- One turn of the loop. -/
def walkRow (allTxs : List KardexRow) (defaultWac : ℚ) (walk : Walk) (tx : KardexRow) : Walk :=
  if !counts allTxs tx then walk
  else
    let isIn := isInType tx.type
    let step := if isIn then FinancialMath.add else FinancialMath.subtract
    let runningBal := step walk.runningBal tx.quantity
    let locationStock := step (walk.locationRunning tx.location) tx.quantity
    { runningBal := runningBal
      locationRunning := Function.update walk.locationRunning tx.location locationStock
      totalIn :=
        if inLedger allTxs tx && isIn then FinancialMath.add walk.totalIn tx.quantity
        else walk.totalIn
      totalOut :=
        if inLedger allTxs tx && !isIn then FinancialMath.add walk.totalOut tx.quantity
        else walk.totalOut
      entries := walk.entries ++ [entryOf allTxs defaultWac tx runningBal locationStock] }

/-- `buildItemRunningKardex`, for an item that exists. -/
def buildItemRunningKardex (allTxs : List KardexRow) (currentStock weightedAverageCost : ℚ) :
    RunningKardexResponse :=
  let walk := (inLedgerOrder allTxs).foldl (walkRow allTxs weightedAverageCost) .start
  { currentStock := currentStock
    weightedAverageCost := weightedAverageCost
    summary :=
      { totalIn := walk.totalIn
        totalOut := walk.totalOut
        netBalance := walk.runningBal
        transactionCount := walk.entries.length
        valuation := FinancialMath.multiply walk.runningBal weightedAverageCost }
    entries := walk.entries }

/-! ## A page -/

structure RunningKardexOpening where
  date : ℤ
  runningBalance : ℚ
  runningWac : ℚ
  runningTotalValue : ℚ

/-- What is asked for; a filter that is `all` is absent. -/
structure RunningKardexQuery where
  fromDay : Option ℤ
  toDay : Option ℤ
  type : Option StockDirection
  location : Option WarehouseId
  searchMatches : RunningKardexEntry → Bool
  page : Option ℤ
  limit : Option ℤ
  exportAll : Bool

structure RunningKardexPage where
  summary : RunningKardexSummary
  entries : List RunningKardexEntry
  opening : Option RunningKardexOpening
  locations : List WarehouseId
  total : ℕ
  page : ℕ
  limit : ℕ

def RUNNING_KARDEX_PAGE_SIZE : ℤ := 200

def RUNNING_KARDEX_MAX_PAGE_SIZE : ℤ := 1000

/-- `runningKardexEntryMatches`. -/
def runningKardexEntryMatches (query : RunningKardexQuery) (entry : RunningKardexEntry) : Bool :=
  query.type.all (fun type => decide (entry.type = type)) &&
    query.location.all (fun location => decide (entry.location = location)) &&
    query.searchMatches entry

/-- Dated before the range. -/
def isBefore (query : RunningKardexQuery) (entry : RunningKardexEntry) : Bool :=
  query.fromDay.any fun first => decide (entry.date < first)

/-- Dated in the range. -/
def isWithin (query : RunningKardexQuery) (entry : RunningKardexEntry) : Bool :=
  query.fromDay.all (fun first => decide (first ≤ entry.date)) &&
    query.toDay.all fun last => decide (entry.date ≤ last)

/-- The figures a range opens with, zero if nothing comes before it. -/
def openingOf (entries : List RunningKardexEntry) (query : RunningKardexQuery) :
    Option RunningKardexOpening :=
  query.fromDay.map fun first =>
    let before := entries.filter fun entry => decide (entry.date < first)
    { date := first
      runningBalance := closing RunningKardexEntry.runningBalance 0 before
      runningWac := closing RunningKardexEntry.runningWac 0 before
      runningTotalValue := closing RunningKardexEntry.runningTotalValue 0 before }

def pageNumber (query : RunningKardexQuery) : ℕ := (max 1 (query.page.getD 1)).toNat

def pageLimit (query : RunningKardexQuery) : ℕ :=
  (min RUNNING_KARDEX_MAX_PAGE_SIZE
    (max 1 (query.limit.getD RUNNING_KARDEX_PAGE_SIZE))).toNat

/-- The entries of the range that pass the filters. -/
def matching (entries : List RunningKardexEntry) (query : RunningKardexQuery) :
    List RunningKardexEntry :=
  entries.filter fun entry => isWithin query entry && runningKardexEntryMatches query entry

/-- `buildItemRunningKardexPage`. -/
def buildItemRunningKardexPage (full : RunningKardexResponse) (query : RunningKardexQuery) :
    RunningKardexPage :=
  let shown := matching full.entries query
  { summary := full.summary
    entries :=
      if query.exportAll then shown else pageOf (pageLimit query) (pageNumber query) shown
    opening := openingOf full.entries query
    locations := (full.entries.map RunningKardexEntry.location).eraseDups
    total := shown.length
    page := if query.exportAll then 1 else pageNumber query
    limit := if query.exportAll then max shown.length 1 else pageLimit query }

end RunningKardex

end PapitalErp
