import PapitalErp.Accounting.StockAdjustmentVoucher
import PapitalErp.Documents.KardexConsistency
import PapitalErp.Inventory.WarehouseResolver

/-!
# Stock counts

A count document names items, warehouses, the counts and the book stocks its sheet
showed. Each line is compared with the stock of its warehouse at the start of the
transaction and the difference moves through the stock engine; the voucher is made
from the Kardex rows of the document, and the variances of the document view are read
back from them.

A count is the decimal text `decimalInput` lets through, so it has at most four decimals;
amounts that the source carries as JavaScript numbers are exact. The checks of the
document header that read no count are left out: they only refuse.
-/

namespace PapitalErp.StockCounts

open Rounding Transition

/-- A line of the request; a field that was not sent, or sent empty, is none. -/
structure StockCountLine where
  itemId : ItemId
  location : String
  physicalStock : Option MoneyColumn
  systemStock : Option MoneyColumn

/-- A line with the warehouse it means. -/
structure CountedLine where
  itemId : ItemId
  warehouse : WarehouseId
  physical : Option MoneyColumn
  shown : Option MoneyColumn

namespace CountedLine

def key (line : CountedLine) : ItemId × WarehouseId := (line.itemId, line.warehouse)

/-- `Number(physical_stock || 0)` -/
def count (line : CountedLine) : ℚ := line.physical.elim 0 Subtype.val

theorem count_atScale (line : CountedLine) : AtScale 4 line.count := by
  cases physical : line.physical with
  | none => simpa [count, physical] using AtScale.zero 4
  | some x => simpa [count, physical] using x.2

end CountedLine

inductive CountError
  | warehouse (e : WarehouseError)
  | countMissing (lines : List (ItemId × WarehouseId))
  | countNegative (lines : List (ItemId × WarehouseId))
  | duplicateLine (lines : List (ItemId × WarehouseId))
  | bookStockMissing (items : List ItemId)
  | bookStockChanged (items : List ItemId)
  | documentExists (document : DocumentId)
  | stock (e : StockError)
  | accountsMissing

/-- What a count reads beside the stock. -/
structure Catalog where
  text : HostText
  /-- the active warehouses by id -/
  warehouses : List (WarehouseId × Warehouse)
  isDeleted : ItemId → Bool
  /-- `items.type` is `product` -/
  isProduct : ItemId → Bool
  accounts : CountAccounts

structure StockCount where
  documentId : DocumentId
  items : List StockCountLine
  location : String
  day : ℤ
  refNumber : String
  allowBackdate : Bool
  today : ℤ
  yearOpen : Bool

/-- A row of `document_items`. -/
structure DocumentLine where
  documentId : DocumentId
  itemId : ItemId
  quantity : ℚ
  location : WarehouseId

structure Books where
  stock : StockState
  documentItems : List DocumentLine
  vouchers : List JournalVoucher

/-! ## The checks -/

section Checks

variable (catalog : Catalog)

/-- `resolveWh(line.location || docLocation || '')`, as the warehouse its code is of. -/
def resolveWh (docLocation : String) (line : StockCountLine) : Except CountError CountedLine :=
  let raw := if line.location = "" then docLocation else line.location
  match resolveWarehouse catalog.text (catalog.warehouses.map Prod.snd) raw with
  | .error e => .error (.warehouse e)
  | .ok code =>
      match catalog.warehouses.find? fun row => row.2.code = code with
      | none => .error (.warehouse (.unknownWarehouse raw))
      | some row => .ok {
          itemId := line.itemId
          warehouse := row.1
          physical := line.physicalStock
          shown := line.systemStock }

/-- The lines whose item and warehouse an earlier line has, each pair once. -/
def duplicates : List (ItemId × WarehouseId) → List CountedLine → List CountedLine → List CountedLine
  | _, found, [] => found
  | seen, found, line :: rest =>
      if line.key ∈ seen ∧ line.key ∉ found.map CountedLine.key then
        duplicates (line.key :: seen) (found ++ [line]) rest
      else duplicates (line.key :: seen) found rest

def assertStockCountLines (lines : List CountedLine) : Except CountError Unit := do
  let missing := lines.filter fun line => line.physical.isNone
  ensure (missing = []) (.countMissing (missing.map CountedLine.key))
  let negative := lines.filter fun line => decide (line.count < 0)
  ensure (negative = []) (.countNegative (negative.map CountedLine.key))
  let repeated := duplicates [] [] lines
  ensure (repeated = []) (.duplicateLine (repeated.map CountedLine.key))

/-- The stock of a line's warehouse (`auditStockMap`). -/
def bookStock (s : StockState) (line : CountedLine) : ℚ :=
  (s.items line.itemId).stocks.currentStock line.warehouse

def assertBookStocksUnchanged (s : StockState) (lines : List CountedLine) : Except CountError Unit := do
  let unshown := lines.filter fun line => line.shown.isNone
  ensure (unshown = []) (.bookStockMissing (unshown.map CountedLine.itemId))
  let changed := lines.filter fun line =>
    decide (line.shown.elim 0 (fun shown => FinancialDecimal.round shown 4) ≠
      FinancialDecimal.round (bookStock s line) 4)
  ensure (changed = []) (.bookStockChanged (changed.map CountedLine.itemId))

end Checks

/-! ## The document -/

section Document

variable (catalog : Catalog) (input : StockCount)

/-- The price of a difference: the average cost of an item that is not deleted, else 0. -/
def auditMovementPrice (before : StockState) (item : ItemId) : ℚ :=
  let cost := if catalog.isDeleted item then 0 else (before.items item).weightedAverageCost
  if 0 < cost then cost else 0

theorem audit_recordable : DocumentType.audit ≠ .transfer := by decide

/-- The movement of a line that differs from its book stock. -/
def varianceMovement (before : StockState) (line : CountedLine) : ApplyStockMovementParams where
  itemId := line.itemId
  documentId := some input.documentId
  inOut := if 0 < line.count - bookStock before line then .incoming else .outgoing
  quantity := |line.count - bookStock before line|
  price := auditMovementPrice catalog before line.itemId
  day := input.day
  documentType := .audit
  recordable := audit_recordable
  documentRef := input.refNumber
  targetLoc := line.warehouse
  allowBackdate := input.allowBackdate
  itemDeleted := catalog.isDeleted line.itemId
  today := input.today
  yearOpen := input.yearOpen

/-- One turn of the loop over the lines: the difference from the stock read before it. -/
def countLine (before s : StockState) (line : CountedLine) : Except StockError StockState :=
  if line.count - bookStock before line ≠ 0 then
    DocumentStockEngine.applyStockMovement s (varianceMovement catalog input before line)
  else .ok s

def countLines (s : StockState) (lines : List CountedLine) : Except StockError StockState :=
  lines.foldlM (countLine catalog input s) s

/-- The Kardex rows of a document that are neither deleted nor reversals. -/
def documentRows (s : StockState) (document : DocumentId) : List KardexRow :=
  s.rows.filter fun row =>
    decide (row.documentId = some document) && !row.isDeleted && decide (row.reversalOfId = none)

def documentLine (line : CountedLine) : DocumentLine where
  documentId := input.documentId
  itemId := line.itemId
  quantity := line.count
  location := line.warehouse

/-- A refusal of the stock engine refuses the document. -/
def ofStock {α : Type} : Except StockError α → Except CountError α
  | .ok a => .ok a
  | .error e => .error (.stock e)

/-- `createDocument` of a stock count. The document is inserted here, so nothing names it
before. -/
def createStockCount (books : Books) : Except CountError Books := do
  ensure ((∀ row ∈ books.stock.rows, row.documentId ≠ some input.documentId) ∧
      (∀ voucher ∈ books.vouchers, voucher.sourceDocumentId ≠ some input.documentId) ∧
      ∀ row ∈ books.documentItems, row.documentId ≠ input.documentId)
    (.documentExists input.documentId)
  let lines ← input.items.mapM (resolveWh catalog input.location)
  assertStockCountLines lines
  assertBookStocksUnchanged books.stock lines
  let stock ← ofStock (countLines catalog input books.stock lines)
  match syncStockAdjustmentVoucher catalog.accounts catalog.isProduct input.documentId
      (documentRows stock input.documentId) with
  | none => .error .accountsMissing
  | some posted => .ok {
      stock := stock
      documentItems := books.documentItems ++ lines.map (documentLine input)
      vouchers := books.vouchers ++ posted }

end Document

/-! ## The view and the void -/

/-- `stockCountVariances`: the signed quantities of the rows by item and warehouse. -/
def stockCountVariances (rows : List KardexRow) : List ((ItemId × WarehouseId) × ℚ) :=
  rows.foldl (fun variances row =>
    let quantity := if row.type = .incoming then row.quantity else -row.quantity
    AssocTotals.set variances (row.itemId, row.location)
      (AssocTotals.get variances (row.itemId, row.location) + quantity)) []

/-- The variance that the document view shows for a line. -/
def auditVarianceOf (s : StockState) (document : DocumentId) (line : DocumentLine) : ℚ :=
  AssocTotals.get (stockCountVariances (documentRows s document)) (line.itemId, line.location)

/-- `deleteDocument` of a count: the stock goes back, the vouchers of the document are taken
back and what was left behind is posted. -/
def voidStockCount (catalog : Catalog) (books : Books) (p : VoidDocumentParams) : Except CountError Books := do
  let stock ← ofStock (deleteDocument books.stock p)
  match postVoidResidueVoucher catalog.accounts catalog.isProduct
      (stock.residues.drop books.stock.residues.length) with
  | none => .error .accountsMissing
  | some residue => .ok {
      stock := stock
      documentItems := books.documentItems
      vouchers := voidSourceVouchers p.documentId books.vouchers ++ residue }

/-- The vouchers of the document after they were approved, or not. -/
def approveVouchers (document : DocumentId) (approved : Bool) (books : Books) : Books :=
  { books with
    vouchers := books.vouchers.map fun voucher =>
      if voucher.postedBy document then { voucher with isDraft := !approved } else voucher }

end PapitalErp.StockCounts
