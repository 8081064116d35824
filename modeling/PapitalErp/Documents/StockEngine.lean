import PapitalErp.Inventory.ItemWarehouseStock
import PapitalErp.Inventory.VoidStockHistory
import PapitalErp.Inventory.KardexReplay

/-!
# The stock engine

`applyStockMovement`, `applyStockReversal`, a transfer between warehouses and
the void of a document, over one state: every item's stock and average cost,
the Kardex table, the voided documents and the value each void handed to the
residue voucher.

An operation runs in one transaction under the item's row lock, so it is a
function of the state that may refuse. Checks that read tables outside this
state (the deleted flag of an item, closed years, returns, treasury rows,
reservations) enter as the value they had; they can only refuse.
-/

namespace PapitalErp

open Rounding Transition

/-- The stock and the average cost of one item. The cost is a `numeric(18, 4)`
column and is never negative. -/
structure ItemStock where
  weightedAverageCost : ℚ
  stocks : WarehouseStocks
  valid : AtScale 4 weightedAverageCost ∧ 0 ≤ weightedAverageCost

/-- The average cost an item may carry before its first movement. -/
abbrev OpeningCost := { cost : ℚ // AtScale 4 cost ∧ 0 ≤ cost }

namespace ItemStock

/-- An item with no stock. -/
def opening (cost : OpeningCost) : ItemStock := ⟨cost.1, .empty, cost.2⟩

abbrev total (item : ItemStock) : ℚ := item.stocks.snapshotTotal

end ItemStock

structure StockState where
  items : ItemId → ItemStock
  rows : List KardexRow
  nextId : ℕ
  voidedDocuments : List DocumentId
  residues : List (ItemId × ℚ)

namespace StockState

/-- The Kardex of one item, deleted rows included. -/
def kardexOf (s : StockState) (item : ItemId) : List KardexRow :=
  s.rows.filter fun row => decide (row.itemId = item)

/-- The value that voids of one item's rows handed to the residue voucher. -/
def residueOf (s : StockState) (item : ItemId) : ℚ :=
  ((s.residues.filter fun r => decide (r.1 = item)).map Prod.snd).sum

/-- No movement yet; every item has an opening cost of its own. -/
def initial (cost : ItemId → OpeningCost) : StockState :=
  ⟨fun item => .opening (cost item), [], 1, [], []⟩

end StockState

/-! ## One movement -/

structure ApplyStockMovementParams where
  itemId : ItemId
  documentId : Option DocumentId
  inOut : StockDirection
  quantity : ℚ
  price : ℚ
  day : ℤ
  documentType : DocumentType
  /-- `isRecordableDocumentType`: transfers have their own path -/
  recordable : documentType ≠ .transfer
  documentRef : String
  targetLoc : WarehouseId
  allowBackdate : Bool
  itemDeleted : Bool
  today : ℤ
  yearOpen : Bool

/-- `stockMovementQuantity`. -/
def stockMovementQuantity (quantity : ℚ) : ℚ := FinancialDecimal.round quantity 4

namespace DocumentStockEngine

/-- The unit price a movement is booked at (`txUnitPrice`). -/
def movementUnitPrice (currentItemWac : ℚ) (p : ApplyStockMovementParams) :
    Except StockError ℚ :=
  match p.inOut with
  | .outgoing =>
      if 0 < currentItemWac then .ok currentItemWac
      else if p.documentType = .audit then .ok 0
      else .error (.noCost p.itemId)
  | .incoming =>
      -- goods received at no price are worth the current average
      if ¬0 < p.price ∧ 0 < currentItemWac then .ok currentItemWac
      else .ok p.price

/-- The Kardex row of a movement. -/
def movementRow (id : ℕ) (p : ApplyStockMovementParams) (qty unitPrice : ℚ) : KardexRow where
  id := id
  itemId := p.itemId
  documentId := p.documentId
  type := p.inOut.type
  quantity := qty
  unitPrice := money unitPrice
  totalPrice := money (FinancialDecimal.round (unitPrice * qty) 4)
  day := p.day
  documentType := p.documentType
  documentRef := p.documentRef
  location := p.targetLoc
  reversalOfId := none
  isDeleted := false

/-- The average after a movement: the engine averages with the price as sent,
the row keeps it with four decimals. -/
def movementWac (item : ItemStock) (p : ApplyStockMovementParams) (qty : ℚ) : ℚ :=
  match p.inOut with
  | .incoming =>
      FinancialMath.calculateWAC item.total item.weightedAverageCost qty p.price
  | .outgoing => item.weightedAverageCost

theorem movementWac_valid (item : ItemStock) (p : ApplyStockMovementParams) (qty : ℚ) :
    AtScale 4 (money (movementWac item p qty)) ∧ 0 ≤ money (movementWac item p qty) := by
  refine ⟨atScale_money _, money_nonneg ?_⟩
  cases h : p.inOut with
  | incoming =>
      simp only [movementWac, h]
      exact FinancialMath.calculateWAC_nonneg item.valid.2
  | outgoing =>
      simp only [movementWac, h]
      exact item.valid.2

def documentLive (s : StockState) (document : Option DocumentId) : Prop :=
  ∀ id ∈ document, id ∉ s.voidedDocuments

instance (s : StockState) (document : Option DocumentId) : Decidable (documentLive s document) :=
  match document with
  | none => .isTrue nofun
  | some id => decidable_of_iff (id ∉ s.voidedDocuments) (by simp [documentLive])

/-- The rows of a document carry the document's type. -/
def documentHasType (s : StockState) (document : Option DocumentId) (type : DocumentType) : Prop :=
  ∀ row ∈ s.rows, row.documentId.isSome → row.documentId = document → row.documentType = type

instance (s : StockState) (document : Option DocumentId) (type : DocumentType) :
    Decidable (documentHasType s document type) :=
  inferInstanceAs (Decidable (∀ row ∈ s.rows, _))

/-- `applyStockMovement`. -/
def applyStockMovement (s : StockState) (p : ApplyStockMovementParams) :
    Except StockError StockState := do
  let qty := stockMovementQuantity p.quantity
  ensure (0 < qty) (.quantityNotPositive p.quantity)
  ensure (0 ≤ p.price) (.priceNegative p.price)
  -- a deleted item still takes a stock count decrease, and nothing else
  ensure (p.itemDeleted = true → p.inOut = .outgoing ∧ p.documentType = .audit)
    (.itemDeleted p.itemId)
  ensure (documentLive s p.documentId ∧ documentHasType s p.documentId p.documentType)
    (.documentDeleted (p.documentId.getD 0))
  let item := s.items p.itemId
  assertStockMovementDate s.rows
    { itemId := p.itemId, day := p.day, inOut := p.inOut, quantity := qty
      warehouseId := p.targetLoc, allowBackdate := p.allowBackdate, today := p.today
      yearOpen := p.yearOpen }
  let unitPrice ← movementUnitPrice item.weightedAverageCost p
  let stocks ← ItemWarehouseStockService.applyMovement item.stocks p.targetLoc p.inOut qty
  return { s with
    items := Function.update s.items p.itemId
      ⟨money (movementWac item p qty), stocks, movementWac_valid item p qty⟩
    rows := s.rows ++ [movementRow s.nextId p qty unitPrice]
    nextId := s.nextId + 1 }

/-! ## One reversal -/

/-- The average after a row is reversed, and the value that stays behind with no
stock to carry it. -/
def reversalWac (item : ItemStock) (newTotalStock : ℚ) (orig : KardexRow) : ℚ × ℚ :=
  let oldWac := item.weightedAverageCost
  if orig.documentType = .transfer then (oldWac, 0)
  else if orig.type = .incoming then
    let remainingVal := item.total * oldWac - orig.quantity * orig.unitPrice
    if 0 < newTotalStock ∧ 0 ≤ remainingVal then
      (FinancialDecimal.round (FinancialDecimal.divide remainingVal newTotalStock) 4, 0)
    else (oldWac, remainingVal - max newTotalStock 0 * oldWac)
  else if orig.type = .outgoing then
    (FinancialMath.calculateWAC item.total oldWac orig.quantity orig.unitPrice, 0)
  else (oldWac, 0)

theorem reversalWac_valid (item : ItemStock) (newTotalStock : ℚ) (orig : KardexRow) :
    AtScale 4 (money (reversalWac item newTotalStock orig).1) ∧
      0 ≤ money (reversalWac item newTotalStock orig).1 := by
  refine ⟨atScale_money _, money_nonneg ?_⟩
  unfold reversalWac
  dsimp only
  split_ifs with _ _ h
  · exact item.valid.2
  · exact roundHalfUp_nonneg 4 (roundHalfUp_nonneg 4 (div_nonneg h.2 h.1.le))
  · exact item.valid.2
  · exact FinancialMath.calculateWAC_nonneg item.valid.2
  · exact item.valid.2

/-- `revMovement`: a reversal moves the other way. -/
def reversalDirection (orig : KardexRow) : StockDirection :=
  if orig.type = .incoming then .outgoing else .incoming

/-- `applyStockReversal` for one row of a voided document. -/
def applyStockReversal (item : ItemStock) (orig : KardexRow) :
    Except StockError (ItemStock × ℚ) := do
  let stocks ← ItemWarehouseStockService.applyMovement item.stocks orig.location
    (reversalDirection orig) orig.quantity
  let result := reversalWac item stocks.snapshotTotal orig
  return (⟨money result.1, stocks, reversalWac_valid item stocks.snapshotTotal orig⟩, result.2)

end DocumentStockEngine

/-! ## A transfer between warehouses -/

structure WarehouseTransferParams where
  itemId : ItemId
  documentId : DocumentId
  fromLocation : WarehouseId
  toLocation : WarehouseId
  quantity : ℚ
  /-- both callers read at most four decimals -/
  quantity_atScale : AtScale 4 quantity
  day : ℤ
  refNumber : String
  allowBackdate : Bool
  itemDeleted : Bool
  /-- `assertTransferKeepsReservations` passes -/
  keepsReservations : Bool
  today : ℤ
  yearOpen : Bool

/-- One of the two Kardex rows of a transfer. -/
def transferRow (id : ℕ) (p : WarehouseTransferParams) (inOut : StockDirection)
    (location : WarehouseId) (itemUnitPrice : ℚ) : KardexRow where
  id := id
  itemId := p.itemId
  documentId := some p.documentId
  type := inOut.type
  quantity := p.quantity
  unitPrice := money itemUnitPrice
  totalPrice := money (itemUnitPrice * p.quantity)
  day := p.day
  documentType := .transfer
  documentRef := p.refNumber
  location := location
  reversalOfId := none
  isDeleted := false

/-- `executeWarehouseTransfer`. -/
def executeWarehouseTransfer (s : StockState) (p : WarehouseTransferParams) :
    Except StockError StockState := do
  ensure (0 < p.quantity) (.quantityNotPositive p.quantity)
  ensure (p.itemDeleted = false) (.itemDeleted p.itemId)
  ensure (p.fromLocation ≠ p.toLocation) (.sameWarehouse p.fromLocation)
  -- the transfer's document is inserted here, so no row names it yet
  ensure (p.documentId ∉ s.voidedDocuments ∧ ∀ row ∈ s.rows, row.documentId ≠ some p.documentId)
    (.documentDeleted p.documentId)
  let item := s.items p.itemId
  ensure (p.quantity ≤ item.stocks.currentStock p.fromLocation)
    (.insufficientStock p.fromLocation (item.stocks.currentStock p.fromLocation) p.quantity)
  ensure (p.keepsReservations = true) .refusedElsewhere
  assertStockMovementDate s.rows
    { itemId := p.itemId, day := p.day, inOut := .outgoing, quantity := p.quantity
      warehouseId := p.fromLocation, allowBackdate := p.allowBackdate, today := p.today
      yearOpen := p.yearOpen }
  let taken ← ItemWarehouseStockService.applyMovement item.stocks p.fromLocation .outgoing
    p.quantity
  let stocks ← ItemWarehouseStockService.applyMovement taken p.toLocation .incoming p.quantity
  return { s with
    items := Function.update s.items p.itemId { item with stocks := stocks }
    rows := s.rows ++
      [transferRow s.nextId p .outgoing p.fromLocation item.weightedAverageCost,
        transferRow (s.nextId + 1) p .incoming p.toLocation item.weightedAverageCost]
    nextId := s.nextId + 2 }

/-! ## The void of a document -/

structure VoidDocumentParams where
  documentId : DocumentId
  refNumber : String
  today : ℤ
  /-- the document's live rows, in the order the unordered read returned them -/
  originalTxs : List KardexRow
  /-- closed years, returns, treasury rows and reservations let the void through -/
  otherGuardsPass : Bool

/-- The Kardex row that reverses a row of a voided document. -/
def reversalRow (id : ℕ) (p : VoidDocumentParams) (orig : KardexRow) : KardexRow where
  id := id
  itemId := orig.itemId
  documentId := some p.documentId
  type := if orig.type = .incoming then .outgoing else .incoming
  quantity := orig.quantity
  unitPrice := money orig.unitPrice
  totalPrice := money orig.totalPrice
  day := p.today
  documentType := orig.documentType
  documentRef := "REV-" ++ if orig.documentRef = "" then p.refNumber else orig.documentRef
  location := orig.location
  reversalOfId := some orig.id
  isDeleted := false

/-- The reversal rows of a void, one for each row that moved something. -/
def reversalRows (p : VoidDocumentParams) : ℕ → List KardexRow → List KardexRow
  | _, [] => []
  | next, orig :: rest =>
      if 0 < orig.quantity then reversalRow next p orig :: reversalRows p (next + 1) rest
      else reversalRows p next rest

/-- Reverse the stock of the document's rows, one after the other. -/
def applyReversals : (ItemId → ItemStock) → List KardexRow →
    Except StockError ((ItemId → ItemStock) × List (ItemId × ℚ))
  | items, [] => .ok (items, [])
  | items, orig :: rest =>
      if 0 < orig.quantity then do
        let (item, residue) ← DocumentStockEngine.applyStockReversal (items orig.itemId) orig
        let (items', residues) ← applyReversals (Function.update items orig.itemId item) rest
        return (items', (orig.itemId, residue) :: residues)
      else applyReversals items rest

/-- Mark the rows of a document deleted. -/
def softDeleteRows (document : DocumentId) (rows : List KardexRow) : List KardexRow :=
  rows.map fun row => if row.documentId = some document then row.softDelete else row

/-- The stock part of `deleteDocument`. -/
def deleteDocument (s : StockState) (p : VoidDocumentParams) : Except StockError StockState := do
  ensure (p.documentId ∉ s.voidedDocuments) (.documentDeleted p.documentId)
  assertVoidKeepsStockHistory s.rows p.documentId
  ensure (p.otherGuardsPass = true) .refusedElsewhere
  ensure (p.originalTxs.Perm (s.rows.filter fun t =>
      decide (t.documentId = some p.documentId) && !t.isDeleted))
    (.rowsNotOfDocument p.documentId)
  let (items, residues) ← applyReversals s.items p.originalTxs
  return {
    items := items
    rows := softDeleteRows p.documentId s.rows ++ reversalRows p s.nextId p.originalTxs
    nextId := s.nextId + p.originalTxs.length
    voidedDocuments := p.documentId :: s.voidedDocuments
    residues := s.residues ++ residues }

/-! ## The service -/

/-- One request to the stock service. -/
inductive StockOperation where
  | movement (p : ApplyStockMovementParams)
  | transfer (p : WarehouseTransferParams)
  | void (p : VoidDocumentParams)

/-- One transaction of the stock service. -/
def stockStep (s : StockState) : StockOperation → Except StockError StockState
  | .movement p => DocumentStockEngine.applyStockMovement s p
  | .transfer p => executeWarehouseTransfer s p
  | .void p => deleteDocument s p

/-- The state after a list of requests. -/
abbrev runStock (s : StockState) (ops : List StockOperation) : StockState := run stockStep s ops

/-! ## Requests about one item in one warehouse

The concrete runs of the following modules are made of these. -/

/-- No item has ever had a cost. -/
def noCost : ItemId → OpeningCost := fun _ => ⟨0, AtScale.zero 4, le_rfl⟩

def movementOf (inOut : StockDirection) (documentType : DocumentType)
    (recordable : documentType ≠ .transfer) (document : DocumentId) (quantity price : ℚ)
    (documentRef : String) : StockOperation :=
  .movement
    { itemId := 1, documentId := some document, inOut := inOut, quantity := quantity
      price := price, day := 0, documentType := documentType, recordable := recordable
      documentRef := documentRef, targetLoc := 1, allowBackdate := false, itemDeleted := false
      today := 0, yearOpen := true }

def receiptOf (document : DocumentId) (quantity price : ℚ) (documentRef : String) :
    StockOperation :=
  movementOf .incoming .receipt (by decide) document quantity price documentRef

/-- A stock count difference of an item without a cost. -/
def countOf (inOut : StockDirection) (document : DocumentId) (quantity : ℚ) : StockOperation :=
  movementOf inOut .audit (by decide) document quantity 0 "C"

def voidOf (document : DocumentId) (originalTxs : List KardexRow) : StockOperation :=
  .void
    { documentId := document, refNumber := "", today := 0, originalTxs := originalTxs
      otherGuardsPass := true }

end PapitalErp
