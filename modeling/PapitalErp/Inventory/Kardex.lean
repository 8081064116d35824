import PapitalErp.FinancialDecimal

/-!
# Kardex rows

The stock ledger (`transactions`): one row per movement of one item in one
warehouse. A voided document keeps its rows with `isDeleted` set and gains one
reversal row for each of them, so the table is append-only except for that
flag.

A row's stored location text is modelled as the warehouse it resolves to, and
its timestamp as the ordinal of the day the stock rules compare. The author and the notes of a
row are left out: no stock rule reads them.
-/

namespace PapitalErp

abbrev ItemId := ℕ
abbrev WarehouseId := ℕ
abbrev DocumentId := ℕ

/-- The direction `inOut` of a movement. -/
inductive StockDirection where
  | incoming
  | outgoing
  deriving DecidableEq

/-- The `type` column of a Kardex row. The engine writes `in` and `out`; the
transfer types are those of old rows. -/
inductive MovementType where
  | incoming
  | outgoing
  | transferIn
  | transferOut
  | unknown
  deriving DecidableEq

/-- The document types the stock rules know, and every other title. -/
inductive DocumentType where
  | receipt
  | purchase
  | productionReceipt
  | salesReturn
  | invoice
  | proforma
  | remittance
  | waste
  | audit
  | transfer
  | other (title : String)
  deriving DecidableEq

namespace StockDirection

def type : StockDirection → MovementType
  | incoming => .incoming
  | outgoing => .outgoing

def opposite : StockDirection → StockDirection
  | incoming => outgoing
  | outgoing => incoming

end StockDirection

def isInType (type : MovementType) : Bool := type == .incoming || type == .transferIn

def isOutType (type : MovementType) : Bool := type == .outgoing || type == .transferOut

structure KardexRow where
  id : ℕ
  itemId : ItemId
  documentId : Option DocumentId
  type : MovementType
  quantity : ℚ
  unitPrice : ℚ
  totalPrice : ℚ
  day : ℤ
  documentType : DocumentType
  documentRef : String
  location : WarehouseId
  reversalOfId : Option ℕ
  isDeleted : Bool
  deriving DecidableEq

/-- A quantity or an amount with the sign of its row. -/
def signed (type : MovementType) (x : ℚ) : ℚ :=
  if isInType type then x else if isOutType type then -x else 0

@[simp] theorem signed_incoming (x : ℚ) : signed .incoming x = x := rfl

@[simp] theorem signed_outgoing (x : ℚ) : signed .outgoing x = -x := rfl

namespace KardexRow

/-- The units a row brings into its warehouse, negative when it takes them out. -/
def signedQuantity (row : KardexRow) : ℚ := signed row.type row.quantity

/-- The value a row brings into the inventory account. -/
def signedTotal (row : KardexRow) : ℚ := signed row.type row.totalPrice

/-- The row with its document voided. -/
def softDelete (row : KardexRow) : KardexRow := { row with isDeleted := true }

variable (row : KardexRow)

@[simp] theorem softDelete_id : row.softDelete.id = row.id := rfl
@[simp] theorem softDelete_itemId : row.softDelete.itemId = row.itemId := rfl
@[simp] theorem softDelete_documentId : row.softDelete.documentId = row.documentId := rfl
@[simp] theorem softDelete_type : row.softDelete.type = row.type := rfl
@[simp] theorem softDelete_documentType : row.softDelete.documentType = row.documentType := rfl
@[simp] theorem softDelete_reversalOfId : row.softDelete.reversalOfId = row.reversalOfId := rfl
@[simp] theorem softDelete_isDeleted : row.softDelete.isDeleted = true := rfl

end KardexRow

/-- Why a stock operation is refused. -/
inductive StockError where
  | quantityNotPositive (quantity : ℚ)
  | priceNegative (price : ℚ)
  | itemDeleted (item : ItemId)
  | documentDeleted (document : DocumentId)
  | futureDate (day today : ℤ)
  | closedYear (day : ℤ)
  | backdated (day lastMovementDay : ℤ)
  | negativeAsOfDate (day : ℤ) (available : ℚ)
  | insufficientStock (warehouse : WarehouseId) (available requested : ℚ)
  | noCost (item : ItemId)
  | sameWarehouse (warehouse : WarehouseId)
  | voidBreaksStockHistory (item : ItemId) (warehouse : WarehouseId) (day : ℤ) (deepest : ℚ)
  | rowsNotOfDocument (document : DocumentId)
  | refusedElsewhere
  deriving DecidableEq

end PapitalErp
