import PapitalErp.Lib.FilteredSums
import PapitalErp.Documents.SellableGate
import PapitalErp.Storefront.SiteOrders

/-!
# The stock behind the open site orders

A site order reserves its items by a proforma until it is paid, approved on
account, cancelled or expired. Placing one locks the items of the cart, reads the
reservation report, reads the stocks and compares each quantity with what
`computeSellable` calls sellable: the stock of the site's warehouse, at most the
total of all warehouses less all reservations. The three reads and the commit are
steps of their own here; between them other requests may do whatever the row locks
of the items let them do. Confirming an order runs the sellable gate of the
documents on the proforma and takes the items out of the site's warehouse.

Every reservation of the model is an open site order's, and nothing but a
confirmation lowers the stock of the site's warehouse. Stock may come into it, and
move in any way in the other warehouses.
-/

namespace PapitalErp.SiteStock

open Rounding Transition SiteOrders

/-- What does not change: the active warehouses, the site's warehouse and the
names of the items. -/
structure Shop where
  text : HostText
  active : List Warehouse
  site : String
  trimmed : text.trim site = site
  resolves : resolveWarehouse text active site = .ok site
  code : ItemId → String
  name : ItemId → String

/-- A line of a cart (`cartLinesError`): a whole quantity from 1 to 99. -/
structure CartLine where
  itemId : ItemId
  quantity : ℕ
  stored : 0 < itemId
  ordered : 1 ≤ quantity ∧ quantity ≤ 99

/-- A cart names each item once. -/
structure Cart where
  lines : List CartLine
  distinct : (lines.map CartLine.itemId).Nodup

/-- What the cart takes of an item. -/
def Cart.quantityOf (cart : Cart) (itemId : ItemId) : ℚ :=
  FilteredSums.sumWhere (fun l => decide (l.itemId = itemId)) (fun l => (l.quantity : ℚ)) cart.lines

/-- An order with its document: a proforma while the order is open. -/
structure Order where
  documentId : ℕ
  stored : 0 < documentId
  refNumber : String
  status : OrderStatus
  cart : Cart

def Order.isOpen (order : Order) : Bool := order.status ∈ OPEN_ORDER_STATUSES

/-- How far the placement of an order is. -/
inductive Placing
  | idle
  /-- `lockStockItems` has the rows of the cart's items -/
  | locked (cart : Cart)
  /-- `getReservedStockDetails` was read -/
  | reported (cart : Cart) (report : ItemId → List ReservedItemDetail)
  /-- no line is short -/
  | checked (cart : Cart)

structure Tables where
  stock : ItemId → StockByCode
  orders : List Order
  nextDocument : ℕ
  /-- who has the row lock of an item -/
  locks : ItemId → Option ℕ
  placing : ℕ → Placing

inductive Refusal
  | notPossible
  | locked
  | sellable (e : SellableError)
  | outOfStock
  | notOpen
  | insufficientStock

/-- The reservations of one proforma on an item. -/
def Order.reservations (order : Order) (itemId : ItemId) : List ReservedItemDetail :=
  (order.cart.lines.filter fun l => l.itemId = itemId).map fun l =>
    { sourceType := .proforma
      sourceId := order.documentId
      sourceRef := order.refNumber
      sourceTitle := order.refNumber
      reservedQty := l.quantity
      positive := Nat.cast_pos.mpr l.ordered.1 }

section Steps

variable (shop : Shop) (t : Tables)

def openOrders : List Order := t.orders.filter (·.isOpen)

/-- The reservation report of an item: the proformas of the open orders. -/
def reservations (itemId : ItemId) : List ReservedItemDetail :=
  (openOrders t).flatMap fun order => order.reservations itemId

/-- What the open site orders hold of an item. -/
def openQuantity (itemId : ItemId) : ℚ :=
  FilteredSums.sumWhere (fun order => order.isOpen) (fun order => order.cart.quantityOf itemId) t.orders

/-- The stock of an item in the site's warehouse. -/
def siteStock (itemId : ItemId) : ℚ := AssocTotals.get (t.stock itemId).byCode shop.site

/-- An item as the sellable rules read it, with the reservations of `report`. -/
def stockItem (report : ItemId → List ReservedItemDetail) (itemId : ItemId) : StockItem where
  code := shop.code itemId
  name := shop.name itemId
  isDeleted := false
  stock := t.stock itemId
  reservations := report itemId

/-- `storefrontSellable` of one item, the reservations read before the stocks. -/
def storefrontSellable (report : ItemId → List ReservedItemDetail) (itemId : ItemId) :
    Except SellableError ℚ :=
  (computeSellable (stockItem shop t report itemId) shop.site ⟨none, none⟩).map (·.sellable)

/-- The proforma as the gate reads it. -/
def Order.outflow (order : Order) : List OutflowLine :=
  order.cart.lines.map fun l => ⟨some l.itemId, l.quantity, some shop.site⟩

/-- The gate of `finalizeDocument`: the proforma's own reservation does not count. -/
def gate (order : Order) : Except SellableError Unit :=
  assertOutflowWithinSellable shop.text shop.active
    (fun itemId => some (stockItem shop t (reservations t) itemId)) (order.outflow shop)
    ⟨⟨some order.documentId, none⟩, none⟩

/-- The stock movement of one line: below zero it is refused. -/
def takeOut (stock : StockByCode) (code : String) (quantity : ℕ) : Except Refusal StockByCode :=
  if enough : (quantity : ℚ) ≤ AssocTotals.get stock.byCode code then
    .ok {
      byCode := AssocTotals.set stock.byCode code (AssocTotals.get stock.byCode code - quantity)
      codes_nodup := AssocTotals.nodup_set stock.codes_nodup _ _
      valid := by
        intro row mem
        rcases AssocTotals.mem_set mem with rfl | mem
        · have scale : AtScale 4 (AssocTotals.get stock.byCode code) :=
            AssocTotals.get_of_forall (P := AtScale 4) (AtScale.zero 4)
              (fun row h => (stock.valid row h).1) code
          exact ⟨scale.sub (AtScale.natCast 4 quantity), sub_nonneg.mpr enough⟩
        · exact stock.valid row mem }
  else .error .insufficientStock

/-- The lines of the document leave the site's warehouse one after the other. -/
def applyMovements (stock : ItemId → StockByCode) (lines : List CartLine) :
    Except Refusal (ItemId → StockByCode) :=
  lines.foldlM (fun stock l => do
    let left ← takeOut (stock l.itemId) shop.site l.quantity
    pure (Function.update stock l.itemId left)) stock

def withStatus (documentId : ℕ) (status : OrderStatus) : List Order :=
  t.orders.map fun order => if order.documentId = documentId then { order with status := status } else order

def findOpen (documentId : ℕ) : Except Refusal Order :=
  match t.orders.find? fun order => order.documentId = documentId ∧ order.isOpen with
  | some order => .ok order
  | none => .error .notOpen

def gateRefusal (order : Order) : Except Refusal Unit :=
  match gate shop t order with
  | .ok u => .ok u
  | .error e => .error (.sellable e)

def checkLine (report : ItemId → List ReservedItemDetail) (l : CartLine) : Except Refusal Unit :=
  match storefrontSellable shop t report l.itemId with
  | .error e => .error (.sellable e)
  | .ok sellable => ensure ((l.quantity : ℚ) ≤ sellable) .outOfStock

end Steps

inductive Op
  /-- a placement locks the items of its cart -/
  | begin (p : ℕ) (cart : Cart)
  /-- it reads the reservations -/
  | report (p : ℕ)
  /-- it reads the stocks and compares -/
  | check (p : ℕ)
  /-- it issues the proforma and the order and commits -/
  | commit (p : ℕ) (refNumber : String) (onAccount : Bool)
  /-- any refusal rolls it back -/
  | abort (p : ℕ)
  /-- `confirmPayment` and `approveOnAccount` -/
  | confirm (documentId : ℕ) (status : OrderStatus)
  /-- a colleague's cancellation or the expiry sweep -/
  | cancel (documentId : ℕ)
  /-- a receipt is sent or rejected: the order stays open -/
  | review (documentId : ℕ) (status : OrderStatus)
  /-- any other stock movement of an item -/
  | move (itemId : ItemId) (stock : StockByCode)

section Step

variable (shop : Shop)

def unlock (t : Tables) (p : ℕ) : ItemId → Option ℕ := fun itemId =>
  if t.locks itemId = some p then none else t.locks itemId

/-- One step of a request. A refused one changes nothing; a request that a row lock
stops waits, that is, it is refused here and asks again. -/
def step (t : Tables) : Op → Except Refusal Tables
  | .begin p cart =>
      match t.placing p with
      | .idle => do
          ensure (∀ l ∈ cart.lines, t.locks l.itemId = none) .locked
          pure { t with
            locks := fun itemId =>
              if itemId ∈ cart.lines.map CartLine.itemId then some p else t.locks itemId
            placing := Function.update t.placing p (.locked cart) }
      | _ => .error .notPossible
  | .report p =>
      match t.placing p with
      | .locked cart =>
          .ok { t with placing := Function.update t.placing p (.reported cart (reservations t)) }
      | _ => .error .notPossible
  | .check p =>
      match t.placing p with
      | .reported cart report => do
          forM cart.lines (checkLine shop t report)
          pure { t with placing := Function.update t.placing p (.checked cart) }
      | _ => .error .notPossible
  | .commit p refNumber onAccount =>
      match t.placing p with
      | .checked cart =>
          .ok { t with
            orders := t.orders ++ [{
              documentId := t.nextDocument + 1
              stored := t.nextDocument.succ_pos
              refNumber := refNumber
              status := if onAccount then .awaiting_approval else .awaiting_payment
              cart := cart }]
            nextDocument := t.nextDocument + 1
            locks := unlock t p
            placing := Function.update t.placing p .idle }
      | _ => .error .notPossible
  | .abort p => .ok { t with
      locks := unlock t p
      placing := Function.update t.placing p .idle }
  | .confirm documentId status => do
      let order ← findOpen t documentId
      ensure (status = .paid ∨ status = .confirmed) .notPossible
      ensure (∀ l ∈ order.cart.lines, t.locks l.itemId = none) .locked
      gateRefusal shop t order
      let stock ← applyMovements shop t.stock order.cart.lines
      pure { t with
        stock := stock
        orders := withStatus t documentId status }
  | .cancel documentId => do
      let _ ← findOpen t documentId
      pure { t with orders := withStatus t documentId .cancelled }
  | .review documentId status => do
      let _ ← findOpen t documentId
      ensure (status ∈ OPEN_ORDER_STATUSES) .notPossible
      pure { t with orders := withStatus t documentId status }
  | .move itemId stock => do
      ensure (t.locks itemId = none) .locked
      ensure (siteStock shop t itemId ≤ AssocTotals.get stock.byCode shop.site) .notPossible
      pure { t with stock := Function.update t.stock itemId stock }

end Step

/-- The state the requests meet: orders and stocks of any kind, no placement under
way. -/
def start (stock : ItemId → StockByCode) (orders : List Order) (nextDocument : ℕ) : Tables where
  stock := stock
  orders := orders
  nextDocument := nextDocument
  locks _ := none
  placing _ := .idle

end PapitalErp.SiteStock
