import Mathlib.Data.Rat.Floor
import PapitalErp.Lib.MovingList
import PapitalErp.Woocommerce.WcAutoPush

/-!
# Reading the open orders of the shop

A push of stock first reads the orders the shop holds stock for. The list may change
between two requests, so each reading after the first starts one row back and must
begin with the last order of the reading before; counts, repeated ids and a second
reading of the first page are compared as well. A reading that fails stops the push.

The requests are a parameter: what the shop answers to the `n`th of them, or why it
failed. Numbers of the answer are rational, and none where the field is no number.
-/

namespace PapitalErp.OpenOrders

open Transition MovingList WcAutoPush

def WC_MAX_ORDER_PAGES : ℕ := 25

/-- A line of an order, as far as `Number` reads its fields. -/
structure RawLine where
  productId : Option ℚ
  variationId : Option ℚ
  quantity : Option ℚ
  deriving DecidableEq

/-- A row of an answer; `line_items` is none when it is no list. -/
structure RawRow where
  id : Option ℚ
  status : Option String
  lineItems : Option (List RawLine)
  deriving DecidableEq

structure OpenOrderLine where
  productId : ℚ
  variationId : ℚ
  quantity : ℚ
  deriving DecidableEq

structure OpenOrder where
  id : ℕ
  status : String
  lines : List OpenOrderLine
  deriving DecidableEq

/-- Why a reading gives no orders. -/
inductive ReadFailure
  /-- `ORDERS_UNREADABLE` -/
  | unreadable
  /-- `ORDERS_MOVED` -/
  | moved
  /-- `ORDERS_TOO_SLOW` -/
  | tooSlow
  | tooManyOrders
  /-- the request failed otherwise -/
  | request

/-- An answer of the shop; `data` is none when it is no list, `total` when it has no
`X-WP-Total`. -/
structure WcAnswer where
  data : Option (List RawRow)
  total : Option ℕ

def asLines (raw : Option (List RawLine)) : List OpenOrderLine :=
  ((raw.getD []).map fun line =>
    { productId := line.productId.getD 0
      variationId := line.variationId.getD 0
      quantity := line.quantity.getD 0 : OpenOrderLine }).filter fun l =>
        0 < l.productId ∧ 0 < l.quantity

def asOrder (row : RawRow) : Option OpenOrder :=
  match row.id with
  | none => none
  | some id =>
      if id.den = 1 ∧ 0 < id then
        some {
          id := id.num.toNat
          status := row.status.getD ""
          lines := asLines row.lineItems }
      else none

/-- The id `idsOf` writes for a row, 0 without one. -/
def idOf (row : RawRow) : ℕ := ((asOrder row).map (·.id)).getD 0

def idsOf (answer : List RawRow) : List ℕ := answer.map idOf

/-- Where the reading is: the orders in the order they were read, the first answer's
count and ids, and where the next answer begins. -/
structure Progress where
  orders : List OpenOrder
  firstTotal : Option ℕ
  firstPageIds : List ℕ
  offset : ℕ
  lastId : ℕ

/-- Each row is an order not seen yet. -/
def addOrders (orders : List OpenOrder) : List RawRow → Except ReadFailure (List OpenOrder)
  | [] => .ok orders
  | row :: rows =>
      match asOrder row with
      | none => .error .unreadable
      | some order => do
          ensure (∀ other ∈ orders, other.id ≠ order.id) .moved
          addOrders (orders ++ [order]) rows

/-- The first answer gives the count and the ids to compare with. -/
def firstRows (s : Progress) (answer : List RawRow) (total : Option ℕ) :
    Except ReadFailure (Progress × List RawRow) := do
  ensure (∀ n ∈ total, n ≤ WC_MAX_ORDER_PAGES * WC_BATCH_SIZE) .tooManyOrders
  pure ({ s with
    firstTotal := total
    firstPageIds := idsOf answer }, answer)

/-- A later answer has the same count and starts with the last order read. -/
def laterRows (s : Progress) (answer : List RawRow) (total : Option ℕ) :
    Except ReadFailure (Progress × List RawRow) := do
  ensure (s.firstTotal.isSome = true → total = s.firstTotal) .moved
  ensure ((answer.head?.map idOf).getD 0 = s.lastId) .moved
  pure (s, answer.tail)

/-- The rows of an answer that are read, after the checks of the reading's number. -/
def freshRows (reading : ℕ) (s : Progress) (answer : List RawRow) (total : Option ℕ) :
    Except ReadFailure (Progress × List RawRow) :=
  if reading = 1 then firstRows s answer total else laterRows s answer total

/-- The answer is the last one: a short page, or the count is reached. -/
def isLast (s : Progress) (answer : List RawRow) : Bool :=
  answer.length < WC_BATCH_SIZE || s.firstTotal.any fun total => total ≤ s.offset + answer.length

/-- One answer of the loop: the orders so far, and whether it was the last one. -/
def readAnswer (reading : ℕ) (s : Progress) (answer : WcAnswer) :
    Except ReadFailure (Progress × Bool) :=
  match answer.data with
  | none => .error .unreadable
  | some rows => do
      ensure (∀ row ∈ rows, (asOrder row).isSome = true) .unreadable
      let (s, fresh) ← freshRows reading s rows answer.total
      let orders ← addOrders s.orders fresh
      if isLast s rows then do
        ensure (∀ total ∈ s.firstTotal, orders.length = total) .moved
        pure ({ s with orders := orders }, true)
      else do
        let lastId := (rows.getLast?.map idOf).getD 0
        ensure (0 < lastId) .unreadable
        pure ({ s with
          orders := orders
          lastId := lastId
          offset := s.offset + (rows.length - 1) }, false)

/-- The first page once more shows the same orders and the same count. -/
def checkAgain (s : Progress) (again : WcAnswer) : Except ReadFailure Unit :=
  match again.data with
  | none => .error .moved
  | some rows => do
      ensure (idsOf rows = s.firstPageIds) .moved
      ensure (s.firstTotal.isSome = true → again.total = s.firstTotal) .moved

/-- What a reading gives, and how many requests it has made. -/
structure Reading where
  result : Except ReadFailure (List OpenOrder)
  requests : ℕ

section Read

variable (read : ℕ → ℕ → Except ReadFailure WcAnswer)

/-- After the last answer: a list of more than one reading is checked again. -/
def conclude (reading : ℕ) (s : Progress) : Reading :=
  if reading = 1 then ⟨.ok s.orders, 1⟩
  else ⟨do
    checkAgain s (← read (reading + 1) 0)
    pure s.orders, reading + 1⟩

/-- The loop with `left` readings to go, `read n offset` being the `n`th request. -/
def readings : ℕ → ℕ → Progress → Reading
  | 0, reading, _ => ⟨.error .tooManyOrders, reading - 1⟩
  | left + 1, reading, s =>
      match read reading s.offset >>= readAnswer reading s with
      | .error e => ⟨.error e, reading⟩
      | .ok (s, false) => readings left (reading + 1) s
      | .ok (s, true) => conclude read reading s

def readOpenOrders : Reading :=
  readings read (WC_MAX_ORDER_PAGES + 2) 1 ⟨[], none, [], 0, 0⟩

/-- `pushStocksLocked` and an automatic run: the stocks are sent with the orders in
hand, and a failed reading ends the push. -/
def pushWithOrders {α : Type*} (sendStocks : List OpenOrder → List α) :
    Except ReadFailure Unit × List α :=
  match (readOpenOrders read).result with
  | .ok orders => (.ok (), sendStocks orders)
  | .error e => (.error e, [])

end Read

/-! ## The list of the shop -/

/-- The open orders of the shop at one moment, the newest first. -/
structure OpenList where
  rows : List RawRow
  readable : ∀ row ∈ rows, (asOrder row).isSome = true
  descending : (idsOf rows).Pairwise (· > ·)

/-- What one request meets: it fails, or it is answered from the list of that moment,
with or without a count. -/
inductive Moment
  | fails (e : ReadFailure)
  | answers (list : OpenList) (counted : Bool)

/-- The answer of the shop to a request for the rows from `offset` on. -/
def Moment.answer (offset : ℕ) : Moment → Except ReadFailure WcAnswer
  | .fails e => .error e
  | .answers list counted =>
      .ok {
        data := some (page list.rows offset WC_BATCH_SIZE)
        total := if counted then some list.rows.length else none }

/-- The rows that were open at that moment, as far as the reading sees them. -/
def Moment.rows : Moment → List RawRow
  | .fails _ => []
  | .answers list _ => list.rows

/-- The shop through its moments. -/
def shopRead (moments : ℕ → Moment) (n offset : ℕ) : Except ReadFailure WcAnswer :=
  (moments n).answer offset

end PapitalErp.OpenOrders
