import PapitalErp.Storefront.OrderPricing

/-!
# Placing an order of the site

A call reads its session and makes the fingerprint of its request, looks the request key up, and then
places the order in a transaction: the session again, the lock of the phone, the open orders of the
phone, the price of the cart and the insertions. A key that was inserted meanwhile is looked up once
more. Sessions start and end, and orders are cancelled and expire, between any two statements.

A statement may fail, which rolls the transaction back; `ok` also stands for the sellable stock and the
refusals of the documents service. What follows the count of the open orders writes rows of the order
only, and the unique index lets one insertion of a key through, so it is one step. A request is given
normalized; `requestHashOf` is the SHA-256 of its JSON and `hashtext` what the phone's lock is taken on.
The customer, the tracking key, the buyer's text and the notices are left out.
-/

namespace PapitalErp.PlaceOrder

open Interleaving Transition SiteOrders

/-- A normalized request without its key. -/
structure Content where
  recipientName : String
  phone : String
  phoneKey : String
  province : String
  city : String
  address : String
  postalCode : String
  note : String
  shippingMethod : String
  lines : List CartLine
  paymentMethod : PaymentMethod
  discountCode : Option String
  deriving DecidableEq

/-- `CleanOrder`. -/
structure CleanOrder extends Content where
  requestKey : String
  deriving DecidableEq

/-- A row of `storefront_orders`, with the request it was made from and its priced cart. -/
structure PlacedOrder (H : Type) where
  id : ℕ
  requestKey : String
  requestHash : H
  madeFrom : Content
  cart : PricedCart
  documentId : ℕ
  status : OrderStatus
  itemsAmount : ℚ
  discountAmount : ℚ
  shippingAmount : ℚ
  payableAmount : ℚ
  buyerAccountId : Option ℕ
  buyerGroupId : Option ℕ

/-- A call that found an order with its key: what it asked for, from which account, and whether it was
answered with the order. -/
structure Replay (H : Type) where
  requestKey : String
  content : Content
  accountId : Option ℕ
  order : PlacedOrder H
  answered : Bool

/-- What the calls do not change. -/
structure Site (H : Type) where
  shop : Shop
  requestHashOf : Content × Option ℕ → H
  hashtext : String → ℤ

structure Tables (H : Type) where
  orders : List (PlacedOrder H)
  documents : List Proforma
  nextOrder : ℕ
  nextDocument : ℕ
  /-- the accounts of the live sessions -/
  sessions : ℕ → Option ℕ
  phoneLocks : Locks ℤ ℕ
  replays : List (Replay H)
  /-- the open orders of its phone when a placement committed -/
  openAtCommit : List ℕ

inductive Request where
  | placeOrder (order : CleanOrder) (session : Option ℕ)
  | startSession (session accountId : ℕ)
  | endSession (session : ℕ)
  | cancelOrder (orderId : ℕ)
  /-- the orders whose window has ended -/
  | expireDueOrdersOnce (due : List ℕ)
  deriving DecidableEq

/-- What a statement of a placement meets: it may be refused, and so may the code. -/
structure Weather where
  ok : Bool
  codeApplies : Bool

inductive Point (H : Type) where
  | sent (request : Request)
  | signedIn (order : CleanOrder) (session : Option ℕ) (accountId : Option ℕ) (requestHash : H)
  | entering (order : CleanOrder) (session : Option ℕ) (accountId : Option ℕ) (requestHash : H)
  | bought (order : CleanOrder) (accountId : Option ℕ) (requestHash : H) (buyer : Option BuyerAccount)
  | locked (order : CleanOrder) (accountId : Option ℕ) (requestHash : H) (buyer : Option BuyerAccount)
  | counted (order : CleanOrder) (accountId : Option ℕ) (requestHash : H) (buyer : Option BuyerAccount)
  | raced (order : CleanOrder) (accountId : Option ℕ) (requestHash : H)
  | ended

variable {H : Type}

namespace Tables

variable (site : Site H) (s : Tables H) (i : ℕ)

def endTransaction : Tables H := { s with phoneLocks := s.phoneLocks.release i }

/-- The transaction is rolled back and the call is refused. -/
def refuse : Tables H × Point H := (s.endTransaction i, .ended)

/-- `sessionAccount`: the active account of a live session. -/
def sessionAccount (session : Option ℕ) : Option BuyerAccount :=
  ((session.bind s.sessions).bind site.shop.account).filter BuyerAccount.isActive

def findByRequestKey (requestKey : String) : Option (PlacedOrder H) :=
  s.orders.find? fun order => order.requestKey = requestKey

/-- The same fingerprint is answered with the order, another one is refused. -/
def replay [DecidableEq H] (order : CleanOrder) (accountId : Option ℕ) (requestHash : H) (existing : PlacedOrder H) : Tables H :=
  { s with replays := s.replays ++
      [⟨order.requestKey, order.toContent, accountId, existing, existing.requestHash = requestHash⟩] }

def isOpen (order : PlacedOrder H) : Bool := order.status ∈ OPEN_ORDER_STATUSES

/-- The open orders of a phone. -/
def openOrders (phoneKey : String) : ℕ :=
  s.orders.countP fun order => order.madeFrom.phoneKey = phoneKey && isOpen order

/-- The row of an order. -/
def orderRow (order : CleanOrder) (requestHash : H) (buyer : Option BuyerAccount) (cart : PricedCart)
    (discount shipping : ℕ) : PlacedOrder H where
  id := s.nextOrder
  requestKey := order.requestKey
  requestHash
  madeFrom := order.toContent
  cart
  documentId := s.nextDocument
  status := if order.paymentMethod = .on_account then .awaiting_approval else .awaiting_payment
  itemsAmount := money cart.itemsAmount
  discountAmount := money discount
  shippingAmount := money shipping
  payableAmount := money ((cart.itemsAmount - discount + shipping : ℤ) : ℚ)
  buyerAccountId := buyer.map BuyerAccount.id
  buyerGroupId := (buyer.bind site.shop.activeGroupOf).map BuyerGroup.id

/-- The proforma of an order. -/
def proforma (cart : PricedCart) (discount shipping : ℕ) : Proforma :=
  proformaOf s.nextDocument cart.lines (spreadDiscount (cart.lines.map PricedLine.lineAmount) discount) shipping

/-- The order and its proforma are inserted. -/
def insert (order : CleanOrder) (requestHash : H) (buyer : Option BuyerAccount) (cart : PricedCart)
    (discount shipping : ℕ) : Tables H :=
  let s := { s with
    orders := s.orders ++ [s.orderRow site order requestHash buyer cart discount shipping]
    documents := s.documents ++ [s.proforma cart discount shipping]
    nextOrder := s.nextOrder + 1
    nextDocument := s.nextDocument + 1 }
  { s with openAtCommit := s.openAtCommit ++ [s.openOrders order.phoneKey] }

/-- The statuses of some orders change. -/
def cancel (which : PlacedOrder H → Bool) : Tables H :=
  { s with orders := s.orders.map fun order => if which order then { order with status := .cancelled } else order }

end Tables

/-- `assertPaymentAllowed`. -/
def paymentAllowed (group : Option BuyerGroup) : PaymentMethod → Bool
  | .card => group.all BuyerGroup.allowCard
  | .on_account => group.any BuyerGroup.allowOnAccount

/-- The discount of the typed code, if there is one. -/
def Shop.discountOf (shop : Shop) (discountCode : Option String) (items : ℕ) (codeApplies : Bool) : Except PlaceError ℕ :=
  match discountCode with
  | none => .ok 0
  | some code => shop.chooseDiscount code items codeApplies

/-- The price of the order: its cart, its discount and its shipping. -/
def Shop.priceOrder (shop : Shop) (content : Content) (group : Option BuyerGroup) (codeApplies : Bool) :
    Except PlaceError (PricedCart × ℕ × ℕ) := do
  let cart ← shop.priceCart content.lines group
  let discount ← shop.discountOf content.discountCode cart.itemsAmount codeApplies
  let shipping ← shop.shippingAmount cart content.province content.shippingMethod (cart.itemsAmount - discount)
  return (cart, discount, shipping)

open Tables in
/-- The next statement of request `i`. -/
def statement [DecidableEq H] (site : Site H) (i : ℕ) (weather : Weather) (s : Tables H) : Point H → Option (Tables H × Point H)
  | .sent (.placeOrder order session) =>
      let accountId := (s.sessionAccount site session).map BuyerAccount.id
      some (s, .signedIn order session accountId (site.requestHashOf (order.toContent, accountId)))
  | .sent (.startSession session accountId) =>
      some ({ s with sessions := Function.update s.sessions session (some accountId) }, .ended)
  | .sent (.endSession session) => some ({ s with sessions := Function.update s.sessions session none }, .ended)
  | .sent (.cancelOrder orderId) => some (s.cancel fun order => order.id = orderId && isOpen order, .ended)
  | .sent (.expireDueOrdersOnce due) =>
      some (s.cancel fun order => order.id ∈ due && decide (order.status ∈ EXPIRING_ORDER_STATUSES), .ended)
  | .signedIn order session accountId requestHash =>
      match s.findByRequestKey order.requestKey with
      | some existing => some (s.replay order accountId requestHash existing, .ended)
      | none => some (s, .entering order session accountId requestHash)
  | .entering order session accountId requestHash =>
      let buyer := s.sessionAccount site session
      if paymentAllowed (buyer.bind site.shop.activeGroupOf) order.paymentMethod then
        some (s, .bought order accountId requestHash buyer)
      else some (s.refuse i)
  | .bought order accountId requestHash buyer =>
      (s.phoneLocks.take i (site.hashtext order.phoneKey)).map fun phoneLocks =>
        ({ s with phoneLocks }, .locked order accountId requestHash buyer)
  | .locked order accountId requestHash buyer =>
      if site.shop.openOrdersPerPhone ≤ s.openOrders order.phoneKey then some (s.refuse i)
      else some (s, .counted order accountId requestHash buyer)
  | .counted order accountId requestHash buyer =>
      match site.shop.priceOrder order.toContent (buyer.bind site.shop.activeGroupOf) weather.codeApplies with
      | .error _ => some (s.refuse i)
      | .ok (cart, discount, shipping) =>
          match s.findByRequestKey order.requestKey with
          | some _ => some (s.endTransaction i, .raced order accountId requestHash)
          | none => some ((s.insert site order requestHash buyer cart discount shipping).endTransaction i, .ended)
  | .raced order accountId requestHash =>
      match s.findByRequestKey order.requestKey with
      | some existing => some (s.replay order accountId requestHash existing, .ended)
      | none => some (s, .ended)
  | .ended => none

/-- Requests, each of which may be refused at any statement. -/
def requests [DecidableEq H] (site : Site H) : Program ℕ Weather (Tables H) (Point H) := fun i weather s point =>
  if weather.ok then statement site i weather s point else some (s.refuse i)

/-- No order yet. -/
def start (H : Type) (request : ℕ → Request) : Config ℕ (Tables H) (Point H) where
  shared :=
    { orders := []
      documents := []
      nextOrder := 1
      nextDocument := 1
      sessions := fun _ => none
      phoneLocks := fun _ => none
      replays := []
      openAtCommit := [] }
  locals := fun i => .sent (request i)

end PapitalErp.PlaceOrder
