import PapitalErp.Lib.Binary64
import PapitalErp.Lib.FilteredSums
import PapitalErp.Lib.Interleaving

/-!
# Orders of the site

Placing an order, the buyer's receipt, the actions of the orders screen and the expiry sweep.
Every action locks the order row first and reads it again; the rows it then reads and writes
(receipts, the proforma, the treasury, the discount's use) hang on that order.

A placement locks its phone, then the row of its discount code, and counts under them. The
price of a cart and its stock, the other conditions of a code, the permissions, the settings
and what the documents and treasury services refuse are the turn's choice: `ok`. `past` (the
earlier statuses of an order), `releases` (the updates that gave a use back) and `checking`
(the open placements that passed the first-order check) are for the statements about runs.
-/

namespace PapitalErp.SiteOrders

open Interleaving FilteredSums

/-! ## Statuses -/

inductive OrderStatus where
  | awaiting_payment
  | payment_submitted
  | paid
  | awaiting_approval
  | confirmed
  | shipped
  | delivered
  | cancelled
  deriving DecidableEq

/-- Orders whose proforma still holds stock. -/
def OPEN_ORDER_STATUSES : List OrderStatus := [.awaiting_payment, .payment_submitted, .awaiting_approval]

/-- Orders the expiry sweep cancels when their window ends. -/
def EXPIRING_ORDER_STATUSES : List OrderStatus := [.awaiting_payment, .awaiting_approval]

inductive PaymentMethod where
  | card
  | on_account
  deriving DecidableEq

inductive CancelReason where
  | expired
  | staff
  deriving DecidableEq

inductive ReceiptStatus where
  | pending
  | accepted
  | rejected
  deriving DecidableEq

inductive DocumentStatus where
  | draft
  | proforma
  | final
  deriving DecidableEq

def RECEIPTS_PER_ORDER_MAX : ℕ := 3

/-! ## Rows -/

structure SiteOrder where
  id : ℕ
  requestKey : String
  documentId : ℕ
  phoneKey : String
  buyerAccountId : Option ℕ
  discountCodeId : Option ℕ
  status : OrderStatus
  past : List OrderStatus
  cancelReason : Option CancelReason
  payableAmount : ℤ
  paymentMethod : PaymentMethod
  reserveUntil : ℤ
  paidAt : Option ℤ
  version : ℕ
  deriving DecidableEq

structure PaymentReceipt where
  id : ℕ
  orderId : ℕ
  amount : ℕ
  status : ReceiptStatus
  treasuryTransactionId : Option ℕ
  deriving DecidableEq

/-- The sales document of an order, an invoice in status `proforma` at first. -/
structure SalesDocument where
  id : ℕ
  status : DocumentStatus
  isDeleted : Bool

/-- `isReservingDocument` of a live sales document. -/
def SalesDocument.reserves (doc : SalesDocument) : Bool := !doc.isDeleted && doc.status == .proforma

structure TreasuryReceipt where
  id : ℕ
  documentId : ℕ
  amount : ℤ

/-- The limits of a discount code; zero is no limit. -/
structure DiscountCode where
  usageLimit : ℕ
  perBuyerLimit : ℕ
  firstOrderOnly : Bool

structure DiscountRedemption where
  codeId : ℕ
  orderId : ℕ
  phoneKey : String
  buyerAccountId : Option ℕ
  amount : ℕ
  releasedAt : Option ℤ
  releases : ℕ

inductive SiteLock where
  | order (id : ℕ)
  | phone (phoneKey : String)
  | code (id : ℕ)
  deriving DecidableEq

structure SiteTables where
  clock : ℤ
  orders : List SiteOrder
  receipts : List PaymentReceipt
  documents : List SalesDocument
  treasury : List TreasuryReceipt
  redemptions : List DiscountRedemption
  nextOrder : ℕ
  nextReceipt : ℕ
  nextDocument : ℕ
  nextTreasury : ℕ
  locks : Locks SiteLock ℕ
  checking : List (ℕ × Option ℕ)

/-! ## Requests -/

/-- A cart as the server priced it; `choice` is the code with its amount for this cart. -/
structure CleanOrder where
  requestKey : String
  phoneKey : String
  buyerAccountId : Option ℕ
  paymentMethod : PaymentMethod
  itemsAmount : ℕ
  shippingAmount : ℕ
  choice : Option (ℕ × ℕ)
  reservationHours : ℕ

inductive SiteRequest where
  | placeOrder (order : CleanOrder)
  | sendReceipt (orderId amount : ℕ)
  | confirmPayment (orderId receiptId version : ℕ)
  | approveOnAccount (orderId version : ℕ)
  | rejectReceipt (orderId receiptId version reservationHours : ℕ)
  | cancelOrder (orderId version : ℕ)
  | shipOrder (orderId version : ℕ)
  | deliverOrder (orderId version : ℕ)
  | expireDueOrdersOnce

/-- `rialAmountText` without zero: a positive amount of at most fourteen digits. -/
def rialAmount (amount : ℕ) : Option ℕ := if 0 < amount ∧ amount < 10 ^ 14 then some amount else none

/-- What a transaction will write, once it has read what it checks. -/
inductive OrderCommit where
  | submit (amount : ℕ)
  | pay (receiptId : ℕ)
  | approve
  | reject (receiptId : ℕ) (reserveUntil : ℤ)
  | cancel (reason : CancelReason)
  | ship
  | deliver
  deriving DecidableEq

/-- How far a process is; `now` is the start of its transaction and `due` are the orders a sweep
has not done yet. -/
inductive SiteProgress where
  | start
  | placing (now : ℤ)
  | pricing (now : ℤ)
  | choosing (now : ℤ)
  | counting (now : ℤ)
  | counted (now : ℤ)
  | chosen (now : ℤ)
  | opened (now : ℤ) (due : List ℕ)
  | locked (now : ℤ) (order : SiteOrder)
  | reviewed (order : SiteOrder) (receipt : PaymentReceipt)
  | ready (now : ℤ) (order : SiteOrder) (commit : OrderCommit) (due : List ℕ)
  | sweeping (due : List ℕ)
  | expiring (now : ℤ) (order : SiteOrder) (due : List ℕ)
  | done

inductive SiteTurn where
  | proceed (elapsed : ℕ) (ok : Bool)
  | die

/-! ## Writes -/

/-- `moveOrder`: the new status, the next version and what else is set. -/
def SiteOrder.move (status : OrderStatus) (order : SiteOrder) : SiteOrder :=
  { order with status := status, past := order.status :: order.past, version := order.version + 1 }

/-- What a transaction sets on the order. -/
def OrderCommit.order (now : ℤ) : OrderCommit → SiteOrder → SiteOrder
  | .submit _, order => order.move .payment_submitted
  | .pay _, order => { order.move .paid with paidAt := some now }
  | .approve, order => order.move .confirmed
  | .reject _ reserveUntil, order =>
      { order.move .awaiting_payment with reserveUntil := max order.reserveUntil reserveUntil }
  | .cancel reason, order => { order.move .cancelled with cancelReason := some reason }
  | .ship, order => order.move .shipped
  | .deliver, order => order.move .delivered

namespace SiteTables

def tick (t : SiteTables) (elapsed : ℕ) : SiteTables := { t with clock := t.clock + elapsed }

/-- The end of a transaction. -/
def release (t : SiteTables) (i : ℕ) : SiteTables :=
  { t with locks := t.locks.release i, checking := t.checking.filter fun entry => entry.1 ≠ i }

def updateOrder (t : SiteTables) (id : ℕ) (change : SiteOrder → SiteOrder) : SiteTables :=
  { t with orders := t.orders.map fun order => if order.id = id then change order else order }

def updateReceipts (t : SiteTables) (p : PaymentReceipt → Bool) (change : PaymentReceipt → PaymentReceipt) :
    SiteTables :=
  { t with receipts := t.receipts.map fun receipt => if p receipt then change receipt else receipt }

def insertReceipt (t : SiteTables) (orderId amount : ℕ) : SiteTables :=
  { t with
    receipts := t.receipts ++ [⟨t.nextReceipt, orderId, amount, .pending, none⟩]
    nextReceipt := t.nextReceipt + 1 }

/-- `createTreasuryTransaction` for the order's document: the amount goes through a number. -/
def insertTreasury (t : SiteTables) (documentId : ℕ) (payable : ℤ) : SiteTables :=
  { t with
    treasury := t.treasury ++ [⟨t.nextTreasury, documentId, Binary64.roundInt payable⟩]
    nextTreasury := t.nextTreasury + 1 }

def finalizeDocument (t : SiteTables) (id : ℕ) : SiteTables :=
  { t with documents := t.documents.map fun doc => if doc.id = id then { doc with status := .final } else doc }

def deleteDocument (t : SiteTables) (id : ℕ) : SiteTables :=
  { t with documents := t.documents.map fun doc => if doc.id = id then { doc with isDeleted := true } else doc }

/-- The use of a code goes back unless it already went back. -/
def releaseDiscount (t : SiteTables) (orderId : ℕ) : SiteTables :=
  { t with redemptions := t.redemptions.map fun use =>
      if use.orderId = orderId ∧ use.releasedAt = none then
        { use with releasedAt := some t.clock, releases := use.releases + 1 } else use }

/-- The commit of an order action. -/
def commit (t : SiteTables) (now : ℤ) (order : SiteOrder) (c : OrderCommit) : SiteTables :=
  let moved (t : SiteTables) := t.updateOrder order.id (c.order now)
  match c with
  | .submit amount => moved (t.insertReceipt order.id amount)
  | .pay receiptId =>
      moved (((t.insertTreasury order.documentId order.payableAmount).finalizeDocument
        order.documentId).updateReceipts (fun receipt => decide (receipt.id = receiptId)) fun receipt =>
          { receipt with status := .accepted, treasuryTransactionId := some t.nextTreasury })
  | .approve => moved (t.finalizeDocument order.documentId)
  | .reject receiptId _ =>
      moved (t.updateReceipts (fun receipt => decide (receipt.id = receiptId)) fun receipt =>
        { receipt with status := .rejected })
  | .cancel _ =>
      (moved ((t.deleteDocument order.documentId).updateReceipts
        (fun receipt => decide (receipt.orderId = order.id ∧ receipt.status = .pending)) fun receipt =>
          { receipt with status := .rejected })).releaseDiscount order.id
  | .ship | .deliver => moved t

/-- The order's live proforma. -/
def isLiveProforma (t : SiteTables) (documentId : ℕ) : Bool :=
  t.documents.any fun doc => doc.id == documentId && !doc.isDeleted && doc.status == .proforma

/-- A live document that is no proforma any more. -/
def isLiveFinal (t : SiteTables) (documentId : ℕ) : Bool :=
  t.documents.any fun doc => doc.id == documentId && !doc.isDeleted && doc.status != .proforma

/-- The order's receipt that waits for review. -/
def pendingReceipt (t : SiteTables) (orderId receiptId : ℕ) : Option PaymentReceipt :=
  (t.receipts.find? fun receipt => decide (receipt.id = receiptId ∧ receipt.orderId = orderId)).filter
    fun receipt => receipt.status == .pending

def receiptCount (t : SiteTables) (orderId : ℕ) : ℕ :=
  t.receipts.countP fun receipt => decide (receipt.orderId = orderId)

/-- A placed order with its proforma and the use of its discount code. -/
def place (t : SiteTables) (now : ℤ) (order : CleanOrder) : SiteTables :=
  let discountAmount := (order.choice.map Prod.snd).getD 0
  { t with
    documents := t.documents ++ [⟨t.nextDocument, .proforma, false⟩]
    nextDocument := t.nextDocument + 1
    orders := t.orders ++
      [{ id := t.nextOrder
         requestKey := order.requestKey
         documentId := t.nextDocument
         phoneKey := order.phoneKey
         buyerAccountId := order.buyerAccountId
         discountCodeId := order.choice.map Prod.fst
         status := if order.paymentMethod = .on_account then .awaiting_approval else .awaiting_payment
         past := []
         cancelReason := none
         payableAmount := order.itemsAmount - discountAmount + order.shippingAmount
         paymentMethod := order.paymentMethod
         reserveUntil := now + order.reservationHours * 3600000000
         paidAt := none
         version := 1 }]
    nextOrder := t.nextOrder + 1
    redemptions := t.redemptions ++
      (order.choice.map fun choice =>
        ⟨choice.1, t.nextOrder, order.phoneKey, order.buyerAccountId, choice.2, none, 0⟩).toList }

/-- An order that was not cancelled, of the phone or of the account. -/
def hasEarlierOrder (t : SiteTables) (phoneKey : String) (account : Option ℕ) : Bool :=
  t.orders.any fun order => order.status != .cancelled &&
    (order.phoneKey == phoneKey || account.isSome && order.buyerAccountId == account)

/-- The live uses of a code. -/
def usesOf (t : SiteTables) (codeId : ℕ) : ℕ :=
  t.redemptions.countP fun use => decide (use.codeId = codeId ∧ use.releasedAt = none)

/-- The live uses of a code by a buyer, the phone or the account. -/
def usesOfBuyer (t : SiteTables) (codeId : ℕ) (phoneKey : String) (account : Option ℕ) : ℕ :=
  t.redemptions.countP fun use => decide (use.codeId = codeId ∧ use.releasedAt = none) &&
    (use.phoneKey == phoneKey || account.isSome && use.buyerAccountId == account)

end SiteTables

/-! ## Statements -/

section Statements

variable (codes : ℕ → DiscountCode) (i : ℕ) (t : SiteTables)

/-- The end of a transaction; a sweep goes on with its next order. -/
def finish (due : List ℕ) (t : SiteTables) : SiteTables × SiteProgress :=
  (t.release i, if due = [] then .done else .sweeping due)

/-- `SELECT … FOR UPDATE` of an order: it waits for the row's lock and reads the row. -/
def lockOrder (id : ℕ) (found : SiteTables → SiteOrder → SiteTables × SiteProgress) (due : List ℕ) :
    Option (SiteTables × SiteProgress) :=
  (t.locks.take i (.order id)).map fun locks =>
    let t := { t with locks }
    match t.orders.find? fun order => decide (order.id = id) with
    | none => finish i due t
    | some order => found t order

/-- An action of the screen checks the version it was opened with and the status. -/
def lockedOrder (now : ℤ) (id version : ℕ) (statuses : List OrderStatus) :
    Option (SiteTables × SiteProgress) :=
  lockOrder i t id
    (fun t order => if order.version = version ∧ order.status ∈ statuses then (t, .locked now order)
      else finish i [] t) []

/-- What follows the lock of an order in each request. -/
def reviewOrder (now : ℤ) (order : SiteOrder) (request : SiteRequest) : SiteTables × SiteProgress :=
  match request with
  | .sendReceipt _ amount =>
      match rialAmount amount with
      | none => finish i [] t
      | some amount =>
          if now < order.reserveUntil ∧ t.receiptCount order.id < RECEIPTS_PER_ORDER_MAX then
            (t, .ready now order (.submit amount) [])
          else finish i [] t
  | .confirmPayment _ receiptId _ =>
      match t.pendingReceipt order.id receiptId with
      | none => finish i [] t
      | some receipt =>
          if (receipt.amount : ℤ) = order.payableAmount then (t, .reviewed order receipt) else finish i [] t
  | .approveOnAccount _ _ =>
      if order.paymentMethod = .on_account ∧ t.isLiveProforma order.documentId = true then
        (t, .ready now order .approve [])
      else finish i [] t
  | .rejectReceipt _ receiptId _ reservationHours =>
      match t.pendingReceipt order.id receiptId with
      | none => finish i [] t
      | some _ => (t, .ready now order (.reject receiptId (now + reservationHours * 3600000000)) [])
  | .cancelOrder _ _ =>
      if t.isLiveFinal order.documentId = true then finish i [] t
      else (t, .ready now order (.cancel .staff) [])
  | .shipOrder _ _ => (t, .ready now order .ship [])
  | .deliverOrder _ _ => (t, .ready now order .deliver [])
  | .placeOrder _ | .expireDueOrdersOnce => finish i [] t

/-- The ids a sweep finds due. -/
def dueOrders : List ℕ :=
  (t.orders.filter fun order =>
    decide (order.status ∈ EXPIRING_ORDER_STATUSES ∧ order.reserveUntil ≤ t.clock)).map SiteOrder.id

/-- The placement of an order: its phone's lock, its code's lock, the checks of the code one
after the other, and the commit. -/
def placeOrder (order : CleanOrder) (ok : Bool) (progress : SiteProgress) :
    Option (SiteTables × SiteProgress) :=
  match progress, order.choice with
  | .placing now, _ => (t.locks.take i (.phone order.phoneKey)).map fun locks => ({ t with locks }, .pricing now)
  | .pricing now, none => some (t, .chosen now)
  | .pricing now, some choice => (t.locks.take i (.code choice.1)).map fun locks => ({ t with locks }, .choosing now)
  | .choosing now, some choice =>
      if ok = false then some (finish i [] t)
      else if (codes choice.1).firstOrderOnly then
        if t.hasEarlierOrder order.phoneKey order.buyerAccountId then some (finish i [] t)
        else some ({ t with checking := (i, order.buyerAccountId) :: t.checking }, .counting now)
      else some (t, .counting now)
  | .counting now, some choice =>
      let limit := (codes choice.1).usageLimit
      if 0 < limit ∧ limit ≤ t.usesOf choice.1 then some (finish i [] t) else some (t, .counted now)
  | .counted now, some choice =>
      let limit := (codes choice.1).perBuyerLimit
      if 0 < limit ∧ limit ≤ t.usesOfBuyer choice.1 order.phoneKey order.buyerAccountId then some (finish i [] t)
      else some (t, .chosen now)
  | .chosen now, _ =>
      if ok = true ∧ ∀ o ∈ t.orders, o.requestKey ≠ order.requestKey then
        some (finish i [] (t.place now order))
      else some (finish i [] t)
  | _, _ => none

/-- The next statement of process `i`, after the time has passed. -/
def siteProceed (request : SiteRequest) (ok : Bool) (progress : SiteProgress) :
    Option (SiteTables × SiteProgress) :=
  match progress, request with
  | .start, .placeOrder order =>
      some (t, if ok = true ∧ ∀ o ∈ t.orders, o.requestKey ≠ order.requestKey then .placing t.clock else .done)
  | .start, .expireDueOrdersOnce => some (t, if ok then .sweeping (dueOrders t) else .done)
  | .start, _ => some (t, if ok then .opened t.clock [] else .done)
  | .opened now _, .sendReceipt id _ =>
      lockOrder i t id (fun t order =>
        if order.status = .awaiting_payment then (t, .locked now order) else finish i [] t) []
  | .opened now _, .confirmPayment id _ version | .opened now _, .rejectReceipt id _ version _
  | .opened now _, .cancelOrder id version => lockedOrder i t now id version OPEN_ORDER_STATUSES
  | .opened now _, .approveOnAccount id version => lockedOrder i t now id version [.awaiting_approval]
  | .opened now _, .shipOrder id version => lockedOrder i t now id version [.paid, .confirmed]
  | .opened now _, .deliverOrder id version => lockedOrder i t now id version [.shipped]
  | .opened now (id :: due), .expireDueOrdersOnce =>
      lockOrder i t id (fun t order =>
        if order.status ∈ EXPIRING_ORDER_STATUSES ∧ order.reserveUntil ≤ now then
          (t, .expiring now order due)
        else finish i due t) due
  | .locked now order, request => some (reviewOrder i t now order request)
  | .reviewed order receipt, _ =>
      if t.isLiveProforma order.documentId = true ∧ 0 < Binary64.roundInt order.payableAmount then
        some (t, .ready t.clock order (.pay receipt.id) [])
      else some (finish i [] t)
  | .ready now order commit due, _ =>
      if ok then some (finish i due (t.commit now order commit)) else some (finish i due t)
  | .sweeping due, _ => some (t, if due = [] then .done else .opened t.clock due)
  | .expiring now order due, _ =>
      if t.isLiveFinal order.documentId = true then some (finish i due t)
      else some (t, .ready now order (.cancel .expired) due)
  | progress, .placeOrder order => placeOrder codes i t order ok progress
  | _, _ => none

end Statements

def siteStatement (codes : ℕ → DiscountCode) (requests : ℕ → SiteRequest) :
    Program ℕ SiteTurn SiteTables SiteProgress :=
  fun i turn t progress =>
    match turn with
    | .die => some (t.release i, .done)
    | .proceed elapsed ok => siteProceed codes i (t.tick elapsed) (requests i) ok progress

/-- No order yet. -/
def SiteTables.initial (clock : ℤ) : SiteTables :=
  ⟨clock, [], [], [], [], [], 1, 1, 1, 1, fun _ => none, []⟩

end PapitalErp.SiteOrders
