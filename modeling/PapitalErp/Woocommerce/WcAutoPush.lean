import Mathlib.Data.Finset.Image
import PapitalErp.Lib.Transition

/-!
# The automatic push of stock to the shop

A run takes the marks, reads the links, picks what is due, reads the shop's open orders, sends the
stock that differs and records the outcomes; before each of these stock may move, an order webhook may
come, an item may be deleted, and the step may fail. Manual pushes, catalog refreshes and runs hold
`WOOCOMMERCE_SYNC` one at a time. The back-off only decides when a run starts, which is free here, and
the rows of runs and audits are left out.

The sellable stock of an item is what `siteStockQuantity` makes of it. What the open orders hold of it,
the shop's answers, and what a refresh reads and matches are the environment's choice.
-/

namespace PapitalErp.WcAutoPush

open Transition

def WC_AUTO_MAX_LINK_FAILURES : ℕ := 5
def WC_AUTO_PUSH_MAX_PRODUCTS : ℕ := 500
def WC_AUTO_FULL_PASS_MS : ℕ := 60 * 60000
def MAX_DUE_KEYS : ℕ := 5000
def WC_BATCH_SIZE : ℕ := 100

/-- What the marks look at of a link. -/
structure LinkKey where
  id : ℕ
  wcProductId : ℕ
  wcVariationId : ℕ
  deriving DecidableEq

/-- A row of `wc_product_links`. -/
structure Link extends LinkKey where
  itemId : ℕ
  siteStock : Option ℕ
  siteManageStock : ℕ
  failureCount : ℕ
  isDeleted : Bool
  deriving DecidableEq

/-! ## Marks -/

structure DueMarks where
  orderKeys : Finset (ℕ × ℕ)
  linkIds : Finset ℕ
  everyLink : Bool
  deriving DecidableEq

namespace DueMarks

def none : DueMarks := ⟨∅, ∅, false⟩

/-- The products of the marked order lines. -/
def productIds (marks : DueMarks) : Finset ℕ := marks.orderKeys.image Prod.fst

def markLinksDue (marks : DueMarks) (linkIds : List ℕ) : DueMarks :=
  { marks with linkIds := marks.linkIds ∪ linkIds.toFinset }

/-- `restoreDueMarks`: the marks of a run that failed come back. -/
def restore (marks taken : DueMarks) : DueMarks :=
  ⟨marks.orderKeys ∪ taken.orderKeys, marks.linkIds ∪ taken.linkIds, marks.everyLink || taken.everyLink⟩

def isMarkedDue (marks : DueMarks) (link : LinkKey) : Bool :=
  marks.everyLink || link.id ∈ marks.linkIds || (link.wcProductId, link.wcVariationId) ∈ marks.orderKeys ||
    (link.wcVariationId = 0 && link.wcProductId ∈ marks.productIds)

end DueMarks

/-- A line of an order, with its ids as far as they are whole numbers. -/
structure OrderLine where
  productId : Option ℤ
  variationId : Option ℤ

/-- The key of a line, if it names a product. -/
def OrderLine.key (line : OrderLine) : Option (ℕ × ℕ) :=
  line.productId.bind fun productId =>
    if productId ≤ 0 then none
    else some (productId.toNat, (line.variationId.map Int.toNat).getD 0)

/-- Past so many keys every link is due. -/
def DueMarks.markOrderLinesDue (marks : DueMarks) : Option (List OrderLine) → DueMarks
  | .none => marks
  | some lines =>
      let orderKeys := marks.orderKeys ∪ (lines.filterMap OrderLine.key).toFinset
      if MAX_DUE_KEYS < orderKeys.card then { marks with orderKeys := ∅, everyLink := true }
      else { marks with orderKeys }

/-! ## Requests to the shop -/

structure AnswerRow where
  id : ℕ
  /-- an error, with its message -/
  error : Option (Option String)
  deriving DecidableEq

/-- A validation error has a message and may have a status. -/
abbrev RequestError := Option (String × Option ℤ)

inductive BatchAnswer where
  | rows (rows : List AnswerRow)
  | failed (err : RequestError)
  deriving DecidableEq

/-- What a batch meets: the deadline has passed before it, or the shop answers. -/
structure BatchWeather where
  aborted : Bool
  answer : BatchAnswer

structure Wanted where
  link : Link
  quantity : ℕ
  deriving DecidableEq

structure Outcome where
  link : Link
  quantity : ℕ
  error : String
  requestFailed : Bool
  deriving DecidableEq

def SHOP_LEVEL_STATUSES : List ℤ := [401, 403, 408, 429]

def isShopLevelFailure : RequestError → Bool
  | some (_, some status) => status < 400 || 500 ≤ status || status ∈ SHOP_LEVEL_STATUSES
  | _ => true

def PUSH_DEADLINE_MESSAGE : String :=
  "ارسال موجودی در مهلت تعیین‌شده تمام نشد و این محصول فرستاده نشد؛ کمی بعد دوباره بزنید."

/-- A message as it is stored. -/
def slice300 (message : String) : String := String.ofList (message.toList.take 300)

/-- The product id of a simple product, the variation id of a variation. -/
def Link.siteId (link : Link) : ℕ := if link.wcVariationId = 0 then link.wcProductId else link.wcVariationId

/-- The outcome of a product whose batch was answered; the last row of an id counts. -/
def answered (rows : List AnswerRow) (wanted : Wanted) : Outcome :=
  match rows.reverse.find? fun row => row.id = wanted.link.siteId with
  | none => ⟨wanted.link, wanted.quantity, "سایت پاسخی برای این محصول نداد.", false⟩
  | some row =>
      ⟨wanted.link, wanted.quantity,
        (row.error.map fun message => slice300 (message.getD "خطای سایت")).getD "", false⟩

def pushBatch (weather : BatchWeather) (rows : List Wanted) : List Outcome :=
  if weather.aborted then rows.map fun wanted => ⟨wanted.link, wanted.quantity, PUSH_DEADLINE_MESSAGE, true⟩
  else
    match weather.answer with
    | .rows answers => rows.map (answered answers)
    | .failed err =>
        rows.map fun wanted =>
          ⟨wanted.link, wanted.quantity, slice300 ((err.map Prod.fst).getD "ارتباط با سایت ناموفق بود."),
            isShopLevelFailure err⟩

def chunked {α : Type} (rows : List α) : List (List α) :=
  (List.range ((rows.length + WC_BATCH_SIZE - 1) / WC_BATCH_SIZE)).map fun n =>
    (rows.drop (n * WC_BATCH_SIZE)).take WC_BATCH_SIZE

/-- The batches: simple products, then the variations of each product. -/
def batches (wanted : List Wanted) : List (List Wanted) :=
  let simple := wanted.filter fun row => row.link.wcVariationId = 0
  let variations := wanted.filter fun row => 0 < row.link.wcVariationId
  let parents := (variations.map fun row => row.link.wcProductId).eraseDups
  chunked simple ++ parents.flatMap fun parent =>
    chunked (variations.filter fun row => row.link.wcProductId = parent)

def sendStocks (weather : ℕ → BatchWeather) (wanted : List Wanted) : List Outcome :=
  (batches wanted).zipIdx.flatMap fun (rows, n) => pushBatch (weather n) rows

/-- What `recordOutcomes` writes to the link of an outcome. -/
def Outcome.record (auto : Bool) (outcome : Outcome) (link : Link) : Link :=
  if outcome.error ≠ "" then
    { link with failureCount :=
        if auto ∧ outcome.requestFailed then outcome.link.failureCount else outcome.link.failureCount + 1 }
  else { link with siteStock := some outcome.quantity, siteManageStock := 1, failureCount := 0 }

def recordOutcomes (auto : Bool) (outcomes : List Outcome) (links : List Link) : List Link :=
  links.map fun link =>
    match outcomes.find? fun outcome => outcome.link.id = link.id with
    | none => link
    | some outcome => outcome.record auto link

/-! ## The server -/

/-- The stocks with which a link was last in line. -/
structure Settled where
  sellable : ℕ
  siteStock : Option ℕ

/-- A link to send, with the sellable stock its quantity was made from. -/
structure Row extends Wanted where
  sellable : ℕ
  deriving DecidableEq

/-- How far the run with the lock is. -/
inductive Run where
  | idle
  | started (marks : DueMarks) (now : ℕ)
  | read (marks : DueMarks) (now : ℕ) (all : List Link)
  | picked (marks : DueMarks) (now : ℕ) (fullPass : Bool) (due : List Link)
  | sending (marks : DueMarks) (toSend : List Row)
  | recording (marks : DueMarks) (toSend : List Row) (outcomes : List Outcome)
  deriving DecidableEq

/-- The database and the memory of the server process, and what is said of them: the links that a run
found to differ and did not record as pushed since, those of them that it left without a mark, the marks
of the runs that failed since the last one that did not, and the links that a run had to compare and did
not pick. -/
structure Server where
  links : List Link
  nextLink : ℕ
  deletedItems : Finset ℕ
  sellable : ℕ → ℕ
  settled : ℕ → Option Settled
  lastFullPassAt : ℕ
  marks : DueMarks
  run : Run
  owed : Finset LinkKey
  unmarked : Finset LinkKey
  failed : List DueMarks
  forgotten : Finset LinkKey

/-- What a step of a run meets. -/
structure Weather where
  fails : Bool
  /-- what the open orders hold of an item -/
  held : ℕ → ℕ
  batch : ℕ → BatchWeather
  maxProducts : ℕ

/-- What a refresh does to a link that it does not leave as it is. -/
inductive Reading where
  | leftAsIs
  | kept (siteStock : Option ℕ) (siteManageStock : ℕ)
  | closed

/-- A product of the shop that gets a new link. -/
structure Fresh where
  itemId : ℕ
  wcProductId : ℕ
  wcVariationId : ℕ
  siteStock : Option ℕ
  siteManageStock : ℕ

inductive Step where
  | moveStock (itemId sellable : ℕ)
  | setItemDeleted (itemId : ℕ) (deleted : Bool)
  | orderWebhook (lines : Option (List OrderLine))
  | refreshCatalog (reading : Link → Reading) (fresh : List Fresh)
  | pushStocks (itemIds : Option (List ℕ)) (onlyChanged : Bool) (weather : Weather)
  /-- `runAutoPushOnce` gets the lock -/
  | begin (now : ℕ)
  /-- the run goes on -/
  | advance (weather : Weather)

inductive Refusal where
  | WC_SYNC_BUSY | notRunning

namespace Server

variable (s : Server)

def liveLinks : List Link := s.links.filter fun link => !link.isDeleted && link.itemId ∉ s.deletedItems

/-- `siteStocks`. -/
def wanted (held : ℕ → ℕ) (itemId : ℕ) : ℕ := s.sellable itemId - held itemId

def isDue (link : Link) : Bool :=
  match s.settled link.id with
  | some last =>
      if last.siteStock = link.siteStock then s.sellable link.itemId ≠ last.sellable
      else some (s.sellable link.itemId) ≠ link.siteStock
  | none => some (s.sellable link.itemId) ≠ link.siteStock

/-- The links that a run may send. -/
def tracked (all : List Link) : List Link :=
  all.filter fun link => link.siteManageStock = 1 && link.failureCount < WC_AUTO_MAX_LINK_FAILURES

def fullPass (now : ℕ) : Bool := s.lastFullPassAt + WC_AUTO_FULL_PASS_MS ≤ now

def due (marks : DueMarks) (now : ℕ) (all : List Link) : List Link :=
  (tracked all).filter fun link => s.fullPass now || marks.isMarkedDue link.toLinkKey || s.isDue link

/-- The run takes the marks. -/
def takeDueMarks (now : ℕ) : Server := { s with marks := .none, run := .started s.marks now }

/-- The run ends without a failure. -/
def finish : Server := { s with run := .idle, failed := [] }

/-- The run fails: its marks come back. -/
def fail (taken : DueMarks) : Server :=
  { s with
    marks := s.marks.restore taken
    run := .idle
    failed := taken :: s.failed }

/-- The tracked links that the run has to compare. -/
def mustCompare (all : List Link) : List LinkKey :=
  ((tracked all).filter fun link =>
    link.toLinkKey ∈ s.owed || s.failed.any (·.isMarkedDue link.toLinkKey)).map Link.toLinkKey

/-- The links that are due are picked. -/
def pick (marks : DueMarks) (now : ℕ) (all : List Link) : Server :=
  let due := s.due marks now all
  let picked := (due.map Link.toLinkKey).toFinset
  let trackedKeys := ((tracked all).map Link.toLinkKey).toFinset
  let s := { s with
    owed := s.owed ∩ trackedKeys
    unmarked := s.unmarked ∩ trackedKeys
    forgotten := s.forgotten ∪ ((s.mustCompare all).toFinset \ picked) }
  if due = [] then s.finish else { s with run := .picked marks now (s.fullPass now) due }

/-- The due links against the stock that the shop should show. -/
def compare (marks : DueMarks) (now : ℕ) (fullPass : Bool) (due : List Link) (weather : Weather) : Server :=
  let rows : List Row := due.map fun link =>
    ⟨⟨link, s.wanted weather.held link.itemId⟩, s.sellable link.itemId⟩
  let right := rows.filter fun row : Row => some row.quantity = row.link.siteStock
  let differing := rows.filter fun row : Row => some row.quantity ≠ row.link.siteStock
  let toSend := differing.take weather.maxProducts
  let compared := (due.map Link.toLinkKey).toFinset
  let s := { s with
    lastFullPassAt := if fullPass then now else s.lastFullPassAt
    settled := right.foldl
      (fun (settled : ℕ → Option Settled) (row : Row) => Function.update settled row.link.id (some ⟨row.sellable, row.link.siteStock⟩)) s.settled
    marks := s.marks.markLinksDue ((differing.drop weather.maxProducts).map fun row : Row => row.link.id)
    owed := (s.owed \ compared) ∪ (differing.map fun row : Row => row.link.toLinkKey).toFinset
    unmarked := s.unmarked \ compared }
  if toSend = [] then s.finish else { s with run := .sending marks toSend }

/-- The transaction of `recordOutcomes`, and what the run then notes in memory. -/
def record (toSend : List Row) (outcomes : List Outcome) : Server :=
  let pushed := outcomes.filter fun outcome => outcome.error = ""
  let sellableOf := fun id => ((toSend.reverse.find? fun row => row.link.id = id).map Row.sellable).getD 0
  let unreached := outcomes.filter fun outcome => outcome.error ≠ "" && outcome.requestFailed
  let refused := outcomes.filter fun outcome => outcome.error ≠ "" && !outcome.requestFailed
  { s with
    links := recordOutcomes true outcomes s.links
    settled := pushed.foldl (fun (settled : ℕ → Option Settled) outcome => Function.update settled outcome.link.id
      (some ⟨sellableOf outcome.link.id, some outcome.quantity⟩)) s.settled
    marks := s.marks.markLinksDue (unreached.map fun outcome => outcome.link.id)
    owed := s.owed \ (pushed.map fun outcome => outcome.link.toLinkKey).toFinset
    unmarked := s.unmarked ∪ (refused.map fun outcome => outcome.link.toLinkKey).toFinset }

/-- The recording fails. What was sent has no mark, but for the marks that the run took. -/
def loseOutcomes (marks : DueMarks) (toSend : List Row) : Server :=
  { s.fail marks with
    unmarked := s.unmarked ∪
      ((toSend.map fun row => row.link.toLinkKey).filter fun key => !marks.isMarkedDue key).toFinset }

/-- The next step of the run. -/
def advance (weather : Weather) : Except Refusal Server :=
  match s.run with
  | .idle => .error .notRunning
  | .started marks now =>
      if weather.fails then .ok (s.fail marks) else .ok { s with run := .read marks now s.liveLinks }
  | .read marks now all =>
      if weather.fails && tracked all ≠ [] then .ok (s.fail marks) else .ok (s.pick marks now all)
  | .picked marks now fullPass due =>
      if weather.fails then .ok (s.fail marks) else .ok (s.compare marks now fullPass due weather)
  | .sending marks toSend =>
      .ok { s with run := .recording marks toSend (sendStocks weather.batch (toSend.map Row.toWanted)) }
  | .recording marks toSend outcomes =>
      if weather.fails then .ok (s.loseOutcomes marks toSend) else .ok (s.record toSend outcomes).finish

/-- The manual push, for all items or some. -/
def pushStocks (itemIds : Option (List ℕ)) (onlyChanged : Bool) (weather : Weather) : Server :=
  let links := s.liveLinks.filter fun link => itemIds.all fun ids => link.itemId ∈ ids
  let rows : List Wanted := links.map fun link => ⟨link, s.wanted weather.held link.itemId⟩
  let toSend := rows.filter fun row => !(onlyChanged && row.link.siteManageStock = 1 &&
    row.link.siteStock = some row.quantity)
  if weather.fails then s
  else { s with links := recordOutcomes false (sendStocks weather.batch toSend) s.links }

/-- The links that a refresh read are brought up to date, and new products get new links. -/
def refreshCatalog (reading : Link → Reading) (fresh : List Fresh) : Server :=
  let kept := s.links.map fun link =>
    if link.isDeleted then link
    else
      match reading link with
      | .leftAsIs => link
      | .kept siteStock siteManageStock => { link with siteStock, siteManageStock }
      | .closed => { link with isDeleted := true }
  let made := fresh.zipIdx.map fun (row, n) =>
    (⟨⟨s.nextLink + n, row.wcProductId, row.wcVariationId⟩, row.itemId, row.siteStock, row.siteManageStock, 0,
      false⟩ : Link)
  { s with
    links := kept ++ made
    nextLink := s.nextLink + fresh.length }

end Server

def step (s : Server) : Step → Except Refusal Server
  | .moveStock itemId sellable => .ok { s with sellable := Function.update s.sellable itemId sellable }
  | .setItemDeleted itemId deleted =>
      .ok { s with deletedItems := if deleted then insert itemId s.deletedItems else s.deletedItems.erase itemId }
  | .orderWebhook lines => .ok { s with marks := s.marks.markOrderLinesDue lines }
  | .refreshCatalog reading fresh =>
      if s.run = .idle then .ok (s.refreshCatalog reading fresh) else .error .WC_SYNC_BUSY
  | .pushStocks itemIds onlyChanged weather =>
      if s.run = .idle then .ok (s.pushStocks itemIds onlyChanged weather) else .error .WC_SYNC_BUSY
  | .begin now => if s.run = .idle then .ok (s.takeDueMarks now) else .error .WC_SYNC_BUSY
  | .advance weather => s.advance weather

/-- The server after a start: nothing is remembered. -/
def start (links : List Link) (nextLink : ℕ) (deletedItems : Finset ℕ) (sellable : ℕ → ℕ) : Server where
  links
  nextLink
  deletedItems
  sellable
  settled := fun _ => none
  lastFullPassAt := 0
  marks := .none
  run := .idle
  owed := ∅
  unmarked := ∅
  failed := []
  forgotten := ∅

end PapitalErp.WcAutoPush
