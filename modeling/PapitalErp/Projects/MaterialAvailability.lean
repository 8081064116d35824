import PapitalErp.Projects.Reservation

/-!
# The states of material rows

`buildMaterialAvailabilityView` tells from the server's figures what the finalization would
reserve of each material: it makes the finalization's own plan from the list of items that
the browser has, whose stock may be out of date. `planReservationWithOthers` is what the
server does, from the items that it reads. The figures of an item, the reservations of
others and what was issued to the project, are functions of its id.
-/

namespace PapitalErp.MaterialAvailability

open ItemMatch Reservation

/-! ## The server -/

structure Figures where
  reservedByOthers : ℕ → ℚ
  issuedToProject : ℕ → ℚ

/-- What a completion passes besides: the project's own reservations and the aliases. -/
structure Reconcile where
  ownReserved : List (ℕ × ℚ)
  itemAliases : List MatchableItem

def Reconcile.own (r : Option Reconcile) (id : ℕ) : ℚ :=
  ((r.bind fun r => r.ownReserved.find? (·.1 = id)).map Prod.snd).getD 0

/-- The items of a draft, whose figures are read. -/
def plannedIds (draft : ProjectReservationPlan) (reconcile : Option Reconcile) : List ℕ :=
  ((draft.reserved.map ProjectReservedItem.itemId ++ draft.shortages.map ReservationShortage.itemId) ++
    ((reconcile.map Reconcile.ownReserved).getD []).map Prod.fst).filter (0 < ·)

/-- `planReservationWithOthers`; a row whose unit does not convert refuses the whole plan. -/
def planReservationWithOthers (js : Script) (m : Materials) (stockItems : List ItemMatch.StockItem)
    (reservedAt : String) (figures : Figures) (reconcile : Option Reconcile) :
    Except (List ReservationUnitMismatch) ProjectReservationPlan :=
  let aliases := (reconcile.map Reconcile.itemAliases).getD []
  let draft := planProjectReservation js m stockItems reservedAt
    { ReservationOptions.empty with itemAliases := aliases }
  let itemIds := plannedIds draft reconcile
  if draft.unitMismatches ≠ [] then .error draft.unitMismatches
  else if itemIds = [] then .ok draft
  else .ok (planProjectReservation js m stockItems reservedAt {
    reservedByOthers := fun id => if id ∈ itemIds then figures.reservedByOthers id else 0
    issuedToProject := fun id => if id ∈ itemIds then figures.issuedToProject id else 0
    ownReserved := Reconcile.own reconcile
    itemAliases := aliases })

structure MaterialAvailabilityItem where
  itemId : ℕ
  stock : ℚ
  reservedByOthers : ℚ
  issuedToProject : ℚ
  freeForProject : ℚ

/-- `MATERIAL_AVAILABILITY_MAX_ITEMS`. -/
def maxItems : ℕ := 500

def freeForProject (stock reservedByOthers : ℚ) : ℚ := max 0 (stock - max 0 reservedByOthers)

/-- The ids of one request, in order. -/
def boundedIds (ids : List ℕ) : List ℕ :=
  ((ids.dedup.filter (0 < ·)).insertionSort (· ≤ ·)).take maxItems

/-- `projectMaterialAvailability`, the answer's items. -/
def projectMaterialAvailability (catalog : Catalog) (figures : Figures) (ids : List ℕ) :
    List MaterialAvailabilityItem :=
  (catalog.items.filter fun i => i.id ∈ boundedIds ids).map fun i => {
    itemId := i.id
    stock := i.currentStock
    reservedByOthers := figures.reservedByOthers i.id
    issuedToProject := figures.issuedToProject i.id
    freeForProject := freeForProject i.currentStock (figures.reservedByOthers i.id) }

/-! ## The browser -/

structure MaterialRowInput where
  itemCode : Option (JsonValue ℚ)
  name : Option (JsonValue ℚ)
  unit : Option (JsonValue ℚ)
  conversionRate : Option (JsonValue ℚ)
  convertedUnit : Option (JsonValue ℚ)

inductive MaterialRowState
  | unknown
  | unmatched
  | unitMismatch (itemId : ℕ) (free issued : ℚ) (unit : String)
  | available (itemId : ℕ) (free issued : ℚ) (unit : String)
  | short (itemId : ℕ) (free issued shortQty : ℚ) (unit : String)

section

variable (js : Script)

/-- The references of `materialRowsOf`: every product's rows, the schema, the global rows and
the manual rows. -/
def materialRefs (m : Materials) : List ProjectMaterialRef :=
  let ref (r : Row) (name : Option (JsonValue ℚ)) : ProjectMaterialRef :=
    ⟨none, text js (r.get "itemCode"), text js name⟩
  let inSection (sec : Row) :=
    (((asRow (sec.get "perItemResults")).getD []).flatMap fun prod =>
      (((asRow (some prod.2)).getD []).filterMap fun r => asRow (some r.2)).map fun r =>
        ref r (r.get "name")) ++
      ((asRows (sec.get "itemsSchema")).map fun s => ref s (s.get "name")) ++
        (asRows (sec.get "globalItems")).map fun g => ref g (g.get "name")
  (asRows m.sections).flatMap inSection ++
    (asRows m.manualPurchaseItems).map fun r => ref r (r.get "itemName")

def itemMatch (ref : ProjectMaterialRef) (items : List ItemMatch.StockItem) : Option ItemMatch.StockItem :=
  findProjectItemMatch js.toCasing ItemMatch.StockItem.toMatchableItem ref items

/-- `projectMaterialItemIds`. -/
def projectMaterialItemIds (m : Materials) (stockItems : List ItemMatch.StockItem) : List ℕ :=
  boundedIds (((materialRefs js m).filterMap fun ref => itemMatch js ref stockItems).map fun i => i.id)

/-- What the view is built from; `report` is there when the figures are ready. -/
structure ViewInput where
  materials : Materials
  stockItems : List ItemMatch.StockItem
  report : Option (List MaterialAvailabilityItem)

/-- `byId`: the last of an id. -/
def figuresOf (report : List MaterialAvailabilityItem) (id : ℕ) : Option MaterialAvailabilityItem :=
  report.reverse.find? (·.itemId = id)

/-- The items of the plan: the stock of the figures before the browser's own. -/
def planItems (report : List MaterialAvailabilityItem) (stockItems : List ItemMatch.StockItem) : List ItemMatch.StockItem :=
  stockItems.map fun i =>
    { i with currentStock := ((figuresOf report i.id).map MaterialAvailabilityItem.stock).getD i.currentStock }

/-- The view's plan of the finalization. -/
def viewPlan (m : Materials) (stockItems : List ItemMatch.StockItem) (report : List MaterialAvailabilityItem) :
    ProjectReservationPlan :=
  planProjectReservation js m (planItems report stockItems) "" {
    reservedByOthers := fun id =>
      ((figuresOf report id).map MaterialAvailabilityItem.reservedByOthers).getD 0
    issuedToProject := fun id =>
      ((figuresOf report id).map MaterialAvailabilityItem.issuedToProject).getD 0
    ownReserved := fun _ => 0
    itemAliases := [] }

/-- `shortages.get(itemId)`, of a map that keeps the last one. -/
def shortageFor (shortages : List ReservationShortage) (id : ℕ) : Option ReservationShortage :=
  shortages.reverse.find? (·.itemId = id)

/-- `rowUnitConvertible`. -/
def rowUnitConvertible (row : MaterialRowInput) (itemUnit : String) : Bool :=
  (needInItemUnit js {
    code := ""
    name := ""
    qty := 1
    unit := orText (text js row.unit) defaultUnit
    category := none
    conversionRate := row.conversionRate
    convertedUnit := row.convertedUnit
    sectionTitle := none } (unitKey js itemUnit)).isSome

def rowState (v : ViewInput) (row : MaterialRowInput) : MaterialRowState :=
  match itemMatch js ⟨none, text js row.itemCode, text js row.name⟩ v.stockItems with
  | none => .unmatched
  | some item =>
    match v.report, v.report.bind fun report => figuresOf report item.id with
    | some report, some figures =>
      let unit := orText (jsTrim item.unit) defaultUnit
      let free := freeForProject figures.stock figures.reservedByOthers
      let issued := max 0 figures.issuedToProject
      if ¬rowUnitConvertible js row item.unit then .unitMismatch item.id free issued unit
      else
        match shortageFor (viewPlan js v.materials v.stockItems report).shortages item.id with
        | some short => .short item.id free issued short.shortQty unit
        | none => .available item.id free issued unit
    | _, _ => .unknown

/-- `isItemShort`; none where there are no figures. -/
def isItemShort (v : ViewInput) (itemId : ℕ) : Option Bool :=
  match v.report with
  | some report =>
    if (figuresOf report itemId).isSome then
      some (shortageFor (viewPlan js v.materials v.stockItems report).shortages itemId).isSome
    else none
  | none => none

end

end PapitalErp.MaterialAvailability
