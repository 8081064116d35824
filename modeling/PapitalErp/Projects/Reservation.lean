import PapitalErp.FinancialDecimal
import PapitalErp.Lib.Json
import PapitalErp.Projects.ItemMatch

/-!
# A project's reservation

`planProjectReservation`: the needs of a project's materials by warehouse item, in the unit
of the item, and what of each is reserved and what is short. The sections, the products and
the manual rows are stored JSON; members of an object come in its order.

JavaScript's `Number` of a JSON value and its text of a number are parameters, where a value
that is not a finite number is none.
-/

namespace PapitalErp.Reservation

open ItemMatch

/-- What JavaScript makes of letter case and of numbers. -/
structure Script extends Casing where
  number : JsonValue ℚ → Option ℚ
  numberText : ℚ → String

/-- An object's members. -/
abbrev Row := List (String × JsonValue ℚ)

def Row.get (r : Row) (key : String) : Option (JsonValue ℚ) := JsonValue.member key r

def asRow : Option (JsonValue ℚ) → Option Row
  | some (.obj members) => some members
  | _ => none

def asRows : Option (JsonValue ℚ) → List Row
  | some (.arr items) => items.filterMap fun v => asRow (some v)
  | _ => []

/-- The unit of a row without one. -/
def defaultUnit : String := "عدد"

section

variable (js : Script)

/-- `text`. -/
def text : Option (JsonValue ℚ) → String
  | some (.str s) => jsTrim s
  | some (.num n) => js.numberText n
  | _ => ""

def optText (v : Option (JsonValue ℚ)) : Option String :=
  if text js v = "" then none else some (text js v)

/-- `text` of the sections, which does not trim. -/
def plainText : Option (JsonValue ℚ) → String
  | some (.str s) => s
  | some (.num n) => js.numberText n
  | _ => ""

/-- `unitKey` of a text. -/
def unitKey (unit : String) : String := js.toLowerCase (jsTrim unit)

/-- The first text that is not empty. -/
def orText (a b : String) : String := if a = "" then b else a

/-! ## The rows of needs -/

/-- A row of needs before it is matched to an item; `sectionTitle` is its `section`. -/
structure NeedRow where
  code : String
  name : String
  qty : ℚ
  unit : String
  category : Option String
  conversionRate : Option (JsonValue ℚ)
  convertedUnit : Option (JsonValue ℚ)
  sectionTitle : Option String

def productOrderQuantity (product : Row) : ℚ :=
  match (product.get "quantity").bind js.number with
  | some q => if 0 < q then q else 1
  | none => 1

/-- The stored total of a row; one where there is none. -/
def storedTotal (row : Row) : Option ℚ :=
  match row.get "requiredQty" with
  | none => some 1
  | some v => js.number v

def perItemRowRequiredQty (row : Row) (orderQty : ℚ) : Option ℚ :=
  match row.get "qtyPerUnit" with
  | some (.num q) => if 0 ≤ q then some (FinancialDecimal.round (q * orderQty)) else storedTotal js row
  | _ => storedTotal js row

def perItemProductKey (product : Row) (idx : ℕ) : String :=
  orText (plainText js (product.get "id"))
    ("prod_" ++ orText (plainText js (product.get "item_id")) (toString idx))

/-- `Number(v || 0)`. -/
def numberOrZero (v : Option (JsonValue ℚ)) : Option ℚ :=
  match v with
  | none => some 0
  | some v => js.number v

/-- `push`: rows that name nothing or need nothing are left out. -/
def pushRow (r : Row) (qty : Option ℚ) (name : Option (JsonValue ℚ)) (category title : Option String) :
    List NeedRow :=
  let code := text js (r.get "itemCode")
  let nm := text js name
  match qty with
  | some q =>
    if (code = "" ∧ nm = "") ∨ ¬0 < q then []
    else [{
      code := code
      name := nm
      qty := q
      unit := orText (text js (r.get "unit")) defaultUnit
      category := category
      conversionRate := r.get "conversionRate"
      convertedUnit := r.get "convertedUnit"
      sectionTitle := title }]
  | none => []

/-- The rows of one product in a section that is checked item by item. -/
def productRows (sec perItemResults : Row) (prod : Row) (idx : ℕ) : List NeedRow :=
  let title := optText js (sec.get "title")
  let prodRes := (asRow (perItemResults.get (perItemProductKey js prod idx))).getD []
  let orderQty := productOrderQuantity js prod
  let results := prodRes.filterMap fun m => asRow (some m.2)
  let fromSchema := (asRows (sec.get "itemsSchema")).map fun s =>
    (["itemCode", "name", "unit"].filterMap fun key => (s.get key).map fun v => (key, v)) ++
      [("requiredQty", .num 1)]
  let list := if results = [] then fromSchema else results
  list.flatMap fun r =>
    pushRow js r (perItemRowRequiredQty js r orderQty) (r.get "name")
      ((optText js (r.get "category")).or title) title

def globalRows (sec : Row) : List NeedRow :=
  let title := optText js (sec.get "title")
  (asRows (sec.get "globalItems")).flatMap fun g =>
    pushRow js g (numberOrZero js (g.get "requiredQty")) (g.get "name")
      ((optText js (g.get "category")).or title) title

def isText (v : Option (JsonValue ℚ)) (s : String) : Bool :=
  match v with
  | some (.str t) => t = s
  | _ => false

def isZero (v : Option (JsonValue ℚ)) : Bool :=
  match v with
  | some (.num n) => n = 0
  | _ => false

def sectionRows (products : Option (JsonValue ℚ)) (sec : Row) : List NeedRow :=
  match isText (sec.get "checkType") "per_item", asRow (sec.get "perItemResults") with
  | true, some perItemResults =>
    ((asRows products).zipIdx.flatMap fun p => productRows js sec perItemResults p.1 p.2)
  | _, _ => if isText (sec.get "checkType") "global" then globalRows js sec else []

def manualTitle : String := "اقلام دستی"

def manualRows (m : Row) : List NeedRow :=
  if isText (m.get "procurementStatus") "reserved" || isZero (m.get "toPurchaseQty") then
    pushRow js m (numberOrZero js (m.get "totalRequiredQty")) (m.get "itemName")
      ((optText js (m.get "category")).or (some manualTitle)) (some manualTitle)
  else []

/-- What a project stores of its materials. -/
structure Materials where
  sections : Option (JsonValue ℚ)
  products : Option (JsonValue ℚ)
  manualPurchaseItems : Option (JsonValue ℚ)

def collectNeedRows (m : Materials) : List NeedRow :=
  (asRows m.sections).flatMap (sectionRows js m.products) ++
    (asRows m.manualPurchaseItems).flatMap (manualRows js)

/-- The reference of a row. -/
def NeedRow.ref (row : NeedRow) : ProjectMaterialRef := ⟨none, row.code, row.name⟩

def projectNeedRefs (m : Materials) : List ProjectMaterialRef := (collectNeedRows js m).map NeedRow.ref

/-! ## The needs by item -/

/-- A row's quantity in the item's unit, with the conversion that it took. -/
structure Converted where
  qty : ℚ
  conversion : Option (String × ℚ)

/-- `needInItemUnit`. -/
def needInItemUnit (row : NeedRow) (itemUnit : String) : Option Converted :=
  if itemUnit = "" ∨ unitKey js row.unit = itemUnit then some ⟨row.qty, none⟩
  else
    let target := js.toLowerCase (text js row.convertedUnit)
    match row.conversionRate.bind js.number with
    | some rate =>
      if 0 < rate ∧ (target = "" ∨ target = itemUnit) then
        some ⟨FinancialDecimal.divide row.qty rate, some (row.unit, rate)⟩
      else none
    | none => none

structure ItemNeed where
  item : ItemMatch.StockItem
  qty : ℚ
  category : Option String
  conversions : List (String × ℚ)
  firstConversion : Option (String × ℚ)
  rowUnits : List String

structure ReservationUnitMismatch where
  itemId : ℕ
  itemCode : String
  itemName : String
  rowUnit : String
  itemUnit : String
  sectionTitle : Option String
  deriving DecidableEq

structure ReservationUnmatchedRow where
  code : String
  name : String
  unit : String
  qty : ℚ
  sectionTitle : Option String
  deriving DecidableEq

/-- What the loop over the rows builds; the maps keep the order of insertion. -/
structure PlanState where
  needs : List ItemNeed
  mismatches : List ((ℕ × String) × ReservationUnitMismatch)
  unmatched : List (String × ReservationUnmatchedRow)

/-- A set with one more. -/
def addTo {α : Type*} [DecidableEq α] (s : List α) (a : α) : List α := if a ∈ s then s else s ++ [a]

/-- A need with one more row. -/
def ItemNeed.add (need : ItemNeed) (row : NeedRow) (c : Converted) : ItemNeed :=
  { need with
    qty := need.qty + c.qty
    rowUnits := addTo need.rowUnits (unitKey js row.unit)
    conversions :=
      match c.conversion with
      | some (unit, rate) => addTo need.conversions (unitKey js unit, rate)
      | none => need.conversions
    firstConversion := need.firstConversion.or c.conversion }

def addNeed (item : ItemMatch.StockItem) (row : NeedRow) (c : Converted) : List ItemNeed → List ItemNeed
  | [] => [(ItemNeed.mk item 0 row.category [] none []).add js row c]
  | need :: rest =>
    if need.item.id = item.id then need.add js row c :: rest else need :: addNeed item row c rest

def addMismatch (item : ItemMatch.StockItem) (row : NeedRow)
    (mismatches : List ((ℕ × String) × ReservationUnitMismatch)) :
    List ((ℕ × String) × ReservationUnitMismatch) :=
  let key := (item.id, unitKey js row.unit)
  if mismatches.any (·.1 = key) then mismatches
  else mismatches ++ [(key, {
    itemId := item.id
    itemCode := orText item.code row.code
    itemName := orText item.name row.name
    rowUnit := row.unit
    itemUnit := jsTrim item.unit
    sectionTitle := row.sectionTitle })]

def unmatchedKey (row : NeedRow) : String :=
  "|".intercalate [row.sectionTitle.getD "", itemCodeKey js.toCasing row.code,
    itemNameKey js.toCasing row.name, unitKey js row.unit]

def addUnmatched (row : NeedRow) :
    List (String × ReservationUnmatchedRow) → List (String × ReservationUnmatchedRow)
  | [] => [(unmatchedKey js row, {
      code := row.code
      name := row.name
      unit := row.unit
      qty := FinancialDecimal.round row.qty
      sectionTitle := row.sectionTitle })]
  | (key, cur) :: rest =>
    if key = unmatchedKey js row then
      (key, { cur with qty := FinancialDecimal.round (cur.qty + row.qty) }) :: rest
    else (key, cur) :: addUnmatched row rest

/-- One turn of the loop, with the item that the row is matched to. -/
def addRow (matched : NeedRow → Option ItemMatch.StockItem) (s : PlanState) (row : NeedRow) : PlanState :=
  match matched row with
  | none => { s with unmatched := addUnmatched js row s.unmatched }
  | some item =>
    match needInItemUnit js row (unitKey js item.unit) with
    | none => { s with mismatches := addMismatch js item row s.mismatches }
    | some c => if 0 < c.qty then { s with needs := addNeed js item row c s.needs } else s

/-- The loop over the rows. -/
def planState (matched : NeedRow → Option ItemMatch.StockItem) (rows : List NeedRow) : PlanState :=
  rows.foldl (addRow js matched) ⟨[], [], []⟩

end

/-! ## The plan -/

/-- The figures of the plan; an item that a map lacks has zero. -/
structure ReservationOptions where
  reservedByOthers : ℕ → ℚ
  issuedToProject : ℕ → ℚ
  ownReserved : ℕ → ℚ
  itemAliases : List MatchableItem

/-- No figures and no aliases. -/
def ReservationOptions.empty : ReservationOptions := ⟨fun _ => 0, fun _ => 0, fun _ => 0, []⟩

structure ReservationShortage where
  itemId : ℕ
  itemCode : String
  itemName : String
  unit : String
  requiredQty : ℚ
  reservedQty : ℚ
  shortQty : ℚ
  stock : ℚ
  reservedByOthers : ℚ
  deriving DecidableEq

structure ProjectReservedItem where
  itemId : ℕ
  itemCode : String
  itemName : String
  category : Option String
  reservedQty : ℚ
  originalQty : ℚ
  unit : String
  conversion : Option (String × ℚ)
  reservedAt : String
  deriving DecidableEq

structure ProjectReservationPlan where
  reserved : List ProjectReservedItem
  shortages : List ReservationShortage
  unitMismatches : List ReservationUnitMismatch
  unmatched : List ReservationUnmatchedRow

/-- What is still needed of an item. -/
def ItemNeed.required (options : ReservationOptions) (need : ItemNeed) : ℚ :=
  max 0 (FinancialDecimal.round (need.qty - max 0 (options.issuedToProject need.item.id)))

/-- What of it is reserved: what the project holds, and more from stock that nobody holds. -/
def ItemNeed.reservedQty (options : ReservationOptions) (need : ItemNeed) : ℚ :=
  let required := need.required options
  let others := max 0 (options.reservedByOthers need.item.id)
  let own := max 0 (options.ownReserved need.item.id)
  let kept := min own required
  let free := max 0 (need.item.currentStock - others - own)
  min required (kept + free)

def shortageOf (options : ReservationOptions) (need : ItemNeed) : Option ReservationShortage :=
  let required := need.required options
  let reservedQty := need.reservedQty options
  if 0 < required ∧ reservedQty < required then
    some {
      itemId := need.item.id
      itemCode := jsTrim need.item.code
      itemName := jsTrim need.item.name
      unit := orText (jsTrim need.item.unit) defaultUnit
      requiredQty := required
      reservedQty := reservedQty
      shortQty := required - reservedQty
      stock := need.item.currentStock
      reservedByOthers := max 0 (options.reservedByOthers need.item.id) }
  else none

def reservedOf (options : ReservationOptions) (reservedAt : String) (need : ItemNeed) :
    Option ProjectReservedItem :=
  let required := need.required options
  let reservedQty := need.reservedQty options
  if 0 < required ∧ 0 < reservedQty then
    some {
      itemId := need.item.id
      itemCode := jsTrim need.item.code
      itemName := jsTrim need.item.name
      category := if need.item.category = "" then need.category else some need.item.category
      reservedQty := reservedQty
      originalQty := required
      unit := orText (jsTrim need.item.unit) defaultUnit
      conversion :=
        if need.conversions.length = 1 ∧ need.rowUnits.length = 1 then need.firstConversion else none
      reservedAt := reservedAt }
  else none

section

variable (js : Script)

/-- `matchNeedRow`: through the aliases of reserved items where no item has the code or name. -/
def matchNeedRow (stockItems : List ItemMatch.StockItem) (aliases : List MatchableItem) (row : NeedRow) :
    Option ItemMatch.StockItem :=
  let item (ref : ProjectMaterialRef) :=
    findProjectItemMatch js.toCasing ItemMatch.StockItem.toMatchableItem ref stockItems
  let viaAlias (ref : ProjectMaterialRef) :=
    (findProjectItemMatch js.toCasing id ref aliases).bind fun a => stockItems.find? fun i => i.id = a.id
  if aliases = [] then item row.ref
  else (((item ⟨none, row.code, ""⟩).or (viaAlias ⟨none, row.code, ""⟩)).or
    (item ⟨none, "", row.name⟩)).or (viaAlias ⟨none, "", row.name⟩)

def planProjectReservation (m : Materials) (stockItems : List ItemMatch.StockItem) (reservedAt : String)
    (options : ReservationOptions) : ProjectReservationPlan :=
  let s := planState js (matchNeedRow js stockItems options.itemAliases) (collectNeedRows js m)
  { reserved := s.needs.filterMap (reservedOf options reservedAt)
    shortages := s.needs.filterMap (shortageOf options)
    unitMismatches := s.mismatches.map Prod.snd
    unmatched := s.unmatched.map Prod.snd }

end

end PapitalErp.Reservation
