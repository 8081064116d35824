import PapitalErp.Lib.AssocTotals
import PapitalErp.Lib.PrefixSums
import PapitalErp.Inventory.Kardex
import PapitalErp.Inventory.WarehouseResolver

/-!
# The sellable gate

What may leave a warehouse is the lesser of the warehouse's stock and the
item's total stock less what others have reserved. A document's lines are added
up per item and warehouse and each sum is compared with that bound on its own,
while reservations are per item: the gate protects the reservations of others
exactly for documents that take each item from one warehouse.

Stocks and reservations are read as exact amounts. What only words the refusal
(the item's unit, the formatted sentences) is left out; the figures and names it
is worded from are the error.
-/

namespace PapitalErp

open Rounding Transition

inductive ReservationSource where
  | proforma
  | project
  deriving DecidableEq

/-- `ReservedItemDetail`: both sources skip a row that reserves nothing. -/
structure ReservedItemDetail where
  sourceType : ReservationSource
  sourceId : ℕ
  sourceRef : String
  sourceTitle : String
  reservedQty : ℚ
  positive : 0 < reservedQty

/-- The document being posted and the project it is issued for. -/
structure OthersReservationContext where
  excludeDocumentId : Option ℕ
  projectId : Option ℕ

/-- A stored id is truthy. -/
def isOwnId (own : Option ℕ) (sourceId : ℕ) : Bool :=
  match own with
  | none => false
  | some id => decide (id ≠ 0) && decide (sourceId = id)

/-- `othersReservations`. -/
def othersReservations (reservations : List ReservedItemDetail) (ctx : OthersReservationContext) :
    List ReservedItemDetail :=
  (reservations.filter fun r =>
      !(decide (r.sourceType = .proforma) && isOwnId ctx.excludeDocumentId r.sourceId)).filter
    fun r => !(decide (r.sourceType = .project) && isOwnId ctx.projectId r.sourceId)

/-- The stock of one item by warehouse code. -/
structure StockByCode where
  byCode : List (String × ℚ)
  codes_nodup : (byCode.map Prod.fst).Nodup
  valid : ∀ row ∈ byCode, AtScale 4 row.2 ∧ 0 ≤ row.2

structure StockItem where
  code : String
  name : String
  isDeleted : Bool
  stock : StockByCode
  /-- the item's summary in the reservation report -/
  reservations : List ReservedItemDetail

structure SellableInfo where
  locationStock : ℚ
  reservedForOthers : ℚ
  sellable : ℚ
  deriving DecidableEq

namespace StockItem

def totalStock (item : StockItem) : ℚ := AssocTotals.total item.stock.byCode

def reservedForOthers (item : StockItem) (ctx : OthersReservationContext) : ℚ :=
  ((othersReservations item.reservations ctx).map ReservedItemDetail.reservedQty).sum

end StockItem

/-- A request the gate refuses, with the reservations that lower what is sellable. -/
structure Shortage where
  itemId : ItemId
  code : String
  name : String
  location : String
  requested : ℚ
  holders : List (String × ℚ)
  info : SellableInfo
  deriving DecidableEq

inductive SellableError where
  | warehouse (e : WarehouseError)
  | locationRequired
  | itemNotFound (itemId : ItemId)
  | itemDeleted (itemId : ItemId)
  | insufficientStock (shortages : List Shortage)
  deriving DecidableEq

/-- `ItemStockReservationService.computeSellable`; a warehouse code is stored
trimmed. -/
def computeSellable (item : StockItem) (location : String) (ctx : OthersReservationContext) :
    Except SellableError SellableInfo :=
  if location = "" then .error .locationRequired
  else
    let locationStock := AssocTotals.get item.stock.byCode location
    let reservedForOthers := item.reservedForOthers ctx
    let availableFromTotal := max 0 (item.totalStock - reservedForOthers)
    .ok ⟨locationStock, reservedForOthers, max 0 (min locationStock availableFromTotal)⟩

structure OutflowLine where
  /-- `Number(line.itemId)` when it is an integer -/
  itemId : Option ℤ
  quantity : ℚ
  location : Option String

structure OutflowContext extends OthersReservationContext where
  docLocation : Option String

namespace OutflowLine

/-- The item a line takes out; other lines take no part in the gate. -/
def outflowItem (line : OutflowLine) : Option ItemId :=
  match line.itemId with
  | none => none
  | some id => if 0 < id ∧ 0 < line.quantity then some id.toNat else none

/-- The line's warehouse, else the document's, else the default one. -/
def warehouse (text : HostText) (active : List Warehouse) (ctx : OutflowContext)
    (line : OutflowLine) : Except WarehouseError String :=
  let raw := (line.location.map text.trim).getD ""
  resolveWarehouse text active
    (if raw = "" then (ctx.docLocation.map text.trim).getD "" else raw)

end OutflowLine

/-- Quantities asked for, by item and warehouse code, in order of first line. -/
abbrev Requested := List ((ItemId × String) × ℚ)

/-- One line of the loop that adds up the requests. -/
def addRequested (text : HostText) (active : List Warehouse) (ctx : OutflowContext)
    (requested : Requested) (line : OutflowLine) : Except WarehouseError Requested :=
  match line.outflowItem with
  | none => .ok requested
  | some itemId =>
      match line.warehouse text active ctx with
      | .error e => .error e
      | .ok location =>
          .ok (AssocTotals.set requested (itemId, location)
            (AssocTotals.get requested (itemId, location) + line.quantity))

def requestedOf (text : HostText) (active : List Warehouse) (ctx : OutflowContext) :
    Requested → List OutflowLine → Except WarehouseError Requested
  | requested, [] => .ok requested
  | requested, line :: rest =>
      match addRequested text active ctx requested line with
      | .error e => .error e
      | .ok requested => requestedOf text active ctx requested rest

/-- The check of one item in one warehouse. -/
def shortageOf (items : ItemId → Option StockItem) (ctx : OthersReservationContext)
    (request : (ItemId × String) × ℚ) : Except SellableError (List Shortage) :=
  let ((itemId, location), qty) := request
  match items itemId with
  | none => .error (.itemNotFound itemId)
  | some item => do
      let info ← computeSellable item location ctx
      if info.sellable < qty then
        let holders := (othersReservations item.reservations ctx).map fun r =>
          (if r.sourceRef = "" then r.sourceTitle else r.sourceRef, r.reservedQty)
        return [⟨itemId, item.code, item.name, location, qty, holders, info⟩]
      else return []

/-- The loop of `findSellableShortages` over the requests. -/
def shortagesOf (items : ItemId → Option StockItem) (ctx : OthersReservationContext) :
    Requested → Except SellableError (List Shortage)
  | [] => .ok []
  | request :: rest => do
      let shortage ← shortageOf items ctx request
      let shortages ← shortagesOf items ctx rest
      return shortage ++ shortages

/-- `findSellableShortages`. -/
def findSellableShortages (text : HostText) (active : List Warehouse)
    (items : ItemId → Option StockItem) (lines : List OutflowLine) (ctx : OutflowContext) :
    Except SellableError (List Shortage) :=
  if active = [] then .error (.warehouse .noActiveWarehouse)
  else
    match requestedOf text active ctx [] lines with
    | .error e => .error (.warehouse e)
    | .ok requested =>
        let itemIds := (requested.map fun r => r.1.1).dedup.insertionSort (· ≤ ·)
        match itemIds.find? fun id => (items id).isNone with
        | some missing => .error (.itemNotFound missing)
        | none =>
            match itemIds.find? fun id => (items id).any StockItem.isDeleted with
            | some deleted => .error (.itemDeleted deleted)
            | none => shortagesOf items ctx.toOthersReservationContext requested

/-- `assertOutflowWithinSellable`. -/
def assertOutflowWithinSellable (text : HostText) (active : List Warehouse)
    (items : ItemId → Option StockItem) (lines : List OutflowLine) (ctx : OutflowContext) :
    Except SellableError Unit := do
  let shortages ← findSellableShortages text active items lines ctx
  ensure (shortages = []) (.insufficientStock shortages)

/-! ## What is added up -/

section Requested

variable {text : HostText} {active : List Warehouse} {ctx : OutflowContext}

/-- What the lines take of an item, from every warehouse. -/
def leavingQuantity (lines : List OutflowLine) (itemId : ItemId) : ℚ :=
  ((lines.filter fun l => decide (l.outflowItem = some itemId)).map OutflowLine.quantity).sum

/-- What the lines take of an item from one warehouse. -/
def leavingFrom (text : HostText) (active : List Warehouse) (ctx : OutflowContext)
    (lines : List OutflowLine) (itemId : ItemId) (location : String) : ℚ :=
  ((lines.filter fun l => decide (l.outflowItem = some itemId) &&
      decide (l.warehouse text active ctx = .ok location)).map OutflowLine.quantity).sum

theorem quantity_pos_of_outflow {line : OutflowLine} {itemId : ItemId}
    (h : line.outflowItem = some itemId) : 0 < line.quantity := by
  unfold OutflowLine.outflowItem at h
  split at h
  · cases h
  · split at h
    · rename_i hpos
      exact hpos.2
    · cases h

/-- What the loop keeps: the table of the lines read so far. -/
structure AddsUp (text : HostText) (active : List Warehouse) (ctx : OutflowContext)
    (read : List OutflowLine) (requested : Requested) : Prop where
  distinct : (requested.map Prod.fst).Nodup
  resolved : ∀ l ∈ read, l.outflowItem.isSome → ∃ w, l.warehouse text active ctx = .ok w
  keys : ∀ itemId location, (itemId, location) ∈ requested.map Prod.fst ↔
    ∃ l ∈ read, l.outflowItem = some itemId ∧ l.warehouse text active ctx = .ok location
  amounts : ∀ itemId location, AssocTotals.get requested (itemId, location) =
    leavingFrom text active ctx read itemId location

theorem AddsUp.nil : AddsUp text active ctx [] [] where
  distinct := List.nodup_nil
  resolved := by simp
  keys := by simp
  amounts := by simp [AssocTotals.get, leavingFrom]

theorem AddsUp.line {read : List OutflowLine} {requested requested' : Requested}
    (h : AddsUp text active ctx read requested) {line : OutflowLine}
    (hstep : addRequested text active ctx requested line = .ok requested') :
    AddsUp text active ctx (read ++ [line]) requested' := by
  unfold addRequested at hstep
  split at hstep
  · rename_i hskip
    cases hstep
    refine ⟨h.distinct, ?_, ?_, ?_⟩
    · intro l hl hitem
      rcases List.mem_append.mp hl with hl | hl
      · exact h.resolved l hl hitem
      · rw [List.mem_singleton.mp hl, hskip] at hitem
        cases hitem
    · intro itemId location
      simp [h.keys, hskip]
    · intro itemId location
      simp [h.amounts, leavingFrom, hskip]
  · rename_i item hitem
    split at hstep
    · cases hstep
    · rename_i code hcode
      cases hstep
      refine ⟨AssocTotals.nodup_set h.distinct _ _, ?_, ?_, ?_⟩
      · intro l hl hsome
        rcases List.mem_append.mp hl with hl | hl
        · exact h.resolved l hl hsome
        · exact ⟨code, List.mem_singleton.mp hl ▸ hcode⟩
      · intro itemId location
        rw [AssocTotals.keys_set, h.keys]
        simp only [List.mem_append, List.mem_singleton, Prod.mk.injEq]
        constructor
        · rintro (⟨rfl, rfl⟩ | ⟨l, hl, hprop⟩)
          · exact ⟨line, .inr rfl, hitem, hcode⟩
          · exact ⟨l, .inl hl, hprop⟩
        · rintro ⟨l, hl | rfl, hlitem, hlcode⟩
          · exact .inr ⟨l, hl, hlitem, hlcode⟩
          · rw [hitem, Option.some.injEq] at hlitem
            rw [hcode, Except.ok.injEq] at hlcode
            exact .inl ⟨hlitem.symm, hlcode.symm⟩
      · intro itemId location
        rw [AssocTotals.get_set, h.amounts, h.amounts]
        simp only [leavingFrom, List.filter_append, List.map_append, List.sum_append,
          List.filter_cons, List.filter_nil, hitem, hcode, Option.some.injEq, Except.ok.injEq,
          Prod.mk.injEq]
        by_cases hi : item = itemId <;> by_cases hw : code = location <;>
          simp [hi, hw, eq_comm]

theorem AddsUp.run {read lines : List OutflowLine} {requested requested' : Requested}
    (h : AddsUp text active ctx read requested)
    (hrun : requestedOf text active ctx requested lines = .ok requested') :
    AddsUp text active ctx (read ++ lines) requested' := by
  induction lines generalizing read requested with
  | nil =>
      cases hrun
      simpa using h
  | cons line rest ih =>
      unfold requestedOf at hrun
      split at hrun
      · cases hrun
      · rename_i next hnext
        simpa using ih (h.line hnext) hrun

/-- The loop ends with a table when every line that counts names an active warehouse. -/
theorem requestedOf_exists {lines : List OutflowLine} (requested : Requested)
    (resolved : ∀ l ∈ lines, l.outflowItem.isSome → ∃ w, l.warehouse text active ctx = .ok w) :
    ∃ requested', requestedOf text active ctx requested lines = .ok requested' := by
  induction lines generalizing requested with
  | nil => exact ⟨requested, rfl⟩
  | cons line rest ih =>
      have tail := fun r => ih r fun l hl => resolved l (List.mem_cons_of_mem _ hl)
      cases hitem : line.outflowItem with
      | none => simpa [requestedOf, addRequested, hitem] using tail requested
      | some itemId =>
          obtain ⟨w, hw⟩ := resolved line List.mem_cons_self (by simp [hitem])
          simpa [requestedOf, addRequested, hitem, hw] using tail _

theorem leavingQuantity_le (lines : List OutflowLine) (itemId : ItemId) :
    leavingQuantity lines itemId ≤ (lines.map fun l => max l.quantity 0).sum := by
  rw [leavingQuantity, PrefixSums.sum_filter]
  refine List.sum_le_sum fun l _ => ?_
  split
  · exact le_max_left _ _
  · exact le_max_right _ _

theorem leavingFrom_le_leaving (lines : List OutflowLine) (itemId : ItemId) (w : String) :
    leavingFrom text active ctx lines itemId w ≤ leavingQuantity lines itemId := by
  simp only [leavingFrom, leavingQuantity, PrefixSums.sum_filter]
  refine List.sum_le_sum fun l _ => ?_
  by_cases hitem : l.outflowItem = some itemId
  · have := quantity_pos_of_outflow hitem
    by_cases hw : l.warehouse text active ctx = .ok w <;> simp [hitem, hw, this.le]
  · simp [hitem]

/-- What leaves two warehouses is part of what leaves. -/
theorem leavingFrom_add_le (lines : List OutflowLine) (itemId : ItemId) {w w' : String}
    (apart : w ≠ w') : leavingFrom text active ctx lines itemId w +
      leavingFrom text active ctx lines itemId w' ≤ leavingQuantity lines itemId := by
  simp only [leavingFrom, leavingQuantity, PrefixSums.sum_filter, ← List.sum_map_add]
  refine List.sum_le_sum fun l _ => ?_
  by_cases hitem : l.outflowItem = some itemId
  · have := quantity_pos_of_outflow hitem
    by_cases hw : l.warehouse text active ctx = .ok w
    · simp [hitem, hw, apart]
    · by_cases hw' : l.warehouse text active ctx = .ok w'
      · simp [hitem, hw', apart.symm]
      · simp [hitem, hw, hw', this.le]
  · simp [hitem]

/-- A request misses at least one of two warehouses. -/
theorem leavingFrom_le_sub_min (lines : List OutflowLine) (itemId : ItemId) {w₁ w₂ : String}
    (apart : w₁ ≠ w₂) (w : String) : leavingFrom text active ctx lines itemId w ≤
      leavingQuantity lines itemId - min (leavingFrom text active ctx lines itemId w₁)
        (leavingFrom text active ctx lines itemId w₂) := by
  have missed : ∀ w', w ≠ w' → leavingFrom text active ctx lines itemId w +
      leavingFrom text active ctx lines itemId w' ≤ leavingQuantity lines itemId :=
    fun w' => leavingFrom_add_le lines itemId
  refine le_sub_iff_add_le.mpr ?_
  by_cases h : w = w₁
  · exact (add_le_add_right (min_le_right _ _) _).trans (missed w₂ (h ▸ apart))
  · exact (add_le_add_right (min_le_left _ _) _).trans (missed w₁ h)

theorem leavingFrom_pos {lines : List OutflowLine} {l : OutflowLine} (hl : l ∈ lines)
    {itemId : ItemId} (hitem : l.outflowItem = some itemId) {w : String}
    (hw : l.warehouse text active ctx = .ok w) :
    0 < leavingFrom text active ctx lines itemId w := by
  refine (quantity_pos_of_outflow hitem).trans_le (List.single_le_sum ?_ _ ?_)
  · intro x hx
    obtain ⟨l', hl', rfl⟩ := List.mem_map.mp hx
    simp only [List.mem_filter, Bool.and_eq_true, decide_eq_true_eq] at hl'
    exact (quantity_pos_of_outflow hl'.2.1).le
  · exact List.mem_map_of_mem (List.mem_filter.mpr ⟨hl, by simp [hitem, hw]⟩)

end Requested

/-! ## What the gate accepts -/

def StockItem.sellable (item : StockItem) (location : String) (ctx : OthersReservationContext) :
    ℚ :=
  max 0 (min (AssocTotals.get item.stock.byCode location)
    (max 0 (item.totalStock - item.reservedForOthers ctx)))

theorem shortageOf_ok {items : ItemId → Option StockItem} {ctx : OthersReservationContext}
    {request : (ItemId × String) × ℚ} (located : request.1.2 ≠ "") :
    shortageOf items ctx request = .ok [] ↔ ∃ item, items request.1.1 = some item ∧
      request.2 ≤ item.sellable request.1.2 ctx := by
  obtain ⟨⟨itemId, location⟩, qty⟩ := request
  cases hitem : items itemId with
  | none => simp [shortageOf, hitem]
  | some item =>
      simp only [shortageOf, hitem, computeSellable, if_neg located, bind_eq_ok, Except.ok.injEq,
        exists_eq_left']
      split
      · rename_i hlt
        refine iff_of_false (by simp) ?_
        rintro ⟨item', hitem', hle⟩
        cases hitem'
        exact absurd hle (not_le.mpr hlt)
      · rename_i hle
        exact iff_of_true rfl ⟨item, rfl, not_lt.mp hle⟩

theorem shortagesOf_ok {items : ItemId → Option StockItem} {ctx : OthersReservationContext}
    {requested : Requested} (located : ∀ r ∈ requested, r.1.2 ≠ "") :
    shortagesOf items ctx requested = .ok [] ↔ ∀ r ∈ requested, ∃ item,
      items r.1.1 = some item ∧ r.2 ≤ item.sellable r.1.2 ctx := by
  induction requested with
  | nil => simp [shortagesOf]
  | cons request rest ih =>
      rw [List.forall_mem_cons, ← shortageOf_ok (located request List.mem_cons_self),
        ← ih fun r hr => located r (List.mem_cons_of_mem _ hr)]
      simp only [shortagesOf, bind_eq_ok, pure_eq_ok, List.append_eq_nil_iff]
      constructor
      · rintro ⟨first, hfirst, others, hothers, rfl, rfl⟩
        exact ⟨hfirst, hothers⟩
      · rintro ⟨hfirst, hothers⟩
        exact ⟨[], hfirst, [], hothers, rfl, rfl⟩

theorem passes_iff_no_shortage {text : HostText} {active : List Warehouse}
    {items : ItemId → Option StockItem} {lines : List OutflowLine} {ctx : OutflowContext} :
    assertOutflowWithinSellable text active items lines ctx = .ok () ↔
      findSellableShortages text active items lines ctx = .ok [] := by
  simp only [assertOutflowWithinSellable, bind_eq_ok, ensure_eq_ok]
  constructor
  · rintro ⟨shortages, hfound, rfl⟩
    exact hfound
  · exact fun hfound => ⟨[], hfound, rfl⟩

/-- A document is let through when every item exists and every request is within
what is sellable there. -/
theorem assertOutflowWithinSellable_ok {text : HostText} {active : List Warehouse}
    {items : ItemId → Option StockItem} {lines : List OutflowLine} {ctx : OutflowContext}
    {requested : Requested} (hactive : active ≠ [])
    (hrequested : requestedOf text active ctx [] lines = .ok requested) :
    assertOutflowWithinSellable text active items lines ctx = .ok () ↔
      ∀ r ∈ requested, ∃ item, items r.1.1 = some item ∧ item.isDeleted = false ∧
        r.2 ≤ item.sellable r.1.2 ctx.toOthersReservationContext := by
  have adds := AddsUp.nil.run hrequested
  have located : ∀ r ∈ requested, r.1.2 ≠ "" := by
    intro r hr
    obtain ⟨l, -, -, hw⟩ := (adds.keys r.1.1 r.1.2).mp (List.mem_map_of_mem hr)
    exact resolveWarehouse_ne hw
  have listed : ∀ id, id ∈ (requested.map fun r => r.1.1).dedup.insertionSort (· ≤ ·) ↔
      ∃ r ∈ requested, r.1.1 = id := by
    intro id
    simp [List.mem_insertionSort]
  rw [passes_iff_no_shortage]
  simp only [findSellableShortages, if_neg hactive, hrequested]
  constructor
  · intro h r hr
    split at h
    · cases h
    · split at h
      · cases h
      · rename_i hpresent hlive
        obtain ⟨item, hitem, hle⟩ := (shortagesOf_ok located).mp h r hr
        have live := List.find?_eq_none.mp hlive r.1.1 ((listed _).mpr ⟨r, hr, rfl⟩)
        exact ⟨item, hitem, by simpa [hitem] using live, hle⟩
  · intro h
    have present : (((requested.map fun r => r.1.1).dedup.insertionSort (· ≤ ·)).find?
        fun id => (items id).isNone) = none := by
      refine List.find?_eq_none.mpr fun id hid => ?_
      obtain ⟨r, hr, rfl⟩ := (listed id).mp hid
      obtain ⟨item, hitem, -⟩ := h r hr
      simp [hitem]
    have live : (((requested.map fun r => r.1.1).dedup.insertionSort (· ≤ ·)).find?
        fun id => (items id).any StockItem.isDeleted) = none := by
      refine List.find?_eq_none.mpr fun id hid => ?_
      obtain ⟨r, hr, rfl⟩ := (listed id).mp hid
      obtain ⟨item, hitem, hdel, -⟩ := h r hr
      simp [hitem, hdel]
    rw [present, live]
    refine (shortagesOf_ok located).mpr fun r hr => ?_
    obtain ⟨item, hitem, -, hle⟩ := h r hr
    exact ⟨item, hitem, hle⟩

/-! ## Protecting the reservations of others -/

/-- After the document, the stock of each item it takes out still covers what
others have reserved. -/
def CoversOthers (items : ItemId → Option StockItem) (lines : List OutflowLine)
    (ctx : OthersReservationContext) : Prop :=
  ∀ itemId item, items itemId = some item → 0 < leavingQuantity lines itemId →
    leavingQuantity lines itemId ≤ item.totalStock - item.reservedForOthers ctx

/-- No item leaves from two warehouses; a document with a line in no active
warehouse is refused in any state. -/
def OneWarehousePerItem (text : HostText) (active : List Warehouse) (ctx : OutflowContext)
    (lines : List OutflowLine) : Prop :=
  (∀ l ∈ lines, l.outflowItem.isSome → ∃ w, l.warehouse text active ctx = .ok w) →
    ∀ l₁ ∈ lines, ∀ l₂ ∈ lines, l₁.outflowItem.isSome → l₁.outflowItem = l₂.outflowItem →
      l₁.warehouse text active ctx = l₂.warehouse text active ctx

theorem leavingFrom_of_oneWarehouse {text : HostText} {active : List Warehouse}
    {ctx : OutflowContext} {lines : List OutflowLine} {itemId : ItemId} {w : String}
    (h : ∀ l ∈ lines, l.outflowItem = some itemId → l.warehouse text active ctx = .ok w) :
    leavingFrom text active ctx lines itemId w = leavingQuantity lines itemId := by
  refine congrArg (fun l => (l.map OutflowLine.quantity).sum) (List.filter_congr fun l hl => ?_)
  by_cases hitem : l.outflowItem = some itemId
  · simp [hitem, h l hl hitem]
  · simp [hitem]

theorem exists_line_of_leaving {lines : List OutflowLine} {itemId : ItemId}
    (h : 0 < leavingQuantity lines itemId) : ∃ l ∈ lines, l.outflowItem = some itemId := by
  by_contra hnone
  have : (lines.filter fun l => decide (l.outflowItem = some itemId)) = [] := by
    refine List.filter_eq_nil_iff.mpr fun l hl => ?_
    simpa using fun hitem => hnone ⟨l, hl, hitem⟩
  simp [leavingQuantity, this] at h

/-- A request within what is sellable leaves what others reserved. -/
theorem le_of_le_sellable {item : StockItem} {location : String} {ctx : OthersReservationContext}
    {qty : ℚ} (positive : 0 < qty) (h : qty ≤ item.sellable location ctx) :
    qty ≤ item.totalStock - item.reservedForOthers ctx := by
  unfold StockItem.sellable at h
  rcases le_max_iff.mp h with h | h
  · exact absurd h (not_le.mpr positive)
  · rcases le_max_iff.mp (le_min_iff.mp h).2 with h | h
    · exact absurd h (not_le.mpr positive)
    · exact h

theorem coversOthers_of_oneWarehouse {text : HostText} {active : List Warehouse}
    {items : ItemId → Option StockItem} {lines : List OutflowLine} {ctx : OutflowContext}
    (one : OneWarehousePerItem text active ctx lines)
    (h : assertOutflowWithinSellable text active items lines ctx = .ok ()) :
    CoversOthers items lines ctx.toOthersReservationContext := by
  intro itemId item hitems leaving
  have hactive : active ≠ [] := by
    rintro rfl
    simp [passes_iff_no_shortage, findSellableShortages] at h
  obtain ⟨requested, hrequested⟩ : ∃ requested, requestedOf text active ctx [] lines =
      .ok requested := by
    cases hr : requestedOf text active ctx [] lines with
    | ok requested => exact ⟨requested, rfl⟩
    | error e => simp [passes_iff_no_shortage, findSellableShortages, hactive, hr] at h
  have adds := AddsUp.nil.run hrequested
  rw [List.nil_append] at adds
  obtain ⟨l, hl, hitem⟩ := exists_line_of_leaving leaving
  obtain ⟨w, hw⟩ := adds.resolved l hl (by simp [hitem])
  have same : ∀ l' ∈ lines, l'.outflowItem = some itemId → l'.warehouse text active ctx = .ok w := by
    intro l' hl' hitem'
    rw [← hw]
    exact one adds.resolved l' hl' l hl (by simp [hitem']) (hitem'.trans hitem.symm)
  have listed := AssocTotals.mem_of_key ((adds.keys itemId w).mpr ⟨l, hl, hitem, hw⟩)
  rw [adds.amounts, leavingFrom_of_oneWarehouse same] at listed
  obtain ⟨item', hitems', -, hle⟩ :=
    (assertOutflowWithinSellable_ok hactive hrequested).mp h _ listed
  cases hitems.symm.trans hitems'
  exact le_of_le_sellable leaving hle

/-! ## A state in which two warehouses break the bound -/

/-- The same stock in every active warehouse. -/
def plentifulStock (active : List Warehouse) (n : ℕ) : StockByCode where
  byCode := (active.map Warehouse.code).dedup.map fun code => (code, (n : ℚ))
  codes_nodup := by
    rw [List.map_map]
    exact (List.map_id' _).symm ▸ List.nodup_dedup _
  valid := by
    intro row hrow
    obtain ⟨code, -, rfl⟩ := List.mem_map.mp hrow
    exact ⟨AtScale.natCast 4 n, n.cast_nonneg⟩

theorem get_plentifulStock {active : List Warehouse} {w : Warehouse} (hw : w ∈ active) (n : ℕ) :
    AssocTotals.get (plentifulStock active n).byCode w.code = n := by
  have listed : (w.code, (n : ℚ)) ∈ (plentifulStock active n).byCode :=
    List.mem_map_of_mem (List.mem_dedup.mpr (List.mem_map_of_mem hw))
  exact AssocTotals.get_of_mem (plentifulStock active n).codes_nodup listed

/-- A reservation of a project other than the document's own. -/
def reservedByOther (ctx : OthersReservationContext) (qty : ℚ) (positive : 0 < qty) :
    ReservedItemDetail :=
  ⟨.project, ctx.projectId.getD 0 + 1, "", "", qty, positive⟩

theorem othersReservations_reservedByOther (ctx : OthersReservationContext) {qty : ℚ}
    (positive : 0 < qty) : othersReservations [reservedByOther ctx qty positive] ctx =
      [reservedByOther ctx qty positive] := by
  cases hown : ctx.projectId <;>
    simp [othersReservations, reservedByOther, isOwnId, hown]

@[simp] theorem othersReservations_nil (ctx : OthersReservationContext) :
    othersReservations [] ctx = [] := rfl

/-- An item of which every active warehouse has plenty. -/
def plentifulItem (active : List Warehouse) (n : ℕ) (reservations : List ReservedItemDetail) :
    StockItem :=
  ⟨"", "", false, plentifulStock active n, reservations⟩

theorem oneWarehouse_of_protects {text : HostText} {active : List Warehouse}
    {lines : List OutflowLine} {ctx : OutflowContext}
    (protects : ∀ items, assertOutflowWithinSellable text active items lines ctx = .ok () →
      CoversOthers items lines ctx.toOthersReservationContext) :
    OneWarehousePerItem text active ctx lines := by
  intro resolved l₁ hl₁ l₂ hl₂ hsome hsame
  by_contra hne
  obtain ⟨itemId, hitem⟩ := Option.isSome_iff_exists.mp hsome
  obtain ⟨w₁, hw₁⟩ := resolved l₁ hl₁ hsome
  obtain ⟨w₂, hw₂⟩ := resolved l₂ hl₂ (hsame ▸ hsome)
  have apart : w₁ ≠ w₂ := fun h => hne (by rw [hw₁, hw₂, h])
  obtain ⟨first, hfirst, -⟩ := resolveWarehouse_mem hw₁
  have hactive : active ≠ [] := List.ne_nil_of_mem hfirst
  obtain ⟨requested, hrequested⟩ := requestedOf_exists [] resolved
  have adds := AddsUp.nil.run hrequested
  rw [List.nil_append] at adds
  -- others have reserved all but what is left when the lesser of the two requests stays
  let n := ⌈(lines.map fun l => max l.quantity 0).sum⌉₊
  let total := AssocTotals.total (plentifulStock active n).byCode
  let stays := min (leavingFrom text active ctx lines itemId w₁)
    (leavingFrom text active ctx lines itemId w₂)
  have stays_pos : 0 < stays :=
    lt_min (leavingFrom_pos hl₁ hitem hw₁) (leavingFrom_pos hl₂ (hsame ▸ hitem) hw₂)
  have bounded : ∀ j, leavingQuantity lines j ≤ n := fun j =>
    (leavingQuantity_le lines j).trans (Nat.le_ceil _)
  have covered : (n : ℚ) ≤ total :=
    get_plentifulStock hfirst n ▸ AssocTotals.get_le_total
      (fun row hrow => ((plentifulStock active n).valid row hrow).2) first.code
  have reserved_pos : 0 < total - (leavingQuantity lines itemId - stays) := by
    have := bounded itemId
    linarith
  let reservations (j : ItemId) : List ReservedItemDetail :=
    if j = itemId then [reservedByOther ctx.toOthersReservationContext _ reserved_pos] else []
  let items (j : ItemId) : Option StockItem := some (plentifulItem active n (reservations j))
  have unreserved : ∀ j, (plentifulItem active n (reservations j)).totalStock -
      (plentifulItem active n (reservations j)).reservedForOthers ctx.toOthersReservationContext =
        if j = itemId then leavingQuantity lines itemId - stays else total := by
    intro j
    change total - ((othersReservations (reservations j) _).map _).sum = _
    by_cases hj : j = itemId
    · simp only [reservations, if_pos hj, othersReservations_reservedByOther]
      simp [reservedByOther]
    · simp [reservations, if_neg hj]
  have accepted : assertOutflowWithinSellable text active items lines ctx = .ok () := by
    refine (assertOutflowWithinSellable_ok hactive hrequested).mpr fun r hr => ?_
    obtain ⟨⟨j, w⟩, qty⟩ := r
    obtain ⟨l, hl, hlitem, hlw⟩ := (adds.keys j w).mp (List.mem_map_of_mem hr)
    obtain ⟨warehouse, hwarehouse, rfl⟩ := resolveWarehouse_mem hlw
    have hqty : qty = leavingFrom text active ctx lines j warehouse.code :=
      (AssocTotals.get_of_mem adds.distinct hr).symm.trans (adds.amounts j warehouse.code)
    have hle : qty ≤ n := by
      rw [hqty]
      exact (leavingFrom_le_leaving lines j warehouse.code).trans (bounded j)
    refine ⟨_, rfl, rfl, le_max_of_le_right (le_min ?_ (le_max_of_le_right ?_))⟩
    · exact hle.trans_eq (get_plentifulStock hwarehouse n).symm
    · refine le_of_le_of_eq ?_ (unreserved j).symm
      split
      · rename_i hj
        subst hj
        exact hqty ▸ leavingFrom_le_sub_min lines j apart warehouse.code
      · exact hle.trans covered
  have leaving_pos : 0 < leavingQuantity lines itemId :=
    (leavingFrom_pos hl₁ hitem hw₁).trans_le (leavingFrom_le_leaving lines itemId w₁)
  have kept := protects items accepted itemId _ rfl leaving_pos
  rw [unreserved, if_pos rfl] at kept
  linarith

/-- The gate protects the reservations of others, in every state of the stock
and of the reservations, exactly for the documents that take no item from two
warehouses. -/
theorem sellable_gate_protects_iff (text : HostText) (active : List Warehouse)
    (lines : List OutflowLine) (ctx : OutflowContext) :
    (∀ items, assertOutflowWithinSellable text active items lines ctx = .ok () →
      CoversOthers items lines ctx.toOthersReservationContext) ↔
      OneWarehousePerItem text active ctx lines :=
  ⟨oneWarehouse_of_protects, fun one _ h => coversOthers_of_oneWarehouse one h⟩

/-! ### Five and five of ten, with four reserved -/

def twoWarehouses : List Warehouse :=
  [⟨"main", "", by decide⟩, ⟨"shop", "", by decide⟩]

def fiveAndFive : ItemId → Option StockItem := fun _ =>
  some ⟨"", "", false,
    { byCode := [("main", 5), ("shop", 5)]
      codes_nodup := by decide
      valid := by
        intro row hrow
        rcases List.mem_pair.mp hrow with rfl | rfl <;>
          exact ⟨AtScale.natCast 4 5, by norm_num⟩ },
    [⟨.proforma, 1, "PRO-1", "", 4, by norm_num⟩]⟩

def fiveFromEach : List OutflowLine :=
  [⟨some 1, 5, some "main"⟩, ⟨some 1, 5, some "shop"⟩]

/-- Two lines of five are let through although only six of the ten are free. -/
theorem sellable_gate_misses_second_warehouse :
    assertOutflowWithinSellable ⟨id, id⟩ twoWarehouses fiveAndFive fiveFromEach
        ⟨⟨none, none⟩, none⟩ = .ok () ∧
      ¬CoversOthers fiveAndFive fiveFromEach ⟨none, none⟩ := by
  refine ⟨by decide +kernel, fun covers => ?_⟩
  have := covers 1 _ rfl (by decide +kernel)
  exact absurd this (by decide +kernel)

end PapitalErp
