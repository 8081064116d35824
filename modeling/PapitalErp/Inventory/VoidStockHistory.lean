import PapitalErp.Inventory.StockMovementDate

/-!
# Voiding a document must not break the stock history

A void takes the document's rows out of the ledger. For every item the document
brought in, the guard walks the ledger from the document's first day on with
two balances per warehouse, with and without those rows, and refuses the void
when the second falls below zero because of them.
-/

namespace PapitalErp

/-- A warehouse that would run out, the day it does, how far below zero it
falls, and the rows that consumed the voided stock. -/
structure BrokenWarehouse where
  warehouse : WarehouseId
  day : ℤ
  deepest : ℚ
  consumers : List KardexRow

structure VoidWalk where
  before : WarehouseId → ℚ
  after : WarehouseId → ℚ
  broken : List BrokenWarehouse

/-- Merge one more row into what is known of a broken warehouse. -/
def BrokenWarehouse.deepen (found : BrokenWarehouse) (a : ℚ) (consumer : List KardexRow) :
    BrokenWarehouse :=
  { found with deepest := min a found.deepest, consumers := found.consumers ++ consumer }

/-- `broken.set(wh.id, found)`, in order of first insertion. -/
def recordBroken (row : KardexRow) (a : ℚ) (consumer : List KardexRow) :
    List BrokenWarehouse → List BrokenWarehouse
  | [] => [⟨row.location, row.day, a, consumer⟩]
  | found :: rest =>
      if found.warehouse = row.location then found.deepen a consumer :: rest
      else found :: recordBroken row a consumer rest

def voidWalkStep (removedIds : List ℕ) (walk : VoidWalk) (row : KardexRow) : VoidWalk :=
  let wh := row.location
  let b := walk.before wh + row.signedQuantity
  let a := if row.id ∈ removedIds then walk.after wh else walk.after wh + row.signedQuantity
  let consumer := if row.signedQuantity < 0 ∧ row.id ∉ removedIds then [row] else []
  { before := Function.update walk.before wh b
    after := Function.update walk.after wh a
    -- only a shortage this void causes: an old negative ledger blocks no other void
    broken := if a < -QTY_TOLERANCE ∧ QTY_TOLERANCE < b - a then
        recordBroken row a consumer walk.broken
      else walk.broken }

/-- The first warehouse that runs out without the removed rows. -/
def firstBrokenWarehouse (opening : WarehouseId → ℚ) (rows : List KardexRow)
    (removedIds : List ℕ) : Option BrokenWarehouse :=
  (rows.foldl (voidWalkStep removedIds) ⟨opening, opening, []⟩).broken.head?

/-- The rows of a live document. -/
def voidableRows (rows : List KardexRow) (document : DocumentId) : List KardexRow :=
  rows.filter fun t =>
    decide (t.documentId = some document) && !t.isDeleted && t.reversalOfId.isNone

/-- The items a document brought in, by ascending id. -/
def incomingItemIds (docRows : List KardexRow) : List ItemId :=
  ((docRows.filter fun t => isInType t.type).map KardexRow.itemId).dedup.insertionSort (· ≤ ·)

/-- The first day of an item in the document. -/
def firstDayOf (docRows : List KardexRow) (item : ItemId) : ℤ :=
  (((docRows.filter fun t => decide (t.itemId = item)).map KardexRow.day).min?).getD 0

def brokenWarehouseOf (rows docRows : List KardexRow) (item : ItemId) : Option BrokenWarehouse :=
  let ledger := itemLedgerFromDay rows item (firstDayOf docRows item)
  firstBrokenWarehouse ledger.opening ledger.rows (docRows.map KardexRow.id)

/-- `assertVoidKeepsStockHistory`. -/
def assertVoidKeepsStockHistory (rows : List KardexRow) (document : DocumentId) :
    Except StockError Unit :=
  let docRows := voidableRows rows document
  match (incomingItemIds docRows).findSome? fun item =>
      (brokenWarehouseOf rows docRows item).map fun broken => (item, broken) with
  | none => .ok ()
  | some (item, broken) =>
      .error (.voidBreaksStockHistory item broken.warehouse broken.day broken.deepest)

/-! ## What the guard lets through -/

/-- The two balances of a walk agree with the void, for one warehouse. -/
def BalancesKept (before after : ℚ) : Prop :=
  ¬(after < -QTY_TOLERANCE ∧ QTY_TOLERANCE < before - after)

theorem recordBroken_ne_nil (row : KardexRow) (a : ℚ) (consumer : List KardexRow)
    (broken : List BrokenWarehouse) : recordBroken row a consumer broken ≠ [] := by
  cases broken with
  | nil => simp [recordBroken]
  | cons found rest =>
      unfold recordBroken
      split <;> simp

private theorem broken_of_step {removedIds : List ℕ} {walk : VoidWalk} {row : KardexRow}
    (h : (voidWalkStep removedIds walk row).broken = []) :
    walk.broken = [] ∧ BalancesKept ((voidWalkStep removedIds walk row).before row.location)
      ((voidWalkStep removedIds walk row).after row.location) := by
  unfold voidWalkStep at h ⊢
  dsimp only at h ⊢
  simp only [Function.update_self]
  generalize (if row.id ∈ removedIds then walk.after row.location
    else walk.after row.location + row.signedQuantity) = a at h ⊢
  split at h
  · exact absurd h (recordBroken_ne_nil _ _ _ _)
  · exact ⟨h, ‹_›⟩

private theorem broken_of_walk {removedIds : List ℕ} {rows : List KardexRow} {walk : VoidWalk}
    (h : (rows.foldl (voidWalkStep removedIds) walk).broken = []) : walk.broken = [] := by
  induction rows generalizing walk with
  | nil => exact h
  | cons row rest ih => exact (broken_of_step (ih h)).1

/-- The part of a row that stays in the ledger. -/
def keptQuantityIn (removedIds : List ℕ) (warehouse : WarehouseId) (row : KardexRow) : ℚ :=
  if row.id ∈ removedIds then 0 else row.quantityIn warehouse

private theorem voidWalkStep_balances (removedIds : List ℕ) (walk : VoidWalk) (row : KardexRow)
    (warehouse : WarehouseId) :
    (voidWalkStep removedIds walk row).before warehouse =
        walk.before warehouse + row.quantityIn warehouse ∧
      (voidWalkStep removedIds walk row).after warehouse =
        walk.after warehouse + keptQuantityIn removedIds warehouse row := by
  unfold voidWalkStep keptQuantityIn KardexRow.quantityIn
  by_cases hw : row.location = warehouse
  · subst hw
    by_cases hr : row.id ∈ removedIds <;> simp [hr]
  · have hw' : warehouse ≠ row.location := fun h => hw h.symm
    simp [hw, hw']

private theorem balancesKept_of_walk {removedIds : List ℕ} {rows : List KardexRow}
    {walk : VoidWalk} (h : (rows.foldl (voidWalkStep removedIds) walk).broken = [])
    {warehouse : WarehouseId} (start : BalancesKept (walk.before warehouse) (walk.after warehouse))
    {p : List KardexRow} (hp : p <+: rows) :
    BalancesKept (walk.before warehouse + (p.map (KardexRow.quantityIn warehouse)).sum)
      (walk.after warehouse + (p.map (keptQuantityIn removedIds warehouse)).sum) := by
  induction rows generalizing walk p with
  | nil => simpa [List.prefix_nil.mp hp] using start
  | cons row rest ih =>
      cases p with
      | nil => simpa using start
      | cons head tail =>
          obtain ⟨rfl, htail⟩ := List.cons_prefix_cons.mp hp
          obtain ⟨hbefore, hafter⟩ := voidWalkStep_balances removedIds walk head warehouse
          -- a row elsewhere leaves both balances; a row here was checked by the walk
          have next : BalancesKept ((voidWalkStep removedIds walk head).before warehouse)
              ((voidWalkStep removedIds walk head).after warehouse) := by
            by_cases hw : head.location = warehouse
            · exact hw ▸ (broken_of_step (broken_of_walk h)).2
            · rw [hbefore, hafter]
              simpa [keptQuantityIn, KardexRow.quantityIn, hw] using start
          have rest := ih h next htail
          rw [hbefore, hafter] at rest
          simpa [add_assoc] using rest

/-- If the guard names no warehouse, then after every row the stock without the
removed rows is either not negative or not lowered by the removal. -/
theorem firstBrokenWarehouse_none {opening : WarehouseId → ℚ} {rows : List KardexRow}
    {removedIds : List ℕ} (h : firstBrokenWarehouse opening rows removedIds = none)
    (warehouse : WarehouseId) {p : List KardexRow} (hp : p <+: rows) :
    BalancesKept (opening warehouse + (p.map (KardexRow.quantityIn warehouse)).sum)
      (opening warehouse + (p.map (keptQuantityIn removedIds warehouse)).sum) := by
  refine balancesKept_of_walk (List.head?_eq_none_iff.mp h) ?_ hp
  unfold BalancesKept QTY_TOLERANCE
  norm_num

/-- An accepted void breaks the history of no item it brought in. -/
theorem assertVoidKeepsStockHistory_ok {rows : List KardexRow} {document : DocumentId}
    (h : assertVoidKeepsStockHistory rows document = .ok ()) {t : KardexRow}
    (ht : t ∈ voidableRows rows document) (hin : isInType t.type) :
    brokenWarehouseOf rows (voidableRows rows document) t.itemId = none := by
  unfold assertVoidKeepsStockHistory at h
  dsimp only at h
  split at h
  · rename_i hnone
    have listed : t.itemId ∈ incomingItemIds (voidableRows rows document) := by
      rw [incomingItemIds, List.mem_insertionSort, List.mem_dedup]
      exact List.mem_map_of_mem (List.mem_filter.mpr ⟨ht, hin⟩)
    simpa using List.findSome?_eq_none_iff.mp hnone t.itemId listed
  · cases h

end PapitalErp
