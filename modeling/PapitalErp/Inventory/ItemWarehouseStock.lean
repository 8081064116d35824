import PapitalErp.Lib.AssocTotals
import PapitalErp.Lib.Transition
import PapitalErp.Inventory.Kardex

/-!
# Stock per warehouse

`item_warehouse_stocks` is the one source of an item's stock: a row per
warehouse, a `numeric(18, 4)` amount that a database check keeps from going
below zero. Both constraints are fields of `WarehouseStocks`, so a table that
breaks them cannot be written.
-/

namespace PapitalErp

open Rounding Transition

/-- The rows of `item_warehouse_stocks` of one item. -/
structure WarehouseStocks where
  rows : List (WarehouseId × ℚ)
  valid : ∀ row ∈ rows, AtScale 4 row.2 ∧ 0 ≤ row.2

namespace WarehouseStocks

def empty : WarehouseStocks := ⟨[], by simp⟩

/-- `currentStock` of the item in one warehouse. -/
def currentStock (stocks : WarehouseStocks) (warehouse : WarehouseId) : ℚ :=
  AssocTotals.get stocks.rows warehouse

/-- `getStockSnapshot(...).total`. -/
def snapshotTotal (stocks : WarehouseStocks) : ℚ :=
  money (stocks.rows.map fun row => money row.2).sum

def write (stocks : WarehouseStocks) (warehouse : WarehouseId) (stock : ℚ)
    (h : AtScale 4 stock ∧ 0 ≤ stock) : WarehouseStocks where
  rows := AssocTotals.set stocks.rows warehouse stock
  valid := by
    intro row hrow
    rcases AssocTotals.mem_set hrow with rfl | hrow
    · exact h
    · exact stocks.valid row hrow

variable (stocks : WarehouseStocks)

theorem currentStock_valid (warehouse : WarehouseId) :
    AtScale 4 (stocks.currentStock warehouse) ∧ 0 ≤ stocks.currentStock warehouse :=
  AssocTotals.get_of_forall (P := fun x => AtScale 4 x ∧ 0 ≤ x)
    ⟨AtScale.zero 4, le_rfl⟩ stocks.valid warehouse

theorem snapshotTotal_eq : stocks.snapshotTotal = AssocTotals.total stocks.rows := by
  have each : stocks.rows.map (fun row => money row.2) = stocks.rows.map Prod.snd :=
    List.map_congr_left fun row hrow => money_of_atScale (stocks.valid row hrow).1
  have whole : AtScale 4 (stocks.rows.map Prod.snd).sum := by
    apply AtScale.sum
    simpa using fun x w hx => (stocks.valid (w, x) hx).1
  rw [snapshotTotal, each, money_of_atScale whole, AssocTotals.total]

theorem snapshotTotal_nonneg : 0 ≤ stocks.snapshotTotal := by
  rw [snapshotTotal_eq]
  apply List.sum_nonneg
  simpa using fun x w hx => (stocks.valid (w, x) hx).2

@[simp] theorem snapshotTotal_empty : empty.snapshotTotal = 0 := by
  simp [snapshotTotal_eq, empty]

end WarehouseStocks

namespace ItemWarehouseStockService

/-- `applyMovement`: add to, or take from, the stock of one warehouse. -/
def applyMovement (stocks : WarehouseStocks) (warehouse : WarehouseId) (inOut : StockDirection)
    (qty : ℚ) : Except StockError WarehouseStocks :=
  if hq : qty ≤ 0 then .error (.quantityNotPositive qty)
  else
    match inOut with
    | .incoming =>
        .ok (stocks.write warehouse (money (stocks.currentStock warehouse + qty))
          ⟨atScale_money _, money_nonneg
            (add_nonneg (stocks.currentStock_valid warehouse).2 (le_of_not_ge hq))⟩)
    | .outgoing =>
        if h : stocks.currentStock warehouse < qty then
          .error (.insufficientStock warehouse (stocks.currentStock warehouse) qty)
        else
          .ok (stocks.write warehouse (money (stocks.currentStock warehouse - qty))
            ⟨atScale_money _, money_nonneg (sub_nonneg.mpr (le_of_not_gt h))⟩)

/-- What an accepted movement of a four-decimal quantity does. -/
structure Moved (before after : WarehouseStocks) (warehouse : WarehouseId)
    (inOut : StockDirection) (qty : ℚ) : Prop where
  positive : 0 < qty
  available : inOut = .outgoing → qty ≤ before.currentStock warehouse
  at_eq : ∀ w, after.currentStock w = before.currentStock w + if w = warehouse then signed inOut.type qty else 0
  total_eq : after.snapshotTotal = before.snapshotTotal + signed inOut.type qty

private theorem write_moves (stocks : WarehouseStocks) (warehouse : WarehouseId) {stock : ℚ}
    (h : AtScale 4 stock ∧ 0 ≤ stock) :
    (∀ w, (stocks.write warehouse stock h).currentStock w =
      stocks.currentStock w + if w = warehouse then stock - stocks.currentStock warehouse else 0) ∧
    (stocks.write warehouse stock h).snapshotTotal =
      stocks.snapshotTotal + (stock - stocks.currentStock warehouse) := by
  constructor
  · intro w
    by_cases hw : w = warehouse
    · subst hw
      simp [WarehouseStocks.currentStock, WarehouseStocks.write]
    · simp [WarehouseStocks.currentStock, WarehouseStocks.write, hw, AssocTotals.get_set_of_ne]
  · rw [WarehouseStocks.snapshotTotal_eq, WarehouseStocks.snapshotTotal_eq]
    simp only [WarehouseStocks.write, AssocTotals.total_set, WarehouseStocks.currentStock]
    ring

theorem applyMovement_moved {stocks stocks' : WarehouseStocks} {warehouse : WarehouseId}
    {inOut : StockDirection} {qty : ℚ} (hscale : AtScale 4 qty)
    (h : applyMovement stocks warehouse inOut qty = .ok stocks') :
    Moved stocks stocks' warehouse inOut qty := by
  have hat := (stocks.currentStock_valid warehouse).1
  unfold applyMovement at h
  split at h
  · cases h
  rename_i hq
  cases inOut with
  | incoming =>
      cases h
      have stored : money (stocks.currentStock warehouse + qty) - stocks.currentStock warehouse = qty := by
        rw [money_of_atScale (hat.add hscale)]
        ring
      obtain ⟨each, total⟩ := write_moves stocks warehouse
        ⟨atScale_money (stocks.currentStock warehouse + qty), money_nonneg
          (add_nonneg (stocks.currentStock_valid warehouse).2 (le_of_not_ge hq))⟩
      rw [stored] at each total
      exact ⟨lt_of_not_ge hq, nofun, each, total⟩
  | outgoing =>
      dsimp only at h
      split at h
      · cases h
      rename_i hlt
      cases h
      have stored : money (stocks.currentStock warehouse - qty) - stocks.currentStock warehouse = -qty := by
        rw [money_of_atScale (hat.sub hscale)]
        ring
      obtain ⟨each, total⟩ := write_moves stocks warehouse
        ⟨atScale_money (stocks.currentStock warehouse - qty),
          money_nonneg (sub_nonneg.mpr (le_of_not_gt hlt))⟩
      rw [stored] at each total
      exact ⟨lt_of_not_ge hq, fun _ => le_of_not_gt hlt, each, total⟩

end ItemWarehouseStockService

end PapitalErp
