import PapitalErp.Lib.Transition
import PapitalErp.Lib.PrefixSums
import PapitalErp.Inventory.Kardex

/-!
# The date of a stock movement

The ledger of an item is its live rows: neither a deleted row nor the reversal
of a deleted row. Read in (day, id) order, a warehouse must never run out. A
movement dated before the item's last movement needs a permission, and one that
takes stock out is accepted only if the warehouse can bear it from the end of
that day on.

Quantities are exact here, so the tolerance of the comparisons is kept as
written although no four-decimal quantity comes near it.
-/

namespace PapitalErp

open Transition

/-- `QTY_TOLERANCE`, shared by the date guard and the void guard. -/
def QTY_TOLERANCE : ℚ := 1 / 10 ^ 9

/-- `LEDGER_ROW_FILTER`: live, and not the reversal of a deleted row. -/
def isLedgerRow (rows : List KardexRow) (t : KardexRow) : Bool :=
  !t.isDeleted && !(rows.any fun o => decide (t.reversalOfId = some o.id) && o.isDeleted)

/-- The ledger rows of one item, in posting order. -/
def itemLedger (rows : List KardexRow) (item : ItemId) : List KardexRow :=
  rows.filter fun t => decide (t.itemId = item) && isLedgerRow rows t

/-- `ORDER BY day, id`. -/
def LedgerLe (a b : KardexRow) : Prop :=
  a.day < b.day ∨ a.day = b.day ∧ a.id ≤ b.id

instance : DecidableRel LedgerLe := fun a b =>
  inferInstanceAs (Decidable (a.day < b.day ∨ a.day = b.day ∧ a.id ≤ b.id))

instance : Std.Total LedgerLe where
  total a b := by
    unfold LedgerLe
    omega

instance : IsTrans KardexRow LedgerLe where
  trans a b c := by
    unfold LedgerLe
    omega

/-- Rows in (day, id) order. -/
def inLedgerOrder (rows : List KardexRow) : List KardexRow := rows.insertionSort LedgerLe

/-- What a row brings into one warehouse. -/
def KardexRow.quantityIn (warehouse : WarehouseId) (row : KardexRow) : ℚ :=
  if row.location = warehouse then row.signedQuantity else 0

/-- The latest day of the item's ledger, none for an item with no movement. -/
def lastStockMovementDay (rows : List KardexRow) (item : ItemId) : Option ℤ :=
  ((itemLedger rows item).map KardexRow.day).max?

/-- An item's balances before a day, and its rows from that day on. -/
structure ItemLedgerFromDay where
  opening : WarehouseId → ℚ
  rows : List KardexRow

/-- `itemLedgerFromDay`; `boundary` is the day itself (`'day'`) or the next one
(`'nextDay'`). -/
def itemLedgerFromDay (rows : List KardexRow) (item : ItemId) (boundary : ℤ) :
    ItemLedgerFromDay where
  opening warehouse :=
    (((itemLedger rows item).filter fun t => decide (t.day < boundary)).map
      (KardexRow.quantityIn warehouse)).sum
  rows := inLedgerOrder ((itemLedger rows item).filter fun t => !decide (t.day < boundary))

/-- The running balance and the minimum seen so far. -/
structure MinimumWalk where
  balance : ℚ
  minimum : Option ℚ

def minimumStep (day : ℤ) (warehouse : WarehouseId) (walk : MinimumWalk) (row : KardexRow) :
    MinimumWalk :=
  if row.location ≠ warehouse then walk
  else if !isInType row.type && !isOutType row.type then walk
  else
    let minimum := if day < row.day ∧ walk.minimum = none then some walk.balance else walk.minimum
    let balance :=
      if isInType row.type then walk.balance + row.quantity else walk.balance - row.quantity
    ⟨balance, if day < row.day then some (min (minimum.getD balance) balance) else minimum⟩

/-- The least stock of a warehouse from the end of a day on. -/
def minimumStockFromDay (rows : List KardexRow) (item : ItemId) (day : ℤ)
    (warehouse : WarehouseId) : ℚ :=
  let ledger := itemLedgerFromDay rows item (day + 1)
  let walk := ledger.rows.foldl (minimumStep day warehouse) ⟨ledger.opening warehouse, none⟩
  walk.minimum.getD walk.balance

structure StockMovementDateCheck where
  itemId : ItemId
  day : ℤ
  inOut : StockDirection
  quantity : ℚ
  warehouseId : WarehouseId
  allowBackdate : Bool
  /-- the business day of the request -/
  today : ℤ
  /-- `FiscalPeriodService.assertOpen` passes for the day -/
  yearOpen : Bool

/-- `assertStockMovementDate`. -/
def assertStockMovementDate (rows : List KardexRow) (check : StockMovementDateCheck) :
    Except StockError Unit := do
  ensure (check.day ≤ check.today) (.futureDate check.day check.today)
  ensure (check.yearOpen = true) (.closedYear check.day)
  match lastStockMovementDay rows check.itemId with
  | none => pure ()
  | some lastDay =>
      if lastDay ≤ check.day then pure ()
      else do
        ensure (check.allowBackdate = true) (.backdated check.day lastDay)
        match check.inOut with
        | .incoming => pure ()
        | .outgoing =>
            let available := minimumStockFromDay rows check.itemId check.day check.warehouseId
            ensure (check.quantity ≤ available + QTY_TOLERANCE)
              (.negativeAsOfDate check.day available)

/-! ## What the guard lets through -/

theorem ledgerLe_antisymm {a b : KardexRow} (hab : LedgerLe a b) (hba : LedgerLe b a) :
    a.id = b.id := by
  unfold LedgerLe at hab hba
  omega

/-- An accepted outgoing movement is dated on or after the last one, or the
warehouse bears it from the end of its day on. -/
theorem assertStockMovementDate_ok {rows : List KardexRow} {check : StockMovementDateCheck}
    (h : assertStockMovementDate rows check = .ok ()) (hout : check.inOut = .outgoing) :
    (∀ t ∈ itemLedger rows check.itemId, t.day ≤ check.day) ∨
      check.quantity ≤
        minimumStockFromDay rows check.itemId check.day check.warehouseId + QTY_TOLERANCE := by
  simp only [assertStockMovementDate, bind_eq_ok, ensure_eq_ok, exists_const] at h
  obtain ⟨-, -, h⟩ := h
  rcases hlast : lastStockMovementDay rows check.itemId with _ | lastDay
  · left
    intro t ht
    rw [lastStockMovementDay, List.max?_eq_none_iff, List.map_eq_nil_iff] at hlast
    simp [hlast] at ht
  · rw [hlast] at h
    dsimp only at h
    split at h
    · rename_i hle
      left
      intro t ht
      have := (List.max?_eq_some_iff.mp hlast).2 t.day (List.mem_map_of_mem ht)
      omega
    · right
      rw [hout] at h
      simp only [bind_eq_ok, ensure_eq_ok, exists_const] at h
      exact h.2

/-- What the walk would answer if the ledger ended here. -/
def MinimumWalk.value (walk : MinimumWalk) : ℚ := walk.minimum.getD walk.balance

private theorem minimumStep_spec {day : ℤ} (warehouse : WarehouseId) {row : KardexRow}
    (later : day < row.day) (walk : MinimumWalk) (hle : walk.value ≤ walk.balance) :
    (minimumStep day warehouse walk row).balance =
        walk.balance + row.quantityIn warehouse ∧
      (minimumStep day warehouse walk row).value ≤ walk.value ∧
      (minimumStep day warehouse walk row).value ≤
        (minimumStep day warehouse walk row).balance := by
  unfold minimumStep
  by_cases hloc : row.location = warehouse
  · cases hin : isInType row.type <;> cases hout : isOutType row.type
    · simp [hloc, KardexRow.quantityIn, KardexRow.signedQuantity, signed, hin, hout, hle]
    all_goals
      have lowest : ∀ m b : ℚ, min m b ≤ m ∧ min m b ≤ b :=
        fun m b => ⟨min_le_left m b, min_le_right m b⟩
      cases hmin : walk.minimum <;>
        simp only [hloc, hin, hout, hmin, later, KardexRow.quantityIn, KardexRow.signedQuantity,
          signed, MinimumWalk.value, sub_eq_add_neg, ne_eq, not_true_eq_false, if_false,
          if_true, Bool.not_true, Bool.not_false, Bool.and_true, Bool.and_false,
          Bool.and_self, Bool.false_eq_true, true_and, and_true, and_false, reduceCtorEq,
          Option.getD_some, Option.getD_none] at hle ⊢ <;>
        exact lowest _ _
  · simp [hloc, KardexRow.quantityIn, hle]

private theorem minimumWalk_le {day : ℤ} {warehouse : WarehouseId} {rows : List KardexRow}
    (later : ∀ t ∈ rows, day < t.day) (walk : MinimumWalk) (hle : walk.value ≤ walk.balance) :
    (rows.foldl (minimumStep day warehouse) walk).value ≤ walk.value ∧
      ∀ p, p <+: rows → (rows.foldl (minimumStep day warehouse) walk).value ≤
        walk.balance + (p.map (KardexRow.quantityIn warehouse)).sum := by
  induction rows generalizing walk with
  | nil =>
      refine ⟨le_rfl, fun p hp => ?_⟩
      simpa [List.prefix_nil.mp hp] using hle
  | cons row rest ih =>
      obtain ⟨hbalance, hdown, hbelow⟩ :=
        minimumStep_spec warehouse (later row List.mem_cons_self) walk hle
      obtain ⟨hvalue, hprefix⟩ := ih (fun t ht => later t (List.mem_cons_of_mem _ ht)) _ hbelow
      rw [List.foldl_cons]
      refine ⟨hvalue.trans hdown, fun p hp => ?_⟩
      cases p with
      | nil => simpa using hvalue.trans (hdown.trans hle)
      | cons head tail =>
          obtain ⟨rfl, htail⟩ := List.cons_prefix_cons.mp hp
          have := hprefix tail htail
          rw [hbalance] at this
          simpa [add_assoc] using this

/-- The minimum bounds the warehouse's balance at the end of the day and after
every later row. -/
theorem minimumStockFromDay_le (rows : List KardexRow) (item : ItemId) (day : ℤ)
    (warehouse : WarehouseId) {p : List KardexRow}
    (hp : p <+: (itemLedgerFromDay rows item (day + 1)).rows) :
    minimumStockFromDay rows item day warehouse ≤
      (itemLedgerFromDay rows item (day + 1)).opening warehouse +
        (p.map (KardexRow.quantityIn warehouse)).sum := by
  refine (minimumWalk_le ?_ ⟨_, none⟩ le_rfl).2 p hp
  intro t ht
  simp only [itemLedgerFromDay, inLedgerOrder, List.mem_insertionSort, List.mem_filter,
    Bool.not_eq_true', decide_eq_false_iff_not] at ht
  omega

end PapitalErp
