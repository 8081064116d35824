import PapitalErp.Inventory.KardexReplay

/-!
# What rounding may explain between stock and ledger

The stock health check compares the stock value with the inventory account and
lists a gap that rounding does not explain. `inventoryRoundingAllowance` is the
weighted-average part of that bound over the Kardex rows it is given; the parts
for foreign vouchers, residue vouchers and legacy documents only add to it.
-/

namespace PapitalErp

open KardexReplay

/-- `HALF_UNIT_4DP`. -/
def HALF_UNIT_4DP : ℚ := 5 / 10 ^ 5

/-- Live rows, and deleted rows with a live reversal. -/
def historyRows (rows : List KardexRow) : List KardexRow :=
  rows.filter fun t => !t.isDeleted || activelyReversed rows t.id

/-- The stock on hand after a row, and the budget in half units. -/
structure AllowanceWalk where
  onHand : ℚ
  budget : ℚ

/-- Rows that average the cost again. -/
def reaverages (row : KardexRow) : Bool :=
  decide (row.documentType ≠ .transfer) &&
    (decide (row.type = .incoming) || row.reversalOfId.isSome)

def allowanceStep (walk : AllowanceWalk) (row : KardexRow) : AllowanceWalk :=
  let onHand := walk.onHand + if isInType row.type then row.quantity else -row.quantity
  let received := if row.type = .incoming then row.quantity else 0
  ⟨onHand, walk.budget + (if reaverages row then max onHand 0 + received else 0) + 2⟩

/-- The `wac` part of `inventoryRoundingAllowance`, for the rows of one item. -/
def inventoryRoundingAllowance (rows : List KardexRow) : ℚ :=
  HALF_UNIT_4DP * ((sortById (historyRows rows)).foldl allowanceStep ⟨0, 0⟩).budget

end PapitalErp
