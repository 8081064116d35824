import PapitalErp.Documents.KardexConsistency
import PapitalErp.Accounting.InventoryReconciliation

/-!
# Inventory value is conserved

The inventory account is fed by the totals of the Kardex rows and by the
residues of voids; the stock is worth its quantity times its average cost. The
two drift apart by roundings only, and the drift stays inside the allowance of
the health check, in every run that brings no goods back at no price.

A row spends the allowance it brings: re-averaging costs half a unit on every
unit on hand, a row total half a unit. An incoming row keeps half a unit per
received unit in reserve, which its own reversal spends, because the reversal
works with the four-decimal price and the row total did not.
-/

namespace PapitalErp

open Rounding Transition DocumentStockEngine KardexReplay

/-! ## The two sides of the comparison -/

/-- The running history of an item: the health check's walk, and the value the
rows have brought into the inventory account. -/
structure Tally extends AllowanceWalk where
  value : ℚ

def tallyStep (t : Tally) (row : KardexRow) : Tally :=
  ⟨allowanceStep t.toAllowanceWalk row, t.value + row.signedTotal⟩

namespace StockState

/-- The signed total of every row the run wrote for an item. -/
def ledgerValue (s : StockState) (item : ItemId) : ℚ :=
  ((s.kardexOf item).map KardexRow.signedTotal).sum

def tally (s : StockState) (item : ItemId) : Tally :=
  (s.kardexOf item).foldl tallyStep ⟨⟨0, 0⟩, 0⟩

end StockState

/-- The half units an incoming row holds for its own reversal. -/
def reserveOf (row : KardexRow) : ℚ :=
  if row.isDeleted = false ∧ row.reversalOfId = none ∧ row.type = .incoming ∧
    row.documentType ≠ .transfer then row.quantity else 0

def StockState.reserve (s : StockState) (item : ItemId) : ℚ :=
  ((s.kardexOf item).map reserveOf).sum

/-- The rows and the residues are worth the stock, up to what is left of the
allowance. -/
structure Conserved (t : Tally) (residue reserve : ℚ) (item : ItemStock) : Prop where
  onHand : t.onHand = item.total
  value : |t.value - residue - item.total * item.weightedAverageCost| ≤
    halfUnit 4 * (t.budget - reserve)

/-- The total of a row is its quantity at its price, up to its roundings. -/
def Priced (row : KardexRow) : Prop :=
  |row.totalPrice - row.quantity * row.unitPrice| ≤
    halfUnit 4 * (1 + if row.type = .incoming then row.quantity else 0)

/-- No row is brought back at no price while the item has a cost. -/
def KeepsValue : ItemStock → List KardexRow → Prop
  | _, [] => True
  | item, orig :: rest =>
      (orig.type = .outgoing → orig.documentType ≠ .transfer → orig.unitPrice = 0 →
        item.weightedAverageCost = 0) ∧
      ∀ item' residue, applyStockReversal item orig = .ok (item', residue) →
        KeepsValue item' rest

/-- The voids that keep the value. -/
def VoidKeepsValue (s : StockState) : StockOperation → Prop
  | .movement _ => True
  | .transfer _ => True
  | .void p => ∀ item, KeepsValue (s.items item)
      (p.originalTxs.filter fun row => decide (row.itemId = item))

/-! ## One row -/

theorem foldl_tallyStep_core (rows : List KardexRow) (t : Tally) :
    (rows.map KardexRow.core).foldl tallyStep t = rows.foldl tallyStep t := by
  rw [List.foldl_map]
  rfl

theorem tallyStep_incoming {t : Tally} {row : KardexRow} (htype : row.type = .incoming)
    (hdoc : row.documentType ≠ .transfer) :
    tallyStep t row = ⟨⟨t.onHand + row.quantity,
      t.budget + (max (t.onHand + row.quantity) 0 + row.quantity) + 2⟩,
      t.value + row.totalPrice⟩ := by
  simp [tallyStep, allowanceStep, reaverages, htype, hdoc, isInType, KardexRow.signedTotal]

theorem tallyStep_issue {t : Tally} {row : KardexRow} (htype : row.type = .outgoing)
    (hrev : row.reversalOfId = none) :
    tallyStep t row = ⟨⟨t.onHand - row.quantity, t.budget + 2⟩, t.value - row.totalPrice⟩ := by
  simp [tallyStep, allowanceStep, reaverages, htype, hrev, isInType, KardexRow.signedTotal,
    sub_eq_add_neg]

theorem tallyStep_reverseIncoming {t : Tally} {row : KardexRow} (htype : row.type = .outgoing)
    (hrev : row.reversalOfId.isSome) (hdoc : row.documentType ≠ .transfer) :
    tallyStep t row = ⟨⟨t.onHand - row.quantity, t.budget + max (t.onHand - row.quantity) 0 + 2⟩,
      t.value - row.totalPrice⟩ := by
  simp [tallyStep, allowanceStep, reaverages, htype, hrev, hdoc, isInType,
    KardexRow.signedTotal, sub_eq_add_neg]

theorem tallyStep_transfer {t : Tally} {row : KardexRow} (hdoc : row.documentType = .transfer) :
    tallyStep t row = ⟨⟨t.onHand + if isInType row.type then row.quantity else -row.quantity,
      t.budget + 2⟩, t.value + row.signedTotal⟩ := by
  simp [tallyStep, allowanceStep, reaverages, hdoc]

/-- The total a movement books is its exact value, up to one rounding. -/
theorem abs_bookedTotal_sub_le (unitPrice qty : ℚ) :
    |money (FinancialDecimal.round (unitPrice * qty) 4) - qty * unitPrice| ≤ halfUnit 4 := by
  rw [round_four, money_of_atScale (atScale_money _), mul_comm qty]
  exact abs_money_sub_le _

/-- Goods come in: the new average carries the old value and theirs. -/
theorem receipt_value {item : ItemStock} {p : ApplyStockMovementParams} {unitPrice : ℚ}
    (hin : p.inOut = .incoming) (hq : 0 < stockMovementQuantity p.quantity)
    (hprice : 0 ≤ p.price) (booked : movementUnitPrice item.weightedAverageCost p = .ok unitPrice) :
    |(item.total + stockMovementQuantity p.quantity) *
        money (movementWac item p (stockMovementQuantity p.quantity)) -
      (item.total * item.weightedAverageCost + stockMovementQuantity p.quantity * unitPrice)| ≤
      halfUnit 4 * (item.total + stockMovementQuantity p.quantity) := by
  have stock_nonneg := item.stocks.snapshotTotal_nonneg
  have bound_nonneg : 0 ≤ halfUnit 4 * (item.total + stockMovementQuantity p.quantity) :=
    mul_nonneg (halfUnit_pos 4).le (by linarith)
  have live : money (movementWac item p (stockMovementQuantity p.quantity)) =
      FinancialMath.calculateWAC item.total item.weightedAverageCost
        (stockMovementQuantity p.quantity) p.price := by
    simp only [movementWac, hin]
    exact money_of_atScale (FinancialMath.atScale_calculateWAC _ _ _ item.valid.1)
  rw [live]
  simp only [movementUnitPrice, hin] at booked
  by_cases hpos : 0 < p.price
  · rw [if_neg (by simp [hpos])] at booked
    cases booked
    exact FinancialMath.abs_value_calculateWAC_sub_le stock_nonneg hq hpos
  · -- at no price the goods are booked at the average, and the average stays
    rw [FinancialMath.calculateWAC_of_price_nonpos (le_of_not_gt hpos)]
    have hunit : unitPrice = item.weightedAverageCost := by
      by_cases hcost : 0 < item.weightedAverageCost
      · rw [if_pos ⟨hpos, hcost⟩] at booked
        cases booked
        rfl
      · rw [if_neg (by simp [hcost])] at booked
        cases booked
        have hfree := le_antisymm (le_of_not_gt hcost) item.valid.2
        rw [hfree]
        exact le_antisymm (le_of_not_gt hpos) hprice
    have exact_value : (item.total + stockMovementQuantity p.quantity) * item.weightedAverageCost -
        (item.total * item.weightedAverageCost +
          stockMovementQuantity p.quantity * unitPrice) = 0 := by
      rw [hunit]
      ring
    rw [exact_value, abs_zero]
    exact bound_nonneg

/-- An issue is booked at the average. -/
theorem issue_unitPrice {item : ItemStock} {p : ApplyStockMovementParams} {unitPrice : ℚ}
    (hout : p.inOut = .outgoing)
    (booked : movementUnitPrice item.weightedAverageCost p = .ok unitPrice) :
    unitPrice = item.weightedAverageCost := by
  simp only [movementUnitPrice, hout] at booked
  split_ifs at booked with hcost haudit <;> cases booked
  · rfl
  · exact (le_antisymm (le_of_not_gt hcost) item.valid.2).symm

theorem movementRow_priced (id : ℕ) {item : ItemStock} {p : ApplyStockMovementParams}
    {unitPrice : ℚ} (hq : 0 < stockMovementQuantity p.quantity)
    (booked : movementUnitPrice item.weightedAverageCost p = .ok unitPrice) :
    Priced (movementRow id p (stockMovementQuantity p.quantity) unitPrice) := by
  have htotal := abs_bookedTotal_sub_le unitPrice (stockMovementQuantity p.quantity)
  unfold Priced
  cases hdir : p.inOut with
  | outgoing =>
      have hscale : money unitPrice = unitPrice := by
        rw [issue_unitPrice hdir booked]
        exact money_of_atScale item.valid.1
      simp only [movementRow, hdir, StockDirection.type, reduceCtorEq, if_false, add_zero, mul_one,
        hscale]
      exact htotal
  | incoming =>
      simp only [movementRow, hdir, StockDirection.type, if_true]
      have hunit := abs_le.mp (abs_money_sub_le unitPrice)
      have scaled : |stockMovementQuantity p.quantity * (unitPrice - money unitPrice)| ≤
          halfUnit 4 * stockMovementQuantity p.quantity := by
        rw [abs_mul, abs_of_pos hq, abs_sub_comm, mul_comm]
        exact mul_le_mul_of_nonneg_right (abs_money_sub_le unitPrice) hq.le
      calc |money (FinancialDecimal.round (unitPrice * stockMovementQuantity p.quantity) 4) -
              stockMovementQuantity p.quantity * money unitPrice|
          = |(money (FinancialDecimal.round (unitPrice * stockMovementQuantity p.quantity) 4) -
              stockMovementQuantity p.quantity * unitPrice) +
              stockMovementQuantity p.quantity * (unitPrice - money unitPrice)| := by ring_nf
        _ ≤ halfUnit 4 + halfUnit 4 * stockMovementQuantity p.quantity :=
            (abs_add_le _ _).trans (add_le_add htotal scaled)
        _ = halfUnit 4 * (1 + stockMovementQuantity p.quantity) := by ring

/-- A movement spends no more than its row brings. -/
theorem movement_conserved {t : Tally} {residue reserve : ℚ} {item : ItemStock} (id : ℕ)
    {p : ApplyStockMovementParams} {unitPrice : ℚ} {stocks : WarehouseStocks}
    (hprice : 0 ≤ p.price)
    (booked : movementUnitPrice item.weightedAverageCost p = .ok unitPrice)
    (moved : ItemWarehouseStockService.Moved item.stocks stocks p.targetLoc p.inOut
      (stockMovementQuantity p.quantity))
    (h : Conserved t residue reserve item) :
    let row := movementRow id p (stockMovementQuantity p.quantity) unitPrice
    Conserved (tallyStep t row) residue (reserve + reserveOf row) (movedStock item p stocks) := by
  obtain ⟨honHand, hvalue⟩ := h
  have hq := moved.positive
  have half_pos := halfUnit_pos 4
  have htotal := moved.total_eq
  have hrow := abs_le.mp (abs_bookedTotal_sub_le unitPrice (stockMovementQuantity p.quantity))
  have hvalue := abs_le.mp hvalue
  have stock_nonneg := item.stocks.snapshotTotal_nonneg
  dsimp only
  cases hdir : p.inOut with
  | incoming =>
      rw [hdir] at htotal
      simp only [StockDirection.type, signed_incoming] at htotal
      have htype : (movementRow id p (stockMovementQuantity p.quantity) unitPrice).type =
          .incoming := by simp [movementRow, hdir, StockDirection.type]
      have hreserve : reserveOf (movementRow id p (stockMovementQuantity p.quantity) unitPrice) =
          stockMovementQuantity p.quantity := by
        simp [reserveOf, movementRow, hdir, StockDirection.type, p.recordable]
      have haverage := abs_le.mp (receipt_value hdir hq hprice booked)
      have hmax : max (item.total + stockMovementQuantity p.quantity) 0 =
          item.total + stockMovementQuantity p.quantity := max_eq_left (by linarith)
      rw [tallyStep_incoming htype p.recordable, hreserve]
      refine ⟨by simp [movedStock, htotal, honHand, movementRow], ?_⟩
      simp only [movementRow, honHand, hmax, movedStock, ItemStock.total, htotal]
      simp only [ItemStock.total] at haverage hvalue
      rw [abs_le]
      constructor <;> linarith [mul_pos half_pos hq]
  | outgoing =>
      rw [hdir] at htotal
      simp only [StockDirection.type, signed_outgoing] at htotal
      have htype : (movementRow id p (stockMovementQuantity p.quantity) unitPrice).type =
          .outgoing := by simp [movementRow, hdir, StockDirection.type]
      have hreserve : reserveOf (movementRow id p (stockMovementQuantity p.quantity) unitPrice) =
          0 := by
        simp [reserveOf, movementRow, hdir, StockDirection.type]
      have hkeep : money (movementWac item p (stockMovementQuantity p.quantity)) =
          item.weightedAverageCost := by
        simp only [movementWac, hdir]
        exact money_of_atScale item.valid.1
      rw [tallyStep_issue htype rfl, hreserve]
      refine ⟨by simp [movedStock, htotal, honHand, movementRow, sub_eq_add_neg], ?_⟩
      simp only [movementRow, movedStock, ItemStock.total, htotal, hkeep]
      rw [issue_unitPrice hdir booked] at hrow ⊢
      simp only [ItemStock.total] at hvalue
      rw [abs_le]
      constructor <;> linarith

/-- Taking a receipt back out spends what its row brings and what the receipt
held in reserve. -/
theorem reverseIncoming_conserved {t : Tally} {residue reserve left : ℚ}
    {item item' : ItemStock} {orig : KardexRow} (p : VoidDocumentParams)
    (shape : WellShaped orig) (priced : Priced orig)
    (live : orig.isDeleted = false ∧ orig.reversalOfId = none)
    (hdoc : orig.documentType ≠ .transfer) (htype : orig.type = .incoming)
    (accepted : ReversalAccepted item item' orig left) (h : Conserved t residue reserve item) :
    Conserved (tallyStep t (reversalRow 0 p orig)) (residue + left) (reserve - reserveOf orig)
      item' := by
  obtain ⟨honHand, hvalue⟩ := h
  obtain ⟨moved, hwac, hleft⟩ := accepted
  have half_pos := halfUnit_pos 4
  have hvalue := abs_le.mp hvalue
  have after_nonneg := item'.stocks.snapshotTotal_nonneg
  have hrowTotal : (reversalRow 0 p orig).totalPrice = orig.totalPrice :=
    money_of_atScale shape.totalPrice
  have hrowQuantity : (reversalRow 0 p orig).quantity = orig.quantity := rfl
  have hrowDoc : (reversalRow 0 p orig).documentType ≠ .transfer := hdoc
  have htotal : item'.total = item.total - orig.quantity := by
    rw [ItemStock.total, moved.total_eq]
    simp [reversalDirection, htype, StockDirection.type, sub_eq_add_neg]
  have hreserve : reserveOf orig = orig.quantity := by
    simp [reserveOf, live, htype, hdoc]
  simp only [Priced, htype, if_true] at priced
  have hpriced := abs_le.mp priced
  have hmax : max (item.total - orig.quantity) 0 = item'.total := by
    rw [← htotal]
    exact max_eq_left after_nonneg
  rw [tallyStep_reverseIncoming (by simp [reversalRow, htype]) rfl hrowDoc, hreserve,
    hrowTotal, hrowQuantity, honHand, hmax]
  refine ⟨htotal.symm, ?_⟩
  simp only [reversalWac, hdoc, htype, if_true, if_false] at hwac hleft
  by_cases hbranch : 0 < item'.total ∧
      0 ≤ item.total * item.weightedAverageCost - orig.quantity * orig.unitPrice
  · -- the rest of the value is spread over the stock that stays
    rw [if_pos hbranch] at hwac hleft
    have hround := abs_le.mp (abs_money_sub_le
      ((item.total * item.weightedAverageCost - orig.quantity * orig.unitPrice) / item'.total))
    have hspread : item'.total * ((item.total * item.weightedAverageCost -
        orig.quantity * orig.unitPrice) / item'.total) =
        item.total * item.weightedAverageCost - orig.quantity * orig.unitPrice := by
      have := hbranch.1.ne'
      field_simp
    have hstored : item'.weightedAverageCost =
        money ((item.total * item.weightedAverageCost - orig.quantity * orig.unitPrice) /
          item'.total) := by
      rw [hwac]
      simp only [FinancialDecimal.divide, round_four]
      rw [money_of_atScale (atScale_money _), money_of_atScale (atScale_roundHalfUp 4 _)]
      rfl
    have hlow := mul_le_mul_of_nonneg_left hround.1 after_nonneg
    have hhigh := mul_le_mul_of_nonneg_left hround.2 after_nonneg
    rw [mul_sub, hspread, ← hstored] at hlow hhigh
    rw [hleft, abs_le]
    constructor <;> linarith
  · -- no stock, or less value than the row took: the difference is the residue
    rw [if_neg hbranch] at hwac hleft
    have hkeep : item'.weightedAverageCost = item.weightedAverageCost := by
      rw [hwac]
      exact money_of_atScale item.valid.1
    have hmax' : max item'.total 0 = item'.total := max_eq_left after_nonneg
    have hcarry : item'.total * item.weightedAverageCost =
        item.total * item.weightedAverageCost - orig.quantity * item.weightedAverageCost := by
      rw [htotal]
      ring
    have budget_after := mul_nonneg half_pos.le after_nonneg
    rw [hleft, hkeep, hmax', abs_le]
    constructor <;> linarith

/-- Bringing an issue back in averages again, unless it went out at no price. -/
theorem reverseOutgoing_conserved {t : Tally} {residue reserve left : ℚ}
    {item item' : ItemStock} {orig : KardexRow} (p : VoidDocumentParams)
    (shape : WellShaped orig) (priced : Priced orig) (hdoc : orig.documentType ≠ .transfer)
    (htype : orig.type = .outgoing)
    (keeps : orig.unitPrice = 0 → item.weightedAverageCost = 0)
    (accepted : ReversalAccepted item item' orig left) (h : Conserved t residue reserve item) :
    Conserved (tallyStep t (reversalRow 0 p orig)) (residue + left) (reserve - reserveOf orig)
      item' := by
  obtain ⟨honHand, hvalue⟩ := h
  obtain ⟨moved, hwac, hleft⟩ := accepted
  have hq := shape.quantity_pos
  have half_pos := halfUnit_pos 4
  have hvalue := abs_le.mp hvalue
  have stock_nonneg := item.stocks.snapshotTotal_nonneg
  have hrowTotal : (reversalRow 0 p orig).totalPrice = orig.totalPrice :=
    money_of_atScale shape.totalPrice
  have hrowQuantity : (reversalRow 0 p orig).quantity = orig.quantity := rfl
  have hrowDoc : (reversalRow 0 p orig).documentType ≠ .transfer := hdoc
  have htotal : item'.total = item.total + orig.quantity := by
    rw [ItemStock.total, moved.total_eq]
    simp [reversalDirection, htype, StockDirection.type]
  have hreserve : reserveOf orig = 0 := by simp [reserveOf, htype]
  simp only [Priced, htype, reduceCtorEq, if_false, add_zero, mul_one] at priced
  have hpriced := abs_le.mp priced
  simp only [reversalWac, hdoc, htype, if_true, if_false, reduceCtorEq] at hwac hleft
  have haverage : |(item.total + orig.quantity) * item'.weightedAverageCost -
      (item.total * item.weightedAverageCost + orig.quantity * orig.unitPrice)| ≤
      halfUnit 4 * (item.total + orig.quantity) := by
    rw [hwac, money_of_atScale (FinancialMath.atScale_calculateWAC _ _ _ item.valid.1)]
    rcases shape.unitPrice.2.eq_or_lt with hzero | hpos
    · -- goods issued at no cost come back to an item that has none
      rw [FinancialMath.calculateWAC_of_price_nonpos hzero.ge, keeps hzero.symm, ← hzero]
      simp only [mul_zero, add_zero, sub_zero, abs_zero]
      exact mul_nonneg half_pos.le (by linarith)
    · exact FinancialMath.abs_value_calculateWAC_sub_le stock_nonneg hq hpos
  have haverage := abs_le.mp haverage
  have hmax : max (item.total + orig.quantity) 0 = item.total + orig.quantity :=
    max_eq_left (by linarith)
  rw [tallyStep_incoming (by simp [reversalRow, htype]) hrowDoc, hreserve, hrowTotal,
    hrowQuantity, honHand, hmax, hleft]
  refine ⟨htotal.symm, ?_⟩
  rw [htotal, abs_le]
  constructor <;> linarith [mul_pos half_pos hq]

/-- The reversals of a document that is not a transfer, for one item. -/
theorem reverseItem_conserved (p : VoidDocumentParams) {origs : List KardexRow}
    (sound : ∀ orig ∈ origs, WellShaped orig ∧ Priced orig ∧
      (orig.isDeleted = false ∧ orig.reversalOfId = none) ∧ orig.documentType ≠ .transfer)
    {t : Tally} {residue reserve left : ℚ} {item item' : ItemStock}
    (keeps : KeepsValue item origs) (h : Conserved t residue reserve item)
    (hrun : reverseItem item origs = .ok (item', left)) :
    Conserved ((origs.map (reversalRow 0 p)).foldl tallyStep t) (residue + left)
      (reserve - (origs.map reserveOf).sum) item' := by
  induction origs generalizing t residue reserve left item with
  | nil =>
      obtain ⟨rfl, rfl⟩ := reverseItem_nil hrun
      simpa using h
  | cons orig rest ih =>
      obtain ⟨next, r, r', hone, hrest, rfl⟩ := reverseItem_cons hrun
      obtain ⟨shape, priced, live, hdoc⟩ := sound orig List.mem_cons_self
      have accepted := applyStockReversal_ok shape.quantity_atScale hone
      have one : Conserved (tallyStep t (reversalRow 0 p orig)) (residue + r)
          (reserve - reserveOf orig) next := by
        rcases shape.type with htype | htype
        · exact reverseIncoming_conserved p shape priced live hdoc htype accepted h
        · exact reverseOutgoing_conserved p shape priced hdoc htype (keeps.1 htype hdoc)
            accepted h
      have all := ih (fun o ho => sound o (List.mem_cons_of_mem _ ho)) (keeps.2 next r hone) one
        hrest
      simpa [add_assoc, sub_sub] using all

/-! ## A transfer and its void -/

/-- The two rows of a transfer. -/
structure TransferPair (a b : KardexRow) : Prop where
  out : a.type = .outgoing
  into : b.type = .incoming
  itemId : a.itemId = b.itemId
  quantity : a.quantity = b.quantity
  totalPrice : a.totalPrice = b.totalPrice
  transfer : a.documentType = .transfer ∧ b.documentType = .transfer

/-- Two transfer rows of one item cancel, in either order. -/
theorem transferRows_conserved {t : Tally} {residue reserve : ℚ} {item item' : ItemStock}
    {x y : KardexRow} (hx : x.documentType = .transfer) (hy : y.documentType = .transfer)
    (hquantity : signed x.type x.quantity + signed y.type y.quantity = 0)
    (hin : ∀ r, r = x ∨ r = y → r.type = .incoming ∨ r.type = .outgoing)
    (hvalue : x.signedTotal + y.signedTotal = 0) (htotal : item'.total = item.total)
    (hwac : item'.weightedAverageCost = item.weightedAverageCost)
    (h : Conserved t residue reserve item) :
    Conserved (tallyStep (tallyStep t x) y) residue reserve item' := by
  have half_pos := halfUnit_pos 4
  have delta : ∀ r, r = x ∨ r = y →
      (if isInType r.type then r.quantity else -r.quantity) = signed r.type r.quantity := by
    intro r hr
    rcases hin r hr with htype | htype <;> simp [htype, isInType]
  rw [tallyStep_transfer hx, tallyStep_transfer hy, delta x (.inl rfl), delta y (.inr rfl)]
  refine ⟨?_, ?_⟩
  · rw [htotal, ← h.onHand]
    change t.onHand + signed x.type x.quantity + signed y.type y.quantity = t.onHand
    linarith
  · have hold := abs_le.mp h.value
    have same : t.value + x.signedTotal + y.signedTotal - residue -
        item'.total * item'.weightedAverageCost =
        t.value - residue - item.total * item.weightedAverageCost := by
      rw [htotal, hwac]
      linarith
    change |t.value + x.signedTotal + y.signedTotal - residue -
      item'.total * item'.weightedAverageCost| ≤ halfUnit 4 * (t.budget + 2 + 2 - reserve)
    rw [same, abs_le]
    constructor <;> linarith

/-- The void of a transfer moves the goods back and no value. -/
theorem reversePair_conserved (p : VoidDocumentParams) {a b : KardexRow} (pair : TransferPair a b)
    {origs : List KardexRow} (horigs : origs = [a, b] ∨ origs = [b, a])
    (shape : ∀ orig ∈ origs, WellShaped orig) {t : Tally} {residue reserve left : ℚ}
    {item item' : ItemStock} (h : Conserved t residue reserve item)
    (hrun : reverseItem item origs = .ok (item', left)) :
    Conserved ((origs.map (reversalRow 0 p)).foldl tallyStep t) (residue + left) reserve item' := by
  obtain ⟨hout, hinto, -, hquantity, htotal, ha, hb⟩ := pair
  have one : ∀ {x : KardexRow} {i j : ItemStock} {r : ℚ}, WellShaped x →
      x.documentType = .transfer → applyStockReversal i x = .ok (j, r) →
      j.total = i.total + signed (reversalDirection x).type x.quantity ∧
        j.weightedAverageCost = i.weightedAverageCost ∧ r = 0 := by
    intro x i j r hshape hx hone
    obtain ⟨moved, hwac, hr⟩ := applyStockReversal_ok hshape.quantity_atScale hone
    simp only [reversalWac, hx, if_true] at hwac hr
    exact ⟨moved.total_eq, hwac.trans (money_of_atScale i.valid.1), hr⟩
  have rowType : ∀ x : KardexRow,
      (reversalRow 0 p x).type = if x.type = .incoming then .outgoing else .incoming := fun _ => rfl
  have both : ∀ x y : KardexRow, origs = [x, y] → x.documentType = .transfer →
      y.documentType = .transfer → x.quantity = y.quantity → x.totalPrice = y.totalPrice →
      (x.type = .outgoing ∧ y.type = .incoming ∨ x.type = .incoming ∧ y.type = .outgoing) →
      Conserved ((origs.map (reversalRow 0 p)).foldl tallyStep t) (residue + left) reserve
        item' := by
    intro x y hxy hx hy hq htot htypes
    subst hxy
    obtain ⟨i, r, left', hfirst, hrest, rfl⟩ := reverseItem_cons hrun
    obtain ⟨j, r', left'', hsecond, hnil, rfl⟩ := reverseItem_cons hrest
    obtain ⟨rfl, rfl⟩ := reverseItem_nil hnil
    obtain ⟨hi, hiw, rfl⟩ := one (shape x (by simp)) hx hfirst
    obtain ⟨hj, hjw, rfl⟩ := one (shape y (by simp)) hy hsecond
    have hres : residue + (0 + (0 + 0)) = residue := by ring
    rw [hres]
    refine transferRows_conserved hx hy ?_ ?_ ?_ ?_ (hjw.trans hiw) h
    · rcases htypes with ⟨h1, h2⟩ | ⟨h1, h2⟩ <;> simp [h1, h2, reversalRow, hq]
    · rintro r (rfl | rfl) <;> rcases htypes with ⟨h1, h2⟩ | ⟨h1, h2⟩ <;>
        simp [rowType, h1, h2]
    · rcases htypes with ⟨h1, h2⟩ | ⟨h1, h2⟩ <;>
        simp [KardexRow.signedTotal, h1, h2, reversalRow, htot]
    · rw [hj, hi]
      rcases htypes with ⟨h1, h2⟩ | ⟨h1, h2⟩ <;>
        simp [reversalDirection, h1, h2, StockDirection.type, hq]
  rcases horigs with horigs | horigs
  · exact both a b horigs ha hb hquantity htotal (.inl ⟨hout, hinto⟩)
  · exact both b a horigs hb ha hquantity.symm htotal.symm (.inr ⟨hinto, hout⟩)

/-! ## Runs -/

/-- The rows of one document. -/
def rowsOf (rows : List KardexRow) (d : DocumentId) : List KardexRow :=
  rows.filter fun row => decide (row.documentId = some d)

/-- A document either is a transfer with its two rows, or has no transfer row. -/
def DocumentShape (rows : List KardexRow) (d : DocumentId) : Prop :=
  (∀ row ∈ rowsOf rows d, row.documentType ≠ .transfer) ∨
    ∃ a b, rowsOf rows d = [a, b] ∧ TransferPair a b

structure ConservationInvariant (s : StockState) : Prop where
  consistent : KardexConsistent s
  priced : ∀ row ∈ s.rows, row.reversalOfId = none → Priced row
  shaped : ∀ d ∉ s.voidedDocuments, DocumentShape s.rows d
  conserved : ∀ item, Conserved (s.tally item) (s.residueOf item) (s.reserve item) (s.items item)

theorem rowsOf_append (rows new : List KardexRow) (d : DocumentId) :
    rowsOf (rows ++ new) d = rowsOf rows d ++ rowsOf new d := by
  simp [rowsOf]

theorem tally_record (s : StockState) (item : ItemId) (stock : ItemStock) (new : List KardexRow)
    (i : ItemId) : (s.record item stock new).tally i =
      (new.filter fun row => decide (row.itemId = i)).foldl tallyStep (s.tally i) := by
  rw [StockState.tally, StockState.record_kardexOf, List.foldl_append, StockState.tally]

theorem reserve_record (s : StockState) (item : ItemId) (stock : ItemStock)
    (new : List KardexRow) (i : ItemId) : (s.record item stock new).reserve i =
      s.reserve i + ((new.filter fun row => decide (row.itemId = i)).map reserveOf).sum := by
  rw [StockState.reserve, StockState.record_kardexOf, List.map_append, List.sum_append,
    StockState.reserve]

/-- A void releases the reserve of the rows it deletes. -/
theorem reserve_softDeleteRows (rows : List KardexRow) (d : DocumentId) (item : ItemId) :
    (((softDeleteRows d rows).filter fun row => decide (row.itemId = item)).map reserveOf).sum =
      ((rows.filter fun row => decide (row.itemId = item)).map reserveOf).sum -
        (((rowsOf rows d).filter fun row => decide (row.itemId = item)).map reserveOf).sum := by
  induction rows with
  | nil => simp [softDeleteRows, rowsOf]
  | cons row rest ih =>
      have released : reserveOf row.softDelete = 0 := by simp [reserveOf]
      unfold softDeleteRows rowsOf at ih ⊢
      by_cases hd : row.documentId = some d <;> by_cases hi : row.itemId = item <;>
        simp [hd, hi, released, ih]; ring

theorem rowsOf_void {d d' : DocumentId} (hne : d' ≠ d) (rows : List KardexRow) :
    rowsOf (softDeleteRows d rows) d' = rowsOf rows d' := by
  induction rows with
  | nil => rfl
  | cons row rest ih =>
      unfold softDeleteRows rowsOf at ih ⊢
      by_cases hd : row.documentId = some d
      · have : (some d = some d') = False := by simp [hne.symm]
        simp [hd, this, ih]
      · simp [List.filter_cons, hd, ih]

namespace ConservationInvariant

variable {s s' : StockState}

theorem initial (cost : ItemId → OpeningCost) : ConservationInvariant (.initial cost) where
  consistent := .initial cost
  priced := by simp [StockState.initial]
  shaped d _ := .inl (by simp [StockState.initial, rowsOf])
  conserved item := by
    have empty : (StockState.initial cost).kardexOf item = [] := rfl
    have none : (StockState.initial cost).residueOf item = 0 := rfl
    have stock : ((StockState.initial cost).items item).total = 0 :=
      WarehouseStocks.snapshotTotal_empty
    refine ⟨?_, ?_⟩
    · rw [StockState.tally, empty, stock]
      rfl
    · simp [StockState.tally, StockState.reserve, empty, none, stock]

/-- Recording rows of one item leaves the other items as they were. -/
theorem record (h : ConservationInvariant s) {item : ItemId} {stock : ItemStock}
    {new : List KardexRow} (consistent : KardexConsistent (s.record item stock new))
    (own : ∀ row ∈ new, row.itemId = item) (priced : ∀ row ∈ new, Priced row)
    (shaped : ∀ d ∉ s.voidedDocuments, DocumentShape (s.rows ++ new) d)
    (conserved : Conserved (new.foldl tallyStep (s.tally item)) (s.residueOf item)
      (s.reserve item + (new.map reserveOf).sum) stock) :
    ConservationInvariant (s.record item stock new) where
  consistent := consistent
  priced row hrow hrev := by
    rcases List.mem_append.mp hrow with hrow | hrow
    · exact h.priced row hrow hrev
    · exact priced row hrow
  shaped := shaped
  conserved i := by
    rw [tally_record, reserve_record, StockState.record_residueOf]
    by_cases hi : i = item
    · subst hi
      have mine : (new.filter fun row => decide (row.itemId = i)) = new :=
        List.filter_eq_self.mpr fun row hrow => by simp [own row hrow]
      rw [mine, StockState.record_items_self]
      exact conserved
    · have others : (new.filter fun row => decide (row.itemId = i)) = [] := by
        refine List.filter_eq_nil_iff.mpr fun row hrow => ?_
        simpa [own row hrow] using Ne.symm hi
      rw [others, StockState.record_items_of_ne _ _ _ _ hi]
      simpa using h.conserved i

theorem movement (h : ConservationInvariant s) {p : ApplyStockMovementParams} {unitPrice : ℚ}
    {stocks : WarehouseStocks} (accepted : MovementAccepted s s' p unitPrice stocks)
    (consistent : KardexConsistent s') : ConservationInvariant s' := by
  obtain ⟨hprice, -, typed, -, booked, moved, rfl⟩ := accepted
  refine h.record consistent ?_ ?_ ?_ ?_
  · intro row hrow
    rw [List.mem_singleton.mp hrow]
    rfl
  · intro row hrow
    rw [List.mem_singleton.mp hrow]
    exact movementRow_priced _ moved.positive booked
  · intro d hd
    rw [DocumentShape, rowsOf_append]
    by_cases hdoc : p.documentId = some d
    · -- the rows of the document have its type, and a movement's is no transfer
      have same : ∀ row ∈ rowsOf s.rows d, row.documentType = p.documentType := by
        intro row hrow
        obtain ⟨hrow, hrd⟩ := List.mem_filter.mp hrow
        have hrd : row.documentId = some d := by simpa using hrd
        exact typed row hrow (by simp [hrd]) (hrd.trans hdoc.symm)
      left
      intro row hrow
      rcases List.mem_append.mp hrow with hrow | hrow
      · rw [same row hrow]
        exact p.recordable
      · rw [List.mem_singleton.mp (List.mem_of_mem_filter hrow)]
        exact p.recordable
    · have none : rowsOf [movementRow s.nextId p (stockMovementQuantity p.quantity) unitPrice] d =
          [] := by
        simpa [rowsOf, movementRow] using hdoc
      rw [none, List.append_nil]
      exact h.shaped d hd
  · simpa using movement_conserved s.nextId hprice booked moved (h.conserved p.itemId)

theorem transfer (h : ConservationInvariant s) {p : WarehouseTransferParams}
    {taken stocks : WarehouseStocks} (accepted : TransferAccepted s s' p taken stocks)
    (consistent : KardexConsistent s') : ConservationInvariant s' := by
  obtain ⟨hq, -, -, fresh, -, out, into, rfl⟩ := accepted
  have hcost := (s.items p.itemId).valid
  have hstored := money_of_atScale hcost.1
  refine h.record consistent ?_ ?_ ?_ ?_
  · intro row hrow
    simp only [List.mem_cons, List.not_mem_nil, or_false] at hrow
    rcases hrow with rfl | rfl <;> rfl
  · have priced : |money ((s.items p.itemId).weightedAverageCost * p.quantity) -
        p.quantity * (s.items p.itemId).weightedAverageCost| ≤ halfUnit 4 := by
      rw [mul_comm p.quantity]
      exact abs_money_sub_le _
    have half_pos := halfUnit_pos 4
    intro row hrow
    simp only [List.mem_cons, List.not_mem_nil, or_false] at hrow
    rcases hrow with rfl | rfl
    · simpa [Priced, transferRow, StockDirection.type, hstored] using priced
    · refine le_trans (b := halfUnit 4) ?_ ?_
      · simpa [transferRow, hstored] using priced
      · simp only [transferRow, StockDirection.type, if_true]
        linarith [mul_pos half_pos hq]
  · intro d hd
    rw [DocumentShape, rowsOf_append]
    by_cases hdoc : p.documentId = d
    · have unused : rowsOf s.rows d = [] := by
        refine List.filter_eq_nil_iff.mpr fun row hrow => ?_
        simpa [hdoc] using fresh row hrow
      have own : rowsOf
          [transferRow s.nextId p .outgoing p.fromLocation (s.items p.itemId).weightedAverageCost,
            transferRow (s.nextId + 1) p .incoming p.toLocation
              (s.items p.itemId).weightedAverageCost] d =
          [transferRow s.nextId p .outgoing p.fromLocation (s.items p.itemId).weightedAverageCost,
            transferRow (s.nextId + 1) p .incoming p.toLocation
              (s.items p.itemId).weightedAverageCost] := by
        simp [rowsOf, transferRow, hdoc]
      rw [unused, own]
      exact .inr ⟨_, _, rfl, rfl, rfl, rfl, rfl, rfl, rfl, rfl⟩
    · have none : rowsOf
          [transferRow s.nextId p .outgoing p.fromLocation (s.items p.itemId).weightedAverageCost,
            transferRow (s.nextId + 1) p .incoming p.toLocation
              (s.items p.itemId).weightedAverageCost] d = [] := by
        simp [rowsOf, transferRow, hdoc]
      rw [none, List.append_nil]
      exact h.shaped d hd
  · have htotal : stocks.snapshotTotal = (s.items p.itemId).stocks.snapshotTotal := by
      rw [into.total_eq, out.total_eq]
      simp [StockDirection.type]
    have noReserve : ∀ id inOut location, reserveOf (transferRow id p inOut location
        (s.items p.itemId).weightedAverageCost) = 0 := by
      intro id inOut location
      simp [reserveOf, transferRow]
    simp only [List.map_cons, List.map_nil, List.sum_cons, List.sum_nil, noReserve, add_zero]
    refine transferRows_conserved rfl rfl ?_ ?_ ?_ htotal rfl (h.conserved p.itemId)
    · simp [transferRow, StockDirection.type]
    · rintro r (rfl | rfl) <;> simp [transferRow, StockDirection.type]
    · simp [KardexRow.signedTotal, transferRow, StockDirection.type]

theorem void (h : ConservationInvariant s) {p : VoidDocumentParams} {items : ItemId → ItemStock}
    {residues : List (ItemId × ℚ)} (accepted : VoidAccepted s s' p items residues)
    (keeps : VoidKeepsValue s (.void p)) (consistent : KardexConsistent s') :
    ConservationInvariant s' := by
  have positive := h.consistent.originalTxs_positive accepted
  have rows : s'.rows =
      softDeleteRows p.documentId s.rows ++ reversalRows p s.nextId p.originalTxs := by
    rw [accepted.result]
  have hmem : ∀ {row : KardexRow}, row ∈ p.originalTxs ↔
      row ∈ s.rows ∧ row.documentId = some p.documentId :=
    h.consistent.mem_originalTxs accepted.live accepted.original
  have document : p.originalTxs.Perm (rowsOf s.rows p.documentId) := by
    have same : rowsOf s.rows p.documentId = s.rows.filter fun t =>
        decide (t.documentId = some p.documentId) && !t.isDeleted := by
      refine List.filter_congr fun row hrow => ?_
      by_cases hd : row.documentId = some p.documentId
      · simp [hd, (h.consistent.of_live hrow hd accepted.live).1]
      · simp [hd]
    rw [same]
    exact accepted.original
  refine ⟨consistent, ?_, ?_, ?_⟩
  · intro row hrow hrev
    rw [rows] at hrow
    rcases List.mem_append.mp hrow with hrow | hrow
    · rcases KardexConsistent.mem_softDeleteRows.mp hrow with ⟨r, hr, -, rfl⟩ | ⟨hr, -⟩
      · exact h.priced r hr hrev
      · exact h.priced row hr hrev
    · obtain ⟨orig, -, id, -, -, rfl⟩ := mem_reversalRows hrow
      simp [reversalRow] at hrev
  · intro d hd
    rw [accepted.result] at hd
    have hne : d ≠ p.documentId := fun heq => hd (heq ▸ List.mem_cons_self)
    have hold : d ∉ s.voidedDocuments := fun hmem => hd (List.mem_cons_of_mem _ hmem)
    have reversals : rowsOf (reversalRows p s.nextId p.originalTxs) d = [] := by
      refine List.filter_eq_nil_iff.mpr fun row hrow => ?_
      obtain ⟨orig, -, id, -, -, rfl⟩ := mem_reversalRows hrow
      simpa [reversalRow] using Ne.symm hne
    rw [rows, DocumentShape, rowsOf_append, rowsOf_void hne, reversals, List.append_nil]
    exact h.shaped d hold
  · intro item
    have tallied : s'.tally item =
        ((p.originalTxs.filter fun row => decide (row.itemId = item)).map
          (reversalRow 0 p)).foldl tallyStep (s.tally item) := by
      rw [StockState.tally, ← foldl_tallyStep_core, h.consistent.void_kardexOf accepted,
        List.foldl_append, foldl_tallyStep_core, StockState.tally]
    have released : s'.reserve item = s.reserve item -
        ((p.originalTxs.filter fun row => decide (row.itemId = item)).map reserveOf).sum := by
      have reversals : ((reversalRows p s.nextId p.originalTxs).filter fun row =>
          decide (row.itemId = item)).map reserveOf = List.replicate
            ((reversalRows p s.nextId p.originalTxs).filter fun row =>
              decide (row.itemId = item)).length 0 := by
        refine List.eq_replicate_iff.mpr ⟨by simp, fun x hx => ?_⟩
        obtain ⟨row, hrow, rfl⟩ := List.mem_map.mp hx
        obtain ⟨orig, -, id, -, -, rfl⟩ := mem_reversalRows (List.mem_of_mem_filter hrow)
        simp [reserveOf, reversalRow]
      have own := ((document.filter fun row => decide (row.itemId = item)).map reserveOf).sum_eq
      rw [StockState.reserve, StockState.kardexOf, rows, List.filter_append, List.map_append,
        List.sum_append, reserve_softDeleteRows, reversals, List.sum_replicate, smul_zero,
        add_zero, own]
      rfl
    have residue : s'.residueOf item = s.residueOf item +
        ((residues.filter fun r => decide (r.1 = item)).map Prod.snd).sum := by
      rw [accepted.result]
      simp [StockState.residueOf]
    have after : s'.items item = items item := by rw [accepted.result]
    have hrun := applyReversals_item positive accepted.reversed item
    have sound : ∀ orig ∈ p.originalTxs.filter fun row => decide (row.itemId = item),
        WellShaped orig ∧ Priced orig ∧
          (orig.isDeleted = false ∧ orig.reversalOfId = none) := by
      intro orig horig
      obtain ⟨hrow, hd⟩ := hmem.mp (List.mem_of_mem_filter horig)
      have live := h.consistent.of_live hrow hd accepted.live
      exact ⟨h.consistent.shape orig hrow, h.priced orig hrow live.2, live⟩
    rw [tallied, released, residue, after]
    rcases h.shaped p.documentId accepted.live with ordinary | ⟨a, b, hab, pair⟩
    · refine reverseItem_conserved p (fun orig horig => ?_) (keeps item) (h.conserved item) hrun
      obtain ⟨shape, priced, live⟩ := sound orig horig
      exact ⟨shape, priced, live,
        ordinary orig (document.mem_iff.mp (List.mem_of_mem_filter horig))⟩
    · rw [hab] at document
      have either := List.perm_pair.mp document
      have noReserve : ∀ r, r.documentType = .transfer → reserveOf r = 0 := by
        intro r hr
        simp [reserveOf, hr]
      by_cases hi : a.itemId = item
      · have horigs : (p.originalTxs.filter fun row => decide (row.itemId = item)) = [a, b] ∨
            (p.originalTxs.filter fun row => decide (row.itemId = item)) = [b, a] := by
          have hb : b.itemId = item := pair.itemId ▸ hi
          rcases either with heq | heq <;> simp [heq, hi, hb]
        have zero : ((p.originalTxs.filter fun row => decide (row.itemId = item)).map
            reserveOf).sum = 0 := by
          rcases horigs with heq | heq <;>
            simp [heq, noReserve a pair.transfer.1, noReserve b pair.transfer.2]
        rw [zero, sub_zero]
        exact reversePair_conserved p pair horigs (fun o ho => (sound o ho).1) (h.conserved item)
          hrun
      · have none : (p.originalTxs.filter fun row => decide (row.itemId = item)) = [] := by
          have hb : b.itemId ≠ item := pair.itemId ▸ hi
          rcases either with heq | heq <;> simp [heq, hi, hb]
        rw [none] at hrun ⊢
        obtain ⟨hsame, hzero⟩ := reverseItem_nil hrun
        rw [hsame, hzero]
        simpa using h.conserved item

theorem step (h : ConservationInvariant s) {op : StockOperation} (keeps : VoidKeepsValue s op)
    (hstep : stockStep s op = .ok s') : ConservationInvariant s' := by
  have consistent := h.consistent.step hstep
  cases op with
  | movement p =>
      obtain ⟨_, _, accepted⟩ := applyStockMovement_ok hstep
      exact h.movement accepted consistent
  | transfer p =>
      obtain ⟨_, _, accepted⟩ := executeWarehouseTransfer_ok hstep
      exact h.transfer accepted consistent
  | void p =>
      obtain ⟨_, _, accepted⟩ := deleteDocument_ok hstep
      exact h.void accepted keeps consistent

end ConservationInvariant

theorem foldl_tallyStep (rows : List KardexRow) (t : Tally) :
    (rows.foldl tallyStep t).toAllowanceWalk = rows.foldl allowanceStep t.toAllowanceWalk ∧
      (rows.foldl tallyStep t).value = t.value + (rows.map KardexRow.signedTotal).sum := by
  induction rows generalizing t with
  | nil => simp
  | cons row rest ih =>
      obtain ⟨hwalk, hvalue⟩ := ih (tallyStep t row)
      rw [List.foldl_cons, List.foldl_cons, hwalk, hvalue]
      refine ⟨rfl, ?_⟩
      simp [tallyStep, add_assoc]

/-- Every row of a consistent table is part of the history the health check
reads. -/
theorem KardexConsistent.historyRows_eq {s : StockState} (h : KardexConsistent s) (item : ItemId) :
    historyRows (s.kardexOf item) = s.kardexOf item := by
  refine List.filter_eq_self.mpr fun row hrow => ?_
  cases hdel : row.isDeleted with
  | false => rfl
  | true => simpa using ((h.settled hrow).deleted hdel).2

/-- After every run whose voids bring nothing back at no price, the rows and the
residues differ from the stock's value by at most the rounding allowance. -/
theorem inventory_value_conserved (cost : ItemId → OpeningCost) (ops : List StockOperation)
    (keeps : Along stockStep VoidKeepsValue (.initial cost) ops) (item : ItemId) :
    let s := runStock (.initial cost) ops
    |s.ledgerValue item - s.residueOf item -
        (s.items item).total * (s.items item).weightedAverageCost| ≤
      inventoryRoundingAllowance (s.kardexOf item) := by
  have h : ConservationInvariant (runStock (.initial cost) ops) :=
    run_invariant_along (fun _ _ _ hs hc hstep => hs.step hc hstep) (.initial cost) keeps
  obtain ⟨hwalk, hvalue⟩ :=
    foldl_tallyStep ((runStock (.initial cost) ops).kardexOf item) ⟨⟨0, 0⟩, 0⟩
  have reserve_nonneg : 0 ≤ (runStock (.initial cost) ops).reserve item := by
    refine List.sum_nonneg fun x hx => ?_
    obtain ⟨row, hrow, rfl⟩ := List.mem_map.mp hx
    have := (h.consistent.shape row (KardexConsistent.mem_kardexOf.mp hrow).1).quantity_pos
    unfold reserveOf
    split
    · exact this.le
    · exact le_rfl
  have hledger : (runStock (.initial cost) ops).ledgerValue item =
      ((runStock (.initial cost) ops).tally item).value := by
    rw [StockState.tally, hvalue, StockState.ledgerValue, zero_add]
  have hallowance : inventoryRoundingAllowance ((runStock (.initial cost) ops).kardexOf item) =
      halfUnit 4 * ((runStock (.initial cost) ops).tally item).budget := by
    have hunit : HALF_UNIT_4DP = halfUnit 4 := by norm_num [HALF_UNIT_4DP, halfUnit]
    rw [inventoryRoundingAllowance, h.consistent.historyRows_eq,
      sortById_of_sorted (h.consistent.kardexOf_sorted item), hunit, StockState.tally, ← hwalk]
  dsimp only
  rw [hledger, hallowance]
  refine (h.conserved item).value.trans ?_
  exact mul_le_mul_of_nonneg_left (by linarith) (halfUnit_pos 4).le

/-- The row of a receipt of seven units at 99. -/
def secondReceiptRow : KardexRow where
  id := 2
  itemId := 1
  documentId := some 2
  type := .incoming
  quantity := 7
  unitPrice := 99
  totalPrice := 693
  day := 0
  documentType := .receipt
  documentRef := "R-2"
  location := 1
  reversalOfId := none
  isDeleted := false

theorem value_conserved_by_voided_receipt :
    let s := runStock (.initial noCost)
      [receiptOf 1 2 103 "R-1", receiptOf 2 7 99 "R-2", voidOf 2 [secondReceiptRow]]
    s.voidedDocuments = [2] ∧ |s.ledgerValue 1 - s.residueOf 1 -
      (s.items 1).total * (s.items 1).weightedAverageCost| ≤
        inventoryRoundingAllowance (s.kardexOf 1) := by
  refine ⟨by decide +kernel, inventory_value_conserved noCost _ (along_of_forall ?_ _) 1⟩
  intro s op hop
  simp only [List.mem_cons, List.not_mem_nil, or_false] at hop
  rcases hop with rfl | rfl | rfl
  · trivial
  · trivial
  · intro item
    by_cases hi : secondReceiptRow.itemId = item
    · simp only [List.filter_cons, hi, decide_true, if_true, List.filter_nil]
      exact ⟨by simp [secondReceiptRow], fun _ _ _ => trivial⟩
    · simp only [List.filter_cons, hi, decide_false, Bool.false_eq_true, if_false,
        List.filter_nil]
      trivial

/-- The row of a stock count shortage booked while the item had no cost. -/
def freeShortageRow : KardexRow where
  id := 2
  itemId := 1
  documentId := some 2
  type := .outgoing
  quantity := 5
  unitPrice := 0
  totalPrice := 0
  day := 0
  documentType := .audit
  documentRef := "C"
  location := 1
  reversalOfId := none
  isDeleted := false

/-- Ten units counted in and five counted out while the item had no cost, then
five bought at 100, then the shortage voided: its goods come back at the average
of 50 while its reversal row is worth nothing and leaves no residue. -/
theorem value_lost_by_voided_free_issue :
    let s := runStock (.initial noCost)
      [countOf .incoming 1 10, countOf .outgoing 2 5, receiptOf 3 5 100 "R-3",
        voidOf 2 [freeShortageRow]]
    s.ledgerValue 1 - s.residueOf 1 = 500 ∧
      (s.items 1).total * (s.items 1).weightedAverageCost = 750 ∧
      inventoryRoundingAllowance (s.kardexOf 1) < 1 := by
  decide +kernel

end PapitalErp
