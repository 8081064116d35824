import PapitalErp.Documents.KardexConsistency

/-!
# The replay and the engine

The engine keeps the stock and the average cost of an item up to date one
operation at a time; the replay recomputes both from the stored rows. They
agree after every run in which the price a receipt averages with is the price
its row keeps, and in which no receipt is read as a quantity-only row.

The engine averages with the price as it was sent, the row keeps four decimals
of it, and the replay takes any incoming row whose reference starts with `REV-`
for an old reversal. The counterexamples below are one run of each kind.
-/

namespace PapitalErp

open Rounding Transition DocumentStockEngine KardexReplay

/-- `netLineUnitPrice`: the price of an incoming line after its discount. -/
def netLineUnitPrice (unitPrice quantity discount : ℚ) : ℚ :=
  if ¬0 < quantity ∨ discount = 0 then unitPrice
  else
    let net := quantity * unitPrice - discount
    if net < 0 then 0 else FinancialDecimal.divide net quantity 12

/-- What the replay computes for an item, row by row. -/
def StockState.valuation (s : StockState) (item : ItemId) : Valuation :=
  (s.kardexOf item).foldl rowEffect ⟨0, 0⟩

/-- The replay's running result is the item's stock and average cost. -/
structure Agrees (v : Valuation) (item : ItemStock) : Prop where
  balance : v.balance = item.total
  wac : v.wac = item.weightedAverageCost

/-- The receipts whose row says what the engine did. -/
def Replayable : StockState → StockOperation → Prop
  | _, .movement p => p.inOut = .incoming →
      AtScale 4 p.price ∧ isReversalRef p.documentRef = false
  | _, .transfer _ => True
  | _, .void _ => True

/-! ## One row -/

theorem foldl_rowEffect_core (rows : List KardexRow) (v : Valuation) :
    (rows.map KardexRow.core).foldl rowEffect v = rows.foldl rowEffect v := by
  rw [List.foldl_map]
  rfl

theorem rowEffect_outgoing {v : Valuation} {row : KardexRow} (htype : row.type = .outgoing)
    (hrev : row.reversalOfId = none) :
    rowEffect v row = ⟨v.balance - row.quantity, v.wac⟩ := by
  simp [rowEffect, applyMovement, htype, hrev, isInType]

theorem rowEffect_transfer {v : Valuation} {row : KardexRow} (h : row.documentType = .transfer) :
    rowEffect v row =
      ⟨if isInType row.type then v.balance + row.quantity else v.balance - row.quantity,
        v.wac⟩ := by
  unfold rowEffect applyMovement
  simp only [h, ne_eq, not_true_eq_false, decide_false, Bool.and_false, Bool.false_eq_true,
    if_false, decide_true, Bool.or_true, if_true]
  split <;> rfl

theorem rowEffect_receipt {v : Valuation} {row : KardexRow} (htype : row.type = .incoming)
    (hrev : row.reversalOfId = none) (href : isReversalRef row.documentRef = false)
    (hdoc : row.documentType ≠ .transfer) :
    rowEffect v row = ⟨v.balance + row.quantity,
      FinancialMath.calculateWAC v.balance v.wac row.quantity row.unitPrice⟩ := by
  simp [rowEffect, applyMovement, htype, hrev, href, hdoc, isInType]

theorem rowEffect_reverseIncoming {v : Valuation} {row : KardexRow}
    (htype : row.type = .outgoing) (hrev : row.reversalOfId.isSome)
    (hdoc : row.documentType ≠ .transfer) :
    rowEffect v row =
      ⟨v.balance - row.quantity, reverseIncoming v row.quantity row.unitPrice⟩ := by
  simp [rowEffect, applyReversal, htype, hrev, hdoc, isInType]

theorem rowEffect_reverseOutgoing {v : Valuation} {row : KardexRow}
    (htype : row.type = .incoming) (hrev : row.reversalOfId.isSome)
    (hdoc : row.documentType ≠ .transfer) :
    rowEffect v row = ⟨v.balance + row.quantity,
      FinancialMath.calculateWAC v.balance v.wac row.quantity row.unitPrice⟩ := by
  simp [rowEffect, applyReversal, htype, hrev, hdoc, isInType]

/-- A receipt at a four-decimal price: the row's price and the sent price give
the same average. -/
theorem receipt_agrees {v : Valuation} {item : ItemStock} {p : ApplyStockMovementParams}
    {unitPrice : ℚ} (hin : p.inOut = .incoming) (hq : 0 < stockMovementQuantity p.quantity)
    (hprice : 0 ≤ p.price) (hscale : AtScale 4 p.price)
    (booked : movementUnitPrice item.weightedAverageCost p = .ok unitPrice)
    (hbalance : v.balance = item.total)
    (hwac : v.wac = item.weightedAverageCost ∨ v.wac = 0 ∧ item.total = 0) :
    FinancialMath.calculateWAC v.balance v.wac (stockMovementQuantity p.quantity)
        (money unitPrice) =
      money (movementWac item p (stockMovementQuantity p.quantity)) := by
  have live : movementWac item p (stockMovementQuantity p.quantity) =
      FinancialMath.calculateWAC item.total item.weightedAverageCost
        (stockMovementQuantity p.quantity) p.price := by
    simp [movementWac, hin]
  have column := money_of_atScale (FinancialMath.atScale_calculateWAC item.total
    (stockMovementQuantity p.quantity) p.price item.valid.1)
  rw [live, column, hbalance]
  simp only [movementUnitPrice, hin] at booked
  by_cases hpos : 0 < p.price
  · -- the row keeps the sent price
    rw [if_neg (by simp [hpos])] at booked
    cases booked
    rw [money_of_atScale hscale]
    rcases hwac with hwac | ⟨-, hempty⟩
    · rw [hwac]
    · rw [FinancialMath.calculateWAC_of_stock_nonpos hq hpos hempty.le,
        FinancialMath.calculateWAC_of_stock_nonpos hq hpos hempty.le]
  · have hzero : p.price = 0 := le_antisymm (le_of_not_gt hpos) hprice
    rw [hzero, FinancialMath.calculateWAC_of_price_nonpos le_rfl]
    by_cases hcost : 0 < item.weightedAverageCost
    · -- the row is booked at the average, which the average does not notice
      rw [if_pos ⟨hpos, hcost⟩] at booked
      cases booked
      rw [money_of_atScale item.valid.1]
      rcases hwac with hwac | ⟨-, hempty⟩
      · rw [hwac]
        exact FinancialMath.calculateWAC_at_average item.valid.1 hq hcost
      · rw [FinancialMath.calculateWAC_of_stock_nonpos hq hcost hempty.le,
          money_of_atScale item.valid.1]
    · have hfree : item.weightedAverageCost = 0 :=
        le_antisymm (le_of_not_gt hcost) item.valid.2
      rw [if_neg (by simp [hcost])] at booked
      cases booked
      rw [hzero, money_zero, FinancialMath.calculateWAC_of_price_nonpos le_rfl, hfree]
      rcases hwac with hwac | ⟨hwac, -⟩
      · rw [hwac, hfree]
      · exact hwac

/-- A reversal row replays as the engine's reversal. -/
theorem reversal_agrees {v : Valuation} {item item' : ItemStock} {orig : KardexRow} {residue : ℚ}
    (p : VoidDocumentParams) (shape : WellShaped orig)
    (accepted : ReversalAccepted item item' orig residue) (h : Agrees v item) :
    Agrees (rowEffect v (reversalRow 0 p orig)) item' := by
  obtain ⟨moved, hwac, -⟩ := accepted
  have htotal : item'.total = v.balance + signed (reversalDirection orig).type orig.quantity := by
    rw [ItemStock.total, moved.total_eq, h.balance]
  have hprice : (reversalRow 0 p orig).unitPrice = orig.unitPrice :=
    money_of_atScale shape.unitPrice.1
  have hkeep : money item.weightedAverageCost = item.weightedAverageCost :=
    money_of_atScale item.valid.1
  by_cases htransfer : orig.documentType = .transfer
  · have hdoc : (reversalRow 0 p orig).documentType = .transfer := htransfer
    rw [rowEffect_transfer hdoc]
    simp only [reversalWac, htransfer, if_true, hkeep] at hwac
    refine ⟨?_, h.wac.trans hwac.symm⟩
    rw [htotal]
    rcases shape.type with htype | htype <;>
      simp [reversalRow, reversalDirection, htype, isInType, StockDirection.type, sub_eq_add_neg]
  · have hdoc : (reversalRow 0 p orig).documentType ≠ .transfer := htransfer
    rcases shape.type with htype | htype
    · have hafter : item'.total = v.balance - orig.quantity := by
        simp [htotal, reversalDirection, htype, StockDirection.type, sub_eq_add_neg]
      have hrev : (reversalRow 0 p orig).type = .outgoing := by simp [reversalRow, htype]
      rw [rowEffect_reverseIncoming hrev rfl hdoc, hprice]
      refine ⟨hafter.symm, ?_⟩
      simp only [hwac, reversalWac, htransfer, htype, if_true, if_false, ← h.balance, ← h.wac,
        hafter]
      change reverseIncoming v orig.quantity orig.unitPrice = _
      unfold reverseIncoming
      dsimp only
      split
      · exact (roundHalfUp_roundHalfUp 4 _).symm
      · rw [h.wac, hkeep]
    · have hafter : item'.total = v.balance + orig.quantity := by
        simp [htotal, reversalDirection, htype, StockDirection.type]
      have hrev : (reversalRow 0 p orig).type = .incoming := by simp [reversalRow, htype]
      rw [rowEffect_reverseOutgoing hrev rfl hdoc, hprice]
      refine ⟨hafter.symm, ?_⟩
      simp only [hwac, reversalWac, htransfer, htype, if_true, if_false, reduceCtorEq, h.balance,
        h.wac]
      exact (money_of_atScale (FinancialMath.atScale_calculateWAC _ _ _ item.valid.1)).symm

/-- The reversals of a whole document, for one item. -/
theorem reverseItem_agrees (p : VoidDocumentParams) {origs : List KardexRow}
    (shape : ∀ orig ∈ origs, WellShaped orig) {v : Valuation} {item item' : ItemStock}
    {residue : ℚ} (h : Agrees v item) (hrun : reverseItem item origs = .ok (item', residue)) :
    Agrees ((origs.map (reversalRow 0 p)).foldl rowEffect v) item' := by
  induction origs generalizing v item residue with
  | nil =>
      rw [(reverseItem_nil hrun).1]
      exact h
  | cons orig rest ih =>
      obtain ⟨next, r, _, hone, hrest, -⟩ := reverseItem_cons hrun
      have hshape := shape orig List.mem_cons_self
      rw [List.map_cons, List.foldl_cons]
      exact ih (fun o ho => shape o (List.mem_cons_of_mem _ ho))
        (reversal_agrees p hshape (applyStockReversal_ok hshape.quantity_atScale hone) h) hrest

/-! ## Runs -/

/-- The replay of every item's rows is the item's stock and, once it has a row,
its average cost. -/
structure ReplayInvariant (s : StockState) : Prop where
  consistent : KardexConsistent s
  balance : ∀ item, (s.valuation item).balance = (s.items item).total
  wac : ∀ item, (s.valuation item).wac = (s.items item).weightedAverageCost ∨
    s.kardexOf item = []

namespace ReplayInvariant

variable {s s' : StockState}

theorem initial (cost : ItemId → OpeningCost) : ReplayInvariant (.initial cost) where
  consistent := .initial cost
  balance _ := WarehouseStocks.snapshotTotal_empty.symm
  wac _ := .inr rfl

/-- Before its first row an item has no stock, so nothing can leave it. -/
theorem wac_of_outgoing (h : ReplayInvariant s) {item : ItemId} {stocks : WarehouseStocks}
    {warehouse : WarehouseId} {qty : ℚ}
    (moved : ItemWarehouseStockService.Moved (s.items item).stocks stocks warehouse .outgoing qty) :
    (s.valuation item).wac = (s.items item).weightedAverageCost := by
  rcases h.wac item with hwac | hempty
  · exact hwac
  · have hzero : (s.items item).stocks.snapshotTotal = 0 := by
      rw [← ItemStock.total, ← h.balance, StockState.valuation, hempty]
      rfl
    have hafter : stocks.snapshotTotal = -qty := by
      rw [moved.total_eq, hzero]
      simp [StockDirection.type]
    have := stocks.snapshotTotal_nonneg
    have := moved.positive
    linarith

theorem valuation_record (s : StockState) (item : ItemId) (stock : ItemStock)
    (new : List KardexRow) (i : ItemId) :
    (s.record item stock new).valuation i =
      (new.filter fun row => decide (row.itemId = i)).foldl rowEffect (s.valuation i) := by
  rw [StockState.valuation, StockState.record_kardexOf, List.foldl_append, StockState.valuation]

/-- Rows of one item that the replay reads as the engine's result keep the
invariant; the other items are not touched. -/
theorem record (h : ReplayInvariant s) {item : ItemId} {stock : ItemStock}
    {new : List KardexRow} (consistent : KardexConsistent (s.record item stock new))
    (own : ∀ row ∈ new, row.itemId = item)
    (agrees : Agrees (new.foldl rowEffect (s.valuation item)) stock) :
    ReplayInvariant (s.record item stock new) := by
  have mine : (new.filter fun row => decide (row.itemId = item)) = new :=
    List.filter_eq_self.mpr fun row hrow => by simp [own row hrow]
  have others : ∀ i, i ≠ item → (new.filter fun row => decide (row.itemId = i)) = [] := by
    intro i hi
    refine List.filter_eq_nil_iff.mpr fun row hrow => ?_
    simpa [own row hrow] using hi.symm
  refine ⟨consistent, fun i => ?_, fun i => ?_⟩
  · rw [valuation_record]
    by_cases hi : i = item
    · subst hi
      rw [mine, agrees.balance, StockState.record_items_self]
    · rw [others i hi, StockState.record_items_of_ne _ _ _ _ hi]
      exact h.balance i
  · rw [valuation_record, StockState.record_kardexOf]
    by_cases hi : i = item
    · subst hi
      rw [mine, agrees.wac, StockState.record_items_self]
      exact .inl rfl
    · rw [others i hi, StockState.record_items_of_ne _ _ _ _ hi, List.append_nil]
      exact h.wac i

theorem movement (h : ReplayInvariant s) {p : ApplyStockMovementParams} {unitPrice : ℚ}
    {stocks : WarehouseStocks} (accepted : MovementAccepted s s' p unitPrice stocks)
    (consistent : KardexConsistent s') (replayable : Replayable s (.movement p)) :
    ReplayInvariant s' := by
  obtain ⟨hprice, -, -, -, booked, moved, rfl⟩ := accepted
  refine h.record consistent ?_ ?_
  · intro row hrow
    rw [List.mem_singleton.mp hrow]
    rfl
  · have htotal : stocks.snapshotTotal = (s.valuation p.itemId).balance +
        signed p.inOut.type (stockMovementQuantity p.quantity) := by
      rw [h.balance]
      exact moved.total_eq
    rw [List.foldl_cons, List.foldl_nil]
    cases hdir : p.inOut with
    | outgoing =>
        rw [hdir] at moved htotal
        rw [rowEffect_outgoing (by simp [movementRow, hdir, StockDirection.type]) rfl]
        refine ⟨?_, ?_⟩
        · simp [movedStock, htotal, movementRow, StockDirection.type, sub_eq_add_neg]
        · simp only [movedStock, movementWac, hdir, h.wac_of_outgoing moved]
          exact (money_of_atScale (s.items p.itemId).valid.1).symm
    | incoming =>
        obtain ⟨hscale, href⟩ := replayable hdir
        rw [hdir] at htotal
        rw [rowEffect_receipt (by simp [movementRow, hdir, StockDirection.type]) rfl href
          p.recordable]
        refine ⟨?_, ?_⟩
        · simp [movedStock, htotal, movementRow, StockDirection.type]
        · refine receipt_agrees hdir moved.positive hprice hscale booked (h.balance _) ?_
          refine (h.wac p.itemId).imp_right fun hempty => ?_
          rw [← h.balance, StockState.valuation, hempty]
          exact ⟨rfl, rfl⟩

theorem transfer (h : ReplayInvariant s) {p : WarehouseTransferParams}
    {taken stocks : WarehouseStocks} (accepted : TransferAccepted s s' p taken stocks)
    (consistent : KardexConsistent s') : ReplayInvariant s' := by
  obtain ⟨-, -, -, -, -, out, into, rfl⟩ := accepted
  refine h.record consistent ?_ ?_
  · intro row hrow
    simp only [List.mem_cons, List.not_mem_nil, or_false] at hrow
    rcases hrow with rfl | rfl <;> rfl
  · rw [List.foldl_cons, List.foldl_cons, List.foldl_nil, rowEffect_transfer rfl,
      rowEffect_transfer rfl]
    refine ⟨?_, h.wac_of_outgoing out⟩
    have htotal : stocks.snapshotTotal = (s.items p.itemId).stocks.snapshotTotal := by
      rw [into.total_eq, out.total_eq]
      simp [StockDirection.type]
    simp [transferRow, StockDirection.type, isInType, h.balance, htotal]

theorem void (h : ReplayInvariant s) {p : VoidDocumentParams} {items : ItemId → ItemStock}
    {residues : List (ItemId × ℚ)} (accepted : VoidAccepted s s' p items residues)
    (consistent : KardexConsistent s') : ReplayInvariant s' := by
  have agreed : ∀ item, Agrees (s'.valuation item) (s'.items item) ∨ s'.kardexOf item = [] ∧
      s'.items item = s.items item := by
    intro item
    have replayed : s'.valuation item =
        ((p.originalTxs.filter fun row => decide (row.itemId = item)).map
          (reversalRow 0 p)).foldl rowEffect (s.valuation item) := by
      rw [StockState.valuation, ← foldl_rowEffect_core, h.consistent.void_kardexOf accepted,
        List.foldl_append, foldl_rowEffect_core, StockState.valuation]
    have hrun := applyReversals_item (h.consistent.originalTxs_positive accepted)
      accepted.reversed item
    have shape : ∀ orig ∈ p.originalTxs.filter fun row => decide (row.itemId = item),
        WellShaped orig ∧ orig ∈ s.kardexOf item := by
      intro orig horig
      obtain ⟨horig, hitem⟩ := List.mem_filter.mp horig
      have hmem :=
        ((h.consistent.mem_originalTxs accepted.live accepted.original).mp horig).1
      exact ⟨h.consistent.shape orig hmem,
        KardexConsistent.mem_kardexOf.mpr ⟨hmem, by simpa using hitem⟩⟩
    have after : s'.items item = items item := by rw [accepted.result]
    rcases h.wac item with hwac | hempty
    · left
      rw [replayed, after]
      exact reverseItem_agrees p (fun o ho => (shape o ho).1) ⟨h.balance item, hwac⟩ hrun
    · right
      have none : (p.originalTxs.filter fun row => decide (row.itemId = item)) = [] := by
        refine List.eq_nil_iff_forall_not_mem.mpr fun o ho => ?_
        simpa [hempty] using (shape o ho).2
      have rows := h.consistent.void_kardexOf accepted item
      rw [none, hempty] at rows
      rw [none] at hrun
      exact ⟨by simpa using rows, after.trans (reverseItem_nil hrun).1⟩
  refine ⟨consistent, fun item => ?_, fun item => ?_⟩
  · rcases agreed item with h' | ⟨hempty, hsame⟩
    · exact h'.balance
    · have untouched : s.kardexOf item = [] := by
        have rows := h.consistent.void_kardexOf accepted item
        rw [hempty] at rows
        simpa using (List.append_eq_nil_iff.mp rows.symm).1
      rw [StockState.valuation, hempty, hsame, ← h.balance, StockState.valuation, untouched]
  · exact (agreed item).imp (fun h' => h'.wac) fun h' => h'.1

theorem step (h : ReplayInvariant s) {op : StockOperation} (replayable : Replayable s op)
    (hstep : stockStep s op = .ok s') : ReplayInvariant s' := by
  have consistent := h.consistent.step hstep
  cases op with
  | movement p =>
      obtain ⟨_, _, accepted⟩ := applyStockMovement_ok hstep
      exact h.movement accepted consistent replayable
  | transfer p =>
      obtain ⟨_, _, accepted⟩ := executeWarehouseTransfer_ok hstep
      exact h.transfer accepted consistent
  | void p =>
      obtain ⟨_, _, accepted⟩ := deleteDocument_ok hstep
      exact h.void accepted consistent

end ReplayInvariant

/-- After every run whose receipts keep the price they average with, the replay
of an item's stored rows returns the item's live stock and live average cost. -/
theorem replay_agrees_with_engine (cost : ItemId → OpeningCost) (ops : List StockOperation)
    (replayable : Along stockStep Replayable (.initial cost) ops) (item : ItemId) :
    let s := runStock (.initial cost) ops
    let replay := replayKardexWac (s.kardexOf item) (s.items item).weightedAverageCost
    replay.balance = (s.items item).total ∧
      replay.wac = (s.items item).weightedAverageCost := by
  have h : ReplayInvariant (runStock (.initial cost) ops) :=
    run_invariant_along (fun _ _ _ hs hc hstep => hs.step hc hstep) (.initial cost) replayable
  obtain ⟨hbalance, hwac⟩ := replayKardexWac_eq (h.consistent.kardexOf_sorted item)
    (fun row hrow => h.consistent.settled hrow)
    ((runStock (.initial cost) ops).items item).weightedAverageCost
  refine ⟨hbalance.trans (h.balance item), ?_⟩
  rw [hwac]
  split
  · rfl
  · rename_i hpos
    refine (h.wac item).resolve_right fun hempty => hpos ?_
    rw [hempty]
    exact le_rfl

/-! ## Two receipts the replay reads otherwise -/

theorem replay_agrees_after_two_receipts :
    let s := runStock (.initial noCost) [receiptOf 1 2 103 "R-1", receiptOf 2 7 99 "R-2"]
    let replay := replayKardexWac (s.kardexOf 1) (s.items 1).weightedAverageCost
    replay.balance = (s.items 1).total ∧ replay.wac = (s.items 1).weightedAverageCost :=
  replay_agrees_with_engine noCost _ (along_of_forall (fun _ op hop => by
    simp only [List.mem_cons, List.not_mem_nil, or_false] at hop
    rcases hop with rfl | rfl <;>
      exact fun _ => ⟨by decide +kernel, by decide +kernel⟩) _) 1

/-- Seven units at 100 less a discount of 1: the row keeps 99.8571, the engine
averages with twelve decimals, and the averages part. A receipt numbered by hand
`REV-7` parts them without any rounding. -/
theorem replay_differs_from_engine :
    let discounted := runStock (.initial noCost)
      [receiptOf 1 2 103 "R-1", receiptOf 2 7 (netLineUnitPrice 100 7 1) "R-2"]
    let renumbered := runStock (.initial noCost)
      [receiptOf 1 1 100 "R-1", receiptOf 2 1 200 "REV-7"]
    let replayed (s : StockState) : ℚ :=
      (replayKardexWac (s.kardexOf 1) (s.items 1).weightedAverageCost).wac
    ((discounted.items 1).weightedAverageCost = 1005556 / 10000 ∧
        replayed discounted = 1005555 / 10000) ∧
      (renumbered.items 1).weightedAverageCost = 150 ∧ replayed renumbered = 100 := by
  decide +kernel

end PapitalErp
