import PapitalErp.Inventory.RunningKardex
import PapitalErp.Documents.StockHistory

/-!
# The balances of the running Kardex

The loop over the displayed rows, for a table the stock operations wrote: each
balance is the sum of the rows so far, each warehouse column the sum of the rows
of that warehouse, and a void cancels against its reversal. What the columns end
with is what the item and its warehouses hold.
-/

namespace PapitalErp

open Rounding Transition DocumentStockEngine KardexReplay RunningColumns
open ItemWarehouseStockService (Moved)

namespace RunningKardex

/-! ## The loop -/

/-- What the loop needs of a row. -/
structure Displayed (allTxs : List KardexRow) (row : KardexRow) : Prop where
  shape : WellShaped row
  counted : counts allTxs row = true

/-- An entry is the one of its row, whatever its two balances. -/
def Shows (allTxs : List KardexRow) (defaultWac : ℚ) (row : KardexRow)
    (entry : RunningKardexEntry) : Prop :=
  entry = entryOf allTxs defaultWac row entry.runningBalance entry.runningLocationStock

/-- The loop after `rows`. -/
structure WalkHolds (allTxs : List KardexRow) (defaultWac : ℚ) (rows : List KardexRow)
    (walk : Walk) : Prop where
  balance : walk.runningBal = (rows.map KardexRow.signedQuantity).sum
  locations : ∀ w, walk.locationRunning w = (rows.map (KardexRow.quantityIn w)).sum
  totals : walk.totalIn - walk.totalOut =
    ((rows.filter (inLedger allTxs)).map KardexRow.signedQuantity).sum
  scale : AtScale 4 walk.totalIn ∧ AtScale 4 walk.totalOut
  entries : List.Forall₂ (Shows allTxs defaultWac) rows walk.entries
  balances : RunsFrom RunningKardexEntry.signedQuantity RunningKardexEntry.runningBalance 0
    walk.entries
  stocks : ∀ w, RunsFrom RunningKardexEntry.signedQuantity
    RunningKardexEntry.runningLocationStock 0
    (walk.entries.filter fun entry => decide (entry.location = w))

variable {allTxs rows : List KardexRow} {defaultWac : ℚ} {row : KardexRow}

theorem atScale_signedQuantity (shape : WellShaped row) : AtScale 4 row.signedQuantity := by
  have hscale := shape.quantity_atScale
  unfold KardexRow.signedQuantity
  rcases shape.type with htype | htype <;> rw [htype]
  · exact hscale
  · exact hscale.neg

theorem atScale_sum_signedQuantity (shape : ∀ row ∈ rows, WellShaped row) :
    AtScale 4 (rows.map KardexRow.signedQuantity).sum := by
  refine AtScale.sum fun x hx => ?_
  obtain ⟨row, hrow, rfl⟩ := List.mem_map.mp hx
  exact atScale_signedQuantity (shape row hrow)

/-- Adding or subtracting a row's quantity adds its signed quantity. -/
theorem step_eq (shape : WellShaped row) {x : ℚ} (hx : AtScale 4 x) :
    (if isInType row.type then FinancialMath.add else FinancialMath.subtract) x row.quantity =
      x + row.signedQuantity := by
  have hscale := shape.quantity_atScale
  unfold KardexRow.signedQuantity
  rcases shape.type with htype | htype <;>
    simp only [htype, isInType, beq_self_eq_true, Bool.true_or, if_true, signed_incoming,
      signed_outgoing, reduceCtorEq, beq_iff_eq, Bool.or_eq_true, or_self, if_false]
  · exact money_of_atScale (hx.add hscale)
  · rw [← sub_eq_add_neg]
    exact money_of_atScale (hx.sub hscale)

theorem entryOf_signedQuantity (shape : WellShaped row) (balance stock : ℚ) :
    (entryOf allTxs defaultWac row balance stock).signedQuantity = row.signedQuantity := by
  unfold RunningKardexEntry.signedQuantity KardexRow.signedQuantity entryOf
  rcases shape.type with htype | htype <;> simp [htype, isInType, StockDirection.type]

/-- A figure of the entries that is a figure of their rows. -/
theorem map_entries {γ : Type*} {entries : List RunningKardexEntry}
    (shows : List.Forall₂ (Shows allTxs defaultWac) rows entries)
    {ofEntry : RunningKardexEntry → γ} {ofRow : KardexRow → γ}
    (same : ∀ row ∈ rows, ∀ balance stock,
      ofEntry (entryOf allTxs defaultWac row balance stock) = ofRow row) :
    entries.map ofEntry = rows.map ofRow := by
  induction shows with
  | nil => rfl
  | cons first _ ih =>
      rw [List.map_cons, List.map_cons, ih fun row hrow => same row (List.mem_cons_of_mem _ hrow),
        first, same _ List.mem_cons_self]

theorem sum_entries {entries : List RunningKardexEntry}
    (shows : List.Forall₂ (Shows allTxs defaultWac) rows entries)
    (shape : ∀ row ∈ rows, WellShaped row) :
    (entries.map RunningKardexEntry.signedQuantity).sum =
      (rows.map KardexRow.signedQuantity).sum :=
  congrArg List.sum (map_entries shows fun row hrow => entryOf_signedQuantity (shape row hrow))

theorem sum_entries_at {entries : List RunningKardexEntry}
    (shows : List.Forall₂ (Shows allTxs defaultWac) rows entries)
    (shape : ∀ row ∈ rows, WellShaped row) (w : WarehouseId) :
    ((entries.filter fun entry => decide (entry.location = w)).map
        RunningKardexEntry.signedQuantity).sum =
      (rows.map (KardexRow.quantityIn w)).sum := by
  rw [PrefixSums.sum_filter]
  refine congrArg List.sum (map_entries shows fun row hrow balance stock => ?_)
  rw [entryOf_signedQuantity (shape row hrow), KardexRow.quantityIn]
  by_cases hw : row.location = w <;> simp [entryOf, hw]

theorem WalkHolds.start : WalkHolds allTxs defaultWac [] .start where
  balance := rfl
  locations _ := rfl
  totals := by simp [Walk.start]
  scale := ⟨AtScale.zero 4, AtScale.zero 4⟩
  entries := .nil
  balances := trivial
  stocks _ := trivial

/-- One turn of the loop. -/
theorem WalkHolds.turn {walk : Walk} (h : WalkHolds allTxs defaultWac rows walk)
    (shape : ∀ row ∈ rows, WellShaped row) (displayed : Displayed allTxs row) :
    WalkHolds allTxs defaultWac (rows ++ [row]) (walkRow allTxs defaultWac walk row) := by
  have hshape := displayed.shape
  have hbalance : AtScale 4 walk.runningBal := by
    rw [h.balance]
    exact atScale_sum_signedQuantity shape
  have hstock : AtScale 4 (walk.locationRunning row.location) := by
    rw [h.locations]
    exact atScale_sum_quantityIn shape row.location
  obtain ⟨hin, hout⟩ := h.scale
  have hq := hshape.quantity_atScale
  unfold walkRow
  rw [displayed.counted, Bool.not_true, if_neg Bool.false_ne_true]
  dsimp only
  rw [step_eq hshape hbalance, step_eq hshape hstock]
  have entryOf_self : ∀ b l : ℚ, Shows allTxs defaultWac row (entryOf allTxs defaultWac row b l) :=
    fun _ _ => rfl
  refine ⟨?_, fun w => ?_, ?_, ⟨?_, ?_⟩, ?_, ?_, fun w => ?_⟩
  · simp [h.balance]
  · rw [List.map_append, List.sum_append, ← h.locations]
    by_cases hw : w = row.location
    · subst hw
      simp [KardexRow.quantityIn]
    · simp [KardexRow.quantityIn, hw, Ne.symm hw]
  · rw [List.filter_append, List.map_append, List.sum_append, ← h.totals]
    have added := money_of_atScale (hin.add hq)
    have taken := money_of_atScale (hout.add hq)
    cases hledger : inLedger allTxs row <;> rcases hshape.type with htype | htype <;>
      simp [hledger, htype, isInType, KardexRow.signedQuantity, FinancialMath.add, added, taken] <;>
      ring
  · dsimp only
    split
    · exact atScale_money _
    · exact hin
  · dsimp only
    split
    · exact atScale_money _
    · exact hout
  · exact List.rel_append h.entries (.cons (entryOf_self _ _) .nil)
  · refine runsFrom_append.mpr ⟨h.balances, ?_, trivial⟩
    rw [zero_add, sum_entries h.entries shape, ← h.balance, entryOf_signedQuantity hshape]
    rfl
  · rw [List.filter_append]
    refine runsFrom_append.mpr ⟨h.stocks w, ?_⟩
    rw [zero_add, sum_entries_at h.entries shape, ← h.locations]
    by_cases hw : row.location = w
    · subst hw
      have kept : ([entryOf allTxs defaultWac row (walk.runningBal + row.signedQuantity)
          (walk.locationRunning row.location + row.signedQuantity)].filter
            fun entry => decide (entry.location = row.location)) =
          [entryOf allTxs defaultWac row (walk.runningBal + row.signedQuantity)
            (walk.locationRunning row.location + row.signedQuantity)] := by
        simp [entryOf]
      rw [kept]
      refine ⟨?_, trivial⟩
      rw [entryOf_signedQuantity hshape]
      rfl
    · have dropped : ([entryOf allTxs defaultWac row (walk.runningBal + row.signedQuantity)
          (walk.locationRunning row.location + row.signedQuantity)].filter
            fun entry => decide (entry.location = w)) = [] := by
        simp [entryOf, hw]
      rw [dropped]
      trivial

/-- The whole loop. -/
theorem walk_holds (displayed : ∀ row ∈ rows, Displayed allTxs row) :
    WalkHolds allTxs defaultWac rows (rows.foldl (walkRow allTxs defaultWac) .start) := by
  induction rows using List.reverseRecOn with
  | nil => exact .start
  | append_singleton rows row ih =>
      have before := ih fun r hr => displayed r (List.mem_append_left _ hr)
      rw [List.foldl_concat]
      exact before.turn (fun r hr => (displayed r (List.mem_append_left _ hr)).shape)
        (displayed row (List.mem_append_right _ (List.mem_singleton_self row)))

end RunningKardex

/-! ## What an item's rows add up to -/

/-- A figure of an item's stock that every movement moves by a figure of its
row. -/
structure StockMeasure where
  ofRow : KardexRow → ℚ
  ofStocks : WarehouseStocks → ℚ
  empty : ofStocks .empty = 0
  moved : ∀ {before after : WarehouseStocks} {inOut : StockDirection} {row : KardexRow},
    Moved before after row.location inOut row.quantity → row.type = inOut.type →
      ofStocks after = ofStocks before + ofRow row
  core : ∀ row : KardexRow, ofRow row.core = ofRow row
  reversed : ∀ {row : KardexRow} (p : VoidDocumentParams), WellShaped row →
    ofRow (reversalRow 0 p row) = -ofRow row

namespace StockMeasure

/-- The item's whole stock. -/
def total : StockMeasure where
  ofRow := KardexRow.signedQuantity
  ofStocks := WarehouseStocks.snapshotTotal
  empty := WarehouseStocks.snapshotTotal_empty
  moved moved htype := by
    rw [moved.total_eq, KardexRow.signedQuantity, htype]
  core _ := rfl
  reversed p shape := by
    unfold KardexRow.signedQuantity
    rcases shape.type with htype | htype <;> simp [reversalRow, htype]

/-- The stock of one warehouse. -/
def atWarehouse (warehouse : WarehouseId) : StockMeasure where
  ofRow := KardexRow.quantityIn warehouse
  ofStocks stocks := stocks.currentStock warehouse
  empty := rfl
  moved {_ _ inOut row} moved htype := by
    rw [moved.at_eq, StockHistoryInvariant.quantityIn_of_type inOut htype]
  core _ := rfl
  reversed {row} p shape := by
    unfold KardexRow.quantityIn KardexRow.signedQuantity
    by_cases hw : row.location = warehouse <;> rcases shape.type with htype | htype <;>
      simp [reversalRow, htype, hw]

variable (m : StockMeasure)

/-- The reversals of a void move an item by their own rows. -/
theorem reverseItem (p : VoidDocumentParams) {item item' : ItemStock} {origs : List KardexRow}
    {left : ℚ} (shape : ∀ orig ∈ origs, WellShaped orig)
    (h : PapitalErp.reverseItem item origs = .ok (item', left)) :
    m.ofStocks item'.stocks =
      m.ofStocks item.stocks + (origs.map fun orig => m.ofRow (reversalRow 0 p orig)).sum := by
  induction origs generalizing item left with
  | nil =>
      rw [(reverseItem_nil h).1]
      simp
  | cons orig rest ih =>
      obtain ⟨next, r, r', hone, hrest, -⟩ := reverseItem_cons h
      have accepted := applyStockReversal_ok (shape orig List.mem_cons_self).quantity_atScale hone
      have htype : (reversalRow 0 p orig).type = (reversalDirection orig).type := by
        unfold reversalRow reversalDirection
        dsimp only
        split <;> rfl
      have one : m.ofStocks next.stocks = m.ofStocks item.stocks +
          m.ofRow (reversalRow 0 p orig) := m.moved accepted.moved htype
      rw [ih (fun o ho => shape o (List.mem_cons_of_mem _ ho)) hrest, one, List.map_cons,
        List.sum_cons, add_assoc]

end StockMeasure

/-- The rows of every item, voided ones and reversals included, add up to its
stock, and so do its ledger rows alone. -/
structure Booked (m : StockMeasure) (s : StockState) : Prop where
  consistent : KardexConsistent s
  rows : ∀ item, ((s.kardexOf item).map m.ofRow).sum = m.ofStocks (s.items item).stocks
  ledger : ∀ item, ((liveLedger s.rows item).map m.ofRow).sum = m.ofStocks (s.items item).stocks

namespace Booked

variable {m : StockMeasure} {s s' : StockState}

theorem initial (cost : ItemId → OpeningCost) : Booked m (.initial cost) where
  consistent := .initial cost
  rows _ := m.empty.symm
  ledger _ := m.empty.symm

/-- New rows of one item that move its stock. -/
theorem record (h : Booked m s) {item : ItemId} {stock : ItemStock} {new : List KardexRow}
    (consistent : KardexConsistent (s.record item stock new))
    (live : ∀ t ∈ new, t.itemId = item ∧ t.isDeleted = false ∧ t.reversalOfId = none)
    (moves : m.ofStocks stock.stocks =
      m.ofStocks (s.items item).stocks + (new.map m.ofRow).sum) :
    Booked m (s.record item stock new) where
  consistent := consistent
  rows i := by
    rw [StockState.record_kardexOf, List.map_append, List.sum_append, h.rows]
    by_cases hi : i = item
    · subst hi
      have mine : (new.filter fun row => decide (row.itemId = i)) = new :=
        List.filter_eq_self.mpr fun row hrow => by simp [(live row hrow).1]
      rw [mine, StockState.record_items_self, moves]
    · have others : (new.filter fun row => decide (row.itemId = i)) = [] :=
        List.filter_eq_nil_iff.mpr fun row hrow => by simp [(live row hrow).1, Ne.symm hi]
      rw [others, StockState.record_items_of_ne _ _ _ _ hi, List.map_nil, List.sum_nil, add_zero]
  ledger i := by
    rw [StockHistoryInvariant.liveLedger_record live, List.map_append, List.sum_append, h.ledger]
    by_cases hi : i = item
    · subst hi
      rw [if_pos rfl, StockState.record_items_self, moves]
    · rw [if_neg hi, StockState.record_items_of_ne _ _ _ _ hi, List.map_nil, List.sum_nil,
        add_zero]

theorem void (h : Booked m s) {p : VoidDocumentParams} {items : ItemId → ItemStock}
    {residues : List (ItemId × ℚ)} (accepted : VoidAccepted s s' p items residues)
    (consistent : KardexConsistent s') : Booked m s' := by
  have after : s'.items = items := by rw [accepted.result]
  have moves : ∀ item, m.ofStocks (items item).stocks = m.ofStocks (s.items item).stocks +
      ((p.originalTxs.filter fun row => decide (row.itemId = item)).map fun orig =>
        m.ofRow (reversalRow 0 p orig)).sum ∧
      ∀ orig ∈ p.originalTxs.filter fun row => decide (row.itemId = item), WellShaped orig := by
    intro item
    have shape : ∀ orig ∈ p.originalTxs.filter fun row => decide (row.itemId = item),
        WellShaped orig := fun orig horig => h.consistent.shape orig
      ((h.consistent.mem_originalTxs accepted.live accepted.original).mp
        (List.mem_of_mem_filter horig)).1
    exact ⟨m.reverseItem p shape (applyReversals_item
      (h.consistent.originalTxs_positive accepted) accepted.reversed item), shape⟩
  refine ⟨consistent, fun item => ?_, fun item => ?_⟩
  · have cored : ∀ rows : List KardexRow,
        (rows.map m.ofRow).sum = ((rows.map KardexRow.core).map m.ofRow).sum := by
      intro rows
      rw [List.map_map]
      exact congrArg List.sum (List.map_congr_left fun row _ => (m.core row).symm)
    rw [cored, h.consistent.void_kardexOf accepted, List.map_append, List.sum_append, ← cored,
      h.rows, List.map_map, after, (moves item).1]
    rfl
  · -- what leaves the ledger is what the reversals take back
    obtain ⟨moved, shape⟩ := moves item
    have taken := ((originalTxs_item h.consistent accepted item).map m.ofRow).sum_eq
    have parts := ((List.filter_append_perm (keeps p.documentId) (liveLedger s.rows item)).map
      m.ofRow).sum_eq
    have back : ((p.originalTxs.filter fun row => decide (row.itemId = item)).map fun orig =>
          m.ofRow (reversalRow 0 p orig)).sum =
        -((p.originalTxs.filter fun row => decide (row.itemId = item)).map m.ofRow).sum := by
      rw [List.sum_neg, List.map_map]
      exact congrArg List.sum (List.map_congr_left fun orig horig => m.reversed p (shape orig horig))
    rw [List.map_append, List.sum_append, h.ledger] at parts
    rw [liveLedger_void accepted, after, moved, back, taken]
    linarith

theorem step (h : Booked m s) {op : StockOperation} (hstep : stockStep s op = .ok s') :
    Booked m s' := by
  have next := h.consistent.step hstep
  cases op with
  | movement p =>
      obtain ⟨unitPrice, stocks, accepted⟩ := applyStockMovement_ok hstep
      have hresult := accepted.result
      rw [hresult] at next ⊢
      refine h.record next (by simp [movementRow]) ?_
      have moved : m.ofStocks stocks = m.ofStocks (s.items p.itemId).stocks + m.ofRow
          (movementRow s.nextId p (stockMovementQuantity p.quantity) unitPrice) :=
        m.moved accepted.moved rfl
      simpa [movedStock] using moved
  | transfer p =>
      obtain ⟨taken, stocks, accepted⟩ := executeWarehouseTransfer_ok hstep
      have hresult := accepted.result
      rw [hresult] at next ⊢
      refine h.record next (by simp [transferRow]) ?_
      have out : m.ofStocks taken = m.ofStocks (s.items p.itemId).stocks + m.ofRow
          (transferRow s.nextId p .outgoing p.fromLocation
            (s.items p.itemId).weightedAverageCost) := m.moved accepted.out rfl
      have into : m.ofStocks stocks = m.ofStocks taken + m.ofRow
          (transferRow (s.nextId + 1) p .incoming p.toLocation
            (s.items p.itemId).weightedAverageCost) := m.moved accepted.into rfl
      rw [into, out]
      simp [add_assoc]
  | void p =>
      obtain ⟨items, residues, accepted⟩ := deleteDocument_ok hstep
      exact h.void accepted next

theorem run (h : Booked m s) (ops : List StockOperation) : Booked m (runStock s ops) :=
  run_invariant (fun _ _ _ hs hstep => hs.step hstep) h ops

end Booked

end PapitalErp
