import PapitalErp.Documents.StockCount

/-!
# A stock count is exact

A count moves at the average cost, so it keeps every average; it moves each counted
warehouse by the difference from its book stock, so its stock becomes the count; and
the voucher, the view and the void all read the Kardex rows of the document, which hold
these differences one by one. The void brings each row back at the same average cost, so
nothing is left behind.
-/

namespace PapitalErp.StockCounts

open Rounding Transition FilteredSums DocumentStockEngine
open ItemWarehouseStockService (Moved)

variable {catalog : Catalog} {input : StockCount} {before s s' : StockState}

/-! ## Movements at the average cost -/

/-- Goods at the average cost leave the average. -/
theorem calculateWAC_self {stock wac qty : ℚ} (hwac : AtScale 4 wac) (hq : 0 < qty) :
    FinancialMath.calculateWAC stock wac qty wac = wac := by
  by_cases hp : 0 < wac
  · by_cases hs : 0 < stock
    · rw [FinancialMath.calculateWAC_of_stock_pos hq hp hs, ← add_mul,
        mul_div_cancel_left₀ _ (add_pos hs hq).ne', money_of_atScale hwac]
    · rw [FinancialMath.calculateWAC_of_stock_nonpos hq hp (not_lt.mp hs), money_of_atScale hwac]
  · exact FinancialMath.calculateWAC_of_price_nonpos (not_lt.mp hp)

/-- The price of a difference is the average cost, or nothing. -/
theorem auditMovementPrice_eq (catalog : Catalog) (before : StockState) (item : ItemId) :
    auditMovementPrice catalog before item = (before.items item).weightedAverageCost ∨
      auditMovementPrice catalog before item = 0 := by
  unfold auditMovementPrice
  dsimp only
  split_ifs
  · exact absurd ‹(0 : ℚ) < 0› (lt_irrefl 0)
  · exact .inr rfl
  · exact .inl rfl
  · exact .inr rfl

section Movement

variable {line : CountedLine} {item : ItemStock}

/-- A difference is booked at the average cost. -/
theorem varianceMovement_unitPrice {unitPrice : ℚ}
    (same : item.weightedAverageCost = (before.items line.itemId).weightedAverageCost)
    (ok : movementUnitPrice item.weightedAverageCost (varianceMovement catalog input before line) =
      .ok unitPrice) : unitPrice = item.weightedAverageCost := by
  have nonneg := item.valid.2
  rw [movementUnitPrice] at ok
  split at ok
  · split at ok
    · exact (Except.ok.inj ok).symm
    · rename_i free
      simp only [varianceMovement, if_true, Except.ok.injEq] at ok
      rw [← ok]
      exact le_antisymm nonneg (not_lt.mp free)
  · split at ok
    · exact (Except.ok.inj ok).symm
    · rename_i priced
      obtain rfl := Except.ok.inj ok
      rcases auditMovementPrice_eq catalog before line.itemId with cost | free
      · exact cost.trans same.symm
      · have no_cost : ¬0 < item.weightedAverageCost := by
          intro positive
          exact priced ⟨by simp [varianceMovement, free], positive⟩
        rw [le_antisymm (not_lt.mp no_cost) nonneg]
        exact free

/-- A difference keeps the average cost. -/
theorem varianceMovement_wac (catalog : Catalog) (input : StockCount) {qty : ℚ} (hq : 0 < qty)
    (same : item.weightedAverageCost = (before.items line.itemId).weightedAverageCost) :
    money (movementWac item (varianceMovement catalog input before line) qty) =
      item.weightedAverageCost := by
  have kept : movementWac item (varianceMovement catalog input before line) qty =
      item.weightedAverageCost := by
    rw [movementWac]
    split
    · rcases auditMovementPrice_eq catalog before line.itemId with cost | free
      · have price : (varianceMovement catalog input before line).price = item.weightedAverageCost :=
          cost.trans same.symm
        rw [price]
        exact calculateWAC_self item.valid.1 hq
      · exact FinancialMath.calculateWAC_of_price_nonpos free.le
    · rfl
  rw [kept, money_of_atScale item.valid.1]

end Movement

/-! ## The rows of the document -/

/-- The Kardex row of a line: its difference, at the average cost of its item. -/
structure RowOf (input : StockCount) (before : StockState) (row : KardexRow) (line : CountedLine) : Prop where
  itemId : row.itemId = line.itemId
  location : row.location = line.warehouse
  documentId : row.documentId = some input.documentId
  live : row.isDeleted = false ∧ row.reversalOfId = none
  documentType : row.documentType = .audit
  type : row.type = .incoming ∨ row.type = .outgoing
  signed : row.signedQuantity = line.count - bookStock before line
  quantity : 0 < row.quantity ∧ AtScale 4 row.quantity
  unitPrice : row.unitPrice = (before.items line.itemId).weightedAverageCost
  total : AtScale 4 row.totalPrice ∧ 0 ≤ row.totalPrice

/-- What the signed quantities of rows bring an item in a warehouse. -/
def movedAt (rows : List KardexRow) (item : ItemId) (warehouse : WarehouseId) : ℚ :=
  sumWhere (fun row => decide ((row.itemId, row.location) = (item, warehouse))) KardexRow.signedQuantity rows

/-- The lines that differ from their book stock. -/
def differing (before : StockState) (lines : List CountedLine) : List CountedLine :=
  lines.filter fun line => decide (line.count - bookStock before line ≠ 0)

/-- The loop after the lines `done`: one row for each difference, which the stock follows. -/
structure Counted (input : StockCount) (before s : StockState) (done : List CountedLine)
    (new : List KardexRow) : Prop where
  rows : s.rows = before.rows ++ new
  each : List.Forall₂ (RowOf input before) new (differing before done)
  stock : ∀ item w, (s.items item).stocks.currentStock w =
    (before.items item).stocks.currentStock w + movedAt new item w
  cost : ∀ item, (s.items item).weightedAverageCost = (before.items item).weightedAverageCost
  residues : s.residues = before.residues

theorem counted_nil : Counted input before before [] [] where
  rows := (List.append_nil _).symm
  each := .nil
  stock item w := by simp [movedAt]
  cost _ := rfl
  residues := rfl

theorem movedAt_append (rows : List KardexRow) (row : KardexRow) (item : ItemId) (w : WarehouseId) :
    movedAt (rows ++ [row]) item w = movedAt rows item w +
      if (row.itemId, row.location) = (item, w) then row.signedQuantity else 0 := by
  simp [movedAt]

theorem bookStock_atScale (s : StockState) (line : CountedLine) : AtScale 4 (bookStock s line) :=
  ((s.items line.itemId).stocks.currentStock_valid line.warehouse).1

theorem atScale_abs {x : ℚ} (h : AtScale 4 x) : AtScale 4 |x| := by
  rcases abs_choice x with is | is <;> rw [is]
  · exact h
  · exact h.neg

/-- The row of a movement is the row of its line. -/
theorem movementRow_rowOf (catalog : Catalog) (input : StockCount) {line : CountedLine} {unitPrice : ℚ} (id : ℕ)
    (differs : line.count - bookStock before line ≠ 0)
    (price : unitPrice = (before.items line.itemId).weightedAverageCost) :
    RowOf input before
      (movementRow id (varianceMovement catalog input before line)
        (stockMovementQuantity (varianceMovement catalog input before line).quantity) unitPrice) line := by
  have scale : AtScale 4 (line.count - bookStock before line) :=
    line.count_atScale.sub (bookStock_atScale before line)
  have exact_quantity : stockMovementQuantity (varianceMovement catalog input before line).quantity =
      |line.count - bookStock before line| := money_of_atScale (atScale_abs scale)
  have cost := (before.items line.itemId).valid
  rw [exact_quantity, price]
  refine {
    itemId := rfl
    location := rfl
    documentId := rfl
    live := ⟨rfl, rfl⟩
    documentType := rfl
    type := ?_
    signed := ?_
    quantity := ⟨abs_pos.mpr differs, atScale_abs scale⟩
    unitPrice := money_of_atScale cost.1
    total := ⟨atScale_money _, money_nonneg (money_nonneg (mul_nonneg cost.2 (abs_nonneg _)))⟩ }
  · by_cases more : 0 < line.count - bookStock before line
    · exact .inl (by simp [movementRow, varianceMovement, more, StockDirection.type])
    · exact .inr (by simp [movementRow, varianceMovement, more, StockDirection.type])
  · by_cases more : 0 < line.count - bookStock before line
    · simp [KardexRow.signedQuantity, movementRow, varianceMovement, more, StockDirection.type,
        abs_of_pos more]
    · simp [KardexRow.signedQuantity, movementRow, varianceMovement, more, StockDirection.type,
        abs_of_nonpos (not_lt.mp more)]

/-- One turn of the loop. -/
theorem Counted.countLine {done : List CountedLine} {new : List KardexRow} (h : Counted input before s done new)
    {line : CountedLine} (ok : countLine catalog input before s line = .ok s') :
    ∃ new', Counted input before s' (done ++ [line]) new' := by
  rw [StockCounts.countLine] at ok
  by_cases differs : line.count - bookStock before line ≠ 0
  · rw [if_pos differs] at ok
    obtain ⟨unitPrice, stocks, accepted⟩ := applyStockMovement_ok ok
    have same := h.cost line.itemId
    have price := varianceMovement_unitPrice same accepted.booked
    have row := movementRow_rowOf catalog input s.nextId differs (price.trans same)
    have kept := varianceMovement_wac catalog input accepted.moved.positive same
    have own : s'.items line.itemId = movedStock (s.items line.itemId)
        (varianceMovement catalog input before line) stocks := by
      rw [accepted.result]
      exact StockState.record_items_self ..
    have others : ∀ item, item ≠ line.itemId → s'.items item = s.items item := by
      intro item other
      rw [accepted.result]
      exact StockState.record_items_of_ne _ _ _ _ other
    refine ⟨new ++ [_], {
      rows := by rw [accepted.result, StockState.record_rows, h.rows, List.append_assoc]
      each := ?_
      stock := fun item w => ?_
      cost := fun item => ?_
      residues := by
        rw [accepted.result]
        exact h.residues }⟩
    · rw [differing, List.filter_append, List.filter_singleton, decide_eq_true differs]
      exact List.rel_append h.each (.cons row .nil)
    · rw [movedAt_append, ← add_assoc, ← h.stock item w]
      by_cases same : item = line.itemId
      · subst same
        rw [own]
        refine (accepted.moved.at_eq w).trans (congrArg _ ?_)
        by_cases there : w = line.warehouse
        · subst there
          exact (if_pos rfl).trans (if_pos rfl).symm
        · exact (if_neg there).trans (if_neg fun equal => there (Prod.mk.inj equal).2.symm).symm
      · rw [others item same]
        refine (add_zero _).symm.trans (congrArg _ (if_neg fun equal => same ?_).symm)
        exact (Prod.mk.inj equal).1.symm
    · by_cases same : item = line.itemId
      · subst same
        rw [own]
        exact kept.trans (h.cost line.itemId)
      · rw [others item same]
        exact h.cost item
  · rw [if_neg differs] at ok
    obtain rfl := Except.ok.inj ok
    refine ⟨new, h.rows, ?_, h.stock, h.cost, h.residues⟩
    rw [differing, List.filter_append, List.filter_singleton, decide_eq_false differs]
    simpa [differing] using h.each

theorem Counted.countLines {done lines : List CountedLine} {new : List KardexRow}
    (h : Counted input before s done new)
    (ok : lines.foldlM (StockCounts.countLine catalog input before) s = .ok s') :
    ∃ new', Counted input before s' (done ++ lines) new' := by
  induction lines generalizing s done new with
  | nil =>
      obtain rfl := Except.ok.inj ok
      rw [List.append_nil]
      exact ⟨new, h⟩
  | cons line lines ih =>
      rw [List.foldlM_cons, bind_eq_ok] at ok
      obtain ⟨next, here, rest⟩ := ok
      obtain ⟨new', counted⟩ := h.countLine here
      obtain ⟨all, whole⟩ := ih counted rest
      rw [List.append_assoc] at whole
      exact ⟨all, whole⟩

/-! ## What the rows add up to -/

section Sums

variable {lines : List CountedLine} {new : List KardexRow}

/-- The rows bring a warehouse what the lines of its key differ by. -/
theorem movedAt_eq (each : List.Forall₂ (RowOf input before) new (differing before lines))
    (item : ItemId) (w : WarehouseId) :
    movedAt new item w = sumWhere (fun line => decide (line.key = (item, w)))
      (fun line => line.count - bookStock before line) lines := by
  have kept : movedAt new item w = sumWhere (fun line => decide (line.key = (item, w)))
      (fun line => line.count - bookStock before line) (differing before lines) := by
    revert each
    generalize differing before lines = kept
    intro each
    induction each with
    | nil => rfl
    | cons row _ ih =>
        rw [movedAt] at ih ⊢
        rw [sumWhere_cons, sumWhere_cons, ih, row.itemId, row.location, row.signed]
        rfl
  rw [kept, differing, sumWhere_filter]
  refine sumWhere_eq_of_terms fun line _ => ?_
  by_cases differs : line.count - bookStock before line = 0
  · simp [differs]
  · simp [differs]

/-- A line whose key is its own is moved by its difference. -/
theorem movedAt_line (each : List.Forall₂ (RowOf input before) new (differing before lines))
    (distinct : (lines.map CountedLine.key).Nodup) {line : CountedLine} (mem : line ∈ lines) :
    movedAt new line.itemId line.warehouse = line.count - bookStock before line := by
  rw [movedAt_eq each]
  refine sumWhere_of_unique mem (decide_eq_true rfl) ?_
  refine (List.pairwise_map.mp distinct).imp fun {one other} apart both => apart ?_
  exact (of_decide_eq_true both.1).trans (of_decide_eq_true both.2).symm

theorem movedAt_other (each : List.Forall₂ (RowOf input before) new (differing before lines))
    {item : ItemId} {w : WarehouseId} (other : (item, w) ∉ lines.map CountedLine.key) :
    movedAt new item w = 0 := by
  rw [movedAt_eq each]
  refine sumWhere_eq_zero fun line mem => decide_eq_false fun same => other ?_
  exact same ▸ List.mem_map_of_mem mem

theorem mem_rowOf (each : List.Forall₂ (RowOf input before) new (differing before lines))
    {row : KardexRow} (mem : row ∈ new) : ∃ line ∈ lines, RowOf input before row line := by
  obtain ⟨i, lt, rfl⟩ := List.getElem_of_mem mem
  have length := each.length_eq
  refine ⟨(differing before lines).get ⟨i, length ▸ lt⟩, List.mem_of_mem_filter (List.get_mem _ _), ?_⟩
  exact each.get lt (length ▸ lt)

/-- The view adds up the rows of each item and warehouse. -/
theorem get_stockCountVariances (type : ∀ row ∈ new, row.type = .incoming ∨ row.type = .outgoing)
    (item : ItemId) (w : WarehouseId) :
    AssocTotals.get (stockCountVariances new) (item, w) = movedAt new item w := by
  suffices grows : ∀ table, AssocTotals.get (new.foldl (fun variances row =>
      AssocTotals.set variances (row.itemId, row.location)
        (AssocTotals.get variances (row.itemId, row.location) +
          if row.type = .incoming then row.quantity else -row.quantity)) table) (item, w) =
        AssocTotals.get table (item, w) + movedAt new item w by
    refine (grows []).trans ?_
    rw [AssocTotals.get, zero_add]
  induction new with
  | nil => simp [movedAt]
  | cons row rows ih =>
      intro table
      have quantity : (if row.type = .incoming then row.quantity else -row.quantity) =
          row.signedQuantity := by
        rcases type row List.mem_cons_self with is | is <;> simp [KardexRow.signedQuantity, is]
      rw [List.foldl_cons, ih fun other mem => type other (List.mem_cons_of_mem _ mem),
        AssocTotals.get_set, quantity, movedAt, movedAt, sumWhere_cons, ← add_assoc]
      refine congrArg (· + _) ?_
      by_cases here : (item, w) = (row.itemId, row.location)
      · rw [if_pos here, here, decide_eq_true rfl, if_pos rfl]
      · rw [if_neg here, decide_eq_false fun same => here same.symm, if_neg Bool.false_ne_true, add_zero]

end Sums

/-- An accepted count has one line for each item and warehouse. -/
theorem nodup_of_duplicates {seen : List (ItemId × WarehouseId)} {found lines : List CountedLine}
    (none : duplicates seen found lines = []) :
    found = [] ∧ (lines.map CountedLine.key).Nodup ∧ ∀ line ∈ lines, line.key ∉ seen := by
  induction lines generalizing seen found with
  | nil => exact ⟨none, List.nodup_nil, nofun⟩
  | cons line lines ih =>
      rw [duplicates] at none
      split at none
      · have added := (ih none).1
        exact absurd added (by simp)
      · rename_i fresh
        obtain ⟨empty, distinct, unseen⟩ := ih none
        subst empty
        have first : line.key ∉ seen := fun mem => fresh ⟨mem, List.not_mem_nil⟩
        refine ⟨rfl, List.nodup_cons.mpr ⟨fun mem => ?_, distinct⟩, fun other mem => ?_⟩
        · obtain ⟨other, listed, same⟩ := List.mem_map.mp mem
          exact unseen other listed (same ▸ List.mem_cons_self)
        · rcases List.mem_cons.mp mem with rfl | later
          · exact first
          · exact fun earlier => unseen other later (List.mem_cons_of_mem _ earlier)

/-! ## The void brings the rows back -/

/-- A row that is worth the average cost of its item. -/
structure AtCost (cost : ℚ) (row : KardexRow) : Prop where
  type : row.type = .incoming ∨ row.type = .outgoing
  documentType : row.documentType ≠ .transfer
  quantity : 0 < row.quantity ∧ AtScale 4 row.quantity
  unitPrice : row.unitPrice = cost

/-- Reversing a row at the average cost keeps the average and leaves nothing behind. -/
theorem reversalWac_atCost {item item' : ItemStock} {row : KardexRow}
    (h : AtCost item.weightedAverageCost row)
    (total : item'.total = item.total + signed (reversalDirection row).type row.quantity) :
    reversalWac item item'.total row = (item.weightedAverageCost, 0) := by
  have nonneg : 0 ≤ item'.total := item'.stocks.snapshotTotal_nonneg
  rw [reversalWac, if_neg h.documentType, h.unitPrice]
  rcases h.type with incoming | outgoing
  · have left : item.total * item.weightedAverageCost - row.quantity * item.weightedAverageCost =
        item'.total * item.weightedAverageCost := by
      rw [total, reversalDirection, if_pos incoming]
      simp only [StockDirection.type, signed_outgoing]
      ring
    rw [if_pos incoming, left]
    dsimp only
    split_ifs with some_left
    · have back : FinancialDecimal.divide (item'.total * item.weightedAverageCost) item'.total =
          item.weightedAverageCost := by
        rw [FinancialDecimal.divide, mul_div_cancel_left₀ _ some_left.1.ne']
        exact money_of_atScale item.valid.1
      rw [back]
      exact congrArg (·, 0) (money_of_atScale item.valid.1)
    · rw [max_eq_left nonneg, sub_self]
  · rw [if_neg (by rw [outgoing]; decide), if_pos outgoing, calculateWAC_self item.valid.1 h.quantity.1]

/-- The void of rows at the average cost gives back what they had moved. -/
theorem applyReversals_atCost {items items' : ItemId → ItemStock} {rows : List KardexRow}
    {residues : List (ItemId × ℚ)}
    (atCost : ∀ row ∈ rows, AtCost (items row.itemId).weightedAverageCost row)
    (ok : applyReversals items rows = .ok (items', residues)) :
    (∀ item, (items' item).weightedAverageCost = (items item).weightedAverageCost) ∧
      (∀ item w, (items' item).stocks.currentStock w =
        (items item).stocks.currentStock w - movedAt rows item w) ∧
      ∀ line ∈ residues, line.2 = 0 := by
  induction rows generalizing items residues with
  | nil =>
      obtain ⟨rfl, rfl⟩ := Prod.mk.inj (Except.ok.inj ok)
      exact ⟨fun _ => rfl, fun item w => by simp [movedAt], nofun⟩
  | cons row rows ih =>
      have first := atCost row List.mem_cons_self
      rw [applyReversals, if_pos first.quantity.1] at ok
      simp only [bind_eq_ok, pure_eq_ok] at ok
      obtain ⟨⟨item', left⟩, here, ⟨items'', residues'⟩, rest, same⟩ := ok
      obtain ⟨rfl, rfl⟩ := Prod.mk.inj same
      have reversed := applyStockReversal_ok first.quantity.2 here
      have wac := reversalWac_atCost first reversed.moved.total_eq
      have cost : item'.weightedAverageCost = (items row.itemId).weightedAverageCost := by
        rw [reversed.wac_eq, wac]
        exact money_of_atScale (items row.itemId).valid.1
      have costs : ∀ item, (Function.update items row.itemId item' item).weightedAverageCost =
          (items item).weightedAverageCost := by
        intro item
        by_cases own : item = row.itemId
        · rw [own, Function.update_self, cost]
        · rw [Function.update_of_ne own]
      obtain ⟨rest_cost, rest_stock, rest_residue⟩ := ih (fun other mem => by
        rw [costs]
        exact atCost other (List.mem_cons_of_mem _ mem)) rest
      refine ⟨fun item => (rest_cost item).trans (costs item), fun item w => ?_, fun line mem => ?_⟩
      · have moved : (Function.update items row.itemId item' item).stocks.currentStock w =
            (items item).stocks.currentStock w -
              if (row.itemId, row.location) = (item, w) then row.signedQuantity else 0 := by
          by_cases own : item = row.itemId
          · subst own
            rw [Function.update_self, reversed.moved.at_eq w, sub_eq_add_neg]
            refine congrArg _ ?_
            by_cases there : w = row.location
            · subst there
              rw [if_pos rfl, if_pos rfl, reversalDirection]
              rcases first.type with is | is <;> simp [is, KardexRow.signedQuantity, StockDirection.type]
            · rw [if_neg there, if_neg fun equal => there (Prod.mk.inj equal).2.symm, neg_zero]
          · rw [Function.update_of_ne own, if_neg fun equal => own (Prod.mk.inj equal).1.symm, sub_zero]
        rw [rest_stock, moved, movedAt, movedAt, sumWhere_cons]
        simp only [decide_eq_true_eq]
        ring
      · rcases List.mem_cons.mp mem with rfl | later
        · rw [reversed.residue_eq, wac]
        · exact rest_residue line later

/-! ## The accepted count -/

@[simp] theorem ofStock_eq_ok {α : Type} {x : Except StockError α} {a : α} :
    ofStock x = .ok a ↔ x = .ok a := by
  cases x <;> simp [ofStock]

/-- What a count leaves behind, and what a void of it gives back. -/
structure ExactCount (catalog : Catalog) (input : StockCount) (lines : List CountedLine)
    (before after : Books) : Prop where
  counted : ∀ line ∈ lines, bookStock after.stock line = line.count
  others : ∀ item w, (item, w) ∉ lines.map CountedLine.key →
    (after.stock.items item).stocks.currentStock w = (before.stock.items item).stocks.currentStock w
  totals : ∀ item, (after.stock.items item).total =
    ((after.stock.items item).stocks.rows.map Prod.snd).sum
  costs : ∀ item, (after.stock.items item).weightedAverageCost =
    (before.stock.items item).weightedAverageCost
  accounts : ∀ isProduct account, catalog.accounts.inventory isProduct = some account →
    accountBalance after.vouchers account - accountBalance before.vouchers account =
      sumWhere (fun row => decide (catalog.accounts.inventory (catalog.isProduct row.itemId) = some account))
        KardexRow.signedTotal (documentRows after.stock input.documentId)
  variances : ∀ line ∈ lines, auditVarianceOf after.stock input.documentId (documentLine input line) =
    line.count - bookStock before.stock line
  voided : ∀ approved p gone, p.documentId = input.documentId →
    voidStockCount catalog (approveVouchers input.documentId approved after) p = .ok gone →
      (∀ item w, (gone.stock.items item).stocks.currentStock w =
        (before.stock.items item).stocks.currentStock w) ∧
      (∀ item, (gone.stock.items item).weightedAverageCost =
        (before.stock.items item).weightedAverageCost) ∧
      ∀ account, accountBalance gone.vouchers account = accountBalance before.vouchers account

section Accepted

variable {lines : List CountedLine} {new : List KardexRow} {document : DocumentId}

/-- The rows of a new document are the rows the count has written. -/
theorem documentRows_eq (fresh : ∀ row ∈ before.rows, row.documentId ≠ some input.documentId)
    (h : Counted input before s lines new) : documentRows s input.documentId = new := by
  rw [documentRows, h.rows, List.filter_append]
  have old : before.rows.filter (fun row => decide (row.documentId = some input.documentId) &&
      !row.isDeleted && decide (row.reversalOfId = none)) = [] := by
    refine List.filter_eq_nil_iff.mpr fun row mem => ?_
    simp [fresh row mem]
  rw [old, List.nil_append]
  refine List.filter_eq_self.mpr fun row mem => ?_
  obtain ⟨line, _, is⟩ := mem_rowOf h.each mem
  simp [is.documentId, is.live.1, is.live.2]

theorem originalTxs_perm (fresh : ∀ row ∈ before.rows, row.documentId ≠ some input.documentId)
    (h : Counted input before s lines new) {origs : List KardexRow}
    (original : origs.Perm (s.rows.filter fun row =>
      decide (row.documentId = some input.documentId) && !row.isDeleted)) : origs.Perm new := by
  rw [h.rows, List.filter_append] at original
  have old : before.rows.filter (fun row => decide (row.documentId = some input.documentId) &&
      !row.isDeleted) = [] := by
    refine List.filter_eq_nil_iff.mpr fun row mem => ?_
    simp [fresh row mem]
  have own : new.filter (fun row => decide (row.documentId = some input.documentId) &&
      !row.isDeleted) = new := by
    refine List.filter_eq_self.mpr fun row mem => ?_
    obtain ⟨line, _, is⟩ := mem_rowOf h.each mem
    simp [is.documentId, is.live.1]
  rwa [old, own, List.nil_append] at original

theorem posted_postedBy {accounts : CountAccounts} {isProduct : ItemId → Bool}
    {posted : List JournalVoucher}
    (ok : syncStockAdjustmentVoucher accounts isProduct document new = some posted) :
    ∀ voucher ∈ posted, voucher.postedBy document = true := by
  simp only [syncStockAdjustmentVoucher] at ok
  split at ok
  · obtain rfl := Option.some.inj ok
    simp
  · split at ok
    · cases ok
    · obtain rfl := Option.some.inj ok
      intro voucher mem
      rw [List.mem_singleton.mp mem]
      simp [JournalVoucher.postedBy]

/-- Voiding takes back the vouchers of the document, approved or not. -/
theorem accountBalance_void {old posted : List JournalVoucher} (approved : Bool) (account : AccountId)
    (fresh : ∀ voucher ∈ old, voucher.sourceDocumentId ≠ some document)
    (own : ∀ voucher ∈ posted, voucher.postedBy document = true) :
    accountBalance (voidSourceVouchers document ((old ++ posted).map fun voucher =>
        if voucher.postedBy document then { voucher with isDraft := !approved } else voucher)) account =
      accountBalance old account := by
  have same (voucher : JournalVoucher) : (if voucher.postedBy document then
      { voucher with isDraft := !approved } else voucher).isDeleted = voucher.isDeleted ∧
      (if voucher.postedBy document then { voucher with isDraft := !approved } else voucher).items =
        voucher.items ∧
      (if voucher.postedBy document then
        { voucher with isDraft := !approved } else voucher).postedBy document = voucher.postedBy document := by
    split
    · exact ⟨rfl, rfl, rfl⟩
    · exact ⟨rfl, rfl, rfl⟩
  rw [accountBalance_voidSourceVouchers, accountBalance, accountBalance, sumWhere_map, sumWhere_map,
    sumWhere_append, sumWhere_append]
  simp only [Function.comp_def, same]
  have none_old : sumWhere (fun voucher => voucher.postedBy document)
      (fun voucher => itemsBalance voucher.items account) old = 0 := by
    refine sumWhere_eq_zero fun voucher mem => ?_
    simp [JournalVoucher.postedBy, fresh voucher mem]
  have all_posted : sumWhere (fun voucher => voucher.postedBy document)
      (fun voucher => itemsBalance voucher.items account) posted =
        sumWhere (fun voucher => !voucher.isDeleted)
          (fun voucher => itemsBalance voucher.items account) posted := by
    refine sumWhere_congr (fun voucher mem => ?_) fun _ _ _ => rfl
    have is := own voucher mem
    rw [is]
    simp only [JournalVoucher.postedBy, Bool.and_eq_true] at is
    exact is.2.symm
  rw [none_old, all_posted]
  ring

end Accepted

theorem main_ne : "main" ≠ "" := by decide

theorem shop_ne : "shop" ≠ "" := by decide

/-- Two active warehouses, and the accounts of the default mapping. -/
def shop : Catalog where
  text := ⟨id, id⟩
  warehouses := [(1, ⟨"main", "Main", main_ne⟩), (2, ⟨"shop", "Shop", shop_ne⟩)]
  isDeleted _ := false
  isProduct _ := true
  accounts := ⟨some 7012, some 1401, some 1403, by decide⟩

def sent (count : ℕ) : Option MoneyColumn := some ⟨count, AtScale.natCast 4 count⟩

/-- Items at a cost of 1000, of which nothing is in stock. -/
def emptyBooks : Books :=
  ⟨.initial fun _ => ⟨(1000 : ℕ), AtScale.natCast 4 1000, Nat.cast_nonneg 1000⟩, [], []⟩

/-- Three pieces found in the main warehouse, and none in the shop. -/
def found : StockCount where
  documentId := 1
  items := [⟨1, "Main", sent 3, sent 0⟩, ⟨1, "shop", sent 0, sent 0⟩]
  location := ""
  day := 0
  refNumber := "C"
  allowBackdate := false
  today := 0
  yearOpen := true

end PapitalErp.StockCounts
