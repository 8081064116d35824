import PapitalErp.Documents.RunningKardexAgrees
import PapitalErp.Documents.ReplayAgreement

/-!
# The average cost beside a row

The running Kardex shows a replayed average beside each row; the engine had an
average of its own when it wrote the row. The engine's averages are recorded
here along a run, one for each Kardex row, and compared with the shown ones.

Where the replay reads the receipts as the engine did, the two are the same
whenever the engine's average is above zero. A row written at an average of zero
is shown with the item's present average instead.
-/

namespace PapitalErp

open Rounding Transition DocumentStockEngine KardexReplay RunningColumns RunningKardex

/-- The average an item had right after one of its rows was written. -/
structure RowCost where
  row : ℕ
  item : ItemId
  average : ℚ
  valid : AtScale 4 average ∧ 0 ≤ average

namespace ItemStock

/-- The average of an item, recorded for a row. -/
def costAfter (item : ItemStock) (row : ℕ) (id : ItemId) : RowCost :=
  ⟨row, id, item.weightedAverageCost, item.valid⟩

end ItemStock

/-- The averages a void goes through, one reversal after the other. -/
def reversalCosts : (ItemId → ItemStock) → ℕ → List KardexRow → List RowCost
  | _, _, [] => []
  | items, next, orig :: rest =>
      if 0 < orig.quantity then
        match applyStockReversal (items orig.itemId) orig with
        | .ok (item, _) => item.costAfter next orig.itemId ::
            reversalCosts (Function.update items orig.itemId item) (next + 1) rest
        | .error _ => []
      else reversalCosts items next rest

/-- The averages of one accepted request, a row of the Kardex each. -/
def rowCosts (s s' : StockState) : StockOperation → List RowCost
  | .movement p => [(s'.items p.itemId).costAfter s.nextId p.itemId]
  | .transfer p =>
      [(s'.items p.itemId).costAfter s.nextId p.itemId,
        (s'.items p.itemId).costAfter (s.nextId + 1) p.itemId]
  | .void p => reversalCosts s.items s.nextId p.originalTxs

/-- The averages of a run. -/
def engineCosts : StockState → List StockOperation → List RowCost
  | _, [] => []
  | s, op :: ops =>
      match stockStep s op with
      | .ok s' => rowCosts s s' op ++ engineCosts s' ops
      | .error _ => engineCosts s ops

/-- The engine's average of an item after one of its rows. -/
def engineCostOf (costs : List RowCost) (item : ItemId) (row : ℕ) : Option ℚ :=
  (costs.find? fun c => decide (c.item = item ∧ c.row = row)).map RowCost.average

/-- Each entry shows the average the engine had after its row. -/
def CostsAgree (costs : List RowCost) (item : ItemId) (kardex : RunningKardexResponse) : Prop :=
  ∀ entry ∈ kardex.entries, engineCostOf costs item entry.transactionId = some entry.runningWac

instance (costs : List RowCost) (item : ItemId) (kardex : RunningKardexResponse) :
    Decidable (CostsAgree costs item kardex) :=
  inferInstanceAs (Decidable (∀ entry ∈ kardex.entries, _))

/-! ## The replayed averages -/

/-- The averages of a replay, row by row. -/
def replayCosts : Valuation → List KardexRow → List (ℕ × ℚ)
  | _, [] => []
  | v, row :: rest => (row.id, (rowEffect v row).wac) :: replayCosts (rowEffect v row) rest

theorem replayCosts_append (v : Valuation) (a b : List KardexRow) :
    replayCosts v (a ++ b) = replayCosts v a ++ replayCosts (a.foldl rowEffect v) b := by
  induction a generalizing v with
  | nil => rfl
  | cons row rest ih => simp [replayCosts, ih]

theorem replayCosts_ids (v : Valuation) (rows : List KardexRow) :
    (replayCosts v rows).map Prod.fst = rows.map KardexRow.id := by
  induction rows generalizing v with
  | nil => rfl
  | cons row rest ih => simp [replayCosts, ih]

/-- A change of the rows that keeps their ids and effects. -/
theorem replayCosts_map {f : KardexRow → KardexRow}
    (same : ∀ row, (f row).id = row.id ∧ ∀ v, rowEffect v (f row) = rowEffect v row)
    (v : Valuation) (rows : List KardexRow) :
    replayCosts v (rows.map f) = replayCosts v rows ∧
      (rows.map f).foldl rowEffect v = rows.foldl rowEffect v := by
  induction rows generalizing v with
  | nil => exact ⟨rfl, rfl⟩
  | cons row rest ih =>
      obtain ⟨costs, fold⟩ := ih (rowEffect v row)
      simp [replayCosts, (same row).1, (same row).2, costs, fold]

theorem replayedWacs_eq {allTxs rows : List KardexRow}
    (settled : ∀ row ∈ rows, Settled allTxs row) (v : Valuation) :
    replayedWacs allTxs v rows = replayCosts v rows := by
  induction rows generalizing v with
  | nil => rfl
  | cons row rest ih =>
      have step := apply_of_settled (settled row List.mem_cons_self) v
      simp [replayedWacs, replayCosts, step, ih fun r hr => settled r (List.mem_cons_of_mem _ hr)]

/-- The reversals of a void, replayed for one item. -/
theorem reversalCosts_eq (p : VoidDocumentParams) {origs : List KardexRow}
    {items items' : ItemId → ItemStock} {residues : List (ItemId × ℚ)} (next : ℕ)
    (h : applyReversals items origs = .ok (items', residues)) {v : ItemId → Valuation}
    (agrees : ∀ orig ∈ origs, WellShaped orig ∧ Agrees (v orig.itemId) (items orig.itemId))
    (i : ItemId) :
    (((reversalCosts items next origs).filter fun c => decide (c.item = i)).map fun c =>
        (c.row, c.average)) =
      replayCosts (v i) ((reversalRows p next origs).filter fun row => decide (row.itemId = i)) := by
  induction origs generalizing items items' residues next v with
  | nil => rfl
  | cons orig rest ih =>
      obtain ⟨shape, here⟩ := agrees orig List.mem_cons_self
      have positive := shape.quantity_pos
      unfold applyReversals at h
      rw [if_pos positive] at h
      simp only [bind_eq_ok, pure_eq_ok, Prod.exists, Prod.mk.injEq] at h
      obtain ⟨item, residue, hone, items'', residues', hrest, -, -⟩ := h
      let after := Function.update v orig.itemId (rowEffect (v orig.itemId) (reversalRow 0 p orig))
      have reversed : Agrees (rowEffect (v orig.itemId) (reversalRow 0 p orig)) item :=
        reversal_agrees p shape (applyStockReversal_ok shape.quantity_atScale hone) here
      have later : ∀ o ∈ rest, WellShaped o ∧ Agrees (after o.itemId)
          (Function.update items orig.itemId item o.itemId) := by
        intro o ho
        obtain ⟨oshape, oagrees⟩ := agrees o (List.mem_cons_of_mem _ ho)
        refine ⟨oshape, ?_⟩
        by_cases same : o.itemId = orig.itemId
        · simp only [after, same, Function.update_self]
          exact reversed
        · simp only [after, ne_eq, same, not_false_eq_true, Function.update_of_ne]
          exact oagrees
      have tail := ih (next + 1) hrest later
      unfold reversalCosts reversalRows
      rw [if_pos positive, if_pos positive, hone]
      dsimp only
      have row_item : (reversalRow next p orig).itemId = orig.itemId := rfl
      have cost_item : (item.costAfter next orig.itemId).item = orig.itemId := rfl
      by_cases hi : orig.itemId = i
      · subst hi
        rw [List.filter_cons_of_pos (by simp [cost_item]),
          List.filter_cons_of_pos (by simp [row_item]), List.map_cons, tail, replayCosts]
        simp only [after, Function.update_self]
        refine congrArg₂ _ (Prod.ext rfl ?_) rfl
        exact reversed.wac.symm
      · rw [List.filter_cons_of_neg (by simpa [cost_item] using hi),
          List.filter_cons_of_neg (by simpa [row_item] using hi), tail]
        simp only [after, ne_eq, Ne.symm hi, not_false_eq_true, Function.update_of_ne]

/-! ## Along a run -/

/-- The averages recorded for one item, each with its row. -/
def costsOf (costs : List RowCost) (item : ItemId) : List (ℕ × ℚ) :=
  (costs.filter fun c => decide (c.item = item)).map fun c => (c.row, c.average)

theorem costsOf_append (a b : List RowCost) (item : ItemId) :
    costsOf (a ++ b) item = costsOf a item ++ costsOf b item := by
  simp [costsOf]

/-- The recorded averages of every item are the replayed ones. -/
structure CostsTraced (s : StockState) (costs : List RowCost) : Prop where
  replay : ReplayInvariant s
  traced : ∀ item, costsOf costs item = replayCosts ⟨0, 0⟩ (s.kardexOf item)

namespace CostsTraced

variable {s s' : StockState} {costs new : List RowCost}

/-- New rows of one item, with the averages the replay gives them. -/
theorem record (h : CostsTraced s costs) {item : ItemId} {stock : ItemStock}
    {rows : List KardexRow} (replay : ReplayInvariant (s.record item stock rows))
    (own : ∀ row ∈ rows, row.itemId = item) (owned : ∀ c ∈ new, c.item = item)
    (costed : replayCosts (s.valuation item) rows = new.map fun c => (c.row, c.average)) :
    CostsTraced (s.record item stock rows) (costs ++ new) := by
  refine ⟨replay, fun i => ?_⟩
  rw [costsOf_append, h.traced, StockState.record_kardexOf, replayCosts_append]
  congr 1
  by_cases hi : i = item
  · subst hi
    have mine : (rows.filter fun row => decide (row.itemId = i)) = rows :=
      List.filter_eq_self.mpr fun row hrow => by simp [own row hrow]
    have all : (new.filter fun c => decide (c.item = i)) = new :=
      List.filter_eq_self.mpr fun c hc => by simp [owned c hc]
    rw [costsOf, mine, all, ← costed]
    rfl
  · have others : (rows.filter fun row => decide (row.itemId = i)) = [] :=
      List.filter_eq_nil_iff.mpr fun row hrow => by simp [own row hrow, Ne.symm hi]
    have nothing : (new.filter fun c => decide (c.item = i)) = [] :=
      List.filter_eq_nil_iff.mpr fun c hc => by simp [owned c hc, Ne.symm hi]
    rw [costsOf, others, nothing]
    rfl

/-- After a row of an item the replay stands at the item's average. -/
theorem wac_after {item : ItemId} {stock : ItemStock} {rows : List KardexRow}
    (replay : ReplayInvariant (s.record item stock rows)) (some_row : rows ≠ [])
    (own : ∀ row ∈ rows, row.itemId = item) :
    (rows.foldl rowEffect (s.valuation item)).wac = stock.weightedAverageCost := by
  have mine : (rows.filter fun row => decide (row.itemId = item)) = rows :=
    List.filter_eq_self.mpr fun row hrow => by simp [own row hrow]
  have wac := (replay.wac item).resolve_right fun hempty => some_row (by
    rw [StockState.record_kardexOf, mine] at hempty
    exact (List.append_eq_nil_iff.mp hempty).2)
  rw [ReplayInvariant.valuation_record, mine, StockState.record_items_self] at wac
  exact wac

theorem step (h : CostsTraced s costs) {op : StockOperation} (replayable : Replayable s op)
    (hstep : stockStep s op = .ok s') : CostsTraced s' (costs ++ rowCosts s s' op) := by
  have replay := h.replay.step replayable hstep
  cases op with
  | movement p =>
      obtain ⟨unitPrice, stocks, accepted⟩ := applyStockMovement_ok hstep
      have hresult := accepted.result
      subst hresult
      have own : ∀ row ∈ [movementRow s.nextId p (stockMovementQuantity p.quantity) unitPrice],
          row.itemId = p.itemId := by simp [movementRow]
      refine h.record replay own (by simp [rowCosts, ItemStock.costAfter]) ?_
      have wac := wac_after replay (List.cons_ne_nil _ _) own
      simp only [rowCosts, StockState.record_items_self, List.map_cons, List.map_nil, replayCosts,
        ItemStock.costAfter]
      exact congrArg (fun average => [(s.nextId, average)]) wac
  | transfer p =>
      obtain ⟨taken, stocks, accepted⟩ := executeWarehouseTransfer_ok hstep
      have hresult := accepted.result
      subst hresult
      have own : ∀ row ∈
          [transferRow s.nextId p .outgoing p.fromLocation
              (s.items p.itemId).weightedAverageCost,
            transferRow (s.nextId + 1) p .incoming p.toLocation
              (s.items p.itemId).weightedAverageCost], row.itemId = p.itemId := by
        simp [transferRow]
      refine h.record replay own (by simp [rowCosts, ItemStock.costAfter]) ?_
      have wac := wac_after replay (List.cons_ne_nil _ _) own
      have keeps : ∀ (v : Valuation) (row : KardexRow), row.documentType = .transfer →
          (rowEffect v row).wac = v.wac := by
        intro v row hdoc
        rw [rowEffect_transfer hdoc]
      rw [List.foldl_cons, List.foldl_cons, List.foldl_nil, keeps _ _ rfl, keeps _ _ rfl] at wac
      simp only [rowCosts, StockState.record_items_self, List.map_cons, List.map_nil, replayCosts,
        ItemStock.costAfter]
      rw [keeps (rowEffect _ _) _ rfl, keeps (s.valuation p.itemId) _ rfl, wac]
      rfl
  | void p =>
      obtain ⟨items, residues, accepted⟩ := deleteDocument_ok hstep
      refine ⟨replay, fun item => ?_⟩
      let flag := fun row : KardexRow =>
        if row.documentId = some p.documentId then row.softDelete else row
      have same : ∀ row : KardexRow, (flag row).id = row.id ∧
          ∀ v, rowEffect v (flag row) = rowEffect v row := by
        intro row
        simp only [flag]
        split <;> exact ⟨rfl, fun _ => rfl⟩
      have rows : s'.kardexOf item = (s.kardexOf item).map flag ++
          (reversalRows p s.nextId p.originalTxs).filter fun row => decide (row.itemId = item) := by
        have kept : ∀ row : KardexRow, (flag row).itemId = row.itemId := by
          intro row
          simp only [flag]
          split <;> rfl
        rw [accepted.result]
        simp only [StockState.kardexOf, softDeleteRows, List.filter_append, List.filter_map]
        congr 2
        refine List.filter_congr fun row _ => ?_
        simp only [Function.comp_apply]
        rw [kept]
      have agrees : ∀ orig ∈ p.originalTxs, WellShaped orig ∧
          Agrees (s.valuation orig.itemId) (s.items orig.itemId) := by
        intro orig horig
        have hmem := ((h.replay.consistent.mem_originalTxs accepted.live accepted.original).mp
          horig).1
        refine ⟨h.replay.consistent.shape orig hmem, h.replay.balance _,
          (h.replay.wac _).resolve_right fun hempty => ?_⟩
        have here : orig ∈ s.kardexOf orig.itemId :=
          KardexConsistent.mem_kardexOf.mpr ⟨hmem, rfl⟩
        simp [hempty] at here
      obtain ⟨costs_eq, fold_eq⟩ := replayCosts_map same ⟨0, 0⟩ (s.kardexOf item)
      rw [costsOf_append, h.traced, rows, replayCosts_append, costs_eq, fold_eq]
      exact congrArg _ (reversalCosts_eq p s.nextId accepted.reversed agrees item)

theorem run {ops : List StockOperation} (h : CostsTraced s costs)
    (replayable : Along stockStep Replayable s ops) :
    CostsTraced (runStock s ops) (costs ++ engineCosts s ops) := by
  induction ops generalizing s costs with
  | nil => simpa [engineCosts] using h
  | cons op ops ih =>
      obtain ⟨meets, rest⟩ := replayable
      rw [runStock, run_cons, engineCosts]
      cases hstep : stockStep s op with
      | ok t =>
          rw [exec_of_ok hstep] at rest ⊢
          dsimp only
          rw [← List.append_assoc]
          exact ih (h.step (meets t hstep) hstep) rest
      | error e =>
          rw [exec_of_error hstep] at rest ⊢
          exact ih h rest

theorem initial (cost : ItemId → OpeningCost) : CostsTraced (.initial cost) [] :=
  ⟨.initial cost, fun _ => rfl⟩

end CostsTraced

/-! ## What the running Kardex shows -/

theorem find?_key {α β : Type*} [DecidableEq α] {l : List (α × β)} (nodup : (l.map Prod.fst).Nodup)
    {p : α × β} (hp : p ∈ l) : (l.find? fun q => decide (q.1 = p.1)) = some p := by
  induction l with
  | nil => simp at hp
  | cons head rest ih =>
      rw [List.map_cons, List.nodup_cons] at nodup
      rcases List.mem_cons.mp hp with rfl | hp
      · simp
      · have apart : head.1 ≠ p.1 := fun same => nodup.1 (same ▸ List.mem_map_of_mem hp)
        rw [List.find?_cons_of_neg (by simpa using apart)]
        exact ih nodup.2 hp

theorem engineCostOf_eq (costs : List RowCost) (item : ItemId) (row : ℕ) :
    engineCostOf costs item row =
      ((costsOf costs item).find? fun p => decide (p.1 = row)).map Prod.snd := by
  rw [engineCostOf, costsOf, List.find?_map, List.find?_filter, Option.map_map]
  have same : (fun c : RowCost => decide (c.item = item ∧ c.row = row)) = fun c =>
      decide (decide (c.item = item) = true ∧
        ((fun p : ℕ × ℚ => decide (p.1 = row)) ∘ fun c : RowCost => (c.row, c.average)) c =
          true) := by
    funext c
    simp
  rw [same]
  rfl

section Shown

variable {s : StockState} {costs : List RowCost} {item : ItemId}

/-- The replayed average of a row is the recorded one. -/
theorem CostsTraced.engineCostOf_row (h : CostsTraced s costs) {p : ℕ × ℚ}
    (hp : p ∈ costsOf costs item) : engineCostOf costs item p.1 = some p.2 ∧
      wacAfterRow (s.kardexOf item) p.1 = p.2 := by
  have sorted := h.replay.consistent.kardexOf_sorted item
  have nodup : ((costsOf costs item).map Prod.fst).Nodup := by
    rw [h.traced, replayCosts_ids, List.Nodup, List.pairwise_map]
    exact sorted.imp fun hab => hab.ne
  have found := find?_key nodup hp
  refine ⟨by rw [engineCostOf_eq, found, Option.map_some], ?_⟩
  rw [wacAfterRow, sortById_of_sorted sorted,
    replayedWacs_eq (fun row hrow => h.replay.consistent.settled hrow), ← h.traced, found]
  rfl

theorem CostsTraced.nonneg {p : ℕ × ℚ} (hp : p ∈ costsOf costs item) : 0 ≤ p.2 := by
  obtain ⟨c, -, rfl⟩ := List.mem_map.mp hp
  exact c.valid.2

/-- The rows of an item and its recorded averages are the same ids. -/
theorem CostsTraced.exists_cost (h : CostsTraced s costs) {row : KardexRow}
    (hrow : row ∈ s.kardexOf item) : ∃ p ∈ costsOf costs item, p.1 = row.id := by
  have hid : row.id ∈ (costsOf costs item).map Prod.fst := by
    rw [h.traced, replayCosts_ids]
    exact List.mem_map_of_mem hrow
  exact List.mem_map.mp hid

theorem CostsTraced.exists_row (h : CostsTraced s costs) {p : ℕ × ℚ}
    (hp : p ∈ costsOf costs item) : ∃ row ∈ s.kardexOf item, row.id = p.1 := by
  have hid : p.1 ∈ (s.kardexOf item).map KardexRow.id := by
    rw [← replayCosts_ids ⟨0, 0⟩, ← h.traced]
    exact List.mem_map_of_mem hp
  exact List.mem_map.mp hid

/-- The entries of the running Kardex, one for each row. -/
theorem KardexConsistent.mem_entries (h : KardexConsistent s) {id : ℕ} {wac : ℚ} :
    (id, wac) ∈ (s.runningKardex item).entries.map (fun entry =>
        (entry.transactionId, entry.runningWac)) ↔
      ∃ row ∈ s.kardexOf item, row.id = id ∧
        rowWac (s.kardexOf item) (s.items item).weightedAverageCost row = wac := by
  have walk := h.walk item (s.items item).weightedAverageCost
  have shown : (s.runningKardex item).entries.map
        (fun entry => (entry.transactionId, entry.runningWac)) =
      (inLedgerOrder (s.kardexOf item)).map fun row =>
        (row.id, rowWac (s.kardexOf item) (s.items item).weightedAverageCost row) :=
    map_entries walk.entries fun _ _ _ _ => rfl
  rw [shown, List.mem_map]
  simp only [inLedgerOrder, List.mem_insertionSort, Prod.mk.injEq]

/-- The shown averages are the engine's exactly when no row was written at an
average of zero of an item that has a cost now. -/
theorem CostsTraced.costsAgree_iff (h : CostsTraced s costs) :
    CostsAgree costs item (s.runningKardex item) ↔
      ∀ c ∈ costs, c.item = item → c.average = 0 → (s.items item).weightedAverageCost = 0 := by
  have entries : ∀ {id : ℕ} {wac : ℚ}, (id, wac) ∈ (s.runningKardex item).entries.map
        (fun entry => (entry.transactionId, entry.runningWac)) ↔
      ∃ row ∈ s.kardexOf item, row.id = id ∧
        rowWac (s.kardexOf item) (s.items item).weightedAverageCost row = wac :=
    h.replay.consistent.mem_entries
  constructor
  · intro agree c hc hitem hzero
    have hp : (c.row, c.average) ∈ costsOf costs item :=
      List.mem_map.mpr ⟨c, List.mem_filter.mpr ⟨hc, by simpa using hitem⟩, rfl⟩
    obtain ⟨engine, replayed⟩ := h.engineCostOf_row hp
    obtain ⟨row, hrow, hid⟩ := h.exists_row hp
    obtain ⟨entry, hentry, hshown⟩ := List.mem_map.mp (entries.mpr ⟨row, hrow, rfl, rfl⟩)
    rw [Prod.mk.injEq] at hshown
    have shown := agree entry hentry
    rw [hshown.1, hshown.2, hid, engine, Option.some.injEq, rowWac, hid, replayed] at shown
    simpa [hzero] using shown.symm
  · intro positive entry hentry
    obtain ⟨row, hrow, hid, hwac⟩ := entries.mp (List.mem_map_of_mem hentry)
    obtain ⟨p, hp, hprow⟩ := h.exists_cost hrow
    obtain ⟨engine, replayed⟩ := h.engineCostOf_row hp
    rw [← hid, ← hprow, engine, ← hwac, Option.some.injEq, rowWac, ← hprow, replayed]
    split
    · rfl
    · rename_i hpos
      have hzero : p.2 = 0 := le_antisymm (le_of_not_gt hpos) (nonneg hp)
      obtain ⟨c, hc, hcp⟩ := List.mem_map.mp hp
      obtain ⟨hc, hitem⟩ := List.mem_filter.mp hc
      rw [hzero, positive c hc (by simpa using hitem) (by rw [← hzero, ← hcp])]

end Shown

/-- After any requests the running Kardex ends with the item's stock, the stock
of each warehouse and the sum of the ledger rows, and every range and page leads
where the whole ledger leads. Where the replay reads the receipts as the engine
did, the averages shown are the engine's exactly when no row of the item was
written at an average of zero, or the item's average is zero now. -/
theorem running_kardex_agrees (cost : ItemId → OpeningCost) (ops : List StockOperation)
    (item : ItemId) :
    let s := runStock (.initial cost) ops
    let costs := engineCosts (.initial cost) ops
    QuantitiesAgree s item (s.runningKardex item) ∧
      (∀ fromDay toDay limit, RangeCloses (s.runningKardex item) fromDay toDay limit) ∧
      (Along stockStep Replayable (.initial cost) ops →
        (CostsAgree costs item (s.runningKardex item) ↔
          ∀ c ∈ costs, c.item = item → c.average = 0 →
            (s.items item).weightedAverageCost = 0)) := by
  refine ⟨quantities_agree cost ops item, ranges_close cost ops item, fun replayable => ?_⟩
  exact ((CostsTraced.initial cost).run replayable).costsAgree_iff

/-- Two units received at no price, then one at 9: the first row was written at
an average of 0 and is shown at the average of today. -/
theorem running_kardex_shows_present_average :
    let ops := [receiptOf 1 2 0 "R-1", receiptOf 2 1 9 "R-2"]
    let s := runStock (.initial noCost) ops
    let costs := engineCosts (.initial noCost) ops
    Along stockStep Replayable (.initial noCost) ops ∧
      (costs.map fun c => (c.row, c.average)) = [(1, 0), (2, 3)] ∧
      ((s.runningKardex 1).entries.map fun entry => (entry.transactionId, entry.runningWac)) =
        [(1, 3), (2, 3)] ∧
      ¬CostsAgree costs 1 (s.runningKardex 1) := by
  refine ⟨along_of_forall (fun _ op hop => ?_) _, by decide +kernel, by decide +kernel,
    by decide +kernel⟩
  simp only [List.mem_cons, List.not_mem_nil, or_false] at hop
  rcases hop with rfl | rfl <;> exact fun _ => ⟨by decide +kernel, by decide +kernel⟩

end PapitalErp
