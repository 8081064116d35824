import PapitalErp.Documents.KardexConsistency

/-!
# Stock never goes negative in history

The ledger of an item, read in (day, id) order, never takes more out of a
warehouse than was in it, and ends at the stock the item carries there. Rows
are added at the end of their day, possibly in the middle of the ledger, and a
void takes rows out of the middle; each guard of the engine is what one of
these needs.
-/

namespace PapitalErp

open Rounding Transition DocumentStockEngine PrefixSums

/-- One item in one warehouse: never overdrawn, and ending at its stock. -/
structure HistoryHolds (ledger : List KardexRow) (warehouse : WarehouseId) (stock : ℚ) : Prop where
  neverNegative : NeverNegative (KardexRow.quantityIn warehouse) (inLedgerOrder ledger)
  ends : ((inLedgerOrder ledger).map (KardexRow.quantityIn warehouse)).sum = stock

/-! ## The ledger of a consistent table -/

/-- Live rows that reverse nothing, of one item. -/
def liveLedger (rows : List KardexRow) (item : ItemId) : List KardexRow :=
  rows.filter fun t => decide (t.itemId = item) && (!t.isDeleted && t.reversalOfId.isNone)

theorem mem_liveLedger {rows : List KardexRow} {item : ItemId} {t : KardexRow} :
    t ∈ liveLedger rows item ↔
      t ∈ rows ∧ t.itemId = item ∧ t.isDeleted = false ∧ t.reversalOfId = none := by
  simp [liveLedger]

namespace KardexConsistent

variable {s : StockState}

theorem isLedgerRow_eq (h : KardexConsistent s) {t : KardexRow} (ht : t ∈ s.rows) :
    isLedgerRow s.rows t = (!t.isDeleted && t.reversalOfId.isNone) := by
  unfold isLedgerRow
  cases hrev : t.reversalOfId with
  | none => simp
  | some id =>
      obtain ⟨orig, horig, hreverses, hdel⟩ := h.reversal t ht (by simp [hrev])
      have reversed : (s.rows.any fun o => decide (some id = some o.id) && o.isDeleted) = true := by
        refine List.any_eq_true.mpr ⟨orig, horig, ?_⟩
        simp [hdel, ← hrev, hreverses.original]
      rw [reversed]
      simp

theorem itemLedger_eq (h : KardexConsistent s) (item : ItemId) :
    itemLedger s.rows item = liveLedger s.rows item :=
  List.filter_congr fun t ht => by rw [h.isLedgerRow_eq ht]

theorem liveLedger_sorted (h : KardexConsistent s) (item : ItemId) :
    (liveLedger s.rows item).Pairwise fun a b => a.id < b.id :=
  h.sorted.filter _

theorem liveLedger_shape (h : KardexConsistent s) (item : ItemId) :
    ∀ t ∈ liveLedger s.rows item, WellShaped t :=
  fun t ht => h.shape t (mem_liveLedger.mp ht).1

end KardexConsistent

/-- Rows with growing ids are told apart by their ids. -/
theorem eq_of_id_eq {rows : List KardexRow} (sorted : rows.Pairwise fun a b => a.id < b.id)
    {a b : KardexRow} (ha : a ∈ rows) (hb : b ∈ rows) (hid : a.id = b.id) : a = b := by
  induction rows with
  | nil => simp at ha
  | cons head rest ih =>
      rw [List.pairwise_cons] at sorted
      rcases List.mem_cons.mp ha with ha | ha <;> rcases List.mem_cons.mp hb with hb | hb
      · exact ha.trans hb.symm
      · exact absurd (ha ▸ hid) (sorted.1 b hb).ne
      · exact absurd (hb ▸ hid).symm (sorted.1 a ha).ne
      · exact ih sorted.2 ha hb

theorem strict_of_sorted {rows : List KardexRow}
    (sorted : rows.Pairwise fun a b => a.id < b.id) :
    ∀ a ∈ rows, ∀ b ∈ rows, LedgerLe a b → LedgerLe b a → a = b :=
  fun _ ha _ hb hab hba => eq_of_id_eq sorted ha hb (ledgerLe_antisymm hab hba)

/-! ## A new row at the end of its day -/

/-- Rows dated before a boundary. -/
abbrev datedBefore (boundary : ℤ) (t : KardexRow) : Bool := decide (t.day < boundary)

theorem inLedgerOrder_split {ledger : List KardexRow}
    (sorted : ledger.Pairwise fun a b => a.id < b.id) (boundary : ℤ) :
    inLedgerOrder ledger = inLedgerOrder (ledger.filter (datedBefore boundary)) ++
      inLedgerOrder (ledger.filter fun t => !datedBefore boundary t) := by
  refine insertionSort_split _ (strict_of_sorted sorted) ?_
  intro a _ b _ ha hb
  simp only [datedBefore, decide_eq_true_eq, decide_eq_false_iff_not] at ha hb
  unfold LedgerLe
  omega

theorem inLedgerOrder_append {ledger : List KardexRow} {row : KardexRow}
    (sorted : (ledger ++ [row]).Pairwise fun a b => a.id < b.id) :
    inLedgerOrder (ledger ++ [row]) =
      inLedgerOrder (ledger.filter (datedBefore (row.day + 1))) ++
        row :: inLedgerOrder (ledger.filter fun t => !datedBefore (row.day + 1) t) := by
  have newest : ∀ a ∈ ledger, a.id < row.id := fun a ha =>
    (List.pairwise_append.mp sorted).2.2 a ha row (List.mem_singleton_self row)
  refine insertionSort_append_singleton _ (strict_of_sorted sorted) ?_ ?_ ?_
  · intro a ha hday
    have := newest a ha
    simp only [datedBefore, decide_eq_true_eq] at hday
    unfold LedgerLe
    omega
  · intro a ha hday
    simp only [datedBefore, decide_eq_false_iff_not] at hday
    unfold LedgerLe
    omega
  · intro a _ b _ ha hb
    simp only [datedBefore, decide_eq_true_eq, decide_eq_false_iff_not] at ha hb
    unfold LedgerLe
    omega

/-- The balance of a warehouse in a ledger of well-shaped rows is a
four-decimal quantity. -/
theorem atScale_sum_quantityIn {rows : List KardexRow} (shape : ∀ t ∈ rows, WellShaped t)
    (warehouse : WarehouseId) : AtScale 4 (rows.map (KardexRow.quantityIn warehouse)).sum := by
  refine AtScale.sum fun x hx => ?_
  obtain ⟨t, ht, rfl⟩ := List.mem_map.mp hx
  have hscale := (shape t ht).quantity_atScale
  unfold KardexRow.quantityIn KardexRow.signedQuantity
  rcases (shape t ht).type with htype | htype <;> rw [htype] <;> split
  · exact hscale
  · exact AtScale.zero 4
  · exact hscale.neg
  · exact AtScale.zero 4

/-- What the date guard and the live stock together give for an issue: every
balance from the end of its day on bears it. -/
def Bears (ledger : List KardexRow) (row : KardexRow) : Prop :=
  ∀ p, p <+: inLedgerOrder (ledger.filter fun t => !datedBefore (row.day + 1) t) →
    row.quantity ≤
      ((inLedgerOrder (ledger.filter (datedBefore (row.day + 1)))).map
        (KardexRow.quantityIn row.location)).sum +
      (p.map (KardexRow.quantityIn row.location)).sum

theorem sum_inLedgerOrder (ledger : List KardexRow) (f : KardexRow → ℚ) :
    ((inLedgerOrder ledger).map f).sum = (ledger.map f).sum :=
  ((List.perm_insertionSort LedgerLe ledger).map f).sum_eq

/-- A new row keeps the history when it brings goods in, or when the warehouse
bears it. -/
theorem HistoryHolds.append {ledger : List KardexRow} {row : KardexRow}
    {warehouse : WarehouseId} {stock : ℚ} (h : HistoryHolds ledger warehouse stock)
    (sorted : (ledger ++ [row]).Pairwise fun a b => a.id < b.id) (shape : WellShaped row)
    (bears : row.type = .outgoing → Bears ledger row) :
    HistoryHolds (ledger ++ [row]) warehouse (stock + row.quantityIn warehouse) := by
  have old := inLedgerOrder_split (List.pairwise_append.mp sorted).1 (row.day + 1)
  refine ⟨?_, ?_⟩
  · have hold := h.neverNegative
    rw [old] at hold
    rw [inLedgerOrder_append sorted]
    rcases shape.type with htype | htype
    · refine hold.insert_of_nonneg ?_
      have := shape.quantity_pos
      unfold KardexRow.quantityIn KardexRow.signedQuantity
      rw [htype]
      split
      · exact this.le
      · exact le_rfl
    · by_cases hw : row.location = warehouse
      · refine hold.insert fun p hp => ?_
        have := bears htype p hp
        rw [hw] at this
        simp only [KardexRow.quantityIn, KardexRow.signedQuantity, hw, htype, if_true,
          signed_outgoing] at this ⊢
        linarith
      · refine hold.insert_of_nonneg (le_of_eq ?_)
        simp [KardexRow.quantityIn, hw]
  · rw [sum_inLedgerOrder, List.map_append, List.sum_append, ← sum_inLedgerOrder, h.ends]
    simp

/-- An issue that passes the date guard and finds its stock is borne. -/
theorem bears_of_accepted {s : StockState} (consistent : KardexConsistent s)
    {row : KardexRow} {check : StockMovementDateCheck}
    (h : ∀ warehouse, HistoryHolds (liveLedger s.rows row.itemId) warehouse
      ((s.items row.itemId).stocks.currentStock warehouse))
    (hitem : check.itemId = row.itemId) (hday : check.day = row.day)
    (hloc : check.warehouseId = row.location) (hqty : check.quantity = row.quantity)
    (hout : check.inOut = .outgoing) (hscale : AtScale 4 row.quantity)
    (dated : assertStockMovementDate s.rows check = .ok ())
    (available : row.quantity ≤ (s.items row.itemId).stocks.currentStock row.location) :
    Bears (liveLedger s.rows row.itemId) row := by
  intro p hp
  have ledger := consistent.itemLedger_eq row.itemId
  have shape := consistent.liveLedger_shape row.itemId
  rw [sum_inLedgerOrder]
  rcases assertStockMovementDate_ok dated hout with latest | borne
  · -- nothing is dated later, so the balance is the live stock
    rw [hitem, ledger, hday] at latest
    have all : (liveLedger s.rows row.itemId).filter (datedBefore (row.day + 1)) =
        liveLedger s.rows row.itemId := by
      refine List.filter_eq_self.mpr fun t ht => ?_
      have := latest t ht
      simp only [datedBefore, decide_eq_true_eq]
      omega
    have none : (liveLedger s.rows row.itemId).filter (fun t => !datedBefore (row.day + 1) t) =
        [] := by
      refine List.filter_eq_nil_iff.mpr fun t ht => ?_
      have := latest t ht
      simp only [datedBefore, Bool.not_eq_true', decide_eq_false_iff_not]
      omega
    rw [none] at hp
    have hp : p = [] := List.prefix_nil.mp hp
    have hends := (h row.location).ends
    rw [sum_inLedgerOrder] at hends
    rw [all, hends, hp]
    simpa using available
  · rw [hitem, hday, hloc, hqty] at borne
    have hledger : (itemLedgerFromDay s.rows row.itemId (row.day + 1)).rows =
        inLedgerOrder ((liveLedger s.rows row.itemId).filter
          fun t => !datedBefore (row.day + 1) t) := by
      rw [itemLedgerFromDay, ledger]
    have hopening : (itemLedgerFromDay s.rows row.itemId (row.day + 1)).opening row.location =
        (((liveLedger s.rows row.itemId).filter (datedBefore (row.day + 1))).map
          (KardexRow.quantityIn row.location)).sum := by
      rw [itemLedgerFromDay, ledger]
    have hmin := minimumStockFromDay_le s.rows row.itemId row.day row.location (hledger ▸ hp)
    rw [hopening] at hmin
    have hp_mem : ∀ t ∈ p, WellShaped t := by
      intro t ht
      have := (List.mem_insertionSort LedgerLe).mp (hp.subset ht)
      exact shape t (List.mem_of_mem_filter this)
    have early : ∀ t ∈ (liveLedger s.rows row.itemId).filter (datedBefore (row.day + 1)),
        WellShaped t := fun t ht => shape t (List.mem_of_mem_filter ht)
    have scale := ((atScale_sum_quantityIn early row.location).add
      (atScale_sum_quantityIn hp_mem row.location)).sub hscale
    refine sub_nonneg.mp (scale.nonneg_of_neg_lt (ε := QTY_TOLERANCE) ?_ ?_)
    · linarith
    · norm_num [QTY_TOLERANCE]

/-! ## Rows taken out by a void -/

/-- The ledger of an item without the rows of a voided document. -/
abbrev keeps (document : DocumentId) (t : KardexRow) : Bool :=
  decide (t.documentId ≠ some document)

section Void

variable {s s' : StockState} {p : VoidDocumentParams} {items : ItemId → ItemStock}
  {residues : List (ItemId × ℚ)}

theorem liveLedger_append (a b : List KardexRow) (item : ItemId) :
    liveLedger (a ++ b) item = liveLedger a item ++ liveLedger b item :=
  List.filter_append ..

theorem liveLedger_softDeleteRows (document : DocumentId) (rows : List KardexRow)
    (item : ItemId) : liveLedger (softDeleteRows document rows) item =
      (liveLedger rows item).filter (keeps document) := by
  induction rows with
  | nil => rfl
  | cons row rest ih =>
      simp only [softDeleteRows, liveLedger, List.map_cons, List.filter_cons] at ih ⊢
      by_cases hd : row.documentId = some document
      · simp only [hd, if_true, KardexRow.softDelete_isDeleted, Bool.not_true, Bool.false_and,
          Bool.and_false, Bool.false_eq_true, if_false, ih]
        split <;> simp [hd]
      · simp only [hd, if_false, ih]
        split <;> simp [hd]

/-- A void takes the document's rows out of the ledger and puts none in. -/
theorem liveLedger_void (accepted : VoidAccepted s s' p items residues) (item : ItemId) :
    liveLedger s'.rows item = (liveLedger s.rows item).filter (keeps p.documentId) := by
  rw [accepted.result]
  have none_new : liveLedger (reversalRows p s.nextId p.originalTxs) item = [] := by
    refine List.filter_eq_nil_iff.mpr fun t ht => ?_
    obtain ⟨orig, -, id, -, -, rfl⟩ := mem_reversalRows ht
    simp [reversalRow]
  rw [liveLedger_append, none_new, List.append_nil, liveLedger_softDeleteRows]

theorem reverseItem_currentStock {item item' : ItemStock} {origs : List KardexRow} {left : ℚ}
    (shape : ∀ orig ∈ origs, WellShaped orig) (h : reverseItem item origs = .ok (item', left))
    (warehouse : WarehouseId) : item'.stocks.currentStock warehouse =
      item.stocks.currentStock warehouse -
        (origs.map (KardexRow.quantityIn warehouse)).sum := by
  induction origs generalizing item left with
  | nil =>
      rw [(reverseItem_nil h).1]
      simp
  | cons orig rest ih =>
      obtain ⟨next, r, r', hone, hrest, -⟩ := reverseItem_cons h
      have hshape := shape orig List.mem_cons_self
      have accepted := applyStockReversal_ok hshape.quantity_atScale hone
      rw [ih (fun o ho => shape o (List.mem_cons_of_mem _ ho)) hrest, accepted.moved.at_eq]
      have back : (if warehouse = orig.location then
          signed (reversalDirection orig).type orig.quantity else 0) =
            -orig.quantityIn warehouse := by
        unfold KardexRow.quantityIn KardexRow.signedQuantity reversalDirection
        rcases hshape.type with htype | htype <;> rw [htype] <;>
          by_cases hw : warehouse = orig.location <;>
            simp [hw, Ne.symm, eq_comm, StockDirection.type]
      rw [back, List.map_cons, List.sum_cons]
      ring

/-- The rows a void reverses for one item are the ones it takes out of the ledger. -/
theorem originalTxs_item (consistent : KardexConsistent s)
    (accepted : VoidAccepted s s' p items residues) (item : ItemId) :
    (p.originalTxs.filter fun row => decide (row.itemId = item)).Perm
      ((liveLedger s.rows item).filter fun t => !keeps p.documentId t) := by
  refine (accepted.original.filter _).trans (List.Perm.of_eq ?_)
  rw [liveLedger, List.filter_filter, List.filter_filter]
  refine List.filter_congr fun t ht => ?_
  by_cases hd : t.documentId = some p.documentId
  · obtain ⟨hdel, hrev⟩ := consistent.of_live ht hd accepted.live
    simp [hd, hdel, hrev]
  · simp [hd]

/-- The first day of a document's rows bounds each of them. -/
theorem firstDayOf_le {docRows : List KardexRow} {t : KardexRow} (ht : t ∈ docRows) :
    firstDayOf docRows t.itemId ≤ t.day := by
  have hmem : t.day ∈ (docRows.filter fun r => decide (r.itemId = t.itemId)).map KardexRow.day :=
    List.mem_map_of_mem (List.mem_filter.mpr ⟨ht, by simp⟩)
  unfold firstDayOf
  cases hmin : ((docRows.filter fun r => decide (r.itemId = t.itemId)).map KardexRow.day).min? with
  | none =>
      rw [List.min?_eq_none_iff] at hmin
      simp [hmin] at hmem
  | some first => exact (List.min?_eq_some_iff.mp hmin).2 t.day hmem

/-- The rows of the item a void takes out, as the guard sees them. -/
theorem mem_voidableRows (consistent : KardexConsistent s)
    (live : p.documentId ∉ s.voidedDocuments) {t : KardexRow} :
    t ∈ voidableRows s.rows p.documentId ↔ t ∈ s.rows ∧ t.documentId = some p.documentId := by
  simp only [voidableRows, List.mem_filter, Bool.and_eq_true, decide_eq_true_eq,
    Bool.not_eq_true', Option.isNone_iff_eq_none]
  constructor
  · rintro ⟨ht, ⟨hd, -⟩, -⟩
    exact ⟨ht, hd⟩
  · rintro ⟨ht, hd⟩
    obtain ⟨hdel, hrev⟩ := consistent.of_live ht hd live
    exact ⟨ht, ⟨hd, hdel⟩, hrev⟩

/-- What the void guard gives: the ledger stays non-negative without the rows of
an item the document brought in. -/
theorem neverNegative_of_guard (consistent : KardexConsistent s)
    (accepted : VoidAccepted s s' p items residues) {item : ItemId} {warehouse : WarehouseId}
    (h : NeverNegative (KardexRow.quantityIn warehouse) (inLedgerOrder (liveLedger s.rows item)))
    {t : KardexRow} (ht : t ∈ liveLedger s.rows item) (hd : t.documentId = some p.documentId)
    (hin : isInType t.type) :
    NeverNegative (KardexRow.quantityIn warehouse)
      ((inLedgerOrder (liveLedger s.rows item)).filter (keeps p.documentId)) := by
  have voidable : ∀ {r : KardexRow}, r ∈ voidableRows s.rows p.documentId ↔
      r ∈ s.rows ∧ r.documentId = some p.documentId := mem_voidableRows consistent accepted.live
  obtain ⟨htrows, htitem, -⟩ := mem_liveLedger.mp ht
  have sorted := consistent.liveLedger_sorted item
  have shape := consistent.liveLedger_shape item
  have guard := assertVoidKeepsStockHistory_ok accepted.history (voidable.mpr ⟨htrows, hd⟩) hin
  rw [htitem] at guard
  let first := firstDayOf (voidableRows s.rows p.documentId) item
  have split := inLedgerOrder_split sorted first
  -- a row of the document is dated on or after the first day, so the early part is untouched
  have early : ∀ r ∈ inLedgerOrder ((liveLedger s.rows item).filter (datedBefore first)),
      keeps p.documentId r = true := by
    intro r hr
    obtain ⟨hr, hday⟩ := List.mem_filter.mp ((List.mem_insertionSort LedgerLe).mp hr)
    obtain ⟨hrrows, hritem, -⟩ := mem_liveLedger.mp hr
    simp only [datedBefore, decide_eq_true_eq] at hday
    simp only [keeps, ne_eq, decide_not, Bool.not_eq_true', decide_eq_false_iff_not]
    intro hrd
    have := firstDayOf_le (voidable.mpr ⟨hrrows, hrd⟩)
    rw [hritem] at this
    exact absurd hday (not_lt.mpr this)
  have removed : ∀ r ∈ liveLedger s.rows item,
      (if keeps p.documentId r then r.quantityIn warehouse else 0) =
        keptQuantityIn ((voidableRows s.rows p.documentId).map KardexRow.id) warehouse r := by
    intro r hr
    have hrrows := (mem_liveLedger.mp hr).1
    have listed : r.id ∈ (voidableRows s.rows p.documentId).map KardexRow.id ↔
        r.documentId = some p.documentId := by
      rw [List.mem_map]
      constructor
      · rintro ⟨o, ho, hid⟩
        obtain ⟨horows, hod⟩ := voidable.mp ho
        exact eq_of_id_eq consistent.sorted horows hrrows hid ▸ hod
      · exact fun hrd => ⟨r, voidable.mpr ⟨hrrows, hrd⟩, rfl⟩
    unfold keptQuantityIn
    by_cases hrd : r.documentId = some p.documentId
    · rw [if_pos (listed.mpr hrd)]
      simp [hrd]
    · rw [if_neg (mt listed.mp hrd)]
      simp [hrd]
  refine neverNegative_filter ?_
  rw [split] at h ⊢
  rw [neverNegative_append] at h ⊢
  obtain ⟨hearly, hlate⟩ := h
  have early_sum : ∀ q, q <+: inLedgerOrder ((liveLedger s.rows item).filter (datedBefore first)) →
      (q.map fun r => if keeps p.documentId r then r.quantityIn warehouse else 0).sum =
        (q.map (KardexRow.quantityIn warehouse)).sum := by
    intro q hq
    refine congrArg List.sum (List.map_congr_left fun r hr => ?_)
    rw [if_pos (early r (hq.subset hr))]
  refine ⟨fun q hq => (early_sum q hq).symm ▸ hearly q hq, fun q hq => ?_⟩
  rw [early_sum _ (List.prefix_refl _)]
  have late : ∀ r ∈ q, r ∈ liveLedger s.rows item := fun r hr =>
    List.mem_of_mem_filter ((List.mem_insertionSort LedgerLe).mp (hq.subset hr))
  have kept : (q.map fun r => if keeps p.documentId r then r.quantityIn warehouse else 0) =
      q.map (keptQuantityIn ((voidableRows s.rows p.documentId).map KardexRow.id) warehouse) :=
    List.map_congr_left fun r hr => removed r (late r hr)
  have balances := firstBrokenWarehouse_none guard warehouse (p := q) (by
    simpa [itemLedgerFromDay, consistent.itemLedger_eq] using hq)
  simp only [itemLedgerFromDay, consistent.itemLedger_eq, ← kept] at balances
  have opening := sum_inLedgerOrder ((liveLedger s.rows item).filter (datedBefore first))
    (KardexRow.quantityIn warehouse)
  have nonneg := hlate q hq
  rw [opening] at nonneg ⊢
  have scale : AtScale 4 ((((liveLedger s.rows item).filter (datedBefore first)).map
      (KardexRow.quantityIn warehouse)).sum +
        (q.map fun r => if keeps p.documentId r then r.quantityIn warehouse else 0).sum) := by
    rw [← sum_filter]
    exact (atScale_sum_quantityIn (fun r hr => shape r (List.mem_of_mem_filter hr)) _).add
      (atScale_sum_quantityIn (fun r hr => shape r (late r (List.mem_of_mem_filter hr))) _)
  refine scale.nonneg_of_neg_lt (ε := QTY_TOLERANCE) ?_ (by norm_num [QTY_TOLERANCE])
  -- below the tolerance only if the removal lowered the balance, which the guard refuses
  by_contra below
  have below := not_le.mp below
  exact balances ⟨below, by linarith⟩

/-- A void keeps the history of every item and every warehouse. -/
theorem HistoryHolds.void (consistent : KardexConsistent s)
    (accepted : VoidAccepted s s' p items residues) {item : ItemId} {warehouse : WarehouseId}
    (h : HistoryHolds (liveLedger s.rows item) warehouse
      ((s.items item).stocks.currentStock warehouse)) :
    HistoryHolds (liveLedger s'.rows item) warehouse
      ((s'.items item).stocks.currentStock warehouse) := by
  have sorted := consistent.liveLedger_sorted item
  have shape := consistent.liveLedger_shape item
  rw [liveLedger_void accepted]
  refine ⟨?_, ?_⟩
  · rw [inLedgerOrder, insertionSort_filter _ (strict_of_sorted sorted)]
    by_cases brought : ∃ t ∈ liveLedger s.rows item,
        t.documentId = some p.documentId ∧ isInType t.type
    · obtain ⟨t, ht, hd, hin⟩ := brought
      exact neverNegative_of_guard consistent accepted h.neverNegative ht hd hin
    · -- the document only took this item out
      refine h.neverNegative.filter_of_nonpos fun t ht hremoved => ?_
      have ht := (List.mem_insertionSort LedgerLe).mp ht
      have hd : t.documentId = some p.documentId := by simpa using hremoved
      have hq := (shape t ht).quantity_pos
      unfold KardexRow.quantityIn KardexRow.signedQuantity
      rcases (shape t ht).type with htype | htype
      · exact absurd ⟨t, ht, hd, by simp [htype, isInType]⟩ brought
      · rw [htype, signed_outgoing]
        split
        · linarith
        · exact le_rfl
  · have items_eq : s'.items = items := by rw [accepted.result]
    have hreverse := applyReversals_item (consistent.originalTxs_positive accepted)
      accepted.reversed item
    have origShape : ∀ orig ∈ p.originalTxs.filter fun row => decide (row.itemId = item),
        WellShaped orig := fun orig horig =>
      shape orig (List.mem_of_mem_filter
        ((originalTxs_item consistent accepted item).mem_iff.mp horig))
    have taken := ((originalTxs_item consistent accepted item).map
      (KardexRow.quantityIn warehouse)).sum_eq
    have parts := ((List.filter_append_perm (keeps p.documentId) (liveLedger s.rows item)).map
      (KardexRow.quantityIn warehouse)).sum_eq
    rw [List.map_append, List.sum_append, ← sum_inLedgerOrder (liveLedger s.rows item),
      h.ends] at parts
    rw [sum_inLedgerOrder, items_eq, reverseItem_currentStock origShape hreverse, taken]
    linarith

end Void

/-! ## Every reachable state -/

/-- The Kardex is consistent and every item's history holds in every warehouse. -/
structure StockHistoryInvariant (s : StockState) : Prop where
  consistent : KardexConsistent s
  holds : ∀ item warehouse, HistoryHolds (liveLedger s.rows item) warehouse
    ((s.items item).stocks.currentStock warehouse)

namespace StockHistoryInvariant

theorem initial (cost : ItemId → OpeningCost) : StockHistoryInvariant (.initial cost) where
  consistent := .initial cost
  holds _ _ := ⟨neverNegative_nil _, rfl⟩

variable {s : StockState}

/-- New live rows of one item lengthen its ledger and no other. -/
theorem liveLedger_record {item : ItemId} {stock : ItemStock} {new : List KardexRow}
    (live : ∀ t ∈ new, t.itemId = item ∧ t.isDeleted = false ∧ t.reversalOfId = none)
    (i : ItemId) : liveLedger (s.record item stock new).rows i =
      liveLedger s.rows i ++ if i = item then new else [] := by
  rw [StockState.record_rows, liveLedger_append]
  congr 1
  split
  · refine List.filter_eq_self.mpr fun t ht => ?_
    obtain ⟨hitem, hdel, hrev⟩ := live t ht
    simp [*]
  · refine List.filter_eq_nil_iff.mpr fun t ht => ?_
    obtain ⟨hitem, -, -⟩ := live t ht
    have : item ≠ i := Ne.symm ‹_›
    simp [hitem, this]

/-- What a row of a movement brings into a warehouse. -/
theorem quantityIn_of_type {row : KardexRow} (inOut : StockDirection)
    (htype : row.type = inOut.type) (warehouse : WarehouseId) : row.quantityIn warehouse =
      if warehouse = row.location then signed inOut.type row.quantity else 0 := by
  rw [KardexRow.quantityIn, KardexRow.signedQuantity, htype]
  simp only [eq_comm]

/-- Recording rows of one item keeps the invariant if its own history is kept. -/
theorem record (h : StockHistoryInvariant s) {item : ItemId} {stock : ItemStock}
    {new : List KardexRow} (consistent : KardexConsistent (s.record item stock new))
    (live : ∀ t ∈ new, t.itemId = item ∧ t.isDeleted = false ∧ t.reversalOfId = none)
    (holds : ∀ warehouse, HistoryHolds (liveLedger s.rows item ++ new) warehouse
      (stock.stocks.currentStock warehouse)) :
    StockHistoryInvariant (s.record item stock new) where
  consistent := consistent
  holds i warehouse := by
    rw [liveLedger_record live]
    by_cases hi : i = item
    · subst hi
      simpa using holds warehouse
    · simpa [hi, StockState.record_items_of_ne] using h.holds i warehouse

theorem step (h : StockHistoryInvariant s) {op : StockOperation} {s' : StockState}
    (hstep : stockStep s op = .ok s') : StockHistoryInvariant s' := by
  have next := h.consistent.step hstep
  cases op with
  | movement p =>
      obtain ⟨unitPrice, stocks, accepted⟩ := applyStockMovement_ok hstep
      have hresult := accepted.result
      rw [hresult] at next ⊢
      refine h.record next (by simp [movementRow]) fun warehouse => ?_
      have sorted := next.liveLedger_sorted p.itemId
      rw [liveLedger_record (by simp [movementRow]), if_pos rfl] at sorted
      have shape := next.shape _ (List.mem_append_right _ (List.mem_singleton_self _))
      have added := (h.holds p.itemId warehouse).append sorted shape fun hout => by
        have hout : p.inOut = .outgoing := by
          cases hdir : p.inOut <;> simp_all [movementRow, StockDirection.type]
        exact bears_of_accepted h.consistent (h.holds p.itemId) rfl rfl rfl rfl hout
          (atScale_roundHalfUp 4 _) accepted.dated (accepted.moved.available hout)
      rw [quantityIn_of_type p.inOut rfl] at added
      rw [movedStock, accepted.moved.at_eq]
      exact added
  | transfer p =>
      obtain ⟨taken, stocks, accepted⟩ := executeWarehouseTransfer_ok hstep
      have hresult := accepted.result
      rw [hresult] at next ⊢
      refine h.record next (by simp [transferRow]) fun warehouse => ?_
      have sorted := next.liveLedger_sorted p.itemId
      rw [liveLedger_record (by simp [transferRow]), if_pos rfl, ← List.singleton_append,
        ← List.append_assoc] at sorted
      have out_shape := next.shape _ (List.mem_append_right _ List.mem_cons_self)
      have in_shape := next.shape _ (List.mem_append_right _
        (List.mem_cons_of_mem _ (List.mem_singleton_self _)))
      have out := (h.holds p.itemId warehouse).append (List.pairwise_append.mp sorted).1 out_shape
        fun _ => bears_of_accepted h.consistent (h.holds p.itemId) rfl rfl rfl rfl rfl
          p.quantity_atScale accepted.dated (accepted.out.available rfl)
      rw [quantityIn_of_type .outgoing rfl] at out
      have into := out.append sorted in_shape fun hout => by
        simp [transferRow, StockDirection.type] at hout
      rw [quantityIn_of_type .incoming rfl] at into
      rw [← List.singleton_append, ← List.append_assoc, accepted.into.at_eq, accepted.out.at_eq]
      exact into
  | void p =>
      obtain ⟨items, residues, accepted⟩ := deleteDocument_ok hstep
      exact ⟨next, fun item warehouse => (h.holds item warehouse).void h.consistent accepted⟩

theorem run (h : StockHistoryInvariant s) (ops : List StockOperation) :
    StockHistoryInvariant (runStock s ops) :=
  run_invariant (fun _ _ _ hs hstep => hs.step hstep) h ops

end StockHistoryInvariant

/-- After any requests, every item's ledger read in (day, id) order is
overdrawn in no warehouse, and ends at the stock the item carries there. -/
theorem stock_never_negative_in_history (cost : ItemId → OpeningCost)
    (ops : List StockOperation) (item : ItemId) (warehouse : WarehouseId) :
    let s := runStock (.initial cost) ops
    let ledger := inLedgerOrder (itemLedger s.rows item)
    NeverNegative (KardexRow.quantityIn warehouse) ledger ∧
      (ledger.map (KardexRow.quantityIn warehouse)).sum =
        (s.items item).stocks.currentStock warehouse := by
  have h := (StockHistoryInvariant.initial cost).run ops
  have holds := h.holds item warehouse
  rw [← h.consistent.itemLedger_eq] at holds
  exact ⟨holds.neverNegative, holds.ends⟩

end PapitalErp
