import PapitalErp.Documents.StockEngine

/-!
# What the stock operations keep true of the Kardex

One inversion lemma says what each operation can do; every invariant below, and
in the modules that follow, is derived from those lemmas. The table invariant
`KardexConsistent` is about the rows alone: ids grow, every reversal names a
deleted row and repeats it the other way round, every deleted row has been
reversed.
-/

namespace PapitalErp

open Rounding Transition

namespace StockState

/-- The state after a movement or a transfer of one item. -/
def record (s : StockState) (item : ItemId) (stock : ItemStock) (new : List KardexRow) :
    StockState :=
  { s with
    items := Function.update s.items item stock
    rows := s.rows ++ new
    nextId := s.nextId + new.length }

variable (s : StockState) (item : ItemId) (stock : ItemStock) (new : List KardexRow)

@[simp] theorem record_rows : (s.record item stock new).rows = s.rows ++ new := rfl

@[simp] theorem record_nextId : (s.record item stock new).nextId = s.nextId + new.length := rfl

@[simp] theorem record_voidedDocuments :
    (s.record item stock new).voidedDocuments = s.voidedDocuments := rfl

@[simp] theorem record_residueOf (i : ItemId) :
    (s.record item stock new).residueOf i = s.residueOf i := rfl

@[simp] theorem record_items_self : (s.record item stock new).items item = stock := by
  simp [record]

theorem record_items_of_ne {i : ItemId} (h : i ≠ item) :
    (s.record item stock new).items i = s.items i := by
  simp [record, h]

theorem record_kardexOf (i : ItemId) : (s.record item stock new).kardexOf i =
    s.kardexOf i ++ new.filter fun row => decide (row.itemId = i) := by
  simp [kardexOf]

end StockState

/-! ## What each operation can do -/

namespace DocumentStockEngine

open ItemWarehouseStockService (Moved applyMovement_moved)

/-- The stock of an item after a movement. -/
def movedStock (item : ItemStock) (p : ApplyStockMovementParams) (stocks : WarehouseStocks) :
    ItemStock :=
  ⟨money (movementWac item p (stockMovementQuantity p.quantity)), stocks,
    movementWac_valid item p (stockMovementQuantity p.quantity)⟩

structure MovementAccepted (s s' : StockState) (p : ApplyStockMovementParams) (unitPrice : ℚ)
    (stocks : WarehouseStocks) : Prop where
  price_nonneg : 0 ≤ p.price
  live : documentLive s p.documentId
  typed : documentHasType s p.documentId p.documentType
  dated : assertStockMovementDate s.rows
    { itemId := p.itemId, day := p.day, inOut := p.inOut
      quantity := stockMovementQuantity p.quantity, warehouseId := p.targetLoc
      allowBackdate := p.allowBackdate, today := p.today, yearOpen := p.yearOpen } = .ok ()
  booked : movementUnitPrice (s.items p.itemId).weightedAverageCost p = .ok unitPrice
  moved : Moved (s.items p.itemId).stocks stocks p.targetLoc p.inOut
    (stockMovementQuantity p.quantity)
  result : s' = s.record p.itemId (movedStock (s.items p.itemId) p stocks)
    [movementRow s.nextId p (stockMovementQuantity p.quantity) unitPrice]

theorem applyStockMovement_ok {s s' : StockState} {p : ApplyStockMovementParams}
    (h : applyStockMovement s p = .ok s') :
    ∃ unitPrice stocks, MovementAccepted s s' p unitPrice stocks := by
  simp only [applyStockMovement, bind_eq_ok, ensure_eq_ok, pure_eq_ok, exists_const] at h
  obtain ⟨_, hprice, _, hlive, ⟨⟩, hdate, unitPrice, hunit, stocks, hstocks, rfl⟩ := h
  exact ⟨unitPrice, stocks, hprice, hlive.1, hlive.2, hdate, hunit,
    applyMovement_moved (atScale_roundHalfUp 4 _) hstocks, rfl⟩

/-- What an accepted reversal of a row with a four-decimal quantity does. -/
structure ReversalAccepted (item item' : ItemStock) (orig : KardexRow) (residue : ℚ) : Prop where
  moved : Moved item.stocks item'.stocks orig.location (reversalDirection orig) orig.quantity
  wac_eq : item'.weightedAverageCost = money (reversalWac item item'.total orig).1
  residue_eq : residue = (reversalWac item item'.total orig).2

theorem applyStockReversal_ok {item item' : ItemStock} {orig : KardexRow} {residue : ℚ}
    (hscale : AtScale 4 orig.quantity)
    (h : applyStockReversal item orig = .ok (item', residue)) :
    ReversalAccepted item item' orig residue := by
  simp only [applyStockReversal, bind_eq_ok, pure_eq_ok, Prod.mk.injEq] at h
  obtain ⟨stocks, hstocks, rfl, rfl⟩ := h
  exact ⟨applyMovement_moved hscale hstocks, rfl, rfl⟩

end DocumentStockEngine

open ItemWarehouseStockService (Moved applyMovement_moved)

structure TransferAccepted (s s' : StockState) (p : WarehouseTransferParams)
    (taken stocks : WarehouseStocks) : Prop where
  positive : 0 < p.quantity
  apart : p.fromLocation ≠ p.toLocation
  live : p.documentId ∉ s.voidedDocuments
  fresh : ∀ row ∈ s.rows, row.documentId ≠ some p.documentId
  dated : assertStockMovementDate s.rows
    { itemId := p.itemId, day := p.day, inOut := .outgoing, quantity := p.quantity
      warehouseId := p.fromLocation, allowBackdate := p.allowBackdate, today := p.today
      yearOpen := p.yearOpen } = .ok ()
  out : Moved (s.items p.itemId).stocks taken p.fromLocation .outgoing p.quantity
  into : Moved taken stocks p.toLocation .incoming p.quantity
  result : s' = s.record p.itemId { s.items p.itemId with stocks := stocks }
    [transferRow s.nextId p .outgoing p.fromLocation (s.items p.itemId).weightedAverageCost,
      transferRow (s.nextId + 1) p .incoming p.toLocation (s.items p.itemId).weightedAverageCost]

theorem executeWarehouseTransfer_ok {s s' : StockState} {p : WarehouseTransferParams}
    (h : executeWarehouseTransfer s p = .ok s') :
    ∃ taken stocks, TransferAccepted s s' p taken stocks := by
  simp only [executeWarehouseTransfer, bind_eq_ok, ensure_eq_ok, pure_eq_ok, exists_const] at h
  obtain ⟨hq, _, hne, hlive, _, _, ⟨⟩, hdate, taken, htaken, stocks, hstocks, rfl⟩ := h
  exact ⟨taken, stocks, hq, hne, hlive.1, hlive.2, hdate, applyMovement_moved p.quantity_atScale htaken,
    applyMovement_moved p.quantity_atScale hstocks, rfl⟩

structure VoidAccepted (s s' : StockState) (p : VoidDocumentParams)
    (items : ItemId → ItemStock) (residues : List (ItemId × ℚ)) : Prop where
  live : p.documentId ∉ s.voidedDocuments
  history : assertVoidKeepsStockHistory s.rows p.documentId = .ok ()
  original : p.originalTxs.Perm (s.rows.filter fun t =>
    decide (t.documentId = some p.documentId) && !t.isDeleted)
  reversed : applyReversals s.items p.originalTxs = .ok (items, residues)
  result : s' =
    { items := items
      rows := softDeleteRows p.documentId s.rows ++ reversalRows p s.nextId p.originalTxs
      nextId := s.nextId + p.originalTxs.length
      voidedDocuments := p.documentId :: s.voidedDocuments
      residues := s.residues ++ residues }

theorem deleteDocument_ok {s s' : StockState} {p : VoidDocumentParams}
    (h : deleteDocument s p = .ok s') : ∃ items residues, VoidAccepted s s' p items residues := by
  simp only [deleteDocument, bind_eq_ok, ensure_eq_ok, pure_eq_ok, exists_const] at h
  obtain ⟨hlive, ⟨⟩, hhistory, _, horig, ⟨items, residues⟩, hrev, rfl⟩ := h
  exact ⟨items, residues, hlive, hhistory, horig, hrev, rfl⟩

/-! ## The reversal rows of a void -/

/-- A row as the rules of its item see it, whatever its id and its flag. -/
def KardexRow.core (row : KardexRow) : KardexRow := { row with id := 0, isDeleted := false }

theorem mem_reversalRows {p : VoidDocumentParams} {next : ℕ} {origs : List KardexRow}
    {row : KardexRow} (h : row ∈ reversalRows p next origs) :
    ∃ orig ∈ origs, ∃ id, next ≤ id ∧ id < next + origs.length ∧ row = reversalRow id p orig := by
  induction origs generalizing next with
  | nil => simp [reversalRows] at h
  | cons orig rest ih =>
      unfold reversalRows at h
      split at h
      · rcases List.mem_cons.mp h with rfl | h
        · exact ⟨orig, List.mem_cons_self, next, le_rfl, by simp, rfl⟩
        · obtain ⟨o, ho, id, hle, hlt, hrow⟩ := ih h
          exact ⟨o, List.mem_cons_of_mem _ ho, id, by omega, by simp only [List.length_cons]; omega,
            hrow⟩
      · obtain ⟨o, ho, id, hle, hlt, hrow⟩ := ih h
        exact ⟨o, List.mem_cons_of_mem _ ho, id, hle, by simp only [List.length_cons]; omega, hrow⟩

theorem reversalRows_sorted (p : VoidDocumentParams) (next : ℕ) (origs : List KardexRow) :
    (reversalRows p next origs).Pairwise fun a b => a.id < b.id := by
  induction origs generalizing next with
  | nil => exact List.Pairwise.nil
  | cons orig rest ih =>
      unfold reversalRows
      split
      · refine List.pairwise_cons.mpr ⟨fun row hrow => ?_, ih _⟩
        obtain ⟨o, -, id, hle, -, rfl⟩ := mem_reversalRows hrow
        change next < id
        omega
      · exact ih _

theorem exists_reversalRow (p : VoidDocumentParams) (next : ℕ) {origs : List KardexRow}
    {orig : KardexRow} (h : orig ∈ origs) (hq : 0 < orig.quantity) :
    ∃ id, reversalRow id p orig ∈ reversalRows p next origs := by
  induction origs generalizing next with
  | nil => simp at h
  | cons head rest ih =>
      unfold reversalRows
      rcases List.mem_cons.mp h with rfl | h
      · exact ⟨next, by simp [hq]⟩
      · split
        · obtain ⟨id, hid⟩ := ih (next + 1) h
          exact ⟨id, List.mem_cons_of_mem _ hid⟩
        · exact ih next h

/-- The reversal rows of one item, up to their ids. -/
theorem reversalRows_core (p : VoidDocumentParams) (next : ℕ) {origs : List KardexRow}
    (positive : ∀ orig ∈ origs, 0 < orig.quantity) (item : ItemId) :
    ((reversalRows p next origs).filter fun row => decide (row.itemId = item)).map
        KardexRow.core =
      (origs.filter fun row => decide (row.itemId = item)).map (reversalRow 0 p) := by
  induction origs generalizing next with
  | nil => rfl
  | cons orig rest ih =>
      have tail := ih (next + 1) fun o ho => positive o (List.mem_cons_of_mem _ ho)
      unfold reversalRows
      rw [if_pos (positive orig List.mem_cons_self)]
      have same : (reversalRow next p orig).itemId = orig.itemId := rfl
      by_cases hitem : orig.itemId = item
      · simp only [List.filter_cons, same, hitem, decide_true, if_true, List.map_cons, tail]
        rfl
      · simp only [List.filter_cons, same, hitem, decide_false, Bool.false_eq_true, if_false,
          tail]

/-! ## The table invariant -/

/-- What every row the engine writes looks like. -/
structure WellShaped (row : KardexRow) : Prop where
  type : row.type = .incoming ∨ row.type = .outgoing
  quantity_pos : 0 < row.quantity
  quantity_atScale : AtScale 4 row.quantity
  unitPrice : AtScale 4 row.unitPrice ∧ 0 ≤ row.unitPrice
  totalPrice : AtScale 4 row.totalPrice

/-- A reversal row repeats its original the other way round. -/
structure Reverses (rev orig : KardexRow) : Prop where
  original : rev.reversalOfId = some orig.id
  itemId : rev.itemId = orig.itemId
  documentId : rev.documentId = orig.documentId
  documentType : rev.documentType = orig.documentType

structure KardexConsistent (s : StockState) : Prop where
  sorted : s.rows.Pairwise fun a b => a.id < b.id
  below : ∀ row ∈ s.rows, row.id < s.nextId
  shape : ∀ row ∈ s.rows, WellShaped row
  deleted : ∀ row ∈ s.rows, row.isDeleted = true ↔
    row.reversalOfId = none ∧ ∃ d ∈ s.voidedDocuments, row.documentId = some d
  reversal : ∀ row ∈ s.rows, row.reversalOfId.isSome →
    ∃ orig ∈ s.rows, Reverses row orig ∧ orig.isDeleted = true
  reversed : ∀ row ∈ s.rows, row.isDeleted = true → ∃ rev ∈ s.rows, Reverses rev row

namespace KardexConsistent

variable {s : StockState}

theorem initial (cost : ItemId → OpeningCost) : KardexConsistent (.initial cost) where
  sorted := List.Pairwise.nil
  below := by simp [StockState.initial]
  shape := by simp [StockState.initial]
  deleted := by simp [StockState.initial]
  reversal := by simp [StockState.initial]
  reversed := by simp [StockState.initial]

/-- The rows of a live document are live and reverse nothing. -/
theorem of_live (h : KardexConsistent s) {row : KardexRow} (hrow : row ∈ s.rows) {d : DocumentId}
    (hd : row.documentId = some d) (live : d ∉ s.voidedDocuments) :
    row.isDeleted = false ∧ row.reversalOfId = none := by
  have not_voided : ∀ r ∈ s.rows, r.documentId = some d → r.isDeleted = false := by
    intro r hr hrd
    by_contra hdel
    obtain ⟨-, d', hd', heq⟩ := (h.deleted r hr).mp (by simpa using hdel)
    rw [hrd, Option.some.injEq] at heq
    exact live (heq ▸ hd')
  refine ⟨not_voided row hrow hd, ?_⟩
  by_contra hrev
  obtain ⟨orig, horig, hreverses, hdel⟩ :=
    h.reversal row hrow (Option.isSome_iff_ne_none.mpr hrev)
  have := not_voided orig horig (hreverses.documentId ▸ hd)
  simp [this] at hdel

/-- Recording rows of a live document keeps the table consistent. -/
theorem record (h : KardexConsistent s) (item : ItemId) (stock : ItemStock)
    {new : List KardexRow} (sorted : new.Pairwise fun a b => a.id < b.id)
    (ids : ∀ row ∈ new, s.nextId ≤ row.id ∧ row.id < s.nextId + new.length)
    (fresh : ∀ row ∈ new, WellShaped row ∧ row.isDeleted = false ∧ row.reversalOfId = none ∧
      DocumentStockEngine.documentLive s row.documentId) :
    KardexConsistent (s.record item stock new) where
  sorted := by
    rw [StockState.record_rows, List.pairwise_append]
    refine ⟨h.sorted, sorted, fun a ha b hb => ?_⟩
    have := h.below a ha
    have := (ids b hb).1
    omega
  below := by
    intro row hrow
    rcases List.mem_append.mp hrow with hrow | hrow
    · have := h.below row hrow
      rw [StockState.record_nextId]
      omega
    · exact (ids row hrow).2
  shape := by
    intro row hrow
    rcases List.mem_append.mp hrow with hrow | hrow
    · exact h.shape row hrow
    · exact (fresh row hrow).1
  deleted := by
    intro row hrow
    rcases List.mem_append.mp hrow with hrow | hrow
    · exact h.deleted row hrow
    · obtain ⟨-, hdel, -, live⟩ := fresh row hrow
      simp only [hdel, Bool.false_eq_true, StockState.record_voidedDocuments, false_iff]
      rintro ⟨-, d, hd, heq⟩
      exact live d heq hd
  reversal := by
    intro row hrow hrev
    rcases List.mem_append.mp hrow with hrow | hrow
    · obtain ⟨orig, horig, hreverses⟩ := h.reversal row hrow hrev
      exact ⟨orig, List.mem_append_left _ horig, hreverses⟩
    · simp [(fresh row hrow).2.2.1] at hrev
  reversed := by
    intro row hrow hdel
    rcases List.mem_append.mp hrow with hrow | hrow
    · obtain ⟨rev, hrev, hreverses⟩ := h.reversed row hrow hdel
      exact ⟨rev, List.mem_append_left _ hrev, hreverses⟩
    · simp [(fresh row hrow).2.1] at hdel

theorem mem_originalTxs (h : KardexConsistent s) {p : VoidDocumentParams}
    (live : p.documentId ∉ s.voidedDocuments)
    (original : p.originalTxs.Perm (s.rows.filter fun t =>
      decide (t.documentId = some p.documentId) && !t.isDeleted)) {row : KardexRow} :
    row ∈ p.originalTxs ↔ row ∈ s.rows ∧ row.documentId = some p.documentId := by
  rw [original.mem_iff, List.mem_filter]
  constructor
  · rintro ⟨hrow, hd⟩
    simp only [Bool.and_eq_true, decide_eq_true_eq] at hd
    exact ⟨hrow, hd.1⟩
  · rintro ⟨hrow, hd⟩
    simp [hrow, hd, (h.of_live hrow hd live).1]

theorem mem_softDeleteRows {d : DocumentId} {rows : List KardexRow} {row : KardexRow} :
    row ∈ softDeleteRows d rows ↔
      (∃ r ∈ rows, r.documentId = some d ∧ row = r.softDelete) ∨
        (row ∈ rows ∧ row.documentId ≠ some d) := by
  unfold softDeleteRows
  rw [List.mem_map]
  constructor
  · rintro ⟨r, hr, rfl⟩
    split
    · exact .inl ⟨r, hr, ‹_›, rfl⟩
    · exact .inr ⟨hr, ‹_›⟩
  · rintro (⟨r, hr, hd, rfl⟩ | ⟨hr, hd⟩)
    · exact ⟨r, hr, by simp [hd]⟩
    · exact ⟨row, hr, by simp [hd]⟩

/-- A void keeps the table consistent. -/
theorem void (h : KardexConsistent s) {s' : StockState} {p : VoidDocumentParams}
    {items : ItemId → ItemStock} {residues : List (ItemId × ℚ)}
    (accepted : VoidAccepted s s' p items residues) : KardexConsistent s' := by
  obtain ⟨live, -, original, -, rfl⟩ := accepted
  have hmem : ∀ {row : KardexRow}, row ∈ p.originalTxs ↔
      row ∈ s.rows ∧ row.documentId = some p.documentId :=
    h.mem_originalTxs live original
  -- a reversal row, or the deleted row it reverses, belongs to a document voided earlier
  have earlier : ∀ row ∈ s.rows, row.isDeleted = true ∨ row.reversalOfId.isSome →
      row.documentId ≠ some p.documentId := by
    intro row hrow hold hd
    obtain ⟨hdel, hrev⟩ := h.of_live hrow hd live
    simp [hdel, hrev] at hold
  have softDelete_mem : ∀ {row : KardexRow}, row ∈ p.originalTxs →
      row.softDelete ∈ softDeleteRows p.documentId s.rows := by
    intro row hrow
    obtain ⟨hrow, hd⟩ := hmem.mp hrow
    exact mem_softDeleteRows.mpr (.inl ⟨row, hrow, hd, rfl⟩)
  have reverses : ∀ (id : ℕ) {orig : KardexRow}, orig ∈ p.originalTxs →
      Reverses (reversalRow id p orig) orig.softDelete := by
    intro id orig horig
    exact ⟨rfl, rfl, (hmem.mp horig).2.symm, rfl⟩
  refine ⟨?_, ?_, ?_, ?_, ?_, ?_⟩
  · rw [List.pairwise_append]
    refine ⟨?_, reversalRows_sorted p _ _, ?_⟩
    · unfold softDeleteRows
      rw [List.pairwise_map]
      refine h.sorted.imp fun {a b} hab => ?_
      split <;> split <;> exact hab
    · intro a ha b hb
      obtain ⟨orig, -, id, hle, -, rfl⟩ := mem_reversalRows hb
      have : a.id < s.nextId := by
        rcases mem_softDeleteRows.mp ha with ⟨r, hr, -, rfl⟩ | ⟨hr, -⟩
        · exact h.below r hr
        · exact h.below a hr
      change a.id < id
      omega
  · intro row hrow
    rcases List.mem_append.mp hrow with hrow | hrow
    · have : row.id < s.nextId := by
        rcases mem_softDeleteRows.mp hrow with ⟨r, hr, -, rfl⟩ | ⟨hr, -⟩
        · exact h.below r hr
        · exact h.below row hr
      dsimp only
      omega
    · obtain ⟨orig, -, id, -, hlt, rfl⟩ := mem_reversalRows hrow
      exact hlt
  · intro row hrow
    rcases List.mem_append.mp hrow with hrow | hrow
    · rcases mem_softDeleteRows.mp hrow with ⟨r, hr, -, rfl⟩ | ⟨hr, -⟩
      · obtain ⟨htype, hq, hscale, hprice, htotal⟩ := h.shape r hr
        exact ⟨htype, hq, hscale, hprice, htotal⟩
      · exact h.shape row hr
    · obtain ⟨orig, horig, id, -, -, rfl⟩ := mem_reversalRows hrow
      obtain ⟨-, hq, hscale, hprice, -⟩ := h.shape orig (hmem.mp horig).1
      refine ⟨?_, hq, hscale, ⟨atScale_money _, money_nonneg hprice.2⟩, atScale_money _⟩
      unfold reversalRow
      dsimp only
      split <;> simp
  · intro row hrow
    rcases List.mem_append.mp hrow with hrow | hrow
    · rcases mem_softDeleteRows.mp hrow with ⟨r, hr, hd, rfl⟩ | ⟨hr, hd⟩
      · simpa [hd] using (h.of_live hr hd live).2
      · rw [h.deleted row hr]
        simp [hd]
    · obtain ⟨orig, -, id, -, -, rfl⟩ := mem_reversalRows hrow
      simp [reversalRow]
  · intro row hrow hrev
    rcases List.mem_append.mp hrow with hrow | hrow
    · rcases mem_softDeleteRows.mp hrow with ⟨r, hr, hd, rfl⟩ | ⟨hr, hd⟩
      · simp [(h.of_live hr hd live).2] at hrev
      · obtain ⟨orig, horig, hreverses, hdel⟩ := h.reversal row hr hrev
        refine ⟨orig, List.mem_append_left _ ?_, hreverses, hdel⟩
        exact mem_softDeleteRows.mpr (.inr ⟨horig, earlier orig horig (.inl hdel)⟩)
    · obtain ⟨orig, horig, id, -, -, rfl⟩ := mem_reversalRows hrow
      exact ⟨orig.softDelete, List.mem_append_left _ (softDelete_mem horig), reverses id horig,
        rfl⟩
  · intro row hrow hdel
    rcases List.mem_append.mp hrow with hrow | hrow
    · rcases mem_softDeleteRows.mp hrow with ⟨r, hr, hd, rfl⟩ | ⟨hr, hd⟩
      · have horig := hmem.mpr ⟨hr, hd⟩
        obtain ⟨id, hid⟩ :=
          exists_reversalRow p s.nextId horig (h.shape r hr).quantity_pos
        exact ⟨_, List.mem_append_right _ hid, reverses id horig⟩
      · obtain ⟨rev, hrev, hreverses⟩ := h.reversed row hr hdel
        refine ⟨rev, List.mem_append_left _ ?_, hreverses⟩
        refine mem_softDeleteRows.mpr (.inr ⟨hrev, earlier rev hrev (.inr ?_)⟩)
        simp [hreverses.original]
    · obtain ⟨orig, -, id, -, -, rfl⟩ := mem_reversalRows hrow
      simp [reversalRow] at hdel

open DocumentStockEngine

theorem movementUnitPrice_nonneg {wac unitPrice : ℚ} {p : ApplyStockMovementParams}
    (hprice : 0 ≤ p.price) (h : movementUnitPrice wac p = .ok unitPrice) : 0 ≤ unitPrice := by
  unfold movementUnitPrice at h
  split at h
  · split_ifs at h <;> cases h
    · exact le_of_lt ‹_›
    · exact le_rfl
  · split_ifs at h with hc <;> cases h
    · exact hc.2.le
    · exact hprice

theorem movementRow_shape (id : ℕ) {p : ApplyStockMovementParams} {unitPrice : ℚ}
    (hq : 0 < stockMovementQuantity p.quantity) (hu : 0 ≤ unitPrice) :
    WellShaped (movementRow id p (stockMovementQuantity p.quantity) unitPrice) where
  type := by cases h : p.inOut <;> simp [movementRow, StockDirection.type, h]
  quantity_pos := hq
  quantity_atScale := atScale_roundHalfUp 4 _
  unitPrice := ⟨atScale_money _, money_nonneg hu⟩
  totalPrice := atScale_money _

theorem transferRow_shape (id : ℕ) {p : WarehouseTransferParams} (inOut : StockDirection)
    (location : WarehouseId) {unitPrice : ℚ} (hq : 0 < p.quantity) (hu : 0 ≤ unitPrice) :
    WellShaped (transferRow id p inOut location unitPrice) where
  type := by cases inOut <;> simp [transferRow, StockDirection.type]
  quantity_pos := hq
  quantity_atScale := p.quantity_atScale
  unitPrice := ⟨atScale_money _, money_nonneg hu⟩
  totalPrice := atScale_money _

/-- Every accepted operation keeps the table consistent. -/
theorem step (h : KardexConsistent s) {op : StockOperation} {s' : StockState}
    (hstep : stockStep s op = .ok s') : KardexConsistent s' := by
  cases op with
  | movement p =>
      obtain ⟨unitPrice, stocks, accepted⟩ := applyStockMovement_ok hstep
      rw [accepted.result]
      have hu := movementUnitPrice_nonneg accepted.price_nonneg accepted.booked
      refine h.record _ _ (List.pairwise_singleton _ _) ?_ ?_
      · intro row hrow
        rw [List.mem_singleton.mp hrow]
        simp [movementRow]
      · intro row hrow
        rw [List.mem_singleton.mp hrow]
        exact ⟨movementRow_shape _ accepted.moved.positive hu, rfl, rfl, accepted.live⟩
  | transfer p =>
      obtain ⟨taken, stocks, accepted⟩ := executeWarehouseTransfer_ok hstep
      rw [accepted.result]
      have hu := (s.items p.itemId).valid.2
      refine h.record _ _ ?_ ?_ ?_
      · simp [transferRow]
      · intro row hrow
        simp only [List.mem_cons, List.not_mem_nil, or_false] at hrow
        rcases hrow with rfl | rfl <;> simp [transferRow]
      · have live : documentLive s (some p.documentId) := by
          simpa [documentLive] using accepted.live
        intro row hrow
        simp only [List.mem_cons, List.not_mem_nil, or_false] at hrow
        rcases hrow with rfl | rfl <;>
          exact ⟨transferRow_shape _ _ _ accepted.positive hu, rfl, rfl, live⟩
  | void p =>
      obtain ⟨items, residues, accepted⟩ := deleteDocument_ok hstep
      exact h.void accepted

theorem run (h : KardexConsistent s) (ops : List StockOperation) :
    KardexConsistent (runStock s ops) :=
  run_invariant (fun _ _ _ hs hstep => hs.step hstep) h ops

/-! ## One item's Kardex -/

theorem mem_kardexOf {item : ItemId} {row : KardexRow} :
    row ∈ s.kardexOf item ↔ row ∈ s.rows ∧ row.itemId = item := by
  simp [StockState.kardexOf]

theorem kardexOf_sorted (h : KardexConsistent s) (item : ItemId) :
    (s.kardexOf item).Pairwise fun a b => a.id < b.id :=
  h.sorted.filter _

private theorem find?_by_id {rows : List KardexRow} (sorted : rows.Pairwise fun a b => a.id < b.id)
    {orig : KardexRow} (horig : orig ∈ rows) :
    (rows.find? fun o => decide (o.id = orig.id)) = some orig := by
  induction rows with
  | nil => simp at horig
  | cons head rest ih =>
      rw [List.pairwise_cons] at sorted
      rcases List.mem_cons.mp horig with rfl | horig
      · simp
      · have : head.id ≠ orig.id := (sorted.1 orig horig).ne
        simpa [this] using ih sorted.2 horig

/-- The replay reads every row of a consistent table by the row's own effect. -/
theorem settled (h : KardexConsistent s) {item : ItemId} {row : KardexRow}
    (hrow : row ∈ s.kardexOf item) : KardexReplay.Settled (s.kardexOf item) row := by
  obtain ⟨hmem, hitem⟩ := mem_kardexOf.mp hrow
  refine ⟨?_, ?_, ?_⟩
  · rcases (h.shape row hmem).type with htype | htype <;> simp [htype, isInType, isOutType]
  · intro hdel
    refine ⟨((h.deleted row hmem).mp hdel).1, ?_⟩
    obtain ⟨rev, hrev, hreverses⟩ := h.reversed row hmem hdel
    have live : rev.isDeleted = false := by
      by_contra hc
      have := ((h.deleted rev hrev).mp (by simpa using hc)).1
      simp [hreverses.original] at this
    refine List.any_eq_true.mpr ⟨rev, mem_kardexOf.mpr ⟨hrev, ?_⟩, ?_⟩
    · rw [hreverses.itemId, hitem]
    · simp [live, hreverses.original]
  · intro id hid
    obtain ⟨orig, horig, hreverses, hdel⟩ := h.reversal row hmem (by simp [hid])
    have hin : orig ∈ s.kardexOf item :=
      mem_kardexOf.mpr ⟨horig, by rw [← hreverses.itemId, hitem]⟩
    refine ⟨orig, ?_, hdel, hreverses.documentType.symm⟩
    rw [KardexReplay.originalOf, hreverses.original, Option.bind_some]
    exact find?_by_id (h.kardexOf_sorted item) hin

end KardexConsistent

/-! ## A void, item by item -/

/-- The reversals of one item's rows: the item after them and what they leave
behind. -/
def reverseItem : ItemStock → List KardexRow → Except StockError (ItemStock × ℚ)
  | item, [] => .ok (item, 0)
  | item, orig :: rest => do
      let (item, residue) ← DocumentStockEngine.applyStockReversal item orig
      let (item, residues) ← reverseItem item rest
      return (item, residue + residues)

theorem reverseItem_nil {item item' : ItemStock} {left : ℚ}
    (h : reverseItem item [] = .ok (item', left)) : item' = item ∧ left = 0 := by
  simp only [reverseItem, Except.ok.injEq, Prod.mk.injEq] at h
  exact ⟨h.1.symm, h.2.symm⟩

theorem reverseItem_cons {item item' : ItemStock} {orig : KardexRow} {rest : List KardexRow}
    {left : ℚ} (h : reverseItem item (orig :: rest) = .ok (item', left)) :
    ∃ next r r', DocumentStockEngine.applyStockReversal item orig = .ok (next, r) ∧
      reverseItem next rest = .ok (item', r') ∧ left = r + r' := by
  simp only [reverseItem, bind_eq_ok, pure_eq_ok, Prod.exists, Prod.mk.injEq] at h
  obtain ⟨next, r, hone, last, r', hrest, rfl, rfl⟩ := h
  exact ⟨next, r, r', hone, hrest, rfl⟩

/-- Items do not interact: a void reverses each item's rows on its own. -/
theorem applyReversals_item {items items' : ItemId → ItemStock} {origs : List KardexRow}
    {residues : List (ItemId × ℚ)} (positive : ∀ orig ∈ origs, 0 < orig.quantity)
    (h : applyReversals items origs = .ok (items', residues)) (i : ItemId) :
    reverseItem (items i) (origs.filter fun row => decide (row.itemId = i)) =
      .ok (items' i, ((residues.filter fun r => decide (r.1 = i)).map Prod.snd).sum) := by
  induction origs generalizing items residues with
  | nil =>
      cases h
      simp [reverseItem]
  | cons orig rest ih =>
      unfold applyReversals at h
      rw [if_pos (positive orig List.mem_cons_self)] at h
      simp only [bind_eq_ok, pure_eq_ok, Prod.exists, Prod.mk.injEq] at h
      obtain ⟨item, residue, hone, items'', residues', hrest, rfl, rfl⟩ := h
      have tail := ih (fun o ho => positive o (List.mem_cons_of_mem _ ho)) hrest
      by_cases hi : orig.itemId = i
      · subst hi
        rw [Function.update_self] at tail
        simp only [List.filter_cons, decide_true, if_true, reverseItem, bind_eq_ok, pure_eq_ok,
          Prod.exists, Prod.mk.injEq, List.map_cons, List.sum_cons]
        exact ⟨item, residue, hone, _, _, tail, rfl, rfl⟩
      · rw [Function.update_of_ne (Ne.symm hi)] at tail
        simpa [List.filter_cons, hi] using tail

namespace KardexConsistent

variable {s s' : StockState} {p : VoidDocumentParams} {items : ItemId → ItemStock}
  {residues : List (ItemId × ℚ)}

theorem originalTxs_positive (h : KardexConsistent s) (accepted : VoidAccepted s s' p items residues) :
    ∀ orig ∈ p.originalTxs, 0 < orig.quantity := by
  intro orig horig
  exact (h.shape orig ((h.mem_originalTxs accepted.live accepted.original).mp horig).1).quantity_pos

/-- A void appends the item's reversal rows and, ids and flags aside, changes no
old row. -/
theorem void_kardexOf (h : KardexConsistent s) (accepted : VoidAccepted s s' p items residues)
    (item : ItemId) : (s'.kardexOf item).map KardexRow.core =
      (s.kardexOf item).map KardexRow.core ++
        (p.originalTxs.filter fun row => decide (row.itemId = item)).map (reversalRow 0 p) := by
  have old : ((softDeleteRows p.documentId s.rows).filter fun row =>
      decide (row.itemId = item)).map KardexRow.core = (s.kardexOf item).map KardexRow.core := by
    unfold softDeleteRows StockState.kardexOf
    rw [List.filter_map, List.map_map]
    have same : ∀ row : KardexRow,
        (if row.documentId = some p.documentId then row.softDelete else row).itemId =
          row.itemId ∧
        (if row.documentId = some p.documentId then row.softDelete else row).core =
          row.core := by
      intro row
      split <;> exact ⟨rfl, rfl⟩
    simp only [Function.comp_def, (same _).1, (same _).2]
  have positive := h.originalTxs_positive accepted
  rw [accepted.result]
  simp only [StockState.kardexOf, List.filter_append, List.map_append]
  rw [reversalRows_core p s.nextId positive item, old]
  rfl

end KardexConsistent

end PapitalErp
