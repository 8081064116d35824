import PapitalErp.FinancialDecimal
import PapitalErp.Projects.ReservationRelease

/-!
# Giving a reservation back

Each release is recorded with what it took from every row (`project_reservation_releases`,
where a quantity has four decimals), and `restoreProjectReservations` puts it back: on the
first row that the recorded item and row match and that holds its quantity in the same
field, or on the recorded row again. Releases and restores of a project follow one another
in any order; what is restored goes back to the item that it was taken from as long as no
two rows of different items are taken for one another.

The items are those of one table throughout, and the project is there.
-/

namespace PapitalErp.Reservation

open ItemMatch FilteredSums Lots Rounding

/-- A release is of a document or of a material allocation. -/
inductive ReleaseSource
  | document (id : ℕ)
  | bomAllocation (id : ℕ)
  deriving DecidableEq

/-- A recorded deduction (`project_reservation_releases`). -/
structure StoredRelease where
  source : ReleaseSource
  deduction : ProjectReservationDeduction
  restored : Bool

/-- A deduction as the table holds it. -/
def storedDeduction (d : ProjectReservationDeduction) : ProjectReservationDeduction :=
  { d with quantity := money d.quantity }

/-- The rows of a project and the records of its releases, in the order of their ids. -/
structure ProjectReservations where
  rows : List ReservationRow
  records : List StoredRelease

/-- What `restoreProjectReservations` returns, with the rows that it writes. -/
structure ReservationRestore where
  reservedList : List ReservationRow
  restoredQuantity : ℚ
  restoredItemIds : List ℕ

inductive ReservationOp
  | release (source : ReleaseSource) (lines : List ReleaseLine)
  | restore (source : ReleaseSource)

section

variable (js : RowScript)

/-- What a deduction's row is looked for with. -/
def restoreTarget (d : ProjectReservationDeduction) : MatchTarget :=
  ⟨(d.itemId.map fun (id : ℕ) => JsonValue.num (id : ℚ)).or d.row.itemId, d.row.itemCode,
    d.row.itemName⟩

/-- The rows that a deduction may be put on. -/
def restoresTo (d : ProjectReservationDeduction) (r : ReservationRow) : Bool :=
  reservationRowMatches js r (restoreTarget d) && decide (reservationQtyField r = some d.qtyField)

/-- One turn of the loop over the deductions, on the rows. -/
def restoreRow (rows : List ReservationRow) (d : ProjectReservationDeduction) : List ReservationRow :=
  if 0 < d.quantity then
    match rows.findIdx? (restoresTo js d) with
    | some idx => rows.modify idx fun r => r.set d.qtyField (r.qty d.qtyField + d.quantity)
    | none => rows ++ [d.row.set d.qtyField d.quantity]
  else rows

def restoreDeduction (s : ReservationRestore) (d : ProjectReservationDeduction) : ReservationRestore :=
  { reservedList := restoreRow js s.reservedList d
    restoredQuantity := if 0 < d.quantity then s.restoredQuantity + d.quantity else s.restoredQuantity
    restoredItemIds :=
      match d.itemId with
      | some id => if 0 < d.quantity ∧ id ≠ 0 then addTo s.restoredItemIds id else s.restoredItemIds
      | none => s.restoredItemIds }

def restoreProjectReservations (rows : List ReservationRow)
    (deductions : List ProjectReservationDeduction) : ReservationRestore :=
  deductions.foldl (restoreDeduction js) ⟨rows, 0, []⟩

/-- The records that the restore of a source reads. -/
def StoredRelease.pending (source : ReleaseSource) (record : StoredRelease) : Bool :=
  decide (record.source = source) && !record.restored

/-- A release or a restore in its transaction. A record must have a positive quantity
(`chk_prr_quantity_positive`). -/
def reservationStep (table : ItemTable) (s : ProjectReservations) :
    ReservationOp → ProjectReservations
  | .release source lines =>
      let result := releaseProjectReservations js table s.rows lines
      let stored := result.deductions.map storedDeduction
      if stored.all fun d => 0 < d.quantity then
        { rows := result.reservedList
          records := s.records ++ stored.map fun d => ⟨source, d, false⟩ }
      else s
  | .restore source =>
      let records := s.records.filter (StoredRelease.pending source)
      { rows := (restoreProjectReservations js s.rows (records.map fun r => r.deduction)).reservedList
        records := s.records.map fun r => if r.pending source then { r with restored := true } else r }

end

variable {js : RowScript} {table : ItemTable} {rows₀ rows : List ReservationRow}

/-! ## Rows that come from a list -/

/-- A row of the same names and the same quantity field as one of the list, with a quantity
of four decimals. -/
structure Descends (rows₀ : List ReservationRow) (r : ReservationRow) : Prop where
  origin : ∃ r₀ ∈ rows₀, r.names = r₀.names ∧ reservationQtyField r = reservationQtyField r₀
  scaled : AtScale 4 (reservedAmount r)

/-- A deduction that a release from such rows takes. -/
structure Deducted (js : RowScript) (table : ItemTable) (rows₀ : List ReservationRow)
    (d : ProjectReservationDeduction) : Prop where
  row : Descends rows₀ d.row
  item : ∃ item ∈ table.all, d.itemId = some item.id ∧ rowsOf js item d.row = true
  field : reservationQtyField d.row = some d.qtyField
  positive : 0 < d.quantity
  scaled : AtScale 4 d.quantity

/-- No row is taken for a row of another item: a row that the release of an item may take
from, and one that the recorded names and field of the first may be put on, are of one
item. -/
def Distinguished (js : RowScript) (table : ItemTable) (rows₀ : List ReservationRow) : Prop :=
  ∀ r ∈ rows₀, ∀ r' ∈ rows₀, ∀ item ∈ table.all, (reservationQtyField r).isSome →
    reservationQtyField r' = reservationQtyField r → rowsOf js item r = true →
      reservationRowMatches js r' ⟨some (.num item.id), r.itemCode, r.itemName⟩ = true →
        rowOwner js table.catalog r' = rowOwner js table.catalog r

/-- The quantities of four decimals. -/
def fourDecimals : AddSubgroup ℚ where
  carrier := { x | AtScale 4 x }
  add_mem' := AtScale.add
  zero_mem' := atScale_four_zero
  neg_mem' := AtScale.neg

theorem Descends.withReserved {r : ReservationRow} (h : Descends rows₀ r) (hr : 0 < reservedAmount r)
    {x : ℚ} (hx : 0 < x) (scaled : AtScale 4 x) : Descends rows₀ (withReserved r x) := by
  obtain ⟨⟨r₀, member, names, field⟩, -⟩ := h
  refine ⟨⟨r₀, member, (names_withReserved r x).trans names, (field_withReserved hr hx).trans field⟩, ?_⟩
  have amount : reservedAmount (Reservation.withReserved r x) = x :=
    reservationRows.amount_withAmount r x hr hx
  rw [amount]
  exact scaled

/-! ## One deduction is put back -/

theorem restoreRow_eq {d : ProjectReservationDeduction} (field : reservationQtyField d.row = some d.qtyField)
    (positive : 0 < d.quantity) (rows : List ReservationRow) :
    restoreRow js rows d = replenish reservationRows (restoresTo js d) d.quantity d.row rows := by
  rw [restoreRow, if_pos positive]
  induction rows with
  | nil =>
    rw [replenish, reservationRows_withAmount, withReserved_of_field field]
    rfl
  | cons r rows ih =>
    rw [replenish, List.findIdx?_cons]
    by_cases answers : restoresTo js d r = true
    · have same : reservationQtyField r = some d.qtyField := by
        unfold restoresTo at answers
        rw [Bool.and_eq_true] at answers
        exact of_decide_eq_true answers.2
      rw [if_pos answers, if_pos answers, reservationRows_withAmount, withReserved_of_field same,
        reservationRows_amount, reservedAmount_of_field same]
      rfl
    · rw [if_neg answers, if_neg answers, ← ih]
      cases rows.findIdx? (restoresTo js d) with
      | none => rfl
      | some idx => rfl

variable {d : ProjectReservationDeduction}

/-- The rows that a deduction may be put on are of the item of its own row. -/
theorem Deducted.owner_of_restoresTo (hd : Deducted js table rows₀ d) (h : Distinguished js table rows₀)
    {r : ReservationRow} (hr : Descends rows₀ r) (answers : restoresTo js d r = true) :
    0 < reservedAmount r ∧ rowOwner js table.catalog r = rowOwner js table.catalog d.row := by
  unfold restoresTo at answers
  rw [Bool.and_eq_true] at answers
  obtain ⟨matched, same⟩ := answers
  have field := of_decide_eq_true same
  obtain ⟨r₀, member, names, r_field⟩ := hr.origin
  obtain ⟨d₀, d_member, d_names, d_field⟩ := hd.row.origin
  obtain ⟨item, known, itemId, found⟩ := hd.item
  refine ⟨reservedAmount_pos_iff.mpr (by rw [field]; rfl), ?_⟩
  have d_some : (reservationQtyField d₀).isSome := by
    rw [← d_field, hd.field]
    rfl
  have fields : reservationQtyField r₀ = reservationQtyField d₀ := by
    rw [← r_field, ← d_field, field, hd.field]
  have target : restoreTarget d = ⟨some (.num item.id), d₀.itemCode, d₀.itemName⟩ := by
    have shape := d_names
    simp only [ReservationRow.names, List.cons.injEq, and_true] at shape
    rw [restoreTarget, itemId, shape.2.1, shape.2.2.2.1]
    rfl
  rw [target, matches_congr names] at matched
  rw [rowsOf_congr d_names] at found
  rw [rowOwner_congr names, rowOwner_congr d_names]
  exact h d₀ d_member r₀ member item known d_some fields found matched

theorem Deducted.reserved_restoreRow (hd : Deducted js table rows₀ d) (h : Distinguished js table rows₀)
    (hrows : ∀ r ∈ rows, Descends rows₀ r) (id : ℕ) :
    reserved js table.catalog (restoreRow js rows d) id =
      reserved js table.catalog rows id +
        if owns js table.catalog id d.row then d.quantity else 0 := by
  have row_positive : 0 < reservedAmount d.row := reservedAmount_pos_iff.mpr (by rw [hd.field]; rfl)
  rw [restoreRow_eq hd.field hd.positive]
  refine sum_replenish (stable_owns id) hd.positive row_positive fun r hr answers => ?_
  obtain ⟨positive, same⟩ := hd.owner_of_restoresTo h (hrows r hr) answers
  exact ⟨positive, by rw [owns, owns, same]⟩

theorem Deducted.descends_restoreRow (hd : Deducted js table rows₀ d)
    (hrows : ∀ r ∈ rows, Descends rows₀ r) : ∀ r ∈ restoreRow js rows d, Descends rows₀ r := by
  intro r hr
  rw [restoreRow_eq hd.field hd.positive] at hr
  rcases of_mem_replenish hr with old | rfl | ⟨s, hs, answers, rfl⟩
  · exact hrows r old
  · exact hd.row.withReserved (reservedAmount_pos_iff.mpr (by rw [hd.field]; rfl)) hd.positive hd.scaled
  · unfold restoresTo at answers
    rw [Bool.and_eq_true] at answers
    have positive : 0 < reservedAmount s :=
      reservedAmount_pos_iff.mpr (by rw [of_decide_eq_true answers.2]; rfl)
    exact (hrows s hs).withReserved positive (add_pos positive hd.positive)
      ((hrows s hs).scaled.add hd.scaled)

/-! ## All deductions of a restore -/

theorem reservedList_restore (rows : List ReservationRow) (ds : List ProjectReservationDeduction) :
    (restoreProjectReservations js rows ds).reservedList = ds.foldl (restoreRow js) rows := by
  unfold restoreProjectReservations
  suffices run : ∀ s : ReservationRestore, (ds.foldl (restoreDeduction js) s).reservedList =
      ds.foldl (restoreRow js) s.reservedList from run _
  intro s
  induction ds generalizing s with
  | nil => rfl
  | cons d ds ih => rw [List.foldl_cons, List.foldl_cons, ih, restoreDeduction]

/-- What deductions come to on the rows of an item. -/
def deductedOf (js : RowScript) (catalog : Catalog) (ds : List ProjectReservationDeduction) (id : ℕ) : ℚ :=
  sumWhere (fun d => owns js catalog id d.row) ProjectReservationDeduction.quantity ds

theorem reserved_restore (h : Distinguished js table rows₀) {ds : List ProjectReservationDeduction}
    (hds : ∀ d ∈ ds, Deducted js table rows₀ d) (hrows : ∀ r ∈ rows, Descends rows₀ r) :
    (∀ r ∈ (restoreProjectReservations js rows ds).reservedList, Descends rows₀ r) ∧
      ∀ id, reserved js table.catalog (restoreProjectReservations js rows ds).reservedList id =
        reserved js table.catalog rows id + deductedOf js table.catalog ds id := by
  rw [reservedList_restore]
  induction ds generalizing rows with
  | nil => exact ⟨hrows, fun id => (add_zero _).symm⟩
  | cons d ds ih =>
    have hd := hds d List.mem_cons_self
    obtain ⟨descends, sums⟩ := ih (fun e he => hds e (List.mem_cons_of_mem d he))
      (hd.descends_restoreRow hrows)
    refine ⟨descends, fun id => ?_⟩
    rw [List.foldl_cons, sums id, hd.reserved_restoreRow h hrows, deductedOf, deductedOf, sumWhere_cons,
      add_assoc]

/-! ## The deductions of a release -/

/-- What a release writes and what it records. -/
structure Released (js : RowScript) (table : ItemTable) (rows₀ rows : List ReservationRow)
    (result : ReservationRelease) : Prop where
  descends : ∀ r ∈ result.reservedList, Descends rows₀ r
  deductions : ∀ d ∈ result.deductions, Deducted js table rows₀ d
  conserved : ∀ id, reserved js table.catalog result.reservedList id +
    deductedOf js table.catalog result.deductions id = reserved js table.catalog rows id

theorem sum_deductions (item : ItemMatch.StockItem) (q : ReservationRow → Bool) {taken : List (ReservationRow × ℚ)}
    (positive : ∀ t ∈ taken, 0 < reservedAmount t.1) :
    sumWhere (fun d => q d.row) ProjectReservationDeduction.quantity (taken.filterMap (deductionOf item)) =
      takenWhere q taken := by
  induction taken with
  | nil => rfl
  | cons t taken ih =>
    obtain ⟨f, field⟩ := Option.isSome_iff_exists.mp
      (reservedAmount_pos_iff.mp (positive t List.mem_cons_self))
    rw [List.filterMap_cons, deductionOf, field, Option.map_some, sumWhere_cons, takenWhere_cons,
      ih fun u hu => positive u (List.mem_cons_of_mem t hu)]

theorem released_of_deductRows {item : ItemMatch.StockItem} (member : item ∈ table.all) {remaining : ℚ}
    (scaled : AtScale 4 remaining) (hrows : ∀ r ∈ rows, Descends rows₀ r) :
    (∀ r ∈ (deductRows js item remaining rows).1, Descends rows₀ r) ∧
      (∀ d ∈ (deductRows js item remaining rows).2, Deducted js table rows₀ d) ∧
        ∀ id, reserved js table.catalog (deductRows js item remaining rows).1 id +
          deductedOf js table.catalog (deductRows js item remaining rows).2 id =
            reserved js table.catalog rows id := by
  rw [deductRows_eq]
  obtain ⟨rest_scaled, taken_scaled⟩ := mem_group_of_drain (m := reservationRows)
    (p := rowsOf js item) (l := rows) fourDecimals (fun r hr => (hrows r hr).scaled)
    (show remaining ∈ fourDecimals from scaled)
  refine ⟨fun r hr => ⟨?_, rest_scaled r hr⟩, fun d hd => ?_, fun id => ?_⟩
  · obtain ⟨s, hs, rfl | ⟨x, positive, hx, rfl⟩⟩ := drain_shrinks.of_mem hr
    · exact (hrows r hs).origin
    · obtain ⟨r₀, mem, names, field⟩ := (hrows s hs).origin
      exact ⟨r₀, mem, (names_withReserved s x).trans names, (field_withReserved positive hx).trans field⟩
  · obtain ⟨t, ht, recorded⟩ := List.mem_filterMap.mp hd
    obtain ⟨hr, matched, -, positive⟩ := of_mem_taken ht
    obtain ⟨f, field, rfl⟩ := Option.map_eq_some_iff.mp recorded
    exact ⟨hrows t.1 hr, ⟨item, member, rfl, matched⟩, field, positive, taken_scaled t ht⟩
  · rw [deductedOf, sum_deductions item _ fun t ht => (of_mem_taken ht).2.2.1]
    exact sum_rest (stable_owns id)

theorem Released.line {s : ReservationRelease} (h : Released js table rows₀ rows s) {line : ReleaseLine}
    (scaled : AtScale 4 line.quantity) : Released js table rows₀ rows (releaseLine js table s line) := by
  unfold releaseLine
  split_ifs
  · split
    · exact h
    · rename_i item known
      have owned : item ∈ table.all := lineItem_mem known
      obtain ⟨descends, deducted, conserved⟩ := released_of_deductRows owned scaled h.descends
      refine ⟨descends, fun d hd => ?_, fun id => ?_⟩
      · exact (List.mem_append.mp hd).elim (h.deductions d) (deducted d)
      · dsimp only
        rw [deductedOf, sumWhere_append, ← h.conserved id, ← conserved id, deductedOf, deductedOf]
        ring
  · exact h

theorem released {lines : List ReleaseLine} (scaled : ∀ l ∈ lines, AtScale 4 l.quantity)
    (hrows : ∀ r ∈ rows, Descends rows₀ r) :
    Released js table rows₀ rows (releaseProjectReservations js table rows lines) := by
  unfold releaseProjectReservations
  suffices run : ∀ s, Released js table rows₀ rows s →
      Released js table rows₀ rows (lines.foldl (releaseLine js table) s) from
    run _ ⟨hrows, by simp, fun id => add_zero _⟩
  intro s hs
  induction lines generalizing s with
  | nil => exact hs
  | cons line lines ih =>
    exact ih (fun l hl => scaled l (List.mem_cons_of_mem line hl)) _
      (hs.line (scaled line List.mem_cons_self))

/-- A deduction of four decimals is recorded as it is. -/
theorem Deducted.stored (hd : Deducted js table rows₀ d) : storedDeduction d = d := by
  rw [storedDeduction, money_of_atScale hd.scaled]

theorem map_storedDeduction {ds : List ProjectReservationDeduction}
    (hds : ∀ d ∈ ds, Deducted js table rows₀ d) : ds.map storedDeduction = ds :=
  (List.map_congr_left fun d hd => (hds d hd).stored).trans (List.map_id ds)

/-! ## Runs -/

/-- The lines of a release have quantities of four decimals. -/
def ReservationOp.Scaled : ReservationOp → Prop
  | .release _ lines => ∀ l ∈ lines, AtScale 4 l.quantity
  | .restore _ => True

def runReservations (js : RowScript) (table : ItemTable) (s : ProjectReservations)
    (ops : List ReservationOp) : ProjectReservations :=
  ops.foldl (reservationStep js table) s

/-- All rows and all recorded rows come from the first list. -/
structure ProjectReservations.Tracked (js : RowScript) (table : ItemTable) (rows₀ : List ReservationRow)
    (s : ProjectReservations) : Prop where
  rows : ∀ r ∈ s.rows, Descends rows₀ r
  records : ∀ r ∈ s.records, Deducted js table rows₀ r.deduction

theorem Tracked.step (h : Distinguished js table rows₀) {s : ProjectReservations}
    (hs : s.Tracked js table rows₀) {op : ReservationOp} (scaled : op.Scaled) :
    (reservationStep js table s op).Tracked js table rows₀ := by
  cases op with
  | release source lines =>
    have done : Released js table rows₀ s.rows (releaseProjectReservations js table s.rows lines) :=
      released scaled hs.rows
    rw [reservationStep]
    split_ifs
    · refine ⟨done.descends, fun r hr => ?_⟩
      rw [map_storedDeduction done.deductions] at hr
      rcases List.mem_append.mp hr with old | new
      · exact hs.records r old
      · obtain ⟨d, hd, rfl⟩ := List.mem_map.mp new
        exact done.deductions d hd
    · exact hs
  | restore source =>
    refine ⟨(reserved_restore h (fun d hd => ?_) hs.rows).1, fun r hr => ?_⟩
    · obtain ⟨r, hr, rfl⟩ := List.mem_map.mp hd
      exact hs.records r (List.mem_of_mem_filter hr)
    · obtain ⟨old, hold, rfl⟩ := List.mem_map.mp hr
      split_ifs <;> exact hs.records old hold

theorem Tracked.run (h : Distinguished js table rows₀) {s : ProjectReservations}
    (hs : s.Tracked js table rows₀) {ops : List ReservationOp} (scaled : ∀ op ∈ ops, op.Scaled) :
    (runReservations js table s ops).Tracked js table rows₀ := by
  unfold runReservations
  induction ops generalizing s with
  | nil => exact hs
  | cons op ops ih =>
    exact ih (Tracked.step h hs (scaled op List.mem_cons_self))
      fun o ho => scaled o (List.mem_cons_of_mem op ho)

/-- Every reserved quantity of a list has four decimals. -/
def RowsScaled (rows : List ReservationRow) : Prop := ∀ r ∈ rows, AtScale 4 (reservedAmount r)

/-- In every run of releases and restores of a project, restoring what a release recorded
gives every item back what the release took from it, whatever ran in between. -/
theorem restore_gives_back {before between : List ReservationOp} {source : ReleaseSource}
    {lines : List ReleaseLine} (distinguished : Distinguished js table rows₀) (rows_scaled : RowsScaled rows₀)
    (scaled : ∀ op ∈ before ++ .release source lines :: between, op.Scaled)
    (others : List ProjectMaterialRef) (id : ℕ) :
    let s₁ := runReservations js table ⟨rows₀, []⟩ before
    let s₂ := reservationStep js table s₁ (.release source lines)
    let s₃ := runReservations js table s₂ between
    let recorded := (releaseProjectReservations js table s₁.rows lines).deductions.map storedDeduction
    let restored := (restoreProjectReservations js s₃.rows recorded).reservedList
    reportedReservation js table.catalog others restored id =
      reportedReservation js table.catalog others s₃.rows id +
        (reportedReservation js table.catalog others s₁.rows id -
          reportedReservation js table.catalog others s₂.rows id) := by
  intro s₁ s₂ s₃ recorded restored
  have start : (ProjectReservations.mk rows₀ []).Tracked js table rows₀ :=
    ⟨fun r hr => ⟨⟨r, hr, rfl, rfl⟩, rows_scaled r hr⟩, by simp⟩
  have tracked₁ : s₁.Tracked js table rows₀ :=
    Tracked.run distinguished start fun op ho => scaled op (List.mem_append_left _ ho)
  have release_scaled : (ReservationOp.release source lines).Scaled :=
    scaled _ (List.mem_append_right _ List.mem_cons_self)
  have tracked₂ : s₂.Tracked js table rows₀ := Tracked.step distinguished tracked₁ release_scaled
  have tracked₃ : s₃.Tracked js table rows₀ :=
    Tracked.run distinguished tracked₂ fun op ho =>
      scaled op (List.mem_append_right _ (List.mem_cons_of_mem _ ho))
  have done : Released js table rows₀ s₁.rows (releaseProjectReservations js table s₁.rows lines) :=
    released release_scaled tracked₁.rows
  have same : recorded = (releaseProjectReservations js table s₁.rows lines).deductions :=
    map_storedDeduction done.deductions
  have written : s₂.rows = (releaseProjectReservations js table s₁.rows lines).reservedList := by
    have stored : (recorded.all fun d => decide (0 < d.quantity)) = true := by
      rw [same]
      exact List.all_eq_true.mpr fun d hd => decide_eq_true (done.deductions d hd).positive
    change (reservationStep js table s₁ (.release source lines)).rows = _
    rw [reservationStep]
    exact congrArg ProjectReservations.rows (if_pos stored)
  have back := (reserved_restore distinguished (same ▸ done.deductions) tracked₃.rows).2 id
  simp only [reportedReservation_eq]
  rw [written]
  refine back.trans (congrArg _ (eq_sub_of_add_eq' ?_))
  rw [same]
  exact done.conserved id

/-- The reservation of one item. -/
def singleRow : List ReservationRow := [serverRow 5 "A" "N" 2]

/-- An issue of one piece, and an allocation that comes in between and is freed again. -/
theorem restore_gives_back_single :
    let s₁ := runReservations plainRows namesakes ⟨singleRow, []⟩ []
    let s₂ := reservationStep plainRows namesakes s₁ (.release (.document 1) [⟨some (.num 5), 1⟩])
    let s₃ := runReservations plainRows namesakes s₂
      [.release (.bomAllocation 2) [⟨some (.num 5), 1⟩], .restore (.bomAllocation 2)]
    let recorded :=
      (releaseProjectReservations plainRows namesakes s₁.rows [⟨some (.num 5), 1⟩]).deductions.map
        storedDeduction
    let restored := (restoreProjectReservations plainRows s₃.rows recorded).reservedList
    reportedReservation plainRows namesakes.catalog [] restored 5 =
      reportedReservation plainRows namesakes.catalog [] s₃.rows 5 +
        (reportedReservation plainRows namesakes.catalog [] s₁.rows 5 -
          reportedReservation plainRows namesakes.catalog [] s₂.rows 5) := by
  refine restore_gives_back ?_ ?_ ?_ [] 5
  · intro r hr r' hr' _ _ _ _ _ _
    rw [List.mem_singleton.mp hr, List.mem_singleton.mp hr']
  · intro r hr
    rw [List.mem_singleton.mp hr]
    decide +kernel
  · intro op hop
    simp only [List.nil_append, List.mem_cons, List.not_mem_nil, or_false] at hop
    rcases hop with rfl | rfl | rfl
    · intro l hl
      rw [List.mem_singleton.mp hl]
      exact AtScale.natCast 4 1
    · intro l hl
      rw [List.mem_singleton.mp hl]
      exact AtScale.natCast 4 1
    · trivial

/-- An issue of four pieces of one of the namesakes uses up the row of the other; restoring
it puts both parts on the row that is left. -/
theorem restore_to_namesake :
    ¬∀ (table : ItemTable) (rows : List ReservationRow) (lines : List ReleaseLine) (id : ℕ),
      reportedReservation plainRows table.catalog []
          (restoreProjectReservations plainRows
            (releaseProjectReservations plainRows table rows lines).reservedList
            ((releaseProjectReservations plainRows table rows lines).deductions.map
              storedDeduction)).reservedList id =
        reportedReservation plainRows table.catalog [] rows id := by
  intro gives_back
  have first := gives_back namesakes namesakeRows [⟨some (.num 6), 4⟩] 5
  have lost : ¬reportedReservation plainRows namesakes.catalog []
      (restoreProjectReservations plainRows
        (releaseProjectReservations plainRows namesakes namesakeRows [⟨some (.num 6), 4⟩]).reservedList
        ((releaseProjectReservations plainRows namesakes namesakeRows [⟨some (.num 6), 4⟩]).deductions.map
          storedDeduction)).reservedList 5 =
      reportedReservation plainRows namesakes.catalog [] namesakeRows 5 := by
    decide +kernel
  exact lost first

end PapitalErp.Reservation
