import PapitalErp.Projects.ReservationRows

/-!
# Releasing a project's reservation

`releaseProjectReservations` takes the quantity of every line of an issue, or of a material
allocation, from the reservation rows of its item. Whose reservation that lowers is told by
the reservation report, which attributes a row by id before code and by code before name.
The two agree exactly when no row with a quantity is matched to another item than its own.

The project is the locked one, of the version that was read.
-/

namespace PapitalErp.Reservation

open ItemMatch FilteredSums Lots

/-- The items, with those that are deleted. -/
structure ItemTable where
  catalog : Catalog
  deleted : List ItemMatch.StockItem
  distinct : ((catalog.items ++ deleted).map fun i => i.id).Nodup
  positive : ∀ i ∈ deleted, 0 < i.id

/-- What the release reads: items whether deleted or not. -/
def ItemTable.all (table : ItemTable) : List ItemMatch.StockItem := table.catalog.items ++ table.deleted

/-- A line of the issue, with its quantity as a number. -/
structure ReleaseLine where
  itemId : Option (JsonValue ℚ)
  quantity : ℚ

structure ProjectReservationDeduction where
  itemId : Option ℕ
  qtyField : ReservationQtyField
  quantity : ℚ
  row : ReservationRow

/-- What the loop over the lines builds. -/
structure ReservationRelease where
  reservedList : List ReservationRow
  deductions : List ProjectReservationDeduction
  releasedItemIds : List ℕ
  releasedQuantity : ℚ

section

variable (js : RowScript)

/-- The loop over the rows, for one item. -/
def deductRows (item : ItemMatch.StockItem) :
    ℚ → List ReservationRow → List ReservationRow × List ProjectReservationDeduction
  | _, [] => ([], [])
  | remaining, r :: rest =>
      if remaining ≤ 0 then (r :: rest, [])
      else
        match
          if reservationRowMatches js r (itemTarget item.toMatchableItem) then reservationQtyField r
          else none with
        | none =>
            let later := deductRows item remaining rest
            (r :: later.1, later.2)
        | some qtyField =>
            let currentResQty := r.qty qtyField
            let deducted := if currentResQty < remaining then currentResQty else remaining
            let newResQty := currentResQty - deducted
            let later := deductRows item (remaining - deducted) rest
            ((if 0 < newResQty then [r.set qtyField newResQty] else []) ++ later.1,
              ⟨some item.id, qtyField, deducted, r⟩ :: later.2)

/-- The item of a line. -/
def lineItem (table : ItemTable) (line : ReleaseLine) : Option ItemMatch.StockItem :=
  (line.itemId.bind js.number).bind fun n => table.all.find? fun i => (i.id : ℚ) = n

/-- One turn of the loop over the lines. -/
def releaseLine (table : ItemTable) (s : ReservationRelease) (line : ReleaseLine) : ReservationRelease :=
  if 0 < line.quantity then
    match lineItem js table line with
    | none => s
    | some item =>
        let done := deductRows js item line.quantity s.reservedList
        { reservedList := done.1
          deductions := s.deductions ++ done.2
          releasedItemIds :=
            if done.2 = [] then s.releasedItemIds else addTo s.releasedItemIds item.id
          releasedQuantity := s.releasedQuantity + (done.2.map fun d => d.quantity).sum }
  else s

def releaseProjectReservations (table : ItemTable) (rows : List ReservationRow)
    (docItems : List ReleaseLine) : ReservationRelease :=
  docItems.foldl (releaseLine js table) ⟨rows, [], [], 0⟩

end

variable {js : RowScript} {table : ItemTable}

/-- The rows that the release of an item takes from. -/
def rowsOf (js : RowScript) (item : ItemMatch.StockItem) (r : ReservationRow) : Bool :=
  reservationRowMatches js r (itemTarget item.toMatchableItem)

/-- What is recorded of a row that was taken from. -/
def deductionOf (item : ItemMatch.StockItem) (t : ReservationRow × ℚ) : Option ProjectReservationDeduction :=
  (reservationQtyField t.1).map fun f => ⟨some item.id, f, t.2, t.1⟩

/-- The loop over the rows drains the rows of the item. -/
theorem deductRows_eq (item : ItemMatch.StockItem) (remaining : ℚ) (rows : List ReservationRow) :
    deductRows js item remaining rows =
      ((drain reservationRows (rowsOf js item) remaining rows).rest,
        (drain reservationRows (rowsOf js item) remaining rows).taken.filterMap (deductionOf item)) := by
  induction rows generalizing remaining with
  | nil => rfl
  | cons r rest ih =>
    rw [deductRows]
    by_cases asked : remaining ≤ 0
    · rw [if_pos asked, drain_of_nonpos asked]
      rfl
    rw [if_neg asked]
    by_cases answers : rowsOf js item r = true ∧ 0 < reservationRows.amount r
    · obtain ⟨f, field⟩ := Option.isSome_iff_exists.mp (reservedAmount_pos_iff.mp answers.2)
      have matched : reservationRowMatches js r (itemTarget item.toMatchableItem) = true := answers.1
      have amount : reservedAmount r = r.qty f := reservedAmount_of_field field
      have part : (if r.qty f < remaining then r.qty f else remaining) = min (r.qty f) remaining := by
        split
        · exact (min_eq_left (le_of_lt ‹_›)).symm
        · exact (min_eq_right (not_lt.mp ‹_›)).symm
      rw [if_pos matched, field, drain_cons_of_pos (not_le.mp asked) answers]
      dsimp only
      rw [part, ih, reservationRows_amount, reservationRows_withAmount, amount,
        withReserved_of_field field, List.filterMap_cons]
      simp only [deductionOf, field, Option.map_some]
    · have skipped : (if reservationRowMatches js r (itemTarget item.toMatchableItem) then
          reservationQtyField r else none) = none := by
        split
        · rename_i matched
          rw [← Option.not_isSome_iff_eq_none]
          exact fun field => answers ⟨matched, reservedAmount_pos_iff.mpr field⟩
        · rfl
      rw [skipped, drain_cons_of_not answers]
      dsimp only
      rw [ih]

/-- The rows after one line. -/
def rowsAfter (js : RowScript) (table : ItemTable) (rows : List ReservationRow) (line : ReleaseLine) :
    List ReservationRow :=
  match lineItem js table line with
  | none => rows
  | some item => (drain reservationRows (rowsOf js item) line.quantity rows).rest

theorem reservedList_releaseLine (s : ReservationRelease) (line : ReleaseLine) :
    (releaseLine js table s line).reservedList = rowsAfter js table s.reservedList line := by
  unfold releaseLine rowsAfter
  split_ifs with asked
  · split
    · rfl
    · dsimp only
      rw [deductRows_eq]
  · split
    · rfl
    · rw [drain_of_nonpos (not_lt.mp asked)]

theorem reservedList_release (rows : List ReservationRow) (lines : List ReleaseLine) :
    (releaseProjectReservations js table rows lines).reservedList =
      lines.foldl (rowsAfter js table) rows := by
  unfold releaseProjectReservations
  suffices run : ∀ s : ReservationRelease, (lines.foldl (releaseLine js table) s).reservedList =
      lines.foldl (rowsAfter js table) s.reservedList from run _
  intro s
  induction lines generalizing s with
  | nil => rfl
  | cons line lines ih => rw [List.foldl_cons, List.foldl_cons, ih, reservedList_releaseLine]

/-! ## The items of lines and rows -/

theorem lineItem_mem {line : ReleaseLine} {item : ItemMatch.StockItem} (h : lineItem js table line = some item) :
    item ∈ table.all := by
  obtain ⟨n, -, found⟩ := Option.bind_eq_some_iff.mp h
  exact List.mem_of_find?_eq_some found

/-- The line that asks for a quantity of an item. -/
def lineOf (item : ItemMatch.StockItem) (quantity : ℚ) : ReleaseLine := ⟨some (.num item.id), quantity⟩

theorem lineItem_lineOf {item : ItemMatch.StockItem} (member : item ∈ table.all) (quantity : ℚ) :
    lineItem js table (lineOf item quantity) = some item := by
  unfold lineItem lineOf
  rw [Option.bind_some, js.number_num, Option.bind_some]
  have found : (table.all.find? fun i => (i.id : ℚ) = item.id).isSome := by
    rw [List.find?_isSome]
    exact ⟨item, member, by simp⟩
  obtain ⟨other, other_found⟩ := Option.isSome_iff_exists.mp found
  have same : other.id = item.id := by
    have holds := List.find?_some other_found
    exact_mod_cast of_decide_eq_true holds
  rw [other_found, List.inj_on_of_nodup_map table.distinct (List.mem_of_find?_eq_some other_found)
    member same]

/-! ## Rows that are matched to their own item -/

/-- What the lines ask of an item. -/
def demanded (js : RowScript) (table : ItemTable) (lines : List ReleaseLine) (id : ℕ) : ℚ :=
  sumWhere (fun l => decide (0 < l.quantity) && decide ((lineItem js table l).map (fun i => i.id) = some id))
    ReleaseLine.quantity lines

/-- The release of an item finds the rows that the report attributes to it, none that it
attributes to another, and none that it attributes to no item before one of its own. -/
structure Attributed (js : RowScript) (table : ItemTable) (rows : List ReservationRow) : Prop where
  found : ∀ r ∈ rows, 0 < reservedAmount r → ∀ item ∈ table.all,
    rowOwner js table.catalog r = some item.id → rowsOf js item r = true
  own : ∀ r ∈ rows, 0 < reservedAmount r → ∀ item ∈ table.all, rowsOf js item r = true →
    rowOwner js table.catalog r = some item.id ∨ rowOwner js table.catalog r = none
  unowned_last : rows.Pairwise fun r s => 0 < reservedAmount r → 0 < reservedAmount s →
    ∀ item ∈ table.all, rowsOf js item r = true → rowOwner js table.catalog r = none →
      rowOwner js table.catalog s ≠ some item.id

variable {rows : List ReservationRow}

theorem rowsOf_congr {r s : ReservationRow} (same : r.names = s.names) (item : ItemMatch.StockItem) :
    rowsOf js item r = rowsOf js item s :=
  matches_congr same _

theorem Attributed.drainedFirst (h : Attributed js table rows) {item : ItemMatch.StockItem}
    (member : item ∈ table.all) :
    DrainedFirst reservationRows (rowsOf js item) (owns js table.catalog item.id) rows := by
  refine ⟨fun r hr positive owned => h.found r hr positive item member (of_decide_eq_true owned), ?_⟩
  refine h.unowned_last.imp_of_mem fun {r s} hr _ last matched positive other positive' => ?_
  have unowned := (h.own r hr positive item member matched).resolve_left (of_decide_eq_false other)
  exact decide_eq_false (last positive positive' item member matched unowned)

/-- Rows that became fewer or smaller. -/
theorem Attributed.shrinks (h : Attributed js table rows) {rows' : List ReservationRow}
    (shrinks : Shrinks reservationRows rows rows') : Attributed js table rows' := by
  have origin : ∀ s ∈ rows', 0 < reservedAmount s →
      ∃ r ∈ rows, 0 < reservedAmount r ∧ s.names = r.names := by
    intro s hs positive
    obtain ⟨r, hr, rfl | ⟨x, hr_positive, hx, rfl⟩⟩ := shrinks.of_mem hs
    · exact ⟨s, hr, positive, rfl⟩
    · exact ⟨r, hr, hr_positive, names_withReserved r x⟩
  refine ⟨fun s hs positive item member owned => ?_, fun s hs positive item member matched => ?_,
    shrinks.pairwise ?_ ?_ h.unowned_last⟩
  · obtain ⟨r, hr, hr_positive, same⟩ := origin s hs positive
    rw [rowOwner_congr same] at owned
    rw [rowsOf_congr same]
    exact h.found r hr hr_positive item member owned
  · obtain ⟨r, hr, hr_positive, same⟩ := origin s hs positive
    rw [rowsOf_congr same] at matched
    rw [rowOwner_congr same]
    exact h.own r hr hr_positive item member matched
  · intro r s x hr _ rel _ hs item member matched unowned
    have same := names_withReserved r x
    rw [reservationRows_withAmount, rowsOf_congr same] at matched
    rw [reservationRows_withAmount, rowOwner_congr same] at unowned
    exact rel hr hs item member matched unowned
  · intro r s x hs _ rel hr _ item member matched unowned
    rw [reservationRows_withAmount, rowOwner_congr (names_withReserved s x)]
    exact rel hr hs item member matched unowned

/-! ## Exactly the own item -/

/-- What a row list reserves of an item. -/
def reserved (js : RowScript) (catalog : Catalog) (rows : List ReservationRow) (id : ℕ) : ℚ :=
  sumWhere (owns js catalog id) reservedAmount rows

theorem reserved_nonneg (js : RowScript) (catalog : Catalog) (rows : List ReservationRow) (id : ℕ) :
    0 ≤ reserved js catalog rows id :=
  sumWhere_nonneg (m := reservationRows) _ rows

/-- What one item's release takes from an item. -/
theorem reserved_drain (item : ItemMatch.StockItem) (quantity : ℚ) (rows : List ReservationRow) (id : ℕ) :
    reserved js table.catalog (drain reservationRows (rowsOf js item) quantity rows).rest id =
      reserved js table.catalog rows id -
        takenWhere (owns js table.catalog id)
          (drain reservationRows (rowsOf js item) quantity rows).taken := by
  have kept : reserved js table.catalog (drain reservationRows (rowsOf js item) quantity rows).rest id +
      takenWhere (owns js table.catalog id) (drain reservationRows (rowsOf js item) quantity rows).taken =
        reserved js table.catalog rows id := sum_rest (stable_owns id)
  exact eq_sub_of_add_eq kept

/-- The release of an item that is attributed well takes from no other item. -/
theorem Attributed.taken_of_other (h : Attributed js table rows) {item : ItemMatch.StockItem}
    (member : item ∈ table.all) (quantity : ℚ) {id : ℕ} (other : id ≠ item.id) :
    takenWhere (owns js table.catalog id) (drain reservationRows (rowsOf js item) quantity rows).taken = 0 := by
  refine sumWhere_eq_zero fun t ht => ?_
  obtain ⟨hr, matched, positive, -⟩ := of_mem_taken ht
  refine decide_eq_false fun owned => ?_
  rcases h.own t.1 hr positive item member matched with mine | nobody
  · exact other (Option.some.inj (owned.symm.trans mine))
  · rw [nobody] at owned
    exact Option.some_ne_none id owned.symm

/-- One line. -/
theorem Attributed.reserved_rowsAfter (h : Attributed js table rows) (line : ReleaseLine) (id : ℕ) :
    reserved js table.catalog (rowsAfter js table rows line) id =
      reserved js table.catalog rows id -
        min (demanded js table [line] id) (reserved js table.catalog rows id) := by
  have left := reserved_nonneg js table.catalog rows id
  have asked : demanded js table [line] id =
      if 0 < line.quantity ∧ (lineItem js table line).map (fun i => i.id) = some id then line.quantity
      else 0 := by
    simp [demanded]
  rw [asked, rowsAfter]
  cases known : lineItem js table line with
  | none => simp [left]
  | some item =>
    have member := lineItem_mem known
    dsimp only
    rw [reserved_drain]
    by_cases quantity : 0 < line.quantity
    · by_cases same : item.id = id
      · subst same
        rw [takenWhere_of_drainedFirst (h.drainedFirst member) quantity.le, if_pos ⟨quantity, rfl⟩]
        rfl
      · rw [h.taken_of_other member _ (Ne.symm same), if_neg fun both => same (by simpa using both.2),
          min_eq_left left]
    · rw [drain_of_nonpos (not_lt.mp quantity), if_neg fun both => quantity both.1, takenWhere_nil,
        min_eq_left left]

theorem Attributed.rowsAfter (h : Attributed js table rows) (line : ReleaseLine) :
    Attributed js table (rowsAfter js table rows line) := by
  unfold Reservation.rowsAfter
  split
  · exact h
  · exact h.shrinks drain_shrinks

theorem demanded_cons (line : ReleaseLine) (lines : List ReleaseLine) (id : ℕ) :
    demanded js table (line :: lines) id = demanded js table [line] id + demanded js table lines id := by
  rw [demanded, demanded, demanded, sumWhere_cons, sumWhere_cons, sumWhere_nil, add_zero]

theorem demanded_nonneg (lines : List ReleaseLine) (id : ℕ) : 0 ≤ demanded js table lines id := by
  refine List.sum_nonneg fun x hx => ?_
  obtain ⟨line, hl, rfl⟩ := List.mem_map.mp hx
  have meets := (List.mem_filter.mp hl).2
  rw [Bool.and_eq_true] at meets
  exact (of_decide_eq_true meets.1).le

/-- All lines. -/
theorem Attributed.reserved_release (h : Attributed js table rows) (lines : List ReleaseLine) (id : ℕ) :
    reserved js table.catalog (releaseProjectReservations js table rows lines).reservedList id =
      reserved js table.catalog rows id -
        min (demanded js table lines id) (reserved js table.catalog rows id) := by
  rw [reservedList_release]
  induction lines generalizing rows with
  | nil => simp [demanded, reserved_nonneg]
  | cons line lines ih =>
    rw [List.foldl_cons, ih (h.rowsAfter line), h.reserved_rowsAfter line,
      sub_min_sub_min (demanded_nonneg lines id), demanded_cons line lines]

/-! ## Only then -/

theorem demanded_lineOf {item : ItemMatch.StockItem} (member : item ∈ table.all) {quantity : ℚ}
    (positive : 0 < quantity) (id : ℕ) :
    demanded js table [lineOf item quantity] id = if id = item.id then quantity else 0 := by
  have asked : 0 < (lineOf item quantity).quantity := positive
  rw [demanded, sumWhere_cons, sumWhere_nil, add_zero, lineItem_lineOf member]
  by_cases same : id = item.id
  · simp [asked, same]
    rfl
  · simp [asked, same, Ne.symm same]

/-- The release is exact for every set of lines and every live item. -/
def Exact (js : RowScript) (table : ItemTable) (rows : List ReservationRow) : Prop :=
  ∀ lines : List ReleaseLine, ∀ i ∈ table.catalog.items,
    reserved js table.catalog (releaseProjectReservations js table rows lines).reservedList i.id =
      reserved js table.catalog rows i.id -
        min (demanded js table lines i.id) (reserved js table.catalog rows i.id)

/-- What an exact release of one item takes. -/
theorem Exact.taken (h : Exact js table rows) {item : ItemMatch.StockItem} (member : item ∈ table.all)
    {quantity : ℚ} (positive : 0 < quantity) {r : ReservationRow} {id : ℕ}
    (owned : rowOwner js table.catalog r = some id) :
    takenWhere (owns js table.catalog id) (drain reservationRows (rowsOf js item) quantity rows).taken =
      min (if id = item.id then quantity else 0) (reserved js table.catalog rows id) := by
  obtain ⟨live, found, rfl⟩ := Option.map_eq_some_iff.mp owned
  have exact_line := h [lineOf item quantity] live (names_of_match found).1
  rw [reservedList_release, List.foldl_cons, List.foldl_nil, rowsAfter, lineItem_lineOf member] at exact_line
  dsimp only at exact_line
  rw [reserved_drain, demanded_lineOf member positive] at exact_line
  exact sub_right_injective exact_line

theorem pairwise_of_split {α : Type*} {R : α → α → Prop} {l : List α}
    (h : ∀ before a after, l = before ++ a :: after → ∀ b ∈ after, R a b) : l.Pairwise R := by
  induction l with
  | nil => exact .nil
  | cons a l ih =>
    refine .cons (h [] a l rfl) (ih fun before b after split => ?_)
    exact h (a :: before) b after (by rw [split]; rfl)

theorem Exact.attributed (h : Exact js table rows) : Attributed js table rows := by
  -- a line that asks for more than there is uses up every row that is found
  have total : ∀ q : ReservationRow → Bool,
      sumWhere q reservationRows.amount rows ≤ sumWhere (fun _ => true) reservationRows.amount rows :=
    fun q => sumWhere_le_sumWhere fun _ _ _ => rfl
  have all_positive : ∀ r ∈ rows, 0 < reservedAmount r →
      0 < sumWhere (fun _ => true) reservationRows.amount rows :=
    fun r hr positive => lt_of_lt_of_le positive (le_sumWhere hr rfl : reservationRows.amount r ≤ _)
  refine ⟨fun r hr positive item member owned => ?_, fun r hr positive item member matched => ?_,
    pairwise_of_split fun before r after split s hs r_positive s_positive item member matched unowned owned => ?_⟩
  · by_contra missed
    have taken := h.taken member (all_positive r hr positive) owned
    have enough : reserved js table.catalog rows item.id ≤
        sumWhere (fun _ => true) reservationRows.amount rows := total _
    rw [takenWhere_of_le (total _), if_pos rfl, min_eq_right enough] at taken
    have lacks := sumWhere_add_le (m := reservationRows) (l := rows)
      (p := fun a => rowsOf js item a && owns js table.catalog item.id a)
      (q := owns js table.catalog item.id) (fun _ _ both => (Bool.and_eq_true _ _ ▸ both).2) hr
      (by simp [missed]) (by simp [owns, owned])
    rw [taken] at lacks
    exact absurd lacks (not_le.mpr (lt_add_of_pos_right _ positive))
  · by_contra stranger
    obtain ⟨other, nobody⟩ := not_or.mp stranger
    obtain ⟨id, owned⟩ := Option.ne_none_iff_exists'.mp nobody
    have different : id ≠ item.id := fun same => other (same ▸ owned)
    have taken := h.taken member (all_positive r hr positive) owned
    rw [takenWhere_of_le (total _), if_neg different, min_eq_left (reserved_nonneg _ _ _ _)] at taken
    have some_taken : reservationRows.amount r ≤
        sumWhere (fun a => rowsOf js item a && owns js table.catalog id a) reservationRows.amount rows :=
      le_sumWhere hr (by simp [matched, owns, owned])
    rw [taken] at some_taken
    exact absurd some_taken (not_le.mpr positive)
  · -- the line that the rows up to the one without an owner just meet
    subst split
    have shape : before ++ r :: after = (before ++ [r]) ++ after := by simp
    have r_mem : r ∈ before ++ [r] := by simp
    have enough : 0 < sumWhere (rowsOf js item) reservationRows.amount (before ++ [r]) :=
      lt_of_lt_of_le r_positive (le_sumWhere (m := reservationRows) r_mem matched)
    have taken := h.taken member enough owned
    rw [shape, drain_append_of_le le_rfl, takenWhere_of_le le_rfl, if_pos rfl] at taken
    have fewer := sumWhere_add_le (m := reservationRows) (l := before ++ [r])
      (p := fun a => rowsOf js item a && owns js table.catalog item.id a) (q := rowsOf js item)
      (fun _ _ both => (Bool.and_eq_true _ _ ▸ both).1) r_mem (by simp [owns, unowned]) matched
    have less : sumWhere (fun a => rowsOf js item a && owns js table.catalog item.id a)
        reservationRows.amount (before ++ [r]) ≤
          sumWhere (owns js table.catalog item.id) reservationRows.amount (before ++ [r]) :=
      sumWhere_le_sumWhere fun _ _ both => (Bool.and_eq_true _ _ ▸ both).2
    have later : reservationRows.amount s ≤
        sumWhere (owns js table.catalog item.id) reservationRows.amount after :=
      le_sumWhere hs (by simp [owns, owned])
    have whole : reserved js table.catalog ((before ++ [r]) ++ after) item.id =
        sumWhere (owns js table.catalog item.id) reservationRows.amount (before ++ [r]) +
          sumWhere (owns js table.catalog item.id) reservationRows.amount after := sumWhere_append _
    rw [whole] at taken
    rcases min_choice (sumWhere (rowsOf js item) reservationRows.amount (before ++ [r]))
        (sumWhere (owns js table.catalog item.id) reservationRows.amount (before ++ [r]) +
          sumWhere (owns js table.catalog item.id) reservationRows.amount after) with met | met
    · rw [met] at taken
      rw [taken] at fewer
      exact absurd fewer (not_le.mpr (lt_add_of_pos_right _ r_positive))
    · rw [met] at taken
      rw [taken] at less
      have nothing : reservationRows.amount s ≤ 0 := by linarith
      exact absurd nothing (not_le.mpr s_positive)

/-- A release lowers what the report shows of every item by what the lines ask of it, and by
no more than is reserved, for every set of lines exactly if the rows are attributed well. -/
theorem release_exact_iff (js : RowScript) (table : ItemTable) (others : List ProjectMaterialRef)
    (rows : List ReservationRow) :
    (∀ lines : List ReleaseLine, ∀ i ∈ table.catalog.items,
      reportedReservation js table.catalog others
          (releaseProjectReservations js table rows lines).reservedList i.id =
        reportedReservation js table.catalog others rows i.id -
          min (demanded js table lines i.id)
            (reportedReservation js table.catalog others rows i.id)) ↔
      Attributed js table rows := by
  simp only [reportedReservation_eq]
  exact ⟨Exact.attributed, fun h lines i _ => h.reserved_release lines i.id⟩

/-- Rows that hold texts and numbers, and ASCII texts. -/
def plainRows : RowScript where
  toCasing := Casing.ascii
  number
    | .num n => some n
    | _ => none
  numberText _ := ""
  string
    | .str s => s
    | _ => ""
  string_str _ := rfl
  number_num _ := rfl

/-- Two items of one name. -/
def namesakes : ItemTable where
  catalog := {
    items := [
      { id := 5, code := "A", name := "N", category := "", unit := "", currentStock := 9 },
      { id := 6, code := "B", name := "N", category := "", unit := "", currentStock := 9 }]
    ordered := by decide
    positive := by decide
    stored := by decide +kernel }
  deleted := []
  distinct := by decide
  positive := by decide

/-- A row as the server stores it. -/
def serverRow (id : ℕ) (code name : String) (reservedQty : ℚ) : ReservationRow where
  itemId := some (.num id)
  itemCode := some (.str code)
  code := none
  itemName := some (.str name)
  name := none
  qty f := if f = .reservedQty then reservedQty else 0

/-- Two pieces of one and three of the other. -/
def namesakeRows : List ReservationRow := [serverRow 5 "A" "N" 2, serverRow 6 "B" "N" 3]

/-- The issue of two pieces of the second takes the reservation of the first. -/
theorem release_takes_namesake :
    ¬∀ lines : List ReleaseLine, ∀ i ∈ namesakes.catalog.items,
      reportedReservation plainRows namesakes.catalog []
          (releaseProjectReservations plainRows namesakes namesakeRows lines).reservedList i.id =
        reportedReservation plainRows namesakes.catalog [] namesakeRows i.id -
          min (demanded plainRows namesakes lines i.id)
            (reportedReservation plainRows namesakes.catalog [] namesakeRows i.id) := by
  intro exact_release
  have first := exact_release [⟨some (.num 6), 2⟩]
    { id := 5, code := "A", name := "N", category := "", unit := "", currentStock := 9 } (by decide)
  have differs : ¬(reportedReservation plainRows namesakes.catalog []
        (releaseProjectReservations plainRows namesakes namesakeRows [⟨some (.num 6), 2⟩]).reservedList 5 =
      reportedReservation plainRows namesakes.catalog [] namesakeRows 5 -
        min (demanded plainRows namesakes [⟨some (.num 6), 2⟩] 5)
          (reportedReservation plainRows namesakes.catalog [] namesakeRows 5)) := by
    decide +kernel
  exact differs first

end PapitalErp.Reservation
