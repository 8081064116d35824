import PapitalErp.Lib.Lots
import PapitalErp.Projects.Reservation

/-!
# The rows of a project's reservation

A stored row names its item by id, code and name and holds its quantity in one of five
fields: the first with a positive number. A release finds the rows of an item with
`reservationRowMatches`; the reservation report finds the item of a row with
`findProjectItemMatch`.

The names of a row are stored JSON. Its quantities are numbers, zero where it has none.
-/

namespace PapitalErp.Reservation

open ItemMatch FilteredSums Lots

/-- What JavaScript makes of values, with its texts of them. -/
structure RowScript extends Script where
  string : JsonValue ℚ → String
  string_str : ∀ s, string (.str s) = s
  number_num : ∀ n, number (.num n) = some n

/-- `RESERVATION_QTY_FIELDS`. -/
inductive ReservationQtyField
  | convertedReservedQty
  | convertedQty
  | reservedQty
  | warehouseStockQty
  | stockQty
  deriving DecidableEq

def reservationQtyFields : List ReservationQtyField :=
  [.convertedReservedQty, .convertedQty, .reservedQty, .warehouseStockQty, .stockQty]

/-- A reservation row (`InventoryControlItem`). -/
structure ReservationRow where
  itemId : Option (JsonValue ℚ)
  itemCode : Option (JsonValue ℚ)
  code : Option (JsonValue ℚ)
  itemName : Option (JsonValue ℚ)
  name : Option (JsonValue ℚ)
  qty : ReservationQtyField → ℚ

namespace ReservationRow

/-- The row with a quantity set. -/
def set (r : ReservationRow) (f : ReservationQtyField) (x : ℚ) : ReservationRow :=
  { r with qty := Function.update r.qty f x }

@[simp] theorem set_qty (r : ReservationRow) (f : ReservationQtyField) (x : ℚ) : (r.set f x).qty f = x := by
  simp [set]

theorem set_qty_of_ne (r : ReservationRow) {f g : ReservationQtyField} (other : g ≠ f) (x : ℚ) :
    (r.set f x).qty g = r.qty g := by
  simp [set, other]

/-- What a row holds besides its quantities. -/
def names (r : ReservationRow) : List (Option (JsonValue ℚ)) :=
  [r.itemId, r.itemCode, r.code, r.itemName, r.name]

end ReservationRow

/-- The quantity field of a row: the first with a positive number. -/
def reservationQtyField (r : ReservationRow) : Option ReservationQtyField :=
  reservationQtyFields.find? fun f => 0 < r.qty f

theorem pos_of_reservationQtyField {r : ReservationRow} {f : ReservationQtyField}
    (h : reservationQtyField r = some f) : 0 < r.qty f := by
  have holds := List.find?_some h
  exact of_decide_eq_true holds

/-- A row whose quantity changes keeps its field. -/
theorem reservationQtyField_set {r : ReservationRow} {f : ReservationQtyField} {x : ℚ}
    (h : reservationQtyField r = some f) (hx : 0 < x) : reservationQtyField (r.set f x) = some f := by
  obtain ⟨holds, before, after, split, earlier⟩ := List.find?_eq_some_iff_append.mp h
  refine List.find?_eq_some_iff_append.mpr ⟨by simpa using hx, before, after, split, fun g hg => ?_⟩
  have distinct : reservationQtyFields.Nodup := by decide
  rw [split] at distinct
  have other : g ≠ f := fun same =>
    (List.nodup_append.mp distinct).2.2 g hg f List.mem_cons_self same
  rw [ReservationRow.set_qty_of_ne r other]
  exact earlier g hg

/-- What a row reserves. -/
def reservedAmount (r : ReservationRow) : ℚ :=
  match reservationQtyField r with
  | some f => r.qty f
  | none => 0

theorem reservedAmount_of_field {r : ReservationRow} {f : ReservationQtyField}
    (h : reservationQtyField r = some f) : reservedAmount r = r.qty f := by
  rw [reservedAmount, h]

theorem reservedAmount_pos_iff {r : ReservationRow} :
    0 < reservedAmount r ↔ (reservationQtyField r).isSome := by
  cases h : reservationQtyField r with
  | none => simp [reservedAmount, h]
  | some f => simp [reservedAmount, h, pos_of_reservationQtyField h]

/-- The row with what it reserves set. -/
def withReserved (r : ReservationRow) (x : ℚ) : ReservationRow :=
  match reservationQtyField r with
  | some f => r.set f x
  | none => r

theorem withReserved_of_field {r : ReservationRow} {f : ReservationQtyField}
    (h : reservationQtyField r = some f) (x : ℚ) : withReserved r x = r.set f x := by
  rw [withReserved, h]

theorem names_withReserved (r : ReservationRow) (x : ℚ) : (withReserved r x).names = r.names := by
  unfold withReserved
  split <;> rfl

theorem field_withReserved {r : ReservationRow} (h : 0 < reservedAmount r) {x : ℚ} (hx : 0 < x) :
    reservationQtyField (withReserved r x) = reservationQtyField r := by
  obtain ⟨f, field⟩ := Option.isSome_iff_exists.mp (reservedAmount_pos_iff.mp h)
  rw [withReserved_of_field field, reservationQtyField_set field hx, field]

/-- Reservation rows are lots of what they reserve. -/
def reservationRows : Measure ReservationRow ℚ where
  amount := reservedAmount
  withAmount := withReserved
  nonneg r := by
    unfold reservedAmount
    split
    · exact (pos_of_reservationQtyField ‹_›).le
    · exact le_rfl
  amount_withAmount r x hr hx := by
    obtain ⟨f, field⟩ := Option.isSome_iff_exists.mp (reservedAmount_pos_iff.mp hr)
    rw [withReserved_of_field field, reservedAmount_of_field (reservationQtyField_set field hx),
      ReservationRow.set_qty]

@[simp] theorem reservationRows_amount : reservationRows.amount = reservedAmount := rfl

@[simp] theorem reservationRows_withAmount : reservationRows.withAmount = withReserved := rfl

/-- What depends on the names of a row and on its quantity field does not change with the
quantity. -/
theorem stable_of_names {β : Type*} {g : ReservationRow → β}
    (same : ∀ r s : ReservationRow, r.names = s.names → reservationQtyField r = reservationQtyField s →
      g r = g s) : Stable reservationRows g :=
  fun r x hr hx => same _ _ (names_withReserved r x) (field_withReserved hr hx)

/-! ## The rows of an item -/

/-- `!!v`. -/
def truthy : JsonValue ℚ → Bool
  | .null => false
  | .bool b => b
  | .num n => n ≠ 0
  | .str s => s ≠ ""
  | .arr _ => true
  | .obj _ => true

/-- What rows are matched with: an item, or the names of a recorded row. -/
structure MatchTarget where
  id : Option (JsonValue ℚ)
  code : Option (JsonValue ℚ)
  name : Option (JsonValue ℚ)

/-- The names of an item. -/
def itemTarget (i : MatchableItem) : MatchTarget :=
  ⟨some (.num i.id), some (.str i.code), some (.str i.name)⟩

section

variable (js : RowScript)

/-- `String(a).trim().toLowerCase()`. -/
def textKey (v : JsonValue ℚ) : String := js.toLowerCase (jsTrim (js.string v))

/-- `same`. -/
def sameText : Option (JsonValue ℚ) → Option (JsonValue ℚ) → Bool
  | some a, some b => truthy a && truthy b && decide (textKey js a = textKey js b)
  | _, _ => false

def sameId : Option (JsonValue ℚ) → Option (JsonValue ℚ) → Bool
  | some a, some b =>
      truthy a && truthy b && (js.number a).isSome && decide (js.number a = js.number b)
  | _, _ => false

def reservationRowMatches (row : ReservationRow) (item : MatchTarget) : Bool :=
  sameId js row.itemId item.id || sameText js row.itemCode item.code ||
    sameText js row.itemName item.name

/-! ## The item of a row -/

/-- An integer that JavaScript holds exactly. -/
def maxSafeInteger : ℕ := 2 ^ 53 - 1

/-- A positive safe integer. -/
def positiveId (n : ℚ) : Option ℕ :=
  if n.den = 1 ∧ 0 < n ∧ n ≤ maxSafeInteger then some n.num.toNat else none

def refItemId : Option (JsonValue ℚ) → Option ℕ
  | some (.num n) => positiveId n
  | some (.str s) =>
      if jsTrim s ≠ "" ∧ (jsTrim s).toList.all Char.isDigit then
        (js.number (.str (jsTrim s))).bind positiveId
      else none
  | _ => none

/-- What the report reads of a row. -/
def rowRef (r : ReservationRow) : ProjectMaterialRef :=
  ⟨refItemId js r.itemId, orText (text js.toScript r.itemCode) (text js.toScript r.code),
    orText (text js.toScript r.itemName) (text js.toScript r.name)⟩

/-- The id of the item that the report attributes a row to. -/
def rowOwner (catalog : Catalog) (r : ReservationRow) : Option ℕ :=
  (findProjectItemMatch js.toCasing ItemMatch.StockItem.toMatchableItem (rowRef js r) catalog.items).map (·.id)

/-- What the report says that the rows of a project reserve of an item; `others` are the
references of the other projects' rows. -/
def reportedReservation (catalog : Catalog) (others : List ProjectMaterialRef)
    (rows : List ReservationRow) (id : ℕ) : ℚ :=
  let reserving := rows.filter fun r => (reservationQtyField r).isSome
  let rowItems := readStockItemsForRefs js.toCasing catalog (reserving.map (rowRef js) ++ others)
  sumWhere
    (fun r =>
      (findProjectItemMatch js.toCasing ItemMatch.StockItem.toMatchableItem (rowRef js r) rowItems).map (·.id) =
        some id)
    reservedAmount reserving

end

variable {js : RowScript} {catalog : Catalog}

/-- The rows that an item owns. -/
def owns (js : RowScript) (catalog : Catalog) (id : ℕ) (r : ReservationRow) : Bool :=
  rowOwner js catalog r = some id

/-- The report attributes every row to its owner. -/
theorem reportedReservation_eq (others : List ProjectMaterialRef) (rows : List ReservationRow) (id : ℕ) :
    reportedReservation js catalog others rows id = sumWhere (owns js catalog id) reservedAmount rows := by
  unfold reportedReservation
  dsimp only
  rw [sumWhere_filter]
  refine sumWhere_eq_of_terms fun r member => ?_
  cases field : reservationQtyField r with
  | none =>
    have nothing : reservedAmount r = 0 := by rw [reservedAmount, field]
    rw [nothing, ite_self, ite_self]
  | some f =>
    have kept : r ∈ rows.filter fun r => (reservationQtyField r).isSome :=
      List.mem_filter.mpr ⟨member, by rw [field]; rfl⟩
    have listed : rowRef js r ∈
        (rows.filter fun r => (reservationQtyField r).isSome).map (rowRef js) ++ others :=
      List.mem_append_left _ (List.mem_map_of_mem kept)
    rw [findProjectItemMatch_narrow listed]
    rfl

theorem rowOwner_congr {r s : ReservationRow} (same : r.names = s.names) :
    rowOwner js catalog r = rowOwner js catalog s := by
  simp only [ReservationRow.names, List.cons.injEq, and_true] at same
  obtain ⟨itemId, itemCode, code, itemName, name⟩ := same
  simp only [rowOwner, rowRef, itemId, itemCode, code, itemName, name]

theorem matches_congr {r s : ReservationRow} (same : r.names = s.names) (target : MatchTarget) :
    reservationRowMatches js r target = reservationRowMatches js s target := by
  simp only [ReservationRow.names, List.cons.injEq, and_true] at same
  obtain ⟨itemId, itemCode, code, itemName, name⟩ := same
  simp only [reservationRowMatches, itemId, itemCode, itemName]

theorem stable_owns (id : ℕ) : Stable reservationRows (owns js catalog id) :=
  stable_of_names fun r s same _ => by rw [owns, owns, rowOwner_congr same]

end PapitalErp.Reservation
