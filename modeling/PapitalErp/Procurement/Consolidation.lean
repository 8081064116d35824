import PapitalErp.FinancialDecimal
import PapitalErp.Lib.Grouping
import PapitalErp.Workflow.Delegation

/-!
# Consolidated purchase requisitions

The rows of some requisitions become the rows of one: the rows of a listed item are merged, and so are
those of one name and unit outside the list. A merged row has the total quantity and the weighted average
of the estimates, with four decimals.

A number stands for the decimal that it prints as. `toLowerCase` is a parameter. The category, the codes
and the supplier of a merged row are those of its first row.
-/

namespace PapitalErp.Procurement

open FilteredSums Grouping Rounding

/-- A row of a requisition; a missing number is `none`. -/
structure RequisitionItemRow where
  itemId : Option ℕ
  itemCode : Option String
  itemName : Option String
  category : Option String
  unit : Option String
  requestedQty : Option ℚ
  unitPriceEstimate : Option ℚ
  targetSupplierId : Option ℕ
  targetSupplierName : Option String
  notes : Option String
  deriving DecidableEq

structure RequisitionRecord where
  code : String
  items : List RequisitionItemRow

namespace RequisitionItemRow

def quantity (row : RequisitionItemRow) : ℚ := row.requestedQty.getD 0

/-- What the row is estimated at. -/
def amount (row : RequisitionItemRow) : ℚ := row.quantity * row.unitPriceEstimate.getD 0

end RequisitionItemRow

section Merge

variable (rules : CaseRules)

/-- The key of a row; the item id zero is none. -/
def keyOf (row : RequisitionItemRow) : String :=
  match row.itemId.filter (· ≠ 0) with
  | some itemId => "item:" ++ toString itemId
  | none => "name:" ++ rules.toLowerCase (jsTrim (row.itemName.getD "")) ++ "|" ++ jsTrim (row.unit.getD "")

/-- A row with the code of its requisition. -/
abbrev SourceRow := String × RequisitionItemRow

/-- An entry of `merged`; `row` has the fields of the first row. -/
structure Merged where
  row : RequisitionItemRow
  qty : ℚ
  total : ℚ
  codes : List String

def Merged.first (source : SourceRow) : Merged where
  row :=
    { source.2 with
      requestedQty := none
      unitPriceEstimate := none
      notes := none }
  qty := source.2.quantity
  total := source.2.amount
  codes := [source.1]

def Merged.add (entry : Merged) (source : SourceRow) : Merged :=
  { entry with
    qty := entry.qty + source.2.quantity
    total := entry.total + source.2.amount
    codes := if source.1 ∈ entry.codes then entry.codes else entry.codes ++ [source.1] }

/-- The key of a row with a positive quantity. -/
def countedKey (source : SourceRow) : Option String :=
  if 0 < source.2.quantity then some (keyOf rules source.2) else none

def sourceRows (sources : List RequisitionRecord) : List SourceRow :=
  sources.flatMap fun source => source.items.map fun row => (source.code, row)

def merged (sources : List RequisitionRecord) : List (String × Merged) :=
  group Merged.first Merged.add (countedKey rules) (sourceRows sources)

def Merged.toRow (entry : Merged) : RequisitionItemRow :=
  { entry.row with
    requestedQty := some entry.qty
    unitPriceEstimate := some (FinancialDecimal.divide entry.total entry.qty)
    notes := some ("تجمیع از " ++ "، ".intercalate entry.codes) }

def mergeConsolidationRows (sources : List RequisitionRecord) : List RequisitionItemRow :=
  (merged rules sources).map fun entry => entry.2.toRow

/-- The total quantity of the rows with a key. -/
def quantityOfKey (sources : List RequisitionRecord) (key : String) : ℚ :=
  sumWhere (fun source => countedKey rules source == some key) (fun source => source.2.quantity) (sourceRows sources)

/-- What the rows with a key are estimated at. -/
def amountOfKey (sources : List RequisitionRecord) (key : String) : ℚ :=
  sumWhere (fun source => countedKey rules source == some key) (fun source => source.2.amount) (sourceRows sources)

/-! ## What is kept -/

variable {rules} {sources : List RequisitionRecord} {key : String} {entry : Merged} {row : RequisitionItemRow}

theorem qty_of_mem (mem : (key, entry) ∈ merged rules sources) : entry.qty = quantityOfKey rules sources key :=
  measure_of_mem Merged.qty (fun _ => rfl) (fun _ _ => rfl) mem

theorem total_of_mem (mem : (key, entry) ∈ merged rules sources) : entry.total = amountOfKey rules sources key :=
  measure_of_mem Merged.total (fun _ => rfl) (fun _ _ => rfl) mem

/-- A merged row has the key of the rows it is made of. -/
theorem keyOf_of_mem (mem : (key, entry) ∈ merged rules sources) : keyOf rules entry.toRow = key := by
  have kept : ∃ source ∈ sourceRows sources, countedKey rules source = some key ∧
      entry.row = (Merged.first source).row := kept_of_mem Merged.row (fun entry source => (rfl : (entry.add source).row = entry.row)) mem
  obtain ⟨source, -, counted, same⟩ := kept
  unfold countedKey at counted
  split_ifs at counted
  have fields : entry.row.itemId = source.2.itemId ∧ entry.row.itemName = source.2.itemName ∧
      entry.row.unit = source.2.unit := by
    rw [same]
    exact ⟨rfl, rfl, rfl⟩
  rw [← Option.some.inj counted]
  show (match entry.row.itemId.filter (· ≠ 0) with
    | some itemId => "item:" ++ toString itemId
    | none => "name:" ++ rules.toLowerCase (jsTrim (entry.row.itemName.getD "")) ++ "|" ++
        jsTrim (entry.row.unit.getD "")) = _
  rw [fields.1, fields.2.1, fields.2.2]
  rfl

theorem mem_merge : row ∈ mergeConsolidationRows rules sources ↔
    ∃ entry, (keyOf rules row, entry) ∈ merged rules sources ∧ entry.toRow = row := by
  constructor
  · intro mem
    obtain ⟨⟨key, entry⟩, there, rfl⟩ := List.mem_map.mp mem
    exact ⟨entry, (keyOf_of_mem there).symm ▸ there, rfl⟩
  · rintro ⟨entry, mem, rfl⟩
    exact List.mem_map_of_mem mem

theorem keys_merge : (mergeConsolidationRows rules sources).map (keyOf rules) = (merged rules sources).map Prod.fst := by
  rw [mergeConsolidationRows, List.map_map]
  exact List.map_congr_left fun entry mem => keyOf_of_mem mem

theorem quantityOfKey_pos (mem : key ∈ (merged rules sources).map Prod.fst) : 0 < quantityOfKey rules sources key := by
  obtain ⟨source, there, counted⟩ := key_mem_group.mp mem
  have positive : ∀ other, countedKey rules other = some key → 0 < other.2.quantity := by
    intro other same
    unfold countedKey at same
    split_ifs at same with positive
    exact positive
  have member : source ∈ (sourceRows sources).filter fun source => countedKey rules source == some key :=
    List.mem_filter.mpr ⟨there, beq_iff_eq.mpr counted⟩
  refine List.sum_pos _ (fun q mem => ?_) (List.ne_nil_of_mem (List.mem_map_of_mem member))
  obtain ⟨other, chosen, rfl⟩ := List.mem_map.mp mem
  exact positive other (beq_iff_eq.mp (List.mem_filter.mp chosen).2)

/-- The average of the estimates of a key. -/
def averageOfKey (rules : CaseRules) (sources : List RequisitionRecord) (key : String) : ℚ :=
  amountOfKey rules sources key / quantityOfKey rules sources key

/-- One row for each key of a row with a quantity, which has the quantity of the key. -/
structure QuantitiesKept (rules : CaseRules) (sources : List RequisitionRecord) : Prop where
  distinct : ((mergeConsolidationRows rules sources).map (keyOf rules)).Nodup
  keys : ∀ key, key ∈ (mergeConsolidationRows rules sources).map (keyOf rules) ↔
    ∃ source ∈ sources, ∃ row ∈ source.items, 0 < row.quantity ∧ keyOf rules row = key
  quantity : ∀ row ∈ mergeConsolidationRows rules sources,
    row.quantity = quantityOfKey rules sources (keyOf rules row)

/-- Every row is estimated at what the rows of its key are. -/
def AmountsKept (rules : CaseRules) (sources : List RequisitionRecord) : Prop :=
  ∀ row ∈ mergeConsolidationRows rules sources, row.amount = amountOfKey rules sources (keyOf rules row)

theorem quantitiesKept (rules : CaseRules) (sources : List RequisitionRecord) : QuantitiesKept rules sources where
  distinct := keys_merge ▸ nodup_group _ _
  keys := by
    intro key
    rw [keys_merge, merged, key_mem_group]
    simp only [sourceRows, List.mem_flatMap, List.mem_map, countedKey]
    constructor
    · rintro ⟨-, ⟨source, mem, row, there, rfl⟩, counted⟩
      split_ifs at counted with positive
      exact ⟨source, mem, row, there, positive, Option.some.inj counted⟩
    · rintro ⟨source, mem, row, there, positive, rfl⟩
      exact ⟨(source.code, row), ⟨source, mem, row, there, rfl⟩, if_pos positive⟩
  quantity := by
    intro row mem
    obtain ⟨entry, there, rfl⟩ := mem_merge.mp mem
    exact qty_of_mem there

/-- A merged row is estimated at the rounded average. -/
theorem amount_of_mem (mem : (key, entry) ∈ merged rules sources) :
    entry.toRow.amount = quantityOfKey rules sources key * money (averageOfKey rules sources key) := by
  show entry.qty * FinancialDecimal.divide entry.total entry.qty = _
  rw [qty_of_mem mem, total_of_mem mem]
  rfl

/-- The consolidated requisition has one row for each key, with the quantity of the key. It is estimated at
what its sources are exactly when no average has more than four decimals. -/
theorem consolidation_keeps (rules : CaseRules) (sources : List RequisitionRecord) :
    QuantitiesKept rules sources ∧
      (AmountsKept rules sources ↔ ∀ source ∈ sources, ∀ row ∈ source.items, 0 < row.quantity →
        AtScale 4 (averageOfKey rules sources (keyOf rules row))) := by
  have kept := quantitiesKept rules sources
  have average : ∀ {key}, key ∈ (merged rules sources).map Prod.fst →
      (quantityOfKey rules sources key * money (averageOfKey rules sources key) = amountOfKey rules sources key ↔
        AtScale 4 (averageOfKey rules sources key)) := by
    intro key mem
    have positive := quantityOfKey_pos mem
    have amount : amountOfKey rules sources key =
        quantityOfKey rules sources key * averageOfKey rules sources key := by
      rw [averageOfKey, mul_div_cancel₀ _ positive.ne']
    rw [amount, mul_right_inj' positive.ne']
    exact ⟨fun same => same ▸ atScale_money _, money_of_atScale⟩
  refine ⟨kept, fun amounts source sourceMem row mem positive => ?_, fun averages row mem => ?_⟩
  · have listed := (kept.keys (keyOf rules row)).mpr ⟨source, sourceMem, row, mem, positive, rfl⟩
    obtain ⟨out, outMem, same⟩ := List.mem_map.mp listed
    obtain ⟨entry, there, rfl⟩ := mem_merge.mp outMem
    have exact_ := amounts _ outMem
    rw [same] at there exact_
    rw [amount_of_mem there] at exact_
    exact (average (List.mem_map_of_mem there)).mp exact_
  · obtain ⟨source, sourceMem, own, ownMem, positive, same⟩ :=
      (kept.keys (keyOf rules row)).mp (List.mem_map_of_mem mem)
    obtain ⟨entry, there, rfl⟩ := mem_merge.mp mem
    have atScale := averages source sourceMem own ownMem positive
    rw [same] at atScale
    rw [amount_of_mem there]
    exact (average (List.mem_map_of_mem there)).mpr atScale

end Merge

/-- A row of item 7. -/
def itemSeven (quantity estimate : ℚ) : RequisitionItemRow where
  itemId := some 7
  itemCode := none
  itemName := some "پیچ"
  category := none
  unit := some "عدد"
  requestedQty := some quantity
  unitPriceEstimate := some estimate
  targetSupplierId := none
  targetSupplierName := none
  notes := none

/-- One at 1 and two at 2 are estimated at 5; the three of the consolidated row, at 5.0001. -/
theorem consolidation_rounds :
    let sources : List RequisitionRecord := [⟨"PR-1", [itemSeven 1 1]⟩, ⟨"PR-2", [itemSeven 2 2]⟩]
    (mergeConsolidationRows asciiRules sources).map (fun row => (row.quantity, row.amount)) = [(3, 50001 / 10000)] ∧
      (sources.flatMap fun source => source.items.map RequisitionItemRow.amount).sum = 5 := by
  decide +kernel

end PapitalErp.Procurement
