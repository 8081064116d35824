import PapitalErp.Lib.Grouping
import PapitalErp.Lib.Json
import PapitalErp.Workflow.Delegation

/-!
# The planned products of a project, read twice

The cap on deliveries and the progress matrix each read the products of a project, or its main item when
there are none. The products are stored JSON, with whatever was written there.

`Number` and `String` of a JSON value and the addition of numbers are parameters. The main item is a row
of the items, so its id is not zero, and its quantity is a number of its column.
-/

namespace PapitalErp.PlannedProducts

open FilteredSums Grouping

inductive JsNumber where
  | nan
  | finite (x : ℚ)
  | infinite (negative : Bool)
  deriving DecidableEq

/-- `x || other`. -/
def JsNumber.or (x : JsNumber) (other : ℚ) : JsNumber :=
  match x with
  | .nan => .finite other
  | .finite x => .finite (if x = 0 then other else x)
  | .infinite negative => .infinite negative

/-- `fin(x)`, where what is not finite is zero. -/
def JsNumber.fin : JsNumber → ℚ
  | .finite x => x
  | _ => 0

structure Script where
  number : JsonValue ℚ → JsNumber
  string : JsonValue ℚ → String
  add : JsNumber → JsNumber → JsNumber
  number_null : number .null = .finite 0
  number_empty : number (.str "") = .finite 0

/-- The columns of a project that are read. -/
structure ProjectRow where
  products : Option (JsonValue ℚ)
  itemId : Option ℕ
  itemCode : String
  itemName : String
  quantity : ℚ
  unit : String

/-- A member of a value that is not null; a value that is no object has none. -/
def get (key : String) : JsonValue ℚ → Option (JsonValue ℚ)
  | .obj members => JsonValue.member key members
  | _ => none

/-- `a ?? b`. -/
def orNullish (a b : Option (JsonValue ℚ)) : Option (JsonValue ℚ) :=
  match a with
  | none | some .null => b
  | some v => some v

/-- `a || b` of texts. -/
def orText (a b : String) : String := if a = "" then b else a

/-- The rows of `products`, none when it is no list. -/
def ProjectRow.rows (project : ProjectRow) : List (JsonValue ℚ) :=
  match project.products with
  | some (.arr items) => items
  | _ => []

/-- The main item; the id zero is none. -/
def ProjectRow.mainItem (project : ProjectRow) : Option ℕ := project.itemId.filter (· ≠ 0)

section

variable (js : Script)

/-- `Number(v)`, of what may be missing. -/
def number (v : Option (JsonValue ℚ)) : JsNumber := v.elim .nan js.number

/-- `String(v ?? '')`. -/
def stringOr (v : Option (JsonValue ℚ)) : String :=
  match v with
  | none | some .null => ""
  | some v => js.string v

/-! ## The cap on deliveries -/

structure PlannedProduct where
  quantity : ℚ
  itemName : String
  unit : String
  deriving DecidableEq

/-- The item id that the cap reads in a row. -/
def plannedItemId (row : JsonValue ℚ) : Option ℕ :=
  match number js (orNullish (get "item_id" row) (get "itemId" row)) with
  | .finite n => if n.den = 1 ∧ 0 < n then some n.num.toNat else none
  | _ => none

/-- `fin(Number(row.quantity) || 0)`. -/
def plannedQuantity (row : JsonValue ℚ) : ℚ := ((number js (get "quantity" row)).or 0).fin

def PlannedProduct.first (row : JsonValue ℚ) : PlannedProduct where
  quantity := 0 + plannedQuantity js row
  itemName := stringOr js (orNullish (get "item_name" row) (get "itemName" row))
  unit := stringOr js (get "unit" row)

def PlannedProduct.add (prev : PlannedProduct) (row : JsonValue ℚ) : PlannedProduct where
  quantity := prev.quantity + plannedQuantity js row
  itemName := orText prev.itemName (stringOr js (orNullish (get "item_name" row) (get "itemName" row)))
  unit := orText prev.unit (stringOr js (get "unit" row))

def isNull : JsonValue ℚ → Bool
  | .null => true
  | _ => false

/-- The planned products by item; a row that is null throws. -/
def plannedProjectProducts (project : ProjectRow) : Option (List (ℕ × PlannedProduct)) :=
  if project.rows.any isNull then none
  else
    let planned := group (PlannedProduct.first js) (PlannedProduct.add js) (plannedItemId js) project.rows
    match planned, project.mainItem with
    | [], some itemId => some [(itemId, ⟨project.quantity, project.itemName, project.unit⟩)]
    | planned, _ => some planned

/-! ## The progress matrix -/

structure MatrixProduct where
  itemId : Option ℕ
  itemCode : String
  itemName : String
  quantity : JsNumber
  unit : String
  selectedOptionalStages : List String
  deriving DecidableEq

def warehouseItemId (v : Option (JsonValue ℚ)) : Option ℕ :=
  match v with
  | none | some .null | some (.str "") => none
  | some v =>
      match js.number v with
      | .finite n => if 0 < n then some ⌊n⌋.toNat else none
      | _ => none

def productRowItemId (row : JsonValue ℚ) : Option ℕ :=
  warehouseItemId js (orNullish (get "item_id" row) (orNullish (get "itemId" row) (get "item_id_raw" row)))

/-- `text`. -/
def text : Option (JsonValue ℚ) → String
  | some (.str s) => s
  | some (.num n) => js.string (.num n)
  | _ => ""

def optionalStagesOf (row : JsonValue ℚ) : List String :=
  match orNullish (get "selected_optional_stages" row) (get "selectedOptionalStages" row) with
  | some (.arr titles) => (titles.map fun title => jsTrim (js.string title)).filter (· ≠ "")
  | _ => []

def matrixProductOf (row : JsonValue ℚ) : MatrixProduct where
  itemId := productRowItemId js row
  itemCode := text js (orNullish (get "item_code" row) (get "itemCode" row))
  itemName := text js (orNullish (get "item_name" row) (get "itemName" row))
  quantity := (number js (get "quantity" row)).or 0
  unit := orText (text js (get "unit" row)) "عدد"
  selectedOptionalStages := optionalStagesOf js row

def MatrixProduct.merge (first p : MatrixProduct) : MatrixProduct :=
  { first with
    quantity := js.add first.quantity p.quantity
    itemCode := orText first.itemCode p.itemCode
    itemName := orText first.itemName p.itemName
    selectedOptionalStages := p.selectedOptionalStages.foldl
      (fun titles title => if title ∈ titles then titles else titles ++ [title]) first.selectedOptionalStages }

/-- A product joins the first one of its item. -/
def place (p : MatrixProduct) : List MatrixProduct → List MatrixProduct
  | [] => [p]
  | first :: rest =>
      if p.itemId ≠ none ∧ first.itemId = p.itemId then first.merge js p :: rest else first :: place p rest

def mergeSameItem (products : List MatrixProduct) : List MatrixProduct :=
  products.foldl (fun merged p => place js p merged) []

def isObject : JsonValue ℚ → Bool
  | .obj _ => true
  | _ => false

def matrixProducts (project : ProjectRow) : List MatrixProduct :=
  let rows := project.rows.filter isObject
  if rows ≠ [] then mergeSameItem js (rows.map (matrixProductOf js))
  else
    match project.mainItem with
    | none => []
    | some itemId =>
        [{
          itemId := some itemId
          itemCode := project.itemCode
          itemName := project.itemName
          quantity := (JsNumber.finite project.quantity).or 1
          unit := orText project.unit "عدد"
          selectedOptionalStages := [] }]

/-! ## One plan -/

/-- The items of the matrix with their quantities. -/
def matrixPlan (project : ProjectRow) : List (ℕ × JsNumber) :=
  (matrixProducts js project).filterMap fun p => p.itemId.map fun itemId => (itemId, p.quantity)

/-- Both readings give the same items with the same quantities. -/
def Agree (project : ProjectRow) : Prop :=
  ∃ planned, plannedProjectProducts js project = some planned ∧
    ∀ itemId quantity, (itemId, quantity) ∈ matrixPlan js project ↔
      ∃ p, (itemId, p) ∈ planned ∧ quantity = .finite p.quantity

/-- The rows of an item for the cap. -/
def ProjectRow.capRows (project : ProjectRow) (itemId : ℕ) : List (JsonValue ℚ) :=
  Grouping.rowsOf (plannedItemId js) project.rows itemId

/-- The rows of an item for the matrix. -/
def ProjectRow.matrixRows (project : ProjectRow) (itemId : ℕ) : List (JsonValue ℚ) :=
  Grouping.rowsOf (productRowItemId js) (project.rows.filter isObject) itemId

/-- The quantities of some rows added as numbers, from the first one on. -/
def numberSum (rows : List (JsonValue ℚ)) : Option JsNumber :=
  entryOf id js.add (rows.map fun row => (number js (get "quantity" row)).or 0)

/-- The quantities of some rows added as decimals. -/
def decimalSum (rows : List (JsonValue ℚ)) : ℚ := (rows.map (plannedQuantity js)).sum

/-- When the readings agree, by the rows of the project. -/
def RowsAgree (project : ProjectRow) : Prop :=
  if project.rows.filter isObject = [] then project.mainItem = none ∨ project.quantity ≠ 0
  else if ∀ row ∈ project.rows, plannedItemId js row = none then
    ∀ itemId, numberSum js (project.matrixRows js itemId) =
      if project.mainItem = some itemId then some (.finite project.quantity) else none
  else
    ∀ itemId, numberSum js (project.matrixRows js itemId) =
      if project.capRows js itemId = [] then none else some (.finite (decimalSum js (project.capRows js itemId)))

end

variable {js : Script} {project : ProjectRow} {row : JsonValue ℚ} {itemId : ℕ} {p : MatrixProduct}
  {products merged : List MatrixProduct} {rows : List (JsonValue ℚ)} {m : JsNumber}

theorem get_of_not_object (plain : isObject row = false) (key : String) : get key row = none := by
  cases row with
  | obj members => cases plain
  | _ => rfl

/-- A row that is no object names no item for the cap. -/
theorem plannedItemId_of_not_object (plain : isObject row = false) : plannedItemId js row = none := by
  simp [plannedItemId, get_of_not_object plain, orNullish, number]

/-! ### The products of the matrix by item -/

/-- A product of an item under the item. -/
def keyed (p : MatrixProduct) : Option (ℕ × MatrixProduct) := p.itemId.map fun itemId => (itemId, p)

theorem keyed_place :
    (place js p merged).filterMap keyed =
      putRow id (MatrixProduct.merge js) MatrixProduct.itemId (merged.filterMap keyed) p := by
  unfold putRow
  induction merged with
  | nil => cases item : p.itemId <;> simp [place, keyed, item, put]
  | cons first rest ih =>
      rw [place]
      cases item : p.itemId with
      | none =>
          rw [item] at ih
          cases own : first.itemId <;> simp [keyed, own] <;> exact ih
      | some k =>
          rw [item] at ih
          cases own : first.itemId with
          | none => simpa [keyed, own] using ih
          | some k' =>
              by_cases same : k' = k
              · simp [keyed, own, same, put, MatrixProduct.merge]
              · simpa [keyed, own, same, put] using ih

/-- The products of the items are the entries of the rows' products by item. -/
theorem keyed_mergeSameItem :
    (mergeSameItem js products).filterMap keyed =
      group id (MatrixProduct.merge js) MatrixProduct.itemId products := by
  induction products using List.reverseRecOn with
  | nil => rfl
  | append_singleton products p ih =>
      rw [mergeSameItem, List.foldl_append, List.foldl_cons, List.foldl_nil, ← mergeSameItem, keyed_place, ih,
        group_concat]

theorem mem_plan_of_keyed :
    (itemId, m) ∈ merged.filterMap (fun p => p.itemId.map fun itemId => (itemId, p.quantity)) ↔
      ∃ p, (itemId, p) ∈ merged.filterMap keyed ∧ p.quantity = m := by
  simp only [List.mem_filterMap, keyed, Option.map_eq_some_iff, Prod.mk.injEq]
  constructor
  · rintro ⟨p, mem, k, own, rfl, rfl⟩
    exact ⟨p, ⟨p, mem, k, own, rfl, rfl⟩, rfl⟩
  · rintro ⟨p, ⟨q, mem, k, own, rfl, rfl⟩, rfl⟩
    exact ⟨q, mem, k, own, rfl, rfl⟩

/-- With product rows the matrix gives an item the sum of the rows of the item. -/
theorem mem_matrixPlan (filled : project.rows.filter isObject ≠ []) :
    (itemId, m) ∈ matrixPlan js project ↔ numberSum js (project.matrixRows js itemId) = some m := by
  have ofItem : Grouping.rowsOf MatrixProduct.itemId ((project.rows.filter isObject).map (matrixProductOf js)) itemId =
      (project.matrixRows js itemId).map (matrixProductOf js) := by
    rw [Grouping.rowsOf, List.filter_map]
    rfl
  have read : ∀ l : List MatrixProduct, (entryOf id (MatrixProduct.merge js) l).map MatrixProduct.quantity =
      entryOf id js.add (l.map MatrixProduct.quantity) :=
    map_entryOf MatrixProduct.quantity MatrixProduct.quantity (fun _ => rfl) fun _ _ => rfl
  rw [matrixPlan, matrixProducts, if_pos filled, mem_plan_of_keyed, keyed_mergeSameItem]
  simp only [mem_group, ofItem]
  rw [← Option.map_eq_some_iff, read, List.map_map]
  rfl

theorem matrixPlan_of_empty (empty : project.rows.filter isObject = []) :
    matrixPlan js project =
      (project.mainItem.map fun itemId => (itemId, (JsNumber.finite project.quantity).or 1)).toList := by
  rw [matrixPlan, matrixProducts, if_neg (not_not.mpr empty)]
  cases project.mainItem <;> rfl

/-! ### The products under the cap -/

/-- The items of the cap with their quantities. -/
theorem mem_group_planned :
    (∃ p, (itemId, p) ∈ group (PlannedProduct.first js) (PlannedProduct.add js) (plannedItemId js) project.rows ∧
        m = .finite p.quantity) ↔
      project.capRows js itemId ≠ [] ∧ m = .finite (decimalSum js (project.capRows js itemId)) := by
  have read : ∀ p, (itemId, p) ∈ group (PlannedProduct.first js) (PlannedProduct.add js) (plannedItemId js)
      project.rows → p.quantity = decimalSum js (project.capRows js itemId) :=
    fun p mem => measure_of_mem PlannedProduct.quantity (fun _ => zero_add _) (fun _ _ => rfl) mem
  constructor
  · rintro ⟨p, mem, rfl⟩
    refine ⟨fun empty => ?_, congrArg JsNumber.finite (read p mem)⟩
    have made := mem_group.mp mem
    rw [← ProjectRow.capRows, empty] at made
    cases made
  · rintro ⟨filled, rfl⟩
    obtain ⟨row, rest, rowsOfItem⟩ := List.exists_cons_of_ne_nil filled
    have mem : (itemId, rest.foldl (PlannedProduct.add js) (PlannedProduct.first js row)) ∈
        group (PlannedProduct.first js) (PlannedProduct.add js) (plannedItemId js) project.rows := by
      rw [mem_group, ← ProjectRow.capRows, rowsOfItem]
      rfl
    exact ⟨_, mem, congrArg JsNumber.finite (read _ mem).symm⟩

theorem plannedProjectProducts_of_null (null : ∃ row ∈ project.rows, isNull row) :
    plannedProjectProducts js project = none := by
  rw [plannedProjectProducts, if_pos (List.any_eq_true.mpr null)]

variable (whole : ∀ row ∈ project.rows, isNull row = false)
include whole

theorem plannedProjectProducts_of_unnamed (unnamed : ∀ row ∈ project.rows, plannedItemId js row = none) :
    plannedProjectProducts js project =
      some (project.mainItem.map fun itemId =>
        (itemId, ⟨project.quantity, project.itemName, project.unit⟩)).toList := by
  have noNull : ¬project.rows.any isNull = true := by simpa using whole
  rw [plannedProjectProducts, if_neg noNull, group_eq_nil_iff.mpr unnamed]
  cases project.mainItem <;> rfl

theorem plannedProjectProducts_of_named (named : ¬∀ row ∈ project.rows, plannedItemId js row = none) :
    plannedProjectProducts js project =
      some (group (PlannedProduct.first js) (PlannedProduct.add js) (plannedItemId js) project.rows) := by
  have noNull : ¬project.rows.any isNull = true := by simpa using whole
  rw [plannedProjectProducts, if_neg noNull]
  obtain ⟨entry, rest, made⟩ := List.exists_cons_of_ne_nil (mt group_eq_nil_iff.mp named)
  rw [made]

omit whole

/-! ### The item of a row -/

/-- What a row holds as its item for the cap. -/
def itemOf (row : JsonValue ℚ) : Option (JsonValue ℚ) := orNullish (get "item_id" row) (get "itemId" row)

theorem warehouseItemId_eq {v : JsonValue ℚ} (present : v ≠ .null) :
    warehouseItemId js (some v) =
      match js.number v with
      | .finite n => if 0 < n then some ⌊n⌋.toNat else none
      | _ => none := by
  by_cases blank : v = .str ""
  · subst blank
    rw [js.number_empty]
    rfl
  · unfold warehouseItemId
    split
    · contradiction
    · rename_i eq
      cases eq
      exact absurd rfl present
    · rename_i eq
      cases eq
      exact absurd rfl blank
    · rename_i v' _ _ eq
      cases eq
      rfl

def nullish : Option (JsonValue ℚ) → Bool
  | none | some .null => true
  | _ => false

/-- The two readings of a row differ where only the old field names an item, and where the item is a
fraction. -/
theorem sameItem_iff :
    productRowItemId js row = plannedItemId js row ↔
      if nullish (itemOf row) then warehouseItemId js (get "item_id_raw" row) = none
      else ∀ x, number js (itemOf row) = .finite x → 0 < x → x.den = 1 := by
  have chained : orNullish (get "item_id" row) (orNullish (get "itemId" row) (get "item_id_raw" row)) =
      orNullish (itemOf row) (get "item_id_raw" row) := by
    rw [itemOf]
    cases get "item_id" row with
    | none => rfl
    | some v => cases v <;> rfl
  rw [productRowItemId, plannedItemId, chained, ← itemOf]
  cases itemOf row with
  | none => simp [nullish, number, orNullish]
  | some v =>
      by_cases null : v = .null
      · subst null
        simp [nullish, number, orNullish, js.number_null]
      · have held : orNullish (some v) (get "item_id_raw" row) = some v := by
          cases v with
          | null => exact absurd rfl null
          | _ => rfl
        have present : nullish (some v) = false := by
          cases v with
          | null => exact absurd rfl null
          | _ => rfl
        rw [held, present, warehouseItemId_eq null, number, Option.elim]
        cases js.number v with
        | nan => simp
        | infinite negative => simp
        | finite x =>
            by_cases positive : 0 < x
            · by_cases integral : x.den = 1
              · obtain ⟨n, rfl⟩ : ∃ n : ℤ, x = n := ⟨x.num, (Rat.den_eq_one_iff x).mp integral |>.symm⟩
                simp [positive]
              · simp [positive, integral]
            · simp [positive]

/-! ### The readings compared -/

theorem agree_of_no_object (empty : project.rows.filter isObject = [])
    (whole : ∀ row ∈ project.rows, isNull row = false) :
    Agree js project ↔ project.mainItem = none ∨ project.quantity ≠ 0 := by
  have unnamed : ∀ row ∈ project.rows, plannedItemId js row = none := by
    intro row mem
    have plain : isObject row = false := by
      simpa using List.filter_eq_nil_iff.mp empty row mem
    exact plannedItemId_of_not_object plain
  rw [Agree, plannedProjectProducts_of_unnamed whole unnamed, matrixPlan_of_empty empty]
  cases project.mainItem with
  | none => simp
  | some main =>
      have or_one : (JsNumber.finite project.quantity).or 1 = .finite project.quantity ↔ project.quantity ≠ 0 := by
        by_cases zero : project.quantity = 0 <;> simp [JsNumber.or, zero]
      simp only [Option.map_some, Option.toList_some, List.mem_singleton, Prod.mk.injEq, Option.some.injEq,
        exists_eq_left', reduceCtorEq, false_or]
      rw [← or_one]
      constructor
      · intro same
        obtain ⟨p, ⟨-, rfl⟩, eq⟩ := (same main _).mp ⟨rfl, rfl⟩
        exact eq
      · rintro eq itemId quantity
        rw [eq]
        constructor
        · rintro ⟨rfl, rfl⟩
          exact ⟨_, ⟨rfl, rfl⟩, rfl⟩
        · rintro ⟨p, ⟨rfl, rfl⟩, rfl⟩
          exact ⟨rfl, rfl⟩

/-- Numbers and nulls read as themselves, with their exact sums. -/
def exactScript : Script where
  number
    | .null => .finite 0
    | .str s => if s = "" then .finite 0 else .nan
    | .num n => .finite n
    | _ => .nan
  string
    | .str s => s
    | _ => ""
  add
    | .finite x, .finite y => .finite (x + y)
    | _, _ => .nan
  number_null := rfl
  number_empty := rfl

/-- Three of the item 7, which only the old field names. -/
def oldRow : ProjectRow where
  products := some (.arr [.obj [("item_id_raw", .num 7), ("quantity", .num 3)]])
  itemId := none
  itemCode := ""
  itemName := ""
  quantity := 1
  unit := ""

end PapitalErp.PlannedProducts
