import PapitalErp.Projects.MaterialStatesAgree

/-!
# What a material row shows

A row of the form is short exactly when the finalization lists a shortage of its item, with
the same quantity, provided that the finalization is not refused. It is refused where a row's
unit does not convert to the unit of its item; the view then marks that row and goes on with
the others.
-/

namespace PapitalErp.MaterialAvailability

open ItemMatch Reservation

variable {js : Script}

/-! ## Units that do not convert -/

theorem mem_addMismatch {item : ItemMatch.StockItem} {row : NeedRow}
    {mismatches : List ((ℕ × String) × ReservationUnitMismatch)} {x : (ℕ × String) × ReservationUnitMismatch}
    (h : x ∈ addMismatch js item row mismatches) : x ∈ mismatches ∨ x.2.itemId = item.id := by
  unfold addMismatch at h
  dsimp only at h
  split_ifs at h
  · exact Or.inl h
  · refine (List.mem_append.mp h).imp_right fun last => ?_
    rw [List.mem_singleton.mp last]

theorem addMismatch_ne_nil (item : ItemMatch.StockItem) (row : NeedRow)
    (mismatches : List ((ℕ × String) × ReservationUnitMismatch)) : addMismatch js item row mismatches ≠ [] := by
  unfold addMismatch
  dsimp only
  split_ifs with listed
  · intro empty
    rw [empty] at listed
    exact Bool.false_ne_true listed
  · exact List.append_ne_nil_of_right_ne_nil _ (List.cons_ne_nil _ _)

/-- A mismatch is one of a row that is matched to its item. -/
def Mismatched (js : Script) (matched : NeedRow → Option ItemMatch.StockItem) (id : ℕ) (row : NeedRow) : Prop :=
  ∃ item, matched row = some item ∧ needInItemUnit js row (unitKey js item.unit) = none ∧ item.id = id

theorem mismatches_addRow {matched : NeedRow → Option ItemMatch.StockItem} {s : PlanState} {row : NeedRow}
    {x : (ℕ × String) × ReservationUnitMismatch} (h : x ∈ (addRow js matched s row).mismatches) :
    x ∈ s.mismatches ∨ Mismatched js matched x.2.itemId row := by
  unfold addRow at h
  split at h
  · exact Or.inl h
  · rename_i item found
    split at h
    · rename_i refused
      exact (mem_addMismatch h).imp_right fun own => ⟨item, found, refused, own.symm⟩
    · split_ifs at h <;> exact Or.inl h

theorem row_of_mismatch {matched : NeedRow → Option ItemMatch.StockItem} {rows : List NeedRow}
    {x : (ℕ × String) × ReservationUnitMismatch} (h : x ∈ (planState js matched rows).mismatches) :
    ∃ row ∈ rows, Mismatched js matched x.2.itemId row := by
  suffices step : ∀ (rows : List NeedRow) (s : PlanState), x ∈ (rows.foldl (addRow js matched) s).mismatches →
      x ∈ s.mismatches ∨ ∃ row ∈ rows, Mismatched js matched x.2.itemId row by
    exact (step rows ⟨[], [], []⟩ h).resolve_left List.not_mem_nil
  intro rows
  induction rows with
  | nil => exact fun _ h => Or.inl h
  | cons row rows ih =>
    intro s h
    rcases ih _ h with before | ⟨r, hr, own⟩
    · exact (mismatches_addRow before).imp_right fun own => ⟨row, List.mem_cons_self, own⟩
    · exact Or.inr ⟨r, List.mem_cons_of_mem row hr, own⟩

theorem mismatches_ne_nil {matched : NeedRow → Option ItemMatch.StockItem} {s : PlanState} (row : NeedRow)
    (h : s.mismatches ≠ []) : (addRow js matched s row).mismatches ≠ [] := by
  unfold addRow
  split
  · exact h
  · split
    · exact addMismatch_ne_nil _ _ _
    · split_ifs <;> exact h

/-- Where nothing is refused, every matched row converts. -/
theorem isSome_of_no_mismatch {matched : NeedRow → Option ItemMatch.StockItem} {rows : List NeedRow}
    (none_refused : (planState js matched rows).mismatches = []) {row : NeedRow} (mem : row ∈ rows)
    {item : ItemMatch.StockItem} (found : matched row = some item) :
    (needInItemUnit js row (unitKey js item.unit)).isSome := by
  have stays : ∀ (rows : List NeedRow) (s : PlanState), s.mismatches ≠ [] →
      (rows.foldl (addRow js matched) s).mismatches ≠ [] := by
    intro rows
    induction rows with
    | nil => exact fun _ h => h
    | cons r rows ih => exact fun s h => ih _ (mismatches_ne_nil r h)
  rw [Option.isSome_iff_ne_none]
  intro refused
  obtain ⟨before, after, rfl⟩ := List.append_of_mem mem
  refine stays after (addRow js matched (before.foldl (addRow js matched) ⟨[], [], []⟩) row) ?_ ?_
  · unfold addRow
    rw [found]
    dsimp only
    rw [refused]
    exact addMismatch_ne_nil _ _ _
  · rw [planState, List.foldl_append, List.foldl_cons] at none_refused
    exact none_refused

/-! ## The rows of the form -/

/-- A row of the form that shows a row of needs. -/
structure Shows (js : Script) (row : MaterialRowInput) (need : NeedRow) : Prop where
  code : text js row.itemCode = need.code
  name : text js row.name = need.name
  unit : orText (text js row.unit) defaultUnit = need.unit
  conversionRate : row.conversionRate = need.conversionRate
  convertedUnit : row.convertedUnit = need.convertedUnit

/-- Whether a row converts does not depend on its quantity. -/
theorem isSome_needInItemUnit_congr {a b : NeedRow} (unit : a.unit = b.unit)
    (rate : a.conversionRate = b.conversionRate) (target : a.convertedUnit = b.convertedUnit)
    (itemUnit : String) :
    (needInItemUnit js a itemUnit).isSome = (needInItemUnit js b itemUnit).isSome := by
  unfold needInItemUnit
  rw [unit, rate, target]
  split_ifs
  · rfl
  · cases b.conversionRate.bind js.number with
    | none => rfl
    | some r =>
      dsimp only
      split_ifs <;> rfl

theorem rowUnitConvertible_of_shows {row : MaterialRowInput} {need : NeedRow} (shows_ : Shows js row need)
    (itemUnit : String) :
    rowUnitConvertible js row itemUnit = (needInItemUnit js need (unitKey js itemUnit)).isSome :=
  isSome_needInItemUnit_congr shows_.unit shows_.conversionRate shows_.convertedUnit _

/-- The view has the figures of an item. -/
def HasFigures (v : ViewInput) (id : ℕ) : Prop :=
  ∃ report, v.report = some report ∧ (figuresOf report id).isSome

/-- The item that a row of the form is matched to. -/
def rowItem (js : Script) (catalog : Catalog) (row : MaterialRowInput) : Option ItemMatch.StockItem :=
  itemMatch js ⟨none, text js row.itemCode, text js row.name⟩ catalog.items

theorem rowItem_of_shows {catalog : Catalog} {row : MaterialRowInput} {need : NeedRow}
    (shows_ : Shows js row need) : rowItem js catalog row = itemMatch js need.ref catalog.items := by
  rw [rowItem, shows_.code, shows_.name]
  rfl

/-- The quantity that a row shows as missing, with its item. -/
def MaterialRowState.missing : MaterialRowState → Option (ℕ × ℚ)
  | .short id _ _ shortQty _ => some (id, shortQty)
  | _ => none

/-- The item whose unit a row shows as not converting. -/
def MaterialRowState.notConverting : MaterialRowState → Option ℕ
  | .unitMismatch id _ _ _ => some id
  | _ => none

variable {catalog : Catalog} {figures : Figures} {m : Materials} {stale : ItemMatch.StockItem → ℚ}
  {ids : List ℕ}

/-- What a row shows of an item with figures. -/
theorem rowState_matched {row : MaterialRowInput} {item : ItemMatch.StockItem} (h : rowItem js catalog row = some item)
    (known : HasFigures (viewOf catalog figures m stale ids) item.id) :
    if rowUnitConvertible js row item.unit then
      (rowState js (viewOf catalog figures m stale ids) row).notConverting = none ∧
        (rowState js (viewOf catalog figures m stale ids) row).missing =
          (shortageFor ((liveNeeds js catalog m).filterMap (Reservation.shortageOf (fullOptions figures))) item.id).map
            fun s => (item.id, s.shortQty)
    else (rowState js (viewOf catalog figures m stale ids) row).notConverting = some item.id := by
  obtain ⟨report, reported, some_figures⟩ := known
  obtain rfl : projectMaterialAvailability catalog figures ids = report := Option.some.inj reported
  obtain ⟨a, found⟩ := Option.isSome_iff_exists.mp some_figures
  have plan : shortageFor (viewPlan js m (catalog.items.map (restock stale))
        (projectMaterialAvailability catalog figures ids)).shortages item.id =
      shortageFor ((liveNeeds js catalog m).filterMap (Reservation.shortageOf (fullOptions figures))) item.id :=
    shortageFor_viewPlan some_figures
  rw [← plan]
  unfold rowState
  simp only [viewOf, itemMatch_restock]
  rw [rowItem] at h
  rw [h]
  have same : figuresOf (projectMaterialAvailability catalog figures ids) (restock stale item).id = some a := found
  simp only [Option.map_some, Option.bind_some, same]
  by_cases converts : rowUnitConvertible js row item.unit = true
  · have shown : rowUnitConvertible js row (restock stale item).unit = true := converts
    rw [if_pos converts, if_neg (not_not.mpr shown)]
    change (_ ∧ _ = (shortageFor _ (restock stale item).id).map _)
    cases shortageFor _ (restock stale item).id with
    | none => exact ⟨rfl, rfl⟩
    | some s => exact ⟨rfl, rfl⟩
  · have shown : ¬rowUnitConvertible js row (restock stale item).unit = true := converts
    rw [if_neg converts, if_pos shown]
    rfl

/-! ## Figures for every need -/

theorem mem_of_get {r : Row} {key : String} {v : JsonValue ℚ} (h : r.get key = some v) : ∃ m ∈ r, m.2 = v := by
  unfold Row.get at h
  induction r with
  | nil => exact absurd h.symm (Option.some_ne_none v)
  | cons first rest ih =>
    obtain ⟨name, value⟩ := first
    rw [JsonValue.member] at h
    split_ifs at h
    · exact ⟨(name, value), List.mem_cons_self, Option.some.inj h⟩
    · obtain ⟨m, mem, same⟩ := ih h
      exact ⟨m, List.mem_cons_of_mem _ mem, same⟩

theorem ref_of_pushRow {r : Row} {qty : Option ℚ} {name : Option (JsonValue ℚ)} {category title : Option String}
    {need : NeedRow} (h : need ∈ pushRow js r qty name category title) :
    need.ref = ⟨none, text js (r.get "itemCode"), text js name⟩ := by
  unfold pushRow at h
  dsimp only at h
  split at h
  · split_ifs at h
    · exact absurd h List.not_mem_nil
    · rw [List.mem_singleton.mp h]
      rfl
  · exact absurd h List.not_mem_nil

/-- A schema row keeps its code, name and unit as a row of a product. -/
theorem get_schemaRow {s : Row} {key : String} (kept : key = "itemCode" ∨ key = "name") :
    Row.get ((["itemCode", "name", "unit"].filterMap fun key => (s.get key).map fun v => (key, v)) ++
      [("requiredQty", .num 1)]) key = s.get key := by
  have code : s.get "itemCode" = none ∨ ∃ v, s.get "itemCode" = some v := Option.eq_none_or_eq_some _
  have name : s.get "name" = none ∨ ∃ v, s.get "name" = some v := Option.eq_none_or_eq_some _
  have unit : s.get "unit" = none ∨ ∃ v, s.get "unit" = some v := Option.eq_none_or_eq_some _
  rcases kept with rfl | rfl <;> rcases code with c | ⟨c, hc⟩ <;> rcases name with n | ⟨n, hn⟩ <;>
    rcases unit with u | ⟨u, hu⟩ <;> simp only [Row.get] at * <;> simp [*, JsonValue.member]

theorem mem_materialRefs {m : Materials} {need : NeedRow} (h : need ∈ collectNeedRows js m) :
    need.ref ∈ materialRefs js m := by
  rcases List.mem_append.mp h with inSection | manual
  · obtain ⟨sec, hsec, hneed⟩ := List.mem_flatMap.mp inSection
    refine List.mem_append_left _ (List.mem_flatMap.mpr ⟨sec, hsec, ?_⟩)
    unfold sectionRows at hneed
    split at hneed
    · rename_i perItemResults _ stored
      obtain ⟨⟨prod, idx⟩, -, hrow⟩ := List.mem_flatMap.mp hneed
      unfold productRows at hrow
      obtain ⟨r, hr, pushed⟩ := List.mem_flatMap.mp hrow
      rw [ref_of_pushRow pushed]
      split_ifs at hr
      · obtain ⟨s, hs, rfl⟩ := List.mem_map.mp hr
        rw [get_schemaRow (Or.inl rfl), get_schemaRow (Or.inr rfl)]
        exact List.mem_append_left _ (List.mem_append_right _ (List.mem_map.mpr ⟨s, hs, rfl⟩))
      · refine List.mem_append_left _ (List.mem_append_left _ ?_)
        cases given : perItemResults.get (perItemProductKey js prod idx) with
        | none =>
          rw [given] at hr
          exact absurd hr List.not_mem_nil
        | some v =>
          rw [given] at hr
          obtain ⟨entry, hentry, rfl⟩ := mem_of_get given
          rw [stored]
          exact List.mem_flatMap.mpr ⟨entry, hentry, List.mem_map.mpr ⟨r, hr, rfl⟩⟩
    · split_ifs at hneed
      · obtain ⟨g, hg, pushed⟩ := List.mem_flatMap.mp hneed
        rw [ref_of_pushRow pushed]
        exact List.mem_append_right _ (List.mem_map.mpr ⟨g, hg, rfl⟩)
      · exact absurd hneed List.not_mem_nil
  · obtain ⟨r, hr, hneed⟩ := List.mem_flatMap.mp manual
    unfold manualRows at hneed
    split_ifs at hneed
    · rw [ref_of_pushRow hneed]
      exact List.mem_append_right _ (List.mem_map.mpr ⟨r, hr, rfl⟩)
    · exact absurd hneed List.not_mem_nil

/-- The items that the rows of the form reach. -/
def reachedIds (js : Script) (catalog : Catalog) (m : Materials) : List ℕ :=
  ((materialRefs js m).filterMap fun ref => itemMatch js ref catalog.items).map fun i => i.id

/-- What the browser asks for: the items that its own list gives the rows. -/
theorem projectMaterialItemIds_restock (catalog : Catalog) (m : Materials) (stale : ItemMatch.StockItem → ℚ) :
    projectMaterialItemIds js m (catalog.items.map (restock stale)) = boundedIds (reachedIds js catalog m) := by
  unfold projectMaterialItemIds reachedIds
  simp only [itemMatch_restock]
  have same : ((materialRefs js m).filterMap fun ref => (itemMatch js ref catalog.items).map (restock stale)) =
      ((materialRefs js m).filterMap fun ref => itemMatch js ref catalog.items).map (restock stale) :=
    List.map_filterMap.symm
  rw [same, List.map_map]
  rfl

/-- Up to the bound of a request, the view has the figures of every item that is needed. -/
theorem hasFigures_of_few (few : (reachedIds js catalog m).dedup.length ≤ maxItems) {need : NeedRow}
    (mem : need ∈ collectNeedRows js m) {item : ItemMatch.StockItem}
    (matched : itemMatch js need.ref catalog.items = some item) :
    HasFigures (viewOf catalog figures m stale
      (projectMaterialItemIds js m (catalog.items.map (restock stale)))) item.id := by
  refine ⟨_, rfl, exists_figures (mem_of_itemMatch matched) ?_⟩
  rw [projectMaterialItemIds_restock, mem_boundedIds_twice, mem_boundedIds_iff few]
  refine ⟨List.mem_map.mpr ⟨item, List.mem_filterMap.mpr ⟨need.ref, mem_materialRefs mem, matched⟩, rfl⟩, ?_⟩
  exact catalog.positive _ (mem_of_itemMatch matched)

/-! ## The states agree -/

/-- What the view says against what the finalization does: a refused finalization names rows
that the view marks, and an accepted one lists the shortages that the rows show. -/
def Agrees (js : Script) (catalog : Catalog) (v : ViewInput) :
    Except (List ReservationUnitMismatch) ProjectReservationPlan → Prop
  | .error mismatches =>
    mismatches ≠ [] ∧ ∀ x ∈ mismatches, ∃ need ∈ collectNeedRows js v.materials, ∀ row, Shows js row need →
      HasFigures v x.itemId → (rowState js v row).notConverting = some x.itemId
  | .ok plan =>
    (∀ id, HasFigures v id → isItemShort js v id = some (decide (∃ s ∈ plan.shortages, s.itemId = id))) ∧
      (∀ need ∈ collectNeedRows js v.materials, ∀ row, Shows js row need → ∀ item,
        rowItem js catalog row = some item → rowUnitConvertible js row item.unit) ∧
      ∀ row item, rowItem js catalog row = some item → HasFigures v item.id →
        rowUnitConvertible js row item.unit → ∀ q,
          ((rowState js v row).missing = some (item.id, q) ↔
            ∃ s ∈ plan.shortages, s.itemId = item.id ∧ s.shortQty = q)

theorem agrees_error {reservedAt : String} {mismatches : List ReservationUnitMismatch}
    (h : finalizationPlan js catalog m reservedAt figures = .error mismatches) :
    Agrees js catalog (viewOf catalog figures m stale ids) (.error mismatches) := by
  rw [finalizationPlan_eq] at h
  split_ifs at h with refused
  obtain rfl := Except.error.inj h
  refine ⟨refused, fun x hx => ?_⟩
  rw [unitMismatches_narrowPlan] at hx
  obtain ⟨entry, hentry, rfl⟩ := List.mem_map.mp hx
  obtain ⟨need, mem, item, matched, fails, own⟩ := row_of_mismatch hentry
  refine ⟨need, mem, fun row shown known => ?_⟩
  rw [← own] at known ⊢
  have state := rowState_matched ((rowItem_of_shows shown).trans matched) known
  rwa [rowUnitConvertible_of_shows shown, fails, if_neg (by simp)] at state

theorem agrees_ok {reservedAt : String} {plan : ProjectReservationPlan}
    (h : finalizationPlan js catalog m reservedAt figures = .ok plan) :
    Agrees js catalog (viewOf catalog figures m stale ids) (.ok plan) := by
  obtain ⟨shortages, accepted⟩ := shortages_of_ok h
  rw [unitMismatches_narrowPlan, List.map_eq_nil_iff] at accepted
  refine ⟨fun id known => ?_, fun need mem row shown item matched => ?_, fun row item matched known converts q => ?_⟩
  · obtain ⟨report, reported, some_figures⟩ := known
    obtain rfl : projectMaterialAvailability catalog figures ids = report := Option.some.inj reported
    unfold isItemShort
    dsimp only [viewOf]
    rw [if_pos some_figures, shortageFor_viewPlan some_figures, shortages, Option.some_inj,
      Bool.eq_iff_iff, decide_eq_true_eq, Option.isSome_iff_exists]
    exact exists_congr fun s => shortageFor_eq_iff (nodup_planState _ _)
  · rw [rowUnitConvertible_of_shows shown]
    exact isSome_of_no_mismatch accepted mem ((rowItem_of_shows shown).symm.trans matched)
  · have state := rowState_matched matched known
    rw [if_pos converts] at state
    rw [state.2, shortages, Option.map_eq_some_iff]
    constructor
    · rintro ⟨s, listed, same⟩
      obtain ⟨mem, own⟩ := (shortageFor_eq_iff (nodup_planState _ _)).mp listed
      exact ⟨s, mem, own, (Prod.mk.inj same).2⟩
    · rintro ⟨s, mem, own, qty⟩
      exact ⟨s, (shortageFor_eq_iff (nodup_planState _ _)).mpr ⟨mem, own⟩, congrArg (item.id, ·) qty⟩

/-- Letter case for ASCII, and no texts of numbers. -/
def plainScript : Script where
  toCasing := Casing.ascii
  number
    | .num n => some n
    | _ => none
  numberText _ := ""

/-- An item in metres and one in pieces. -/
def twoItems : Catalog where
  items := [
    { id := 1, code := "A", name := "A", category := "", unit := "M", currentStock := 3 },
    { id := 2, code := "B", name := "B", category := "", unit := "PCS", currentStock := 0 }]
  ordered := by decide
  positive := by decide
  stored := by decide

def noFigures : Figures := ⟨fun _ => 0, fun _ => 0⟩

def globalRow (code unit : String) (qty : ℚ) : JsonValue ℚ :=
  .obj [("itemCode", .str code), ("name", .str code), ("unit", .str unit), ("requiredQty", .num qty)]

/-- Five of each, both counted in pieces. -/
def twoRows : Materials where
  sections := some (.arr [.obj [("checkType", .str "global"),
    ("globalItems", .arr [globalRow "A" "PCS" 5, globalRow "B" "PCS" 5])]])
  products := none
  manualPurchaseItems := none

end PapitalErp.MaterialAvailability
