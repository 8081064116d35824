import PapitalErp.Projects.MaterialAvailability

/-!
# The view agrees with the finalization

The plan of the view and the plan of the server match every row to the same item, and differ
only in the stock that their lists hold and in the figures that their maps hold. What the
plans say of an item depends on these only through the item's own figures.
-/

namespace PapitalErp.MaterialAvailability

open ItemMatch Reservation

variable {js : Script}

/-! ## Another stock -/

/-- An item with another stock. -/
def restock (f : ItemMatch.StockItem → ℚ) (i : ItemMatch.StockItem) : ItemMatch.StockItem := { i with currentStock := f i }

def restockNeed (f : ItemMatch.StockItem → ℚ) (need : ItemNeed) : ItemNeed :=
  { need with item := restock f need.item }

def restockState (f : ItemMatch.StockItem → ℚ) (s : PlanState) : PlanState :=
  { s with needs := s.needs.map (restockNeed f) }

theorem addNeed_restock (f : ItemMatch.StockItem → ℚ) (item : ItemMatch.StockItem) (row : NeedRow) (c : Converted)
    (needs : List ItemNeed) :
    addNeed js (restock f item) row c (needs.map (restockNeed f)) =
      (addNeed js item row c needs).map (restockNeed f) := by
  induction needs with
  | nil => rfl
  | cons need rest ih =>
    rw [List.map_cons, addNeed, addNeed, ih]
    by_cases same : need.item.id = item.id
    · rw [if_pos same, if_pos (show (restockNeed f need).item.id = (restock f item).id from same)]
      rfl
    · rw [if_neg same, if_neg (show ¬(restockNeed f need).item.id = (restock f item).id from same)]
      rfl

theorem addRow_restock {f : ItemMatch.StockItem → ℚ} {matched matched' : NeedRow → Option ItemMatch.StockItem}
    {row : NeedRow} (same : matched' row = (matched row).map (restock f)) (s : PlanState) :
    addRow js matched' (restockState f s) row = restockState f (addRow js matched s row) := by
  unfold addRow
  rw [same]
  cases matched row with
  | none => rfl
  | some item =>
    simp only [Option.map_some]
    rw [show (restock f item).unit = item.unit from rfl]
    cases needInItemUnit js row (unitKey js item.unit) with
    | none => rfl
    | some c =>
      dsimp only
      split_ifs with positive
      · rw [restockState, restockState, addNeed_restock]
      · rfl

theorem foldl_restock {f : ItemMatch.StockItem → ℚ} {matched matched' : NeedRow → Option ItemMatch.StockItem}
    {rows : List NeedRow} (same : ∀ row ∈ rows, matched' row = (matched row).map (restock f))
    (s : PlanState) :
    rows.foldl (addRow js matched') (restockState f s) = restockState f (rows.foldl (addRow js matched) s) := by
  induction rows generalizing s with
  | nil => rfl
  | cons row rows ih =>
    rw [List.foldl_cons, List.foldl_cons, addRow_restock (same row List.mem_cons_self),
      ih fun r hr => same r (List.mem_cons_of_mem row hr)]

theorem planState_restock {f : ItemMatch.StockItem → ℚ} {matched matched' : NeedRow → Option ItemMatch.StockItem}
    {rows : List NeedRow} (same : ∀ row ∈ rows, matched' row = (matched row).map (restock f)) :
    planState js matched' rows = restockState f (planState js matched rows) :=
  foldl_restock same ⟨[], [], []⟩

theorem planState_congr {matched matched' : NeedRow → Option ItemMatch.StockItem} {rows : List NeedRow}
    (same : ∀ row ∈ rows, matched' row = matched row) :
    planState js matched' rows = planState js matched rows := by
  unfold planState
  refine List.foldl_ext _ _ _ fun s row hr => ?_
  rw [addRow, addRow, same row hr]

/-! ## The items of the needs -/

theorem mem_addNeed {item : ItemMatch.StockItem} {row : NeedRow} {c : Converted} {needs : List ItemNeed}
    {need : ItemNeed} (h : need ∈ addNeed js item row c needs) :
    need.item = item ∨ ∃ old ∈ needs, need.item = old.item := by
  induction needs with
  | nil =>
    rw [addNeed, List.mem_singleton] at h
    exact Or.inl (h ▸ rfl)
  | cons first rest ih =>
    rw [addNeed] at h
    split_ifs at h with same
    · rcases List.mem_cons.mp h with rfl | later
      · exact Or.inr ⟨first, List.mem_cons_self, rfl⟩
      · exact Or.inr ⟨need, List.mem_cons_of_mem first later, rfl⟩
    · rcases List.mem_cons.mp h with rfl | later
      · exact Or.inr ⟨need, List.mem_cons_self, rfl⟩
      · exact (ih later).imp_right fun ⟨old, mem, eq⟩ => ⟨old, List.mem_cons_of_mem first mem, eq⟩

/-- Every need's item is matched by a row. -/
theorem exists_row_of_need {matched : NeedRow → Option ItemMatch.StockItem} {rows : List NeedRow} {need : ItemNeed}
    (h : need ∈ (planState js matched rows).needs) : ∃ row ∈ rows, matched row = some need.item := by
  suffices step : ∀ (rows done : List NeedRow) (s : PlanState),
      (∀ n ∈ s.needs, ∃ row ∈ done, matched row = some n.item) →
        ∀ n ∈ (rows.foldl (addRow js matched) s).needs, ∃ row ∈ done ++ rows, matched row = some n.item by
    exact step rows [] ⟨[], [], []⟩ (fun _ hn => absurd hn List.not_mem_nil) need h
  intro rows
  induction rows with
  | nil => simp
  | cons row rows ih =>
    intro done s known n hn
    have after : ∀ n ∈ (addRow js matched s row).needs, ∃ r ∈ done ++ [row], matched r = some n.item := by
      intro n hn
      unfold addRow at hn
      have before : n ∈ s.needs → ∃ r ∈ done ++ [row], matched r = some n.item := fun hn => by
        obtain ⟨r, hr, same⟩ := known n hn
        exact ⟨r, List.mem_append_left _ hr, same⟩
      split at hn
      · exact before hn
      · rename_i item found
        split at hn
        · exact before hn
        · split_ifs at hn
          · rcases mem_addNeed hn with isItem | ⟨old, mem, same⟩
            · exact ⟨row, by simp, by rw [found, isItem]⟩
            · obtain ⟨r, hr, eq⟩ := known old mem
              exact ⟨r, List.mem_append_left _ hr, by rw [eq, same]⟩
          · exact before hn
    rw [List.foldl_cons] at hn
    have all := ih (done ++ [row]) (addRow js matched s row) after n hn
    rwa [List.append_assoc, List.singleton_append] at all

/-! ## The shortages of an item -/

/-- Options with the same figures of an item, and the same stock of it. -/
theorem shortageOf_congr {o o' : ReservationOptions} {need : ItemNeed} {f : ItemMatch.StockItem → ℚ}
    (others : o'.reservedByOthers need.item.id = o.reservedByOthers need.item.id)
    (issued : o'.issuedToProject need.item.id = o.issuedToProject need.item.id)
    (own : o'.ownReserved need.item.id = o.ownReserved need.item.id)
    (stock : f need.item = need.item.currentStock) :
    Reservation.shortageOf o' (restockNeed f need) = Reservation.shortageOf o need := by
  have same : restockNeed f need = need := by
    rw [restockNeed, restock, stock]
  have required : need.required o' = need.required o := by
    unfold ItemNeed.required
    rw [issued]
  have reserved : need.reservedQty o' = need.reservedQty o := by
    unfold ItemNeed.reservedQty
    rw [required, others, own]
  rw [same, Reservation.shortageOf, Reservation.shortageOf, required, reserved, others]

theorem shortageOf_itemId {o : ReservationOptions} {need : ItemNeed} {s : ReservationShortage}
    (h : Reservation.shortageOf o need = some s) : s.itemId = need.item.id := by
  unfold Reservation.shortageOf at h
  dsimp only at h
  split_ifs at h
  rw [← Option.some.inj h]

/-- Two plans' shortages of one item, where they agree on its needs. -/
theorem shortageFor_congr {needs : List ItemNeed} {short short' : ItemNeed → Option ReservationShortage}
    {id : ℕ} (same : ∀ n ∈ needs, n.item.id = id → short' n = short n)
    (own : ∀ n s, short n = some s → s.itemId = n.item.id)
    (own' : ∀ n s, short' n = some s → s.itemId = n.item.id) :
    shortageFor (needs.filterMap short') id = shortageFor (needs.filterMap short) id := by
  have lists : (needs.filterMap short').filter (·.itemId = id) =
      (needs.filterMap short).filter (·.itemId = id) := by
    induction needs with
    | nil => rfl
    | cons n needs ih =>
      have rest := ih fun m hm => same m (List.mem_cons_of_mem n hm)
      by_cases here : n.item.id = id
      · have eq := same n List.mem_cons_self here
        rw [List.filterMap_cons, List.filterMap_cons, eq]
        cases short n with
        | none => exact rest
        | some s =>
          dsimp only
          rw [List.filter_cons, List.filter_cons, rest]
      · have skip : ∀ (f : ItemNeed → Option ReservationShortage),
            (∀ n s, f n = some s → s.itemId = n.item.id) →
              ((n :: needs).filterMap f).filter (·.itemId = id) =
                (needs.filterMap f).filter (·.itemId = id) := by
          intro f owns
          rw [List.filterMap_cons]
          cases value : f n with
          | none => rfl
          | some s =>
            dsimp only
            have other : ¬decide (s.itemId = id) = true := by
              rw [decide_eq_true_eq, owns n s value]
              exact here
            exact List.filter_cons_of_neg other
        rw [skip short' own', skip short own, rest]
  unfold shortageFor
  rw [← List.head?_filter, ← List.head?_filter, List.filter_reverse, List.filter_reverse, lists]

/-! ## One need for an item -/

theorem ids_addNeed (item : ItemMatch.StockItem) (row : NeedRow) (c : Converted) (needs : List ItemNeed) :
    (addNeed js item row c needs).map (·.item.id) =
      if item.id ∈ needs.map (·.item.id) then needs.map (·.item.id)
      else needs.map (·.item.id) ++ [item.id] := by
  induction needs with
  | nil => rfl
  | cons need rest ih =>
    rw [addNeed]
    by_cases same : need.item.id = item.id
    · rw [if_pos same, List.map_cons, List.map_cons,
        if_pos (List.mem_cons.mpr (Or.inl same.symm))]
      rfl
    · rw [if_neg same, List.map_cons, ih, List.map_cons]
      by_cases later : item.id ∈ rest.map (·.item.id)
      · rw [if_pos later, if_pos (List.mem_cons_of_mem _ later)]
      · have absent : item.id ∉ need.item.id :: rest.map (·.item.id) :=
          fun mem => (List.mem_cons.mp mem).elim (fun eq => same eq.symm) later
        rw [if_neg later, if_neg absent, List.cons_append]

theorem nodup_addRow {matched : NeedRow → Option ItemMatch.StockItem} {s : PlanState} {row : NeedRow}
    (h : (s.needs.map (·.item.id)).Nodup) :
    ((addRow js matched s row).needs.map (·.item.id)).Nodup := by
  unfold addRow
  split
  · exact h
  · split
    · exact h
    · split_ifs
      · rw [ids_addNeed]
        split_ifs with mem
        · exact h
        · exact h.append (List.nodup_singleton _) (List.disjoint_singleton.mpr mem)
      · exact h

theorem nodup_planState (matched : NeedRow → Option ItemMatch.StockItem) (rows : List NeedRow) :
    ((planState js matched rows).needs.map (·.item.id)).Nodup := by
  suffices step : ∀ (rows : List NeedRow) (s : PlanState), (s.needs.map (·.item.id)).Nodup →
      ((rows.foldl (addRow js matched) s).needs.map (·.item.id)).Nodup by
    exact step rows ⟨[], [], []⟩ List.nodup_nil
  intro rows
  induction rows with
  | nil => exact fun _ h => h
  | cons row rows ih => exact fun s h => ih _ (nodup_addRow h)

/-- A plan lists a shortage of an item once. -/
theorem shortageFor_eq_iff {o : ReservationOptions} {needs : List ItemNeed}
    (once : (needs.map (·.item.id)).Nodup) {id : ℕ} {s : ReservationShortage} :
    shortageFor (needs.filterMap (Reservation.shortageOf o)) id = some s ↔
      s ∈ needs.filterMap (Reservation.shortageOf o) ∧ s.itemId = id := by
  have unique : ∀ a ∈ needs.filterMap (Reservation.shortageOf o), ∀ b ∈ needs.filterMap (Reservation.shortageOf o),
      a.itemId = b.itemId → a = b := by
    intro a ha b hb same
    obtain ⟨n, hn, fromN⟩ := List.mem_filterMap.mp ha
    obtain ⟨k, hk, fromK⟩ := List.mem_filterMap.mp hb
    rw [shortageOf_itemId fromN, shortageOf_itemId fromK] at same
    obtain rfl : n = k := List.inj_on_of_nodup_map once hn hk same
    exact Option.some.inj (fromN.symm.trans fromK)
  constructor
  · intro found
    have holds := List.find?_some found
    exact ⟨List.mem_reverse.mp (List.mem_of_find?_eq_some found), of_decide_eq_true holds⟩
  · rintro ⟨mem, same⟩
    cases found : shortageFor (needs.filterMap (Reservation.shortageOf o)) id with
    | none =>
      have absent := List.find?_eq_none.mp found s (List.mem_reverse.mpr mem)
      exact absurd (decide_eq_true same) absent
    | some a =>
      have holds := List.find?_some found
      have other := unique a (List.mem_reverse.mp (List.mem_of_find?_eq_some found)) s mem
        ((of_decide_eq_true holds).trans same.symm)
      rw [other]

/-! ## The matches -/

theorem byKey_map (keyOf : ItemMatch.StockItem → String) (f : ItemMatch.StockItem → ℚ)
    (blind : ∀ i, keyOf (restock f i) = keyOf i) (key : String) (items : List ItemMatch.StockItem) :
    byKey keyOf key (items.map (restock f)) = (byKey keyOf key items).map (restock f) := by
  unfold byKey
  split_ifs
  · rfl
  · rw [List.find?_map]
    simp only [Function.comp_def, blind]

/-- The stock of the items does not matter for a match. -/
theorem itemMatch_restock (f : ItemMatch.StockItem → ℚ) (ref : ProjectMaterialRef) (items : List ItemMatch.StockItem) :
    itemMatch js ref (items.map (restock f)) = (itemMatch js ref items).map (restock f) := by
  have byId : (ref.itemId.bind fun id => (items.map (restock f)).find? fun i => i.id = id) =
      (ref.itemId.bind fun id => items.find? fun i => i.id = id).map (restock f) := by
    cases ref.itemId with
    | none => rfl
    | some id =>
      rw [Option.bind_some, Option.bind_some, List.find?_map]
      rfl
  have byCode := byKey_map (fun i => itemCodeKey js.toCasing i.code) f (fun _ => rfl)
    (itemCodeKey js.toCasing ref.code) items
  have byName := byKey_map (fun i => itemNameKey js.toCasing i.name) f (fun _ => rfl)
    (itemNameKey js.toCasing ref.name) items
  unfold itemMatch findProjectItemMatch
  rw [byId, byCode, byName, Option.map_or, Option.map_or]

theorem matchNeedRow_nil (items : List ItemMatch.StockItem) (row : NeedRow) :
    matchNeedRow js items [] row = itemMatch js row.ref items := by
  unfold matchNeedRow
  exact if_pos rfl

theorem mem_of_itemMatch {ref : ProjectMaterialRef} {items : List ItemMatch.StockItem} {i : ItemMatch.StockItem}
    (found : itemMatch js ref items = some i) : i ∈ items := (names_of_match found).1

/-! ## The figures of the report -/

theorem boundedIds_length (ids : List ℕ) : (boundedIds ids).length ≤ maxItems := List.length_take_le _ _

theorem mem_boundedIds_of {ids : List ℕ} {id : ℕ} (h : id ∈ boundedIds ids) : id ∈ ids ∧ 0 < id := by
  have sorted := (List.mem_insertionSort (· ≤ ·)).mp (List.mem_of_mem_take h)
  obtain ⟨mem, positive⟩ := List.mem_filter.mp sorted
  exact ⟨List.mem_dedup.mp mem, of_decide_eq_true positive⟩

/-- Up to the bound, no id is left out. -/
theorem mem_boundedIds_iff {ids : List ℕ} (few : ids.dedup.length ≤ maxItems) {id : ℕ} :
    id ∈ boundedIds ids ↔ id ∈ ids ∧ 0 < id := by
  refine ⟨mem_boundedIds_of, fun ⟨mem, positive⟩ => ?_⟩
  have length : ((ids.dedup.filter (0 < ·)).insertionSort (· ≤ ·)).length ≤ maxItems := by
    rw [List.length_insertionSort]
    exact (List.length_filter_le _ _).trans few
  rw [boundedIds, List.take_of_length_le length, List.mem_insertionSort]
  exact List.mem_filter.mpr ⟨List.mem_dedup.mpr mem, decide_eq_true positive⟩

theorem mem_boundedIds_twice {ids : List ℕ} {id : ℕ} :
    id ∈ boundedIds (boundedIds ids) ↔ id ∈ boundedIds ids := by
  have few : (boundedIds ids).dedup.length ≤ maxItems :=
    (List.dedup_sublist _).length_le.trans (boundedIds_length ids)
  rw [mem_boundedIds_iff few]
  exact ⟨fun h => h.1, fun h => ⟨h, (mem_boundedIds_of h).2⟩⟩

variable {catalog : Catalog} {figures : Figures}

theorem eq_of_id {a b : ItemMatch.StockItem} (ha : a ∈ catalog.items) (hb : b ∈ catalog.items)
    (same : a.id = b.id) : a = b := by
  have once : (catalog.items.map (·.id)).Nodup :=
    List.pairwise_map.mpr (catalog.ordered.imp fun h => h.ne)
  exact List.inj_on_of_nodup_map once ha hb same

/-- The figures of an item that is asked for are its own. -/
theorem figuresOf_report {ids : List ℕ} {i : ItemMatch.StockItem} (mem : i ∈ catalog.items)
    {a : MaterialAvailabilityItem}
    (found : figuresOf (projectMaterialAvailability catalog figures ids) i.id = some a) :
    a.stock = i.currentStock ∧ a.reservedByOthers = figures.reservedByOthers i.id ∧
      a.issuedToProject = figures.issuedToProject i.id := by
  have holds := List.find?_some found
  have entry := List.mem_reverse.mp (List.mem_of_find?_eq_some found)
  obtain ⟨j, hj, rfl⟩ := List.mem_map.mp entry
  obtain rfl := eq_of_id (List.mem_of_mem_filter hj) mem (of_decide_eq_true holds)
  exact ⟨rfl, rfl, rfl⟩

theorem exists_figures {ids : List ℕ} {i : ItemMatch.StockItem} (mem : i ∈ catalog.items)
    (asked : i.id ∈ boundedIds ids) :
    (figuresOf (projectMaterialAvailability catalog figures ids) i.id).isSome := by
  rw [figuresOf, List.find?_isSome]
  refine ⟨_, List.mem_reverse.mpr (List.mem_map.mpr ⟨i, List.mem_filter.mpr ⟨mem, ?_⟩, rfl⟩), ?_⟩
  · exact decide_eq_true asked
  · exact decide_eq_true rfl

/-! ## The server's plan -/

/-- All the figures, for every item. -/
def fullOptions (figures : Figures) : ReservationOptions where
  reservedByOthers := figures.reservedByOthers
  issuedToProject := figures.issuedToProject
  ownReserved := fun _ => 0
  itemAliases := []

/-- The needs that the rows have of all live items. -/
def liveNeeds (js : Script) (catalog : Catalog) (m : Materials) : List ItemNeed :=
  (planState js (fun row => itemMatch js row.ref catalog.items) (collectNeedRows js m)).needs

theorem narrow_state (catalog : Catalog) (m : Materials) :
    planState js (matchNeedRow js (readStockItemsForRefs js.toCasing catalog (projectNeedRefs js m)) [])
        (collectNeedRows js m) =
      planState js (fun row => itemMatch js row.ref catalog.items) (collectNeedRows js m) := by
  refine planState_congr fun row hr => ?_
  rw [matchNeedRow_nil]
  exact findProjectItemMatch_narrow (List.mem_map.mpr ⟨row, hr, rfl⟩)

theorem round_le_round {x y : ℚ} (h : x ≤ y) : FinancialDecimal.round x ≤ FinancialDecimal.round y :=
  Rounding.roundHalfUp_mono 4 h

/-- What a draft leaves out has no need, with any figures. -/
theorem required_of_not_planned {o : ReservationOptions} {need : ItemNeed}
    (h : ¬0 < need.required ReservationOptions.empty) : ¬0 < need.required o := by
  unfold ItemNeed.required at h ⊢
  have less : FinancialDecimal.round (need.qty - max 0 (o.issuedToProject need.item.id)) ≤
      FinancialDecimal.round (need.qty - max 0 (ReservationOptions.empty.issuedToProject need.item.id)) := by
    refine round_le_round (sub_le_sub_left ?_ _)
    exact (max_self (0 : ℚ)).le.trans (le_max_left _ _)
  rw [not_lt] at h ⊢
  exact (max_le_max_left 0 less).trans h

theorem shortageOf_none {o : ReservationOptions} {need : ItemNeed} (h : ¬0 < need.required o) :
    Reservation.shortageOf o need = none := by
  unfold Reservation.shortageOf
  exact if_neg fun both => h both.1

/-- A need of the draft is planned: it is reserved, or short. -/
theorem mem_planned {needs : List ItemNeed} {need : ItemNeed} (mem : need ∈ needs)
    (needed : 0 < need.required ReservationOptions.empty) (reservedAt : String) :
    need.item.id ∈ (needs.filterMap (reservedOf ReservationOptions.empty reservedAt)).map
        ProjectReservedItem.itemId ++
      (needs.filterMap (Reservation.shortageOf ReservationOptions.empty)).map ReservationShortage.itemId := by
  by_cases short : need.reservedQty ReservationOptions.empty < need.required ReservationOptions.empty
  · obtain ⟨s, listed, own⟩ : ∃ s, Reservation.shortageOf ReservationOptions.empty need = some s ∧ s.itemId = need.item.id := by
      unfold Reservation.shortageOf
      exact ⟨_, if_pos ⟨needed, short⟩, rfl⟩
    refine List.mem_append_right _ (List.mem_map.mpr ⟨s, ?_, own⟩)
    exact List.mem_filterMap.mpr ⟨need, mem, listed⟩
  · obtain ⟨r, listed, own⟩ : ∃ r, reservedOf ReservationOptions.empty reservedAt need = some r ∧
        r.itemId = need.item.id := by
      unfold reservedOf
      exact ⟨_, if_pos ⟨needed, needed.trans_le (not_lt.mp short)⟩, rfl⟩
    refine List.mem_append_left _ (List.mem_map.mpr ⟨r, ?_, own⟩)
    exact List.mem_filterMap.mpr ⟨need, mem, listed⟩

/-- The plan of a finalization, from the items that the server reads. -/
def finalizationPlan (js : Script) (catalog : Catalog) (m : Materials) (reservedAt : String)
    (figures : Figures) : Except (List ReservationUnitMismatch) ProjectReservationPlan :=
  planReservationWithOthers js m (readStockItemsForRefs js.toCasing catalog (projectNeedRefs js m))
    reservedAt figures none

/-- A plan without aliases, from the items that the server reads. -/
def narrowPlan (js : Script) (catalog : Catalog) (m : Materials) (reservedAt : String)
    (o : ReservationOptions) : ProjectReservationPlan :=
  planProjectReservation js m (readStockItemsForRefs js.toCasing catalog (projectNeedRefs js m)) reservedAt
    { o with itemAliases := [] }

theorem shortages_narrowPlan (catalog : Catalog) (m : Materials) (reservedAt : String) (o : ReservationOptions) :
    (narrowPlan js catalog m reservedAt o).shortages =
      (liveNeeds js catalog m).filterMap (Reservation.shortageOf { o with itemAliases := [] }) := by
  unfold narrowPlan planProjectReservation liveNeeds
  rw [narrow_state]

theorem reserved_narrowPlan (catalog : Catalog) (m : Materials) (reservedAt : String) (o : ReservationOptions) :
    (narrowPlan js catalog m reservedAt o).reserved =
      (liveNeeds js catalog m).filterMap (reservedOf { o with itemAliases := [] } reservedAt) := by
  unfold narrowPlan planProjectReservation liveNeeds
  rw [narrow_state]

theorem unitMismatches_narrowPlan (catalog : Catalog) (m : Materials) (reservedAt : String)
    (o : ReservationOptions) :
    (narrowPlan js catalog m reservedAt o).unitMismatches =
      (planState js (fun row => itemMatch js row.ref catalog.items)
        (collectNeedRows js m)).mismatches.map Prod.snd := by
  unfold narrowPlan planProjectReservation
  rw [narrow_state]

theorem item_of_liveNeeds {m : Materials} {need : ItemNeed} (h : need ∈ liveNeeds js catalog m) :
    ∃ row ∈ collectNeedRows js m, itemMatch js row.ref catalog.items = some need.item ∧
      need.item ∈ catalog.items := by
  obtain ⟨row, hr, matched⟩ := exists_row_of_need h
  exact ⟨row, hr, matched, mem_of_itemMatch matched⟩

/-- The figures of a plan matter only for the items that the draft plans. -/
theorem filterMap_planned {m : Materials} {o : ReservationOptions} {ids : List ℕ}
    (planned : ∀ need ∈ liveNeeds js catalog m, 0 < need.required ReservationOptions.empty →
      need.item.id ∈ ids)
    (others : ∀ id ∈ ids, o.reservedByOthers id = figures.reservedByOthers id)
    (issued : ∀ id ∈ ids, o.issuedToProject id = figures.issuedToProject id)
    (own : ∀ id ∈ ids, o.ownReserved id = 0) :
    (liveNeeds js catalog m).filterMap (Reservation.shortageOf o) =
      (liveNeeds js catalog m).filterMap (Reservation.shortageOf (fullOptions figures)) := by
  refine List.filterMap_congr fun need hn => ?_
  by_cases needed : 0 < need.required ReservationOptions.empty
  · have mem := planned need hn needed
    exact shortageOf_congr (others _ mem) (issued _ mem) (own _ mem) rfl
  · rw [shortageOf_none (required_of_not_planned needed), shortageOf_none (required_of_not_planned needed)]

/-- The figures that are read: those of the planned items. -/
def readOptions (figures : Figures) (ids : List ℕ) : ReservationOptions where
  reservedByOthers := fun id => if id ∈ ids then figures.reservedByOthers id else 0
  issuedToProject := fun id => if id ∈ ids then figures.issuedToProject id else 0
  ownReserved := fun _ => 0
  itemAliases := []

theorem finalizationPlan_eq (m : Materials) (reservedAt : String) :
    finalizationPlan js catalog m reservedAt figures =
      if (narrowPlan js catalog m reservedAt ReservationOptions.empty).unitMismatches ≠ [] then
        .error (narrowPlan js catalog m reservedAt ReservationOptions.empty).unitMismatches
      else if plannedIds (narrowPlan js catalog m reservedAt ReservationOptions.empty) none = [] then
        .ok (narrowPlan js catalog m reservedAt ReservationOptions.empty)
      else
        .ok (narrowPlan js catalog m reservedAt
          (readOptions figures (plannedIds (narrowPlan js catalog m reservedAt ReservationOptions.empty) none))) := by
  unfold finalizationPlan narrowPlan
  generalize readStockItemsForRefs js.toCasing catalog (projectNeedRefs js m) = items
  rfl

theorem shortages_of_ok {m : Materials} {reservedAt : String} {plan : ProjectReservationPlan}
    (h : finalizationPlan js catalog m reservedAt figures = .ok plan) :
    plan.shortages = (liveNeeds js catalog m).filterMap (Reservation.shortageOf (fullOptions figures)) ∧
      (narrowPlan js catalog m reservedAt ReservationOptions.empty).unitMismatches = [] := by
  have planned : ∀ need ∈ liveNeeds js catalog m, 0 < need.required ReservationOptions.empty →
      need.item.id ∈ plannedIds (narrowPlan js catalog m reservedAt ReservationOptions.empty) .none := by
    intro need hn needed
    obtain ⟨-, -, -, live⟩ := item_of_liveNeeds hn
    refine List.mem_filter.mpr ⟨List.mem_append_left _ ?_, decide_eq_true (catalog.positive _ live)⟩
    rw [reserved_narrowPlan, shortages_narrowPlan]
    exact mem_planned hn needed reservedAt
  rw [finalizationPlan_eq] at h
  split_ifs at h with refused empty
  · refine ⟨?_, not_not.mp refused⟩
    rw [empty] at planned
    rw [← Except.ok.inj h, shortages_narrowPlan]
    exact filterMap_planned planned (fun _ mem => absurd mem List.not_mem_nil)
      (fun _ mem => absurd mem List.not_mem_nil) (fun _ mem => absurd mem List.not_mem_nil)
  · refine ⟨?_, not_not.mp refused⟩
    rw [← Except.ok.inj h, shortages_narrowPlan]
    exact filterMap_planned planned (fun _ mem => if_pos mem) (fun _ mem => if_pos mem) (fun _ _ => rfl)

/-! ## The view's plan -/

/-- What the browser shows from: the live items with a stock that may be out of date, and the
figures of the items that it asked for. -/
def viewOf (catalog : Catalog) (figures : Figures) (m : Materials) (stale : ItemMatch.StockItem → ℚ)
    (ids : List ℕ) : ViewInput where
  materials := m
  stockItems := catalog.items.map (restock stale)
  report := some (projectMaterialAvailability catalog figures ids)

/-- The stock that the view plans with. -/
def shownStock (report : List MaterialAvailabilityItem) (stale : ItemMatch.StockItem → ℚ) (i : ItemMatch.StockItem) : ℚ :=
  ((figuresOf report i.id).map MaterialAvailabilityItem.stock).getD (stale i)

theorem planItems_restock (report : List MaterialAvailabilityItem) (stale : ItemMatch.StockItem → ℚ)
    (items : List ItemMatch.StockItem) :
    planItems report (items.map (restock stale)) = items.map (restock (shownStock report stale)) := by
  unfold planItems
  rw [List.map_map]
  rfl

/-- For an item with figures the view lists the server's shortage. -/
theorem shortageFor_viewPlan {m : Materials} {stale : ItemMatch.StockItem → ℚ} {ids : List ℕ} {id : ℕ}
    (known : (figuresOf (projectMaterialAvailability catalog figures ids) id).isSome) :
    shortageFor (viewPlan js m (catalog.items.map (restock stale))
        (projectMaterialAvailability catalog figures ids)).shortages id =
      shortageFor ((liveNeeds js catalog m).filterMap (Reservation.shortageOf (fullOptions figures))) id := by
  unfold viewPlan planProjectReservation
  dsimp only
  rw [planItems_restock]
  have state : planState js (matchNeedRow js (catalog.items.map
        (restock (shownStock (projectMaterialAvailability catalog figures ids) stale))) [])
        (collectNeedRows js m) =
      restockState (shownStock (projectMaterialAvailability catalog figures ids) stale)
        (planState js (fun row => itemMatch js row.ref catalog.items) (collectNeedRows js m)) := by
    refine planState_restock fun row _ => ?_
    rw [matchNeedRow_nil, itemMatch_restock]
  rw [state]
  change shortageFor (((liveNeeds js catalog m).map (restockNeed _)).filterMap _) id = _
  rw [List.filterMap_map]
  have own : ∀ (o : ReservationOptions) (f : ItemMatch.StockItem → ℚ) (need : ItemNeed) (s : ReservationShortage),
      (Reservation.shortageOf o ∘ restockNeed f) need = some s → s.itemId = need.item.id :=
    by
    intro o f need s h
    have shown : Reservation.shortageOf o (restockNeed f need) = some s := h
    have same : s.itemId = (restockNeed f need).item.id := shortageOf_itemId shown
    exact same
  refine shortageFor_congr (fun need hn same => ?_) (fun _ _ h => shortageOf_itemId h) (own _ _)
  obtain ⟨-, -, -, live⟩ := item_of_liveNeeds hn
  obtain ⟨a, found⟩ := Option.isSome_iff_exists.mp known
  rw [← same] at found
  obtain ⟨stock, others, issued⟩ := figuresOf_report live found
  refine shortageOf_congr (o := fullOptions figures) ?_ ?_ rfl ?_
  · simp only [fullOptions, found, Option.map_some, Option.getD_some, others]
  · simp only [fullOptions, found, Option.map_some, Option.getD_some, issued]
  · simp only [shownStock, found, Option.map_some, Option.getD_some, stock]

end PapitalErp.MaterialAvailability
