import PapitalErp.Lib.FilteredSums
import PapitalErp.Projects.MaterialStatesAgree

/-!
# What a plan reserves of an item

The plan goes through the rows one after the other and keeps a need for each item. Its
figures of an item are a function of what the rows ask of that item altogether, of the
item's stock and of the reservations: the bounds, the idempotence and the independence of
the order of the rows are facts about that function.

Quantities are exact; a negative figure of issues or reservations counts as zero.
-/

namespace PapitalErp.Reservation

open ItemMatch FilteredSums MaterialAvailability

/-! ## One item -/

/-- What of a required quantity is reserved. -/
def reserve (own others stock required : ℚ) : ℚ :=
  min required (min own required + max 0 (stock - others - own))

section

variable {own others stock required : ℚ}

theorem reserve_le : reserve own others stock required ≤ required := min_le_left _ _

theorem own_le_reserve : min own required ≤ reserve own others stock required :=
  le_min (min_le_right _ _) (le_add_of_nonneg_right (le_max_left _ _))

theorem reserve_nonneg (hown : 0 ≤ own) (hrequired : 0 ≤ required) :
    0 ≤ reserve own others stock required :=
  (le_min hown hrequired).trans own_le_reserve

/-- Nothing is reserved that somebody else holds. -/
theorem reserve_add_le (within : own + others ≤ stock) :
    reserve own others stock required + others ≤ stock := by
  have free : max 0 (stock - others - own) = stock - others - own := max_eq_right (by linarith)
  have kept : min own required ≤ own := min_le_left _ _
  have reserved : reserve own others stock required ≤ min own required + (stock - others - own) := by
    rw [reserve, free]
    exact min_le_right _ _
  linarith

theorem reserve_zero (hown : 0 ≤ own) : reserve own others stock 0 = 0 :=
  le_antisymm reserve_le (reserve_nonneg hown le_rfl)

/-- What is planned stays planned. -/
theorem reserve_reserve :
    reserve (reserve own others stock required) others stock required =
      reserve own others stock required := by
  refine le_antisymm ?_ ((le_min le_rfl reserve_le).trans own_le_reserve)
  by_cases enough : required ≤ reserve own others stock required
  · exact reserve_le.trans enough
  · -- short: everything free is taken already
    have short := not_le.mp enough
    have sum : reserve own others stock required =
        min own required + max 0 (stock - others - own) :=
      (min_choice _ _).resolve_left fun same => enough (le_of_eq same.symm)
    have kept : min own required = own := by
      rcases min_choice own required with same | same
      · exact same
      · have reached : min own required ≤ reserve own others stock required := own_le_reserve
        rw [same] at reached
        exact absurd reached enough
    have nothing : max 0 (stock - others - reserve own others stock required) = 0 := by
      refine max_eq_left ?_
      have free := le_max_right 0 (stock - others - own)
      rw [sum, kept]
      linarith
    have again : reserve (reserve own others stock required) others stock required ≤
        min (reserve own others stock required) required +
          max 0 (stock - others - reserve own others stock required) := min_le_right _ _
    rw [nothing, add_zero] at again
    exact again.trans (min_le_left _ _)

end

/-! ## What the rows ask of an item -/

section

variable (js : Script)

/-- The item and the quantity that a row counts for. -/
def contribution (matched : NeedRow → Option ItemMatch.StockItem) (row : NeedRow) : Option (ItemMatch.StockItem × Converted) :=
  (matched row).bind fun item =>
    (needInItemUnit js row (unitKey js item.unit)).bind fun c =>
      if 0 < c.qty then some (item, c) else none

/-- What rows ask of an item, in its unit. -/
def neededQty (matched : NeedRow → Option ItemMatch.StockItem) (rows : List NeedRow) (id : ℕ) : ℚ :=
  sumWhere (fun c => decide (c.1.id = id)) (fun c => c.2.qty) (rows.filterMap (contribution js matched))

end

/-- What is still required of it. -/
def requiredQty (options : ReservationOptions) (id : ℕ) (needed : ℚ) : ℚ :=
  max 0 (FinancialDecimal.round (needed - max 0 (options.issuedToProject id)))

theorem requiredQty_nonneg (options : ReservationOptions) (id : ℕ) (needed : ℚ) :
    0 ≤ requiredQty options id needed := le_max_left _ _

theorem requiredQty_zero (options : ReservationOptions) (id : ℕ) : requiredQty options id 0 = 0 := by
  have issued : 0 - max 0 (options.issuedToProject id) ≤ 0 :=
    sub_nonpos.mpr (le_max_left _ _)
  have rounded := round_le_round issued
  have zero : FinancialDecimal.round 0 = 0 := Rounding.roundHalfUp_of_atScale (Rounding.AtScale.zero 4)
  rw [zero] at rounded
  exact max_eq_left rounded

/-- What a plan reserves of a required quantity of an item. -/
def reserveOf (options : ReservationOptions) (id : ℕ) (stock required : ℚ) : ℚ :=
  reserve (max 0 (options.ownReserved id)) (max 0 (options.reservedByOthers id)) stock required

theorem reservedQty_eq (options : ReservationOptions) (need : ItemNeed) :
    need.reservedQty options =
      reserveOf options need.item.id need.item.currentStock (need.required options) := rfl

theorem required_eq (options : ReservationOptions) (need : ItemNeed) :
    need.required options = requiredQty options need.item.id need.qty := rfl

variable {js : Script} {matched : NeedRow → Option ItemMatch.StockItem}

theorem sum_addNeed (item : ItemMatch.StockItem) (row : NeedRow) (c : Converted) (needs : List ItemNeed) (id : ℕ) :
    sumWhere (fun n => decide (n.item.id = id)) ItemNeed.qty (addNeed js item row c needs) =
      sumWhere (fun n => decide (n.item.id = id)) ItemNeed.qty needs +
        if item.id = id then c.qty else 0 := by
  induction needs with
  | nil => simp [addNeed, ItemNeed.add]
  | cons need rest ih =>
    rw [addNeed]
    by_cases same : need.item.id = item.id
    · have item_add : (need.add js row c).item = need.item := rfl
      have qty_add : (need.add js row c).qty = need.qty + c.qty := rfl
      rw [if_pos same, sumWhere_cons, sumWhere_cons, item_add, qty_add, same]
      by_cases asked : item.id = id
      · simp only [asked, decide_true, if_true]
        ring
      · simp [asked]
    · rw [if_neg same, sumWhere_cons, sumWhere_cons, ih, add_assoc]

theorem needs_addRow (s : PlanState) (row : NeedRow) :
    (addRow js matched s row).needs =
      match contribution js matched row with
      | some (item, c) => addNeed js item row c s.needs
      | none => s.needs := by
  unfold addRow contribution
  cases matched row with
  | none => rfl
  | some item =>
    cases converted : needInItemUnit js row (unitKey js item.unit) with
    | none => simp [converted]
    | some c =>
      dsimp only [Option.bind_some]
      rw [converted]
      by_cases positive : 0 < c.qty
      · simp [positive]
      · simp [positive]

/-- The needs of an item come to what the rows ask of it. -/
theorem sum_needs (rows : List NeedRow) (id : ℕ) :
    sumWhere (fun n => decide (n.item.id = id)) ItemNeed.qty (planState js matched rows).needs =
      neededQty js matched rows id := by
  suffices run : ∀ s : PlanState,
      sumWhere (fun n => decide (n.item.id = id)) ItemNeed.qty (rows.foldl (addRow js matched) s).needs =
        sumWhere (fun n => decide (n.item.id = id)) ItemNeed.qty s.needs + neededQty js matched rows id by
    exact (run ⟨[], [], []⟩).trans (zero_add _)
  induction rows with
  | nil => exact fun s => (add_zero _).symm
  | cons row rows ih =>
    intro s
    rw [List.foldl_cons, ih, needs_addRow, neededQty, neededQty, List.filterMap_cons]
    cases contribution js matched row with
    | none => rfl
    | some c =>
      dsimp only
      rw [sum_addNeed, sumWhere_cons, add_assoc]
      simp

theorem neededQty_perm {rows rows' : List NeedRow} (same : rows.Perm rows') (id : ℕ) :
    neededQty js matched rows id = neededQty js matched rows' id :=
  sumWhere_perm (same.filterMap _)

/-! ## The plan by item -/

/-- Warehouse items, each once. -/
structure StockItems where
  items : List ItemMatch.StockItem
  once : (items.map fun i => i.id).Nodup

def StockItems.stockOf (stock : StockItems) (id : ℕ) : ℚ :=
  (stock.items.find? fun i => i.id = id).elim 0 ItemMatch.StockItem.currentStock

theorem StockItems.stockOf_of_mem {stock : StockItems} {i : ItemMatch.StockItem} (member : i ∈ stock.items) :
    stock.stockOf i.id = i.currentStock := by
  unfold StockItems.stockOf
  cases found : stock.items.find? fun j => j.id = i.id with
  | none => exact absurd (List.find?_eq_none.mp found i member) (by simp)
  | some j =>
    have holds := List.find?_some found
    have same := List.inj_on_of_nodup_map stock.once (List.mem_of_find?_eq_some found) member
      (of_decide_eq_true holds)
    rw [same]
    rfl

theorem mem_of_matchNeedRow {items : List ItemMatch.StockItem} {aliases : List MatchableItem} {row : NeedRow}
    {i : ItemMatch.StockItem} (h : matchNeedRow js items aliases row = some i) : i ∈ items := by
  have through : ∀ (a : Option MatchableItem) {j : ItemMatch.StockItem},
      (a.bind fun a => items.find? fun i => i.id = a.id) = some j → j ∈ items := by
    intro a j found
    obtain ⟨b, -, found⟩ := Option.bind_eq_some_iff.mp found
    exact List.mem_of_find?_eq_some found
  unfold matchNeedRow at h
  dsimp only at h
  split_ifs at h
  · exact mem_of_itemMatch h
  · rcases Option.or_eq_some_iff.mp h with h | ⟨-, h⟩
    · rcases Option.or_eq_some_iff.mp h with h | ⟨-, h⟩
      · rcases Option.or_eq_some_iff.mp h with h | ⟨-, h⟩
        · exact mem_of_itemMatch h
        · exact through _ h
      · exact mem_of_itemMatch h
    · exact through _ h

/-- What a plan reserves of an item. -/
def plannedQty (plan : ProjectReservationPlan) (id : ℕ) : ℚ :=
  sumWhere (fun r => decide (r.itemId = id)) ProjectReservedItem.reservedQty plan.reserved

theorem reservedQty_nonneg (options : ReservationOptions) (need : ItemNeed) : 0 ≤ need.reservedQty options :=
  reserve_nonneg (le_max_left _ _) (requiredQty_nonneg _ _ _)

theorem reservedQty_le (options : ReservationOptions) (need : ItemNeed) :
    need.reservedQty options ≤ need.required options := reserve_le

/-- A need that the plan does not list is reserved nothing. -/
theorem reservedQty_of_not_listed {options : ReservationOptions} {reservedAt : String} {need : ItemNeed}
    (h : reservedOf options reservedAt need = none) : need.reservedQty options = 0 := by
  unfold reservedOf at h
  dsimp only at h
  split_ifs at h with listed
  refine le_antisymm ?_ (reservedQty_nonneg options need)
  by_contra positive
  exact listed ⟨(not_le.mp positive).trans_le (reservedQty_le options need), not_le.mp positive⟩

theorem of_reservedOf {options : ReservationOptions} {reservedAt : String} {need : ItemNeed}
    {r : ProjectReservedItem} (h : reservedOf options reservedAt need = some r) :
    r.itemId = need.item.id ∧ r.reservedQty = need.reservedQty options := by
  unfold reservedOf at h
  dsimp only at h
  by_cases listed : 0 < need.required options ∧ 0 < need.reservedQty options
  · rw [if_pos listed] at h
    obtain rfl := Option.some.inj h
    exact ⟨rfl, rfl⟩
  · rw [if_neg listed] at h
    exact absurd h (Option.some_ne_none r).symm

theorem sum_reserved (options : ReservationOptions) (reservedAt : String) (needs : List ItemNeed) (id : ℕ) :
    sumWhere (fun r => decide (r.itemId = id)) ProjectReservedItem.reservedQty
        (needs.filterMap (reservedOf options reservedAt)) =
      sumWhere (fun n => decide (n.item.id = id)) (fun n => n.reservedQty options) needs := by
  induction needs with
  | nil => rfl
  | cons need needs ih =>
    rw [List.filterMap_cons, sumWhere_cons]
    cases listed : reservedOf options reservedAt need with
    | none => rw [reservedQty_of_not_listed listed, ite_self, zero_add, ← ih]
    | some r =>
      dsimp only
      rw [sumWhere_cons, ih, (of_reservedOf listed).1, (of_reservedOf listed).2]

section

variable (js) (stock : StockItems) (options : ReservationOptions)

/-- The needs that the plan is made from. -/
def planNeeds (m : Materials) : List ItemNeed :=
  (planState js (matchNeedRow js stock.items options.itemAliases) (collectNeedRows js m)).needs

/-- What the materials require of an item. -/
def requiredOf (m : Materials) (id : ℕ) : ℚ :=
  requiredQty options id
    (neededQty js (matchNeedRow js stock.items options.itemAliases) (collectNeedRows js m) id)

variable {js stock options} {m : Materials}

/-- An item has one need, of the whole that is asked of it, or nothing is required of it. -/
theorem need_of_id (js : Script) (stock : StockItems) (options : ReservationOptions) (m : Materials) (id : ℕ) :
    (∃ need ∈ planNeeds js stock options m, need.item.id = id ∧ need.item ∈ stock.items ∧
        need.required options = requiredOf js stock options m id ∧
          ∀ f : ItemNeed → ℚ, sumWhere (fun n => decide (n.item.id = id)) f (planNeeds js stock options m) =
            f need) ∨
      requiredOf js stock options m id = 0 ∧ (∀ need ∈ planNeeds js stock options m, need.item.id ≠ id) ∧
        ∀ f : ItemNeed → ℚ, sumWhere (fun n => decide (n.item.id = id)) f (planNeeds js stock options m) = 0 := by
  have total : sumWhere (fun n => decide (n.item.id = id)) ItemNeed.qty (planNeeds js stock options m) =
      neededQty js (matchNeedRow js stock.items options.itemAliases) (collectNeedRows js m) id :=
    sum_needs _ id
  have once : (planNeeds js stock options m).Pairwise fun a b => ¬(decide (a.item.id = id) = true ∧
      decide (b.item.id = id) = true) := by
    refine (List.pairwise_map.mp (nodup_planState _ _)).imp fun apart both => apart ?_
    exact (of_decide_eq_true both.1).trans (of_decide_eq_true both.2).symm
  by_cases asked : ∃ need ∈ planNeeds js stock options m, need.item.id = id
  · obtain ⟨need, member, same⟩ := asked
    have sums : ∀ f : ItemNeed → ℚ,
        sumWhere (fun n => decide (n.item.id = id)) f (planNeeds js stock options m) = f need :=
      fun f => sumWhere_of_unique member (decide_eq_true same) once
    obtain ⟨row, -, found⟩ := exists_row_of_need member
    refine .inl ⟨need, member, same, mem_of_matchNeedRow found, ?_, sums⟩
    rw [required_eq, requiredOf, ← total, same]
    exact congrArg _ (sums ItemNeed.qty).symm
  · have none_asks : ∀ need ∈ planNeeds js stock options m, need.item.id ≠ id :=
      fun need member same => asked ⟨need, member, same⟩
    have sums : ∀ f : ItemNeed → ℚ,
        sumWhere (fun n => decide (n.item.id = id)) f (planNeeds js stock options m) = 0 :=
      fun f => sumWhere_eq_zero fun need member => decide_eq_false (none_asks need member)
    refine .inr ⟨?_, none_asks, sums⟩
    rw [requiredOf, ← total]
    exact (congrArg _ (sums ItemNeed.qty)).trans (requiredQty_zero options id)

/-- The figure of an item depends on what is required of it and on its stock. -/
theorem plannedQty_eq (m : Materials) (reservedAt : String) (id : ℕ) :
    plannedQty (planProjectReservation js m stock.items reservedAt options) id =
      reserveOf options id (stock.stockOf id) (requiredOf js stock options m id) := by
  have sums := sum_reserved options reservedAt (planNeeds js stock options m) id
  change sumWhere _ _ ((planNeeds js stock options m).filterMap _) = _
  rw [sums]
  rcases need_of_id js stock options m id with ⟨need, -, rfl, live, required, unique⟩ | ⟨nothing, -, unique⟩
  · rw [unique, reservedQty_eq, required, StockItems.stockOf_of_mem live]
  · rw [unique, nothing, reserveOf, reserve_zero (le_max_left _ _)]

/-! ## Shortages -/

theorem shortageOf_some {need : ItemNeed} {s : ReservationShortage} (h : shortageOf options need = some s) :
    s.itemId = need.item.id ∧ s.shortQty = need.required options - need.reservedQty options ∧
      need.reservedQty options < need.required options := by
  unfold shortageOf at h
  dsimp only at h
  split_ifs at h with short
  obtain rfl := Option.some.inj h
  exact ⟨rfl, rfl, short.2⟩

theorem shortageOf_isSome {need : ItemNeed} (short : need.reservedQty options < need.required options) :
    (shortageOf options need).isSome := by
  have positive : 0 < need.required options := (reservedQty_nonneg options need).trans_lt short
  unfold shortageOf
  dsimp only
  rw [if_pos ⟨positive, short⟩]
  rfl

/-- The figures of a need are those of its item. -/
theorem figures_of_need {need : ItemNeed} (member : need ∈ planNeeds js stock options m) (reservedAt : String) :
    need.required options = requiredOf js stock options m need.item.id ∧
      need.reservedQty options =
        plannedQty (planProjectReservation js m stock.items reservedAt options) need.item.id := by
  have sums := sum_reserved options reservedAt (planNeeds js stock options m) need.item.id
  change plannedQty (planProjectReservation js m stock.items reservedAt options) need.item.id = _ at sums
  rcases need_of_id js stock options m need.item.id with
    ⟨other, other_member, same, -, required, unique⟩ | ⟨-, nobody, -⟩
  · have ids : ((planNeeds js stock options m).map fun n => n.item.id).Nodup := nodup_planState _ _
    obtain rfl := List.inj_on_of_nodup_map ids other_member member same
    exact ⟨required, by rw [sums, unique]⟩
  · exact absurd rfl (nobody need member)

/-- With the planned quantities as the own reservation, a need keeps its figure. -/
theorem reservedQty_again {need : ItemNeed} {own : ℕ → ℚ}
    (same : own need.item.id = need.reservedQty options) :
    need.reservedQty { options with ownReserved := own } = need.reservedQty options := by
  have nonneg := reservedQty_nonneg options need
  rw [reservedQty_eq, reserveOf]
  dsimp only
  rw [same, max_eq_right nonneg]
  exact reserve_reserve

theorem plan_again (js : Script) (stock : StockItems) (options : ReservationOptions) (m : Materials)
    (reservedAt : String) :
    let plan := planProjectReservation js m stock.items reservedAt options
    planProjectReservation js m stock.items reservedAt { options with ownReserved := plannedQty plan } =
      plan := by
  intro plan
  have kept : ∀ need ∈ planNeeds js stock options m,
      need.reservedQty { options with ownReserved := plannedQty plan } = need.reservedQty options :=
    fun need member => reservedQty_again (figures_of_need member reservedAt).2.symm
  have reserved : (planNeeds js stock options m).filterMap
        (reservedOf { options with ownReserved := plannedQty plan } reservedAt) =
      (planNeeds js stock options m).filterMap (reservedOf options reservedAt) := by
    refine List.filterMap_congr fun need member => ?_
    unfold reservedOf
    rw [kept need member]
    rfl
  have shortages : (planNeeds js stock options m).filterMap
        (shortageOf { options with ownReserved := plannedQty plan }) =
      (planNeeds js stock options m).filterMap (shortageOf options) := by
    refine List.filterMap_congr fun need member => ?_
    unfold shortageOf
    rw [kept need member]
    rfl
  change ProjectReservationPlan.mk _ _ _ _ = ProjectReservationPlan.mk _ _ _ _
  exact congr (congr (congr (congrArg _ reserved) shortages) rfl) rfl

theorem mem_shortages_iff (js : Script) (stock : StockItems) (options : ReservationOptions) (m : Materials)
    (reservedAt : String) {s : ReservationShortage} :
    s ∈ (planProjectReservation js m stock.items reservedAt options).shortages ↔
      ∃ need ∈ planNeeds js stock options m, shortageOf options need = some s :=
  List.mem_filterMap

theorem requiredOf_perm (js : Script) (stock : StockItems) (options : ReservationOptions) {m m' : Materials}
    (same : (collectNeedRows js m).Perm (collectNeedRows js m')) (id : ℕ) :
    requiredOf js stock options m' id = requiredOf js stock options m id := by
  rw [requiredOf, requiredOf, neededQty_perm same id]

/-- The plan of a project: its bounds, its shortages, that it stays when it is made again
with what it reserved, and that the order of the rows does not count. -/
theorem plan_reserves (js : Script) (stock : StockItems) (options : ReservationOptions) (m : Materials)
    (reservedAt : String) :
    let plan := planProjectReservation js m stock.items reservedAt options
    (∀ id, plannedQty plan id ≤ requiredOf js stock options m id ∧
      min (max 0 (options.ownReserved id)) (requiredOf js stock options m id) ≤ plannedQty plan id) ∧
    (∀ i ∈ stock.items,
      max 0 (options.ownReserved i.id) + max 0 (options.reservedByOthers i.id) ≤ i.currentStock →
        plannedQty plan i.id + max 0 (options.reservedByOthers i.id) ≤ i.currentStock) ∧
    (∀ id, (∃ s ∈ plan.shortages, s.itemId = id) ↔
      plannedQty plan id < requiredOf js stock options m id) ∧
    (∀ s ∈ plan.shortages,
      s.shortQty = requiredOf js stock options m s.itemId - plannedQty plan s.itemId) ∧
    planProjectReservation js m stock.items reservedAt { options with ownReserved := plannedQty plan } =
      plan ∧
    ∀ m', (collectNeedRows js m).Perm (collectNeedRows js m') → ∀ id,
      requiredOf js stock options m' id = requiredOf js stock options m id ∧
        plannedQty (planProjectReservation js m' stock.items reservedAt options) id =
          plannedQty plan id := by
  intro plan
  refine ⟨fun id => ?_, fun i live within => ?_, fun id => ⟨?_, fun short => ?_⟩, fun s hs => ?_,
    plan_again js stock options m reservedAt, fun m' same id => ?_⟩
  · rw [plannedQty_eq]
    exact ⟨reserve_le, own_le_reserve⟩
  · rw [plannedQty_eq, StockItems.stockOf_of_mem live]
    exact reserve_add_le within
  · rintro ⟨s, hs, rfl⟩
    obtain ⟨need, member, listed⟩ := (mem_shortages_iff js stock options m reservedAt).mp hs
    obtain ⟨same, -, short⟩ := shortageOf_some listed
    obtain ⟨required, planned⟩ := figures_of_need member reservedAt
    rw [same, ← required, ← planned]
    exact short
  · rcases need_of_id js stock options m id with ⟨need, member, rfl, -, -, -⟩ | ⟨nothing, -, -⟩
    · obtain ⟨required, planned⟩ := figures_of_need member reservedAt
      rw [← required, ← planned] at short
      obtain ⟨s, listed⟩ := Option.isSome_iff_exists.mp (shortageOf_isSome short)
      exact ⟨s, (mem_shortages_iff js stock options m reservedAt).mpr ⟨need, member, listed⟩,
        (shortageOf_some listed).1⟩
    · have nonneg : 0 ≤ plannedQty plan id := by
        rw [plannedQty_eq]
        exact reserve_nonneg (le_max_left _ _) (requiredQty_nonneg _ _ _)
      rw [nothing] at short
      exact absurd short (not_lt.mpr nonneg)
  · obtain ⟨need, member, listed⟩ := (mem_shortages_iff js stock options m reservedAt).mp hs
    obtain ⟨same, missing, -⟩ := shortageOf_some listed
    obtain ⟨required, planned⟩ := figures_of_need member reservedAt
    rw [missing, same, ← required, ← planned]
  · have required := requiredOf_perm js stock options same id
    exact ⟨required, by rw [plannedQty_eq, plannedQty_eq, required]⟩

end

end PapitalErp.Reservation
