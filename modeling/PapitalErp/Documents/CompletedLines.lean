import PapitalErp.Documents.SalesReturn

/-!
# The completing lines of a return

`completeReturnLines` goes through the items of a return one after the other and
changes the last line of each item it completes. Read over the whole list this is
one pass: a line that is the last one of a completed item takes one unit at the
item's completing price, every other line stays.
-/

namespace PapitalErp

open Rounding Transition

/-- The last line of an item. -/
def lastLine (lines : List DocumentLine) (itemId : ItemId) : Option DocumentLine :=
  (lines.filter fun l => decide (l.itemId = itemId)).getLast?

/-- What the lines of an item come to. -/
def amountOf (lines : List DocumentLine) (itemId : ItemId) : ℚ :=
  ((lines.filter fun l => decide (l.itemId = itemId)).map fun l => l.quantity * l.unitPrice).sum

theorem lastLine_cons (x : DocumentLine) (rest : List DocumentLine) (itemId : ItemId) :
    lastLine (x :: rest) itemId =
      (lastLine rest itemId).or (if x.itemId = itemId then some x else none) := by
  unfold lastLine
  by_cases hx : x.itemId = itemId
  · rw [List.filter_cons_of_pos (by simpa using hx), List.getLast?_cons, if_pos hx]
    cases (rest.filter fun l => decide (l.itemId = itemId)).getLast? <;> rfl
  · rw [List.filter_cons_of_neg (by simpa using hx), if_neg hx, Option.or_none]

theorem lastLine_eq_none {lines : List DocumentLine} {itemId : ItemId} :
    lastLine lines itemId = none ↔ itemId ∉ lines.map DocumentLine.itemId := by
  rw [lastLine, List.getLast?_eq_none_iff, List.filter_eq_nil_iff]
  simp

/-! ## One pass over the lines -/

section Pass

variable (price : ItemId → Option ℚ) (net : ItemId → ℚ)

/-- A line that may be the last one of a completed item. -/
def completedLine (rest : List DocumentLine) (l : DocumentLine) : List DocumentLine :=
  match price l.itemId with
  | none => [l]
  | some completion =>
      if l.itemId ∈ rest.map DocumentLine.itemId then [l]
      else if l.quantity ≤ 1 then [{ l with unitPrice := completion }]
      else
        [{ l with quantity := l.quantity - 1, unitPrice := net l.itemId },
          { l with quantity := 1, unitPrice := completion }]

/-- All lines, completed. -/
def completeAll : List DocumentLine → List DocumentLine
  | [] => []
  | l :: rest => completedLine price net rest l ++ completeAll rest

variable {price net}

theorem completedLine_of_none {l : DocumentLine} (h : price l.itemId = none)
    (rest : List DocumentLine) : completedLine price net rest l = [l] := by
  simp [completedLine, h]

theorem completedLine_of_mem {l : DocumentLine} {rest : List DocumentLine}
    (h : l.itemId ∈ rest.map DocumentLine.itemId) : completedLine price net rest l = [l] := by
  unfold completedLine
  split
  · rfl
  · rw [if_pos h]

/-- The two shapes of a last line. -/
theorem completedLine_last {l : DocumentLine} {rest : List DocumentLine} {completion : ℚ}
    (h : price l.itemId = some completion) (last : l.itemId ∉ rest.map DocumentLine.itemId) :
    completedLine price net rest l =
      if l.quantity ≤ 1 then [{ l with unitPrice := completion }]
      else
        [{ l with quantity := l.quantity - 1, unitPrice := net l.itemId },
          { l with quantity := 1, unitPrice := completion }] := by
  simp only [completedLine, h, if_neg last]

theorem itemId_of_mem_completedLine {l x : DocumentLine} {rest : List DocumentLine}
    (h : x ∈ completedLine price net rest l) : x.itemId = l.itemId := by
  unfold completedLine at h
  split at h
  · rw [List.mem_singleton.mp h]
  · split at h
    · rw [List.mem_singleton.mp h]
    · split at h
      · rw [List.mem_singleton.mp h]
      · simp only [List.mem_cons, List.not_mem_nil, or_false] at h
        rcases h with rfl | rfl <;> rfl

theorem completedLine_ne_nil (rest : List DocumentLine) (l : DocumentLine) :
    completedLine price net rest l ≠ [] := by
  unfold completedLine
  split
  · exact List.cons_ne_nil _ _
  · split
    · exact List.cons_ne_nil _ _
    · split <;> exact List.cons_ne_nil _ _

/-- The items of the lines stay the same. -/
theorem mem_itemIds_completeAll {lines : List DocumentLine} {itemId : ItemId} :
    itemId ∈ (completeAll price net lines).map DocumentLine.itemId ↔
      itemId ∈ lines.map DocumentLine.itemId := by
  induction lines with
  | nil => rfl
  | cons l rest ih =>
      have head : itemId ∈ (completedLine price net rest l).map DocumentLine.itemId ↔
          itemId = l.itemId := by
        constructor
        · intro h
          obtain ⟨x, hx, rfl⟩ := List.mem_map.mp h
          exact itemId_of_mem_completedLine hx
        · rintro rfl
          have some_line : completedLine price net rest l ≠ [] := completedLine_ne_nil rest l
          obtain ⟨x, hx⟩ := List.exists_mem_of_ne_nil _ some_line
          exact List.mem_map.mpr ⟨x, hx, itemId_of_mem_completedLine hx⟩
      rw [completeAll, List.map_append, List.mem_append, head, ih, List.map_cons, List.mem_cons]

/-- Where a line of the result comes from and what it costs. -/
theorem of_mem_completeAll {lines : List DocumentLine} {x : DocumentLine}
    (h : x ∈ completeAll price net lines) : ∃ l ∈ lines, x.itemId = l.itemId ∧
      x.discount = l.discount ∧ (x.unitPrice = l.unitPrice ∨ x.unitPrice = net l.itemId ∨
        price l.itemId = some x.unitPrice) := by
  induction lines with
  | nil => simp [completeAll] at h
  | cons l rest ih =>
      rcases List.mem_append.mp h with h | h
      · refine ⟨l, List.mem_cons_self, itemId_of_mem_completedLine h, ?_⟩
        unfold completedLine at h
        split at h
        · rw [List.mem_singleton.mp h]
          exact ⟨rfl, .inl rfl⟩
        · rename_i completion hprice
          split at h
          · rw [List.mem_singleton.mp h]
            exact ⟨rfl, .inl rfl⟩
          · split at h
            · rw [List.mem_singleton.mp h]
              exact ⟨rfl, .inr (.inr hprice)⟩
            · simp only [List.mem_cons, List.not_mem_nil, or_false] at h
              rcases h with rfl | rfl
              · exact ⟨rfl, .inr (.inl rfl)⟩
              · exact ⟨rfl, .inr (.inr hprice)⟩
      · obtain ⟨m, hm, rest⟩ := ih h
        exact ⟨m, List.mem_cons_of_mem _ hm, rest⟩

/-- Lines of items that are not completed stay as they are. -/
theorem filter_completedLine {keep : ItemId → Bool} (l : DocumentLine) (rest : List DocumentLine)
    (kept : keep l.itemId = true → price l.itemId = none) :
    (completedLine price net rest l).filter (fun x => keep x.itemId) =
      [l].filter fun x => keep x.itemId := by
  by_cases hl : keep l.itemId = true
  · rw [completedLine_of_none (kept hl)]
  · have out : ∀ x ∈ completedLine price net rest l, ¬keep x.itemId = true := fun x hx => by
      rwa [itemId_of_mem_completedLine hx]
    rw [List.filter_eq_nil_iff.mpr out]
    simp [hl]

theorem filter_completeAll {keep : ItemId → Bool} {lines : List DocumentLine}
    (kept : ∀ itemId, keep itemId = true → price itemId = none) :
    (completeAll price net lines).filter (fun x => keep x.itemId) =
      lines.filter fun x => keep x.itemId := by
  induction lines with
  | nil => rfl
  | cons l rest ih =>
      rw [completeAll, List.filter_append, filter_completedLine l rest (kept l.itemId), ih,
        ← List.filter_append, List.singleton_append]

theorem completeAll_none (lines : List DocumentLine) :
    completeAll (fun _ => none) net lines = lines := by
  induction lines with
  | nil => rfl
  | cons l rest ih => rw [completeAll, completedLine_of_none rfl, ih, List.singleton_append]

/-- Only the prices of the listed items matter. -/
theorem completeAll_congr {price' : ItemId → Option ℚ} {lines : List DocumentLine}
    (same : ∀ l ∈ lines, price l.itemId = price' l.itemId) :
    completeAll price net lines = completeAll price' net lines := by
  induction lines with
  | nil => rfl
  | cons l rest ih =>
      have head : completedLine price net rest l = completedLine price' net rest l := by
        simp only [completedLine, same l List.mem_cons_self]
      rw [completeAll, completeAll, head, ih fun x hx => same x (List.mem_cons_of_mem _ hx)]

/-! ## What the pass does to one item -/

/-- Splitting a line moves no goods. -/
theorem quantityOf_completedLine (l : DocumentLine) (rest : List DocumentLine)
    (itemId : ItemId) : quantityOf (completedLine price net rest l) itemId =
      quantityOf [l] itemId := by
  unfold completedLine
  split
  · rfl
  · split
    · rfl
    · split
      · by_cases hl : l.itemId = itemId <;> simp [quantityOf, hl]
      · by_cases hl : l.itemId = itemId <;> simp [quantityOf, hl]

theorem amountOf_append (a b : List DocumentLine) (itemId : ItemId) :
    amountOf (a ++ b) itemId = amountOf a itemId + amountOf b itemId := by
  simp [amountOf]

theorem quantityOf_completeAll (lines : List DocumentLine) (itemId : ItemId) :
    quantityOf (completeAll price net lines) itemId = quantityOf lines itemId := by
  induction lines with
  | nil => rfl
  | cons l rest ih =>
      rw [completeAll, quantityOf_append, quantityOf_completedLine, ih, ← quantityOf_append,
        List.singleton_append]

/-- The last line of each item that is completed holds at least one unit. -/
def LastHoldsOne (price : ItemId → Option ℚ) (lines : List DocumentLine) : Prop :=
  ∀ itemId, (price itemId).isSome → ∀ last ∈ lastLine lines itemId, 1 ≤ last.quantity

theorem LastHoldsOne.tail {l : DocumentLine} {rest : List DocumentLine}
    (h : LastHoldsOne price (l :: rest)) : LastHoldsOne price rest := by
  intro itemId hprice last hlast
  refine h itemId hprice last ?_
  rw [lastLine_cons, Option.mem_def.mp hlast]
  rfl

theorem LastHoldsOne.head {l : DocumentLine} {rest : List DocumentLine}
    (h : LastHoldsOne price (l :: rest)) (hprice : (price l.itemId).isSome)
    (last : l.itemId ∉ rest.map DocumentLine.itemId) : 1 ≤ l.quantity := by
  refine h l.itemId hprice l ?_
  rw [lastLine_cons, lastLine_eq_none.mpr last, if_pos rfl]
  rfl

/-- A completed item whose lines are at the net price comes to one residual more. -/
theorem amountOf_completeAll {lines : List DocumentLine} {itemId : ItemId} {completion : ℚ}
    (hprice : price itemId = some completion) (holds : LastHoldsOne price lines)
    (atNet : ∀ l ∈ lines, l.itemId = itemId → l.unitPrice = net itemId) :
    amountOf (completeAll price net lines) itemId =
      amountOf lines itemId +
        if itemId ∈ lines.map DocumentLine.itemId then completion - net itemId else 0 := by
  induction lines with
  | nil => simp [completeAll, amountOf]
  | cons l rest ih =>
      have tail := ih holds.tail fun x hx => atNet x (List.mem_cons_of_mem _ hx)
      have whole : amountOf (l :: rest) itemId = amountOf [l] itemId + amountOf rest itemId := by
        rw [← amountOf_append, List.singleton_append]
      rw [completeAll, amountOf_append, tail, whole, List.map_cons]
      by_cases hl : l.itemId = itemId
      · have hnet := atNet l List.mem_cons_self hl
        have here : itemId ∈ l.itemId :: rest.map DocumentLine.itemId := by simp [hl]
        rw [if_pos here]
        by_cases hrest : itemId ∈ rest.map DocumentLine.itemId
        · rw [completedLine_of_mem (hl ▸ hrest), if_pos hrest]
          ring
        · subst hl
          have one := holds.head (by simp [hprice]) hrest
          rw [completedLine_last hprice hrest, if_neg hrest]
          split
          · have exact_one : l.quantity = 1 := le_antisymm ‹_› one
            simp only [amountOf, List.filter_cons, List.filter_nil, decide_true, if_true,
              List.map_cons, List.map_nil, List.sum_cons, List.sum_nil, exact_one, hnet]
            ring
          · simp only [amountOf, List.filter_cons, List.filter_nil, decide_true, if_true,
              List.map_cons, List.map_nil, List.sum_cons, List.sum_nil, hnet]
            ring
      · have other : amountOf (completedLine price net rest l) itemId = amountOf [l] itemId := by
          have away : ∀ x ∈ completedLine price net rest l, ¬decide (x.itemId = itemId) = true := by
            intro x hx
            rw [itemId_of_mem_completedLine hx]
            simpa using hl
          simp only [amountOf, List.filter_eq_nil_iff.mpr away, List.filter_cons, List.filter_nil,
            decide_eq_true_eq, hl, if_false]
        have membership : itemId ∈ l.itemId :: rest.map DocumentLine.itemId ↔
            itemId ∈ rest.map DocumentLine.itemId := by
          rw [List.mem_cons]
          exact or_iff_right (Ne.symm hl)
        rw [other]
        simp only [membership]
        ring

/-- Putting the invoice's net price back on every line and completing again. -/
def atNetPrice (net : ItemId → ℚ) (l : DocumentLine) : DocumentLine :=
  { l with unitPrice := net l.itemId }

theorem completeAll_last {l : DocumentLine} {rest : List DocumentLine} {completion : ℚ}
    (h : price l.itemId = some completion) (last : l.itemId ∉ rest.map DocumentLine.itemId)
    (one : l.quantity ≤ 1) : completeAll price net (l :: rest) =
      { l with unitPrice := completion } :: completeAll price net rest := by
  rw [completeAll, completedLine_last h last, if_pos one, List.singleton_append]

theorem completeAll_atNetPrice {lines : List DocumentLine} (holds : LastHoldsOne price lines)
    (atNet : ∀ l ∈ lines, l.unitPrice = net l.itemId) :
    completeAll price net ((completeAll price net lines).map (atNetPrice net)) =
      completeAll price net lines := by
  induction lines with
  | nil => rfl
  | cons l rest ih =>
      have tail := ih holds.tail fun x hx => atNet x (List.mem_cons_of_mem _ hx)
      have ids : ∀ itemId, itemId ∈
          ((completeAll price net rest).map (atNetPrice net)).map DocumentLine.itemId ↔
            itemId ∈ rest.map DocumentLine.itemId := by
        intro itemId
        rw [List.map_map]
        exact mem_itemIds_completeAll
      have same : atNetPrice net l = l := by
        rw [atNetPrice, ← atNet l List.mem_cons_self]
      rw [completeAll, List.map_append]
      cases hprice : price l.itemId with
      | none =>
          rw [completedLine_of_none hprice, List.map_singleton, same, List.singleton_append,
            completeAll, completedLine_of_none hprice, tail]
      | some completion =>
          by_cases hrest : l.itemId ∈ rest.map DocumentLine.itemId
          · rw [completedLine_of_mem hrest, List.map_singleton, same, List.singleton_append,
              completeAll, completedLine_of_mem ((ids _).mpr hrest), tail]
          · have hlater := mt (ids l.itemId).mp hrest
            have again : ∀ quantity unitPrice : ℚ, quantity ≤ 1 →
                completeAll price net
                    (atNetPrice net ⟨l.itemId, quantity, unitPrice, l.discount⟩ ::
                      (completeAll price net rest).map (atNetPrice net)) =
                  ⟨l.itemId, quantity, completion, l.discount⟩ :: completeAll price net rest := by
              intro quantity unitPrice one
              have last : completeAll price net
                    (atNetPrice net ⟨l.itemId, quantity, unitPrice, l.discount⟩ ::
                      (completeAll price net rest).map (atNetPrice net)) =
                  ⟨l.itemId, quantity, completion, l.discount⟩ ::
                    completeAll price net ((completeAll price net rest).map (atNetPrice net)) :=
                completeAll_last hprice hlater one
              rw [last, tail]
            rw [completedLine_last hprice hrest]
            split
            · rw [List.map_singleton, List.singleton_append, again _ _ ‹_›,
                List.singleton_append]
            · -- the unit that was split off is the last line now, and holds exactly one
              rw [List.map_cons, List.map_singleton, List.cons_append, List.singleton_append,
                completeAll, completedLine_of_mem (by simp [atNetPrice]), again _ _ le_rfl]
              rfl

end Pass

end PapitalErp
