import PapitalErp.Documents.CompletedLines

/-!
# A return of the rest gives back the rest

The loop of `completeReturnLines` over the items is one pass over the lines. From
this: a return that completes an item, together with the earlier returns, gives
back the invoiced net of the item to four decimals; it moves the same goods and
leaves every other line alone; and the terms of the invoice, enforced on lines
they have been enforced on, change nothing.
-/

namespace PapitalErp

open Rounding Transition

/-! ## The loop over the items is one pass -/

section Loop

variable (terms : ItemId → Option ReturnItemTerms) (earlier lines : List DocumentLine)

/-- The unit price the terms give an item. -/
def netPriceOf (itemId : ItemId) : ℚ := ((terms itemId).map ReturnItemTerms.netUnitPrice).getD 0

/-- The completing price of an item that the lines complete. -/
def completionOf (itemId : ItemId) : Option ℚ :=
  match terms itemId with
  | none => none
  | some itemTerms =>
      if quantityOf lines itemId ≤ 0 then none
      else
        match completionPrice itemTerms (earlier.filter fun e => decide (e.itemId = itemId))
            (quantityOf lines itemId) with
        | none => none
        | some completion =>
            if (lastLine lines itemId).all fun last => decide (1 ≤ last.quantity) then
              some completion
            else none

variable {terms earlier lines}

theorem completeLast_append {itemId : ItemId} {net completion : ℚ} {a : List DocumentLine}
    (away : ∀ x ∈ a, x.itemId ≠ itemId) (b : List DocumentLine) :
    completeLast itemId net completion (a ++ b) =
      (completeLast itemId net completion b).map (a ++ ·) := by
  induction a with
  | nil => simp
  | cons x a ih =>
      rw [List.cons_append, completeLast, if_neg (away x List.mem_cons_self),
        ih fun y hy => away y (List.mem_cons_of_mem _ hy), Option.map_map]
      rfl

theorem completeLast_append_of_mem {itemId : ItemId} {net completion : ℚ} {a : List DocumentLine}
    (here : ∃ x ∈ a, x.itemId = itemId) (b : List DocumentLine) :
    completeLast itemId net completion (a ++ b) =
      (completeLast itemId net completion a).map (· ++ b) := by
  induction a with
  | nil => simp at here
  | cons x a ih =>
      rw [List.cons_append, completeLast, completeLast]
      by_cases hx : x.itemId = itemId
      · rw [if_pos hx, if_pos hx]
        split
        · rfl
        · split <;> rfl
      · obtain ⟨y, hy, hitem⟩ := here
        have later : ∃ y ∈ a, y.itemId = itemId := by
          rcases List.mem_cons.mp hy with rfl | hy
          · exact absurd hitem hx
          · exact ⟨y, hy, hitem⟩
        rw [if_neg hx, if_neg hx, ih later, Option.map_map, Option.map_map]
        rfl

/-- Completing one more item of lines that are completed for others. -/
theorem completeLast_completeAll {price : ItemId → Option ℚ} {net : ItemId → ℚ}
    {itemId : ItemId} (completion : ℚ) (fresh : price itemId = none)
    {lines : List DocumentLine} {last : DocumentLine} (hlast : lastLine lines itemId = some last) :
    completeLast itemId (net itemId) completion (completeAll price net lines).reverse =
      if last.quantity < 1 then none
      else some (completeAll (Function.update price itemId (some completion)) net lines).reverse := by
  induction lines with
  | nil => simp [lastLine] at hlast
  | cons l rest ih =>
      rw [lastLine_cons] at hlast
      rw [completeAll, completeAll, List.reverse_append, List.reverse_append]
      by_cases hrest : itemId ∈ rest.map DocumentLine.itemId
      · -- the item's last line is further down
        obtain ⟨below, hbelow⟩ : ∃ below, lastLine rest itemId = some below :=
          Option.ne_none_iff_exists'.mp fun hnone => lastLine_eq_none.mp hnone hrest
        rw [hbelow, Option.some_or, Option.some.injEq] at hlast
        have here : ∃ x ∈ (completeAll price net rest).reverse, x.itemId = itemId := by
          obtain ⟨x, hx, hitem⟩ := List.mem_map.mp (mem_itemIds_completeAll.mpr hrest)
          exact ⟨x, List.mem_reverse.mpr hx, hitem⟩
        have head : completedLine (Function.update price itemId (some completion)) net rest l =
            completedLine price net rest l := by
          by_cases hl : l.itemId = itemId
          · rw [completedLine_of_mem (hl ▸ hrest), completedLine_of_mem (hl ▸ hrest)]
          · simp only [completedLine, ne_eq, hl, not_false_eq_true, Function.update_of_ne]
        rw [completeLast_append_of_mem here, ih (hlast ▸ hbelow), head]
        split <;> rfl
      · rw [lastLine_eq_none.mpr hrest, Option.none_or] at hlast
        have hl : l.itemId = itemId := by
          by_contra hne
          simp [hne] at hlast
        rw [if_pos hl, Option.some.injEq] at hlast
        subst hlast
        subst hl
        have away : ∀ x ∈ (completeAll price net rest).reverse, x.itemId ≠ l.itemId := by
          intro x hx hitem
          exact hrest (mem_itemIds_completeAll.mp
            (List.mem_map.mpr ⟨x, List.mem_reverse.mp hx, hitem⟩))
        have below : completeAll (Function.update price l.itemId (some completion)) net rest =
            completeAll price net rest := by
          refine completeAll_congr fun x hx => Function.update_of_ne ?_ _ _
          exact fun hitem => hrest (List.mem_map.mpr ⟨x, hx, hitem⟩)
        rw [completeLast_append away, below, completedLine_of_none fresh,
          completedLine_last (Function.update_self _ _ _) hrest, List.reverse_singleton, completeLast,
          if_pos rfl]
        by_cases hlt : l.quantity < 1
        · rw [if_pos hlt, if_pos hlt]
          rfl
        · rw [if_neg hlt, if_neg hlt]
          split <;> simp

/-- One turn of the loop over the items. -/
theorem completeItem_eq (terms : ItemId → Option ReturnItemTerms) (earlier : List DocumentLine)
    {price : ItemId → Option ℚ} {out : CompletedLines} {itemId : ItemId}
    (fresh : price itemId = none) (listed : itemId ∈ lines.map DocumentLine.itemId)
    (hout : out.lines = completeAll price (netPriceOf terms) lines) :
    completeItem terms earlier lines out itemId =
      match completionOf terms earlier lines itemId with
      | none => out
      | some completion =>
          ⟨completeAll (Function.update price itemId (some completion)) (netPriceOf terms) lines,
            out.completionPrices ++ [(itemId, completion)]⟩ := by
  obtain ⟨last, hlast⟩ : ∃ last, lastLine lines itemId = some last :=
    Option.ne_none_iff_exists'.mp fun hnone => lastLine_eq_none.mp hnone listed
  unfold completeItem completionOf
  cases hterms : terms itemId with
  | none => rfl
  | some itemTerms =>
      have hnet : itemTerms.netUnitPrice = netPriceOf terms itemId := by
        rw [netPriceOf, hterms]
        rfl
      have sent : ((lines.filter fun l => decide (l.itemId = itemId)).map
          DocumentLine.quantity).sum = quantityOf lines itemId := rfl
      dsimp only
      rw [sent]
      split
      · rfl
      · cases completionPrice itemTerms (earlier.filter fun e => decide (e.itemId = itemId))
            (quantityOf lines itemId) with
        | none => rfl
        | some completion =>
            dsimp only
            rw [hout, hnet, completeLast_completeAll completion fresh hlast, hlast, Option.all_some]
            by_cases hlt : last.quantity < 1
            · rw [if_pos hlt, if_neg (by simpa using hlt)]
            · rw [if_neg hlt, if_pos (by simpa using hlt)]
              simp

/-- The completing prices of the items handled so far. -/
def handledPrices (terms : ItemId → Option ReturnItemTerms) (earlier lines : List DocumentLine)
    (handled : List ItemId) (itemId : ItemId) : Option ℚ :=
  if itemId ∈ handled then completionOf terms earlier lines itemId else none

theorem foldl_completeItem (terms : ItemId → Option ReturnItemTerms)
    (earlier : List DocumentLine) {items : List ItemId} (nodup : items.Nodup)
    (listed : ∀ itemId ∈ items, itemId ∈ lines.map DocumentLine.itemId) :
    let out := items.foldl (completeItem terms earlier lines) ⟨lines, []⟩
    out.lines = completeAll (handledPrices terms earlier lines items) (netPriceOf terms) lines ∧
      ∀ itemId, out.completionPrices.lookup itemId =
        handledPrices terms earlier lines items itemId := by
  induction items using List.reverseRecOn with
  | nil =>
      have nothing : handledPrices terms earlier lines [] = fun _ => none := by
        funext itemId
        simp [handledPrices]
      rw [nothing]
      exact ⟨(completeAll_none lines).symm, fun _ => rfl⟩
  | append_singleton items itemId ih =>
      have apart : itemId ∉ items := fun h =>
        (List.nodup_append.mp nodup).2.2 itemId h itemId (List.mem_singleton_self _) rfl
      obtain ⟨hlines, hprices⟩ := ih (List.nodup_append.mp nodup).1
        fun i hi => listed i (List.mem_append_left _ hi)
      have fresh : handledPrices terms earlier lines items itemId = none := if_neg apart
      have next : handledPrices terms earlier lines (items ++ [itemId]) =
          Function.update (handledPrices terms earlier lines items) itemId
            (completionOf terms earlier lines itemId) := by
        funext i
        by_cases hi : i = itemId
        · subst hi
          simp [handledPrices]
        · simp [handledPrices, hi]
      have turn := completeItem_eq terms earlier fresh
        (listed itemId (List.mem_append_right _ (List.mem_singleton_self _))) hlines
      simp only [List.foldl_concat]
      rw [turn, next]
      cases hcompletion : completionOf terms earlier lines itemId with
      | none =>
          have same : Function.update (handledPrices terms earlier lines items) itemId none =
              handledPrices terms earlier lines items := by
            rw [← fresh, Function.update_eq_self]
          rw [same]
          exact ⟨hlines, hprices⟩
      | some completion =>
          refine ⟨rfl, fun i => ?_⟩
          dsimp only
          rw [List.lookup_append, hprices]
          by_cases hi : i = itemId
          · subst hi
            simp [fresh]
          · have other : (i == itemId) = false := by simpa using hi
            simp [List.lookup, other, hi]

theorem nodup_eraseDups {α : Type*} [DecidableEq α] (l : List α) : l.eraseDups.Nodup := by
  induction hn : l.length using Nat.strong_induction_on generalizing l with
  | _ n ih =>
      cases l with
      | nil => simp
      | cons a rest =>
          rw [List.eraseDups_cons, List.nodup_cons]
          refine ⟨fun h => ?_, ih _ ?_ _ rfl⟩
          · simp at h
          · subst hn
            exact Nat.lt_succ_of_le (List.length_filter_le _ _)

/-- The whole of `completeReturnLines`. -/
theorem completeReturnLines_eq (terms : ItemId → Option ReturnItemTerms)
    (earlier lines : List DocumentLine) :
    (completeReturnLines lines terms earlier).lines =
        completeAll (completionOf terms earlier lines) (netPriceOf terms) lines ∧
      ∀ itemId ∈ lines.map DocumentLine.itemId,
        (completeReturnLines lines terms earlier).completionPrices.lookup itemId =
          completionOf terms earlier lines itemId := by
  have listed : ∀ itemId, itemId ∈ (lines.map DocumentLine.itemId).eraseDups ↔
      itemId ∈ lines.map DocumentLine.itemId := fun itemId => List.mem_eraseDups
  obtain ⟨hlines, hprices⟩ := foldl_completeItem terms earlier
    (nodup_eraseDups (lines.map DocumentLine.itemId)) fun itemId hi => (listed itemId).mp hi
  refine ⟨hlines.trans (completeAll_congr fun l hl => ?_), fun itemId hi => ?_⟩
  · exact if_pos ((listed _).mpr (List.mem_map_of_mem hl))
  · exact (hprices itemId).trans (if_pos ((listed _).mpr hi))

end Loop

/-! ## What the completing price depends on -/

section Completion

variable {terms : ItemId → Option ReturnItemTerms} {earlier lines lines' : List DocumentLine}

theorem completionOf_some {itemId : ItemId} {completion : ℚ}
    (h : completionOf terms earlier lines itemId = some completion) :
    ∃ itemTerms, terms itemId = some itemTerms ∧ 0 < quantityOf lines itemId ∧
      completionPrice itemTerms (earlier.filter fun e => decide (e.itemId = itemId))
        (quantityOf lines itemId) = some completion ∧
      ∀ last ∈ lastLine lines itemId, 1 ≤ last.quantity := by
  unfold completionOf at h
  split at h
  · cases h
  rename_i itemTerms hterms
  split at h
  · cases h
  rename_i hqty
  split at h
  · cases h
  rename_i price hprice
  split at h
  · rename_i hlast
    cases h
    refine ⟨itemTerms, hterms, not_le.mp hqty, hprice, fun last hl => ?_⟩
    simpa [Option.mem_def.mp hl] using hlast
  · cases h

theorem lastHoldsOne (terms : ItemId → Option ReturnItemTerms) (earlier lines : List DocumentLine) :
    LastHoldsOne (completionOf terms earlier lines) lines := by
  intro itemId hprice last hlast
  obtain ⟨completion, hcompletion⟩ := Option.isSome_iff_exists.mp hprice
  obtain ⟨-, -, -, -, one⟩ := completionOf_some hcompletion
  exact one last hlast

/-- The completing price depends on the item's quantity and on whether its last
line holds one unit. -/
theorem completionOf_congr {itemId : ItemId}
    (quantity : quantityOf lines itemId = quantityOf lines' itemId)
    (last : ((lastLine lines itemId).all fun l => decide (1 ≤ l.quantity)) =
      (lastLine lines' itemId).all fun l => decide (1 ≤ l.quantity)) :
    completionOf terms earlier lines itemId = completionOf terms earlier lines' itemId := by
  unfold completionOf
  rw [quantity, last]

theorem lastLine_append (a b : List DocumentLine) (itemId : ItemId) :
    lastLine (a ++ b) itemId = (lastLine b itemId).or (lastLine a itemId) := by
  rw [lastLine, List.filter_append, List.getLast?_append]
  rfl

/-- A completed last line holds one unit after the pass as well. -/
theorem lastLine_completeAll {price : ItemId → Option ℚ} {net : ItemId → ℚ}
    (holds : LastHoldsOne price lines) (itemId : ItemId) :
    ((lastLine (completeAll price net lines) itemId).all fun l => decide (1 ≤ l.quantity)) =
      (lastLine lines itemId).all fun l => decide (1 ≤ l.quantity) := by
  cases hprice : price itemId with
  | none =>
      have kept : ∀ i, decide (i = itemId) = true → price i = none := by
        intro i hi
        rw [of_decide_eq_true hi, hprice]
      have same : (completeAll price net lines).filter (fun l => decide (l.itemId = itemId)) =
          lines.filter fun l => decide (l.itemId = itemId) := filter_completeAll kept
      rw [lastLine, same]
      rfl
  | some completion =>
      induction lines with
      | nil => rfl
      | cons l rest ih =>
          rw [completeAll, lastLine_append, lastLine_cons]
          by_cases hrest : itemId ∈ rest.map DocumentLine.itemId
          · have found : ∀ {ls : List DocumentLine}, itemId ∈ ls.map DocumentLine.itemId →
                ∃ x, lastLine ls itemId = some x := fun h =>
              Option.ne_none_iff_exists'.mp fun hnone => lastLine_eq_none.mp hnone h
            obtain ⟨x, hx⟩ := found hrest
            have hafter : itemId ∈ (completeAll price net rest).map DocumentLine.itemId :=
              mem_itemIds_completeAll.mpr hrest
            obtain ⟨y, hy⟩ := found hafter
            have tail := ih holds.tail
            rw [hx, hy] at tail ⊢
            exact tail
          · have gone : lastLine (completeAll price net rest) itemId = none :=
              lastLine_eq_none.mpr (mt mem_itemIds_completeAll.mp hrest)
            rw [gone, lastLine_eq_none.mpr hrest, Option.none_or, Option.none_or]
            by_cases hl : l.itemId = itemId
            · subst hl
              have one := holds.head (by simp [hprice]) hrest
              rw [completedLine_last hprice hrest, if_pos rfl]
              split <;> simp [lastLine, one]
            · have away : lastLine (completedLine price net rest l) itemId = none := by
                refine lastLine_eq_none.mpr fun h => ?_
                obtain ⟨x, hx, hitem⟩ := List.mem_map.mp h
                exact hl ((itemId_of_mem_completedLine hx).symm.trans hitem)
              rw [away, if_neg hl]

end Completion

/-! ## A return of the rest -/

/-- What earlier returns gave back for an item. -/
def earlierNetOf (earlier : List DocumentLine) (itemId : ItemId) : ℚ :=
  ((earlier.filter fun e => decide (e.itemId = itemId)).map fun e =>
    e.quantity * e.unitPrice - e.discount).sum

/-- What the net price of the returned quantity leaves of the item's net. -/
def residualOf (itemTerms : ReturnItemTerms) (earlier lines : List DocumentLine)
    (itemId : ItemId) : ℚ :=
  itemTerms.net - earlierNetOf earlier itemId - quantityOf lines itemId * itemTerms.netUnitPrice

/-- The lines complete the invoiced quantity of an item, its last line holds at
least one unit, and the adjusted price is not negative. -/
structure CompletesItem (terms : ItemId → Option ReturnItemTerms)
    (earlier lines : List DocumentLine) (itemId : ItemId) (itemTerms : ReturnItemTerms) :
    Prop where
  invoiced : terms itemId = some itemTerms
  returned : 0 < quantityOf lines itemId
  completes : quantityOf earlier itemId + quantityOf lines itemId = itemTerms.quantity
  last : ∀ last ∈ lastLine lines itemId, 1 ≤ last.quantity
  price : 0 ≤ itemTerms.netUnitPrice +
    FinancialDecimal.round (residualOf itemTerms earlier lines itemId) 4

/-- Earlier returns and the lines given out for these together give back the
item's net: to four decimals, and exactly when the residual has four decimals. -/
structure GivesBackNet (earlier lines out : List DocumentLine) (itemId : ItemId)
    (itemTerms : ReturnItemTerms) : Prop where
  toFourDecimals :
    |earlierNetOf earlier itemId + amountOf out itemId - itemTerms.net| ≤ 1 / 20000
  exactly : AtScale 4 (residualOf itemTerms earlier lines itemId) →
    earlierNetOf earlier itemId + amountOf out itemId = itemTerms.net

section Rest

variable {terms : ItemId → Option ReturnItemTerms} {earlier lines : List DocumentLine}
  {itemId : ItemId} {itemTerms : ReturnItemTerms}

theorem completionPrice_eq (itemTerms : ReturnItemTerms) (earlier lines : List DocumentLine)
    (itemId : ItemId) :
    completionPrice itemTerms (earlier.filter fun e => decide (e.itemId = itemId))
        (quantityOf lines itemId) =
      if quantityOf earlier itemId + quantityOf lines itemId ≠ itemTerms.quantity then none
      else if FinancialDecimal.round (residualOf itemTerms earlier lines itemId) 4 = 0 then none
      else if itemTerms.netUnitPrice +
          FinancialDecimal.round (residualOf itemTerms earlier lines itemId) 4 < 0 then none
      else some (itemTerms.netUnitPrice +
        FinancialDecimal.round (residualOf itemTerms earlier lines itemId) 4) := rfl

theorem CompletesItem.completionOf_eq (h : CompletesItem terms earlier lines itemId itemTerms) :
    completionOf terms earlier lines itemId =
      if FinancialDecimal.round (residualOf itemTerms earlier lines itemId) 4 = 0 then none
      else some (itemTerms.netUnitPrice +
        FinancialDecimal.round (residualOf itemTerms earlier lines itemId) 4) := by
  have one : ((lastLine lines itemId).all fun l => decide (1 ≤ l.quantity)) = true := by
    cases hlast : lastLine lines itemId with
    | none => rfl
    | some last => simpa using h.last last hlast
  have found := completionPrice_eq itemTerms earlier lines itemId
  rw [if_neg (not_not.mpr h.completes), if_neg (not_lt.mpr h.price)] at found
  unfold completionOf
  rw [h.invoiced]
  dsimp only
  rw [if_neg (not_le.mpr h.returned), found]
  by_cases hzero : FinancialDecimal.round (residualOf itemTerms earlier lines itemId) 4 = 0
  · rw [if_pos hzero]
  · rw [if_neg hzero]
    dsimp only
    rw [one, if_pos rfl]

/-- Lines at one price come to their quantity at that price. -/
theorem amountOf_of_price {price : ℚ}
    (atPrice : ∀ l ∈ lines, l.itemId = itemId → l.unitPrice = price) :
    amountOf lines itemId = quantityOf lines itemId * price := by
  unfold amountOf quantityOf
  rw [← List.sum_map_mul_right]
  refine congrArg List.sum (List.map_congr_left fun l hl => ?_)
  obtain ⟨hl, hitem⟩ := List.mem_filter.mp hl
  rw [atPrice l hl (by simpa using hitem)]

theorem CompletesItem.givesBackNet (h : CompletesItem terms earlier lines itemId itemTerms)
    (atNet : ∀ l ∈ lines, l.itemId = itemId → l.unitPrice = itemTerms.netUnitPrice) :
    GivesBackNet earlier lines (completeReturnLines lines terms earlier).lines itemId
      itemTerms := by
  have hnet : netPriceOf terms itemId = itemTerms.netUnitPrice := by
    rw [netPriceOf, h.invoiced]
    rfl
  have listed : itemId ∈ lines.map DocumentLine.itemId := by
    by_contra hnot
    have none_listed := lastLine_eq_none.mpr hnot
    rw [lastLine, List.getLast?_eq_none_iff] at none_listed
    have := h.returned
    simp [quantityOf, none_listed] at this
  have rounded : |FinancialDecimal.round (residualOf itemTerms earlier lines itemId) 4 -
      residualOf itemTerms earlier lines itemId| ≤ 1 / 20000 := by
    have bound := abs_roundHalfUp_sub_le 4 (residualOf itemTerms earlier lines itemId)
    norm_num [halfUnit] at bound
    exact bound
  have total : earlierNetOf earlier itemId +
        amountOf (completeReturnLines lines terms earlier).lines itemId - itemTerms.net =
      FinancialDecimal.round (residualOf itemTerms earlier lines itemId) 4 -
        residualOf itemTerms earlier lines itemId := by
    rw [(completeReturnLines_eq terms earlier lines).1]
    have sold := amountOf_of_price atNet
    by_cases hzero : FinancialDecimal.round (residualOf itemTerms earlier lines itemId) 4 = 0
    · have nothing : completionOf terms earlier lines itemId = none := by
        rw [h.completionOf_eq, if_pos hzero]
      have kept : ∀ i, decide (i = itemId) = true → completionOf terms earlier lines i = none := by
        intro i hi
        rw [of_decide_eq_true hi, nothing]
      have same : amountOf (completeAll (completionOf terms earlier lines) (netPriceOf terms) lines)
          itemId = amountOf lines itemId := by
        unfold amountOf
        rw [filter_completeAll kept]
      rw [same, sold, hzero, residualOf]
      ring
    · have completion : completionOf terms earlier lines itemId = some (itemTerms.netUnitPrice +
          FinancialDecimal.round (residualOf itemTerms earlier lines itemId) 4) := by
        rw [h.completionOf_eq, if_neg hzero]
      rw [amountOf_completeAll completion (lastHoldsOne terms earlier lines)
        (fun l hl hitem => (atNet l hl hitem).trans hnet.symm), if_pos listed, sold, hnet]
      unfold residualOf
      ring
  refine ⟨total ▸ rounded, fun scale => sub_eq_zero.mp ?_⟩
  have unrounded : FinancialDecimal.round (residualOf itemTerms earlier lines itemId) 4 =
      residualOf itemTerms earlier lines itemId := roundHalfUp_of_atScale scale
  rw [total, unrounded, sub_self]

/-- An item that is not completed has no completing price. -/
theorem completionOf_eq_none (h : ∀ itemTerms, ¬CompletesItem terms earlier lines itemId itemTerms) :
    completionOf terms earlier lines itemId = none := by
  by_contra hsome
  obtain ⟨completion, hcompletion⟩ := Option.ne_none_iff_exists'.mp hsome
  obtain ⟨itemTerms, hterms, hqty, hprice, hlast⟩ := completionOf_some hcompletion
  rw [completionPrice_eq] at hprice
  split at hprice
  · cases hprice
  rename_i completes
  split at hprice
  · cases hprice
  split at hprice
  · cases hprice
  rename_i nonneg
  exact h itemTerms ⟨hterms, hqty, not_not.mp completes, hlast, not_lt.mp nonneg⟩

end Rest

/-! ## The terms enforced on their own result -/

section Again

variable {terms : ItemId → Option ReturnItemTerms} {earlier lines : List DocumentLine}

/-- A change of the lines that keeps their items and quantities. -/
theorem completionOf_map (f : DocumentLine → DocumentLine)
    (keeps : ∀ l, (f l).itemId = l.itemId ∧ (f l).quantity = l.quantity) (itemId : ItemId) :
    completionOf terms earlier (lines.map f) itemId =
      completionOf terms earlier lines itemId := by
  have filtered : (lines.map f).filter (fun l => decide (l.itemId = itemId)) =
      (lines.filter fun l => decide (l.itemId = itemId)).map f := by
    rw [List.filter_map]
    refine congrArg _ (List.filter_congr fun l _ => ?_)
    simp only [Function.comp_apply, (keeps l).1]
  refine completionOf_congr ?_ ?_
  · rw [quantityOf, filtered, List.map_map, quantityOf]
    exact congrArg List.sum (List.map_congr_left fun l _ => (keeps l).2)
  · rw [lastLine, filtered, List.getLast?_map, lastLine]
    cases (lines.filter fun l => decide (l.itemId = itemId)).getLast? with
    | none => rfl
    | some last => simp [(keeps last).2]

theorem completionOf_completeAll (net : ItemId → ℚ) (itemId : ItemId) :
    completionOf terms earlier (completeAll (completionOf terms earlier lines) net lines) itemId =
      completionOf terms earlier lines itemId :=
  completionOf_congr (quantityOf_completeAll lines itemId)
    (lastLine_completeAll (lastHoldsOne terms earlier lines) itemId)

/-- A line of the result, as a request would send it. -/
def resent (l : DocumentLine) : ReturnLineInput :=
  ⟨l.itemId, l.quantity, some l.unitPrice, some l.discount⟩

/-- The exchange rate that comes with the lines: the invoice's, or the sent one
where the invoice of another currency has none. -/
def returnedRate (invoice : SalesInvoice) (rate : Option ℚ) : Option ℚ :=
  if invoice.isRial then none
  else if 0 < invoice.exchangeRate then some invoice.exchangeRate
  else rate

theorem pricedLine_resent {l : DocumentLine} (hdiscount : l.discount = 0) :
    pricedLine terms (resent l) = atNetPrice (netPriceOf terms) l := by
  rw [pricedLine, atNetPrice, resent, hdiscount]
  rfl

end Again

theorem enforceReturnInvoiceTerms_ok {invoice : SalesInvoice} {earlier : List DocumentLine}
    {currency : Option String} {rate : Option ℚ} {sent : List ReturnLineInput}
    {out : List DocumentLine}
    (h : enforceReturnInvoiceTerms invoice earlier currency rate sent = .ok out) :
    (∀ l ∈ sent, (invoiceReturnTerms invoice.lines l.itemId).isSome) ∧
      out = (completeReturnLines (sent.map (pricedLine (invoiceReturnTerms invoice.lines)))
        (invoiceReturnTerms invoice.lines) earlier).lines := by
  simp only [enforceReturnInvoiceTerms, bind_eq_ok, ensure_eq_ok, pure_eq_ok, exists_const] at h
  obtain ⟨-, -, problems, rfl⟩ := h
  refine ⟨fun l hl => ?_, rfl⟩
  have fine := List.flatMap_eq_nil_iff.mp problems l hl
  unfold lineProblems at fine
  cases hterms : invoiceReturnTerms invoice.lines l.itemId with
  | none => simp [hterms] at fine
  | some itemTerms => rfl

/-- The result of the terms passes the terms and comes back as it is. -/
theorem enforceReturnInvoiceTerms_again {invoice : SalesInvoice} {earlier : List DocumentLine}
    {currency : Option String} {rate : Option ℚ} {sent : List ReturnLineInput}
    {out : List DocumentLine}
    (h : enforceReturnInvoiceTerms invoice earlier currency rate sent = .ok out) :
    enforceReturnInvoiceTerms invoice earlier (some invoice.currency) (returnedRate invoice rate)
      (out.map resent) = .ok out := by
  obtain ⟨invoiced, hout⟩ := enforceReturnInvoiceTerms_ok h
  let terms := invoiceReturnTerms invoice.lines
  let priced := sent.map (pricedLine terms)
  rw [(completeReturnLines_eq _ _ _).1] at hout
  have atNet : ∀ l ∈ priced, l.unitPrice = netPriceOf terms l.itemId ∧ l.discount = 0 ∧
      (terms l.itemId).isSome := by
    intro l hl
    obtain ⟨line, hline, rfl⟩ := List.mem_map.mp hl
    exact ⟨rfl, rfl, invoiced line hline⟩
  have lines : ∀ x ∈ out, x.discount = 0 ∧ (terms x.itemId).isSome ∧
      (x.unitPrice = netPriceOf terms x.itemId ∨
        completionOf terms earlier out x.itemId = some x.unitPrice) := by
    intro x hx
    rw [hout] at hx
    obtain ⟨l, hl, hitem, hdiscount, hprice⟩ := of_mem_completeAll hx
    obtain ⟨net, discount, known⟩ := atNet l hl
    refine ⟨hdiscount.trans discount, hitem ▸ known, ?_⟩
    rw [hout, completionOf_completeAll, hitem]
    rcases hprice with hprice | hprice | hprice
    · exact .inl (hprice.trans net)
    · exact .inl hprice
    · exact .inr hprice
  have again : (out.map resent).map (pricedLine terms) = out.map (atNetPrice (netPriceOf terms)) := by
    rw [List.map_map]
    exact List.map_congr_left fun x hx => pricedLine_resent (lines x hx).1
  simp only [enforceReturnInvoiceTerms, bind_eq_ok, ensure_eq_ok, pure_eq_ok, exists_const]
  refine ⟨by simp, ?_, ?_, ?_⟩
  · intro foreign positive sent_rate hsent
    rw [returnedRate, if_neg foreign, if_pos positive] at hsent
    exact (Option.mem_some.mp hsent).symm
  · -- every price is the net price or the completing price
    refine List.flatMap_eq_nil_iff.mpr fun line hline => ?_
    obtain ⟨x, hx, rfl⟩ := List.mem_map.mp hline
    obtain ⟨hdiscount, known, hprice⟩ := lines x hx
    obtain ⟨itemTerms, hterms⟩ := Option.isSome_iff_exists.mp known
    have hnet : netPriceOf terms x.itemId = itemTerms.netUnitPrice := by
      rw [netPriceOf, hterms]
      rfl
    have listed : x.itemId ∈ ((out.map resent).map fun l =>
        (⟨l.itemId, l.quantity, 0, 0⟩ : DocumentLine)).map DocumentLine.itemId := by
      rw [List.map_map, List.map_map]
      exact List.mem_map.mpr ⟨x, hx, rfl⟩
    have stripped : completionOf terms earlier ((out.map resent).map fun l =>
        (⟨l.itemId, l.quantity, 0, 0⟩ : DocumentLine)) x.itemId =
          completionOf terms earlier out x.itemId := by
      rw [List.map_map]
      exact completionOf_map (fun l => ⟨l.itemId, l.quantity, 0, 0⟩) (fun _ => ⟨rfl, rfl⟩) x.itemId
    have found := ((completeReturnLines_eq terms earlier ((out.map resent).map fun l =>
      (⟨l.itemId, l.quantity, 0, 0⟩ : DocumentLine))).2 x.itemId listed).trans stripped
    have accepted : (isInvoiceNetUnitPrice x.unitPrice itemTerms.netUnitPrice ||
        (completionOf terms earlier out x.itemId).any (isInvoiceNetUnitPrice x.unitPrice)) =
          true := by
      rcases hprice with hprice | hprice
      · simp [isInvoiceNetUnitPrice, hprice, hnet]
      · simp [isInvoiceNetUnitPrice, hprice]
    unfold lineProblems
    change (match terms x.itemId with
      | none => _
      | some itemTerms => _) = _
    rw [hterms]
    rw [← found] at accepted
    dsimp only [resent]
    rw [if_pos hdiscount, List.append_nil]
    exact if_pos accepted
  · rw [again, (completeReturnLines_eq _ _ _).1]
    have price : ∀ l ∈ out.map (atNetPrice (netPriceOf terms)),
        completionOf terms earlier (out.map (atNetPrice (netPriceOf terms))) l.itemId =
          completionOf terms earlier priced l.itemId := by
      intro l _
      rw [completionOf_map (atNetPrice _) fun _ => ⟨rfl, rfl⟩, hout, completionOf_completeAll]
    rw [completeAll_congr price, hout]
    exact completeAll_atNetPrice (lastHoldsOne terms earlier priced) fun l hl => (atNet l hl).1

/-- Returning the rest of an item returns the rest of its money: the completed
lines and the earlier returns give back the item's invoiced net, the goods are
the same, the other lines are untouched, and enforcing the terms of the invoice on
the result changes nothing. -/
theorem returning_the_rest (invoice : SalesInvoice) (earlier : List DocumentLine) :
    let terms := invoiceReturnTerms invoice.lines
    (∀ lines : List DocumentLine,
      let out := (completeReturnLines lines terms earlier).lines
      (∀ itemId itemTerms, CompletesItem terms earlier lines itemId itemTerms →
          (∀ l ∈ lines, l.itemId = itemId → l.unitPrice = itemTerms.netUnitPrice) →
            GivesBackNet earlier lines out itemId itemTerms) ∧
        (∀ itemId, quantityOf out itemId = quantityOf lines itemId) ∧
        ∀ keep : ItemId → Bool,
          (∀ itemId itemTerms, keep itemId = true →
            ¬CompletesItem terms earlier lines itemId itemTerms) →
          (out.filter fun l => keep l.itemId) = lines.filter fun l => keep l.itemId) ∧
      ∀ currency rate sent out,
        enforceReturnInvoiceTerms invoice earlier currency rate sent = .ok out →
          (∀ itemId itemTerms,
            CompletesItem terms earlier (sent.map (pricedLine terms)) itemId itemTerms →
              GivesBackNet earlier (sent.map (pricedLine terms)) out itemId itemTerms) ∧
            enforceReturnInvoiceTerms invoice earlier (some invoice.currency)
              (returnedRate invoice rate) (out.map resent) = .ok out := by
  intro terms
  refine ⟨fun lines => ⟨fun itemId itemTerms h atNet => h.givesBackNet atNet, fun itemId => ?_,
    fun keep others => ?_⟩, fun currency rate sent out h => ⟨fun itemId itemTerms completes => ?_,
      enforceReturnInvoiceTerms_again h⟩⟩
  · rw [(completeReturnLines_eq terms earlier lines).1, quantityOf_completeAll]
  · rw [(completeReturnLines_eq terms earlier lines).1]
    exact filter_completeAll fun itemId hkeep =>
      completionOf_eq_none fun itemTerms => others itemId itemTerms hkeep
  · rw [(enforceReturnInvoiceTerms_ok h).2]
    refine completes.givesBackNet fun l hl hitem => ?_
    obtain ⟨line, -, rfl⟩ := List.mem_map.mp hl
    have same : line.itemId = itemId := hitem
    change ((terms line.itemId).map ReturnItemTerms.netUnitPrice).getD 0 = _
    rw [same, completes.invoiced]
    rfl

/-- Three units sold for 1000: two come back at 333.3333, the last at 333.3334. -/
example :
    let terms := invoiceReturnTerms [⟨1, 2, 333, 0⟩, ⟨1, 1, 334, 0⟩]
    (completeReturnLines [⟨1, 3, 3333333 / 10000, 0⟩] terms []).lines =
      [⟨1, 2, 3333333 / 10000, 0⟩, ⟨1, 1, 3333334 / 10000, 0⟩] := by
  decide +kernel

end PapitalErp
