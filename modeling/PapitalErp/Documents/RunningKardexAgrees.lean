import PapitalErp.Documents.RunningBalances

/-!
# What the running Kardex says of a reachable state

Its last balance is the item's stock and the sum of its ledger rows, each
warehouse column ends at that warehouse's stock, and the totals in and out differ
by the balance. A range of days, read page after page from its opening figures,
arrives at the figures the whole ledger has at the end of the range.
-/

namespace PapitalErp

open Rounding Transition KardexReplay RunningColumns RunningKardex

/-- The running Kardex of an item in a state. -/
def StockState.runningKardex (s : StockState) (item : ItemId) : RunningKardexResponse :=
  buildItemRunningKardex (s.kardexOf item) (s.items item).total (s.items item).weightedAverageCost

/-! ## The rows of a consistent table -/

namespace KardexConsistent

variable {s : StockState} {item : ItemId}

theorem displayed (h : KardexConsistent s) {row : KardexRow} (hrow : row ∈ s.kardexOf item) :
    Displayed (s.kardexOf item) row := by
  refine ⟨h.shape row (mem_kardexOf.mp hrow).1, ?_⟩
  have applied := apply_of_settled (h.settled hrow) ⟨0, 0⟩
  by_contra skipped
  simp [apply, skipped] at applied

/-- A row is a real movement when it is live and reverses nothing. -/
theorem inLedger_eq (h : KardexConsistent s) {row : KardexRow} (hrow : row ∈ s.kardexOf item) :
    inLedger (s.kardexOf item) row = (!row.isDeleted && row.reversalOfId.isNone) := by
  have settled := h.settled hrow
  have voided : isVoidedOriginal (s.kardexOf item) row = row.isDeleted := by
    unfold isVoidedOriginal
    cases hdel : row.isDeleted with
    | false => rfl
    | true => simp [(settled.deleted hdel).2]
  have reversal : ((s.kardexOf item).any fun o =>
      decide (row.reversalOfId = some o.id) && o.isDeleted) = row.reversalOfId.isSome := by
    cases hid : row.reversalOfId with
    | none => simp
    | some id =>
        obtain ⟨original, horig, hdel, -⟩ := settled.reversal id hid
        rw [originalOf, hid, Option.bind_some] at horig
        have hmem := List.mem_of_find?_eq_some horig
        have same : original.id = id := by simpa using List.find?_some horig
        refine List.any_eq_true.mpr ⟨original, hmem, ?_⟩
        simp [hdel, same]
  rw [inLedger, voided, reversal]
  cases row.reversalOfId <;> rfl

theorem filter_inLedger (h : KardexConsistent s) (item : ItemId) :
    (s.kardexOf item).filter (inLedger (s.kardexOf item)) = liveLedger s.rows item := by
  rw [List.filter_congr fun row hrow => h.inLedger_eq hrow]
  unfold StockState.kardexOf liveLedger
  rw [List.filter_filter]
  refine List.filter_congr fun row _ => ?_
  rw [Bool.and_comm]

/-- The loop over the item's rows. -/
theorem walk (h : KardexConsistent s) (item : ItemId) (defaultWac : ℚ) :
    WalkHolds (s.kardexOf item) defaultWac (inLedgerOrder (s.kardexOf item))
      ((inLedgerOrder (s.kardexOf item)).foldl (walkRow (s.kardexOf item) defaultWac) .start) :=
  walk_holds fun _ hrow => h.displayed ((List.mem_insertionSort LedgerLe).mp hrow)

end KardexConsistent

/-! ## Balances -/

/-- The last figures of the running Kardex are those of the item. -/
structure QuantitiesAgree (s : StockState) (item : ItemId) (kardex : RunningKardexResponse) :
    Prop where
  balance_eq_ledger : closing RunningKardexEntry.runningBalance 0 kardex.entries =
    ((itemLedger s.rows item).map KardexRow.signedQuantity).sum
  balance_eq_stock : closing RunningKardexEntry.runningBalance 0 kardex.entries =
    (s.items item).total
  locations : ∀ warehouse, closing RunningKardexEntry.runningLocationStock 0
      (kardex.entries.filter fun entry => decide (entry.location = warehouse)) =
    (s.items item).stocks.currentStock warehouse
  netBalance : kardex.summary.netBalance = (s.items item).total
  totals : kardex.summary.totalIn - kardex.summary.totalOut = kardex.summary.netBalance

theorem quantities_agree (cost : ItemId → OpeningCost) (ops : List StockOperation)
    (item : ItemId) :
    let s := runStock (.initial cost) ops
    QuantitiesAgree s item (s.runningKardex item) := by
  intro s
  have booked : ∀ m : StockMeasure, Booked m s := fun m => (Booked.initial cost).run ops
  have consistent := (booked .total).consistent
  have walk := consistent.walk item (s.items item).weightedAverageCost
  have shape : ∀ row ∈ inLedgerOrder (s.kardexOf item), WellShaped row := fun row hrow =>
    (consistent.displayed ((List.mem_insertionSort LedgerLe).mp hrow)).shape
  have rows : ((inLedgerOrder (s.kardexOf item)).map KardexRow.signedQuantity).sum =
      (s.items item).total :=
    (sum_inLedgerOrder _ _).trans ((booked .total).rows item)
  have ledger : ((liveLedger s.rows item).map KardexRow.signedQuantity).sum =
      (s.items item).total := (booked .total).ledger item
  have balance : closing RunningKardexEntry.runningBalance 0 (s.runningKardex item).entries =
      (s.items item).total := by
    rw [← rows, ← sum_entries walk.entries shape, ← zero_add (List.sum _)]
    exact walk.balances.closing_eq
  have net : (s.runningKardex item).summary.netBalance = (s.items item).total :=
    walk.balance.trans rows
  refine ⟨?_, balance, fun warehouse => ?_, net, ?_⟩
  · rw [balance, consistent.itemLedger_eq, ledger]
  · have here : ((inLedgerOrder (s.kardexOf item)).map (KardexRow.quantityIn warehouse)).sum =
        (s.items item).stocks.currentStock warehouse :=
      (sum_inLedgerOrder _ _).trans ((booked (.atWarehouse warehouse)).rows item)
    rw [← here, ← sum_entries_at walk.entries shape, ← zero_add (List.sum _)]
    exact (walk.stocks warehouse).closing_eq
  · rw [net, ← ledger, ← consistent.filter_inLedger]
    have perm := ((List.perm_insertionSort LedgerLe (s.kardexOf item)).filter
      (inLedger (s.kardexOf item))).map KardexRow.signedQuantity
    exact walk.totals.trans perm.sum_eq

/-! ## Ranges and pages -/

/-- A range of days without filters. -/
def rangeQuery (fromDay toDay limit : Option ℤ) (page : ℤ) : RunningKardexQuery where
  fromDay := fromDay
  toDay := toDay
  type := none
  location := none
  searchMatches _ := true
  page := some page
  limit := limit
  exportAll := false

/-- The figures a range opens and closes with: balance, average cost and value. -/
def figuresOf (entry : RunningKardexEntry) : ℚ × ℚ × ℚ :=
  (entry.runningBalance, entry.runningWac, entry.runningTotalValue)

def openingFigures (page : RunningKardexPage) : ℚ × ℚ × ℚ :=
  (page.opening.map fun opening =>
    (opening.runningBalance, opening.runningWac, opening.runningTotalValue)).getD (0, 0, 0)

/-- The entries of the ledger up to the end of a range. -/
def entriesTo (full : RunningKardexResponse) (query : RunningKardexQuery) :
    List RunningKardexEntry :=
  full.entries.filter fun entry => isBefore query entry || isWithin query entry

/-- The first pages of a range, one after the other. -/
def firstPages (full : RunningKardexResponse) (fromDay toDay limit : Option ℤ) (count : ℕ) :
    List RunningKardexEntry :=
  (List.range count).flatMap fun (page : ℕ) =>
    (buildItemRunningKardexPage full (rangeQuery fromDay toDay limit (page + 1))).entries

/-- A range opens with the ledger's figures before it; each page continues them,
and the last page closes with the ledger's figures at the end of the range. -/
structure RangeCloses (full : RunningKardexResponse) (fromDay toDay limit : Option ℤ) : Prop where
  opens : ∀ page, openingFigures
      (buildItemRunningKardexPage full (rangeQuery fromDay toDay limit page)) =
    closing figuresOf (0, 0, 0)
      (full.entries.filter (isBefore (rangeQuery fromDay toDay limit page)))
  runs : ∀ page count,
    let opening := openingFigures
      (buildItemRunningKardexPage full (rangeQuery fromDay toDay limit page))
    let shown := firstPages full fromDay toDay limit count
    opening.1 + (shown.map RunningKardexEntry.signedQuantity).sum =
      (closing figuresOf opening shown).1
  closes : ∀ page count,
    let query := rangeQuery fromDay toDay limit page
    (matching full.entries query).length ≤ count * pageLimit query →
      closing figuresOf (openingFigures (buildItemRunningKardexPage full query))
          (firstPages full fromDay toDay limit count) =
        closing figuresOf (0, 0, 0) (entriesTo full query)
  whole : toDay = none → ∀ page,
    entriesTo full (rangeQuery fromDay toDay limit page) = full.entries

section Ranges

variable {full : RunningKardexResponse} {fromDay toDay limit : Option ℤ}

theorem matching_range (page : ℤ) : matching full.entries (rangeQuery fromDay toDay limit page) =
    full.entries.filter (isWithin (rangeQuery fromDay toDay limit page)) := by
  unfold matching
  refine List.filter_congr fun entry _ => ?_
  simp [runningKardexEntryMatches, rangeQuery]

theorem firstPages_eq (count : ℕ) (page : ℤ) : firstPages full fromDay toDay limit count =
    (full.entries.filter (isWithin (rangeQuery fromDay toDay limit page))).take
      (count * pageLimit (rangeQuery fromDay toDay limit page)) := by
  rw [← matching_range, ← pages_eq_take]
  unfold firstPages
  refine List.flatMap_congr fun n _ => ?_
  have number : pageNumber (rangeQuery fromDay toDay limit (n + 1)) = n + 1 := by
    simp only [pageNumber, rangeQuery, Option.getD_some]
    omega
  simp only [buildItemRunningKardexPage, number]
  rfl

/-- Dated after the range. -/
theorem beyond_iff {query : RunningKardexQuery} {entry : RunningKardexEntry} :
    (isBefore query entry || isWithin query entry) = false ↔
      (∀ first ∈ query.fromDay, first ≤ entry.date) ∧
        ∃ last ∈ query.toDay, last < entry.date := by
  unfold isBefore isWithin
  cases query.fromDay <;> cases query.toDay <;> simp
  omega

/-- A range of a ledger in day order whose balance column runs over its
entries. -/
theorem range_closes (sorted : full.entries.Pairwise fun a b => a.date ≤ b.date)
    (runs : RunsFrom RunningKardexEntry.signedQuantity RunningKardexEntry.runningBalance 0
      full.entries) : RangeCloses full fromDay toDay limit := by
  have opens : ∀ page, openingFigures
        (buildItemRunningKardexPage full (rangeQuery fromDay toDay limit page)) =
      closing figuresOf (0, 0, 0)
        (full.entries.filter (isBefore (rangeQuery fromDay toDay limit page))) := by
    intro page
    cases fromDay with
    | none =>
        have nothing : full.entries.filter
            (isBefore (rangeQuery none toDay limit page)) = [] :=
          List.filter_eq_nil_iff.mpr fun entry _ => by simp [isBefore, rangeQuery]
        rw [nothing]
        rfl
    | some first =>
        refine Prod.ext ?_ (Prod.ext ?_ ?_)
        · exact (map_closing Prod.fst figuresOf (0, 0, 0) _).symm
        · exact (map_closing (fun figures => figures.2.1) figuresOf (0, 0, 0) _).symm
        · exact (map_closing (fun figures => figures.2.2) figuresOf (0, 0, 0) _).symm
  -- the ledger is what comes before the range, the range, and what comes after it
  have upTo : ∀ page, entriesTo full (rangeQuery fromDay toDay limit page) =
      full.entries.filter (isBefore (rangeQuery fromDay toDay limit page)) ++
        full.entries.filter (isWithin (rangeQuery fromDay toDay limit page)) := by
    intro page
    refine filter_range (sorted.imp fun {a b} hab hwithin => ?_) fun a _ hbefore => ?_
    · cases fromDay with
      | none => rfl
      | some first =>
          simp only [isWithin, isBefore, rangeQuery, Option.all_some, Option.any_some,
            Bool.and_eq_true, decide_eq_true_eq, decide_eq_false_iff_not] at hwithin ⊢
          omega
    · cases fromDay with
      | none => simp [isBefore, rangeQuery] at hbefore
      | some first =>
          simp only [isBefore, rangeQuery, Option.any_some, decide_eq_true_eq] at hbefore
          simp only [isWithin, rangeQuery, Option.all_some, Bool.and_eq_false_iff,
            decide_eq_false_iff_not]
          left
          omega
  have split : ∀ page, full.entries = entriesTo full (rangeQuery fromDay toDay limit page) ++
      full.entries.filter fun entry =>
        !(isBefore (rangeQuery fromDay toDay limit page) entry ||
          isWithin (rangeQuery fromDay toDay limit page) entry) := by
    intro page
    rw [entriesTo, ← filter_range]
    · exact (List.filter_eq_self.mpr fun entry _ => Bool.or_not_self _).symm
    · refine sorted.imp fun {a b} hab hafter => ?_
      obtain ⟨hfrom, last, hlast, hlt⟩ := beyond_iff.mp (by simpa using hafter)
      exact beyond_iff.mpr ⟨fun first hfirst => (hfrom first hfirst).trans hab, last, hlast,
        hlt.trans_le hab⟩
    · intro a _ hbefore
      rw [hbefore, Bool.not_true]
  have within : ∀ page, RunsFrom RunningKardexEntry.signedQuantity
      RunningKardexEntry.runningBalance
      (openingFigures (buildItemRunningKardexPage full (rangeQuery fromDay toDay limit page))).1
      (full.entries.filter (isWithin (rangeQuery fromDay toDay limit page))) := by
    intro page
    have all := runs
    rw [split page, upTo page, runsFrom_append, runsFrom_append] at all
    obtain ⟨⟨before, here⟩, -⟩ := all
    have first : (openingFigures
        (buildItemRunningKardexPage full (rangeQuery fromDay toDay limit page))).1 =
        0 + ((full.entries.filter (isBefore (rangeQuery fromDay toDay limit page))).map
          RunningKardexEntry.signedQuantity).sum := by
      rw [opens, ← before.closing_eq, map_closing Prod.fst]
      rfl
    rw [first]
    exact here
  refine ⟨opens, fun page count => ?_, fun page count enough => ?_, fun hto page => ?_⟩
  · dsimp only
    rw [firstPages_eq count page]
    have part := within page
    rw [← List.take_append_drop (count * pageLimit (rangeQuery fromDay toDay limit page))
      (full.entries.filter (isWithin (rangeQuery fromDay toDay limit page))),
      runsFrom_append] at part
    rw [← part.1.closing_eq, map_closing Prod.fst]
    rfl
  · rw [matching_range] at enough
    rw [firstPages_eq count page, List.take_of_length_le enough, opens, upTo, closing_append]
  · refine List.filter_eq_self.mpr fun entry _ => ?_
    subst hto
    cases fromDay with
    | none => simp [isWithin, rangeQuery]
    | some first =>
        simp only [isBefore, isWithin, rangeQuery, Option.any_some, Option.all_some,
          Option.all_none, Bool.and_true, Bool.or_eq_true, decide_eq_true_eq]
        omega

end Ranges

/-- Every range of the running Kardex of a reachable state. -/
theorem ranges_close (cost : ItemId → OpeningCost) (ops : List StockOperation) (item : ItemId)
    (fromDay toDay limit : Option ℤ) :
    RangeCloses ((runStock (.initial cost) ops).runningKardex item) fromDay toDay limit := by
  have consistent := (KardexConsistent.initial cost).run ops
  have walk := consistent.walk item
    ((runStock (.initial cost) ops).items item).weightedAverageCost
  refine range_closes ?_ walk.balances
  have dates := map_entries walk.entries (fun row _ _ _ => rfl :
    ∀ row ∈ inLedgerOrder ((runStock (.initial cost) ops).kardexOf item), ∀ balance stock,
      (entryOf _ _ row balance stock).date = row.day)
  have rows : ((inLedgerOrder ((runStock (.initial cost) ops).kardexOf item)).map
      KardexRow.day).Pairwise (· ≤ ·) := by
    rw [List.pairwise_map]
    refine (List.pairwise_insertionSort LedgerLe _).imp fun {a b} hab => ?_
    unfold LedgerLe at hab
    omega
  rw [← dates, List.pairwise_map] at rows
  exact rows

end PapitalErp
