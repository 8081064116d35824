import PapitalErp.Lib.FilteredSums
import PapitalErp.Reports.AgingReport

/-!
# The aging report settles oldest first

What the report leaves on each increasing row is what settling the party's rows
one by one leaves there: each reducing row takes from the oldest open rows, and
what it cannot use is kept for the rows to come. The rows may come in any order
in which the increasing ones are the oldest first, in particular in the order of
their days; on one day the voucher's number, the row's place and its id decide.
-/

namespace PapitalErp.Aging

open OldestFirst FilteredSums

instance : Std.Total Fact.older := ⟨fun a b => le_total a.order b.order⟩

instance : IsTrans Fact Fact.older := ⟨fun _ _ _ => le_trans⟩

/-- A row as an entry of a book: it opens its amount, or it pays. -/
def Fact.entry (fact : Fact) : Entry Fact ℚ :=
  if 0 < fact.amt then .claim fact fact.amt else .payment (-fact.amt)

variable {scope : AgingScope} {books : Books} {key : GroupKey} {rows : List Fact}

/-! ## The rows of a group -/

/-- Rows with distinct ids. -/
def Distinct (rows : List Fact) : Prop := (rows.map Fact.rid).Nodup

theorem distinct_agingGroup : Distinct (agingGroup scope books key) := by
  have rid : Fact.rid ∘ agingFact scope books = fun row => row.item.id := rfl
  have facts : Distinct (agingFacts scope books) := by
    rw [Distinct, agingFacts, List.map_map, rid]
    exact books.distinct.sublist (List.filter_sublist.map _)
  exact facts.sublist ((List.filter_sublist.trans List.filter_sublist).map _)

/-- The order of the window decides between any two rows. -/
theorem Distinct.strict (distinct : Distinct rows) :
    ∀ a ∈ rows, ∀ b ∈ rows, a.older b → b.older a → a = b := by
  intro a ha b hb first second
  have same : a.order = b.order := le_antisymm first second
  simp only [Fact.order, EmbeddingLike.apply_eq_iff_eq, Prod.mk.injEq] at same
  exact List.inj_on_of_nodup_map distinct ha hb same.2.2.2

/-- However the rows come, the increasing ones come in the order of the window. -/
theorem filter_increases_eq {es : List Fact} (distinct : Distinct rows) (perm : es.Perm rows)
    (oldestFirst : (es.filter Fact.increases).Pairwise Fact.older) :
    (rows.filter Fact.increases).insertionSort Fact.older = es.filter Fact.increases := by
  refine PrefixSums.insertionSort_unique oldestFirst (perm.symm.filter _) ?_
  intro a ha b hb
  exact distinct.strict a (List.mem_of_mem_filter ha) b (List.mem_of_mem_filter hb)

theorem entry_of_increases {fact : Fact} (h : fact.increases = true) :
    fact.entry = .claim fact fact.amt := if_pos (of_decide_eq_true h)

theorem entry_of_not_increases {fact : Fact} (h : ¬fact.increases = true) :
    fact.entry = .payment (-fact.amt) := if_neg fun positive => h (decide_eq_true positive)

theorem claims_entries (es : List Fact) :
    claims (es.map Fact.entry) = (es.filter Fact.increases).map fun d => (d, d.amt) := by
  induction es with
  | nil => rfl
  | cons d es ih =>
      rw [claims] at ih ⊢
      by_cases h : d.increases = true
      · have opens : Entry.claim? d.entry = some (d, d.amt) := by rw [entry_of_increases h]; rfl
        rw [List.map_cons, List.filterMap_cons_some opens, ih, List.filter_cons_of_pos h,
          List.map_cons]
      · have pays : Entry.claim? d.entry = none := by rw [entry_of_not_increases h]; rfl
        rw [List.map_cons, List.filterMap_cons_none pays, ih, List.filter_cons_of_neg h]

theorem paid_entries (es : List Fact) : paid (es.map Fact.entry) = settledOf es := by
  rw [paid, settledOf, List.map_map]
  congr 1
  refine List.map_congr_left fun d _ => ?_
  rw [Function.comp_apply]
  by_cases h : d.increases = true
  · have positive : 0 < d.amt := of_decide_eq_true h
    rw [entry_of_increases h, if_neg positive.not_gt, Entry.pays]
  · have other : d.amt ≤ 0 := not_lt.mp fun positive => h (decide_eq_true positive)
    rw [entry_of_not_increases h, Entry.pays]
    split
    · rfl
    · rw [le_antisymm other (not_lt.mp ‹_›), neg_zero]

theorem entry_nonneg (fact : Fact) : 0 ≤ fact.entry.amount := by
  by_cases h : fact.increases = true
  · rw [entry_of_increases h]
    exact (of_decide_eq_true h).le
  · rw [entry_of_not_increases h]
    exact neg_nonneg.mpr (not_lt.mp fun positive => h (decide_eq_true positive))

theorem settledOf_nonneg (rows : List Fact) : 0 ≤ settledOf rows := by
  refine List.sum_nonneg fun x hx => ?_
  obtain ⟨d, -, rfl⟩ := List.mem_map.mp hx
  split
  · linarith
  · exact le_rfl

theorem nonNegative_openRows (rows : List Fact) : NonNegative (openRows rows) := by
  intro claim mem
  obtain ⟨d, hd, rfl⟩ := List.mem_map.mp mem
  rw [List.mem_insertionSort, List.mem_filter] at hd
  exact (of_decide_eq_true hd.2).le

/-- The balance is what the increasing rows open less what the others settle. -/
theorem balanceOf_eq (rows : List Fact) :
    balanceOf rows = ((openRows rows).map Prod.snd).sum - settledOf rows := by
  have sorted : ((openRows rows).map Prod.snd).sum =
      ((rows.filter Fact.increases).map Fact.amt).sum := by
    rw [openRows, List.map_map]
    exact ((List.perm_insertionSort _ _).map Fact.amt).sum_eq
  rw [sorted, balanceOf, settledOf]
  clear sorted
  induction rows with
  | nil => simp
  | cons d rows ih =>
      rw [List.map_cons, List.sum_cons, ih, List.map_cons, List.sum_cons]
      rcases lt_or_ge 0 d.amt with positive | other
      · rw [List.filter_cons_of_pos (by simpa [Fact.increases] using positive), List.map_cons,
          List.sum_cons, if_neg positive.not_gt]
        ring
      · rw [List.filter_cons_of_neg (by simpa [Fact.increases] using other)]
        split
        · ring
        · have zero : d.amt = 0 := le_antisymm other (not_lt.mp ‹_›)
          rw [zero]
          ring

theorem agingRemaining_eq_settle (rows : List Fact) :
    agingRemaining rows = (settle (settledOf rows) (openRows rows)).1 :=
  (settle_eq_running (settledOf_nonneg rows) (nonNegative_openRows rows)).symm

/-- Settling the rows one by one, in an order in which the increasing rows are
the oldest first, leaves what the closed form says and the advance. -/
theorem run_entries {es : List Fact} (distinct : Distinct rows) (perm : es.Perm rows)
    (oldestFirst : (es.filter Fact.increases).Pairwise Fact.older) :
    run (es.map Fact.entry) = ⟨agingRemaining rows, max (-balanceOf rows) 0⟩ := by
  have amounts : ∀ entry ∈ es.map Fact.entry, 0 ≤ entry.amount := by
    intro entry mem
    obtain ⟨d, -, rfl⟩ := List.mem_map.mp mem
    exact entry_nonneg d
  have opened : claims (es.map Fact.entry) = openRows rows := by
    rw [claims_entries, openRows, filter_increases_eq distinct perm oldestFirst]
  have payments : paid (es.map Fact.entry) = settledOf rows := by
    rw [paid_entries]
    exact (perm.map _).sum_eq
  rw [run_eq amounts, opened, payments, agingRemaining_eq_settle,
    settle_snd (settledOf_nonneg rows) (nonNegative_openRows rows), balanceOf_eq, neg_sub]

/-- A receipt of 600 on day 180 settles the claim of day 0 and a third of the next. -/
example :
    let row (day : ℤ) (rid : ℕ) (amt : ℚ) : Fact := ⟨some 1, none, day, 0, 0, rid, amt, false⟩
    (agingRemaining [row 195 5 300, row 180 4 (-600), row 100 2 300, row 0 1 500,
      row 155 3 400]).map (fun x => (x.1.day, x.2)) =
        [(0, 0), (100, 200), (155, 400), (195, 300)] := by
  decide +kernel

/-- The order of the days is such an order. -/
theorem dayOrder (rows : List Fact) :
    ((rows.insertionSort Fact.older).filter Fact.increases).Pairwise Fact.older :=
  (List.pairwise_insertionSort Fact.older rows).filter _

/-! ## The buckets -/

/-- The bucket of an age. -/
def bucketOf (age : ℤ) : AgingBucket :=
  if age ≤ 30 then .upTo30
  else if age ≤ 60 then .upTo60
  else if age ≤ 90 then .upTo90
  else if age ≤ 180 then .upTo180
  else .over180

theorem holds_iff {age : ℤ} (h : 0 ≤ age) (bucket : AgingBucket) :
    bucket.holds age ↔ bucketOf age = bucket := by
  unfold bucketOf
  cases bucket <;> split_ifs <;> simp [AgingBucket.holds, AgingBucket.range] <;> omega

theorem age_nonneg {fact : Fact} (h : fact ∈ agingGroup scope books key) :
    0 ≤ ageOf scope fact := by
  have day := of_decide_eq_true (List.mem_filter.mp (List.mem_of_mem_filter h)).2
  exact sub_nonneg.mpr day

/-- The rows with something open on them are rows of the group. -/
theorem mem_of_agingRemaining {x : Fact × ℚ} (h : x ∈ agingRemaining rows) : x.1 ∈ rows := by
  have labels : (agingRemaining rows).map Prod.fst =
      (rows.filter Fact.increases).insertionSort Fact.older := by
    have running_fst : ∀ (base : ℚ) (l : List (Fact × ℚ)),
        (running base l).map Prod.fst = l.map Prod.fst := by
      intro base l
      induction l generalizing base with
      | nil => rfl
      | cons claim l ih => rw [running_cons, List.map_cons, ih, List.map_cons]
    rw [agingRemaining, List.map_map]
    exact (running_fst 0 _).trans (by simp [openRows, Function.comp_def])
  have mem : x.1 ∈ (agingRemaining rows).map Prod.fst := List.mem_map_of_mem h
  rw [labels, List.mem_insertionSort] at mem
  exact List.mem_of_mem_filter mem

theorem existsUnique_bucket {x : Fact × ℚ}
    (h : x ∈ agingRemaining (agingGroup scope books key)) :
    ∃! bucket : AgingBucket, bucket.holds (ageOf scope x.1) := by
  have age := age_nonneg (mem_of_agingRemaining h)
  refine ⟨bucketOf (ageOf scope x.1), (holds_iff age _).mpr rfl, ?_⟩
  intro bucket holds
  exact ((holds_iff age bucket).mp holds).symm

theorem remaining_nonneg {x : Fact × ℚ} (h : x ∈ agingRemaining rows) : 0 ≤ x.2 := by
  obtain ⟨o, -, rfl⟩ := List.mem_map.mp h
  exact le_max_right _ _

theorem bucketSum_nonneg (scope : AgingScope) (rows : List Fact) (bucket : AgingBucket) :
    0 ≤ bucketSum scope rows bucket := by
  refine List.sum_nonneg fun x hx => ?_
  obtain ⟨o, ho, rfl⟩ := List.mem_map.mp hx
  exact remaining_nonneg (List.mem_of_mem_filter ho)

/-- The buckets share out what is open. -/
theorem sum_buckets :
    (agingBuckets.map (bucketSum scope (agingGroup scope books key))).sum =
      max (balanceOf (agingGroup scope books key)) 0 := by
  set rows := agingGroup scope books key with hrows
  have each : ∀ bucket, bucketSum scope rows bucket =
      sumWhere (fun x : Fact × ℚ => decide (bucketOf (ageOf scope x.1) = bucket)) Prod.snd
        (agingRemaining rows) := by
    intro bucket
    refine sumWhere_congr (fun x hx => ?_) fun _ _ _ => rfl
    exact decide_eq_decide.mpr (holds_iff (age_nonneg (mem_of_agingRemaining hx)) bucket)
  have all : (agingBuckets.map (bucketSum scope rows)).sum =
      ((agingRemaining rows).map Prod.snd).sum := by
    rw [List.map_congr_left fun bucket _ => each bucket]
    refine sum_sumWhere_key (by decide) fun x _ => ?_
    cases bucketOf (ageOf scope x.1) <;> decide
  rw [all, agingRemaining_eq_settle, balanceOf_eq,
    sum_settle_eq_max (settledOf_nonneg rows) (nonNegative_openRows rows)]

/-! ## The total and the ledger -/

theorem sum_agingDated (scope : AgingScope) (books : Books) :
    ((agingDated scope books).map Fact.amt).sum = ledgerBalance scope books := by
  rw [agingDated, agingFacts, List.filter_map, List.filter_filter, List.map_map, ledgerBalance,
    ledgerSum]
  congr 2
  refine List.filter_congr fun row _ => ?_
  have day : (agingFact scope books row).day = row.voucher.day := rfl
  rw [Function.comp_apply, day, ← Bool.and_assoc, Bool.and_comm (decide _)]

/-- A row the report leaves out has no balance. -/
theorem sum_agingRows (h : scope.partyId = none) :
    totalBalance scope books =
      ((agingKeys scope books).map fun key => balanceOf (agingGroup scope books key)).sum := by
  rw [totalBalance, agingRows, PrefixSums.sum_filter, List.map_map]
  congr 1
  refine List.map_congr_left fun key _ => ?_
  rw [Function.comp_apply]
  split
  · rfl
  · have left : ¬(agingRow scope books key).balance ≠ 0 := by
      intro owes
      simp_all
    exact (not_not.mp left).symm

theorem totalBalance_eq (h : scope.partyId = none) :
    totalBalance scope books = ledgerBalance scope books := by
  have cover : ∀ fact ∈ agingDated scope books, fact.gKey ∈ agingKeys scope books := by
    intro fact mem
    exact List.mem_dedup.mpr (List.mem_append_left _ (List.mem_map_of_mem mem))
  rw [sum_agingRows h, ← sum_agingDated]
  exact sum_sumWhere_key (List.nodup_dedup _) cover

/-- The rows of closing runs are what the report leaves out of the ledger. -/
theorem ledgerSum_eq (scope : AgingScope) (books : Books) :
    ledgerSum scope books (fun _ => true) =
      ledgerBalance scope books + ledgerSum scope books ofClosingRun := by
  rw [ledgerBalance, ledgerSum, ledgerSum, ledgerSum]
  induction books.ledger with
  | nil => simp
  | cons row rows ih =>
      by_cases counted : (onAccount scope books row && row.voucher.day ≤ scope.asOf) = true <;>
        by_cases closing : ofClosingRun row = true <;>
        simp_all [add_assoc, add_left_comm]

/-- For the rows of any party, in any order in which its increasing rows are the
oldest first, settling them one by one leaves on each row what the report shows
and the advance; the order of the days is such an order. What is open falls in
exactly one bucket, the buckets of a row of the report are not negative and sum
to its balance when that is positive, and without a party filter the balances
sum to the ledger balance of the accounts covered, which is all of the ledger
when what closing runs moved there cancels. -/
theorem agingReport_settles_oldest_first (scope : AgingScope) (books : Books) :
    (∀ key : GroupKey, ∀ es : List Fact, es.Perm (agingGroup scope books key) →
      (es.filter Fact.increases).Pairwise Fact.older →
        run (es.map Fact.entry) = ⟨agingRemaining (agingGroup scope books key),
          max (-balanceOf (agingGroup scope books key)) 0⟩) ∧
    (∀ key : GroupKey,
      run (((agingGroup scope books key).insertionSort Fact.older).map Fact.entry) =
        ⟨agingRemaining (agingGroup scope books key),
          max (-balanceOf (agingGroup scope books key)) 0⟩) ∧
    (∀ key : GroupKey, ∀ x ∈ agingRemaining (agingGroup scope books key),
      ∃! bucket : AgingBucket, bucket.holds (ageOf scope x.1)) ∧
    (∀ row ∈ agingRows scope books, (∀ bucket, 0 ≤ row.buckets bucket) ∧
      (agingBuckets.map row.buckets).sum = max row.balance 0 ∧
        row.advance = max (-row.balance) 0) ∧
    (scope.partyId = none →
      totalBalance scope books = ledgerBalance scope books ∧
      (ledgerSum scope books ofClosingRun = 0 →
        totalBalance scope books = ledgerSum scope books fun _ => true)) := by
  refine ⟨fun key es perm oldestFirst => run_entries distinct_agingGroup perm oldestFirst,
    fun key => ?_, fun key x hx => existsUnique_bucket hx, fun row mem => ?_, fun all => ?_⟩
  · exact run_entries distinct_agingGroup (List.perm_insertionSort _ _) (dayOrder _)
  · obtain ⟨key, -, rfl⟩ := List.mem_map.mp (List.mem_of_mem_filter mem)
    exact ⟨bucketSum_nonneg scope _, sum_buckets, rfl⟩
  · refine ⟨totalBalance_eq all, fun cancels => ?_⟩
    rw [ledgerSum_eq, cancels, add_zero, totalBalance_eq all]

end PapitalErp.Aging
