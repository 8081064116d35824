import PapitalErp.Reports.SalesReport

/-!
# The groups and the filters of the sales report

The groups of any two dimensions have between them the amounts of all facts, and
their documents too where the dimensions are the documents'. A filter keeps the
facts that have its value and no others, so that the values of a filter, with the
facts that have none, partition the report.
-/

namespace PapitalErp.Sales

open FilteredSums Rounding SalesReports

variable {books : Books} {scope : SalesScope} {facts : List Fact}
variable {groupBy : SalesDimension} {thenBy : Option SalesDimension}

/-! ## Groups -/

/-- `t` is the sum of the rows, column by column. -/
def Amounts.IsSumOf (t : Amounts) (rows : List Amounts) : Prop :=
  t =
    { quantity := (rows.map quantity).sum
      returnQuantity := (rows.map returnQuantity).sum
      gross := (rows.map gross).sum
      discount := (rows.map discount).sum
      net := (rows.map net).sum
      returnAmount := (rows.map returnAmount).sum
      netAfter := (rows.map netAfter).sum
      cost := (rows.map cost).sum }

/-- The exact amounts of each group. -/
def groupAmounts (facts : List Fact) (groupBy : SalesDimension) (thenBy : Option SalesDimension) :
    List Amounts :=
  (groupKeys facts groupBy thenBy).map fun key => amountColumns (groupFacts facts groupBy thenBy key)

theorem nodup_groupKeys : (groupKeys facts groupBy thenBy).Nodup := List.nodup_dedup _

theorem mem_groupKeys {f : Fact} (h : f ∈ facts) :
    groupKey groupBy thenBy f ∈ groupKeys facts groupBy thenBy :=
  List.mem_dedup.mpr (List.mem_map_of_mem h)

theorem sumWhere_groups (p : Fact → Bool) (f : Fact → ℚ) :
    ((groupKeys facts groupBy thenBy).map fun key =>
      sumWhere p f (groupFacts facts groupBy thenBy key)).sum = sumWhere p f facts :=
  sum_sumWhere_groups nodup_groupKeys fun _ => mem_groupKeys

theorem sum_groups (f : Fact → ℚ) :
    ((groupKeys facts groupBy thenBy).map fun key =>
      ((groupFacts facts groupBy thenBy key).map f).sum).sum = (facts.map f).sum :=
  sum_sumWhere_key nodup_groupKeys fun _ => mem_groupKeys

/-- The groups add up, before each amount is rounded to be shown. -/
theorem isSumOf_groupAmounts (facts : List Fact) (groupBy : SalesDimension)
    (thenBy : Option SalesDimension) :
    (amountColumns facts).IsSumOf (groupAmounts facts groupBy thenBy) := by
  simp only [Amounts.IsSumOf, groupAmounts, amountColumns, List.map_map, Function.comp_def,
    sumWhere_groups, sum_groups]

/-- Amounts that are shown rounded add up to half a unit for each one. -/
theorem abs_sum_money_sub_le (amounts : List ℚ) :
    |(amounts.map money).sum - money amounts.sum| ≤ halfUnit 4 * (amounts.length + 1) := by
  have each : |(amounts.map money).sum - (amounts.map fun x => x).sum| ≤
      (amounts.map fun _ => halfUnit 4).sum :=
    abs_sum_sub_sum_le fun x _ => abs_money_sub_le x
  have whole := abs_money_sub_le amounts.sum
  rw [List.map_id', List.map_const', List.sum_replicate, nsmul_eq_mul, mul_comm] at each
  rw [abs_sub_comm] at whole
  calc |(amounts.map money).sum - money amounts.sum|
      ≤ |(amounts.map money).sum - amounts.sum| + |amounts.sum - money amounts.sum| :=
        abs_sub_le _ _ _
    _ ≤ halfUnit 4 * amounts.length + halfUnit 4 := add_le_add each whole
    _ = halfUnit 4 * (amounts.length + 1) := by ring

/-- The documents of a group are counted once, so that groups with no document in
common add up. -/
theorem countDocs_groups (kind : Fact → Bool)
    (same : ∀ f ∈ facts, ∀ g ∈ facts, f.docId = g.docId →
      groupKey groupBy thenBy f = groupKey groupBy thenBy g) :
    ((groupKeys facts groupBy thenBy).map fun key =>
      countDocs kind (groupFacts facts groupBy thenBy key)).sum = countDocs kind facts := by
  let docs := ((facts.filter kind).map Fact.docId).dedup
  let keyOf (id : ℕ) : Option GroupKey :=
    (facts.find? fun f => f.docId = id).map (groupKey groupBy thenBy)
  have keyOf_docId : ∀ f ∈ facts, keyOf f.docId = some (groupKey groupBy thenBy f) := by
    intro f hf
    cases found : facts.find? fun g => g.docId = f.docId with
    | none => exact absurd (decide_eq_true rfl) (List.find?_eq_none.mp found f hf)
    | some g =>
      have member := List.mem_of_find?_eq_some found
      have sameDoc : g.docId = f.docId := by simpa using List.find?_some found
      simp only [keyOf, found, Option.map_some, same g member f hf sameDoc]
  have group : ∀ key, countDocs kind (groupFacts facts groupBy thenBy key) =
      docs.countP fun id => keyOf id = some key := by
    intro key
    rw [countDocs, List.countP_eq_length_filter]
    refine List.Perm.length_eq ((List.perm_ext_iff_of_nodup (List.nodup_dedup _)
      ((List.nodup_dedup _).filter _)).mpr fun id => ?_)
    simp only [groupFacts, List.mem_dedup, List.mem_filter, List.mem_map, decide_eq_true_eq]
    constructor
    · rintro ⟨f, ⟨⟨hf, inGroup⟩, isKind⟩, rfl⟩
      exact ⟨⟨f, ⟨hf, isKind⟩, rfl⟩, inGroup ▸ keyOf_docId f hf⟩
    · rintro ⟨⟨f, ⟨hf, isKind⟩, rfl⟩, found⟩
      rw [keyOf_docId f hf] at found
      exact ⟨f, ⟨⟨hf, Option.some_injective _ found⟩, isKind⟩, rfl⟩
  have cover : ∀ id ∈ docs, keyOf id ∈ (groupKeys facts groupBy thenBy).map some := by
    intro id hid
    obtain ⟨f, hf, rfl⟩ := List.mem_map.mp (List.mem_dedup.mp hid)
    have member := List.mem_of_mem_filter hf
    rw [keyOf_docId f member]
    exact List.mem_map_of_mem (mem_groupKeys member)
  have all := sum_sumWhere_key (f := fun _ => (1 : ℕ))
    (nodup_groupKeys.map (Option.some_injective GroupKey)) cover
  simp only [List.map_map, Function.comp_def, sumWhere_one] at all
  simp only [group]
  rw [all]
  simp [docs, countDocs]

/-! ## The periods -/

theorem isoOf_eq (m : JalaliMonth) (jd : ℤ) : isoOf m jd = m.startUtc + jd - 1 := by
  obtain ⟨gy, gm, gd, converted, -, day⟩ := jalaliToGregorian_day m.year m.month jd
  simp only [isoOf, converted, day, m.startUtc_eq_days, jalaliDays]
  ring

theorem index_monthOfIndex (index : ℤ) : (monthOfIndex index).index = index + 1 := by
  simp only [JalaliMonth.index, monthOfIndex]
  omega

theorem valid_monthOfIndex {index : ℤ} (h : 980 * 12 ≤ index) : (monthOfIndex index).Valid := by
  simp only [JalaliMonth.Valid, monthOfIndex]
  omega

theorem unit_pos (unit : ReportPeriodUnit) : 1 ≤ unit.months := by
  cases unit <;> decide

variable {day : JalaliMonth} {unit : ReportPeriodUnit}

theorem le_unitStart (h : day.Valid) {offset : ℤ} (later : 0 ≤ offset) :
    980 * 12 ≤ unitStart day unit offset := by
  obtain ⟨year, first, last⟩ := h
  have forward : 0 ≤ offset * unit.months :=
    mul_nonneg later (zero_le_one.trans (unit_pos unit))
  have start : 0 ≤ (day.month - 1) / unit.months * unit.months :=
    mul_nonneg (Int.ediv_nonneg (by omega) (zero_le_one.trans (unit_pos unit)))
      (zero_le_one.trans (unit_pos unit))
  unfold unitStart monthIndex unitStartMonth
  omega

/-- A period ends before the later ones begin. -/
theorem unitRange_lt (h : day.Valid) {a b : ℤ} (first : 0 ≤ a) (before : a < b) :
    (unitRange day unit a).toDay < (unitRange day unit b).fromDay := by
  have months := unit_pos unit
  have step : unitStart day unit a + unit.months ≤ unitStart day unit b := by
    have next : (a + 1) * unit.months ≤ b * unit.months :=
      mul_le_mul_of_nonneg_right before (zero_le_one.trans months)
    unfold unitStart
    linarith
  have low : 980 * 12 ≤ unitStart day unit a := le_unitStart h first
  have last : (monthOfIndex (unitStart day unit a + unit.months - 1)).Valid :=
    valid_monthOfIndex (by omega)
  have start : (monthOfIndex (unitStart day unit b)).Valid := valid_monthOfIndex (by omega)
  have apart := last.next_startUtc_le start (by rw [index_monthOfIndex, index_monthOfIndex]; omega)
  simp only [unitRange, isoOf_eq, JalaliMonth.days]
  omega

/-- The periods are apart. -/
def Apart (buckets : List PeriodBucket) : Prop :=
  buckets.Pairwise fun a b => a.range.toDay < b.range.fromDay

theorem bucketsFrom_of_past {toDay offset : ℤ} {remaining : ℕ}
    (past : toDay < (unitRange day unit offset).fromDay) :
    bucketsFrom day unit toDay remaining offset = some [] := by
  cases remaining <;> exact if_pos past

theorem bucketsFrom_zero {toDay offset : ℤ} (within : ¬toDay < (unitRange day unit offset).fromDay) :
    bucketsFrom day unit toDay 0 offset = none := if_neg within

theorem bucketsFrom_succ {toDay offset : ℤ} {remaining : ℕ}
    (within : ¬toDay < (unitRange day unit offset).fromDay) :
    bucketsFrom day unit toDay (remaining + 1) offset =
      (bucketsFrom day unit toDay remaining (offset + 1)).map
        ({ key := periodKey (monthOfIndex (unitStart day unit offset)) unit
           range := unitRange day unit offset } :: ·) := if_neg within

/-- The periods found are those of later and later offsets. -/
theorem bucketsFrom_spec (h : day.Valid) {toDay : ℤ} {remaining : ℕ} :
    ∀ {offset : ℤ} {buckets : List PeriodBucket}, 0 ≤ offset →
      bucketsFrom day unit toDay remaining offset = some buckets →
        Apart buckets ∧ ∀ bucket ∈ buckets, ∃ o, offset ≤ o ∧ bucket.range = unitRange day unit o := by
  induction remaining with
  | zero =>
      intro offset buckets _ found
      by_cases past : toDay < (unitRange day unit offset).fromDay
      · obtain rfl := Option.some.inj ((bucketsFrom_of_past past).symm.trans found)
        exact ⟨List.Pairwise.nil, fun bucket member => absurd member List.not_mem_nil⟩
      · rw [bucketsFrom_zero past] at found
        cases found
  | succ remaining ih =>
      intro offset buckets later found
      by_cases past : toDay < (unitRange day unit offset).fromDay
      · obtain rfl := Option.some.inj ((bucketsFrom_of_past past).symm.trans found)
        exact ⟨List.Pairwise.nil, fun bucket member => absurd member List.not_mem_nil⟩
      · rw [bucketsFrom_succ past] at found
        obtain ⟨rest, foundRest, rfl⟩ := Option.map_eq_some_iff.mp found
        obtain ⟨apart, ranges⟩ := ih (by omega) foundRest
        refine ⟨List.pairwise_cons.mpr ⟨fun bucket member => ?_, apart⟩, fun bucket member => ?_⟩
        · obtain ⟨o, after, range⟩ := ranges bucket member
          rw [range]
          exact unitRange_lt h later (by omega)
        · rcases List.mem_cons.mp member with rfl | inRest
          · exact ⟨offset, le_rfl, rfl⟩
          · obtain ⟨o, after, range⟩ := ranges bucket inRest
            exact ⟨o, by omega, range⟩

theorem apart_periodBuckets {firstDay : StorageDate} {toDay : ℤ} {buckets : List PeriodBucket}
    (found : periodBuckets firstDay toDay unit = some buckets) : Apart buckets :=
  (bucketsFrom_spec firstDay.jalaliMonth_spec.1 le_rfl found).1

/-- The periods of a scope, if it has any, are apart. -/
def SalesScope.Periods (scope : SalesScope) : Prop := Apart (scope.buckets.getD [])

/-- A day is of one period at most, so that its documents are counted once. -/
theorem SalesScope.Periods.keys (periods : scope.Periods) (day : ℤ) :
    ∃ key, periodKeysOf scope day = [key] := by
  have apart : ((scope.buckets.getD []).filter fun bucket => bucket.range.holds day).Pairwise
      fun a b => a.range.toDay < b.range.fromDay := periods.filter _
  have held : ∀ bucket ∈ (scope.buckets.getD []).filter fun bucket => bucket.range.holds day,
      bucket.range.holds day = true := fun bucket member => (List.mem_filter.mp member).2
  unfold periodKeysOf
  generalize (scope.buckets.getD []).filter (fun bucket => bucket.range.holds day) = buckets
    at apart held
  match buckets with
  | [] => exact ⟨none, rfl⟩
  | [bucket] => exact ⟨some bucket.key, rfl⟩
  | first :: second :: rest =>
    exfalso
    have inFirst := held first List.mem_cons_self
    have inSecond := held second (List.mem_cons_of_mem _ List.mem_cons_self)
    have before := (List.pairwise_cons.mp apart).1 second List.mem_cons_self
    simp only [ReportRange.holds, Bool.and_eq_true, decide_eq_true_eq] at inFirst inSecond
    omega

/-! ## From documents to facts -/

theorem toBaseDoc_of_viewDoc {view : CurrencyView} {sb : BaseDoc} {sd : ViewDoc}
    (h : viewDoc view sb = some sd) : sd.toBaseDoc = sb := by
  unfold viewDoc at h
  split at h
  · split at h
    · obtain rfl := Option.some.inj h
      rfl
    · obtain ⟨rate, -, rfl⟩ := Option.map_eq_some_iff.mp h
      rfl
  · split at h
    · obtain rfl := Option.some.inj h
      rfl
    · cases h

theorem mem_salesDocs {sd : ViewDoc} (h : sd ∈ salesDocs books scope) :
    ∃ d ∈ rangeDocs books scope.range, viewDoc scope.currency (baseDoc books d) = some sd := by
  obtain ⟨sb, hsb, viewed⟩ := List.mem_filterMap.mp h
  obtain ⟨d, hd, rfl⟩ := List.mem_map.mp (List.mem_of_mem_filter hsb)
  exact ⟨d, hd, viewed⟩

/-- A document is there once. -/
theorem eq_of_docId {sd sd' : ViewDoc} (h : sd ∈ salesDocs books scope)
    (h' : sd' ∈ salesDocs books scope) (same : sd.id = sd'.id) : sd = sd' := by
  obtain ⟨d, hd, viewed⟩ := mem_salesDocs h
  obtain ⟨d', hd', viewed'⟩ := mem_salesDocs h'
  rw [toBaseDoc_of_viewDoc viewed, toBaseDoc_of_viewDoc viewed'] at same
  have one : d = d' := List.inj_on_of_nodup_map books.documentIds (List.mem_of_mem_filter hd)
    (List.mem_of_mem_filter hd') same
  rw [one, viewed'] at viewed
  exact (Option.some.inj viewed).symm

theorem mem_salesFacts {f : Fact} (h : f ∈ salesFacts books scope) :
    ∃ sd ∈ salesDocs books scope, ∃ itemId, ∃ key ∈ periodKeysOf scope sd.day,
      f = fact books sd itemId key := by
  obtain ⟨sd, hsd, hf⟩ := List.mem_flatMap.mp (List.mem_of_mem_filter h)
  obtain ⟨itemId, -, hf⟩ := List.mem_flatMap.mp hf
  obtain ⟨key, hkey, rfl⟩ := List.mem_map.mp hf
  exact ⟨sd, hsd, itemId, key, hkey, rfl⟩

/-- A dimension in which a document has one place. -/
def SalesDimension.ofDocument : SalesDimension → Bool
  | .item | .category => false
  | .customer | .period | .project | .channel => true

theorem key_eq_of_docId (periods : scope.Periods) {dimension : SalesDimension}
    (ofDocument : dimension.ofDocument = true) {f g : Fact} (hf : f ∈ salesFacts books scope)
    (hg : g ∈ salesFacts books scope) (same : f.docId = g.docId) :
    dimension.key f = dimension.key g := by
  obtain ⟨sd, hsd, itemId, key, hkey, rfl⟩ := mem_salesFacts hf
  obtain ⟨sd', hsd', itemId', key', hkey', rfl⟩ := mem_salesFacts hg
  obtain rfl := eq_of_docId hsd hsd' same
  obtain ⟨only, single⟩ := periods.keys sd.day
  rw [single, List.mem_singleton] at hkey hkey'
  cases dimension with
  | item | category => cases ofDocument
  | customer | project | channel => rfl
  | period =>
    rw [hkey, hkey']
    rfl

/-- Under the documents' dimensions the counts of the groups add up too. -/
theorem countDocs_salesFacts (periods : scope.Periods) (first : groupBy.ofDocument = true)
    (second : ∀ dimension ∈ thenBy, dimension.ofDocument = true) (kind : Fact → Bool) :
    ((groupKeys (salesFacts books scope) groupBy thenBy).map fun key =>
      countDocs kind (groupFacts (salesFacts books scope) groupBy thenBy key)).sum =
        countDocs kind (salesFacts books scope) := by
  refine countDocs_groups kind fun f hf g hg same => ?_
  refine Prod.ext (key_eq_of_docId periods first hf hg same) ?_
  cases thenBy with
  | none => rfl
  | some dimension =>
    exact congrArg some (key_eq_of_docId periods (second dimension rfl) hf hg same)

/-! ## Filters -/

theorem flatMap_filter {α β : Type*} {p : α → Bool} {q : β → Bool} {g : α → List β}
    (h : ∀ a, ∀ b ∈ g a, q b = p a) (rows : List α) :
    (rows.filter p).flatMap g = (rows.flatMap g).filter q := by
  induction rows with
  | nil => rfl
  | cons a rows ih =>
      rw [List.flatMap_cons, List.filter_append, ← ih]
      by_cases keeps : p a = true
      · have all : (g a).filter q = g a :=
          List.filter_eq_self.mpr fun b hb => (h a b hb).trans keeps
        rw [List.filter_cons_of_pos keeps, List.flatMap_cons, all]
      · have nothing : (g a).filter q = [] :=
          List.filter_eq_nil_iff.mpr fun b hb => (h a b hb).symm ▸ keeps
        rw [List.filter_cons_of_neg keeps, nothing, List.nil_append]

variable {scope' : SalesScope} {p : BaseDoc → Bool} {q : Fact → Bool}

theorem salesDocs_of_docFilter (range : scope'.range = scope.range)
    (currency : scope'.currency = scope.currency)
    (docs : ∀ b, docFilter scope' b = (docFilter scope b && p b)) :
    salesDocs books scope' = (salesDocs books scope).filter fun sd => p sd.toBaseDoc := by
  rw [salesDocs, salesDocs, salesBase, salesBase, range, currency, List.filter_filterMap,
    List.filterMap_filter, List.filterMap_filter]
  refine List.filterMap_congr fun sb _ => ?_
  rw [docs]
  cases docFilter scope sb with
  | false => rfl
  | true =>
    cases viewed : viewDoc scope.currency sb with
    | none => simp
    | some sd =>
      have base := toBaseDoc_of_viewDoc viewed
      cases keeps : p sb <;> simp [Option.filter, base, keeps]

/-- A further filter on the documents is one on their facts. -/
theorem salesFacts_of_docFilter (range : scope'.range = scope.range)
    (currency : scope'.currency = scope.currency) (buckets : scope'.buckets = scope.buckets)
    (lines : lineFilter scope' = lineFilter scope)
    (docs : ∀ b, docFilter scope' b = (docFilter scope b && p b))
    (facts : ∀ sd itemId key, q (fact books sd itemId key) = p sd.toBaseDoc) :
    salesFacts books scope' = (salesFacts books scope).filter q := by
  have each : docFacts books scope' = docFacts books scope := by
    funext sd
    simp only [docFacts, periodKeysOf, buckets]
  rw [salesFacts, salesFacts, lines, each, salesDocs_of_docFilter range currency docs,
    List.filter_comm, flatMap_filter]
  intro sd f hf
  obtain ⟨itemId, -, hf⟩ := List.mem_flatMap.mp hf
  obtain ⟨key, -, rfl⟩ := List.mem_map.mp hf
  exact facts sd itemId key

/-- A further filter on the lines is one on the facts. -/
theorem salesFacts_of_lineFilter (docs : salesDocs books scope' = salesDocs books scope)
    (buckets : scope'.buckets = scope.buckets)
    (lines : ∀ f, lineFilter scope' f = (lineFilter scope f && q f)) :
    salesFacts books scope' = (salesFacts books scope).filter q := by
  have each : docFacts books scope' = docFacts books scope := by
    funext sd
    simp only [docFacts, periodKeysOf, buckets]
  rw [salesFacts, salesFacts, docs, each, List.filter_filter]
  exact List.filter_congr fun f _ => (lines f).trans (Bool.and_comm _ _)

/-- The values of each filter, with the facts that have none, partition the facts of
a scope that has no such filter yet. -/
structure FiltersPartition (books : Books) (scope : SalesScope) : Prop where
  party : scope.partyId = none → ∀ ids : List ℕ, ids.Nodup → (∀ id ∈ ids, id ≠ 0) →
    (∀ f ∈ salesFacts books scope, ∀ id ∈ f.partyId, id ∈ ids) →
      ((salesFacts books scope).filter (fun f => f.partyId = none) ++
        ids.flatMap fun id => salesFacts books { scope with partyId := some id }).Perm
          (salesFacts books scope)
  project : scope.projectId = none → ∀ ids : List ℕ, ids.Nodup → (∀ id ∈ ids, id ≠ 0) →
    (∀ f ∈ salesFacts books scope, ∀ id ∈ f.projectId, id ∈ ids) →
      ((salesFacts books scope).filter (fun f => f.projectId = none) ++
        ids.flatMap fun id => salesFacts books { scope with projectId := some id }).Perm
          (salesFacts books scope)
  channel : scope.channel = none →
    ([SalesChannel.online, .direct].flatMap fun channel =>
      salesFacts books { scope with channel := some channel }).Perm (salesFacts books scope)
  item : scope.itemId = none → ∀ ids : List ℕ, ids.Nodup → (∀ id ∈ ids, id ≠ 0) →
    (∀ f ∈ salesFacts books scope, f.itemId ∈ ids) →
      (ids.flatMap fun id => salesFacts books { scope with itemId := some id }).Perm
        (salesFacts books scope)
  category : scope.category = none → ∀ categories : List String,
    (categories.map fun c => (Aging.btrim c).toLower).Nodup →
      (∀ f ∈ salesFacts books scope, f.category.toLower ∈
        categories.map fun c => (Aging.btrim c).toLower) →
        (categories.flatMap fun c => salesFacts books { scope with category := some c }).Perm
          (salesFacts books scope)

/-- The facts without a value and those of each value. -/
theorem perm_of_values {key : Fact → Option ℕ} {ids : List ℕ} (nodup : ids.Nodup)
    (cover : ∀ f ∈ facts, ∀ id ∈ key f, id ∈ ids) :
    (facts.filter (fun f => key f = none) ++
      ids.flatMap fun id => facts.filter fun f => key f = some id).Perm facts := by
  have fresh : (none :: ids.map some).Nodup :=
    List.nodup_cons.mpr ⟨by simp, nodup.map (Option.some_injective ℕ)⟩
  have values : ∀ f ∈ facts, key f ∈ none :: ids.map some := by
    intro f hf
    cases value : key f with
    | none => exact List.mem_cons_self
    | some id => exact List.mem_cons_of_mem _ (List.mem_map_of_mem (cover f hf id value))
  have whole := flatMap_filter_perm fresh values
  rwa [List.flatMap_cons, List.flatMap_map] at whole

theorem idFilter_none (value : Option ℕ) : idFilter none value = true := rfl

theorem idFilter_some {id : ℕ} (h : id ≠ 0) (value : Option ℕ) :
    idFilter (some id) value = decide (value = some id) := by
  simp [idFilter, h]

theorem filtersPartition (books : Books) (scope : SalesScope) : FiltersPartition books scope := by
  constructor
  case party =>
    intro off ids nodup nonzero cover
    have each : ∀ id ∈ ids, salesFacts books { scope with partyId := some id } =
        (salesFacts books scope).filter fun f => f.partyId = some id := by
      intro id hid
      refine salesFacts_of_docFilter (p := fun b => b.partyId = some id) rfl rfl rfl rfl
        (fun b => ?_) fun _ _ _ => rfl
      simp only [docFilter, off, idFilter_some (nonzero id hid)]
      simp only [idFilter_none, Bool.true_and, Bool.and_comm, Bool.and_assoc]
    rw [List.flatMap_congr each]
    exact perm_of_values nodup cover
  case project =>
    intro off ids nodup nonzero cover
    have each : ∀ id ∈ ids, salesFacts books { scope with projectId := some id } =
        (salesFacts books scope).filter fun f => f.projectId = some id := by
      intro id hid
      refine salesFacts_of_docFilter (p := fun b => b.projectId = some id) rfl rfl rfl rfl
        (fun b => ?_) fun _ _ _ => rfl
      simp only [docFilter, off, idFilter_some (nonzero id hid)]
      simp only [idFilter_none, Bool.true_and, Bool.and_comm, Bool.and_assoc]
    rw [List.flatMap_congr each]
    exact perm_of_values nodup cover
  case channel =>
    intro off
    have each : ∀ channel ∈ [SalesChannel.online, .direct],
        salesFacts books { scope with channel := some channel } =
          (salesFacts books scope).filter fun f => f.channel = channel := by
      intro channel _
      refine salesFacts_of_docFilter (p := fun b => b.channel = channel) rfl rfl rfl rfl
        (fun b => ?_) fun _ _ _ => rfl
      simp [docFilter, off]
    rw [List.flatMap_congr each]
    refine flatMap_filter_perm (by decide) fun f _ => ?_
    cases f.channel <;> decide
  case item =>
    intro off ids nodup nonzero cover
    have each : ∀ id ∈ ids, salesFacts books { scope with itemId := some id } =
        (salesFacts books scope).filter fun f => f.itemId = id := by
      intro id hid
      refine salesFacts_of_lineFilter rfl rfl fun f => ?_
      simp only [lineFilter, off, idFilter_some (nonzero id hid)]
      simp only [idFilter_none, Bool.true_and, Option.some.injEq, Bool.and_comm]
    rw [List.flatMap_congr each]
    exact flatMap_filter_perm nodup cover
  case category =>
    intro off categories nodup cover
    have each : ∀ c ∈ categories, salesFacts books { scope with category := some c } =
        (salesFacts books scope).filter fun f => f.category.toLower = (Aging.btrim c).toLower := by
      intro c _
      refine salesFacts_of_lineFilter rfl rfl fun f => ?_
      simp [lineFilter, off]
    have whole : ((categories.map fun c => (Aging.btrim c).toLower).flatMap fun value =>
        (salesFacts books scope).filter fun f => f.category.toLower = value).Perm
          (salesFacts books scope) := flatMap_filter_perm nodup cover
    rw [List.flatMap_congr each]
    rwa [List.flatMap_map] at whole

end PapitalErp.Sales
