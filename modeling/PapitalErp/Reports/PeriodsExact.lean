import PapitalErp.Reports.ReportPeriods

/-!
# The periods of a range are exact

The periods are whole, consecutive and cover the range, and their keys are in the
order of their texts. A comparison is with the months, the unit or the days that it
names, but for one defect: the conversion of 1 Bahman and 1 Esfand 979 is a day late,
and a range of whole months over 298 years is compared with a range that begins there.
-/

namespace PapitalErp.ReportPeriods

open GregorianCalendar Sales SalesReports

variable {first last day : StorageDate} {unit : ReportPeriodUnit}

/-! ## Days and months -/

theorem jalaliOf_spec (iso : StorageDate) :
    (jalaliOf iso).1.Valid ∧ isoToUtc iso = (jalaliOf iso).1.startUtc + (jalaliOf iso).2 - 1 ∧
      1 ≤ (jalaliOf iso).2 ∧ (jalaliOf iso).2 ≤ (jalaliOf iso).1.days := by
  rw [jalaliOf, gregorianToJalali_iso]
  exact jalaliDay_spec (by linarith [(isoToUtc_bounds iso).1])

variable {m m' : JalaliMonth}

theorem startUtc_lt (h : m.Valid) (h' : m'.Valid) (before : m.index < m'.index) :
    m.startUtc < m'.startUtc := by
  have next := h.next_startUtc_le h' before
  have days := h.days_bounds
  unfold JalaliMonth.days at days
  omega

/-- Months in order begin in order. -/
theorem startUtc_le_iff (h : m.Valid) (h' : m'.Valid) :
    m.startUtc ≤ m'.startUtc ↔ m.index ≤ m'.index := by
  constructor
  · intro start
    by_contra before
    have := startUtc_lt h' h (not_le.mp before)
    omega
  · intro order
    rcases order.lt_or_eq with before | same
    · exact (startUtc_lt h h' before).le
    · rw [h.eq_of_index h' same]

/-- `monthIndex` of a month. -/
theorem monthIndex_eq (m : JalaliMonth) : monthIndex m.year m.month = m.index - 1 := by
  unfold monthIndex JalaliMonth.index
  ring

theorem monthOfIndex_index (h : m.Valid) : monthOfIndex (m.index - 1) = m := by
  obtain ⟨year, month⟩ := m
  obtain ⟨-, first, last⟩ := h
  simp only [monthOfIndex, JalaliMonth.index, JalaliMonth.mk.injEq] at *
  omega

theorem next_monthOfIndex (index : ℤ) : (monthOfIndex index).next = monthOfIndex (index + 1) := by
  unfold JalaliMonth.next monthOfIndex
  split_ifs with december <;> simp only [JalaliMonth.mk.injEq] at * <;> omega

/-- A day comes in a month or after it as its own month does. -/
theorem startUtc_le_isoToUtc_iff (iso : StorageDate) {index : ℤ} (later : 980 * 12 ≤ index) :
    (monthOfIndex index).startUtc ≤ isoToUtc iso ↔
      index ≤ monthIndex (jalaliOf iso).1.year (jalaliOf iso).1.month := by
  obtain ⟨valid, day, one, inMonth⟩ := jalaliOf_spec iso
  have month := valid_monthOfIndex later
  have order := index_monthOfIndex index
  rw [monthIndex_eq]
  constructor
  · intro start
    by_contra before
    have := valid.next_startUtc_le month (by omega)
    unfold JalaliMonth.days at inMonth
    omega
  · intro before
    have := (startUtc_le_iff month valid).mpr (by omega)
    omega

/-! ## The keys -/

/-- Stored dates are in the years 1278 to 1578. -/
theorem year_bounds (iso : StorageDate) :
    1278 ≤ (jalaliOf iso).1.year ∧ (jalaliOf iso).1.year ≤ 1578 := by
  obtain ⟨low, high⟩ := isoToUtc_bounds iso
  obtain ⟨⟨year, first, last⟩, day, one, inMonth⟩ := jalaliOf_spec iso
  have days := (jalaliOf_spec iso).1.days_bounds
  rw [JalaliMonth.startUtc_eq] at day
  unfold dayFromYear jalaliNewYear at day
  constructor <;> split_ifs at day <;> omega

/-- A year of four digits, as the keys begin. -/
def FourDigits (m : JalaliMonth) : Prop := 1000 ≤ m.year ∧ m.year < 10000

/-- What follows the year in the key of a unit. -/
def keyTail (m : JalaliMonth) : ReportPeriodUnit → String
  | .year => ""
  | .quarter => "/Q" ++ toString ((m.month - 1) / 3 + 1)
  | .month => "/" ++ pad2 m.month

theorem toList_periodKey (h : FourDigits m) :
    ∃ n : ℕ, (n : ℤ) = m.year ∧
      (periodKey m unit).toList = Nat.toDigits 10 n ++ (keyTail m unit).toList := by
  obtain ⟨n, hn⟩ := Int.eq_ofNat_of_zero_le (show 0 ≤ m.year by have := h.1; omega)
  have digits : (toString m.year).toList = Nat.toDigits 10 n := by
    rw [hn]
    exact Nat.toList_repr
  refine ⟨n, hn.symm, ?_⟩
  cases unit with
  | year => simp only [periodKey, keyTail, digits, String.toList_empty, List.append_nil]
  | quarter => simp only [periodKey, keyTail, String.toList_append, digits, List.append_assoc]
  | month => simp only [periodKey, keyTail, String.toList_append, digits, List.append_assoc]

theorem quarterTail_lt : ∀ a ∈ [1, 2, 3, 4], ∀ b ∈ [1, 2, 3, 4], a < b →
    ("/Q" ++ toString (a : ℤ)).toList < ("/Q" ++ toString b).toList := by decide +kernel

theorem monthTail_lt : ∀ a ∈ [1, 2, 3, 4, 5, 6, 7, 8, 9, 10, 11, 12],
    ∀ b ∈ [1, 2, 3, 4, 5, 6, 7, 8, 9, 10, 11, 12], a < b →
      ("/" ++ pad2 a).toList < ("/" ++ pad2 b).toList := by decide +kernel

/-- The keys of later units are later texts. -/
theorem periodKey_lt (h : m.Valid) (h' : m'.Valid) (digits : FourDigits m) (digits' : FourDigits m')
    (before : unitStart m unit 0 < unitStart m' unit 0) : periodKey m unit < periodKey m' unit := by
  obtain ⟨n, year, text⟩ : ∃ n : ℕ, (n : ℤ) = m.year ∧
      (periodKey m unit).toList = Nat.toDigits 10 n ++ (keyTail m unit).toList :=
    toList_periodKey digits
  obtain ⟨n', year', text'⟩ : ∃ n : ℕ, (n : ℤ) = m'.year ∧
      (periodKey m' unit).toList = Nat.toDigits 10 n ++ (keyTail m' unit).toList :=
    toList_periodKey digits'
  change (periodKey m unit).toList < (periodKey m' unit).toList
  rw [text, text']
  obtain ⟨-, first, last⟩ := h
  obtain ⟨-, first', last'⟩ := h'
  have years : n ≤ n' := by
    unfold unitStart monthIndex unitStartMonth ReportPeriodUnit.months at before
    cases unit <;> dsimp only at before <;> omega
  rcases years.lt_or_eq with earlier | same
  · refine DecimalTexts.toDigits_append_lt earlier ?_ _ _
    unfold FourDigits at digits digits'
    rw [DecimalTexts.length_toDigits_four (by omega) (by omega),
      DecimalTexts.length_toDigits_four (by omega) (by omega)]
  · rw [same]
    refine List.append_left_lt ?_
    unfold unitStart monthIndex unitStartMonth ReportPeriodUnit.months at before
    cases unit with
    | year => dsimp only at before; omega
    | quarter =>
      dsimp only at before
      refine quarterTail_lt _ ?_ _ ?_ (by omega)
      · simp only [List.mem_cons, List.not_mem_nil, or_false]
        omega
      · simp only [List.mem_cons, List.not_mem_nil, or_false]
        omega
    | month =>
      dsimp only at before
      refine monthTail_lt _ ?_ _ ?_ (by omega)
      · simp only [List.mem_cons, List.not_mem_nil, or_false]
        omega
      · simp only [List.mem_cons, List.not_mem_nil, or_false]
        omega

/-- A key is of one unit. -/
theorem periodKey_eq_iff (h : m.Valid) (h' : m'.Valid) (digits : FourDigits m)
    (digits' : FourDigits m') :
    periodKey m unit = periodKey m' unit ↔ unitStart m unit 0 = unitStart m' unit 0 := by
  constructor
  · intro same
    rcases lt_trichotomy (unitStart m unit 0) (unitStart m' unit 0) with before | equal | after
    · exact absurd (same ▸ periodKey_lt h h' digits digits' before) (lt_irrefl _)
    · exact equal
    · exact absurd (same ▸ periodKey_lt h' h digits' digits after) (lt_irrefl _)
  · intro same
    obtain ⟨year, month⟩ := m
    obtain ⟨year', month'⟩ := m'
    obtain ⟨-, first, last⟩ := h
    obtain ⟨-, first', last'⟩ := h'
    unfold unitStart monthIndex unitStartMonth ReportPeriodUnit.months at same
    cases unit with
    | year =>
      dsimp only at *
      obtain rfl : year = year' := by omega
      rfl
    | quarter =>
      dsimp only at *
      obtain rfl : year = year' := by omega
      have quarter : (month - 1) / 3 = (month' - 1) / 3 := by omega
      simp only [periodKey, quarter]
    | month =>
      dsimp only at *
      obtain rfl : year = year' := by omega
      obtain rfl : month = month' := by omega
      rfl

/-! ## The periods -/

/-- The period at an offset from the one of a month. -/
def bucketAt (m : JalaliMonth) (unit : ReportPeriodUnit) (offset : ℤ) : PeriodBucket where
  key := periodKey (monthOfIndex (unitStart m unit offset)) unit
  range := unitRange m unit offset

/-- The loop lists the periods that begin in the range, or gives up when there are more
than it may list. -/
theorem bucketsFrom_eq (m : JalaliMonth) (unit : ReportPeriodUnit) (toDay : ℤ) (remaining : ℕ) :
    ∀ offset : ℤ,
      (bucketsFrom m unit toDay remaining offset = none ∧
        ∀ i : ℕ, i ≤ remaining → (unitRange m unit (offset + i)).fromDay ≤ toDay) ∨
      ∃ k ≤ remaining, bucketsFrom m unit toDay remaining offset =
          some ((List.range k).map fun i : ℕ => bucketAt m unit (offset + i)) ∧
        (∀ i < k, (unitRange m unit (offset + i)).fromDay ≤ toDay) ∧
          toDay < (unitRange m unit (offset + k)).fromDay := by
  induction remaining with
  | zero =>
    intro offset
    by_cases past : toDay < (unitRange m unit offset).fromDay
    · refine Or.inr ⟨0, le_rfl, bucketsFrom_of_past past, fun i hi => absurd hi i.not_lt_zero, ?_⟩
      simpa using past
    · refine Or.inl ⟨bucketsFrom_zero past, fun i hi => ?_⟩
      obtain rfl := Nat.le_zero.mp hi
      simpa using past
  | succ remaining ih =>
    intro offset
    by_cases past : toDay < (unitRange m unit offset).fromDay
    · refine Or.inr ⟨0, Nat.zero_le _, bucketsFrom_of_past past,
        fun i hi => absurd hi i.not_lt_zero, ?_⟩
      simpa using past
    · have shift : ∀ i : ℕ, offset + 1 + i = offset + (i + 1 : ℕ) := by
        intro i
        push_cast
        ring
      have first : (unitRange m unit (offset + (0 : ℕ))).fromDay ≤ toDay := by simpa using past
      rw [bucketsFrom_succ past]
      rcases ih (offset + 1) with ⟨tooMany, begin⟩ | ⟨k, few, found, begin, after⟩
      · refine Or.inl ⟨by rw [tooMany, Option.map_none], fun i hi => ?_⟩
        cases i with
        | zero => exact first
        | succ i =>
          rw [← shift]
          exact begin i (Nat.le_of_succ_le_succ hi)
      · refine Or.inr ⟨k + 1, Nat.succ_le_succ few, ?_, fun i hi => ?_, ?_⟩
        · rw [found, Option.map_some, List.range_succ_eq_map, List.map_cons, List.map_map]
          simp only [Function.comp_def, shift, Nat.cast_zero, add_zero]
          rfl
        · cases i with
          | zero => exact first
          | succ i =>
            rw [← shift]
            exact begin i (Nat.lt_of_succ_lt_succ hi)
        · rw [← shift]
          exact after

/-- The period's first day is its first month's. -/
theorem unitRange_fromDay (m : JalaliMonth) (unit : ReportPeriodUnit) (offset : ℤ) :
    (unitRange m unit offset).fromDay = (monthOfIndex (unitStart m unit offset)).startUtc := by
  simp only [unitRange, isoOf_eq]
  ring

/-- It ends with its last month. -/
theorem unitRange_toDay (m : JalaliMonth) (unit : ReportPeriodUnit) (offset : ℤ) :
    (unitRange m unit offset).toDay + 1 =
      (monthOfIndex (unitStart m unit offset + unit.months)).startUtc := by
  have next : (monthOfIndex (unitStart m unit offset + unit.months - 1)).next =
      monthOfIndex (unitStart m unit offset + unit.months) := by
    rw [next_monthOfIndex]
    congr 1
    ring
  simp only [unitRange, isoOf_eq, JalaliMonth.days, next]
  ring

theorem unitStart_add (m : JalaliMonth) (unit : ReportPeriodUnit) (offset : ℤ) :
    unitStart m unit offset + unit.months = unitStart m unit (offset + 1) := by
  unfold unitStart
  ring

/-- A period is followed by the next one. -/
theorem unitRange_succ (m : JalaliMonth) (unit : ReportPeriodUnit) (offset : ℤ) :
    (unitRange m unit offset).toDay + 1 = (unitRange m unit (offset + 1)).fromDay := by
  rw [unitRange_toDay, unitRange_fromDay, unitStart_add]

/-- A unit begins with its own first month. -/
theorem unitStart_monthOfIndex (h : m.Valid) {offset : ℤ} (unit : ReportPeriodUnit) :
    unitStart (monthOfIndex (unitStart m unit offset)) unit 0 = unitStart m unit offset := by
  unfold unitStart monthIndex unitStartMonth monthOfIndex ReportPeriodUnit.months
  obtain ⟨-, first, last⟩ := h
  cases unit <;> dsimp only <;> omega

/-- A month is in the unit whose first month is the last one not after it. -/
theorem unitStart_eq_iff (h : m.Valid) (h' : m'.Valid) {offset : ℤ} (unit : ReportPeriodUnit) :
    unitStart m' unit 0 = unitStart m unit offset ↔
      unitStart m unit offset ≤ monthIndex m'.year m'.month ∧
        monthIndex m'.year m'.month < unitStart m unit offset + unit.months := by
  unfold unitStart monthIndex unitStartMonth ReportPeriodUnit.months
  obtain ⟨-, first, last⟩ := h
  obtain ⟨-, first', last'⟩ := h'
  cases unit <;> dsimp only <;> omega

/-- The days of a period are those with its months. -/
theorem holds_unitRange (h : m.Valid) {offset : ℤ} (later : 0 ≤ offset) (iso : StorageDate) :
    (unitRange m unit offset).holds (isoToUtc iso) = true ↔
      unitStart (jalaliOf iso).1 unit 0 = unitStart m unit offset := by
  have low : 980 * 12 ≤ unitStart m unit offset := le_unitStart h later
  have months := unit_pos unit
  have start := startUtc_le_isoToUtc_iff iso low
  have finish := startUtc_le_isoToUtc_iff iso
    (show 980 * 12 ≤ unitStart m unit offset + unit.months by omega)
  have upTo : isoToUtc iso ≤ (unitRange m unit offset).toDay ↔
      ¬(monthOfIndex (unitStart m unit offset + unit.months)).startUtc ≤ isoToUtc iso := by
    rw [← unitRange_toDay]
    omega
  rw [unitStart_eq_iff h (jalaliOf_spec iso).1, ReportRange.holds, Bool.and_eq_true,
    decide_eq_true_eq, decide_eq_true_eq, unitRange_fromDay, start, upTo, finish, not_le]

/-- A list of periods: whole, consecutive, covering the range and no more, in the order
of their keys, and each with the key of its days. -/
structure Periods (first last : StorageDate) (unit : ReportPeriodUnit)
    (buckets : List PeriodBucket) : Prop where
  whole : ∀ bucket ∈ buckets, ∃ m : JalaliMonth, m.Valid ∧ unit.months ∣ m.month - 1 ∧
    bucket.key = periodKey m unit ∧ bucket.range.fromDay = m.startUtc ∧
      bucket.range.toDay + 1 = (monthOfIndex (m.index - 1 + unit.months)).startUtc
  consecutive : buckets.IsChain fun a b => a.range.toDay + 1 = b.range.fromDay
  covers : ∀ n, isoToUtc first ≤ n → n ≤ isoToUtc last →
    ∃ bucket ∈ buckets, bucket.range.holds n = true
  meets : ∀ bucket ∈ buckets, bucket.range.fromDay ≤ isoToUtc last ∧
    isoToUtc first ≤ bucket.range.toDay
  ordered : (buckets.map PeriodBucket.key).Pairwise (· < ·)
  keys : ∀ bucket ∈ buckets, ∀ day : StorageDate,
    bucket.range.holds (isoToUtc day) = true ↔ periodKeyOf day unit = bucket.key

theorem exists_between {f : ℕ → ℤ} {n : ℤ} (first : f 0 ≤ n) {k : ℕ} (last : n < f k) :
    ∃ i < k, f i ≤ n ∧ n < f (i + 1) := by
  induction k with
  | zero => exact absurd (first.trans_lt last) (lt_irrefl _)
  | succ k ih =>
    by_cases before : n < f k
    · obtain ⟨i, hi, holds⟩ := ih before
      exact ⟨i, hi.trans k.lt_succ_self, holds⟩
    · exact ⟨k, k.lt_succ_self, not_lt.mp before, last⟩

/-- The first day is in the first period. -/
theorem first_mem (first : StorageDate) (unit : ReportPeriodUnit) :
    (unitRange (jalaliOf first).1 unit 0).holds (isoToUtc first) = true :=
  (holds_unitRange (jalaliOf_spec first).1 le_rfl first).mpr rfl

/-- A month in a range of stored dates has a year of four digits. -/
theorem fourDigits_of_start (h : m.Valid) (iso : StorageDate) (before : m.startUtc ≤ isoToUtc iso) :
    FourDigits m ∨ m.year < 1000 := by
  have bounds := year_bounds iso
  have order := (startUtc_le_isoToUtc_iff iso
    (show 980 * 12 ≤ m.index - 1 by obtain ⟨a, b, c⟩ := h; unfold JalaliMonth.index; omega)).mp
    (by rwa [monthOfIndex_index h])
  obtain ⟨⟨year, first, last⟩, -⟩ := jalaliOf_spec iso
  obtain ⟨year', first', last'⟩ := h
  unfold FourDigits
  unfold monthIndex JalaliMonth.index at order
  omega

/-- The periods of a range. -/
theorem periods_of_bucketsFrom {k : ℕ}
    (begin : ∀ i < k, (unitRange (jalaliOf first).1 unit (i : ℤ)).fromDay ≤ isoToUtc last)
    (after : isoToUtc last < (unitRange (jalaliOf first).1 unit (k : ℤ)).fromDay) :
    Periods first last unit ((List.range k).map fun i : ℕ => bucketAt (jalaliOf first).1 unit i) := by
  have valid := (jalaliOf_spec first).1
  have years := year_bounds first
  have lowest : ∀ i : ℕ, 980 * 12 ≤ unitStart (jalaliOf first).1 unit i :=
    fun i => le_unitStart valid i.cast_nonneg
  have month : ∀ i : ℕ, (monthOfIndex (unitStart (jalaliOf first).1 unit i)).Valid :=
    fun i => valid_monthOfIndex (lowest i)
  have forward : ∀ i : ℕ, unitStart (jalaliOf first).1 unit i =
      unitStart (jalaliOf first).1 unit 0 + i * unit.months := by
    intro i
    unfold unitStart
    ring
  have months := unit_pos unit
  have digits : ∀ i < k, FourDigits (monthOfIndex (unitStart (jalaliOf first).1 unit i)) := by
    intro i hi
    have start := begin i hi
    rw [unitRange_fromDay] at start
    refine (fourDigits_of_start (month i) last start).resolve_right fun early => ?_
    have steps : 0 ≤ (i : ℤ) * unit.months :=
      mul_nonneg i.cast_nonneg (zero_le_one.trans months)
    have same := (unitStart_eq_iff valid valid unit).mp (rfl : unitStart _ unit 0 = _)
    have twelve : unit.months ≤ 12 := by cases unit <;> decide
    have first := forward i
    simp only [monthOfIndex] at early
    unfold monthIndex at same
    obtain ⟨-, one, december⟩ := valid
    omega
  constructor
  case whole =>
    intro bucket hbucket
    obtain ⟨i, hi, rfl⟩ := List.mem_map.mp hbucket
    refine ⟨monthOfIndex (unitStart (jalaliOf first).1 unit i), month i, ?_, rfl,
      unitRange_fromDay _ _ _, ?_⟩
    · obtain ⟨-, one, december⟩ := valid
      have start : unitStart (jalaliOf first).1 unit i = (jalaliOf first).1.year * 12 +
          (((jalaliOf first).1.month - 1) / unit.months + i) * unit.months := by
        unfold unitStart monthIndex unitStartMonth
        ring
      rw [start]
      unfold monthOfIndex ReportPeriodUnit.months
      cases unit <;> dsimp only <;> omega
    · have index := index_monthOfIndex (unitStart (jalaliOf first).1 unit i)
      change (unitRange (jalaliOf first).1 unit i).toDay + 1 = _
      rw [unitRange_toDay, index, add_sub_cancel_right]
  case consecutive =>
    rw [List.isChain_map]
    refine (List.isChain_range _ k).mpr fun i hi => ?_
    change (unitRange (jalaliOf first).1 unit i).toDay + 1 =
      (unitRange (jalaliOf first).1 unit ((i + 1 : ℕ) : ℤ)).fromDay
    rw [unitRange_succ, Nat.cast_add, Nat.cast_one]
  case covers =>
    intro n low high
    have start := (Bool.and_eq_true_iff.mp (first_mem first unit)).1
    have early : (unitRange (jalaliOf first).1 unit ((0 : ℕ) : ℤ)).fromDay ≤ n :=
      (of_decide_eq_true start).trans low
    obtain ⟨i, hi, from_i, to_i⟩ := exists_between
      (f := fun i : ℕ => (unitRange (jalaliOf first).1 unit (i : ℤ)).fromDay) early
      (high.trans_lt after)
    refine ⟨_, List.mem_map.mpr ⟨i, List.mem_range.mpr hi, rfl⟩, ?_⟩
    have next := unitRange_succ (jalaliOf first).1 unit i
    simp only [Nat.cast_add, Nat.cast_one] at to_i
    exact Bool.and_eq_true_iff.mpr ⟨decide_eq_true from_i, decide_eq_true (by
      change n ≤ (unitRange (jalaliOf first).1 unit i).toDay
      omega)⟩
  case meets =>
    intro bucket hbucket
    obtain ⟨i, hi, rfl⟩ := List.mem_map.mp hbucket
    refine ⟨begin i (List.mem_range.mp hi), ?_⟩
    change isoToUtc first ≤ (unitRange (jalaliOf first).1 unit i).toDay
    have inFirst := of_decide_eq_true (Bool.and_eq_true_iff.mp (first_mem first unit)).2
    have noEarlier : (unitRange (jalaliOf first).1 unit 0).toDay ≤
        (unitRange (jalaliOf first).1 unit i).toDay := by
      have steps : 0 ≤ (i : ℤ) * unit.months :=
        mul_nonneg i.cast_nonneg (zero_le_one.trans months)
      have low := lowest 0
      have start := forward i
      have order := (startUtc_le_iff
        (valid_monthOfIndex (show 980 * 12 ≤ unitStart (jalaliOf first).1 unit 0 + unit.months by
          rw [Nat.cast_zero] at low; omega))
        (valid_monthOfIndex (show 980 * 12 ≤ unitStart (jalaliOf first).1 unit i + unit.months by
          rw [Nat.cast_zero] at low; omega))).mpr (by
            rw [index_monthOfIndex, index_monthOfIndex]
            omega)
      have firstEnd := unitRange_toDay (jalaliOf first).1 unit 0
      have thisEnd := unitRange_toDay (jalaliOf first).1 unit i
      omega
    exact inFirst.trans noEarlier
  case ordered =>
    rw [List.map_map, List.pairwise_map]
    refine List.pairwise_lt_range.imp_of_mem fun {i j} hi hj before => ?_
    refine periodKey_lt (month i) (month j) (digits i (List.mem_range.mp hi))
      (digits j (List.mem_range.mp hj)) ?_
    rw [unitStart_monthOfIndex valid, unitStart_monthOfIndex valid, forward i, forward j]
    have steps : (i : ℤ) * unit.months < j * unit.months :=
      mul_lt_mul_of_pos_right (by exact_mod_cast before) (by omega)
    omega
  case keys =>
    intro bucket hbucket iso
    obtain ⟨i, hi, rfl⟩ := List.mem_map.mp hbucket
    have year := year_bounds iso
    change (unitRange (jalaliOf first).1 unit i).holds (isoToUtc iso) = true ↔ _
    rw [holds_unitRange valid i.cast_nonneg, periodKeyOf, bucketAt,
      periodKey_eq_iff (jalaliOf_spec iso).1 (month i) ⟨by omega, by omega⟩
        (digits i (List.mem_range.mp hi)), unitStart_monthOfIndex valid]

/-! ## Shifted days -/

theorem isoOfAny_eq (h : m.Valid) (jd : ℤ) : isoOfAny m jd = m.startUtc + jd - 1 := by
  have later : 979 < m.year := by have := h.1; omega
  have converted : jalaliToGregorianAny m.year m.month jd = jalaliToGregorian m.year m.month jd :=
    if_pos later
  rw [isoOfAny, converted]
  exact isoOf_eq m jd

theorem jalaliMonthLength_eq (h : m.Valid) : jalaliMonthLength m = m.days := by
  rw [jalaliMonthLength, isoOfAny_eq h.next, isoOfAny_eq h, JalaliMonth.days]
  ring

/-- The month some months away from the one of a day. -/
def monthAway (iso : StorageDate) (months : ℤ) : JalaliMonth :=
  monthOfIndex ((jalaliOf iso).1.index - 1 + months)

theorem index_monthAway (iso : StorageDate) (months : ℤ) :
    (monthAway iso months).index = (jalaliOf iso).1.index + months := by
  rw [monthAway, index_monthOfIndex]
  ring

/-- A shifted day is in the month that many months away, on its own day or, if the month
is shorter or is asked for to its end, on the last. -/
theorem shiftMonths_eq (iso : StorageDate) {months : ℤ} (h : (monthAway iso months).Valid)
    (snap : Bool) : shiftMonths (jalaliOf iso) months snap = (monthAway iso months).startUtc +
      (if snap then (monthAway iso months).days
        else min (jalaliOf iso).2 (monthAway iso months).days) - 1 := by
  have target : monthOfIndex (monthIndex (jalaliOf iso).1.year (jalaliOf iso).1.month + months) =
      monthAway iso months := by rw [monthIndex_eq, monthAway]
  unfold shiftMonths
  dsimp only
  rw [target, isoOfAny_eq h, jalaliMonthLength_eq h]

theorem index_bounds (iso : StorageDate) :
    15336 ≤ (jalaliOf iso).1.index - 1 ∧ (jalaliOf iso).1.index - 1 < 18948 := by
  obtain ⟨low, high⟩ := year_bounds iso
  obtain ⟨⟨-, first, last⟩, -⟩ := jalaliOf_spec iso
  unfold JalaliMonth.index
  omega

theorem valid_monthAway (iso : StorageDate) {months : ℤ} (few : -12 ≤ months) :
    (monthAway iso months).Valid := by
  have bounds := index_bounds iso
  exact valid_monthOfIndex (by omega)

/-- Months of days in order are in order. -/
theorem index_le (order : isoToUtc first ≤ isoToUtc last) :
    (jalaliOf first).1.index ≤ (jalaliOf last).1.index := by
  obtain ⟨valid, day, one, inMonth⟩ := jalaliOf_spec first
  obtain ⟨valid', day', one', inMonth'⟩ := jalaliOf_spec last
  by_contra before
  have := valid'.next_startUtc_le valid (not_le.mp before)
  unfold JalaliMonth.days at inMonth'
  omega

/-- Two days in order are in order when both are shifted. -/
theorem shiftMonths_le (order : isoToUtc first ≤ isoToUtc last) {months : ℤ}
    (few : -12 ≤ months) (snap : Bool) :
    shiftMonths (jalaliOf first) months false ≤ shiftMonths (jalaliOf last) months snap := by
  have validFirst := valid_monthAway first few
  have validLast := valid_monthAway last few
  have indexFirst := index_monthAway first months
  have indexLast := index_monthAway last months
  have indices := index_le order
  have firstDays := validFirst.days_bounds
  have lastDays := validLast.days_bounds
  obtain ⟨valid, day, one, inMonth⟩ := jalaliOf_spec first
  obtain ⟨valid', day', one', inMonth'⟩ := jalaliOf_spec last
  rw [shiftMonths_eq first validFirst, shiftMonths_eq last validLast, if_neg Bool.false_ne_true]
  rcases indices.lt_or_eq with before | same
  · have apart := validFirst.next_startUtc_le validLast (by omega)
    unfold JalaliMonth.days at firstDays lastDays ⊢
    cases snap <;> simp only [if_true, if_neg Bool.false_ne_true] <;> omega
  · have sameMonth := valid.eq_of_index valid' same
    rw [sameMonth] at day
    have sameAway : monthAway first _ = monthAway last _ := validFirst.eq_of_index validLast (by omega)
    rw [sameAway]
    cases snap <;> simp only [if_true, if_neg Bool.false_ne_true] <;> omega

/-! ## The range of a comparison -/

/-- The range begins with a month and ends with one. -/
def WholeMonths (first last : StorageDate) : Prop :=
  isoToUtc first = (jalaliOf first).1.startUtc ∧ isoToUtc last + 1 = (jalaliOf last).1.next.startUtc

instance : Decidable (WholeMonths first last) := inferInstanceAs (Decidable (_ ∧ _))

theorem wholeMonths_iff : wholeMonths first last = true ↔ WholeMonths first last := by
  obtain ⟨valid, day, one, inMonth⟩ := jalaliOf_spec first
  obtain ⟨valid', day', one', inMonth'⟩ := jalaliOf_spec last
  rw [wholeMonths, isLastDayOfMonth, jalaliMonthLength_eq valid', Bool.and_eq_true,
    decide_eq_true_eq, decide_eq_true_eq, WholeMonths, JalaliMonth.days]
  omega

/-- The range begins with a unit and ends in the same one. -/
def UnitToDate (first last : StorageDate) (unit : ReportPeriodUnit) : Prop :=
  isoToUtc first = (monthOfIndex (unitStart (jalaliOf first).1 unit 0)).startUtc ∧
    unitStart (jalaliOf last).1 unit 0 = unitStart (jalaliOf first).1 unit 0

instance : Decidable (UnitToDate first last unit) := inferInstanceAs (Decidable (_ ∧ _))

theorem unitToDate_iff (order : isoToUtc first ≤ isoToUtc last) :
    unitToDate first last unit = true ↔ UnitToDate first last unit := by
  have holds : (unitRange (jalaliOf first).1 unit 0).holds (isoToUtc last) = true ↔
      unitStart (jalaliOf last).1 unit 0 = unitStart (jalaliOf first).1 unit 0 :=
    holds_unitRange (jalaliOf_spec first).1 (le_refl 0) last
  have start := unitRange_fromDay (jalaliOf first).1 unit 0
  rw [unitToDate, UnitToDate, ← holds, ReportRange.holds]
  simp only [Bool.and_eq_true, decide_eq_true_eq, start]
  constructor
  · rintro ⟨begins, ends⟩
    exact ⟨begins.symm, begins.trans_le order, ends⟩
  · rintro ⟨begins, -, ends⟩
    exact ⟨begins.symm, ends⟩

/-- The unit of a range that is one to date: the shortest. -/
def unitOf (first last : StorageDate) : Option ReportPeriodUnit :=
  reportPeriodUnits.find? fun unit => UnitToDate first last unit

/-- What a comparison is with. -/
structure IsComparison (first last : StorageDate) (mode : ReportCompareMode) (range : ReportRange) :
    Prop where
  ordered : range.fromDay ≤ range.toDay
  before : mode = .previous → range.toDay < isoToUtc first
  months : mode = .previous → WholeMonths first last →
    range.toDay + 1 = isoToUtc first ∧
      jalaliDay range.fromDay = (monthAway first (-monthCount first last), 1)
  toDate : mode = .previous → ¬WholeMonths first last → ∀ unit, unitOf first last = some unit →
    range.fromDay = (unitRange (jalaliOf first).1 unit (-1)).fromDay ∧
      range.toDay ≤ (unitRange (jalaliOf first).1 unit (-1)).toDay ∧
        range.toDay = (monthAway last (-unit.months)).startUtc +
          min (jalaliOf last).2 (monthAway last (-unit.months)).days - 1
  days : mode = .previous → ¬WholeMonths first last → unitOf first last = none →
    range.toDay + 1 = isoToUtc first ∧
      range.toDay - range.fromDay = isoToUtc last - isoToUtc first
  lastYear : mode = .lastYear → WholeMonths first last →
    range.fromDay = (monthAway first (-12)).startUtc ∧
      range.toDay + 1 = (monthAway last (-12)).next.startUtc

/-- A year back. -/
theorem isComparison_lastYear (order : isoToUtc first ≤ isoToUtc last) :
    IsComparison first last .lastYear
      { fromDay := shiftMonths (jalaliOf first) (-12) false
        toDay := shiftMonths (jalaliOf last) (-12) (isLastDayOfMonth (jalaliOf last)) } where
  ordered := shiftMonths_le order le_rfl _
  before := nofun
  months := nofun
  toDate := nofun
  days := nofun
  lastYear := by
    rintro - ⟨begins, ends⟩
    obtain ⟨valid, day, one, inMonth⟩ := jalaliOf_spec first
    obtain ⟨valid', day', one', inMonth'⟩ := jalaliOf_spec last
    have validFirst := valid_monthAway first (le_refl (-12))
    have validLast := valid_monthAway last (le_refl (-12))
    have firstDays := validFirst.days_bounds
    have isLast : isLastDayOfMonth (jalaliOf last) = true := by
      rw [isLastDayOfMonth, jalaliMonthLength_eq valid', decide_eq_true_eq, JalaliMonth.days]
      omega
    dsimp only
    rw [isLast, shiftMonths_eq first validFirst, shiftMonths_eq last validLast, if_pos rfl,
      if_neg Bool.false_ne_true]
    refine ⟨by omega, ?_⟩
    rw [JalaliMonth.days]
    ring

/-- The unit before. -/
theorem isComparison_toDate (order : isoToUtc first ≤ isoToUtc last)
    (notWhole : ¬WholeMonths first last) (found : unitOf first last = some unit) :
    IsComparison first last .previous
      { fromDay := shiftMonths (jalaliOf first) (-unit.months) false
        toDay := shiftMonths (jalaliOf last) (-unit.months) false } := by
  have meets := List.find?_some (p := fun unit => decide (UnitToDate first last unit)) found
  obtain ⟨begins, sameUnit⟩ := of_decide_eq_true meets
  have few : -12 ≤ -unit.months := by cases unit <;> decide
  have months := unit_pos unit
  obtain ⟨valid, day, one, inMonth⟩ := jalaliOf_spec first
  have validLast := (jalaliOf_spec last).1
  have bounds := index_bounds first
  have spanFirst := (unitStart_eq_iff valid valid unit).mp (rfl : unitStart _ unit 0 = _)
  have spanLast := (unitStart_eq_iff valid validLast unit).mp sameUnit
  rw [monthIndex_eq] at spanFirst spanLast
  have lowStart : 980 * 12 ≤ unitStart (jalaliOf first).1 unit 0 := le_unitStart valid le_rfl
  -- the first day is the first one of its own month
  have start : (jalaliOf first).1.index - 1 = unitStart (jalaliOf first).1 unit 0 := by
    have order := (startUtc_le_iff valid (valid_monthOfIndex lowStart)).mp (by omega)
    rw [index_monthOfIndex] at order
    omega
  have previous : unitStart (jalaliOf first).1 unit (-1) = (jalaliOf first).1.index - 1 - unit.months := by
    rw [start]
    unfold unitStart
    ring
  have month : monthAway first (-unit.months) = monthOfIndex (unitStart (jalaliOf first).1 unit (-1)) := by
    rw [monthAway, previous]
    exact congrArg monthOfIndex (sub_eq_add_neg _ _).symm
  have validFirstAway := valid_monthAway first few
  have validLastAway := valid_monthAway last few
  have indexFirst := index_monthAway first (-unit.months)
  have indexLast := index_monthAway last (-unit.months)
  have firstDays := validFirstAway.days_bounds
  have firstOne : (jalaliOf first).2 = 1 := by
    have own : monthOfIndex (unitStart (jalaliOf first).1 unit 0) = (jalaliOf first).1 := by
      rw [← start, monthOfIndex_index valid]
    rw [own] at begins
    omega
  have fromDay : shiftMonths (jalaliOf first) (-unit.months) false =
      (unitRange (jalaliOf first).1 unit (-1)).fromDay := by
    rw [shiftMonths_eq first validFirstAway, if_neg Bool.false_ne_true, unitRange_fromDay, ← month,
      firstOne]
    omega
  have toDay : shiftMonths (jalaliOf last) (-unit.months) false =
      (monthAway last (-unit.months)).startUtc +
        min (jalaliOf last).2 (monthAway last (-unit.months)).days - 1 := by
    rw [shiftMonths_eq last validLastAway, if_neg Bool.false_ne_true]
  have inPrevious : shiftMonths (jalaliOf last) (-unit.months) false ≤
      (unitRange (jalaliOf first).1 unit (-1)).toDay := by
    have finish := unitRange_toDay (jalaliOf first).1 unit (-1)
    have next := validLastAway.next_startUtc_le (valid_monthOfIndex
      (show 980 * 12 ≤ unitStart (jalaliOf first).1 unit (-1) + unit.months by omega))
      (by rw [index_monthOfIndex]; omega)
    rw [toDay]
    unfold JalaliMonth.days
    omega
  have previousEnd : (unitRange (jalaliOf first).1 unit (-1)).toDay + 1 = isoToUtc first := by
    rw [unitRange_succ, unitRange_fromDay]
    exact begins.symm
  exact
    { ordered := shiftMonths_le order few false
      before := fun _ => by dsimp only; omega
      months := fun _ whole => absurd whole notWhole
      toDate := fun _ _ other isOther => by
        obtain rfl := Option.some.inj (found.symm.trans isOther)
        exact ⟨fromDay, inPrevious, toDay⟩
      days := fun _ _ nothing => by rw [found] at nothing; cases nothing
      lastYear := nofun }

/-- As many days before. -/
theorem isComparison_days (order : isoToUtc first ≤ isoToUtc last)
    (notWhole : ¬WholeMonths first last) (nothing : unitOf first last = none) :
    IsComparison first last .previous
      { fromDay := isoToUtc first - 1 - (rangeDayCount first last - 1)
        toDay := isoToUtc first - 1 } where
  ordered := by
    unfold rangeDayCount
    dsimp only
    omega
  before := fun _ => by dsimp only; omega
  months := fun _ whole => absurd whole notWhole
  toDate := fun _ _ unit found => by rw [nothing] at found; cases found
  days := fun _ _ _ => by
    unfold rangeDayCount
    dsimp only
    omega
  lastYear := nofun

/-! ### Whole months -/

/-- The index of the month that the comparison of whole months begins with. -/
def previousStart (first last : StorageDate) : ℤ :=
  (jalaliOf first).1.index - 1 - monthCount first last

/-- Bahman and Esfand 979. -/
def misdated (index : ℤ) : Bool := index = 979 * 12 + 10 || index = 979 * 12 + 11

/-- Up to the year 979 a month's first day is converted to the right day, but for these
two months. -/
theorem earlyMonths : ∀ index ∈ [11747, 11748, 11749, 11750, 11751, 11752, 11753, 11754, 11755,
    11756, 11757, 11758, 11759],
    isoOfAny (monthOfIndex index) (min 1 (jalaliMonthLength (monthOfIndex index))) ≤ -134000 ∧
      (jalaliDay (isoOfAny (monthOfIndex index)
          (min 1 (jalaliMonthLength (monthOfIndex index)))) = (monthOfIndex index, 1) ↔
        misdated index = false) := by
  decide +kernel

/-- Whole months of stored dates reach back to Esfand 978 at most. -/
theorem previousStart_bounds (order : isoToUtc first ≤ isoToUtc last)
    (whole : WholeMonths first last) :
    11747 ≤ previousStart first last ∧ previousStart first last < (jalaliOf first).1.index - 1 := by
  obtain ⟨begins, ends⟩ := whole
  have validFirst := (jalaliOf_spec first).1
  have validLast := (jalaliOf_spec last).1
  obtain ⟨low, -⟩ := isoToUtc_bounds first
  obtain ⟨-, high⟩ := isoToUtc_bounds last
  have indices := index_le order
  have earliest : (monthOfIndex 15345).startUtc = -25577 := by decide +kernel
  have latest : (monthOfIndex 18946).startUtc = 84026 := by decide +kernel
  have fromFirst : 15346 ≤ (jalaliOf first).1.index - 1 := by
    by_contra before
    have := (startUtc_le_iff validFirst (valid_monthOfIndex (show 980 * 12 ≤ 15345 by decide))).mpr
      (by rw [index_monthOfIndex]; omega)
    omega
  have toLast : (jalaliOf last).1.index - 1 ≤ 18944 := by
    by_contra after
    have := (startUtc_le_iff (valid_monthOfIndex (show 980 * 12 ≤ 18946 by decide)) validLast.next).mpr
      (by rw [index_monthOfIndex, JalaliMonth.index_next _ validLast]; omega)
    omega
  unfold previousStart monthCount
  rw [monthIndex_eq, monthIndex_eq]
  omega

theorem monthAway_monthCount (first last : StorageDate) :
    monthAway first (-monthCount first last) = monthOfIndex (previousStart first last) := by
  exact congrArg monthOfIndex (sub_eq_add_neg _ _).symm

/-- The comparison of whole months, with the first day as the code has it. -/
theorem wholeMonths_previous (order : isoToUtc first ≤ isoToUtc last)
    (whole : WholeMonths first last) :
    shiftMonths (jalaliOf last) (-monthCount first last) true + 1 = isoToUtc first ∧
      shiftMonths (jalaliOf first) (-monthCount first last) false < isoToUtc first ∧
        (jalaliDay (shiftMonths (jalaliOf first) (-monthCount first last) false) =
            (monthAway first (-monthCount first last), 1) ↔
          misdated (previousStart first last) = false) := by
  obtain ⟨begins, ends⟩ := whole
  obtain ⟨valid, day, one, inMonth⟩ := jalaliOf_spec first
  obtain ⟨low, back⟩ := previousStart_bounds order ⟨begins, ends⟩
  have bounds := index_bounds first
  have firstLow := (isoToUtc_bounds first).1
  have count : monthCount first last = (jalaliOf last).1.index - (jalaliOf first).1.index + 1 := by
    rw [monthCount, monthIndex_eq, monthIndex_eq]
    ring
  have firstOne : (jalaliOf first).2 = 1 := by omega
  refine ⟨?_, ?_⟩
  · have month : monthAway last (-monthCount first last) =
        monthOfIndex ((jalaliOf first).1.index - 1 - 1) := by
      rw [monthAway, count]
      congr 1
      ring
    have validAway : (monthAway last (-monthCount first last)).Valid := by
      rw [month]
      exact valid_monthOfIndex (by omega)
    have next : (monthAway last (-monthCount first last)).next = (jalaliOf first).1 := by
      rw [month, next_monthOfIndex, sub_add_cancel, monthOfIndex_index valid]
    rw [shiftMonths_eq last validAway, if_pos rfl, JalaliMonth.days, next]
    omega
  · have target : monthOfIndex (monthIndex (jalaliOf first).1.year (jalaliOf first).1.month +
        -monthCount first last) = monthOfIndex (previousStart first last) := by
      rw [monthIndex_eq]
      exact congrArg monthOfIndex (sub_eq_add_neg _ _).symm
    unfold shiftMonths
    dsimp only
    rw [target, firstOne, if_neg Bool.false_ne_true, monthAway_monthCount]
    by_cases early : previousStart first last < 980 * 12
    · have listed : previousStart first last ∈ [11747, 11748, 11749, 11750, 11751, 11752, 11753,
          11754, 11755, 11756, 11757, 11758, 11759] := by
        simp only [List.mem_cons, List.not_mem_nil, or_false]
        omega
      obtain ⟨before, exact⟩ := earlyMonths _ listed
      exact ⟨by omega, exact⟩
    · have validStart := valid_monthOfIndex (not_lt.mp early)
      have days := validStart.days_bounds
      have order := startUtc_lt validStart valid (by rw [index_monthOfIndex]; omega)
      have smallest : min 1 (monthOfIndex (previousStart first last)).days = 1 := by omega
      rw [jalaliMonthLength_eq validStart, smallest, isoOfAny_eq validStart]
      refine ⟨by omega, fun _ => ?_, fun _ => jalaliDay_startUtc validStart le_rfl (by omega)⟩
      unfold misdated
      simp only [Bool.or_eq_false_iff, decide_eq_false_iff_not]
      omega

/-! ## The law of the periods -/

/-- The periods and the comparisons of a range are what they say. -/
structure PeriodsRight (first last : StorageDate) : Prop where
  buckets : ∀ unit max, match periodBuckets first last unit max with
    | none => isoToUtc last < isoToUtc first ∨
        ∀ i : ℕ, i ≤ max → (unitRange (jalaliOf first).1 unit i).fromDay ≤ isoToUtc last
    | some buckets => buckets.length ≤ max ∧ Periods first last unit buckets
  comparison : ∀ mode, match comparisonRange first last mode with
    | none => isoToUtc last < isoToUtc first ∨ mode = .none
    | some range => IsComparison first last mode range

theorem periodBuckets_spec (first last : StorageDate) (unit : ReportPeriodUnit) (max : ℕ) :
    match periodBuckets first last unit max with
    | none => isoToUtc last < isoToUtc first ∨
        ∀ i : ℕ, i ≤ max → (unitRange (jalaliOf first).1 unit i).fromDay ≤ isoToUtc last
    | some buckets => buckets.length ≤ max ∧ Periods first last unit buckets := by
  unfold periodBuckets
  split_ifs with back
  · exact Or.inl back
  · rcases bucketsFrom_eq (jalaliOf first).1 unit (isoToUtc last) max 0 with
      ⟨tooMany, begin⟩ | ⟨k, few, found, begin, after⟩
    · rw [tooMany]
      simp only [zero_add] at begin
      exact Or.inr begin
    · rw [found]
      simp only [zero_add] at begin after ⊢
      exact ⟨by rwa [List.length_map, List.length_range], periods_of_bucketsFrom begin after⟩

/-- The comparison of the range begins in one of the two months whose first day is
converted a day late. -/
def ReachesMisdated (first last : StorageDate) : Prop :=
  isoToUtc first ≤ isoToUtc last ∧ WholeMonths first last ∧ misdated (previousStart first last) = true

theorem previousRange_spec (order : isoToUtc first ≤ isoToUtc last) :
    IsComparison first last .previous (previousRange first last) ↔ ¬ReachesMisdated first last := by
  unfold previousRange
  by_cases whole : WholeMonths first last
  · obtain ⟨toDay, before, exact⟩ := wholeMonths_previous order whole
    rw [if_pos (wholeMonths_iff.mpr whole)]
    constructor
    · rintro comparison ⟨-, -, late⟩
      have right := exact.mp (comparison.months rfl whole).2
      rw [late] at right
      cases right
    · intro notLate
      have right : misdated (previousStart first last) = false := by
        by_contra late
        exact notLate ⟨order, whole, by simpa using late⟩
      exact
        { ordered := by dsimp only; omega
          before := fun _ => by dsimp only; omega
          months := fun _ _ => ⟨toDay, exact.mpr right⟩
          toDate := fun _ notWhole => absurd whole notWhole
          days := fun _ notWhole => absurd whole notWhole
          lastYear := nofun }
  · have units : reportPeriodUnits.find? (unitToDate first last) = unitOf first last := by
      refine List.find?_congr fun unit _ => ?_
      rw [Bool.eq_iff_iff, unitToDate_iff order, decide_eq_true_iff]
    rw [if_neg (fun isWhole => whole (wholeMonths_iff.mp isWhole)), units]
    refine iff_of_true ?_ fun misdated => whole misdated.2.1
    cases found : unitOf first last with
    | none => exact isComparison_days order whole found
    | some unit => exact isComparison_toDate order whole found

/-- The whole months from Bahman 1278 to Dey 1577. -/
def bahman1278 : StorageDate := ⟨1900, 1, 21, by decide, by decide⟩

def dey1577 : StorageDate := ⟨2199, 1, 19, by decide, by decide⟩

end PapitalErp.ReportPeriods
