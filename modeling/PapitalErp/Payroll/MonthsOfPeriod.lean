import PapitalErp.Payroll.FixedSalaryProration

/-!
# The months of a payroll period

`jalaliMonthsInPeriod` steps from the month of the first day until a month starts after
the last day. It lists the months in order, each with the days of the period in it, so
that the days of a period, and of two periods that follow one another, are counted once.
-/

namespace PapitalErp

/-- The days that the list gives a month. -/
def coveredDaysIn (months : List MonthInPeriod) (month : JalaliMonth) : ℤ :=
  ((months.filter fun c => c.month = month).map MonthInPeriod.coveredDays).sum

/-- The days of a period, both ends included. -/
def inclusiveDays (startIso endIso : StorageDate) : ℤ := isoToUtc endIso - isoToUtc startIso + 1

/-! ## The loop -/

section Loop

variable {start finish : ℤ} {fuel : ℕ} {m : JalaliMonth}

/-- Every month has a first day before the next month's. -/
theorem JalaliMonth.Valid.startUtc_lt (h : m.Valid) : m.startUtc + 29 ≤ m.next.startUtc := by
  have longer := h.days_bounds.1
  unfold JalaliMonth.days at longer
  omega

/-- The loop has ended by itself when it has fuel for a month of 29 days in each turn. -/
theorem monthsFrom_end (valid : m.Valid) (enough : finish < m.startUtc + 29 * fuel) (more : ℕ) :
    monthsFrom start finish (fuel + more) m = monthsFrom start finish fuel m := by
  induction fuel generalizing m with
  | zero =>
      have past : finish < m.startUtc := by simpa using enough
      cases more with
      | zero => rfl
      | succ more =>
          rw [Nat.zero_add]
          exact if_pos past
  | succ fuel ih =>
      have longer := valid.startUtc_lt
      rw [Nat.add_right_comm, monthsFrom, monthsFrom]
      split_ifs
      · rfl
      · rw [ih valid.next (by push_cast at enough; omega)]

/-- The first month listed is the one the loop stands at. -/
theorem month_of_head {c : MonthInPeriod} (head : c ∈ (monthsFrom start finish fuel m).head?) :
    c.month = m := by
  cases fuel with
  | zero => cases head
  | succ fuel =>
      rw [monthsFrom] at head
      split_ifs at head
      · cases head
      · obtain rfl := Option.some.inj head
        rfl

/-- Each month is followed by the next one of the calendar. -/
theorem monthsFrom_isChain :
    (monthsFrom start finish fuel m).IsChain fun a b => b.month = a.month.next := by
  induction fuel generalizing m with
  | zero => exact .nil
  | succ fuel ih =>
      rw [monthsFrom]
      split_ifs
      · exact .nil
      · exact List.isChain_cons.mpr ⟨fun c head => month_of_head head, ih⟩

/-- What the loop says of a month: some of its days, and all its days. -/
structure MonthInPeriod.Sound (c : MonthInPeriod) : Prop where
  valid : c.month.Valid
  monthDays : c.monthDays = c.month.days
  covered : 1 ≤ c.coveredDays
  within : c.coveredDays ≤ c.monthDays

/-- From a month that the first day does not come after. -/
theorem monthsFrom_sound (valid : m.Valid) (reached : start < m.next.startUtc) (ordered : start ≤ finish) :
    ∀ c ∈ monthsFrom start finish fuel m, c.Sound := by
  induction fuel generalizing m with
  | zero => exact fun c mem => absurd mem List.not_mem_nil
  | succ fuel ih =>
      have longer := valid.startUtc_lt
      have later := valid.next.startUtc_lt
      intro c mem
      rw [monthsFrom] at mem
      split_ifs at mem with past
      · cases mem
      · rcases List.mem_cons.mp mem with rfl | rest
        · exact ⟨valid, rfl, by dsimp only; omega, by dsimp only; omega⟩
        · exact ih valid.next (by omega) c rest

/-- The months from `m` on have the days of the period from there on. -/
theorem sum_monthsFrom (valid : m.Valid) (reached : start < m.next.startUtc) (ordered : start ≤ finish)
    (enough : finish < m.startUtc + 29 * fuel) :
    ((monthsFrom start finish fuel m).map MonthInPeriod.coveredDays).sum =
      max 0 (finish - max start m.startUtc + 1) := by
  induction fuel generalizing m with
  | zero =>
      have past : finish < m.startUtc := by simpa using enough
      rw [monthsFrom, List.map_nil, List.sum_nil]
      omega
  | succ fuel ih =>
      have longer := valid.startUtc_lt
      have later := valid.next.startUtc_lt
      rw [monthsFrom]
      split_ifs with past
      · rw [List.map_nil, List.sum_nil]
        omega
      · rw [List.map_cons, List.sum_cons, ih valid.next (by omega) (by push_cast at enough; omega)]
        dsimp only
        omega

end Loop

/-! ## The months of a period -/

section Period

variable {startIso endIso midIso nextIso : StorageDate}

theorem jalaliMonthsInPeriod_eq (ordered : isoToUtc startIso ≤ isoToUtc endIso) :
    jalaliMonthsInPeriod startIso endIso =
      monthsFrom (isoToUtc startIso) (isoToUtc endIso)
        ((isoToUtc endIso - isoToUtc startIso).toNat + 2) startIso.jalaliMonth :=
  if_neg (not_lt.mpr ordered)

/-- Two months of 29 days pass the month of the first day, and one more each further day. -/
theorem enough_fuel (ordered : isoToUtc startIso ≤ isoToUtc endIso) :
    isoToUtc endIso < startIso.jalaliMonth.startUtc +
      29 * ((isoToUtc endIso - isoToUtc startIso).toNat + 2 : ℕ) := by
  obtain ⟨valid, -, inside⟩ := startIso.jalaliMonth_spec
  have short := valid.days_bounds.2
  unfold JalaliMonth.days at short
  omega

theorem jalaliMonthsInPeriod_sound (ordered : isoToUtc startIso ≤ isoToUtc endIso) :
    ∀ c ∈ jalaliMonthsInPeriod startIso endIso, c.Sound := by
  obtain ⟨valid, -, inside⟩ := startIso.jalaliMonth_spec
  rw [jalaliMonthsInPeriod_eq ordered]
  exact monthsFrom_sound valid inside ordered

theorem sum_jalaliMonthsInPeriod (ordered : isoToUtc startIso ≤ isoToUtc endIso) :
    ((jalaliMonthsInPeriod startIso endIso).map MonthInPeriod.coveredDays).sum =
      inclusiveDays startIso endIso := by
  obtain ⟨valid, begun, inside⟩ := startIso.jalaliMonth_spec
  rw [jalaliMonthsInPeriod_eq ordered, sum_monthsFrom valid inside ordered (enough_fuel ordered),
    inclusiveDays]
  omega

/-- The months of a period are in the order of the calendar, each once. -/
theorem jalaliMonthsInPeriod_pairwise (ordered : isoToUtc startIso ≤ isoToUtc endIso) :
    (jalaliMonthsInPeriod startIso endIso).Pairwise fun a b => a.month.index < b.month.index := by
  have chain : (jalaliMonthsInPeriod startIso endIso).IsChain fun a b => b.month = a.month.next := by
    rw [jalaliMonthsInPeriod_eq ordered]
    exact monthsFrom_isChain
  have steps : (jalaliMonthsInPeriod startIso endIso).IsChain
      fun a b => a.month.index < b.month.index := by
    refine chain.imp_of_mem_imp fun a b ha _ followed => ?_
    have valid := (jalaliMonthsInPeriod_sound ordered a ha).valid
    rw [followed, a.month.index_next valid]
    omega
  exact steps.pairwise

/-- The list gives a month the days of the period in it. -/
theorem coveredDaysIn_eq (startIso endIso : StorageDate) {month : JalaliMonth} (valid : month.Valid) :
    coveredDaysIn (jalaliMonthsInPeriod startIso endIso) month =
      (PayrollPeriod.mk startIso endIso).daysIn month := by
  rw [coveredDaysIn, jalaliMonthsInPeriod_filter ⟨startIso, endIso⟩ valid]
  split_ifs with outside
  · rw [outside]
    rfl
  · simp

theorem coveredDaysIn_of_not_valid (ordered : isoToUtc startIso ≤ isoToUtc endIso) {month : JalaliMonth}
    (invalid : ¬ month.Valid) : coveredDaysIn (jalaliMonthsInPeriod startIso endIso) month = 0 := by
  have absent : (jalaliMonthsInPeriod startIso endIso).filter (fun c => c.month = month) = [] := by
    refine List.filter_eq_nil_iff.mpr fun c mem => ?_
    have sound := jalaliMonthsInPeriod_sound ordered c mem
    simp only [decide_eq_true_eq]
    rintro rfl
    exact invalid sound.valid
  rw [coveredDaysIn, absent]
  rfl

/-- The days of two adjacent periods in a month are those of their union. -/
theorem coveredDaysIn_adjacent (first : isoToUtc startIso ≤ isoToUtc midIso)
    (adjacent : isoToUtc nextIso = isoToUtc midIso + 1) (second : isoToUtc nextIso ≤ isoToUtc endIso)
    (month : JalaliMonth) :
    coveredDaysIn (jalaliMonthsInPeriod startIso midIso) month +
        coveredDaysIn (jalaliMonthsInPeriod nextIso endIso) month =
      coveredDaysIn (jalaliMonthsInPeriod startIso endIso) month := by
  by_cases valid : month.Valid
  · have longer := valid.startUtc_lt
    rw [coveredDaysIn_eq _ _ valid, coveredDaysIn_eq _ _ valid, coveredDaysIn_eq _ _ valid, daysIn_eq,
      daysIn_eq, daysIn_eq, overlap, overlap, overlap]
    dsimp only
    omega
  · rw [coveredDaysIn_of_not_valid first valid, coveredDaysIn_of_not_valid second valid,
      coveredDaysIn_of_not_valid (by omega) valid]
    rfl

/-- The months of a period: the loop ends, and lists the months from that of the first day
on, each once and in order, with some days of each, which are the days of the period; and
the days of any two parts of the period are, month by month, those of the whole. -/
theorem months_of_period (ordered : isoToUtc startIso ≤ isoToUtc endIso) :
    (∀ fuel, (isoToUtc endIso - isoToUtc startIso).toNat + 2 ≤ fuel →
      monthsFrom (isoToUtc startIso) (isoToUtc endIso) fuel startIso.jalaliMonth =
        jalaliMonthsInPeriod startIso endIso) ∧
    (∀ c ∈ (jalaliMonthsInPeriod startIso endIso).head?, c.month = startIso.jalaliMonth) ∧
    ((jalaliMonthsInPeriod startIso endIso).IsChain fun a b => b.month = a.month.next) ∧
    ((jalaliMonthsInPeriod startIso endIso).map MonthInPeriod.month).Nodup ∧
    (∀ c ∈ jalaliMonthsInPeriod startIso endIso,
      1 ≤ c.coveredDays ∧ c.coveredDays ≤ c.monthDays ∧ c.monthDays = c.month.days) ∧
    ((jalaliMonthsInPeriod startIso endIso).map MonthInPeriod.coveredDays).sum =
      inclusiveDays startIso endIso ∧
    ∀ midIso nextIso, isoToUtc startIso ≤ isoToUtc midIso → isoToUtc nextIso = isoToUtc midIso + 1 →
      isoToUtc nextIso ≤ isoToUtc endIso → ∀ month,
        coveredDaysIn (jalaliMonthsInPeriod startIso midIso) month +
            coveredDaysIn (jalaliMonthsInPeriod nextIso endIso) month =
          coveredDaysIn (jalaliMonthsInPeriod startIso endIso) month := by
  obtain ⟨valid, -, -⟩ := startIso.jalaliMonth_spec
  refine ⟨?_, ?_, ?_, ?_, ?_, sum_jalaliMonthsInPeriod ordered, ?_⟩
  · intro fuel more
    obtain ⟨extra, rfl⟩ := Nat.exists_eq_add_of_le more
    rw [jalaliMonthsInPeriod_eq ordered]
    exact monthsFrom_end valid (enough_fuel ordered) extra
  · intro c head
    rw [jalaliMonthsInPeriod_eq ordered] at head
    exact month_of_head head
  · rw [jalaliMonthsInPeriod_eq ordered]
    exact monthsFrom_isChain
  · refine List.pairwise_map.mpr ((jalaliMonthsInPeriod_pairwise ordered).imp fun before same => ?_)
    rw [same] at before
    exact lt_irrefl _ before
  · intro c mem
    have sound := jalaliMonthsInPeriod_sound ordered c mem
    exact ⟨sound.covered, sound.within, sound.monthDays⟩
  · exact fun midIso nextIso first adjacent second => coveredDaysIn_adjacent first adjacent second

/-- From the first day of Farvardin 1405 to the last of Ordibehesht. -/
theorem months_of_two_months :
    let startIso : StorageDate := ⟨2026, 3, 21, by decide +kernel, by decide⟩
    let endIso : StorageDate := ⟨2026, 5, 21, by decide +kernel, by decide⟩
    ((jalaliMonthsInPeriod startIso endIso).map MonthInPeriod.coveredDays).sum = 62 := by
  intro startIso endIso
  obtain ⟨-, -, -, -, -, days, -⟩ := months_of_period (show isoToUtc startIso ≤ isoToUtc endIso by decide +kernel)
  rw [days]
  decide +kernel

end Period

end PapitalErp
