import PapitalErp.FinancialDecimal
import PapitalErp.CalendarDate

/-!
# Proration of a fixed salary

A payslip grants a part of the monthly salary for every Jalali month that its
period touches. The part is the difference of two rounded cumulative amounts,
so the payslips of a month add up to the salary however the month is split and
whatever the order they are issued in.

The salary, the periods and the grants before are the data `computeFixedSalaryShares`
reads; the decimal text of an amount is the amount.
-/

namespace PapitalErp

open Rounding

/-! ## The months of a period -/

structure MonthInPeriod where
  month : JalaliMonth
  coveredDays : ℤ
  monthDays : ℤ

/-- The loop of `jalaliMonthsInPeriod`, in at most `fuel` months. -/
def monthsFrom (start finish : ℤ) : ℕ → JalaliMonth → List MonthInPeriod
  | 0, _ => []
  | fuel + 1, month =>
      if finish < month.startUtc then []
      else
        let nextStart := month.next.startUtc
        ⟨month, min finish (nextStart - 1) - max start month.startUtc + 1,
          nextStart - month.startUtc⟩ :: monthsFrom start finish fuel month.next

/-- `jalaliMonthsInPeriod`. Months are longer than a day, so a period of `n` days
touches at most `n` of them after its first. -/
def jalaliMonthsInPeriod (startIso endIso : StorageDate) : List MonthInPeriod :=
  if isoToUtc endIso < isoToUtc startIso then []
  else monthsFrom (isoToUtc startIso) (isoToUtc endIso)
    ((isoToUtc endIso - isoToUtc startIso).toNat + 2) startIso.jalaliMonth

/-! ## Grants and shares -/

/-- The share of one month in a payslip. -/
structure FixedSalaryMonthShare where
  month : JalaliMonth
  days : ℤ
  monthDays : ℤ
  amount : ℚ

structure PriorFixedGrant where
  month : JalaliMonth
  days : ℤ
  amount : ℚ

/-- The fixed salary of a stored payslip. -/
structure PayrollFixedSalarySource where
  startDate : StorageDate
  totalFixedAmount : ℚ
  fixedSalaryMonths : List FixedSalaryMonthShare

/-- `priorFixedGrantsOf`: a payslip without shares is an old one, which took all
the days of the month it starts in. -/
def priorFixedGrantsOf (payroll : PayrollFixedSalarySource) : List PriorFixedGrant :=
  if payroll.fixedSalaryMonths ≠ [] then
    payroll.fixedSalaryMonths.map fun m => ⟨m.month, m.days, m.amount⟩
  else if payroll.totalFixedAmount ≤ 0 then []
  else [⟨payroll.startDate.jalaliMonth, payroll.startDate.jalaliMonth.days,
    payroll.totalFixedAmount⟩]

/-- The days that the grants give a month. -/
def grantedDays (grants : List PriorFixedGrant) (month : JalaliMonth) : ℤ :=
  ((grants.filter fun g => g.month = month).map PriorFixedGrant.days).sum

/-- The amount that the grants give a month. -/
def grantedAmount (grants : List PriorFixedGrant) (month : JalaliMonth) : ℚ :=
  ((grants.filter fun g => g.month = month).map PriorFixedGrant.amount).sum

/-- The amount a month has earned after the given days, `target` in the source. -/
def cumulativeShare (salary : ℚ) (cumulativeDays monthDays : ℤ) : ℚ :=
  FinancialDecimal.round (FinancialDecimal.divide (salary * cumulativeDays) monthDays 10) 0

/-- One turn of the loop of `computeFixedSalaryShares`. -/
def monthShare (salary : ℚ) (prior : List PriorFixedGrant) (m : MonthInPeriod) :
    FixedSalaryMonthShare :=
  let earlierAmount := grantedAmount prior m.month
  let cumulativeDays := min m.monthDays (grantedDays prior m.month + m.coveredDays)
  let share := cumulativeShare salary cumulativeDays m.monthDays - earlierAmount
  let remaining := salary - earlierAmount
  let share := if remaining < share then remaining else share
  let share := if share < 0 then 0 else share
  ⟨m.month, m.coveredDays, m.monthDays, FinancialDecimal.round share 0⟩

structure FixedSalaryShares where
  total : ℚ
  months : List FixedSalaryMonthShare

/-- `computeFixedSalaryShares`. -/
def computeFixedSalaryShares (monthlySalary : ℚ) (startIso endIso : StorageDate)
    (prior : List PriorFixedGrant) : FixedSalaryShares :=
  let months := (jalaliMonthsInPeriod startIso endIso).map (monthShare monthlySalary prior)
  ⟨(months.map FixedSalaryMonthShare.amount).sum, months⟩

/-! ## The payslips of one employee -/

/-- The period of a payslip, both days included. -/
structure PayrollPeriod where
  startDate : StorageDate
  endDate : StorageDate

/-- The payslips issued so far and one more, given every grant before it. -/
def issuePayslip (salary : ℚ) (issued : List PayrollFixedSalarySource) (period : PayrollPeriod) :
    List PayrollFixedSalarySource :=
  let shares := computeFixedSalaryShares salary period.startDate period.endDate
    (issued.flatMap priorFixedGrantsOf)
  issued ++ [⟨period.startDate, shares.total, shares.months⟩]

/-- The payslips of the periods, issued in the order of the list. -/
def issuePayslips (salary : ℚ) (periods : List PayrollPeriod) : List PayrollFixedSalarySource :=
  periods.foldl (issuePayslip salary) []

/-- The days of a period in a month, counted one by one. -/
noncomputable def PayrollPeriod.daysIn (period : PayrollPeriod) (month : JalaliMonth) : ℕ :=
  ((Finset.Icc (isoToUtc period.startDate) (isoToUtc period.endDate)).filter fun day =>
    month.startUtc ≤ day ∧ day < month.next.startUtc).card

/-- The days of a month that the periods grant, a day in two periods counted twice. -/
noncomputable def daysGranted (periods : List PayrollPeriod) (month : JalaliMonth) : ℕ :=
  (periods.map fun period => period.daysIn month).sum

/-- The fixed salary that the payslips give for a month. -/
def monthTotal (issued : List PayrollFixedSalarySource) (month : JalaliMonth) : ℚ :=
  (issued.flatMap fun slip => (slip.fixedSalaryMonths.filter fun m => m.month = month).map
    FixedSalaryMonthShare.amount).sum

/-! ## The months of a period, once each -/

/-- The days of a month between two days. -/
def overlap (start finish : ℤ) (m : JalaliMonth) : ℤ :=
  min finish (m.next.startUtc - 1) - max start m.startUtc + 1

/-- The loop visits the months from `m` on that start by the last day, once each. -/
theorem monthsFrom_filter {start finish : ℤ} (fuel : ℕ) {m month : JalaliMonth} (h : m.Valid)
    (h' : month.Valid) (enough : finish < m.startUtc + 29 * fuel) :
    (monthsFrom start finish fuel m).filter (fun c => c.month = month) =
      if m.index ≤ month.index ∧ month.startUtc ≤ finish then
        [⟨month, overlap start finish month, month.days⟩] else [] := by
  induction fuel generalizing m with
  | zero =>
      have ended : ¬(m.index ≤ month.index ∧ month.startUtc ≤ finish) := by
        rintro ⟨later, starts⟩
        rcases later.eq_or_lt with same | before
        · rw [← h.eq_of_index h' same] at starts
          omega
        · have := h.next_startUtc_le h' before
          have := h.days_bounds.1
          unfold JalaliMonth.days at this
          omega
      rw [if_neg ended]
      rfl
  | succ fuel ih =>
      have longer := h.days_bounds.1
      unfold JalaliMonth.days at longer
      rw [monthsFrom]
      by_cases past : finish < m.startUtc
      · have ended : ¬(m.index ≤ month.index ∧ month.startUtc ≤ finish) := by
          rintro ⟨later, starts⟩
          rcases later.eq_or_lt with same | before
          · rw [← h.eq_of_index h' same] at starts
            omega
          · have := h.next_startUtc_le h' before
            omega
        rw [if_pos past, if_neg ended]
        rfl
      · have rest := ih h.next (by push_cast at enough; omega)
        rw [if_neg past, List.filter_cons, rest, m.index_next h]
        by_cases same : m = month
        · subst same
          simp [overlap, JalaliMonth.days, not_lt.mp past]
        · have apart : m.index ≠ month.index := fun e => same (h.eq_of_index h' e)
          have order : m.index ≤ month.index ↔ m.index + 1 ≤ month.index := by omega
          simp [same, order]

theorem daysIn_eq (period : PayrollPeriod) (month : JalaliMonth) :
    (period.daysIn month : ℤ) =
      max 0 (overlap (isoToUtc period.startDate) (isoToUtc period.endDate) month) := by
  have between : ((Finset.Icc (isoToUtc period.startDate) (isoToUtc period.endDate)).filter
      fun day => month.startUtc ≤ day ∧ day < month.next.startUtc) =
      Finset.Icc (max (isoToUtc period.startDate) month.startUtc)
        (min (isoToUtc period.endDate) (month.next.startUtc - 1)) := by
    ext day
    simp only [Finset.mem_filter, Finset.mem_Icc]
    omega
  rw [PayrollPeriod.daysIn, between, Int.card_Icc, overlap]
  omega

/-- A period has one entry for each month it has days in, with those days. -/
theorem jalaliMonthsInPeriod_filter (period : PayrollPeriod) {month : JalaliMonth}
    (h : month.Valid) :
    (jalaliMonthsInPeriod period.startDate period.endDate).filter (fun c => c.month = month) =
      if period.daysIn month = 0 then [] else [⟨month, period.daysIn month, month.days⟩] := by
  obtain ⟨valid, begun, inside⟩ := period.startDate.jalaliMonth_spec
  have days := daysIn_eq period month
  have longer := h.days_bounds.1
  have short := valid.days_bounds.2
  unfold JalaliMonth.days at longer short
  have none_iff : period.daysIn month = 0 ↔
      overlap (isoToUtc period.startDate) (isoToUtc period.endDate) month ≤ 0 := by omega
  unfold jalaliMonthsInPeriod
  by_cases backwards : isoToUtc period.endDate < isoToUtc period.startDate
  · have nothing : period.daysIn month = 0 := by
      rw [none_iff, overlap]
      omega
    rw [if_pos backwards, if_pos nothing]
    rfl
  · rw [if_neg backwards, monthsFrom_filter _ valid h (by push_cast; omega)]
    have visited : (period.startDate.jalaliMonth.index ≤ month.index ∧
        month.startUtc ≤ isoToUtc period.endDate) ↔ period.daysIn month ≠ 0 := by
      rw [ne_eq, none_iff, overlap]
      constructor
      · rintro ⟨later, starts⟩
        rcases later.eq_or_lt with same | before
        · rw [valid.eq_of_index h same] at inside
          omega
        · have := valid.next_startUtc_le h before
          omega
      · intro some
        refine ⟨?_, by omega⟩
        by_contra before
        have := h.next_startUtc_le valid (not_le.mp before)
        omega
    by_cases some : period.daysIn month = 0
    · rw [if_neg (fun hv => visited.mp hv some), if_pos some]
    · have covered : overlap (isoToUtc period.startDate) (isoToUtc period.endDate) month =
          period.daysIn month := by omega
      rw [if_pos (visited.mpr some), if_neg some, covered]

/-! ## The amount a month has earned -/

section CumulativeShare

variable {salary : ℕ} {month : JalaliMonth}

/-- The division keeps ten decimals first, finer than any share of a month. -/
theorem cumulativeShare_eq (h : month.Valid) (days : ℕ) :
    cumulativeShare salary days month.days =
      FinancialDecimal.round (salary * days / month.days) 0 := by
  have longer := h.days_bounds.1
  have shorter := h.days_bounds.2
  have positive : (0 : ℚ) < month.days := by
    have : 0 < month.days := by omega
    exact_mod_cast this
  have fine : (month.days : ℚ) < 10 ^ 10 := by
    have : (month.days : ℚ) ≤ 31 := by exact_mod_cast shorter
    linarith
  unfold cumulativeShare FinancialDecimal.divide FinancialDecimal.round
  push_cast
  refine roundHalfUp_zero_of_fraction (p := salary * days) ?_ (by omega) (by positivity) fine
  push_cast
  ring

theorem cumulativeShare_mono (h : month.Valid) {days days' : ℤ} (le : days ≤ days') :
    cumulativeShare salary days month.days ≤ cumulativeShare salary days' month.days := by
  have positive : (0 : ℚ) < month.days := by
    have := h.days_bounds.1
    have : 0 < month.days := by omega
    exact_mod_cast this
  have le : (days : ℚ) ≤ days' := by exact_mod_cast le
  unfold cumulativeShare FinancialDecimal.divide FinancialDecimal.round
  apply roundHalfUp_mono
  apply roundHalfUp_mono
  gcongr

theorem cumulativeShare_whole (h : month.Valid) :
    cumulativeShare salary month.days month.days = salary := by
  have positive : (month.days : ℚ) ≠ 0 := by
    have := h.days_bounds.1
    have : month.days ≠ 0 := by omega
    exact_mod_cast this
  unfold cumulativeShare FinancialDecimal.divide FinancialDecimal.round
  rw [mul_div_cancel_right₀ _ positive, roundHalfUp_of_atScale (AtScale.natCast 10 salary),
    roundHalfUp_of_atScale (AtScale.natCast 0 salary)]

/-- What a payslip adds to a month whose earlier grants follow the cumulative rule. -/
theorem monthShare_amount (h : month.Valid) {prior : List PriorFixedGrant} {granted covered : ℕ}
    (days : grantedDays prior month = granted)
    (amount : grantedAmount prior month =
      cumulativeShare salary (min granted month.days) month.days) :
    (monthShare salary prior ⟨month, covered, month.days⟩).amount =
      cumulativeShare salary (min (granted + covered) month.days) month.days -
        cumulativeShare salary (min granted month.days) month.days := by
  have grows : cumulativeShare salary (min granted month.days) month.days ≤
      cumulativeShare salary (min (granted + covered) month.days) month.days :=
    cumulativeShare_mono h (by omega)
  have bounded : cumulativeShare salary (min (granted + covered) month.days) month.days ≤ salary :=
    (cumulativeShare_mono h (min_le_right _ _)).trans_eq (cumulativeShare_whole h)
  unfold monthShare
  dsimp only
  rw [days, amount, min_comm month.days, if_neg (not_lt.mpr (sub_le_sub_right bounded _)),
    if_neg (not_lt.mpr (sub_nonneg.mpr grows))]
  exact roundHalfUp_of_atScale ((atScale_roundHalfUp 0 _).sub (atScale_roundHalfUp 0 _))

end CumulativeShare

/-! ## What the payslips give a month -/

theorem monthShare_nonneg (salary : ℚ) (prior : List PriorFixedGrant) (m : MonthInPeriod) :
    0 ≤ (monthShare salary prior m).amount := by
  unfold monthShare
  dsimp only
  apply roundHalfUp_nonneg
  split_ifs <;> linarith

theorem monthTotal_append (issued issued' : List PayrollFixedSalarySource) (month : JalaliMonth) :
    monthTotal (issued ++ issued') month = monthTotal issued month + monthTotal issued' month := by
  unfold monthTotal
  rw [List.flatMap_append, List.sum_append]

/-- A payslip that the system issued gives the grants its shares name, and no other. -/
def PayrollFixedSalarySource.Shared (slip : PayrollFixedSalarySource) : Prop :=
  slip.totalFixedAmount = (slip.fixedSalaryMonths.map FixedSalaryMonthShare.amount).sum

theorem priorFixedGrantsOf_shared {slip : PayrollFixedSalarySource} (h : slip.Shared) :
    priorFixedGrantsOf slip =
      slip.fixedSalaryMonths.map fun m => (⟨m.month, m.days, m.amount⟩ : PriorFixedGrant) := by
  unfold priorFixedGrantsOf
  by_cases none : slip.fixedSalaryMonths = []
  · have nothing : slip.totalFixedAmount ≤ 0 := by
      rw [h, none]
      rfl
    rw [if_neg (by simpa using none), if_pos nothing, none]
    rfl
  · rw [if_pos none]

/-- The grants of a list of payslips follow the cumulative rule in every month. -/
structure FollowsRule (salary : ℕ) (periods : List PayrollPeriod)
    (issued : List PayrollFixedSalarySource) : Prop where
  shared : ∀ slip ∈ issued, slip.Shared
  whole : ∀ slip ∈ issued, ∀ share ∈ slip.fixedSalaryMonths,
    0 ≤ share.amount ∧ AtScale 0 share.amount
  days : ∀ month : JalaliMonth, month.Valid →
    grantedDays (issued.flatMap priorFixedGrantsOf) month = daysGranted periods month
  total : ∀ month : JalaliMonth, month.Valid → monthTotal issued month =
    cumulativeShare salary (min (daysGranted periods month) month.days) month.days

theorem grantedAmount_eq_monthTotal {issued : List PayrollFixedSalarySource}
    (h : ∀ slip ∈ issued, slip.Shared) (month : JalaliMonth) :
    grantedAmount (issued.flatMap priorFixedGrantsOf) month = monthTotal issued month := by
  unfold grantedAmount monthTotal
  rw [List.filter_flatMap, List.map_flatMap]
  congr 1
  apply List.flatMap_congr
  intro slip mem
  rw [priorFixedGrantsOf_shared (h slip mem), List.filter_map, List.map_map]
  rfl

/-- Issuing one payslip keeps the rule. -/
theorem FollowsRule.issuePayslip {salary : ℕ} {periods : List PayrollPeriod}
    {issued : List PayrollFixedSalarySource} (h : FollowsRule salary periods issued)
    (period : PayrollPeriod) :
    FollowsRule salary (periods ++ [period]) (issuePayslip salary issued period) := by
  set prior := issued.flatMap priorFixedGrantsOf with hprior
  have amounts := grantedAmount_eq_monthTotal h.shared
  have newShared : ∀ slip ∈ PapitalErp.issuePayslip salary issued period, slip.Shared := by
    intro slip mem
    rcases List.mem_append.mp mem with old | new
    · exact h.shared slip old
    · rw [List.mem_singleton.mp new]
      rfl
  have granted : ∀ month : JalaliMonth, daysGranted (periods ++ [period]) month =
      daysGranted periods month + period.daysIn month := by
    intro month
    simp [daysGranted]
  -- the shares of one month in the new payslip: at most one
  have shares : ∀ month : JalaliMonth, month.Valid →
      ((computeFixedSalaryShares salary period.startDate period.endDate prior).months.filter
        fun m => m.month = month) =
      if period.daysIn month = 0 then []
      else [monthShare salary prior ⟨month, period.daysIn month, month.days⟩] := by
    intro month valid
    have months := jalaliMonthsInPeriod_filter period valid
    unfold computeFixedSalaryShares
    rw [List.filter_map]
    show List.map _ (List.filter (fun c : MonthInPeriod => c.month = month) _) = _
    rw [months]
    split_ifs <;> rfl
  refine ⟨newShared, ?_, ?_, ?_⟩
  · intro slip mem share mem'
    rcases List.mem_append.mp mem with old | new
    · exact h.whole slip old share mem'
    · rw [List.mem_singleton.mp new] at mem'
      obtain ⟨m, -, rfl⟩ := List.mem_map.mp mem'
      exact ⟨monthShare_nonneg _ _ m, atScale_roundHalfUp 0 _⟩
  · intro month valid
    have old := h.days month valid
    have new := priorFixedGrantsOf_shared
      (newShared _ (List.mem_append_right issued (List.mem_singleton_self _)))
    unfold PapitalErp.issuePayslip
    rw [List.flatMap_append, List.flatMap_singleton, new, grantedDays, List.filter_append,
      List.map_append, List.sum_append, List.filter_map, List.map_map]
    show grantedDays prior month + (List.map _ (List.filter (fun m => m.month = month)
      (computeFixedSalaryShares salary period.startDate period.endDate prior).months)).sum = _
    rw [old, shares month valid, granted]
    split_ifs with none
    · simp [none]
    · simp [monthShare]
  · intro month valid
    have old := h.total month valid
    have new : monthTotal [⟨period.startDate,
        (computeFixedSalaryShares salary period.startDate period.endDate prior).total,
        (computeFixedSalaryShares salary period.startDate period.endDate prior).months⟩] month =
        cumulativeShare salary (min (daysGranted (periods ++ [period]) month) month.days)
          month.days - cumulativeShare salary (min (daysGranted periods month) month.days)
            month.days := by
      unfold monthTotal
      rw [List.flatMap_singleton, shares month valid, granted]
      split_ifs with none
      · simp [none]
      · rw [List.map_singleton, List.sum_singleton,
          monthShare_amount valid (h.days month valid) ((amounts month).trans old)]
        push_cast
        rfl
    unfold PapitalErp.issuePayslip
    rw [monthTotal_append, old, new]
    ring

/-- The payslips of any periods, in any order, follow the rule. -/
theorem issuePayslips_followsRule (salary : ℕ) (periods : List PayrollPeriod) :
    FollowsRule salary periods (issuePayslips salary periods) := by
  induction periods using List.reverseRecOn with
  | nil =>
      refine ⟨by simp [issuePayslips], by simp [issuePayslips], fun month _ => rfl, ?_⟩
      intro month valid
      have zero := @cumulativeShare_eq salary month valid 0
      have positive := valid.days_bounds.1
      show 0 = cumulativeShare salary (min ((0 : ℕ) : ℤ) month.days) month.days
      rw [min_eq_left (by push_cast; omega), zero]
      simp [FinancialDecimal.round]
  | append_singleton periods period ih =>
      have := ih.issuePayslip period
      rwa [issuePayslips, List.foldl_append]

/-- However the payslips of an employee split, order or overlap their periods, after
each of them the shares are whole and not negative, and a month has been given the
rounded part of the salary for the days granted: the whole of it once its days are
granted, and never more. -/
theorem computeFixedSalaryShares_telescopes (salary : ℕ) (periods : List PayrollPeriod) :
    (∀ slip ∈ issuePayslips salary periods, ∀ share ∈ slip.fixedSalaryMonths,
      0 ≤ share.amount ∧ AtScale 0 share.amount) ∧
    ∀ month : JalaliMonth, month.Valid →
      monthTotal (issuePayslips salary periods) month =
          FinancialDecimal.round
            (salary * min (daysGranted periods month : ℚ) month.days / month.days) 0 ∧
        monthTotal (issuePayslips salary periods) month ≤ salary ∧
        (month.days ≤ daysGranted periods month →
          monthTotal (issuePayslips salary periods) month = salary) := by
  have rule := issuePayslips_followsRule salary periods
  refine ⟨rule.whole, ?_⟩
  intro month valid
  have total := rule.total month valid
  obtain ⟨granted, eq⟩ : ∃ n : ℕ, min (daysGranted periods month : ℤ) month.days = n := by
    have := valid.days_bounds.1
    exact Int.eq_ofNat_of_zero_le (by omega)
  have rational : min (daysGranted periods month : ℚ) month.days = granted := by
    have := congrArg (Int.cast (R := ℚ)) eq
    push_cast at this
    exact this
  refine ⟨?_, ?_, ?_⟩
  · rw [total, eq, rational, cumulativeShare_eq valid]
  · rw [total]
    exact (cumulativeShare_mono valid (min_le_right _ _)).trans_eq (cumulativeShare_whole valid)
  · intro complete
    rw [total, min_eq_right complete, cumulativeShare_whole valid]

end PapitalErp
