import PapitalErp.Lib.GregorianCalendar

/-!
# Stored dates and Jalali months

A stored date is an ISO date `YYYY-MM-DD` that exists, between 1900 and 2199.
The conversions to and from the Jalali calendar are the source's two 33-year
algorithms. `Date.UTC` is `dayNumber`, in days: every use of it divides by
`DAY_MS`.

`gregorianToJalali` is the inverse of `jalaliToGregorian` on stored dates, so
each stored day lies in exactly one Jalali month.
-/

namespace PapitalErp

open GregorianCalendar

/-- A date that `toStorageDate` returns. -/
structure StorageDate where
  year : ℤ
  month : ℤ
  day : ℤ
  exists_day : IsDate year month day
  in_range : 1900 ≤ year ∧ year ≤ 2199

/-- `isoToUtc`. -/
def isoToUtc (iso : StorageDate) : ℤ := dayNumber iso.year iso.month iso.day

/-- A Jalali month, which the source writes `YYYY/MM`. -/
structure JalaliMonth where
  year : ℤ
  month : ℤ
  deriving DecidableEq

/-! ## Jalali to Gregorian -/

/-- The month loop of `jalaliToGregorian`: the months whose days are used up. -/
def passMonths : List ℤ → ℤ → ℤ → ℤ × ℤ
  | [], gm, gd => (gm, gd)
  | length :: rest, gm, gd =>
      if length < gd then passMonths rest (gm + 1) (gd - length) else (gm, gd)

/-- The century step: a century year without a leap day skips index 365. -/
def passCenturies (gy days : ℤ) : ℤ × ℤ :=
  if 36524 < days then
    let days := days - 1
    (gy + 100 * (days / 36524),
      if 365 ≤ days % 36524 then days % 36524 + 1 else days % 36524)
  else (gy, days)

/-- The steps of four years and of one year. -/
def passYears (gy days : ℤ) : ℤ × ℤ :=
  let gy := gy + 4 * (days / 1461)
  let days := days % 1461
  if 365 < days then (gy + (days - 1) / 365, (days - 1) % 365) else (gy, days)

/-- The days from 1 January 1600 to a Jalali date after the year 979. -/
def jalaliDays (jy jm jd : ℤ) : ℤ :=
  365 * (jy - 979) + (jy - 979) / 33 * 8 + ((jy - 979) % 33 + 3) / 4 + 78 + jd +
    if jm < 7 then (jm - 1) * 31 else (jm - 7) * 30 + 186

/-- `jalaliToGregorian`, for years after 979. -/
def jalaliToGregorian (jy jm jd : ℤ) : ℤ × ℤ × ℤ :=
  let days := jalaliDays jy jm jd
  let (gy, days) := passCenturies (1600 + 400 * (days / 146097)) (days % 146097)
  let (gy, days) := passYears gy days
  let (gm, gd) := passMonths (0 :: monthLengths gy) 0 (days + 1)
  (gy, gm, gd)

theorem passCenturies_spec {gy days : ℤ} (h : 0 ≤ days) (h' : days < 146097) :
    ∃ b d, passCenturies gy days = (gy + 100 * b, d) ∧ 0 ≤ d ∧ d < 36525 ∧
      (b = 0 ∧ d = days ∨ 1 ≤ b ∧ b ≤ 3 ∧ d < 365 ∧ days = 36524 * b + 1 + d ∨
        1 ≤ b ∧ b ≤ 3 ∧ 366 ≤ d ∧ days = 36524 * b + d) := by
  unfold passCenturies
  split_ifs with later
  · dsimp only
    split_ifs
    · exact ⟨_, _, rfl, by omega, by omega, by omega⟩
    · exact ⟨_, _, rfl, by omega, by omega, by omega⟩
  · exact ⟨0, days, by simp, h, by omega, by omega⟩

theorem passYears_spec {gy d : ℤ} (h : 0 ≤ d) (h' : d < 36525) :
    ∃ c k r, passYears gy d = (gy + 4 * c + k, r) ∧ 0 ≤ c ∧ c ≤ 24 ∧ 0 ≤ k ∧ k ≤ 3 ∧ 0 ≤ r ∧
      (k = 0 ∧ d = 1461 * c + r ∧ r ≤ 365 ∨
        1 ≤ k ∧ d = 1461 * c + 365 * k + 1 + r ∧ r ≤ 364) := by
  unfold passYears
  dsimp only
  split_ifs
  · exact ⟨d / 1461, (d % 1461 - 1) / 365, _, rfl, by omega, by omega, by omega, by omega,
      by omega, by omega⟩
  · exact ⟨d / 1461, 0, _, by rw [add_zero], by omega, by omega, by omega, by omega, by omega,
      by omega⟩

/-- The month loop stops in the month that holds the day. -/
theorem passMonths_eq {lengths : List ℤ} {gd : ℤ} (h : 1 ≤ gd) (h' : gd ≤ lengths.sum) (gm : ℤ) :
    ∃ j < lengths.length, passMonths lengths gm gd = (gm + j, gd - (lengths.take j).sum) ∧
      1 ≤ gd - (lengths.take j).sum ∧ gd - (lengths.take j).sum ≤ lengths.getD j 0 := by
  induction lengths generalizing gm gd with
  | nil => exact absurd (h.trans h') (by simp)
  | cons length rest ih =>
      rw [List.sum_cons] at h'
      by_cases further : length < gd
      · obtain ⟨j, hj, stops, first, last⟩ := ih (show 1 ≤ gd - length by omega) (by omega) (gm + 1)
        refine ⟨j + 1, by simpa using hj, ?_, ?_, ?_⟩
        · rw [passMonths, if_pos further, stops, List.take_succ_cons, List.sum_cons]
          refine Prod.ext ?_ ?_
          · push_cast
            ring
          · ring
        · rw [List.take_succ_cons, List.sum_cons]
          omega
        · rw [List.take_succ_cons, List.sum_cons, List.getD_cons_succ]
          omega
      · refine ⟨0, by simp, ?_, by simpa using h, by simpa using further⟩
        rw [passMonths, if_neg further]
        simp

/-- The month and day of the month of a day of the year, counted from 0. -/
theorem passMonths_date {gy index : ℤ} (h : 0 ≤ index)
    (h' : index < 365 + if IsLeap gy then 1 else 0) :
    ∃ gm gd, passMonths (0 :: monthLengths gy) 0 (index + 1) = (gm, gd) ∧
      daysBeforeMonth gy gm + gd - 1 = index ∧ IsDate gy gm gd := by
  have within : index + 1 ≤ (0 :: monthLengths gy).sum := by
    rw [List.sum_cons, sum_monthLengths]
    omega
  obtain ⟨j, hj, stops, first, last⟩ := passMonths_eq (le_add_of_nonneg_left h) within 0
  obtain _ | j := j
  · simp at first last
    omega
  · rw [List.take_succ_cons, List.sum_cons] at stops first last
    rw [List.getD_cons_succ] at last
    have months : (monthLengths gy).length = 12 := rfl
    have position : ((0 + ((j + 1 : ℕ) : ℤ)) - 1).toNat = j := by omega
    refine ⟨_, _, stops, ?_, ?_⟩
    · rw [daysBeforeMonth, position]
      ring
    · rw [List.length_cons, months] at hj
      refine ⟨by omega, by omega, first, ?_⟩
      rw [position]
      exact last

/-- `jalaliToGregorian` keeps the day, and its result is a date. -/
theorem jalaliToGregorian_day (jy jm jd : ℤ) :
    ∃ gy gm gd, jalaliToGregorian jy jm jd = (gy, gm, gd) ∧ IsDate gy gm gd ∧
      dayNumber gy gm gd = dayFromYear 1600 + jalaliDays jy jm jd := by
  unfold jalaliToGregorian
  generalize jalaliDays jy jm jd = days
  obtain ⟨b, d, centuries, hd, hd', century⟩ :=
    @passCenturies_spec (1600 + 400 * (days / 146097)) (days % 146097) (by omega) (by omega)
  obtain ⟨c, k, r, years, hc, hc', hk, hk', hr, year⟩ :=
    @passYears_spec (1600 + 400 * (days / 146097) + 100 * b) d hd hd'
  have hb : 0 ≤ b ∧ b ≤ 3 := by omega
  have first := dayFromYear_split (days / 146097) hb ⟨hc, hc'⟩ ⟨hk, hk'⟩
  have leap := isLeap_split (days / 146097) hb ⟨hc, hc'⟩ ⟨hk, hk'⟩
  have inYear : r < 365 +
      if IsLeap (1600 + 400 * (days / 146097) + 100 * b + 4 * c + k) then 1 else 0 := by
    simp only [leap]
    clear first leap centuries years
    split_ifs <;> omega
  obtain ⟨gm, gd, months, index, date⟩ := passMonths_date hr inYear
  refine ⟨_, gm, gd, ?_, date, ?_⟩
  · simp only [centuries, years, months]
  · rw [dayNumber, add_assoc, add_sub_assoc, index, first]
    clear first leap centuries years months index inYear date
    split_ifs <;> omega

/-! ## Gregorian to Jalali -/

/-- `gDaysBeforeMonth`, of a year without a leap day. -/
def gDaysBeforeMonth : List ℤ := [0, 31, 59, 90, 120, 151, 181, 212, 243, 273, 304, 334]

/-- The day count of `gregorianToJalali`. -/
def gregorianDays (gy gm gd : ℤ) : ℤ :=
  let gy2 := if 2 < gm then gy + 1 else gy
  355666 + 365 * gy + (gy2 + 3) / 4 - (gy2 + 99) / 100 + (gy2 + 399) / 400 + gd +
    gDaysBeforeMonth.getD (gm - 1).toNat 0

/-- `gregorianToJalali`. -/
def gregorianToJalali (gy gm gd : ℤ) : JalaliMonth × ℤ :=
  let days := gregorianDays gy gm gd
  let jy := -1595 + 33 * (days / 12053)
  let days := days % 12053
  let jy := jy + 4 * (days / 1461)
  let days := days % 1461
  let (jy, days) := if 365 < days then (jy + (days - 1) / 365, (days - 1) % 365) else (jy, days)
  if days < 186 then (⟨jy, 1 + days / 31⟩, 1 + days % 31)
  else (⟨jy, 7 + (days - 186) / 30⟩, 1 + (days - 186) % 30)

/-- The days before a month are those of a year without a leap day, and the leap day from March on. -/
theorem daysBeforeMonth_eq {gy gm : ℤ} (first : 1 ≤ gm) (last : gm ≤ 12) :
    daysBeforeMonth gy gm =
      gDaysBeforeMonth.getD (gm - 1).toNat 0 + if 2 < gm ∧ IsLeap gy then 1 else 0 := by
  unfold daysBeforeMonth monthLengths
  by_cases leap : IsLeap gy <;> simp only [leap, if_true, if_false, and_true, and_false] <;> interval_cases gm <;> rfl

/-- The leap days up to a year, from its first day. -/
theorem leapDays_eq (gy : ℤ) : (gy + 3) / 4 - (gy + 99) / 100 + (gy + 399) / 400 =
    dayFromYear gy + 719528 - 365 * gy := by
  unfold dayFromYear
  omega

/-- The count of `gregorianToJalali` starts 1075195 days before 1970. -/
theorem gregorianDays_eq {gy gm gd : ℤ} (date : IsDate gy gm gd) :
    gregorianDays gy gm gd = dayNumber gy gm gd + 1075195 := by
  obtain ⟨first, last, -, -⟩ := date
  have year := leapDays_eq gy
  have later := leapDays_eq (gy + 1)
  rw [dayFromYear_succ] at later
  rw [gregorianDays, dayNumber, daysBeforeMonth_eq first last]
  by_cases march : 2 < gm
  · simp only [march, if_true, true_and]
    linarith
  · simp only [march, if_false, false_and]
    linarith

/-! ## The months of the Jalali calendar -/

namespace JalaliMonth

/-- A month of the calendar, in the years both algorithms agree on. -/
def Valid (m : JalaliMonth) : Prop := 980 ≤ m.year ∧ 1 ≤ m.month ∧ m.month ≤ 12

/-- `nextJalaliMonth`. -/
def next (m : JalaliMonth) : JalaliMonth :=
  if m.month = 12 then ⟨m.year + 1, 1⟩ else ⟨m.year, m.month + 1⟩

/-- `jalaliMonthStartUtc`. -/
def startUtc (m : JalaliMonth) : ℤ :=
  let (gy, gm, gd) := jalaliToGregorian m.year m.month 1
  dayNumber gy gm gd

/-- `jalaliMonthDays`. -/
def days (m : JalaliMonth) : ℤ := m.next.startUtc - m.startUtc

variable {m : JalaliMonth}

theorem Valid.next (h : m.Valid) : m.next.Valid := by
  obtain ⟨later, first, last⟩ := h
  unfold JalaliMonth.next
  split_ifs with december
  · exact ⟨show 980 ≤ m.year + 1 by omega, le_rfl, show (1 : ℤ) ≤ 12 by omega⟩
  · exact ⟨later, show 1 ≤ m.month + 1 by omega, show m.month + 1 ≤ 12 by omega⟩

theorem startUtc_eq_days (m : JalaliMonth) :
    m.startUtc = dayFromYear 1600 + jalaliDays m.year m.month 1 := by
  obtain ⟨gy, gm, gd, converted, -, day⟩ := jalaliToGregorian_day m.year m.month 1
  rw [JalaliMonth.startUtc, converted, ← day]

end JalaliMonth

/-- The Jalali month of a stored date. -/
def StorageDate.jalaliMonth (iso : StorageDate) : JalaliMonth :=
  (gregorianToJalali iso.year iso.month iso.day).1

/-- The year and the day of the year, from 0, that `gregorianToJalali` reads off
its day count. -/
def jalaliYearOfDays (days : ℤ) : ℤ × ℤ :=
  let jy := -1595 + 33 * (days / 12053) + 4 * (days % 12053 / 1461)
  let days := days % 12053 % 1461
  if 365 < days then (jy + (days - 1) / 365, (days - 1) % 365) else (jy, days)

theorem gregorianToJalali_eq (gy gm gd : ℤ) : gregorianToJalali gy gm gd =
    let (jy, days) := jalaliYearOfDays (gregorianDays gy gm gd)
    if days < 186 then (⟨jy, 1 + days / 31⟩, 1 + days % 31)
    else (⟨jy, 7 + (days - 186) / 30⟩, 1 + (days - 186) % 30) := rfl

/-- The days from 1 January 1600 to 1 Farvardin. -/
def jalaliNewYear (jy : ℤ) : ℤ :=
  365 * (jy - 979) + (jy - 979) / 33 * 8 + ((jy - 979) % 33 + 3) / 4 + 79

/-- The 33-year cycle of the two conversions is the same. -/
theorem jalaliYearOfDays_spec (days : ℤ) : ∃ jy index, jalaliYearOfDays days = (jy, index) ∧
    jalaliNewYear jy + index + dayFromYear 1600 = days - 1075195 ∧ 0 ≤ index ∧
      jalaliNewYear jy + index < jalaliNewYear (jy + 1) ∧ 33 * (days / 12053) - 1595 ≤ jy := by
  unfold jalaliYearOfDays jalaliNewYear dayFromYear
  dsimp only
  split_ifs
  · refine ⟨_, _, rfl, ?_, ?_, ?_, ?_⟩ <;> omega
  · refine ⟨_, _, rfl, by omega, by omega, ?_, by omega⟩
    -- the ninth group of a cycle is a single common year
    have early : (-1595 + 33 * (days / 12053) + 4 * (days % 12053 / 1461) - 979) / 33 =
        days / 12053 - 78 := by
      omega
    by_cases last : days % 12053 / 1461 = 8
    · rw [last]
      omega
    · have same : (-1595 + 33 * (days / 12053) + 4 * (days % 12053 / 1461) + 1 - 979) / 33 =
          days / 12053 - 78 := by
        omega
      omega

/-- A year has 365 days, or 366. -/
theorem jalaliNewYear_succ (jy : ℤ) :
    jalaliNewYear jy + 365 ≤ jalaliNewYear (jy + 1) ∧ jalaliNewYear (jy + 1) ≤ jalaliNewYear jy + 366 := by
  unfold jalaliNewYear
  omega

theorem jalaliNewYear_mono {jy jy' : ℤ} (h : jy ≤ jy') : jalaliNewYear jy ≤ jalaliNewYear jy' := by
  induction jy', h using Int.leInduction with
  | base => exact le_rfl
  | succ jy' h ih => linarith [(jalaliNewYear_succ jy').1]

namespace JalaliMonth

variable {m m' : JalaliMonth}

theorem startUtc_eq (m : JalaliMonth) :
    m.startUtc = dayFromYear 1600 + jalaliNewYear m.year +
      if m.month < 7 then (m.month - 1) * 31 else (m.month - 7) * 30 + 186 := by
  rw [m.startUtc_eq_days, jalaliDays, jalaliNewYear]
  omega

/-- Six months of 31 days, five of 30, and the rest of the year. -/
theorem days_eq (last : m.month ≤ 12) :
    m.days = if m.month < 7 then 31 else if m.month < 12 then 30
      else jalaliNewYear (m.year + 1) - jalaliNewYear m.year - 336 := by
  rw [days, startUtc_eq, startUtc_eq, next]
  by_cases december : m.month = 12
  · simp only [december, if_true, Int.reduceLT, if_false]
    ring
  · simp only [december, if_false]
    split_ifs <;> omega

/-- Months have 29 to 31 days. -/
theorem Valid.days_bounds (h : m.Valid) : 29 ≤ m.days ∧ m.days ≤ 31 := by
  have length := jalaliNewYear_succ m.year
  rw [days_eq h.2.2]
  split_ifs <;> omega

/-- Months in the order of the calendar. -/
def index (m : JalaliMonth) : ℤ := 12 * m.year + m.month

theorem index_next (m : JalaliMonth) (h : m.Valid) : m.next.index = m.index + 1 := by
  obtain ⟨-, first, last⟩ := h
  unfold index next
  split_ifs <;> dsimp only <;> omega

theorem Valid.eq_of_index (h : m.Valid) (h' : m'.Valid) (same : m.index = m'.index) : m = m' := by
  obtain ⟨year, month⟩ := m
  obtain ⟨year', month'⟩ := m'
  obtain ⟨-, first, last⟩ := h
  obtain ⟨-, first', last'⟩ := h'
  simp only [index] at *
  rw [JalaliMonth.mk.injEq]
  omega

/-- A month ends before the later ones start. -/
theorem Valid.next_startUtc_le (h : m.Valid) (h' : m'.Valid) (before : m.index < m'.index) :
    m.next.startUtc ≤ m'.startUtc := by
  have ends : m.next.startUtc = m.startUtc + m.days := by
    rw [days]
    ring
  have length := jalaliNewYear_succ m.year
  have year : m.year ≤ m'.year := by
    unfold index at before
    linarith [h.2.1, h'.2.2]
  rw [ends, startUtc_eq, startUtc_eq, days_eq h.2.2]
  obtain ⟨-, first, last⟩ := h
  obtain ⟨-, first', last'⟩ := h'
  obtain same | later := year.eq_or_lt
  · unfold index at before
    rw [← same] at before ⊢
    clear ends
    split_ifs <;> omega
  · have nextYear := jalaliNewYear_mono (show m.year + 1 ≤ m'.year from later)
    clear ends before
    split_ifs <;> omega

end JalaliMonth

/-! ## Day numbers -/

/-- The Jalali date of a day number: the month, and the day of the month. -/
def jalaliDay (n : ℤ) : JalaliMonth × ℤ :=
  let (jy, days) := jalaliYearOfDays (n + 1075195)
  if days < 186 then (⟨jy, 1 + days / 31⟩, 1 + days % 31)
  else (⟨jy, 7 + (days - 186) / 30⟩, 1 + (days - 186) % 30)

/-- The month of a day, from the year 980 on. -/
theorem jalaliDay_spec {n : ℤ} (later : -134695 ≤ n) :
    (jalaliDay n).1.Valid ∧ n = (jalaliDay n).1.startUtc + (jalaliDay n).2 - 1 ∧
      1 ≤ (jalaliDay n).2 ∧ (jalaliDay n).2 ≤ (jalaliDay n).1.days := by
  obtain ⟨jy, index, year, position, nonneg, inYear, -⟩ := jalaliYearOfDays_spec (n + 1075195)
  have length := (jalaliNewYear_succ jy).2
  have start : dayFromYear 1600 = -135140 := rfl
  have early : 980 ≤ jy := by
    by_contra before
    have first := jalaliNewYear_mono (show jy + 1 ≤ 980 by omega)
    rw [show jalaliNewYear 980 = 445 from rfl] at first
    linarith
  rw [jalaliDay, year]
  dsimp only
  split_ifs with half
  · have last : 1 + index / 31 ≤ 12 := by omega
    refine ⟨⟨early, show 1 ≤ 1 + index / 31 by omega, last⟩, ?_, by omega, ?_⟩
    · rw [JalaliMonth.startUtc_eq, if_pos (show 1 + index / 31 < 7 by omega)]
      dsimp only
      omega
    · rw [JalaliMonth.days_eq last, if_pos (show 1 + index / 31 < 7 by omega)]
      omega
  · have last : 7 + (index - 186) / 30 ≤ 12 := by omega
    refine ⟨⟨early, show 1 ≤ 7 + (index - 186) / 30 by omega, last⟩, ?_, by omega, ?_⟩
    · rw [JalaliMonth.startUtc_eq, if_neg (show ¬7 + (index - 186) / 30 < 7 by omega)]
      dsimp only
      omega
    · rw [JalaliMonth.days_eq last, if_neg (show ¬7 + (index - 186) / 30 < 7 by omega)]
      dsimp only
      split_ifs <;> omega

/-- A day is in the month that it falls in. -/
theorem JalaliMonth.Valid.eq_of_mem {m m' : JalaliMonth} (h : m.Valid) (h' : m'.Valid) {n : ℤ}
    (first : m.startUtc ≤ n) (last : n < m.next.startUtc) (first' : m'.startUtc ≤ n)
    (last' : n < m'.next.startUtc) : m = m' := by
  refine h.eq_of_index h' (le_antisymm ?_ ?_)
  · by_contra before
    linarith [h'.next_startUtc_le h (not_le.mp before)]
  · by_contra before
    linarith [h.next_startUtc_le h' (not_le.mp before)]

theorem jalaliDay_startUtc {m : JalaliMonth} (h : m.Valid) {d : ℤ} (first : 1 ≤ d) (last : d ≤ m.days) :
    jalaliDay (m.startUtc + d - 1) = (m, d) := by
  have lowest : -134695 ≤ m.startUtc := by
    have year := jalaliNewYear_mono h.1
    rw [m.startUtc_eq, show dayFromYear 1600 = -135140 from rfl]
    rw [show jalaliNewYear 980 = 445 from rfl] at year
    have month := h.2.1
    split_ifs <;> linarith
  obtain ⟨valid, day, one, inMonth⟩ := @jalaliDay_spec (m.startUtc + d - 1) (by linarith)
  unfold JalaliMonth.days at last inMonth
  have same : (jalaliDay (m.startUtc + d - 1)).1 = m := by
    refine valid.eq_of_mem (n := m.startUtc + d - 1) h ?_ ?_ ?_ ?_ <;> linarith
  rw [same] at day
  exact Prod.ext same (show (jalaliDay (m.startUtc + d - 1)).2 = d by linarith)

theorem isoToUtc_bounds (iso : StorageDate) : -25567 ≤ isoToUtc iso ∧ isoToUtc iso ≤ 84005 := by
  obtain ⟨first, last⟩ := iso.exists_day.inYear
  have start : dayFromYear 1900 ≤ dayFromYear iso.year := dayFromYear_mono iso.in_range.1
  have finish : dayFromYear (iso.year + 1) ≤ dayFromYear 2200 :=
    dayFromYear_mono (by linarith [iso.in_range.2])
  rw [show dayFromYear 1900 = -25567 from rfl] at start
  rw [show dayFromYear 2200 = 84006 from rfl] at finish
  rw [isoToUtc]
  constructor <;> linarith

theorem gregorianToJalali_iso (iso : StorageDate) :
    gregorianToJalali iso.year iso.month iso.day = jalaliDay (isoToUtc iso) := by
  rw [gregorianToJalali_eq, gregorianDays_eq iso.exists_day]
  rfl

/-- A stored day lies in the month that `gregorianToJalali` gives it. -/
theorem StorageDate.jalaliMonth_spec (iso : StorageDate) :
    iso.jalaliMonth.Valid ∧ iso.jalaliMonth.startUtc ≤ isoToUtc iso ∧
      isoToUtc iso < iso.jalaliMonth.next.startUtc := by
  obtain ⟨valid, day, one, inMonth⟩ := @jalaliDay_spec (isoToUtc iso) (by linarith [(isoToUtc_bounds iso).1])
  rw [StorageDate.jalaliMonth, gregorianToJalali_iso]
  rw [JalaliMonth.days] at inMonth
  exact ⟨valid, by linarith, by linarith⟩

end PapitalErp
