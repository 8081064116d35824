import PapitalErp.Lib.DecimalTexts
import PapitalErp.Reports.SalesGroups

/-!
# The periods of the management reports

`reportPeriods.ts`: the periods of a range, the key of a day, and the range that a
report is compared with. A range is a pair of stored dates. The ISO texts that the
functions return are modelled as day numbers; their years have four digits, so that
the texts are compared as the days are. Labels and presets are left out.
-/

namespace PapitalErp.ReportPeriods

open GregorianCalendar Sales SalesReports

/-! ## Months -/

/-- `jalaliOf` a stored date. -/
def jalaliOf (iso : StorageDate) : JalaliMonth × ℤ := gregorianToJalali iso.year iso.month iso.day

/-- `jalaliToGregorian` of any year. A comparison can reach back to the years that it
counts from 621. -/
def jalaliToGregorianAny (jy jm jd : ℤ) : ℤ × ℤ × ℤ :=
  if 979 < jy then jalaliToGregorian jy jm jd
  else
    let days := 365 * jy + jy / 33 * 8 + (jy % 33 + 3) / 4 + 78 + jd +
      if jm < 7 then (jm - 1) * 31 else (jm - 7) * 30 + 186
    let (gy, days) := passCenturies (621 + 400 * (days / 146097)) (days % 146097)
    let (gy, days) := passYears gy days
    let (gm, gd) := passMonths (0 :: monthLengths gy) 0 (days + 1)
    (gy, gm, gd)

/-- `isoOf`. -/
def isoOfAny (m : JalaliMonth) (jd : ℤ) : ℤ :=
  let (gy, gm, gd) := jalaliToGregorianAny m.year m.month jd
  dayNumber gy gm gd

/-- `jalaliMonthLength`. -/
def jalaliMonthLength (m : JalaliMonth) : ℤ := isoOfAny m.next 1 - isoOfAny m 1

/-- `isLastDayOfMonth`. -/
def isLastDayOfMonth (day : JalaliMonth × ℤ) : Bool := day.2 = jalaliMonthLength day.1

/-- `shiftMonths`. -/
def shiftMonths (day : JalaliMonth × ℤ) (months : ℤ) (snapToMonthEnd : Bool) : ℤ :=
  let target := monthOfIndex (monthIndex day.1.year day.1.month + months)
  let length := jalaliMonthLength target
  isoOfAny target (if snapToMonthEnd then length else min day.2 length)

/-! ## The periods of a range -/

/-- `periodKeyOf`. -/
def periodKeyOf (iso : StorageDate) (unit : ReportPeriodUnit) : String :=
  periodKey (jalaliOf iso).1 unit

/-- `periodBuckets`; `none` is its `null`. -/
def periodBuckets (first last : StorageDate) (unit : ReportPeriodUnit) (max : ℕ) :
    Option (List PeriodBucket) :=
  if isoToUtc last < isoToUtc first then none
  else bucketsFrom (jalaliOf first).1 unit (isoToUtc last) max 0

/-! ## The range of a comparison -/

inductive ReportCompareMode where
  | none
  | previous
  | lastYear

/-- `REPORT_PERIOD_UNITS`. -/
def reportPeriodUnits : List ReportPeriodUnit := [.month, .quarter, .year]

/-- `rangeDayCount`. -/
def rangeDayCount (first last : StorageDate) : ℤ := isoToUtc last - isoToUtc first + 1

/-- The range begins with a unit and ends in the same one. -/
def unitToDate (first last : StorageDate) (unit : ReportPeriodUnit) : Bool :=
  let span := unitRange (jalaliOf first).1 unit 0
  span.fromDay = isoToUtc first && isoToUtc last ≤ span.toDay

/-- Both ends are those of months. -/
def wholeMonths (first last : StorageDate) : Bool :=
  (jalaliOf first).2 = 1 && isLastDayOfMonth (jalaliOf last)

/-- `monthIndex(to) - monthIndex(from) + 1`. -/
def monthCount (first last : StorageDate) : ℤ :=
  monthIndex (jalaliOf last).1.year (jalaliOf last).1.month -
    monthIndex (jalaliOf first).1.year (jalaliOf first).1.month + 1

/-- `comparisonRange` in the mode of the previous period. -/
def previousRange (first last : StorageDate) : ReportRange :=
  if wholeMonths first last then
    { fromDay := shiftMonths (jalaliOf first) (-monthCount first last) false
      toDay := shiftMonths (jalaliOf last) (-monthCount first last) true }
  else
    match reportPeriodUnits.find? (unitToDate first last) with
    | some unit =>
      { fromDay := shiftMonths (jalaliOf first) (-unit.months) false
        toDay := shiftMonths (jalaliOf last) (-unit.months) false }
    | none =>
      { fromDay := isoToUtc first - 1 - (rangeDayCount first last - 1)
        toDay := isoToUtc first - 1 }

/-- `comparisonRange`. -/
def comparisonRange (first last : StorageDate) (mode : ReportCompareMode) : Option ReportRange :=
  if isoToUtc last < isoToUtc first then none
  else match mode with
    | .none => none
    | .lastYear => some
        { fromDay := shiftMonths (jalaliOf first) (-12) false
          toDay := shiftMonths (jalaliOf last) (-12) (isLastDayOfMonth (jalaliOf last)) }
    | .previous => some (previousRange first last)

end PapitalErp.ReportPeriods
