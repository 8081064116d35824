import Mathlib

/-!
# Gregorian day numbers

Days are counted from 1 January 1970, the day a JavaScript time value of 0
falls on, in the proleptic Gregorian calendar. `dayNumber` is the count that
`Date.UTC` makes for a month between 1 and 12, in days instead of milliseconds.

The one fact that conversions between calendars need is `dayFromYear_split`:
the first day of a year, from the number of 400-year cycles, centuries, 4-year
groups and single years since 1600.
-/

namespace GregorianCalendar

/-- A leap year: February has 29 days. -/
def IsLeap (year : ℤ) : Prop := year % 4 = 0 ∧ year % 100 ≠ 0 ∨ year % 400 = 0

instance (year : ℤ) : Decidable (IsLeap year) := inferInstanceAs (Decidable (_ ∨ _))

/-- The day number of 1 January. -/
def dayFromYear (year : ℤ) : ℤ :=
  365 * (year - 1970) + (year - 1969) / 4 - (year - 1901) / 100 + (year - 1601) / 400

/-- The lengths of the twelve months. -/
def monthLengths (year : ℤ) : List ℤ :=
  [31, if IsLeap year then 29 else 28, 31, 30, 31, 30, 31, 31, 30, 31, 30, 31]

/-- The days of the year before a month. -/
def daysBeforeMonth (year month : ℤ) : ℤ :=
  ((monthLengths year).take (month - 1).toNat).sum

/-- The day number of a date. -/
def dayNumber (year month day : ℤ) : ℤ :=
  dayFromYear year + daysBeforeMonth year month + day - 1

/-- The month of the year and the day of that month. -/
def IsDate (year month day : ℤ) : Prop :=
  1 ≤ month ∧ month ≤ 12 ∧ 1 ≤ day ∧ day ≤ (monthLengths year).getD (month - 1).toNat 0

instance (year month day : ℤ) : Decidable (IsDate year month day) :=
  inferInstanceAs (Decidable (_ ∧ _ ∧ _ ∧ _))

/-- The first day of year `1600 + 400a + 100b + 4c + k`. A group of four years
has one leap day, in its first year, unless that year opens a later century. -/
theorem dayFromYear_split (a : ℤ) {b c k : ℤ} (hb : 0 ≤ b ∧ b ≤ 3) (hc : 0 ≤ c ∧ c ≤ 24)
    (hk : 0 ≤ k ∧ k ≤ 3) :
    dayFromYear (1600 + 400 * a + 100 * b + 4 * c + k) =
      dayFromYear 1600 + 146097 * a + 36524 * b + 1461 * c + 365 * k +
        (if k = 0 then 0 else 1) + (if b = 0 ∨ c ≠ 0 ∨ k ≠ 0 then 0 else 1) := by
  have quarter : (1600 + 400 * a + 100 * b + 4 * c + k - 1969) / 4 =
      100 * a + 25 * b + c - 93 + if k = 0 then 0 else 1 := by
    clear hb hc
    split_ifs <;> omega
  have century : (1600 + 400 * a + 100 * b + 4 * c + k - 1901) / 100 =
      4 * a + b - 4 + if c = 0 ∧ k = 0 then 0 else 1 := by
    clear hb quarter
    split_ifs <;> omega
  have cycle : (1600 + 400 * a + 100 * b + 4 * c + k - 1601) / 400 =
      a - 1 + if b = 0 ∧ c = 0 ∧ k = 0 then 0 else 1 := by
    clear quarter century
    split_ifs <;> omega
  rw [show dayFromYear 1600 = -135140 from rfl, dayFromYear, quarter, century, cycle]
  by_cases year : k = 0 <;> by_cases group : c = 0 <;> by_cases late : b = 0 <;>
    simp [year, group, late] <;> ring

/-- The leap years among them. -/
theorem isLeap_split (a : ℤ) {b c k : ℤ} (hb : 0 ≤ b ∧ b ≤ 3) (hc : 0 ≤ c ∧ c ≤ 24)
    (hk : 0 ≤ k ∧ k ≤ 3) :
    IsLeap (1600 + 400 * a + 100 * b + 4 * c + k) ↔ k = 0 ∧ (b = 0 ∨ c ≠ 0) := by
  unfold IsLeap
  omega

/-- The next year begins after the 365 days of this one and its leap day. -/
theorem dayFromYear_succ (year : ℤ) :
    dayFromYear (year + 1) = dayFromYear year + 365 + if IsLeap year then 1 else 0 := by
  have fourth : (year + 1 - 1969) / 4 = (year - 1969) / 4 + if year % 4 = 0 then 1 else 0 := by
    split_ifs <;> omega
  have century : (year + 1 - 1901) / 100 =
      (year - 1901) / 100 + if year % 100 = 0 then 1 else 0 := by
    clear fourth
    split_ifs <;> omega
  have cycle : (year + 1 - 1601) / 400 = (year - 1601) / 400 + if year % 400 = 0 then 1 else 0 := by
    clear fourth century
    split_ifs <;> omega
  have nested : (year % 400 = 0 → year % 100 = 0) ∧ (year % 100 = 0 → year % 4 = 0) := by
    clear fourth century cycle
    omega
  rw [dayFromYear, dayFromYear, fourth, century, cycle]
  clear fourth century cycle
  unfold IsLeap
  by_cases four : year % 4 = 0 <;> by_cases hundred : year % 100 = 0 <;>
    by_cases fourHundred : year % 400 = 0 <;> simp_all <;> ring

theorem dayFromYear_mono {year year' : ℤ} (h : year ≤ year') : dayFromYear year ≤ dayFromYear year' := by
  induction year', h using Int.leInduction with
  | base => exact le_rfl
  | succ year' h ih =>
      rw [dayFromYear_succ]
      split_ifs <;> linarith

theorem sum_monthLengths (year : ℤ) :
    (monthLengths year).sum = 365 + if IsLeap year then 1 else 0 := by
  unfold monthLengths
  split_ifs <;> rfl

theorem monthLengths_nonneg (year : ℤ) : ∀ length ∈ monthLengths year, 0 ≤ length := by
  unfold monthLengths
  split_ifs <;> decide

theorem sum_take_add_le {lengths : List ℤ} (nonneg : ∀ length ∈ lengths, 0 ≤ length) (k : ℕ) :
    (lengths.take k).sum + lengths.getD k 0 ≤ lengths.sum := by
  induction lengths generalizing k with
  | nil => simp
  | cons length rest ih =>
      have later := fun next mem => nonneg next (List.mem_cons_of_mem length mem)
      obtain _ | k := k
      · simpa using List.sum_nonneg later
      · have step := ih later k
        rw [List.take_succ_cons, List.sum_cons, List.sum_cons, List.getD_cons_succ]
        linarith

/-- A date is one of the days of its year. -/
theorem IsDate.inYear {year month day : ℤ} (date : IsDate year month day) :
    dayFromYear year ≤ dayNumber year month day ∧
      dayNumber year month day < dayFromYear (year + 1) := by
  obtain ⟨-, -, one, inMonth⟩ := date
  have fits := sum_take_add_le (monthLengths_nonneg year) (month - 1).toNat
  have before : 0 ≤ daysBeforeMonth year month :=
    List.sum_nonneg fun length mem => monthLengths_nonneg year length (List.mem_of_mem_take mem)
  rw [sum_monthLengths] at fits
  rw [dayNumber, dayFromYear_succ]
  rw [daysBeforeMonth] at before ⊢
  constructor <;> linarith

end GregorianCalendar
