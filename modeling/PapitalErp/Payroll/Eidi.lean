import PapitalErp.FinancialDecimal
import PapitalErp.CalendarDate
import PapitalErp.Lib.Transition
import PapitalErp.Lib.FilteredSums

/-!
# The yearly bonus (eidi)

With the method `percent_of_work` every ordinary payslip keeps a share of the
yearly bonus, a percentage of its base up to what the shares of the year leave
of the yearly cap. A bonus payslip pays the bonus of a year and says which part
of it comes out of the shares accrued on approved payslips.

The rates of the years stay as they are during a run. Checks that only refuse
(permissions, vouchers, treasury balances, dates) are left out: a refused
request changes nothing.
-/

namespace PapitalErp

open Rounding Transition FilteredSums

/-! ## Rates of a year -/

inductive EidiMethod where
  | percentOfWork
  | laborLaw
  | fixedAmount
  deriving DecidableEq

structure EidiRates where
  jalaliYear : ℤ
  method : EidiMethod
  percent : ℚ
  yearlyCap : ℚ
  laborDays : ℚ
  laborCapDays : ℚ
  minDailyWage : ℚ
  fixedAmount : ℚ

/-- `eidiRatesError`; the method is one of the three by its type. -/
def eidiRatesError (r : EidiRates) : Option String :=
  if r.jalaliYear < 1390 ∨ 1500 < r.jalaliYear then some "سال جلالی نرخ عیدی معتبر نیست."
  else if ¬∀ v ∈ [r.percent, r.yearlyCap, r.laborDays, r.laborCapDays, r.minDailyWage,
      r.fixedAmount], 0 ≤ v then
    some "رقم‌های عیدی نمی‌توانند منفی باشند."
  else
    match r.method with
    | .percentOfWork =>
        if r.percent ≤ 0 ∨ 100 < r.percent then
          some "درصد عیدی باید بیش از صفر و تا ۱۰۰ باشد."
        else if r.yearlyCap ≤ 0 then some "سقف سالانه عیدی را وارد کنید."
        else none
    | .laborLaw =>
        if r.laborDays ≤ 0 ∨ r.laborCapDays ≤ 0 then
          some "روزهای مزد عیدی و روزهای سقف را وارد کنید."
        else if r.minDailyWage ≤ 0 then some "حداقل مزد روزانه سال را وارد کنید."
        else none
    | .fixedAmount =>
        if r.fixedAmount ≤ 0 then some "مبلغ عیدی سال را وارد کنید." else none

/-- `saveEidiRates`: the row that is stored, in the scales of its columns. -/
def saveEidiRates (r : EidiRates) : Except String EidiRates :=
  match eidiRatesError r with
  | some message => .error message
  | none => .ok
      { r with
        percent := roundHalfUp 4 r.percent
        yearlyCap := money r.yearlyCap
        laborDays := roundHalfUp 2 r.laborDays
        laborCapDays := roundHalfUp 2 r.laborCapDays
        minDailyWage := money r.minDailyWage
        fixedAmount := money r.fixedAmount }

/-- The rates table, one row for a year at most. -/
structure EidiRatesTable where
  ofYear : ℤ → Option EidiRates
  saved : ∀ year r, ofYear year = some r → r.jalaliYear = year ∧ ∃ input, saveEidiRates input = .ok r

/-! ## Shares, entitlement and suggestion -/

/-- `payslipEidiShare`. -/
def payslipEidiShare (base : ℚ) (rates : Option EidiRates) (otherShares : ℚ) : ℚ :=
  match rates with
  | none => 0
  | some r =>
      if r.method ≠ .percentOfWork then 0
      else if base ≤ 0 then 0
      else
        let raw := FinancialDecimal.round (FinancialDecimal.divide (base * r.percent) 100 10) 0
        let room := r.yearlyCap - otherShares
        if room ≤ 0 then 0 else FinancialDecimal.round (if room < raw then room else raw) 0

/-- `eidiEntitlement`. -/
def eidiEntitlement (r : EidiRates) (monthlySalary : ℚ) (workedDays yearDays : ℤ) : Option ℚ :=
  if r.method = .percentOfWork ∨ yearDays ≤ 0 then none
  else
    let share := FinancialDecimal.divide (max 0 workedDays : ℤ) yearDays 10
    if r.method = .fixedAmount then some (FinancialDecimal.round (r.fixedAmount * share) 0)
    else
      let byWage := FinancialDecimal.divide monthlySalary 30 10 * r.laborDays
      let cap := r.minDailyWage * r.laborCapDays
      some (FinancialDecimal.round ((if cap < byWage then cap else byWage) * share) 0)

structure EidiPayslipSuggestion where
  method : EidiMethod
  amount : ℚ
  remainingAccrual : ℚ
  entitlement : Option ℚ

/-- `suggestEidiPayslip`. -/
def suggestEidiPayslip (rates : EidiRates) (accruedApproved issuedFromAccrual issuedTotal
    monthlySalary : ℚ) (workedDays yearDays : ℤ) (covered : Bool) : EidiPayslipSuggestion :=
  let remaining := accruedApproved - issuedFromAccrual
  let remainingAccrual := if 0 < remaining then remaining else 0
  let entitlement :=
    if covered then eidiEntitlement rates monthlySalary workedDays yearDays else none
  let due := match entitlement with
    | none => remainingAccrual
    | some e => e - issuedTotal
  { method := rates.method
    amount := FinancialDecimal.round (if 0 < due then due else 0) 0
    remainingAccrual := FinancialDecimal.round remainingAccrual 0
    entitlement }

/-- `eidiFromAccrual`. -/
def eidiFromAccrual (amount remainingAccrual : ℚ) : ℚ :=
  if amount ≤ 0 ∨ remainingAccrual ≤ 0 then 0
  else FinancialDecimal.round (if remainingAccrual < amount then remainingAccrual else amount) 4

/-! ## Payslips -/

inductive PayrollStatus where
  | draft
  | approved
  | partiallyPaid
  | paid
  deriving DecidableEq

structure PieceworkPayroll where
  id : ℕ
  personnelId : ℕ
  isEidi : Bool
  eidiYear : Option ℤ
  eidiAmount : ℚ
  eidiFromAccrual : ℚ
  status : PayrollStatus
  netPayable : ℚ
  paidAmount : ℚ
  isDeleted : Bool

/-- The payslips and the number of the next one. -/
structure Payrolls where
  rows : List PieceworkPayroll
  nextId : ℕ

/-- A live payslip of the person in the bonus year. -/
def PieceworkPayroll.inYear (personnelId : ℕ) (year : ℤ) (row : PieceworkPayroll) : Bool :=
  !row.isDeleted && row.personnelId == personnelId && row.eidiYear == some year

structure EidiYearTotals where
  accruedApproved : ℚ
  accruedDraft : ℚ
  issuedTotal : ℚ
  issuedFromAccrual : ℚ

/-- `eidiYearTotals`, the sums that decide. -/
def eidiYearTotals (rows : List PieceworkPayroll) (personnelId : ℕ) (year : ℤ) : EidiYearTotals :=
  let sumOf p f := sumWhere (fun row : PieceworkPayroll => row.inYear personnelId year && p row) f rows
  { accruedApproved := sumOf (fun row => !row.isEidi && row.status != .draft) (·.eidiAmount)
    accruedDraft := sumOf (fun row => !row.isEidi && row.status == .draft) (·.eidiAmount)
    issuedTotal := sumOf (·.isEidi) (·.eidiAmount)
    issuedFromAccrual := sumOf (·.isEidi) (·.eidiFromAccrual) }

/-- `payrollStatutoryYear`. -/
def payrollStatutoryYear (endIso : StorageDate) : Option ℤ :=
  if 1300 < endIso.jalaliMonth.year then some endIso.jalaliMonth.year else none

/-- `resolvePayslipEidiShare`: the bonus year and the share. -/
def resolvePayslipEidiShare (rates : EidiRatesTable) (rows : List PieceworkPayroll)
    (personnelId : ℕ) (endIso : StorageDate) (base : ℚ) (eidiCovered : Bool) : Option ℤ × ℚ :=
  if !eidiCovered then (none, 0)
  else
    match payrollStatutoryYear endIso with
    | none => (none, 0)
    | some year =>
        match rates.ofYear year with
        | none => (some year, 0)
        | some r =>
            if r.method ≠ .percentOfWork then (some year, 0)
            else
              let totals := eidiYearTotals rows personnelId year
              (some year, payslipEidiShare base (some r)
                (totals.accruedApproved + totals.accruedDraft))

/-! ## Requests -/

inductive PayrollError where
  | payrollNotFound
  | eidiRatesMissing
  | netNegative
  | negativeComponent
  | eidiOverrideReasonRequired
  | eidiAmountZero
  | eidiAlreadySettled
  | hasPayments
  | notPayable
  | nothingToPay
  | amountInvalid
  | eidiNotEditable
  | notDraft

/-- The statuses a user may set, `MANUAL_PAYROLL_STATUSES`. -/
inductive ManualPayrollStatus where
  | draft
  | approved
  deriving DecidableEq

def ManualPayrollStatus.status : ManualPayrollStatus → PayrollStatus
  | draft => .draft
  | approved => .approved

structure IssueEidiInput where
  personnelId : ℕ
  year : ℤ
  amount : Option ℚ
  hasOverrideReason : Bool
  eidiCovered : Bool
  monthlySalary : ℚ
  workedDays : ℤ
  yearDays : ℤ

/-- The requests that write payslips; the amounts and the person's data they read
elsewhere are their arguments. -/
inductive PayrollOp where
  | generatePayroll (personnelId : ℕ) (endIso : StorageDate) (base net : ℚ) (eidiCovered : Bool)
  | issueEidiPayslip (input : IssueEidiInput)
  | editDraftPayroll (id : ℕ) (net : ℚ)
  | updatePayrollStatus (id : ℕ) (target : Option ManualPayrollStatus)
  | registerPayrollPayment (id : ℕ) (amount : Option ℚ)
  | voidPayrollPayment (id : ℕ) (amount : ℚ)
  | deletePayroll (id : ℕ)

/-- The live payslip with an id. -/
def Payrolls.find (s : Payrolls) (id : ℕ) : Except PayrollError PieceworkPayroll :=
  match s.rows.find? fun row => row.id = id ∧ row.isDeleted = false with
  | none => .error .payrollNotFound
  | some row => .ok row

def Payrolls.insert (s : Payrolls) (row : PieceworkPayroll) : Payrolls :=
  ⟨s.rows ++ [{ row with id := s.nextId }], s.nextId + 1⟩

def Payrolls.update (s : Payrolls) (id : ℕ) (f : PieceworkPayroll → PieceworkPayroll) : Payrolls :=
  { s with rows := s.rows.map fun row => if row.id = id then f row else row }

/-- The shares of a payslip are not taken back once a bonus payslip has paid them,
`assertEidiShareNotSettled`. -/
def assertEidiShareNotSettled (rows : List PieceworkPayroll) (pay : PieceworkPayroll) :
    Except PayrollError Unit :=
  if pay.isEidi = true ∨ pay.status = .draft then .ok ()
  else
    match pay.eidiYear with
    | none => .ok ()
    | some year =>
        if pay.eidiAmount ≤ 0 then .ok ()
        else
          let totals := eidiYearTotals rows pay.personnelId year
          ensure (totals.issuedFromAccrual - 1 / 100 ≤ totals.accruedApproved - pay.eidiAmount)
            .eidiAlreadySettled

/-- `generatePayroll`. -/
def generatePayroll (rates : EidiRatesTable) (s : Payrolls) (personnelId : ℕ)
    (endIso : StorageDate) (base net : ℚ) (eidiCovered : Bool) : Except PayrollError Payrolls := do
  ensure (0 ≤ net) .netNegative
  let eidi := resolvePayslipEidiShare rates s.rows personnelId endIso base eidiCovered
  pure (s.insert
    { id := 0, personnelId, isEidi := false, eidiYear := eidi.1, eidiAmount := money eidi.2,
      eidiFromAccrual := 0, status := .draft, netPayable := money net, paidAmount := 0,
      isDeleted := false })

/-- `issueEidiPayslip`. -/
def issueEidiPayslip (rates : EidiRatesTable) (s : Payrolls) (input : IssueEidiInput) :
    Except PayrollError Payrolls :=
  match rates.ofYear input.year with
  | none => .error .eidiRatesMissing
  | some r => do
      let totals := eidiYearTotals s.rows input.personnelId input.year
      let suggestion := suggestEidiPayslip r totals.accruedApproved totals.issuedFromAccrual
        totals.issuedTotal input.monthlySalary input.workedDays input.yearDays input.eidiCovered
      let amount := match input.amount with
        | some entered => FinancialDecimal.round entered 0
        | none => suggestion.amount
      ensure (0 ≤ amount) .negativeComponent
      ensure (|amount - suggestion.amount| < 1 ∨ input.hasOverrideReason = true)
        .eidiOverrideReasonRequired
      ensure (0 < amount) .eidiAmountZero
      pure (s.insert
        { id := 0, personnelId := input.personnelId, isEidi := true, eidiYear := some input.year,
          eidiAmount := money amount,
          eidiFromAccrual := money (eidiFromAccrual amount suggestion.remainingAccrual),
          status := .draft, netPayable := money amount, paidAmount := 0, isDeleted := false })

/-- `editDraftPayroll`. -/
def editDraftPayroll (s : Payrolls) (id : ℕ) (net : ℚ) : Except PayrollError Payrolls := do
  let before ← s.find id
  ensure (before.isEidi = false) .eidiNotEditable
  ensure (before.status = .draft) .notDraft
  ensure (0 ≤ net) .netNegative
  pure (s.update id fun row => { row with netPayable := money net })

/-- `updatePayrollStatus`. -/
def updatePayrollStatus (s : Payrolls) (id : ℕ) (target : Option ManualPayrollStatus) :
    Except PayrollError Payrolls := do
  let pay ← s.find id
  match target with
  | none => pure s
  | some target => do
      (if target = .draft ∧ pay.status ≠ .draft then assertEidiShareNotSettled s.rows pay
        else .ok ())
      ensure (pay.status ≠ .paid ∧ pay.status ≠ .partiallyPaid ∧ pay.paidAmount ≤ 0) .hasPayments
      pure (s.update id fun row => { row with status := target.status })

/-- `registerPayrollPayment`, the payslip's part. -/
def registerPayrollPayment (s : Payrolls) (id : ℕ) (amount : Option ℚ) :
    Except PayrollError Payrolls := do
  let pay ← s.find id
  ensure (pay.status = .approved ∨ pay.status = .partiallyPaid) .notPayable
  let remaining := FinancialDecimal.round (pay.netPayable - pay.paidAmount) 4
  ensure (0 < remaining) .nothingToPay
  let payAmount := match amount with
    | some a => FinancialDecimal.round a 4
    | none => remaining
  ensure (0 < payAmount ∧ payAmount ≤ remaining) .amountInvalid
  let newTotalPaid := FinancialDecimal.round (pay.paidAmount + payAmount) 4
  pure (s.update id fun row =>
    { row with
      paidAmount := money newTotalPaid
      status := if pay.netPayable ≤ newTotalPaid then .paid else .partiallyPaid })

/-- `voidPayrollPayment`, the payslip's part, of a payment of the amount. -/
def voidPayrollPayment (s : Payrolls) (id : ℕ) (amount : ℚ) : Except PayrollError Payrolls := do
  let pay ← s.find id
  let remainingPaid := pay.paidAmount - amount
  let paidAmount := if remainingPaid < 0 then 0 else remainingPaid
  pure (s.update id fun row =>
    { row with
      paidAmount := money paidAmount
      status := if 0 < paidAmount then .partiallyPaid else .approved })

/-- `deletePayroll`. -/
def deletePayroll (s : Payrolls) (id : ℕ) : Except PayrollError Payrolls := do
  let pay ← s.find id
  ensure (pay.status ≠ .paid ∧ pay.status ≠ .partiallyPaid) .hasPayments
  assertEidiShareNotSettled s.rows pay
  pure (s.update id fun row => { row with isDeleted := true })

def payrollStep (rates : EidiRatesTable) (s : Payrolls) : PayrollOp → Except PayrollError Payrolls
  | .generatePayroll personnelId endIso base net eidiCovered =>
      generatePayroll rates s personnelId endIso base net eidiCovered
  | .issueEidiPayslip input => issueEidiPayslip rates s input
  | .editDraftPayroll id net => editDraftPayroll s id net
  | .updatePayrollStatus id target => updatePayrollStatus s id target
  | .registerPayrollPayment id amount => registerPayrollPayment s id amount
  | .voidPayrollPayment id amount => voidPayrollPayment s id amount
  | .deletePayroll id => deletePayroll s id

/-! ## What the requests write -/

section Shares

variable {rates : EidiRatesTable} {r : EidiRates} {year : ℤ}

/-- The cap of the year, stored with four decimals, does not round up to the next
whole rial; with no percentage there is no share to cap. -/
def EidiRates.CapHolds (r : EidiRates) : Prop :=
  r.method = .percentOfWork → r.percent = 0 ∨ roundHalfUp 0 r.yearlyCap ≤ r.yearlyCap

theorem eidiRatesError_eq_none (h : eidiRatesError r = none) :
    (1390 ≤ r.jalaliYear ∧ r.jalaliYear ≤ 1500) ∧ ∀ v ∈ [r.percent, r.yearlyCap, r.laborDays,
      r.laborCapDays, r.minDailyWage, r.fixedAmount], 0 ≤ v := by
  unfold eidiRatesError at h
  by_cases outside : r.jalaliYear < 1390 ∨ 1500 < r.jalaliYear
  · rw [if_pos outside] at h
    cases h
  · rw [if_neg outside] at h
    refine ⟨by omega, ?_⟩
    by_contra negative
    rw [if_pos negative] at h
    cases h

/-- Stored rates are not negative, and of a year the forms offer. -/
theorem EidiRatesTable.bounds (h : rates.ofYear year = some r) :
    (1390 ≤ year ∧ year ≤ 1500) ∧ 0 ≤ r.percent ∧ 0 ≤ r.yearlyCap ∧ AtScale 4 r.percent := by
  obtain ⟨rfl, input, saved⟩ := rates.saved year r h
  unfold saveEidiRates at saved
  cases refusal : eidiRatesError input with
  | some message =>
      rw [refusal] at saved
      cases saved
  | none =>
      obtain ⟨inYears, amounts⟩ := eidiRatesError_eq_none refusal
      rw [refusal] at saved
      obtain rfl := Except.ok.inj saved
      exact ⟨inYears, roundHalfUp_nonneg 4 (amounts _ (by simp)), money_nonneg (amounts _ (by simp)),
        atScale_roundHalfUp 4 _⟩

/-- A share is whole and not negative. -/
theorem payslipEidiShare_whole (base : ℚ) (rates : Option EidiRates) (others : ℚ)
    (h : ∀ r ∈ rates, 0 ≤ r.percent) :
    0 ≤ payslipEidiShare base rates others ∧ AtScale 0 (payslipEidiShare base rates others) := by
  unfold payslipEidiShare
  cases rates with
  | none => exact ⟨le_rfl, AtScale.zero 0⟩
  | some r =>
      have percent := h r rfl
      dsimp only
      split_ifs with other worked full
      · exact ⟨le_rfl, AtScale.zero 0⟩
      · exact ⟨le_rfl, AtScale.zero 0⟩
      · exact ⟨le_rfl, AtScale.zero 0⟩
      · exact ⟨roundHalfUp_nonneg 0 (le_of_not_ge full), atScale_roundHalfUp 0 _⟩
      · have positive := le_of_not_ge worked
        refine ⟨?_, atScale_roundHalfUp 0 _⟩
        apply roundHalfUp_nonneg
        apply roundHalfUp_nonneg
        apply roundHalfUp_nonneg
        positivity

/-- A share stays within what the other shares, whole amounts, leave of the cap. -/
theorem payslipEidiShare_le_room (base : ℚ) {others : ℚ} (hr : r.CapHolds) (hk : AtScale 0 others)
    (nonneg : 0 ≤ others) (within : others ≤ r.yearlyCap) :
    others + payslipEidiShare base (some r) others ≤ r.yearlyCap := by
  unfold payslipEidiShare
  dsimp only
  split_ifs with other worked full above
  · linarith
  · linarith
  · linarith
  · have room : others ≤ r.yearlyCap := by linarith
    have whole := roundHalfUp_zero_sub hk nonneg room
    rcases hr (not_not.mp other) with none | fits
    · have raw : FinancialDecimal.round
          (FinancialDecimal.divide (base * r.percent) 100 10) 0 = 0 := by
        simp [none, FinancialDecimal.round, FinancialDecimal.divide]
      rw [raw] at above
      linarith
    · rw [FinancialDecimal.round, whole]
      linarith
  · have raw : AtScale 0 (FinancialDecimal.round
        (FinancialDecimal.divide (base * r.percent) 100 10) 0) := atScale_roundHalfUp 0 _
    rw [FinancialDecimal.round, roundHalfUp_of_atScale raw]
    linarith

/-- What a bonus payslip takes of the accrual is whole, and no more than what is left. -/
theorem eidiFromAccrual_whole {amount remaining : ℚ} (ha : AtScale 0 amount)
    (hr : AtScale 0 remaining) :
    0 ≤ eidiFromAccrual amount remaining ∧ AtScale 0 (eidiFromAccrual amount remaining) ∧
      eidiFromAccrual amount remaining ≤ max 0 remaining := by
  have four : ∀ x : ℚ, AtScale 0 x → FinancialDecimal.round x 4 = x := fun x hx =>
    roundHalfUp_of_atScale (hx.mono (by norm_num))
  unfold eidiFromAccrual
  split_ifs with nothing less
  · exact ⟨le_rfl, AtScale.zero 0, le_max_left 0 remaining⟩
  · rw [four _ hr]
    rw [not_or, not_le, not_le] at nothing
    exact ⟨nothing.2.le, hr, le_max_right 0 remaining⟩
  · rw [four _ ha]
    rw [not_or, not_le, not_le] at nothing
    exact ⟨nothing.1.le, ha, (not_lt.mp less).trans (le_max_right 0 remaining)⟩

end Shares

/-! ## The sums of a year -/

/-- The live shares of the ordinary payslips, drafts among them. -/
def liveEidiShares (rows : List PieceworkPayroll) (personnelId : ℕ) (year : ℤ) : ℚ :=
  sumWhere (fun row => row.inYear personnelId year && !row.isEidi) (·.eidiAmount) rows

theorem accrued_eq_live (rows : List PieceworkPayroll) (personnelId : ℕ) (year : ℤ) :
    (eidiYearTotals rows personnelId year).accruedApproved +
      (eidiYearTotals rows personnelId year).accruedDraft =
        liveEidiShares rows personnelId year := by
  unfold eidiYearTotals liveEidiShares
  dsimp only
  induction rows with
  | nil => simp
  | cons row rows ih =>
      rw [sumWhere_cons, sumWhere_cons, sumWhere_cons, ← ih]
      cases row.inYear personnelId year <;> cases row.isEidi <;> cases row.status <;> simp <;> ring

/-- What a payslip adds to the accrual of a year. -/
def PieceworkPayroll.approvedShare (personnelId : ℕ) (year : ℤ) (row : PieceworkPayroll) : ℚ :=
  if row.inYear personnelId year && (!row.isEidi && row.status != .draft) then row.eidiAmount
  else 0

/-- The bonus columns of the payslips and what holds of their sums in every year. -/
structure PayrollInvariant (rates : EidiRatesTable) (s : Payrolls) : Prop where
  apart : s.rows.Pairwise fun a b => a.id ≠ b.id
  fresh : ∀ row ∈ s.rows, row.id < s.nextId
  amounts : ∀ row ∈ s.rows, (0 ≤ row.eidiAmount ∧ AtScale 0 row.eidiAmount) ∧
    0 ≤ row.eidiFromAccrual ∧ AtScale 0 row.eidiFromAccrual
  accrual : ∀ personnelId year, (eidiYearTotals s.rows personnelId year).issuedFromAccrual ≤
    (eidiYearTotals s.rows personnelId year).accruedApproved
  capped : ∀ personnelId year r, rates.ofYear year = some r → r.CapHolds →
    liveEidiShares s.rows personnelId year ≤ r.yearlyCap

section Step

variable {rates : EidiRatesTable} {s t : Payrolls} {pay : PieceworkPayroll}

theorem payrollInvariant_initial (rates : EidiRatesTable) : PayrollInvariant rates ⟨[], 1⟩ where
  apart := List.Pairwise.nil
  fresh := by simp
  amounts := by simp
  accrual := by simp [eidiYearTotals]
  capped := by
    intro personnelId year r found _
    simpa [liveEidiShares] using (rates.bounds found).2.2.1

/-- Sums of whole amounts over the payslips are whole and not negative. -/
theorem PayrollInvariant.sum_whole (h : PayrollInvariant rates s) (p : PieceworkPayroll → Bool) :
    (0 ≤ sumWhere p (·.eidiAmount) s.rows ∧ AtScale 0 (sumWhere p (·.eidiAmount) s.rows)) ∧
      AtScale 0 (sumWhere p (·.eidiFromAccrual) s.rows) := by
  unfold sumWhere
  refine ⟨⟨List.sum_nonneg ?_, AtScale.sum ?_⟩, AtScale.sum ?_⟩
  all_goals
    intro x mem
    obtain ⟨row, kept, rfl⟩ := List.mem_map.mp mem
    have amounts := h.amounts row (List.mem_of_mem_filter kept)
  · exact amounts.1.1
  · exact amounts.1.2
  · exact amounts.2.2

/-- A new draft keeps the invariant when its amounts are whole, it takes no more of
the accrual than is left and its share fits under the cap. -/
theorem PayrollInvariant.insert (h : PayrollInvariant rates s) {row : PieceworkPayroll}
    (amounts : (0 ≤ row.eidiAmount ∧ AtScale 0 row.eidiAmount) ∧
      0 ≤ row.eidiFromAccrual ∧ AtScale 0 row.eidiFromAccrual)
    (draft : row.status = .draft)
    (accrual : ∀ personnelId year, row.inYear personnelId year = true → row.isEidi = true →
      (eidiYearTotals s.rows personnelId year).issuedFromAccrual + row.eidiFromAccrual ≤
        (eidiYearTotals s.rows personnelId year).accruedApproved)
    (capped : ∀ personnelId year r, rates.ofYear year = some r → r.CapHolds →
      row.inYear personnelId year = true → row.isEidi = false →
        liveEidiShares s.rows personnelId year + row.eidiAmount ≤ r.yearlyCap) :
    PayrollInvariant rates (s.insert row) := by
  refine ⟨?_, ?_, ?_, ?_, ?_⟩
  · refine List.pairwise_append.mpr ⟨h.apart, List.pairwise_singleton _ _, ?_⟩
    intro a mem b new
    rw [List.mem_singleton.mp new]
    exact (h.fresh a mem).ne
  · intro a mem
    rcases List.mem_append.mp mem with old | new
    · exact (h.fresh a old).trans (Nat.lt_succ_self _)
    · rw [List.mem_singleton.mp new]
      exact Nat.lt_succ_self _
  · intro a mem
    rcases List.mem_append.mp mem with old | new
    · exact h.amounts a old
    · rw [List.mem_singleton.mp new]
      exact amounts
  · intro personnelId year
    have old := h.accrual personnelId year
    have new := accrual personnelId year
    unfold eidiYearTotals at old new ⊢
    simp only [Payrolls.insert, sumWhere_append, sumWhere_cons, sumWhere_nil, draft,
      bne_self_eq_false, Bool.and_false, Bool.false_eq_true, if_false, add_zero, Bool.and_eq_true]
    split_ifs with both
    · exact new both.1 both.2
    · linarith
  · intro personnelId year r found holds
    have old := h.capped personnelId year r found holds
    have new := capped personnelId year r found holds
    unfold liveEidiShares at old new ⊢
    simp only [Payrolls.insert, sumWhere_append, sumWhere_cons, sumWhere_nil, add_zero,
      Bool.and_eq_true, Bool.not_eq_true']
    split_ifs with both
    · exact new both.1 both.2
    · linarith

/-- The requests on a stored payslip leave its bonus columns as they are. -/
structure KeepsEidiColumns (f : PieceworkPayroll → PieceworkPayroll) : Prop where
  id : ∀ row, (f row).id = row.id
  inYear : ∀ row personnelId year, (f row).inYear personnelId year = true →
    row.inYear personnelId year = true
  isEidi : ∀ row, (f row).isEidi = row.isEidi
  eidiAmount : ∀ row, (f row).eidiAmount = row.eidiAmount
  eidiFromAccrual : ∀ row, (f row).eidiFromAccrual = row.eidiFromAccrual

/-- Such a request keeps the invariant when the accrual it leaves covers what the
bonus payslips took. -/
theorem PayrollInvariant.update (h : PayrollInvariant rates s) (member : pay ∈ s.rows)
    {f : PieceworkPayroll → PieceworkPayroll} (keeps : KeepsEidiColumns f)
    (settled : ∀ personnelId year, (eidiYearTotals s.rows personnelId year).issuedFromAccrual ≤
      (eidiYearTotals s.rows personnelId year).accruedApproved -
        pay.approvedShare personnelId year + (f pay).approvedShare personnelId year) :
    PayrollInvariant rates (s.update pay.id f) := by
  have amounts := h.amounts pay member
  -- a sum over the payslips still live only loses what this one no longer counts for
  have shrinks : ∀ (p : PieceworkPayroll → Bool) (g : PieceworkPayroll → ℚ),
      0 ≤ g pay → g (f pay) = g pay → (p (f pay) = true → p pay = true) →
      sumWhere p g (s.update pay.id f).rows ≤ sumWhere p g s.rows := by
    intro p g nonneg same drops
    have moved := sumWhere_update (p := p) (f := g) f h.apart member
    rw [same] at moved
    show sumWhere p g (s.rows.map fun row => if row.id = pay.id then f row else row) ≤ _
    by_cases new : p (f pay) = true
    · rw [if_pos new, if_pos (drops new)] at moved
      linarith
    · rw [if_neg new] at moved
      split_ifs at moved <;> linarith
  refine ⟨?_, ?_, ?_, ?_, ?_⟩
  · exact pairwise_update h.apart keeps.id
  · intro row mem
    obtain ⟨old, stored, rfl⟩ := List.mem_map.mp mem
    rw [key_update keeps.id]
    exact h.fresh old stored
  · intro row mem
    obtain ⟨old, stored, rfl⟩ := List.mem_map.mp mem
    split_ifs
    · rw [keeps.eidiAmount, keeps.eidiFromAccrual]
      exact h.amounts old stored
    · exact h.amounts old stored
  · intro personnelId year
    have issued := shrinks (fun row => row.inYear personnelId year && row.isEidi)
      (·.eidiFromAccrual) amounts.2.1 (keeps.eidiFromAccrual pay) (by
        rw [Bool.and_eq_true, Bool.and_eq_true, keeps.isEidi]
        exact fun both => ⟨keeps.inYear pay personnelId year both.1, both.2⟩)
    have approved := sumWhere_update
      (p := fun row => row.inYear personnelId year && (!row.isEidi && row.status != .draft))
      (f := (·.eidiAmount)) f h.apart member
    have covered := settled personnelId year
    unfold PieceworkPayroll.approvedShare at covered
    unfold eidiYearTotals at covered ⊢
    unfold Payrolls.update at issued ⊢
    dsimp only at *
    linarith
  · intro personnelId year r found holds
    have live := shrinks (fun row => row.inYear personnelId year && !row.isEidi)
      (·.eidiAmount) amounts.1.1 (keeps.eidiAmount pay) (by
        rw [Bool.and_eq_true, Bool.and_eq_true, keeps.isEidi]
        exact fun both => ⟨keeps.inYear pay personnelId year both.1, both.2⟩)
    exact live.trans (h.capped personnelId year r found holds)

theorem find_ok {id : ℕ} (h : s.find id = .ok pay) :
    pay ∈ s.rows ∧ pay.id = id ∧ pay.isDeleted = false := by
  unfold Payrolls.find at h
  split at h
  · cases h
  · obtain rfl := Except.ok.inj h
    have found := List.find?_some ‹_›
    exact ⟨List.mem_of_find?_eq_some ‹_›, by simpa using found⟩

/-- A request that does not take an approved share back. -/
theorem PayrollInvariant.update_of_le (h : PayrollInvariant rates s) (member : pay ∈ s.rows)
    {f : PieceworkPayroll → PieceworkPayroll} (keeps : KeepsEidiColumns f)
    (le : ∀ personnelId year,
      pay.approvedShare personnelId year ≤ (f pay).approvedShare personnelId year) :
    PayrollInvariant rates (s.update pay.id f) := by
  refine h.update member keeps fun personnelId year => ?_
  have old := h.accrual personnelId year
  have more := le personnelId year
  linarith

/-- The guard leaves enough accrual for the bonus payslips: its tolerance is below
one rial and the sums are whole. -/
theorem assertEidiShareNotSettled_ok (h : PayrollInvariant rates s) (member : pay ∈ s.rows)
    (passed : assertEidiShareNotSettled s.rows pay = .ok ()) (personnelId : ℕ) (year : ℤ) :
    (eidiYearTotals s.rows personnelId year).issuedFromAccrual ≤
      (eidiYearTotals s.rows personnelId year).accruedApproved -
        pay.approvedShare personnelId year := by
  have old := h.accrual personnelId year
  unfold PieceworkPayroll.approvedShare
  by_cases counted : (pay.inYear personnelId year && (!pay.isEidi && pay.status != .draft)) = true
  · rw [if_pos counted]
    simp only [PieceworkPayroll.inYear, Bool.and_eq_true, beq_iff_eq, Bool.not_eq_true',
      bne_iff_ne] at counted
    obtain ⟨⟨⟨-, person⟩, inYear⟩, ordinary, notDraft⟩ := counted
    unfold assertEidiShareNotSettled at passed
    rw [if_neg (by simp [ordinary, notDraft]), inYear, person] at passed
    dsimp only at passed
    split_ifs at passed with free
    · linarith
    · rw [ensure_eq_ok] at passed
      have whole : AtScale 0 ((eidiYearTotals s.rows personnelId year).accruedApproved -
          pay.eidiAmount - (eidiYearTotals s.rows personnelId year).issuedFromAccrual) :=
        ((h.sum_whole _).1.2.sub (h.amounts pay member).1.2).sub (h.sum_whole _).2
      have := whole.nonneg_of_neg_lt (show -(1 / 100) ≤ _ by linarith) (by norm_num)
      linarith
  · rw [if_neg counted, sub_zero]
    exact old

/-- What `resolvePayslipEidiShare` gives a payslip. -/
theorem PayrollInvariant.resolvePayslipEidiShare (h : PayrollInvariant rates s) (personnelId : ℕ)
    (endIso : StorageDate) (base : ℚ) (eidiCovered : Bool) :
    ∃ bonusYear share, PapitalErp.resolvePayslipEidiShare rates s.rows personnelId endIso base
        eidiCovered = (bonusYear, share) ∧ 0 ≤ share ∧ AtScale 0 share ∧
      ∀ year r, bonusYear = some year → rates.ofYear year = some r → r.CapHolds →
        liveEidiShares s.rows personnelId year + share ≤ r.yearlyCap := by
  have nothing : ∀ year r, rates.ofYear year = some r → r.CapHolds →
      liveEidiShares s.rows personnelId year + 0 ≤ r.yearlyCap := by
    intro year r found holds
    rw [add_zero]
    exact h.capped personnelId year r found holds
  unfold PapitalErp.resolvePayslipEidiShare
  split_ifs with uncovered
  · exact ⟨_, _, rfl, le_rfl, AtScale.zero 0, fun year r _ => nothing year r⟩
  · cases payrollStatutoryYear endIso with
    | none => exact ⟨_, _, rfl, le_rfl, AtScale.zero 0, fun year r _ => nothing year r⟩
    | some year =>
        dsimp only
        cases found : rates.ofYear year with
        | none => exact ⟨_, _, rfl, le_rfl, AtScale.zero 0, fun year r _ => nothing year r⟩
        | some r =>
            dsimp only
            split_ifs with other
            · exact ⟨_, _, rfl, le_rfl, AtScale.zero 0, fun year r _ => nothing year r⟩
            · rw [accrued_eq_live]
              obtain ⟨nonneg, whole⟩ := payslipEidiShare_whole base (some r)
                (liveEidiShares s.rows personnelId year) (by
                  rintro _ ⟨⟩
                  exact (rates.bounds found).2.1)
              refine ⟨_, _, rfl, nonneg, whole, ?_⟩
              rintro _ r' ⟨⟩ found' holds
              rw [found] at found'
              obtain rfl := Option.some.inj found'
              have live := (h.sum_whole fun row => row.inYear personnelId year && !row.isEidi).1
              exact payslipEidiShare_le_room base holds live.2 live.1
                (h.capped personnelId year r found holds)

theorem PayrollInvariant.generatePayroll (h : PayrollInvariant rates s) {personnelId : ℕ}
    {endIso : StorageDate} {base net : ℚ} {eidiCovered : Bool}
    (accepted : PapitalErp.generatePayroll rates s personnelId endIso base net eidiCovered = .ok t) :
    PayrollInvariant rates t := by
  obtain ⟨bonusYear, share, resolved, nonneg, whole, fits⟩ :=
    h.resolvePayslipEidiShare personnelId endIso base eidiCovered
  simp only [PapitalErp.generatePayroll, resolved, bind_eq_ok, ensure_eq_ok, pure_eq_ok] at accepted
  obtain ⟨-, -, rfl⟩ := accepted
  have stored : money share = share := money_of_atScale (whole.mono (by norm_num))
  rw [stored]
  refine h.insert ⟨⟨nonneg, whole⟩, le_rfl, AtScale.zero 0⟩ rfl ?_ ?_
  · intro _ _ _ isEidi
    cases isEidi
  · intro person year r found holds inYear _
    simp only [PieceworkPayroll.inYear, Bool.and_eq_true, beq_iff_eq] at inYear
    obtain ⟨⟨-, rfl⟩, same⟩ := inYear
    exact fits year r same found holds

theorem PayrollInvariant.issueEidiPayslip (h : PayrollInvariant rates s) {input : IssueEidiInput}
    (accepted : PapitalErp.issueEidiPayslip rates s input = .ok t) : PayrollInvariant rates t := by
  unfold PapitalErp.issueEidiPayslip at accepted
  cases found : rates.ofYear input.year with
  | none =>
      rw [found] at accepted
      cases accepted
  | some r =>
      simp only [found, bind_eq_ok, ensure_eq_ok, pure_eq_ok] at accepted
      set totals := eidiYearTotals s.rows input.personnelId input.year with htotals
      set suggestion := suggestEidiPayslip r totals.accruedApproved totals.issuedFromAccrual
        totals.issuedTotal input.monthlySalary input.workedDays input.yearDays
          input.eidiCovered with hsuggestion
      set amount := (match input.amount with
        | some entered => FinancialDecimal.round entered 0
        | none => suggestion.amount) with hamount
      obtain ⟨-, -, -, -, -, positive, rfl⟩ := accepted
      have left : AtScale 0 (totals.accruedApproved - totals.issuedFromAccrual) :=
        (h.sum_whole _).1.2.sub (h.sum_whole _).2
      have remaining : suggestion.remainingAccrual =
          totals.accruedApproved - totals.issuedFromAccrual := by
        have covers := h.accrual input.personnelId input.year
        rw [hsuggestion, suggestEidiPayslip]
        dsimp only
        split_ifs with some
        · exact roundHalfUp_of_atScale left
        · rw [FinancialDecimal.round, roundHalfUp_zero]
          linarith
      have whole : AtScale 0 amount := by
        rw [hamount]
        split
        · exact atScale_roundHalfUp 0 _
        · exact atScale_roundHalfUp 0 _
      have fromAccrual := eidiFromAccrual_whole whole (remaining ▸ left)
      have stored : ∀ x : ℚ, AtScale 0 x → money x = x := fun x hx =>
        money_of_atScale (hx.mono (by norm_num))
      rw [stored amount whole, stored _ fromAccrual.2.1]
      refine h.insert ⟨⟨positive.le, whole⟩, fromAccrual.1, fromAccrual.2.1⟩ rfl ?_ ?_
      · intro person year inYear _
        simp only [PieceworkPayroll.inYear, Bool.and_eq_true, beq_iff_eq] at inYear
        obtain ⟨⟨-, rfl⟩, same⟩ := inYear
        obtain rfl := Option.some.inj same
        have covers := h.accrual input.personnelId input.year
        have room : max 0 suggestion.remainingAccrual =
            totals.accruedApproved - totals.issuedFromAccrual := by
          rw [remaining, max_eq_right (by linarith)]
        have bound := fromAccrual.2.2.trans_eq room
        show totals.issuedFromAccrual + eidiFromAccrual amount suggestion.remainingAccrual ≤
          totals.accruedApproved
        linarith
      · intro _ _ _ _ _ _ ordinary
        cases ordinary

/-- A change of the status and the payment columns. -/
theorem keepsEidiColumns_status (status : PieceworkPayroll → PayrollStatus)
    (net paid : PieceworkPayroll → ℚ) :
    KeepsEidiColumns fun row =>
      { row with status := status row, netPayable := net row, paidAmount := paid row } :=
  ⟨fun _ => rfl, fun _ _ _ same => same, fun _ => rfl, fun _ => rfl, fun _ => rfl⟩

/-- Only a move back to draft takes an approved share back. -/
theorem approvedShare_status_le (nonneg : 0 ≤ pay.eidiAmount) {status : PayrollStatus}
    (kept : pay.status = .draft ∨ status ≠ .draft) (net paid : ℚ) (personnelId : ℕ) (year : ℤ) :
    pay.approvedShare personnelId year ≤
      ({ pay with status := status, netPayable := net, paidAmount := paid } :
        PieceworkPayroll).approvedShare personnelId year := by
  have same : ({ pay with status := status, netPayable := net, paidAmount := paid } :
      PieceworkPayroll).inYear personnelId year = pay.inYear personnelId year := rfl
  unfold PieceworkPayroll.approvedShare
  rw [same]
  rcases kept with draft | approved
  · rw [draft, bne_self_eq_false, Bool.and_false, Bool.and_false, if_neg Bool.false_ne_true]
    split_ifs
    · exact nonneg
    · exact le_rfl
  · rw [bne_iff_ne.mpr approved, Bool.and_true]
    split_ifs with old new
    · exact le_rfl
    · simp_all
    · exact nonneg
    · exact le_rfl

theorem PayrollInvariant.updatePayrollStatus (h : PayrollInvariant rates s) {id : ℕ}
    {target : Option ManualPayrollStatus}
    (accepted : PapitalErp.updatePayrollStatus s id target = .ok t) : PayrollInvariant rates t := by
  unfold PapitalErp.updatePayrollStatus at accepted
  obtain ⟨pay, found, accepted⟩ := bind_eq_ok.mp accepted
  obtain ⟨member, rfl, -⟩ := find_ok found
  have nonneg := (h.amounts pay member).1.1
  cases target with
  | none =>
      obtain rfl := pure_eq_ok.mp accepted
      exact h
  | some target =>
      obtain ⟨⟨⟩, guarded, accepted⟩ := bind_eq_ok.mp accepted
      simp only [bind_eq_ok, ensure_eq_ok, pure_eq_ok] at accepted
      obtain ⟨-, -, rfl⟩ := accepted
      have keeps := keepsEidiColumns_status (fun _ => target.status) (·.netPayable) (·.paidAmount)
      by_cases back : target = .draft ∧ pay.status ≠ .draft
      · rw [if_pos back] at guarded
        refine h.update member keeps fun personnelId year => ?_
        have covers := assertEidiShareNotSettled_ok h member guarded personnelId year
        have zero : 0 = ({ pay with status := target.status } :
            PieceworkPayroll).approvedShare personnelId year := by
          simp [PieceworkPayroll.approvedShare, back.1, ManualPayrollStatus.status]
        rw [← zero]
        linarith
      · refine h.update_of_le member keeps (approvedShare_status_le nonneg ?_ _ _)
        cases target with
        | draft => exact .inl (by simpa using back)
        | approved => exact .inr (by simp [ManualPayrollStatus.status])

/-- Any accepted request keeps the invariant. -/
theorem payrollInvariant_step (op : PayrollOp) (h : PayrollInvariant rates s)
    (accepted : payrollStep rates s op = .ok t) : PayrollInvariant rates t := by
  cases op with
  | generatePayroll personnelId endIso base net eidiCovered => exact h.generatePayroll accepted
  | issueEidiPayslip input => exact h.issueEidiPayslip accepted
  | updatePayrollStatus id target => exact h.updatePayrollStatus accepted
  | editDraftPayroll id net =>
      simp only [payrollStep, editDraftPayroll, bind_eq_ok, ensure_eq_ok, pure_eq_ok] at accepted
      obtain ⟨pay, found, -, -, -, draft, -, -, rfl⟩ := accepted
      obtain ⟨member, rfl, -⟩ := find_ok found
      exact h.update_of_le member
        (keepsEidiColumns_status (·.status) (fun _ => money net) (·.paidAmount))
        (approvedShare_status_le (h.amounts pay member).1.1 (.inl draft) _ _)
  | registerPayrollPayment id amount =>
      simp only [payrollStep, registerPayrollPayment, bind_eq_ok, ensure_eq_ok, pure_eq_ok]
        at accepted
      obtain ⟨pay, found, -, -, -, -, -, -, rfl⟩ := accepted
      obtain ⟨member, rfl, -⟩ := find_ok found
      refine h.update_of_le member (keepsEidiColumns_status (fun _ => _) (·.netPayable) fun _ => _)
        (approvedShare_status_le (h.amounts pay member).1.1 (.inr ?_) _ _)
      split_ifs <;> simp
  | voidPayrollPayment id amount =>
      simp only [payrollStep, voidPayrollPayment, bind_eq_ok, pure_eq_ok] at accepted
      obtain ⟨pay, found, rfl⟩ := accepted
      obtain ⟨member, rfl, -⟩ := find_ok found
      refine h.update_of_le member (keepsEidiColumns_status (fun _ => _) (·.netPayable) fun _ => _)
        (approvedShare_status_le (h.amounts pay member).1.1 (.inr ?_) _ _)
      split_ifs <;> simp
  | deletePayroll id =>
      simp only [payrollStep, deletePayroll, bind_eq_ok, ensure_eq_ok, pure_eq_ok] at accepted
      obtain ⟨pay, found, -, -, ⟨⟩, guarded, rfl⟩ := accepted
      obtain ⟨member, rfl, -⟩ := find_ok found
      refine h.update member ⟨fun _ => rfl, fun _ _ _ deleted => ?_, fun _ => rfl, fun _ => rfl,
        fun _ => rfl⟩ fun personnelId year => ?_
      · simp [PieceworkPayroll.inYear] at deleted
      · have covers := assertEidiShareNotSettled_ok h member guarded personnelId year
        have zero : 0 = ({ pay with isDeleted := true } :
            PieceworkPayroll).approvedShare personnelId year := by
          simp [PieceworkPayroll.approvedShare, PieceworkPayroll.inYear]
        rw [← zero]
        linarith

theorem payrollInvariant_run (rates : EidiRatesTable) (ops : List PayrollOp) :
    PayrollInvariant rates (run (payrollStep rates) ⟨[], 1⟩ ops) :=
  run_invariant (fun _ op _ h accepted => payrollInvariant_step op h accepted)
    (payrollInvariant_initial rates) ops

end Step

/-! ## The cap of the year -/

/-- What the payslips of every person and year should meet. -/
structure EidiBounds (rates : EidiRatesTable) (rows : List PieceworkPayroll) : Prop where
  shares : ∀ row ∈ rows, row.isDeleted = false → row.isEidi = false →
    0 ≤ row.eidiAmount ∧ AtScale 0 row.eidiAmount
  capped : ∀ personnelId year r, rates.ofYear year = some r →
    liveEidiShares rows personnelId year ≤ r.yearlyCap
  accrual : ∀ personnelId year, (eidiYearTotals rows personnelId year).issuedFromAccrual ≤
    (eidiYearTotals rows personnelId year).accruedApproved

/-- Every year with rates has a payslip period that ends in it. -/
theorem exists_payrollStatutoryYear {year : ℤ} (first : 1390 ≤ year) (last : year ≤ 1500) :
    ∃ endIso, payrollStatutoryYear endIso = some year := by
  have june : ∀ n < 111, (gregorianToJalali ((2011 + n : ℕ) : ℤ) 6 1).1.year = 1390 + n := by
    decide +kernel
  refine ⟨⟨year + 621, 6, 1, ⟨by norm_num, by norm_num, by norm_num, ?_⟩, by omega⟩, ?_⟩
  · show (1 : ℤ) ≤ 30
    norm_num
  · have same := june (year - 1390).toNat (by omega)
    have input : ((2011 + (year - 1390).toNat : ℕ) : ℤ) = year + 621 := by omega
    have output : (1390 : ℤ) + (year - 1390).toNat = year := by omega
    rw [input, output] at same
    unfold payrollStatutoryYear StorageDate.jalaliMonth
    rw [same, if_pos (by omega)]

/-- A large enough base takes the whole room, rounded. -/
theorem payslipEidiShare_of_large_base {r : EidiRates} (method : r.method = .percentOfWork)
    (percent : 1 / 10000 ≤ r.percent) (cap : 0 < r.yearlyCap) :
    payslipEidiShare (1000000 * (⌈r.yearlyCap⌉ + 1)) (some r) 0 = roundHalfUp 0 r.yearlyCap := by
  have ceil : r.yearlyCap ≤ ⌈r.yearlyCap⌉ := Int.le_ceil _
  have base : (0 : ℚ) < 1000000 * (⌈r.yearlyCap⌉ + 1) := by linarith
  have worked : ((⌈r.yearlyCap⌉ + 1 : ℤ) : ℚ) ≤
      1000000 * (⌈r.yearlyCap⌉ + 1) * r.percent / 100 := by
    push_cast
    rw [le_div_iff₀ (by norm_num)]
    nlinarith
  have whole : ∀ n, AtScale n ((⌈r.yearlyCap⌉ + 1 : ℤ) : ℚ) := fun n =>
    AtScale.mono (Nat.zero_le n) ⟨⌈r.yearlyCap⌉ + 1, by simp⟩
  have raw : r.yearlyCap < FinancialDecimal.round (FinancialDecimal.divide
      (1000000 * (⌈r.yearlyCap⌉ + 1) * r.percent) 100 10) 0 := by
    refine lt_of_lt_of_le ?_ (le_roundHalfUp (le_roundHalfUp worked (whole 10)) (whole 0))
    push_cast
    linarith
  unfold payslipEidiShare
  simp only [sub_zero, method, ne_eq, not_true_eq_false, if_false, base.not_ge, cap.not_ge, raw, if_true]
  rfl

/-- The payslips of every run keep every year's shares whole and under its cap, and
the bonus payslips within the accrual, exactly when no year's stored cap rounds up. -/
theorem eidi_within_cap_iff (rates : EidiRatesTable) :
    (∀ ops, EidiBounds rates (run (payrollStep rates) ⟨[], 1⟩ ops).rows) ↔
      ∀ year r, rates.ofYear year = some r → r.CapHolds := by
  constructor
  · intro bounds year r found method
    by_contra exceeds
    rw [not_or, not_le] at exceeds
    obtain ⟨⟨first, last⟩, percentNonneg, capNonneg, scale⟩ := rates.bounds found
    have percent : 1 / 10000 ≤ r.percent := by
      have positive := lt_of_le_of_ne percentNonneg (Ne.symm exceeds.1)
      have := scale.unit_le positive
      norm_num at this ⊢
      exact this
    have cap : 0 < r.yearlyCap := by
      rcases capNonneg.eq_or_lt with zero | positive
      · rw [← zero, roundHalfUp_zero] at exceeds
        exact absurd exceeds.2 (lt_irrefl 0)
      · exact positive
    obtain ⟨endIso, inYear⟩ := exists_payrollStatutoryYear first last
    have capped := (bounds [.generatePayroll 1 endIso (1000000 * (⌈r.yearlyCap⌉ + 1)) 0 true]).capped
      1 year r found
    have share := payslipEidiShare_of_large_base method percent cap
    have stored : money (roundHalfUp 0 r.yearlyCap) = roundHalfUp 0 r.yearlyCap :=
      money_of_atScale ((atScale_roundHalfUp 0 _).mono (by norm_num))
    have issued : exec (payrollStep rates) ⟨[], 1⟩
        (.generatePayroll 1 endIso (1000000 * (⌈r.yearlyCap⌉ + 1)) 0 true) =
        ⟨[{ id := 1, personnelId := 1, isEidi := false, eidiYear := some year,
            eidiAmount := roundHalfUp 0 r.yearlyCap, eidiFromAccrual := 0, status := .draft,
            netPayable := 0, paidAmount := 0, isDeleted := false }], 2⟩ := by
      apply exec_of_ok
      simp [payrollStep, generatePayroll, resolvePayslipEidiShare, inYear, found, method,
        eidiYearTotals, share, stored, Payrolls.insert]
      rfl
    rw [run_cons, run_nil, issued] at capped
    simp only [liveEidiShares, sumWhere_cons, sumWhere_nil, PieceworkPayroll.inYear] at capped
    simp at capped
    linarith [exceeds.2]
  · intro holds ops
    have h := payrollInvariant_run rates ops
    exact ⟨fun row mem _ _ => (h.amounts row mem).1,
      fun personnelId year r found => h.capped personnelId year r found (holds year r found),
      h.accrual⟩

/-- A cap of 100.5 rials, in a year whose payslips keep a tenth of their base. -/
def halfRialCap : EidiRates :=
  { jalaliYear := 1404, method := .percentOfWork, percent := 10, yearlyCap := 201 / 2,
    laborDays := 0, laborCapDays := 0, minDailyWage := 0, fixedAmount := 0 }

def halfRialCapTable : EidiRatesTable where
  ofYear year := if year = 1404 then some halfRialCap else none
  saved := by
    intro year r found
    split_ifs at found with same
    obtain rfl := Option.some.inj found
    refine ⟨same.symm, halfRialCap, ?_⟩
    have passed : eidiRatesError halfRialCap = none := by decide +kernel
    have percent : roundHalfUp 4 10 = 10 := by decide +kernel
    have cap : money (201 / 2) = 201 / 2 := by decide +kernel
    rw [saveEidiRates, passed]
    simp [halfRialCap, percent, cap]

/-- One payslip of a large base keeps a share of 101 rials, over the cap. -/
theorem eidi_exceeds_fractional_cap : ¬∀ ops,
    EidiBounds halfRialCapTable (run (payrollStep halfRialCapTable) ⟨[], 1⟩ ops).rows := by
  rw [eidi_within_cap_iff]
  intro holds
  have := holds 1404 halfRialCap rfl rfl
  revert this
  norm_num [halfRialCap]
  decide +kernel

end PapitalErp
