import PapitalErp.Payroll.Eidi
import PapitalErp.Payroll.FixedSalaryProration
import PapitalErp.Workflow.Delegation

/-!
# Payslips and their components

What `generatePayroll`, `editDraftPayroll` and `issueEidiPayslip` store of a payslip, from the
work, the salary, the rates and the amounts of the request. Amounts of a request have at most
four decimals, as its schema demands, and work is never negative. Titles, notes, numbers and
the links of the work are left out, and so is the cut of a reason to 500 characters.
-/

namespace PapitalErp.Payslips

open Rounding Transition

/-- `payrollRefusal` and the other refusals, by their codes. -/
inductive PayslipError where
  | periodInvalid
  | periodInFuture
  | prepaymentNotFuture
  | prepaymentReasonRequired
  | negativeComponent
  | deductionsDescriptionRequired
  | prepaymentFixedSalaryOnly
  | serviceEndDateRequired
  | serviceEnded
  | serviceNotStarted
  | prepaymentNothingLeft
  | noPendingWork
  | advanceExceedsBalance
  | statutoryOverrideReasonRequired
  | netNegative
  | eidiNotEditable
  | notDraft
  | voucherNotDraft
  | eidiRatesMissing
  | eidiOverrideReasonRequired
  | eidiAmountZero

/-! ## Insurance and tax -/

structure TaxBracket where
  fromAmount : ℚ
  toAmount : Option ℚ
  rate : ℚ

structure StatutoryRates where
  employeeInsurancePercent : ℚ
  employerInsurancePercent : ℚ
  insuranceWageCap : ℚ
  taxBrackets : List TaxBracket
  deductInsuranceFromTax : Bool

structure StatutoryCoverage where
  insurance : Bool
  tax : Bool

structure StatutoryAmounts where
  employeeInsurance : ℚ
  employerInsurance : ℚ
  incomeTax : ℚ

/-- `periodMonthFraction`. -/
def periodMonthFraction (startIso endIso : StorageDate) : ℚ :=
  ((jalaliMonthsInPeriod startIso endIso).map fun m =>
    FinancialDecimal.divide m.coveredDays m.monthDays 10).sum

def bracketTax (base : ℚ) (brackets : List TaxBracket) (fraction : ℚ) : ℚ :=
  (brackets.map fun b =>
    let start := b.fromAmount * fraction
    let top :=
      match b.toAmount with
      | none => base
      | some finish => if base < finish * fraction then base else finish * fraction
    if start < top then FinancialDecimal.divide ((top - start) * b.rate) 100 10 else 0).sum

/-- `suggestStatutoryDeductions`, the amounts. -/
def suggestStatutoryDeductions (gross : ℚ) (startIso endIso : StorageDate)
    (rates : Option StatutoryRates) (coverage : StatutoryCoverage) : StatutoryAmounts :=
  match rates with
  | none => ⟨0, 0, 0⟩
  | some rates =>
    let fraction := periodMonthFraction startIso endIso
    let gross := max 0 gross
    let capped := rates.insuranceWageCap * fraction
    let insuranceBase :=
      if coverage.insurance then
        if 0 < rates.insuranceWageCap ∧ capped < gross then capped else gross
      else 0
    let share (percent : ℚ) :=
      FinancialDecimal.round (FinancialDecimal.divide (insuranceBase * percent) 100 10) 0
    let employeeInsurance := share rates.employeeInsurancePercent
    let taxBase := max 0 (gross - if rates.deductInsuranceFromTax then employeeInsurance else 0)
    { employeeInsurance := employeeInsurance
      employerInsurance := share rates.employerInsurancePercent
      incomeTax :=
        if coverage.tax then FinancialDecimal.round (bracketTax taxBase rates.taxBrackets fraction) 0 else 0 }

/-- `statutoryOverridden`: a difference of a rial or more. -/
def statutoryOverridden (entered suggested : StatutoryAmounts) : Prop :=
  1 ≤ |entered.employeeInsurance - suggested.employeeInsurance| ∨
    1 ≤ |entered.employerInsurance - suggested.employerInsurance| ∨
      1 ≤ |entered.incomeTax - suggested.incomeTax|

instance (entered suggested : StatutoryAmounts) : Decidable (statutoryOverridden entered suggested) :=
  inferInstanceAs (Decidable (_ ∨ _))

/-- The amounts that a request enters; what is not entered is suggested. -/
structure StatutoryEntry where
  employeeInsurance : Option ℚ
  employerInsurance : Option ℚ
  incomeTax : Option ℚ

def pick (entered : Option ℚ) (suggested : ℚ) : ℚ :=
  match entered with
  | none => suggested
  | some v => FinancialDecimal.round v

/-- `resolvePayrollStatutory`: the amounts and the reason that is kept. -/
def resolvePayrollStatutory (ratesOfYear : ℤ → Option StatutoryRates) (coverage : StatutoryCoverage)
    (startIso endIso : StorageDate) (gross : ℚ) (entered : StatutoryEntry) (overrideReason : String) :
    Except PayslipError (StatutoryAmounts × String) := do
  let rates := if coverage.insurance || coverage.tax then (payrollStatutoryYear endIso).bind ratesOfYear else none
  let suggestion := suggestStatutoryDeductions gross startIso endIso rates coverage
  let amounts : StatutoryAmounts := {
    employeeInsurance := pick entered.employeeInsurance suggestion.employeeInsurance
    employerInsurance := pick entered.employerInsurance suggestion.employerInsurance
    incomeTax := pick entered.incomeTax suggestion.incomeTax }
  ensure (0 ≤ amounts.employeeInsurance ∧ 0 ≤ amounts.employerInsurance ∧ 0 ≤ amounts.incomeTax)
    PayslipError.negativeComponent
  ensure (¬statutoryOverridden amounts suggestion ∨ jsTrim overrideReason ≠ "")
    PayslipError.statutoryOverrideReasonRequired
  return (amounts, if statutoryOverridden amounts suggestion then jsTrim overrideReason else "")

/-! ## The payslip -/

structure Payslip where
  personnelId : ℕ
  startDate : StorageDate
  endDate : StorageDate
  status : PayrollStatus
  isEidi : Bool
  totalPieceworkAmount : MoneyColumn
  totalFixedAmount : MoneyColumn
  totalBonuses : MoneyColumn
  totalDeductions : MoneyColumn
  deductionsDescription : String
  advanceDeduction : MoneyColumn
  employeeInsurance : MoneyColumn
  employerInsurance : MoneyColumn
  incomeTax : MoneyColumn
  statutoryOverrideReason : String
  eidiAmount : MoneyColumn
  eidiFromAccrual : MoneyColumn
  netPayable : MoneyColumn

/-! ## Issue -/

inductive ServiceEnd where
  | working
  | ended (endIso : StorageDate)
  /-- Ended, without a valid date. -/
  | unknown

def ServiceEnd.known : ServiceEnd → Bool
  | .unknown => false
  | _ => true

def fixedSalaryPeriodEnd (startIso endIso : StorageDate) : ServiceEnd → Option StorageDate
  | .ended last =>
    if isoToUtc last < isoToUtc startIso then none
    else if isoToUtc last < isoToUtc endIso then some last else some endIso
  | _ => some endIso

def fixedSalaryPeriodStart (startIso endIso : StorageDate) (serviceStart : Option StorageDate) :
    Option StorageDate :=
  match serviceStart with
  | none => some startIso
  | some first =>
    if isoToUtc endIso < isoToUtc first then none
    else if isoToUtc startIso < isoToUtc first then some first else some startIso

/-- `payrollPrepaymentError`, which throws here. -/
def payrollPrepaymentError (endIso today : StorageDate) (isPrepayment : Bool) (prepaymentReason : String) :
    Except PayslipError Unit :=
  if !isPrepayment then ensure (isoToUtc endIso ≤ isoToUtc today) .periodInFuture
  else if isoToUtc endIso ≤ isoToUtc today then .error .prepaymentNotFuture
  else ensure (jsTrim prepaymentReason ≠ "") .prepaymentReasonRequired

structure Personnel where
  id : ℕ
  salaryType : String
  monthlySalary : MoneyColumn
  serviceStart : Option StorageDate
  serviceEnd : ServiceEnd
  coverage : StatutoryCoverage
  eidiCovered : Bool

/-- Work that no live payslip has; without a day when its date does not parse. -/
structure WorkLog where
  date : Option StorageDate
  totalAmount : MoneyColumn
  nonneg : 0 ≤ (totalAmount : ℚ)

/-- What the issue of a payslip reads. -/
structure PayrollData where
  today : StorageDate
  person : Personnel
  freeLogs : List WorkLog
  priorPayrolls : List PayrollFixedSalarySource
  outstandingAdvance : ℚ
  statutoryRates : ℤ → Option StatutoryRates
  eidiRates : EidiRatesTable
  payslips : List PieceworkPayroll

structure GeneratePayrollInput where
  startDate : StorageDate
  endDate : StorageDate
  bonuses : MoneyColumn
  deductions : MoneyColumn
  deductionsDescription : String
  advanceDeduction : MoneyColumn
  entered : StatutoryEntry
  statutoryOverrideReason : String
  isPrepayment : Bool
  prepaymentReason : String

/-- The work of the period; a prepayment takes none. -/
def eligibleLogs (d : PayrollData) (i : GeneratePayrollInput) : List WorkLog :=
  if i.isPrepayment then []
  else d.freeLogs.filter fun log =>
    log.date.any fun day => isoToUtc i.startDate ≤ isoToUtc day ∧ isoToUtc day ≤ isoToUtc i.endDate

def Personnel.fixedIncluded (p : Personnel) : Bool := p.salaryType = "monthly_fixed" || p.salaryType = "mixed"

/-- The fixed salary of the period. -/
def fixedPortion (d : PayrollData) (i : GeneratePayrollInput) : ℚ :=
  if d.person.fixedIncluded && 0 < (d.person.monthlySalary : ℚ) then
    match fixedSalaryPeriodEnd i.startDate i.endDate d.person.serviceEnd with
    | none => 0
    | some fixedEnd =>
      match fixedSalaryPeriodStart i.startDate fixedEnd d.person.serviceStart with
      | none => 0
      | some fixedStart =>
        (computeFixedSalaryShares d.person.monthlySalary fixedStart fixedEnd
          (d.priorPayrolls.flatMap priorFixedGrantsOf)).total
  else 0

/-- Why a payslip without work and fixed salary is refused. -/
def nothingToPay (d : PayrollData) (i : GeneratePayrollInput) : PayslipError :=
  let fixedEnd := fixedSalaryPeriodEnd i.startDate i.endDate d.person.serviceEnd
  if d.person.fixedIncluded ∧ fixedEnd.isNone then .serviceEnded
  else if d.person.fixedIncluded ∧ d.person.serviceStart.isSome ∧
      fixedEnd.all (fun fixedEnd => (fixedSalaryPeriodStart i.startDate fixedEnd d.person.serviceStart).isNone) then
    .serviceNotStarted
  else if i.isPrepayment then .prepaymentNothingLeft
  else .noPendingWork

def generatePayroll (d : PayrollData) (i : GeneratePayrollInput) : Except PayslipError Payslip := do
  ensure (isoToUtc i.startDate ≤ isoToUtc i.endDate) .periodInvalid
  payrollPrepaymentError i.endDate d.today i.isPrepayment i.prepaymentReason
  ensure (0 ≤ (i.bonuses : ℚ) ∧ 0 ≤ (i.deductions : ℚ) ∧ 0 ≤ (i.advanceDeduction : ℚ)) .negativeComponent
  let description := if 0 < (i.deductions : ℚ) then jsTrim i.deductionsDescription else ""
  ensure (¬0 < (i.deductions : ℚ) ∨ description ≠ "") .deductionsDescriptionRequired
  let logs := eligibleLogs d i
  let salaried := d.person.fixedIncluded && 0 < (d.person.monthlySalary : ℚ)
  ensure (¬i.isPrepayment ∨ salaried) .prepaymentFixedSalaryOnly
  ensure (¬salaried ∨ d.person.serviceEnd.known) .serviceEndDateRequired
  let fixed := fixedPortion d i
  ensure (logs ≠ [] ∨ 0 < fixed) (nothingToPay d i)
  let piecework := (logs.map fun log => (log.totalAmount : ℚ)).sum
  ensure (¬0 < (i.advanceDeduction : ℚ) ∨ i.advanceDeduction ≤ d.outstandingAdvance) .advanceExceedsBalance
  let statutory ← resolvePayrollStatutory d.statutoryRates d.person.coverage i.startDate i.endDate
    (piecework + fixed + i.bonuses) i.entered i.statutoryOverrideReason
  let net := FinancialDecimal.round (piecework + fixed + i.bonuses - statutory.1.employeeInsurance -
    statutory.1.incomeTax - i.deductions - i.advanceDeduction)
  ensure (0 ≤ net) .netNegative
  let eidi := resolvePayslipEidiShare d.eidiRates d.payslips d.person.id i.endDate (piecework + fixed)
    d.person.eidiCovered
  return {
    personnelId := d.person.id
    startDate := i.startDate
    endDate := i.endDate
    status := .draft
    isEidi := false
    totalPieceworkAmount := stored piecework
    totalFixedAmount := stored fixed
    totalBonuses := stored i.bonuses
    totalDeductions := stored i.deductions
    deductionsDescription := description
    advanceDeduction := stored i.advanceDeduction
    employeeInsurance := stored statutory.1.employeeInsurance
    employerInsurance := stored statutory.1.employerInsurance
    incomeTax := stored statutory.1.incomeTax
    statutoryOverrideReason := statutory.2
    eidiAmount := stored eidi.2
    eidiFromAccrual := stored 0
    netPayable := stored net }

/-! ## Draft edit -/

/-- What the edit of a draft reads besides the payslip; `vouchersDraft` tells that each of its
vouchers is a draft. -/
structure EditData where
  coverage : StatutoryCoverage
  statutoryRates : ℤ → Option StatutoryRates
  outstandingAdvance : ℚ
  vouchersDraft : Bool

structure EditDraftPayrollInput where
  bonuses : Option MoneyColumn
  deductions : Option MoneyColumn
  deductionsDescription : Option String
  advanceDeduction : Option MoneyColumn
  entered : StatutoryEntry
  statutoryOverrideReason : Option String

/-- The stored amount of an overridden payslip stays where none is sent. -/
def keptEntry (before : Payslip) (entered : StatutoryEntry) : StatutoryEntry :=
  if jsTrim before.statutoryOverrideReason ≠ "" then
    { employeeInsurance := some (entered.employeeInsurance.getD before.employeeInsurance)
      employerInsurance := some (entered.employerInsurance.getD before.employerInsurance)
      incomeTax := some (entered.incomeTax.getD before.incomeTax) }
  else entered

def editDraftPayroll (d : EditData) (before : Payslip) (i : EditDraftPayrollInput) :
    Except PayslipError Payslip := do
  ensure (before.isEidi = false) .eidiNotEditable
  ensure (before.status = .draft) .notDraft
  let bonuses := i.bonuses.getD before.totalBonuses
  let deductions := i.deductions.getD before.totalDeductions
  let advance := i.advanceDeduction.getD before.advanceDeduction
  ensure (0 ≤ (bonuses : ℚ) ∧ 0 ≤ (deductions : ℚ) ∧ 0 ≤ (advance : ℚ)) .negativeComponent
  let description :=
    if 0 < (deductions : ℚ) then jsTrim (i.deductionsDescription.getD before.deductionsDescription) else ""
  ensure (¬0 < (deductions : ℚ) ∨ description ≠ "") .deductionsDescriptionRequired
  ensure (¬0 < (advance : ℚ) ∨ advance ≤ d.outstandingAdvance + before.advanceDeduction) .advanceExceedsBalance
  let gross := before.totalPieceworkAmount + before.totalFixedAmount + (bonuses : ℚ)
  let statutory ← resolvePayrollStatutory d.statutoryRates d.coverage before.startDate before.endDate gross
    (keptEntry before i.entered) (i.statutoryOverrideReason.getD before.statutoryOverrideReason)
  let net := FinancialDecimal.round (gross - statutory.1.employeeInsurance - statutory.1.incomeTax -
    deductions - advance)
  ensure (0 ≤ net) .netNegative
  ensure d.vouchersDraft .voucherNotDraft
  return { before with
    totalBonuses := stored bonuses
    totalDeductions := stored deductions
    deductionsDescription := description
    advanceDeduction := stored advance
    employeeInsurance := stored statutory.1.employeeInsurance
    employerInsurance := stored statutory.1.employerInsurance
    incomeTax := stored statutory.1.incomeTax
    statutoryOverrideReason := statutory.2
    netPayable := stored net }

/-! ## Bonus payslips -/

/-- `issueEidiPayslip`, of a service from `startDate` to `endDate` in the year. -/
def issueEidiPayslip (rates : EidiRatesTable) (payslips : List PieceworkPayroll) (input : IssueEidiInput)
    (startDate endDate : StorageDate) : Except PayslipError Payslip :=
  match rates.ofYear input.year with
  | none => .error .eidiRatesMissing
  | some r => do
    let totals := eidiYearTotals payslips input.personnelId input.year
    let suggestion := suggestEidiPayslip r totals.accruedApproved totals.issuedFromAccrual
      totals.issuedTotal input.monthlySalary input.workedDays input.yearDays input.eidiCovered
    let amount :=
      match input.amount with
      | some entered => FinancialDecimal.round entered 0
      | none => suggestion.amount
    ensure (0 ≤ amount) .negativeComponent
    ensure (|amount - suggestion.amount| < 1 ∨ input.hasOverrideReason = true) .eidiOverrideReasonRequired
    ensure (0 < amount) .eidiAmountZero
    return {
      personnelId := input.personnelId
      startDate := startDate
      endDate := endDate
      status := .draft
      isEidi := true
      totalPieceworkAmount := stored 0
      totalFixedAmount := stored 0
      totalBonuses := stored 0
      totalDeductions := stored 0
      deductionsDescription := ""
      advanceDeduction := stored 0
      employeeInsurance := stored 0
      employerInsurance := stored 0
      incomeTax := stored 0
      statutoryOverrideReason := ""
      eidiAmount := stored amount
      eidiFromAccrual := stored (eidiFromAccrual amount suggestion.remainingAccrual)
      netPayable := stored amount }

end PapitalErp.Payslips
