import PapitalErp.Accounting.VoucherBalance
import PapitalErp.Payroll.Payslips

/-!
# The voucher of a payslip

`autoCreateVoucherForPayroll` up to the rows that it gives to the voucher service, for a
payslip that has no voucher yet. The rows' descriptions and the person's name in them are left
out, and so are the date of the voucher and the fiscal period that must be open.
-/

namespace PapitalErp.Payslips

/-- The accounts of `AccountMappingService` that the voucher asks for. -/
inductive PayrollAccount where
  | directProductionWages
  | wagesPayable
  | fixedSalaryExpense
  | insurancePayable
  | employerInsuranceExpense
  | payrollTaxPayable
  | employeeAdvance
  | employeeDeductionsPayable
  | eidiPayable
  | eidiExpense

abbrev AccountMapping := PayrollAccount → Option ℕ

inductive PayrollVoucherError where
  | accountsMissing
  /-- `PAYROLL_NEGATIVE_COMPONENT` -/
  | negativeComponent
  /-- `PAYROLL_VOUCHER_NET_MISMATCH` -/
  | netMismatch
  /-- `PAYROLL_STATUTORY_ACCOUNT_MISSING` -/
  | statutoryAccountMissing (label : String)
  /-- `PAYROLL_EIDI_ACCOUNT_MISSING` -/
  | eidiAccountMissing (label : String)
  | advanceAccountMissing
  | deductionsAccountMissing

structure PayrollVoucherItem where
  accountId : ℕ
  detailedId : ℕ
  debit : ℚ
  credit : ℚ

/-! ## Rows -/

section

variable (accounts : AccountMapping) (pay : Payslip)

/-- A row of an account, where there is an amount. -/
def row (account : PayrollAccount) (debit credit : ℚ) : List PayrollVoucherItem :=
  if 0 < debit ∨ 0 < credit then
    (accounts account).toList.map fun id => ⟨id, pay.personnelId, debit, credit⟩
  else []

/-- `eidiPayslipGross`. -/
def eidiPayslipGross : ℚ := if pay.isEidi && 0 < (pay.eidiAmount : ℚ) then pay.eidiAmount else 0

/-- The part of a bonus that is paid out of the accrued shares; all of an ordinary share. -/
def fromAccrual : ℚ :=
  if pay.isEidi then min pay.eidiAmount (max 0 pay.eidiFromAccrual) else pay.eidiAmount

def expensePart : ℚ := if pay.isEidi then pay.eidiAmount - fromAccrual pay else pay.eidiAmount

/-- `payrollEidiVoucherRows`; an error is the account that is missing. -/
def payrollEidiVoucherRows : Except String (List PayrollVoucherItem) :=
  if ¬0 < (pay.eidiAmount : ℚ) then .ok []
  else if 0 < fromAccrual pay ∧ accounts .eidiPayable = none then .error "عیدی پرداختنی"
  else if 0 < expensePart pay ∧ accounts .eidiExpense = none then .error "هزینه عیدی و پاداش"
  else if pay.isEidi then
    .ok (row accounts pay .eidiPayable (fromAccrual pay) 0 ++ row accounts pay .eidiExpense (expensePart pay) 0)
  else
    .ok (row accounts pay .eidiExpense pay.eidiAmount 0 ++ row accounts pay .eidiPayable 0 pay.eidiAmount)

/-- The first account of insurance and tax that is needed and missing. -/
def missingStatutoryAccount : Option String :=
  let needed (amount : ℚ) (account : PayrollAccount) : Prop := 0 < amount ∧ accounts account = none
  if needed pay.employeeInsurance .insurancePayable ∨ needed pay.employerInsurance .insurancePayable then
    some "بیمه پرداختنی"
  else if needed pay.employerInsurance .employerInsuranceExpense then some "هزینه بیمه سهم کارفرما"
  else if needed pay.incomeTax .payrollTaxPayable then some "مالیات حقوق پرداختنی"
  else none

def grossAmount : ℚ :=
  pay.totalPieceworkAmount + pay.totalBonuses + pay.totalFixedAmount + eidiPayslipGross pay

/-- An amount that is taken off the payable, where its account is mapped. -/
def allocated (account : PayrollAccount) (amount : ℚ) : ℚ :=
  if (accounts account).isSome then max 0 amount else 0

def payableCredit : ℚ :=
  max 0 (grossAmount pay - (max 0 (pay.employeeInsurance : ℚ) + max 0 (pay.incomeTax : ℚ) +
    allocated accounts .employeeAdvance pay.advanceDeduction +
    allocated accounts .employeeDeductionsPayable pay.totalDeductions))

/-- The rows of a voucher with the given rows of the bonus. -/
def voucherItems (eidiRows : List PayrollVoucherItem) : List PayrollVoucherItem :=
  row accounts pay .directProductionWages pay.totalPieceworkAmount 0 ++
  row accounts pay .fixedSalaryExpense (pay.totalFixedAmount + pay.totalBonuses) 0 ++
  eidiRows ++
  row accounts pay .employerInsuranceExpense pay.employerInsurance 0 ++
  row accounts pay .insurancePayable 0 pay.employerInsurance ++
  row accounts pay .insurancePayable 0 pay.employeeInsurance ++
  row accounts pay .payrollTaxPayable 0 pay.incomeTax ++
  row accounts pay .employeeAdvance 0 pay.advanceDeduction ++
  row accounts pay .employeeDeductionsPayable 0 pay.totalDeductions ++
  row accounts pay .wagesPayable 0 (payableCredit accounts pay)

def HasNegativeComponent : Prop :=
  (pay.totalBonuses : ℚ) < 0 ∨ (pay.totalDeductions : ℚ) < 0 ∨ (pay.advanceDeduction : ℚ) < 0 ∨
    (pay.employeeInsurance : ℚ) < 0 ∨ (pay.employerInsurance : ℚ) < 0 ∨ (pay.incomeTax : ℚ) < 0

instance : Decidable (HasNegativeComponent pay) := inferInstanceAs (Decidable (_ ∨ _))

/-- `refuse`: an error in strict mode, no voucher otherwise. -/
def refuse {α : Type} (strict : Bool) (e : PayrollVoucherError) : Except PayrollVoucherError (Option α) :=
  if strict then .error e else .ok none

/-- `autoCreateVoucherForPayroll`: the rows of the voucher; none where there is no voucher. -/
def autoCreateVoucherForPayroll (strict : Bool) :
    Except PayrollVoucherError (Option (List PayrollVoucherItem)) :=
  if accounts .directProductionWages = none ∨ accounts .wagesPayable = none ∨
      accounts .fixedSalaryExpense = none then
    refuse strict .accountsMissing
  else if HasNegativeComponent pay then refuse strict .negativeComponent
  else if ¬0 < grossAmount pay then
    if 0 < (pay.netPayable : ℚ) then refuse strict .netMismatch else .ok none
  else
    match missingStatutoryAccount accounts pay, payrollEidiVoucherRows accounts pay with
    | some label, _ => refuse strict (.statutoryAccountMissing label)
    | none, .error label => refuse strict (.eidiAccountMissing label)
    | none, .ok eidiRows =>
      if strict ∧ 0 < (pay.advanceDeduction : ℚ) ∧ accounts .employeeAdvance = none then
        .error .advanceAccountMissing
      else if strict ∧ 0 < (pay.totalDeductions : ℚ) ∧ accounts .employeeDeductionsPayable = none then
        .error .deductionsAccountMissing
      else if voucherBalanceTolerance < |payableCredit accounts pay - pay.netPayable| then
        refuse strict .netMismatch
      else .ok (some (voucherItems accounts pay eidiRows))

end

/-- A row as the balance check reads it. -/
def PayrollVoucherItem.amounts (item : PayrollVoucherItem) : VoucherRowAmounts :=
  ⟨item.debit, item.credit, some "IRR", none⟩

/-- What `createJournalVoucher` asks of the rows. -/
def VoucherAccepted (items : List PayrollVoucherItem) : Prop :=
  2 ≤ items.length ∧
    ∃ totals, assertVoucherRowsBalanced (items.map PayrollVoucherItem.amounts) (some "IRR") false = .ok totals

end PapitalErp.Payslips
