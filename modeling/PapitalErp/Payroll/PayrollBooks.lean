import PapitalErp.Payroll.PayrollVoucher

/-!
# The voucher books what the payslip carries

The components of an issued payslip are not negative and its net is what they leave; so the
rows of its voucher are the payslip's amounts, once each, and balance. A payslip without
work, salary and bonus has no voucher at all, even where it carries the employer's insurance,
which nothing takes off the net.
-/

namespace PapitalErp.Payslips

open Rounding Transition FilteredSums

/-! ## Issued payslips -/

/-- A payslip that was issued, and edited as a draft any number of times. -/
inductive Issued : Payslip → Prop
  | generated (d : PayrollData) (i : GeneratePayrollInput) {pay : Payslip}
      (accepted : generatePayroll d i = .ok pay) : Issued pay
  | edited (d : EditData) (i : EditDraftPayrollInput) {before pay : Payslip} (issued : Issued before)
      (accepted : editDraftPayroll d before i = .ok pay) : Issued pay
  | eidi (rates : EidiRatesTable) (payslips : List PieceworkPayroll) (input : IssueEidiInput)
      (startDate endDate : StorageDate) {pay : Payslip}
      (accepted : issueEidiPayslip rates payslips input startDate endDate = .ok pay) : Issued pay

/-- What holds of the columns of an issued payslip. -/
structure Sound (pay : Payslip) : Prop where
  piecework : 0 ≤ (pay.totalPieceworkAmount : ℚ)
  fixed : 0 ≤ (pay.totalFixedAmount : ℚ)
  bonuses : 0 ≤ (pay.totalBonuses : ℚ)
  deductions : 0 ≤ (pay.totalDeductions : ℚ)
  advance : 0 ≤ (pay.advanceDeduction : ℚ)
  employee : 0 ≤ (pay.employeeInsurance : ℚ)
  employer : 0 ≤ (pay.employerInsurance : ℚ)
  tax : 0 ≤ (pay.incomeTax : ℚ)
  net : 0 ≤ (pay.netPayable : ℚ)
  net_eq : (pay.netPayable : ℚ) = grossAmount pay - pay.employeeInsurance - pay.incomeTax -
    pay.totalDeductions - pay.advanceDeduction
  eidi : 0 ≤ (pay.eidiAmount : ℚ)
  eidi_worked : pay.isEidi = false → 0 < (pay.eidiAmount : ℚ) →
    0 < (pay.totalPieceworkAmount + pay.totalFixedAmount : ℚ)
  accrual : 0 ≤ (pay.eidiFromAccrual : ℚ)
  accrual_le : pay.isEidi = true → (pay.eidiFromAccrual : ℚ) ≤ pay.eidiAmount
  eidi_positive : pay.isEidi = true → 0 < (pay.eidiAmount : ℚ)

theorem suggested_atScale (gross : ℚ) (startIso endIso : StorageDate) (rates : Option StatutoryRates)
    (coverage : StatutoryCoverage) :
    AtScale 4 (suggestStatutoryDeductions gross startIso endIso rates coverage).employeeInsurance ∧
      AtScale 4 (suggestStatutoryDeductions gross startIso endIso rates coverage).employerInsurance ∧
        AtScale 4 (suggestStatutoryDeductions gross startIso endIso rates coverage).incomeTax := by
  have whole : ∀ x : ℚ, AtScale 4 (FinancialDecimal.round x 0) := fun x =>
    (atScale_roundHalfUp 0 x).mono (by norm_num)
  unfold suggestStatutoryDeductions
  cases rates with
  | none => exact ⟨AtScale.zero 4, AtScale.zero 4, AtScale.zero 4⟩
  | some rates =>
    refine ⟨whole _, whole _, ?_⟩
    dsimp only
    by_cases covered : coverage.tax = true
    · rw [if_pos covered]
      exact whole _
    · rw [if_neg covered]
      exact AtScale.zero 4

theorem atScale_pick (entered : Option ℚ) {suggested : ℚ} (h : AtScale 4 suggested) :
    AtScale 4 (pick entered suggested) := by
  cases entered with
  | none => exact h
  | some v => exact atScale_roundHalfUp 4 v

/-- Insurance and tax as they are accepted. -/
theorem resolvePayrollStatutory_ok {ratesOfYear : ℤ → Option StatutoryRates} {coverage : StatutoryCoverage}
    {startIso endIso : StorageDate} {gross : ℚ} {entered : StatutoryEntry} {overrideReason : String}
    {r : StatutoryAmounts × String}
    (h : resolvePayrollStatutory ratesOfYear coverage startIso endIso gross entered overrideReason = .ok r) :
    (0 ≤ r.1.employeeInsurance ∧ 0 ≤ r.1.employerInsurance ∧ 0 ≤ r.1.incomeTax) ∧
      AtScale 4 r.1.employeeInsurance ∧ AtScale 4 r.1.employerInsurance ∧ AtScale 4 r.1.incomeTax := by
  unfold resolvePayrollStatutory at h
  simp only [bind_eq_ok, ensure_eq_ok, pure_eq_ok] at h
  obtain ⟨-, nonneg, -, -, rfl⟩ := h
  obtain ⟨employee, employer, tax⟩ := suggested_atScale gross startIso endIso
    (if (coverage.insurance || coverage.tax) = true then (payrollStatutoryYear endIso).bind ratesOfYear else none)
    coverage
  exact ⟨nonneg, atScale_pick _ employee, atScale_pick _ employer, atScale_pick _ tax⟩

theorem fixedPortion_spec (d : PayrollData) (i : GeneratePayrollInput) :
    0 ≤ fixedPortion d i ∧ AtScale 4 (fixedPortion d i) := by
  unfold fixedPortion
  split_ifs
  · split
    · exact ⟨le_rfl, AtScale.zero 4⟩
    · split
      · exact ⟨le_rfl, AtScale.zero 4⟩
      · constructor
        · refine List.sum_nonneg fun x hx => ?_
          obtain ⟨share, hshare, rfl⟩ := List.mem_map.mp hx
          obtain ⟨m, -, rfl⟩ := List.mem_map.mp hshare
          exact monthShare_nonneg _ _ _
        · refine AtScale.sum fun x hx => ?_
          obtain ⟨share, hshare, rfl⟩ := List.mem_map.mp hx
          obtain ⟨m, -, rfl⟩ := List.mem_map.mp hshare
          exact (atScale_roundHalfUp 0 _).mono (by norm_num)
  · exact ⟨le_rfl, AtScale.zero 4⟩

/-- A share of the bonus is of work or salary. -/
theorem eidiShare_spec (rates : EidiRatesTable) (rows : List PieceworkPayroll) (personnelId : ℕ)
    (endIso : StorageDate) (base : ℚ) (eidiCovered : Bool) :
    0 ≤ (resolvePayslipEidiShare rates rows personnelId endIso base eidiCovered).2 ∧
      AtScale 4 (resolvePayslipEidiShare rates rows personnelId endIso base eidiCovered).2 ∧
        (0 < (resolvePayslipEidiShare rates rows personnelId endIso base eidiCovered).2 → 0 < base) := by
  have zero : (0 : ℚ) ≤ 0 ∧ AtScale 4 0 ∧ ((0 : ℚ) < 0 → 0 < base) :=
    ⟨le_rfl, AtScale.zero 4, fun h => absurd h (lt_irrefl 0)⟩
  unfold resolvePayslipEidiShare
  split_ifs
  · exact zero
  · split
    · exact zero
    · rename_i year _
      split
      · exact zero
      · rename_i r found
        split_ifs
        · exact zero
        · dsimp only
          obtain ⟨nonneg, whole⟩ := payslipEidiShare_whole base (some r)
            ((eidiYearTotals rows personnelId year).accruedApproved +
              (eidiYearTotals rows personnelId year).accruedDraft)
            (fun s hs => by
              rw [← Option.some.inj hs]
              exact (EidiRatesTable.bounds found).2.1)
          refine ⟨nonneg, whole.mono (by norm_num), fun positive => ?_⟩
          by_contra unworked
          unfold payslipEidiShare at positive
          dsimp only at positive
          split_ifs at positive
          · exact lt_irrefl 0 positive
          · exact lt_irrefl 0 positive
          · exact unworked (not_le.mp (by assumption))
          · exact unworked (not_le.mp (by assumption))

theorem coe_stored_of_atScale {x : ℚ} (h : AtScale 4 x) : (stored x : ℚ) = x := money_of_atScale h

/-- The net is stored as it is, without rounding. -/
theorem coe_stored_net {gross employee tax deductions advance : ℚ} (hg : AtScale 4 gross)
    (he : AtScale 4 employee) (ht : AtScale 4 tax) (hd : AtScale 4 deductions) (ha : AtScale 4 advance) :
    (stored (FinancialDecimal.round (gross - employee - tax - deductions - advance)) : ℚ) =
      gross - employee - tax - deductions - advance := by
  have exact_ : FinancialDecimal.round (gross - employee - tax - deductions - advance) =
      gross - employee - tax - deductions - advance :=
    money_of_atScale ((((hg.sub he).sub ht).sub hd).sub ha)
  rw [exact_, coe_stored]
  exact exact_

theorem eidiPayslipGross_ordinary {pay : Payslip} (h : pay.isEidi = false) : eidiPayslipGross pay = 0 := by
  unfold eidiPayslipGross
  rw [h]
  rfl

theorem eidiPayslipGross_eidi {pay : Payslip} (h : pay.isEidi = true) (nonneg : 0 ≤ (pay.eidiAmount : ℚ)) :
    eidiPayslipGross pay = pay.eidiAmount := by
  unfold eidiPayslipGross
  rw [h, Bool.true_and]
  split_ifs with positive
  · rfl
  · exact le_antisymm nonneg (not_lt.mp fun more => positive (decide_eq_true more))

theorem eidiFromAccrual_nonneg (amount remaining : ℚ) : 0 ≤ eidiFromAccrual amount remaining := by
  unfold eidiFromAccrual
  split_ifs with nothing less
  · exact le_rfl
  · rw [not_or, not_le, not_le] at nothing
    exact roundHalfUp_nonneg 4 nothing.2.le
  · rw [not_or, not_le, not_le] at nothing
    exact roundHalfUp_nonneg 4 nothing.1.le

theorem eidiFromAccrual_le {amount : ℚ} (scale : AtScale 4 amount) (nonneg : 0 ≤ amount) (remaining : ℚ) :
    eidiFromAccrual amount remaining ≤ amount := by
  unfold eidiFromAccrual
  split_ifs with nothing less
  · exact nonneg
  · exact roundHalfUp_le less.le scale
  · exact roundHalfUp_le le_rfl scale

theorem sound_generated {d : PayrollData} {i : GeneratePayrollInput} {pay : Payslip}
    (accepted : generatePayroll d i = .ok pay) : Sound pay := by
  unfold generatePayroll at accepted
  simp only [bind_eq_ok, ensure_eq_ok, pure_eq_ok] at accepted
  obtain ⟨-, -, -, -, -, ⟨bonuses, deductions, advance⟩, -, -, -, -, -, -, -, -, -, -, r, statutory, -, net, rfl⟩ :=
    accepted
  obtain ⟨fixed, fixedScale⟩ := fixedPortion_spec d i
  obtain ⟨⟨employee, employer, tax⟩, employeeScale, employerScale, taxScale⟩ :=
    resolvePayrollStatutory_ok statutory
  have piecework : 0 ≤ ((eligibleLogs d i).map fun log => (log.totalAmount : ℚ)).sum := by
    refine List.sum_nonneg fun x hx => ?_
    obtain ⟨log, -, rfl⟩ := List.mem_map.mp hx
    exact log.nonneg
  have pieceworkScale : AtScale 4 ((eligibleLogs d i).map fun log => (log.totalAmount : ℚ)).sum := by
    refine AtScale.sum fun x hx => ?_
    obtain ⟨log, -, rfl⟩ := List.mem_map.mp hx
    exact log.totalAmount.2
  obtain ⟨share, shareScale, worked⟩ := eidiShare_spec d.eidiRates d.payslips d.person.id i.endDate
    (((eligibleLogs d i).map fun log => (log.totalAmount : ℚ)).sum + fixedPortion d i) d.person.eidiCovered
  have netExact := coe_stored_net ((pieceworkScale.add fixedScale).add i.bonuses.2) employeeScale taxScale
    i.deductions.2 i.advanceDeduction.2
  refine ⟨money_nonneg piecework, money_nonneg fixed, money_nonneg bonuses, money_nonneg deductions,
    money_nonneg advance, money_nonneg employee, money_nonneg employer, money_nonneg tax, money_nonneg net, ?_,
    money_nonneg share, fun _ positive => ?_, money_nonneg le_rfl, fun h => Bool.noConfusion h,
    fun h => Bool.noConfusion h⟩
  · rw [grossAmount, eidiPayslipGross_ordinary rfl]
    dsimp only
    rw [netExact, coe_stored_of_atScale pieceworkScale, coe_stored_of_atScale fixedScale,
      coe_stored_of_atScale i.bonuses.2, coe_stored_of_atScale employeeScale, coe_stored_of_atScale taxScale,
      coe_stored_of_atScale i.deductions.2, coe_stored_of_atScale i.advanceDeduction.2]
    ring
  · dsimp only at positive ⊢
    rw [coe_stored_of_atScale shareScale] at positive
    rw [coe_stored_of_atScale pieceworkScale, coe_stored_of_atScale fixedScale]
    exact worked positive

theorem sound_edited {d : EditData} {i : EditDraftPayrollInput} {before pay : Payslip} (sound : Sound before)
    (accepted : editDraftPayroll d before i = .ok pay) : Sound pay := by
  unfold editDraftPayroll at accepted
  simp only [bind_eq_ok, ensure_eq_ok, pure_eq_ok] at accepted
  obtain ⟨-, ordinary, -, -, -, ⟨bonuses, deductions, advance⟩, -, -, -, -, r, statutory, -, net, -, -, rfl⟩ :=
    accepted
  obtain ⟨⟨employee, employer, tax⟩, employeeScale, employerScale, taxScale⟩ :=
    resolvePayrollStatutory_ok statutory
  have netExact := coe_stored_net ((before.totalPieceworkAmount.2.add before.totalFixedAmount.2).add
    (i.bonuses.getD before.totalBonuses).2) employeeScale taxScale (i.deductions.getD before.totalDeductions).2
    (i.advanceDeduction.getD before.advanceDeduction).2
  refine ⟨sound.piecework, sound.fixed, money_nonneg bonuses, money_nonneg deductions, money_nonneg advance,
    money_nonneg employee, money_nonneg employer, money_nonneg tax, money_nonneg net, ?_, sound.eidi,
    sound.eidi_worked, sound.accrual, sound.accrual_le, sound.eidi_positive⟩
  rw [grossAmount, eidiPayslipGross_ordinary]
  swap
  · exact ordinary
  dsimp only
  rw [netExact, coe_stored_of_atScale (i.bonuses.getD before.totalBonuses).2,
    coe_stored_of_atScale employeeScale, coe_stored_of_atScale taxScale,
    coe_stored_of_atScale (i.deductions.getD before.totalDeductions).2,
    coe_stored_of_atScale (i.advanceDeduction.getD before.advanceDeduction).2]
  ring

theorem sound_eidi {rates : EidiRatesTable} {payslips : List PieceworkPayroll} {input : IssueEidiInput}
    {startDate endDate : StorageDate} {pay : Payslip}
    (accepted : issueEidiPayslip rates payslips input startDate endDate = .ok pay) : Sound pay := by
  unfold issueEidiPayslip at accepted
  split at accepted
  · cases accepted
  · simp only [bind_eq_ok, ensure_eq_ok, pure_eq_ok] at accepted
    obtain ⟨-, -, -, -, -, positive, rfl⟩ := accepted
    have zero : 0 ≤ (stored 0 : ℚ) := money_nonneg le_rfl
    revert positive
    cases input.amount with
    | none | some =>
        intro positive
        have whole := atScale_roundHalfUp 0
        refine ⟨zero, zero, zero, zero, zero, zero, zero, zero, money_nonneg positive.le, ?_, money_nonneg positive.le,
          fun ordinary => Bool.noConfusion ordinary, money_nonneg (eidiFromAccrual_nonneg _ _), fun _ => ?_,
          fun _ => ?_⟩
        rotate_left
        · exact roundHalfUp_mono 4 (eidiFromAccrual_le (AtScale.mono (by norm_num) (whole _)) positive.le _)
        · exact positive.trans_eq (coe_stored_of_atScale ((whole _).mono (by norm_num))).symm
        rw [grossAmount, eidiPayslipGross_eidi rfl (money_nonneg positive.le)]
        simp only [coe_stored, money_zero]
        ring

theorem Issued.sound {pay : Payslip} (h : Issued pay) : Sound pay := by
  induction h with
  | generated d i accepted => exact sound_generated accepted
  | edited d i _ accepted ih => exact sound_edited ih accepted
  | eidi rates payslips input startDate endDate accepted => exact sound_eidi accepted

/-! ## What the payslip carries -/

structure Entry where
  account : PayrollAccount
  debit : ℚ
  credit : ℚ

/-- The amounts of the bonus: a bonus payslip pays out the accrued part and spends the rest, an
ordinary one spends its share and owes it. -/
def carriedEidi (pay : Payslip) : List Entry :=
  if pay.isEidi then
    [⟨.eidiPayable, pay.eidiFromAccrual, 0⟩, ⟨.eidiExpense, pay.eidiAmount - pay.eidiFromAccrual, 0⟩]
  else [⟨.eidiExpense, pay.eidiAmount, 0⟩, ⟨.eidiPayable, 0, pay.eidiAmount⟩]

/-- The payslip's amounts by account, the net payable last. -/
def carried (pay : Payslip) : List Entry :=
  [⟨.directProductionWages, pay.totalPieceworkAmount, 0⟩,
    ⟨.fixedSalaryExpense, pay.totalFixedAmount + pay.totalBonuses, 0⟩] ++ carriedEidi pay ++
  [⟨.employerInsuranceExpense, pay.employerInsurance, 0⟩, ⟨.insurancePayable, 0, pay.employerInsurance⟩,
    ⟨.insurancePayable, 0, pay.employeeInsurance⟩, ⟨.payrollTaxPayable, 0, pay.incomeTax⟩,
    ⟨.employeeAdvance, 0, pay.advanceDeduction⟩, ⟨.employeeDeductionsPayable, 0, pay.totalDeductions⟩,
    ⟨.wagesPayable, 0, pay.netPayable⟩]

/-- A row for each amount that is not zero. -/
def postings (accounts : AccountMapping) (pay : Payslip) : List PayrollVoucherItem :=
  (carried pay).flatMap fun e => row accounts pay e.account e.debit e.credit

/-- The accounts that every payslip asks for and those of its amounts are mapped. -/
structure Mapped (accounts : AccountMapping) (pay : Payslip) : Prop where
  wages : (accounts .directProductionWages).isSome
  payable : (accounts .wagesPayable).isSome
  fixed : (accounts .fixedSalaryExpense).isSome
  needed : ∀ e ∈ carried pay, 0 < e.debit ∨ 0 < e.credit → (accounts e.account).isSome

instance (accounts : AccountMapping) (pay : Payslip) : Decidable (Mapped accounts pay) :=
  decidable_of_iff ((accounts .directProductionWages).isSome ∧ (accounts .wagesPayable).isSome ∧
      (accounts .fixedSalaryExpense).isSome ∧
        ∀ e ∈ carried pay, 0 < e.debit ∨ 0 < e.credit → (accounts e.account).isSome)
    ⟨fun ⟨wages, payable, fixed, needed⟩ => ⟨wages, payable, fixed, needed⟩,
      fun h => ⟨h.wages, h.payable, h.fixed, h.needed⟩⟩

variable {accounts : AccountMapping} {pay : Payslip}

theorem row_zero (account : PayrollAccount) : row accounts pay account 0 0 = [] :=
  if_neg fun h => h.elim (lt_irrefl 0) (lt_irrefl 0)

/-- An entry is on one side. -/
structure Entry.OneSided (e : Entry) : Prop where
  debit : 0 ≤ e.debit
  credit : 0 ≤ e.credit
  one : e.debit = 0 ∨ e.credit = 0

theorem oneSided (sound : Sound pay) : ∀ e ∈ carried pay, e.OneSided := by
  have debit : ∀ account {amount : ℚ}, 0 ≤ amount → (Entry.mk account amount 0).OneSided :=
    fun _ _ h => ⟨h, le_rfl, Or.inr rfl⟩
  have credit : ∀ account {amount : ℚ}, 0 ≤ amount → (Entry.mk account 0 amount).OneSided :=
    fun _ _ h => ⟨le_rfl, h, Or.inl rfl⟩
  have eidi : ∀ e ∈ carriedEidi pay, e.OneSided := by
    unfold carriedEidi
    split_ifs with isEidi
    · rw [List.forall_mem_cons, List.forall_mem_singleton]
      exact ⟨debit _ sound.accrual, debit _ (sub_nonneg.mpr (sound.accrual_le isEidi))⟩
    · rw [List.forall_mem_cons, List.forall_mem_singleton]
      exact ⟨debit _ sound.eidi, credit _ sound.eidi⟩
  unfold carried
  simp only [List.forall_mem_append, List.forall_mem_cons, List.not_mem_nil, false_implies, implies_true, and_true]
  exact ⟨⟨⟨debit _ sound.piecework, debit _ (add_nonneg sound.fixed sound.bonuses)⟩, eidi⟩,
    debit _ sound.employer, credit _ sound.employer, credit _ sound.employee, credit _ sound.tax,
    credit _ sound.advance, credit _ sound.deductions, credit _ sound.net⟩

/-- The debits of the amounts are their credits. -/
theorem carried_balanced (sound : Sound pay) :
    ((carried pay).map Entry.debit).sum = ((carried pay).map Entry.credit).sum := by
  have net := sound.net_eq
  unfold carried carriedEidi
  by_cases isEidi : pay.isEidi = true
  · rw [grossAmount, eidiPayslipGross_eidi isEidi sound.eidi] at net
    simp only [if_pos isEidi, List.map_append, List.map_cons, List.map_nil, List.sum_append, List.sum_cons,
      List.sum_nil]
    linarith
  · rw [grossAmount, eidiPayslipGross_ordinary (Bool.not_eq_true _ ▸ isEidi)] at net
    simp only [if_neg isEidi, List.map_append, List.map_cons, List.map_nil, List.sum_append, List.sum_cons,
      List.sum_nil]
    linarith

theorem grossAmount_le_debits (sound : Sound pay) : grossAmount pay ≤ ((carried pay).map Entry.debit).sum := by
  have employer := sound.employer
  have share := sound.eidi
  unfold carried carriedEidi
  by_cases isEidi : pay.isEidi = true
  · rw [grossAmount, eidiPayslipGross_eidi isEidi sound.eidi]
    simp only [if_pos isEidi, List.map_append, List.map_cons, List.map_nil, List.sum_append, List.sum_cons,
      List.sum_nil]
    linarith
  · rw [grossAmount, eidiPayslipGross_ordinary (Bool.not_eq_true _ ▸ isEidi)]
    simp only [if_neg isEidi, List.map_append, List.map_cons, List.map_nil, List.sum_append, List.sum_cons,
      List.sum_nil]
    linarith

/-! ## The rows -/

theorem mem_row {account : PayrollAccount} {debit credit : ℚ} {item : PayrollVoucherItem}
    (h : item ∈ row accounts pay account debit credit) :
    (0 < debit ∨ 0 < credit) ∧ accounts account = some item.accountId ∧ item.debit = debit ∧ item.credit = credit := by
  unfold row at h
  split_ifs at h with positive
  · obtain ⟨id, mapped, rfl⟩ := List.mem_map.mp h
    exact ⟨positive, Option.mem_toList.mp mapped, rfl, rfl⟩
  · exact absurd h List.not_mem_nil

/-- What a row puts on an account. -/
theorem sumWhere_row {e : Entry} (sided : e.OneSided)
    (mapped : 0 < e.debit ∨ 0 < e.credit → (accounts e.account).isSome) (id : ℕ)
    (f : PayrollVoucherItem → ℚ) (amount : Entry → ℚ)
    (reads : ∀ item : PayrollVoucherItem, item.debit = e.debit → item.credit = e.credit → f item = amount e)
    (zero : e.debit = 0 → e.credit = 0 → amount e = 0) :
    sumWhere (fun item => item.accountId = id) f (row accounts pay e.account e.debit e.credit) =
      if accounts e.account = some id then amount e else 0 := by
  unfold row
  by_cases positive : 0 < e.debit ∨ 0 < e.credit
  · rw [if_pos positive]
    obtain ⟨own, found⟩ := Option.isSome_iff_exists.mp (mapped positive)
    rw [found, Option.toList_some, List.map_singleton, sumWhere_cons, sumWhere_nil, add_zero, reads _ rfl rfl]
    by_cases same : own = id
    · rw [if_pos (decide_eq_true same), if_pos (congrArg some same)]
    · rw [if_neg (by simpa using same), if_neg fun h => same (Option.some.inj h)]
  · rw [if_neg positive, sumWhere_nil]
    rw [not_or, not_lt, not_lt] at positive
    have nothing := zero (le_antisymm positive.1 sided.debit) (le_antisymm positive.2 sided.credit)
    rw [nothing, ite_self]

/-- What the rows put on an account is what the payslip carries for it. -/
theorem sumWhere_postings (sound : Sound pay) (mapped : Mapped accounts pay) (id : ℕ) :
    sumWhere (fun item => item.accountId = id) PayrollVoucherItem.debit (postings accounts pay) =
        sumWhere (fun e => accounts e.account = some id) Entry.debit (carried pay) ∧
      sumWhere (fun item => item.accountId = id) PayrollVoucherItem.credit (postings accounts pay) =
        sumWhere (fun e => accounts e.account = some id) Entry.credit (carried pay) := by
  have all : ∀ (f : PayrollVoucherItem → ℚ) (amount : Entry → ℚ),
      (∀ (e : Entry) (item : PayrollVoucherItem), item.debit = e.debit → item.credit = e.credit →
        f item = amount e) → (∀ e : Entry, e.debit = 0 → e.credit = 0 → amount e = 0) →
        sumWhere (fun item => item.accountId = id) f (postings accounts pay) =
          sumWhere (fun e => accounts e.account = some id) amount (carried pay) := by
    intro f amount reads zero
    have terms : ∀ entries : List Entry, (∀ e ∈ entries, e ∈ carried pay) →
        sumWhere (fun item => item.accountId = id) f
            (entries.flatMap fun e => row accounts pay e.account e.debit e.credit) =
          sumWhere (fun e => accounts e.account = some id) amount entries := by
      intro entries
      induction entries with
      | nil => exact fun _ => rfl
      | cons e rest ih =>
        intro all
        have here := all e List.mem_cons_self
        rw [List.flatMap_cons, sumWhere_append, sumWhere_cons,
          ih fun e he => all e (List.mem_cons_of_mem _ he),
          sumWhere_row (oneSided sound e here) (mapped.needed e here) id f amount (reads e) (zero e)]
        simp only [decide_eq_true_eq]
    exact terms (carried pay) fun _ h => h
  exact ⟨all _ _ (fun _ _ debit _ => debit) fun _ debit _ => debit,
    all _ _ (fun _ _ _ credit => credit) fun _ _ credit => credit⟩

/-- The rows' sums are the amounts' sums. -/
theorem sum_postings (sound : Sound pay) (mapped : Mapped accounts pay) :
    ((postings accounts pay).map PayrollVoucherItem.debit).sum = ((carried pay).map Entry.debit).sum ∧
      ((postings accounts pay).map PayrollVoucherItem.credit).sum = ((carried pay).map Entry.credit).sum := by
  have one : ∀ e ∈ carried pay,
      ((row accounts pay e.account e.debit e.credit).map PayrollVoucherItem.debit).sum = e.debit ∧
        ((row accounts pay e.account e.debit e.credit).map PayrollVoucherItem.credit).sum = e.credit := by
    intro e he
    have sided := oneSided sound e he
    unfold row
    split_ifs with positive
    · obtain ⟨own, found⟩ := Option.isSome_iff_exists.mp (mapped.needed e he positive)
      rw [found]
      exact ⟨add_zero _, add_zero _⟩
    · rw [not_or, not_lt, not_lt] at positive
      exact ⟨(le_antisymm positive.1 sided.debit).symm, (le_antisymm positive.2 sided.credit).symm⟩
  unfold postings
  rw [sum_map_flatMap, sum_map_flatMap]
  exact ⟨congrArg List.sum (List.map_congr_left fun e he => (one e he).1),
    congrArg List.sum (List.map_congr_left fun e he => (one e he).2)⟩

theorem postings_positive (sound : Sound pay) {item : PayrollVoucherItem} (h : item ∈ postings accounts pay) :
    0 ≤ item.debit ∧ 0 ≤ item.credit ∧ (item.debit ≠ 0 ∨ item.credit ≠ 0) ∧ (item.debit = 0 ∨ item.credit = 0) := by
  obtain ⟨e, he, mem⟩ := List.mem_flatMap.mp h
  obtain ⟨positive, -, debit, credit⟩ := mem_row mem
  have sided := oneSided sound e he
  rw [debit, credit]
  exact ⟨sided.debit, sided.credit, positive.imp ne_of_gt ne_of_gt, sided.one⟩

/-- Rows of both sides are at least two. -/
theorem two_le_length {items : List PayrollVoucherItem}
    (sided : ∀ item ∈ items, item.debit = 0 ∨ item.credit = 0)
    (balanced : (items.map PayrollVoucherItem.debit).sum = (items.map PayrollVoucherItem.credit).sum)
    (positive : 0 < (items.map PayrollVoucherItem.debit).sum) : 2 ≤ items.length := by
  match items with
  | [] => exact absurd positive (lt_irrefl 0)
  | [item] =>
    rw [List.map_singleton, List.sum_singleton] at positive balanced
    rw [List.map_singleton, List.sum_singleton] at balanced
    rcases sided item List.mem_cons_self with debit | credit
    · exact absurd debit positive.ne'
    · exact absurd (balanced.trans credit) positive.ne'
  | _ :: _ :: _ => exact Nat.le_add_left 2 _

/-- Rial rows of equal sums pass the balance check. -/
theorem voucherAccepted {items : List PayrollVoucherItem}
    (rows : ∀ item ∈ items, 0 ≤ item.debit ∧ 0 ≤ item.credit ∧ (item.debit ≠ 0 ∨ item.credit ≠ 0) ∧
      (item.debit = 0 ∨ item.credit = 0))
    (balanced : (items.map PayrollVoucherItem.debit).sum = (items.map PayrollVoucherItem.credit).sum)
    (positive : 0 < (items.map PayrollVoucherItem.debit).sum) : VoucherAccepted items := by
  refine ⟨two_le_length (fun item h => (rows item h).2.2.2) balanced positive, ?_⟩
  have rial : ∀ row ∈ items.map PayrollVoucherItem.amounts, voucherRowCurrency row.currency (some "IRR") = "IRR" := by
    intro row h
    obtain ⟨item, -, rfl⟩ := List.mem_map.mp h
    change voucherRowCurrency (some "IRR") (some "IRR") = "IRR"
    decide +kernel
  have raw : checkRaw (items.map PayrollVoucherItem.amounts) (some "IRR") false = true := by
    unfold checkRaw
    rw [if_neg Bool.false_ne_true, decide_eq_true_eq]
    have same : ∀ c ∈ ((items.map PayrollVoucherItem.amounts).map fun row =>
        voucherRowCurrency row.currency (some "IRR")).dedup, c ∈ ["IRR"] := by
      intro c hc
      obtain ⟨row, hrow, rfl⟩ := List.mem_map.mp (List.mem_dedup.mp hc)
      exact List.mem_singleton.mpr (rial row hrow)
    exact (List.subperm_of_subset (List.nodup_dedup _) same).length_le
  refine ⟨⟨(items.map PayrollVoucherItem.debit).sum, (items.map PayrollVoucherItem.credit).sum⟩, ?_⟩
  unfold assertVoucherRowsBalanced rawTotals
  simp only [bind_eq_ok, pure_eq_ok, ensure_eq_ok, raw, if_true, forM_eq_ok]
  have debit : ((items.map PayrollVoucherItem.amounts).map VoucherRowAmounts.debit).sum =
      (items.map PayrollVoucherItem.debit).sum := by
    rw [List.map_map]
    rfl
  have credit : ((items.map PayrollVoucherItem.amounts).map VoucherRowAmounts.credit).sum =
      (items.map PayrollVoucherItem.credit).sum := by
    rw [List.map_map]
    rfl
  refine ⟨_, ⟨⟨⟩, fun row h => ?_, rfl⟩, ⟨⟩, ?_, ?_⟩
  · obtain ⟨item, mem, rfl⟩ := List.mem_map.mp h
    obtain ⟨debit_nonneg, credit_nonneg, some_amount, -⟩ := rows item mem
    exact ⟨⟨⟩, ⟨debit_nonneg, credit_nonneg⟩, some_amount⟩
  · dsimp only
    rw [debit, credit, balanced, sub_self, abs_zero]
    exact (by norm_num [voucherBalanceTolerance])
  · rw [debit, credit]

/-! ## The voucher -/

theorem allocated_eq {account : PayrollAccount} {amount : ℚ} (nonneg : 0 ≤ amount)
    (mapped : 0 < amount → (accounts account).isSome) : allocated accounts account amount = amount := by
  unfold allocated
  by_cases positive : 0 < amount
  · rw [if_pos (mapped positive), max_eq_right nonneg]
  · obtain rfl : amount = 0 := le_antisymm (not_lt.mp positive) nonneg
    rw [max_self, ite_self]

theorem mem_carried_advance : Entry.mk .employeeAdvance 0 pay.advanceDeduction ∈ carried pay := by
  unfold carried
  simp

theorem mem_carried_deductions : Entry.mk .employeeDeductionsPayable 0 pay.totalDeductions ∈ carried pay := by
  unfold carried
  simp

/-- The wages payable are credited with the net. -/
theorem payableCredit_eq (sound : Sound pay) (mapped : Mapped accounts pay) :
    payableCredit accounts pay = pay.netPayable := by
  have advance := allocated_eq sound.advance
    fun positive => mapped.needed _ mem_carried_advance (Or.inr positive)
  have deductions := allocated_eq sound.deductions
    fun positive => mapped.needed _ mem_carried_deductions (Or.inr positive)
  unfold payableCredit
  rw [advance, deductions, max_eq_right sound.employee, max_eq_right sound.tax]
  have net : grossAmount pay - (pay.employeeInsurance + pay.incomeTax + pay.advanceDeduction + pay.totalDeductions) =
      pay.netPayable := by
    rw [sound.net_eq]
    ring
  rw [net, max_eq_right sound.net]

theorem missingStatutoryAccount_none (mapped : Mapped accounts pay) : missingStatutoryAccount accounts pay = none := by
  have has : ∀ e ∈ carried pay, 0 < e.debit ∨ 0 < e.credit → accounts e.account ≠ none := fun e he positive =>
    Option.isSome_iff_ne_none.mp (mapped.needed e he positive)
  unfold missingStatutoryAccount
  rw [if_neg, if_neg, if_neg]
  · rintro ⟨positive, missing⟩
    exact has ⟨.payrollTaxPayable, 0, pay.incomeTax⟩ (by simp [carried]) (Or.inr positive) missing
  · rintro ⟨positive, missing⟩
    exact has ⟨.employerInsuranceExpense, pay.employerInsurance, 0⟩ (by simp [carried]) (Or.inl positive) missing
  · rintro (⟨positive, missing⟩ | ⟨positive, missing⟩)
    · exact has ⟨.insurancePayable, 0, pay.employeeInsurance⟩ (by simp [carried]) (Or.inr positive) missing
    · exact has ⟨.insurancePayable, 0, pay.employerInsurance⟩ (by simp [carried]) (Or.inr positive) missing

theorem fromAccrual_eidi (sound : Sound pay) (isEidi : pay.isEidi = true) : fromAccrual pay = pay.eidiFromAccrual := by
  unfold fromAccrual
  rw [if_pos isEidi, max_eq_right sound.accrual, min_eq_right (sound.accrual_le isEidi)]

/-- The rows of the bonus are the entries of the bonus. -/
theorem payrollEidiVoucherRows_ok (sound : Sound pay) (mapped : Mapped accounts pay) :
    payrollEidiVoucherRows accounts pay =
      .ok ((carriedEidi pay).flatMap fun e => row accounts pay e.account e.debit e.credit) := by
  have has : ∀ e ∈ carriedEidi pay, 0 < e.debit ∨ 0 < e.credit → accounts e.account ≠ none := fun e he positive =>
    Option.isSome_iff_ne_none.mp (mapped.needed e
      (List.mem_append_left _ (List.mem_append_right _ he)) positive)
  unfold payrollEidiVoucherRows
  by_cases isEidi : pay.isEidi = true
  · have entries : carriedEidi pay =
        [⟨.eidiPayable, pay.eidiFromAccrual, 0⟩, ⟨.eidiExpense, pay.eidiAmount - pay.eidiFromAccrual, 0⟩] :=
      if_pos isEidi
    have expense : expensePart pay = pay.eidiAmount - pay.eidiFromAccrual := by
      rw [expensePart, if_pos isEidi, fromAccrual_eidi sound isEidi]
    rw [if_neg (not_not.mpr (sound.eidi_positive isEidi)), if_neg, if_neg, if_pos isEidi, entries, expense,
      fromAccrual_eidi sound isEidi]
    · rw [List.flatMap_cons, List.flatMap_cons, List.flatMap_nil, List.append_nil]
    · rintro ⟨positive, missing⟩
      rw [expense] at positive
      exact has ⟨.eidiExpense, pay.eidiAmount - pay.eidiFromAccrual, 0⟩ (by simp [entries]) (Or.inl positive) missing
    · rintro ⟨positive, missing⟩
      rw [fromAccrual_eidi sound isEidi] at positive
      exact has ⟨.eidiPayable, pay.eidiFromAccrual, 0⟩ (by simp [entries]) (Or.inl positive) missing
  · have entries : carriedEidi pay =
        [⟨.eidiExpense, pay.eidiAmount, 0⟩, ⟨.eidiPayable, 0, pay.eidiAmount⟩] := if_neg isEidi
    rw [entries, List.flatMap_cons, List.flatMap_cons, List.flatMap_nil, List.append_nil]
    by_cases positive : 0 < (pay.eidiAmount : ℚ)
    · rw [if_neg (not_not.mpr positive), if_neg, if_neg, if_neg isEidi]
      · rintro ⟨-, missing⟩
        exact has ⟨.eidiExpense, pay.eidiAmount, 0⟩ (by simp [entries]) (Or.inl positive) missing
      · rintro ⟨-, missing⟩
        exact has ⟨.eidiPayable, 0, pay.eidiAmount⟩ (by simp [entries]) (Or.inr positive) missing
    · have zero : (pay.eidiAmount : ℚ) = 0 := le_antisymm (not_lt.mp positive) sound.eidi
      rw [if_pos positive]
      dsimp only
      rw [zero, row_zero, row_zero]
      rfl

/-- Where there is a gross amount, the rows are the payslip's amounts. -/
theorem autoCreate_of_gross (sound : Sound pay) (mapped : Mapped accounts pay) (gross : 0 < grossAmount pay)
    (strict : Bool) : autoCreateVoucherForPayroll accounts pay strict = .ok (some (postings accounts pay)) := by
  have has : ∀ {account}, (accounts account).isSome → accounts account ≠ none := Option.isSome_iff_ne_none.mp
  have payable := payableCredit_eq sound mapped
  have components : ¬HasNegativeComponent pay := by
    unfold HasNegativeComponent
    simp only [not_or, not_lt]
    exact ⟨sound.bonuses, sound.deductions, sound.advance, sound.employee, sound.employer, sound.tax⟩
  unfold autoCreateVoucherForPayroll
  rw [if_neg, if_neg components, if_neg (not_not.mpr gross), missingStatutoryAccount_none mapped,
    payrollEidiVoucherRows_ok sound mapped]
  · dsimp only
    rw [if_neg, if_neg, if_neg]
    · unfold voucherItems postings carried
      rw [payable]
      simp only [List.flatMap_append, List.flatMap_cons, List.flatMap_nil, List.append_nil, List.append_assoc]
    · rw [payable, sub_self, abs_zero]
      norm_num [voucherBalanceTolerance]
    · rintro ⟨-, positive, missing⟩
      exact has (mapped.needed _ mem_carried_deductions (Or.inr positive)) missing
    · rintro ⟨-, positive, missing⟩
      exact has (mapped.needed _ mem_carried_advance (Or.inr positive)) missing
  · rintro (wages | payable | fixed)
    · exact has mapped.wages wages
    · exact has mapped.payable payable
    · exact has mapped.fixed fixed

/-! ## Payslips without a gross amount -/

/-- Only the employer's insurance is left on a payslip without a gross amount. -/
theorem zero_of_no_gross (sound : Sound pay) (nothing : ¬0 < grossAmount pay) :
    grossAmount pay = 0 ∧ pay.isEidi = false ∧ (pay.totalPieceworkAmount : ℚ) = 0 ∧
      (pay.totalFixedAmount : ℚ) = 0 ∧ (pay.totalBonuses : ℚ) = 0 ∧ (pay.eidiAmount : ℚ) = 0 ∧
        (pay.employeeInsurance : ℚ) = 0 ∧ (pay.incomeTax : ℚ) = 0 ∧ (pay.advanceDeduction : ℚ) = 0 ∧
          (pay.totalDeductions : ℚ) = 0 ∧ (pay.netPayable : ℚ) = 0 := by
  obtain ⟨piecework, fixed, bonuses, deductions, advance, employee, -, tax, net, net_eq, eidi, eidi_worked, -, -,
    eidi_positive⟩ := sound
  have ordinary : pay.isEidi = false := by
    by_contra other
    have isEidi : pay.isEidi = true := Bool.not_eq_false _ ▸ other
    have positive := eidi_positive isEidi
    rw [grossAmount, eidiPayslipGross_eidi isEidi eidi] at nothing
    linarith
  rw [grossAmount, eidiPayslipGross_ordinary ordinary] at nothing net_eq ⊢
  rw [not_lt] at nothing
  have eidi_zero : (pay.eidiAmount : ℚ) = 0 := by
    by_contra other
    have worked := eidi_worked ordinary (lt_of_le_of_ne eidi (Ne.symm other))
    linarith
  refine ⟨by linarith, ordinary, by linarith, by linarith, by linarith, eidi_zero, ?_, ?_, ?_, ?_, ?_⟩ <;> linarith

theorem autoCreate_of_no_gross (sound : Sound pay) (mapped : Mapped accounts pay) (nothing : ¬0 < grossAmount pay)
    (strict : Bool) : autoCreateVoucherForPayroll accounts pay strict = .ok none := by
  have has : ∀ {account}, (accounts account).isSome → accounts account ≠ none := Option.isSome_iff_ne_none.mp
  obtain ⟨-, -, -, -, -, -, -, -, -, -, net⟩ := zero_of_no_gross sound nothing
  have components : ¬HasNegativeComponent pay := by
    unfold HasNegativeComponent
    simp only [not_or, not_lt]
    exact ⟨sound.bonuses, sound.deductions, sound.advance, sound.employee, sound.employer, sound.tax⟩
  unfold autoCreateVoucherForPayroll
  rw [if_neg, if_neg components, if_pos nothing, if_neg fun positive => positive.ne' net]
  rintro (wages | payable | fixed)
  · exact has mapped.wages wages
  · exact has mapped.payable payable
  · exact has mapped.fixed fixed

/-- Nothing is left to book exactly when the employer pays no insurance. -/
theorem postings_eq_nil_iff (sound : Sound pay) (mapped : Mapped accounts pay) (nothing : ¬0 < grossAmount pay) :
    postings accounts pay = [] ↔ (pay.employerInsurance : ℚ) = 0 := by
  obtain ⟨-, ordinary, piecework, fixed, bonuses, eidi, employee, tax, advance, deductions, net⟩ :=
    zero_of_no_gross sound nothing
  constructor
  · intro empty
    have sums := (sum_postings sound mapped).1
    rw [empty, List.map_nil, List.sum_nil] at sums
    unfold carried carriedEidi at sums
    rw [if_neg (ordinary ▸ Bool.false_ne_true)] at sums
    simp only [List.map_append, List.map_cons, List.map_nil, List.sum_append, List.sum_cons, List.sum_nil] at sums
    linarith
  · intro employer
    unfold postings carried carriedEidi
    rw [if_neg (ordinary ▸ Bool.false_ne_true), piecework, fixed, bonuses, eidi, employee, tax, advance, deductions,
      net, employer]
    simp only [List.cons_append, List.nil_append, List.flatMap_cons, List.flatMap_nil, add_zero, row_zero,
      List.append_nil]

/-! ## The voucher books the payslip -/

/-- A voucher is accepted, has each amount of the payslip once and puts on every account what
the payslip carries for it. -/
structure VoucherBooks (accounts : AccountMapping) (pay : Payslip) (items : List PayrollVoucherItem) : Prop where
  accepted : VoucherAccepted items
  once : items.Perm (postings accounts pay)
  debits : ∀ id, sumWhere (fun item => item.accountId = id) PayrollVoucherItem.debit items =
    sumWhere (fun e => accounts e.account = some id) Entry.debit (carried pay)
  credits : ∀ id, sumWhere (fun item => item.accountId = id) PayrollVoucherItem.credit items =
    sumWhere (fun e => accounts e.account = some id) Entry.credit (carried pay)

/-- The payslip is booked: by its voucher, or because it carries nothing. -/
def Booked (accounts : AccountMapping) (pay : Payslip) :
    Except PayrollVoucherError (Option (List PayrollVoucherItem)) → Prop
  | .ok (some items) => VoucherBooks accounts pay items
  | .ok none => postings accounts pay = []
  | .error _ => False

/-- A payslip is booked unless it has no gross amount and carries insurance of the employer. -/
theorem payroll_voucher (issued : Issued pay) (mapped : Mapped accounts pay) (strict : Bool) :
    Booked accounts pay (autoCreateVoucherForPayroll accounts pay strict) ↔
      0 < grossAmount pay ∨ (pay.employerInsurance : ℚ) = 0 := by
  have sound := issued.sound
  by_cases gross : 0 < grossAmount pay
  · rw [autoCreate_of_gross sound mapped gross]
    refine ⟨fun _ => Or.inl gross, fun _ => ?_⟩
    obtain ⟨debits, credits⟩ := sum_postings sound mapped
    have balanced := debits.trans ((carried_balanced sound).trans credits.symm)
    refine ⟨voucherAccepted (fun _ h => postings_positive sound h) balanced ?_, List.Perm.refl _,
      fun id => (sumWhere_postings sound mapped id).1, fun id => (sumWhere_postings sound mapped id).2⟩
    rw [debits]
    exact gross.trans_le (grossAmount_le_debits sound)
  · rw [autoCreate_of_no_gross sound mapped gross]
    exact (postings_eq_nil_iff sound mapped gross).trans ⟨Or.inr, fun h => h.resolve_left gross⟩

/-! Work at no rate, with insurance of the employer that the issuer enters. -/

def nowruz : StorageDate := ⟨2025, 3, 21, by decide, by decide⟩

def allMapped : AccountMapping := fun _ => some 1

/-- A worker with one log of the given amount; no rates of the year are stored. -/
def oneLog (amount : MoneyColumn) (nonneg : 0 ≤ (amount : ℚ)) : PayrollData where
  today := nowruz
  person := ⟨7, "none", stored 0, none, .working, ⟨true, true⟩, false⟩
  freeLogs := [⟨some nowruz, amount, nonneg⟩]
  priorPayrolls := []
  outstandingAdvance := 0
  statutoryRates := fun _ => none
  eidiRates := ⟨fun _ => none, fun _ _ h => absurd h.symm (Option.some_ne_none _)⟩
  payslips := []

def employerOnly (employer : ℚ) : GeneratePayrollInput where
  startDate := nowruz
  endDate := nowruz
  bonuses := stored 0
  deductions := stored 0
  deductionsDescription := ""
  advanceDeduction := stored 0
  entered := ⟨none, some employer, none⟩
  statutoryOverrideReason := "توافق"
  isPrepayment := false
  prepaymentReason := ""

theorem mapped_all (pay : Payslip) : Mapped allMapped pay := ⟨rfl, rfl, rfl, fun _ _ _ => rfl⟩

theorem payroll_voucher_one_log : ∃ pay, generatePayroll (oneLog (stored 100) (money_nonneg (by norm_num)))
    (employerOnly 23) = .ok pay ∧
      (Booked allMapped pay (autoCreateVoucherForPayroll allMapped pay true) ↔
        0 < grossAmount pay ∨ (pay.employerInsurance : ℚ) = 0) := by
  have issued : (generatePayroll (oneLog (stored 100) (money_nonneg (by norm_num))) (employerOnly 23)).isOk = true := by
    decide +kernel
  cases outcome : generatePayroll (oneLog (stored 100) (money_nonneg (by norm_num))) (employerOnly 23) with
  | error e =>
    rw [outcome] at issued
    exact Bool.noConfusion issued
  | ok pay => exact ⟨pay, rfl, payroll_voucher (Issued.generated _ _ outcome) (mapped_all pay) true⟩

/-- The employer's insurance of a payslip without pay is on no voucher. -/
theorem employer_insurance_without_voucher : ¬∀ (accounts : AccountMapping) (pay : Payslip), Issued pay →
    Mapped accounts pay → Booked accounts pay (autoCreateVoucherForPayroll accounts pay true) := by
  intro claim
  have columns : (generatePayroll (oneLog (stored 0) (money_nonneg le_rfl)) (employerOnly 1000)).toOption.map
      (fun pay => (grossAmount pay, (pay.employerInsurance : ℚ))) = some (0, 1000) := by
    decide +kernel
  cases outcome : generatePayroll (oneLog (stored 0) (money_nonneg le_rfl)) (employerOnly 1000) with
  | error e =>
    rw [outcome] at columns
    exact absurd columns.symm (Option.some_ne_none _)
  | ok pay =>
    rw [outcome] at columns
    obtain ⟨gross, employer⟩ := Prod.mk.inj (Option.some.inj columns)
    have issued : Issued pay := Issued.generated _ _ outcome
    have nothing : ¬0 < grossAmount pay := gross.not_gt
    have booked := claim allMapped pay issued (mapped_all pay)
    rw [autoCreate_of_no_gross issued.sound (mapped_all pay) nothing] at booked
    have zero := (postings_eq_nil_iff issued.sound (mapped_all pay) nothing).mp booked
    rw [employer] at zero
    norm_num at zero

end PapitalErp.Payslips
