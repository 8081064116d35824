import PapitalErp.FinancialDecimal
import PapitalErp.Lib.Transition

/-!
# The balance of a voucher and its rial report

A voucher is accepted when its rows balance: in their own currency where they have only
one, and in rial otherwise, each foreign row at its own rate and rounded to rial. A
manual voucher in one currency at several rates is judged in rial too. The reports read
every stored row in rial.

A voucher that was judged in rial is balanced in the reports as it was judged. One that
was judged in its own foreign currency is balanced there, and the reports see the
tolerance times the rate, and the rounding of every row.
-/

namespace PapitalErp

open Rounding Transition

/-- `VOUCHER_BALANCE_TOLERANCE`. -/
def voucherBalanceTolerance : ℚ := 1 / 100

/-! ## Currencies and rates -/

/-- `String.prototype.trim`. -/
def trimmed (s : String) : String :=
  String.ofList ((s.toList.dropWhile Char.isWhitespace).reverse.dropWhile Char.isWhitespace).reverse

/-- `toUpperCase` and the UPPER of SQL, on the letters of currency codes. -/
def upperCase (s : String) : String := String.ofList (s.toList.map Char.toUpper)

def currencyCode (value : Option String) : Option String :=
  value.bind fun text =>
    let code := upperCase (trimmed text)
    if code = "" then none else some (if code = "ریال" then "IRR" else code)

def voucherRowCurrency (rowCurrency voucherCurrency : Option String) : String :=
  (currencyCode rowCurrency).getD ((currencyCode voucherCurrency).getD "IRR")

def voucherRowRate (currency : String) (exchangeRate : Option ℚ) : Option ℚ :=
  if currency = "IRR" then some 1 else exchangeRate.filter (0 < ·)

/-- A row as it is sent. -/
structure VoucherRowAmounts where
  debit : ℚ
  credit : ℚ
  currency : Option String
  exchangeRate : Option ℚ

/-! ## The balance -/

structure ResolvedRow where
  currency : String
  rate : Option ℚ
  debit : ℚ
  credit : ℚ

def resolveRow (voucherCurrency : Option String) (row : VoucherRowAmounts) : ResolvedRow :=
  let currency := voucherRowCurrency row.currency voucherCurrency
  ⟨currency, voucherRowRate currency row.exchangeRate, row.debit, row.credit⟩

/-- An amount of a row in rial. -/
def ResolvedRow.toRial (r : ResolvedRow) (amount : ℚ) : ℚ :=
  if r.currency = "IRR" then amount else FinancialDecimal.round (amount * r.rate.getD 0) 0

/-- All rows have one currency and one rate. -/
def IsSingle (rows : List ResolvedRow) : Prop :=
  (rows.map (·.currency)).dedup.length ≤ 1 ∧ (rows.map (·.rate)).dedup.length ≤ 1

instance (rows : List ResolvedRow) : Decidable (IsSingle rows) := inferInstanceAs (Decidable (_ ∧ _))

structure VoucherCurrencyBalance where
  inRial : Bool
  currency : String
  totalDebit : ℚ
  totalCredit : ℚ
  difference : ℚ
  isBalanced : Bool
  rowsWithoutRate : List ℕ

def computeVoucherCurrencyBalance (rows : List VoucherRowAmounts) (voucherCurrency : Option String) :
    VoucherCurrencyBalance :=
  let resolved := rows.map (resolveRow voucherCurrency)
  let rowsWithoutRate := resolved.zipIdx.filterMap fun (r, i) => if r.rate = none then some (i + 1) else none
  let single := IsSingle resolved
  let totalDebit := (resolved.map fun r => if single then r.debit else r.toRial r.debit).sum
  let totalCredit := (resolved.map fun r => if single then r.credit else r.toRial r.credit).sum
  let difference := |totalDebit - totalCredit|
  { inRial := !decide single
    currency := if single then (resolved.head?.map (·.currency)).getD (voucherRowCurrency none voucherCurrency)
      else "IRR"
    totalDebit
    totalCredit
    difference
    isBalanced := decide (rowsWithoutRate = [] ∧ 0 < totalDebit ∧ difference ≤ voucherBalanceTolerance)
    rowsWithoutRate }

inductive VoucherRowsError where
  | negativeAmount
  | emptyRow
  | unbalanced (debit credit : ℚ) (inRial : Bool)
  /-- `VOUCHER_ROW_RATE_REQUIRED` -/
  | rateRequired (rows : List ℕ)
  deriving DecidableEq

structure VoucherRowTotals where
  sumDebit : ℚ
  sumCredit : ℚ
  deriving DecidableEq

def rawTotals (items : List VoucherRowAmounts) : Except VoucherRowsError VoucherRowTotals := do
  forM items fun item => do
    ensure (0 ≤ item.debit ∧ 0 ≤ item.credit) VoucherRowsError.negativeAmount
    ensure (item.debit ≠ 0 ∨ item.credit ≠ 0) VoucherRowsError.emptyRow
  return ⟨(items.map (·.debit)).sum, (items.map (·.credit)).sum⟩

/-- Whether the rows are judged by their own amounts. -/
def checkRaw (items : List VoucherRowAmounts) (voucherCurrency : Option String) (manual : Bool) : Bool :=
  if manual then !(computeVoucherCurrencyBalance items voucherCurrency).inRial
  else (items.map fun item => voucherRowCurrency item.currency voucherCurrency).dedup.length ≤ 1

def assertVoucherRowsBalanced (items : List VoucherRowAmounts) (voucherCurrency : Option String)
    (manual : Bool) : Except VoucherRowsError VoucherRowTotals := do
  let totals ← rawTotals items
  let balance := computeVoucherCurrencyBalance items voucherCurrency
  if checkRaw items voucherCurrency manual then
    ensure (|totals.sumDebit - totals.sumCredit| ≤ voucherBalanceTolerance)
      (.unbalanced totals.sumDebit totals.sumCredit false)
  else
    ensure (balance.rowsWithoutRate = []) (.rateRequired balance.rowsWithoutRate)
    ensure balance.isBalanced (.unbalanced balance.totalDebit balance.totalCredit true)
  return totals

/-- The rows of a manual voucher, each with its currency and its rate. -/
def resolveManualVoucherRows (items : List VoucherRowAmounts) (voucherCurrency : Option String) :
    Except VoucherRowsError (List VoucherRowAmounts × VoucherRowTotals) := do
  let missing := (items.map (resolveRow voucherCurrency)).zipIdx.filterMap fun (r, i) =>
    if r.rate = none then some (i + 1) else none
  ensure (missing = []) (VoucherRowsError.rateRequired missing)
  let rows := items.map fun item =>
    let r := resolveRow voucherCurrency item
    { item with currency := some r.currency, exchangeRate := r.rate.map money }
  let totals ← assertVoucherRowsBalanced rows voucherCurrency true
  return (rows, totals)

/-! ## What is stored, and how the reports read it -/

/-- The amounts of a stored row. -/
structure VoucherItemAmounts where
  debit : ℚ
  credit : ℚ
  currency : String
  exchangeRate : ℚ
  deriving DecidableEq

def moneyOr (val : Option ℚ) (fallback : ℚ) : ℚ := if val.getD 0 = 0 then fallback else val.getD 0

/-- A row as `insertVoucherItems` stores it. -/
def storeAmounts (item : VoucherRowAmounts) : VoucherItemAmounts :=
  ⟨money item.debit, money item.credit, (item.currency.filter (· ≠ "")).getD "IRR",
    money (moneyOr item.exchangeRate 1)⟩

namespace VoucherItemAmounts

variable (item : VoucherItemAmounts) (voucherCurrency : String)

/-- `voucherItemCurrencySql`. -/
def reportCurrency : String :=
  upperCase (if item.currency ≠ "" then item.currency
    else if voucherCurrency ≠ "" then voucherCurrency else "IRR")

/-- `voucherItemRateSql`. -/
def reportRate : ℚ := if item.exchangeRate = 0 then 1 else item.exchangeRate

/-- `voucherItemReportAmountSql` in the view of all currencies. -/
def reportAmount (amount : ℚ) : ℚ :=
  if item.reportCurrency voucherCurrency = "IRR" then amount else roundHalfUp 0 (amount * item.reportRate)

end VoucherItemAmounts

/-- The stored row is the row that was judged: in the same currency, with amounts and rate
of at most four decimals. -/
structure StoredAsJudged (voucherCurrency : Option String) (item : VoucherRowAmounts) : Prop where
  currency : (storeAmounts item).reportCurrency ((voucherCurrency.filter (· ≠ "")).getD "IRR") =
    voucherRowCurrency item.currency voucherCurrency
  debit : AtScale 4 item.debit
  credit : AtScale 4 item.credit
  rate : ∀ rate ∈ item.exchangeRate, AtScale 4 rate

instance (voucherCurrency : Option String) (item : VoucherRowAmounts) :
    Decidable (StoredAsJudged voucherCurrency item) :=
  decidable_of_iff (_ ∧ AtScale 4 item.debit ∧ AtScale 4 item.credit ∧ ∀ rate ∈ item.exchangeRate, AtScale 4 rate)
    ⟨fun ⟨currency, debit, credit, rate⟩ => ⟨currency, debit, credit, rate⟩,
      fun h => ⟨h.currency, h.debit, h.credit, h.rate⟩⟩

/-- The gap between the debits and the credits of the stored rows in the rial reports. -/
def reportGap (items : List VoucherRowAmounts) (voucherCurrency : Option String) : ℚ :=
  let header := (voucherCurrency.filter (· ≠ "")).getD "IRR"
  let stored := items.map storeAmounts
  (stored.map fun item => item.reportAmount header item.debit).sum -
    (stored.map fun item => item.reportAmount header item.credit).sum

/-- How far the rial reports of an accepted voucher may be from balance: the tolerance,
or, in one foreign currency at one rate, the tolerance at that rate and the rounding of
the rows. -/
def reportSlack (items : List VoucherRowAmounts) (voucherCurrency : Option String) (manual : Bool) :
    Option ℚ :=
  if checkRaw items voucherCurrency manual = false ∨
      (∀ item ∈ items, voucherRowCurrency item.currency voucherCurrency = "IRR") then
    some voucherBalanceTolerance
  else
    match (items.map fun item => (storeAmounts item).reportRate).dedup with
    | [rate] => some (|rate| * voucherBalanceTolerance + items.length)
    | _ => none

/-! ## The reports of accepted vouchers -/

section Reports

variable {items : List VoucherRowAmounts} {voucherCurrency : Option String} {manual : Bool}
  {totals : VoucherRowTotals} {item : VoucherRowAmounts}

theorem store_debit (h : StoredAsJudged voucherCurrency item) :
    (storeAmounts item).debit = item.debit := money_of_atScale h.debit

theorem store_credit (h : StoredAsJudged voucherCurrency item) :
    (storeAmounts item).credit = item.credit := money_of_atScale h.credit

/-- A foreign row with a positive rate is stored with it. -/
theorem reportRate_of_rate (h : StoredAsJudged voucherCurrency item) {rate : ℚ}
    (foreign : voucherRowCurrency item.currency voucherCurrency ≠ "IRR")
    (rated : (resolveRow voucherCurrency item).rate = some rate) :
    (storeAmounts item).reportRate = rate := by
  simp only [resolveRow, voucherRowRate, if_neg foreign, Option.filter_eq_some_iff,
    decide_eq_true_eq] at rated
  obtain ⟨sent, positive⟩ := rated
  have stored : (storeAmounts item).exchangeRate = rate := by
    rw [storeAmounts, moneyOr, sent, Option.getD_some, if_neg positive.ne']
    exact money_of_atScale (h.rate rate sent)
  rw [VoucherItemAmounts.reportRate, stored, if_neg positive.ne']

/-- Where a row has a rate, the report reads its stored amounts as they were judged. -/
theorem reportAmount_eq_toRial (h : StoredAsJudged voucherCurrency item)
    (rated : (resolveRow voucherCurrency item).rate ≠ none) (amount : ℚ) :
    (storeAmounts item).reportAmount ((voucherCurrency.filter (· ≠ "")).getD "IRR") amount =
      (resolveRow voucherCurrency item).toRial amount := by
  obtain ⟨rate, rated⟩ := Option.ne_none_iff_exists'.mp rated
  rw [VoucherItemAmounts.reportAmount, h.currency, ResolvedRow.toRial]
  by_cases rial : voucherRowCurrency item.currency voucherCurrency = "IRR"
  · rw [if_pos rial]
    exact (if_pos rial).symm
  · rw [if_neg rial, reportRate_of_rate h rial rated, rated, Option.getD_some]
    exact (if_neg rial).symm

theorem checkRaw_ok (accepted : assertVoucherRowsBalanced items voucherCurrency manual = .ok totals)
    (raw : checkRaw items voucherCurrency manual = true) :
    |(items.map (·.debit)).sum - (items.map (·.credit)).sum| ≤ voucherBalanceTolerance := by
  simp only [assertVoucherRowsBalanced, rawTotals, bind_eq_ok, pure_eq_ok, raw, if_true,
    ensure_eq_ok] at accepted
  obtain ⟨_, ⟨_, -, rfl⟩, _, balanced, -⟩ := accepted
  exact balanced

/-- Rows that are not judged by their own amounts are of several currencies or rates. -/
theorem not_isSingle_of_checkRaw (rial : checkRaw items voucherCurrency manual = false) :
    ¬ IsSingle (items.map (resolveRow voucherCurrency)) := by
  intro single
  cases manual with
  | true =>
      have inRial : (computeVoucherCurrencyBalance items voucherCurrency).inRial = true := by
        simpa [checkRaw] using rial
      simp [computeVoucherCurrencyBalance, single] at inRial
  | false =>
      have several := of_decide_eq_false rial
      exact several (by simpa [Function.comp_def, resolveRow] using single.1)

/-- A voucher that is judged in rial has a rate on every row and balances in rial. -/
theorem checkRial_ok (accepted : assertVoucherRowsBalanced items voucherCurrency manual = .ok totals)
    (rial : checkRaw items voucherCurrency manual = false) :
    (∀ item ∈ items, (resolveRow voucherCurrency item).rate ≠ none) ∧
      |(items.map fun item => (resolveRow voucherCurrency item).toRial item.debit).sum -
        (items.map fun item => (resolveRow voucherCurrency item).toRial item.credit).sum| ≤
        voucherBalanceTolerance := by
  have several := not_isSingle_of_checkRaw rial
  simp only [assertVoucherRowsBalanced, bind_eq_ok, rial, Bool.false_eq_true, if_false,
    ensure_eq_ok] at accepted
  obtain ⟨_, -, _, rated, _, balanced, -⟩ := accepted
  simp only [computeVoucherCurrencyBalance, if_neg several, decide_eq_true_eq] at rated balanced
  refine ⟨fun item mem unrated => ?_, ?_⟩
  · obtain ⟨i, found⟩ := List.mem_iff_getElem?.mp (List.mem_map_of_mem (f := resolveRow voucherCurrency) mem)
    have listed : (resolveRow voucherCurrency item, i) ∈ (items.map (resolveRow voucherCurrency)).zipIdx :=
      List.mem_zipIdx_iff_getElem?.mpr found
    have missing := List.filterMap_eq_nil_iff.mp rated _ listed
    simp [unrated] at missing
  · have gap := balanced.2.2
    simpa [List.map_map, Function.comp_def, resolveRow] using gap

/-- A voucher judged in rial is balanced in the reports as it was judged. -/
theorem reportGap_of_rial (stored : ∀ item ∈ items, StoredAsJudged voucherCurrency item)
    (accepted : assertVoucherRowsBalanced items voucherCurrency manual = .ok totals)
    (rial : checkRaw items voucherCurrency manual = false) :
    |reportGap items voucherCurrency| ≤ voucherBalanceTolerance := by
  obtain ⟨rated, balanced⟩ := checkRial_ok accepted rial
  have debits : (items.map fun item => (storeAmounts item).reportAmount
      ((voucherCurrency.filter (· ≠ "")).getD "IRR") (storeAmounts item).debit) =
        items.map fun item => (resolveRow voucherCurrency item).toRial item.debit := by
    refine List.map_congr_left fun item mem => ?_
    rw [store_debit (stored item mem), reportAmount_eq_toRial (stored item mem) (rated item mem)]
  have credits : (items.map fun item => (storeAmounts item).reportAmount
      ((voucherCurrency.filter (· ≠ "")).getD "IRR") (storeAmounts item).credit) =
        items.map fun item => (resolveRow voucherCurrency item).toRial item.credit := by
    refine List.map_congr_left fun item mem => ?_
    rw [store_credit (stored item mem), reportAmount_eq_toRial (stored item mem) (rated item mem)]
  simpa only [reportGap, List.map_map, Function.comp_def, debits, credits] using balanced

/-- The reports read a voucher that is wholly in rial by its amounts. -/
theorem reportGap_of_allRial (stored : ∀ item ∈ items, StoredAsJudged voucherCurrency item)
    (allRial : ∀ item ∈ items, voucherRowCurrency item.currency voucherCurrency = "IRR") :
    reportGap items voucherCurrency = (items.map (·.debit)).sum - (items.map (·.credit)).sum := by
  have amounts (column : VoucherItemAmounts → ℚ) (item) (mem : item ∈ items) :
      (storeAmounts item).reportAmount ((voucherCurrency.filter (· ≠ "")).getD "IRR")
        (column (storeAmounts item)) = column (storeAmounts item) :=
    if_pos (((stored item mem).currency).trans (allRial item mem))
  unfold reportGap
  simp only [List.map_map, Function.comp_def]
  rw [List.map_congr_left (amounts (·.debit)), List.map_congr_left (amounts (·.credit)),
    List.map_congr_left fun item mem => store_debit (stored item mem),
    List.map_congr_left fun item mem => store_credit (stored item mem)]

theorem eq_of_dedup_length_le_one {α : Type*} [DecidableEq α] {l : List α} (few : l.dedup.length ≤ 1)
    {a b : α} (ha : a ∈ l) (hb : b ∈ l) : a = b := by
  have found := List.mem_dedup.mpr ha
  have found' := List.mem_dedup.mpr hb
  cases kinds : l.dedup with
  | nil =>
      rw [kinds] at found
      cases found
  | cons c rest =>
      rw [kinds] at few found found'
      obtain rfl := List.length_eq_zero_iff.mp (Nat.le_zero.mp (Nat.le_of_succ_le_succ few))
      rw [List.mem_singleton.mp found, List.mem_singleton.mp found']

/-- Rows that are judged by their own amounts have one currency. -/
theorem sameCurrency_of_checkRaw (raw : checkRaw items voucherCurrency manual = true)
    {other : VoucherRowAmounts} (mem : item ∈ items) (mem' : other ∈ items) :
    voucherRowCurrency item.currency voucherCurrency = voucherRowCurrency other.currency voucherCurrency := by
  have one : (items.map fun item => voucherRowCurrency item.currency voucherCurrency).dedup.length ≤ 1 := by
    cases manual with
    | true =>
        have single : IsSingle (items.map (resolveRow voucherCurrency)) := by
          simpa [checkRaw, computeVoucherCurrencyBalance] using raw
        simpa [Function.comp_def, resolveRow] using single.1
    | false => exact of_decide_eq_true raw
  exact eq_of_dedup_length_le_one one (List.mem_map_of_mem mem) (List.mem_map_of_mem mem')

/-- The reports read rows of one foreign currency at one rate by that rate, each rounded. -/
theorem reportGap_of_foreign (stored : ∀ item ∈ items, StoredAsJudged voucherCurrency item) {rate : ℚ}
    (foreign : ∀ item ∈ items, voucherRowCurrency item.currency voucherCurrency ≠ "IRR")
    (sameRate : ∀ item ∈ items, (storeAmounts item).reportRate = rate) :
    |reportGap items voucherCurrency| ≤
      |rate| * |(items.map (·.debit)).sum - (items.map (·.credit)).sum| + items.length := by
  have amounts (column : VoucherItemAmounts → ℚ) (item) (mem : item ∈ items) :
      (storeAmounts item).reportAmount ((voucherCurrency.filter (· ≠ "")).getD "IRR")
        (column (storeAmounts item)) = roundHalfUp 0 (column (storeAmounts item) * rate) := by
    rw [VoucherItemAmounts.reportAmount, (stored item mem).currency, if_neg (foreign item mem),
      sameRate item mem]
  have gap : reportGap items voucherCurrency =
      (items.map fun item => roundHalfUp 0 (item.debit * rate)).sum -
        (items.map fun item => roundHalfUp 0 (item.credit * rate)).sum := by
    unfold reportGap
    simp only [List.map_map, Function.comp_def]
    rw [List.map_congr_left (amounts (·.debit)), List.map_congr_left (amounts (·.credit))]
    congr 2
    · exact List.map_congr_left fun item mem => by rw [store_debit (stored item mem)]
    · exact List.map_congr_left fun item mem => by rw [store_credit (stored item mem)]
  have debits := abs_le.mp (abs_sum_roundHalfUp_sub_le 0 (fun item : VoucherRowAmounts => item.debit * rate) items)
  have credits := abs_le.mp (abs_sum_roundHalfUp_sub_le 0 (fun item : VoucherRowAmounts => item.credit * rate) items)
  have raw := abs_le.mp (abs_mul rate ((items.map (·.debit)).sum - (items.map (·.credit)).sum)).le
  have half : halfUnit 0 = 1 / 2 := by norm_num [halfUnit]
  simp only [List.sum_map_mul_right, half] at debits credits
  rw [gap, abs_le]
  constructor <;> linarith [debits.1, debits.2, credits.1, credits.2, raw.1, raw.2]

/-- The reports of an accepted voucher are balanced within its slack. -/
theorem abs_reportGap_le (stored : ∀ item ∈ items, StoredAsJudged voucherCurrency item)
    (accepted : assertVoucherRowsBalanced items voucherCurrency manual = .ok totals) {slack : ℚ}
    (within : reportSlack items voucherCurrency manual = some slack) :
    |reportGap items voucherCurrency| ≤ slack := by
  unfold reportSlack at within
  split_ifs at within with judged
  · obtain rfl := Option.some.inj within
    obtain rial | allRial := judged
    · exact reportGap_of_rial stored accepted rial
    · by_cases raw : checkRaw items voucherCurrency manual = true
      · rw [reportGap_of_allRial stored allRial]
        exact checkRaw_ok accepted raw
      · exact reportGap_of_rial stored accepted (Bool.eq_false_iff.mpr raw)
  · obtain ⟨raw, someForeign⟩ := not_or.mp judged
    have raw : checkRaw items voucherCurrency manual = true := by simpa using raw
    split at within
    · rename_i rate one
      obtain rfl := Option.some.inj within
      push_neg at someForeign
      obtain ⟨foreign, mem, notRial⟩ := someForeign
      have bound := reportGap_of_foreign stored
        (fun item mem' => sameCurrency_of_checkRaw raw mem' mem ▸ notRial)
        (fun item mem' => List.mem_singleton.mp (one ▸ List.mem_dedup.mpr (List.mem_map_of_mem mem')))
      have scaled := mul_le_mul_of_nonneg_left (checkRaw_ok accepted raw) (abs_nonneg rate)
      linarith
    · cases within

end Reports

/-- A voucher that was accepted and is stored as it was judged. -/
structure AcceptedVoucher where
  items : List VoucherRowAmounts
  voucherCurrency : Option String
  manual : Bool
  totals : VoucherRowTotals
  accepted : assertVoucherRowsBalanced items voucherCurrency manual = .ok totals
  stored : ∀ item ∈ items, StoredAsJudged voucherCurrency item

/-- Over any set of accepted vouchers, the rial trial balance is balanced within the sum of
what each of them may be off. -/
theorem trial_balance_within_slack (vouchers : List AcceptedVoucher) (slacks : List ℚ)
    (within : vouchers.mapM (fun v => reportSlack v.items v.voucherCurrency v.manual) = some slacks) :
    |(vouchers.map fun v => reportGap v.items v.voucherCurrency).sum| ≤ slacks.sum := by
  induction vouchers generalizing slacks with
  | nil =>
      cases within
      simp
  | cons v vouchers ih =>
      rw [List.mapM_cons] at within
      obtain ⟨slack, first, rest⟩ := Option.bind_eq_some_iff.mp within
      obtain ⟨others, later, eq⟩ := Option.bind_eq_some_iff.mp rest
      cases eq
      have head := abs_le.mp (abs_reportGap_le v.stored v.accepted first)
      have tail := abs_le.mp (ih others later)
      simp only [List.map_cons, List.sum_cons, abs_le]
      constructor <;> linarith [head.1, head.2, tail.1, tail.2]

/-- A dollar voucher and a voucher in dollars and rial. -/
theorem trial_balance_within_slack_of_two :
    let dollars : List VoucherRowAmounts := [⟨1 / 2, 0, some "USD", some 3⟩, ⟨1 / 2, 0, some "usd", some 3⟩,
      ⟨0, 1, some "USD", some 3⟩]
    let mixed : List VoucherRowAmounts := [⟨2, 0, some "USD", some 600000⟩, ⟨0, 1200000, none, none⟩]
    |reportGap dollars none + reportGap mixed none| ≤ 3 * (1 / 100) + 3 + 1 / 100 := by
  intro dollars mixed
  have balanced := trial_balance_within_slack
    [⟨dollars, none, true, ⟨1, 1⟩, by decide +kernel, by decide +kernel⟩,
      ⟨mixed, none, false, ⟨2, 1200000⟩, by decide +kernel, by decide +kernel⟩]
    [3 * (1 / 100) + 3, 1 / 100] (by decide +kernel)
  simpa using balanced

/-- Half a dollar at a rate of three is two rial, twice, and a dollar is three. -/
theorem dollar_voucher_off_balance :
    let items : List VoucherRowAmounts := [⟨1 / 2, 0, some "USD", some 3⟩, ⟨1 / 2, 0, some "USD", some 3⟩,
      ⟨0, 1, some "USD", some 3⟩]
    (∀ item ∈ items, StoredAsJudged none item) ∧
      assertVoucherRowsBalanced items none true = .ok ⟨1, 1⟩ ∧
        assertVoucherRowsBalanced items none false = .ok ⟨1, 1⟩ ∧
          voucherBalanceTolerance < |reportGap items none| := by
  decide +kernel

end PapitalErp
