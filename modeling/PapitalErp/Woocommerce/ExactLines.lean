import PapitalErp.Woocommerce.FeeDiscount

/-!
# The invoice of a shop order

A line of an order becomes one row of the invoice, or two when its total does not divide by its quantity.
The VAT percent is recovered from the order's tax, the negative fees are spread over the rows, and the
invoice is made when it comes to what was paid.

The amounts of the order come as the numbers that are read from its texts, and its lines as those whose item
was found. The documents store a row's amounts as they are here.
-/

namespace PapitalErp.ExactLines

open Rounding
open FeeDiscount (allocateFeeDiscount)

/-! ## The rows of a line -/

/-- A row that `exactLineSplit` returns. -/
structure SplitRow where
  quantity : ℚ
  unitPrice : ℚ
  deriving DecidableEq

def exactLineSplit (total quantity : ℚ) (scale : ℕ) : List SplitRow :=
  let exact := FinancialDecimal.divide total quantity 12
  if FinancialDecimal.round exact scale = exact then [⟨quantity, FinancialDecimal.round exact scale⟩]
  else if quantity.den ≠ 1 ∨ quantity < 2 then [⟨quantity, FinancialDecimal.round exact 4⟩]
  else
    let step := FinancialDecimal.divide 1 (10 ^ scale) scale
    let rounded := FinancialDecimal.round exact scale
    let unit := if total < rounded * quantity then rounded - step else rounded
    let last := total - unit * (quantity - 1)
    [⟨quantity - 1, unit⟩, ⟨1, last⟩]

def SplitRow.amount (row : SplitRow) : ℚ := row.quantity * row.unitPrice

/-- The rows of a line: whole units, its quantity in all, prices of the currency, and the total exactly. -/
structure SplitOf (total quantity : ℚ) (scale : ℕ) (rows : List SplitRow) : Prop where
  whole : ∀ row ∈ rows, ∃ n : ℕ, row.quantity = n
  quantities : (rows.map SplitRow.quantity).sum = quantity
  prices : ∀ row ∈ rows, 0 ≤ row.unitPrice ∧ AtScale scale row.unitPrice
  total : (rows.map SplitRow.amount).sum = total

section Split

variable {total : ℚ} {quantity scale : ℕ}

theorem atScale_mul_natCast {x : ℚ} (h : AtScale scale x) (n : ℕ) : AtScale scale (x * n) := by
  obtain ⟨k, rfl⟩ := h
  refine ⟨k * n, ?_⟩
  push_cast
  ring

/-- The unit price of a line that does not divide is the quotient rounded down. -/
theorem unit_eq (positive : 1 ≤ quantity) (finer : scale ≤ 12) :
    (if total < FinancialDecimal.round (FinancialDecimal.divide total quantity 12) scale * quantity then
        FinancialDecimal.round (FinancialDecimal.divide total quantity 12) scale -
          FinancialDecimal.divide 1 (10 ^ scale) scale
      else FinancialDecimal.round (FinancialDecimal.divide total quantity 12) scale) =
      roundDown scale (total / quantity) := by
  have pos : (0 : ℚ) < quantity := by exact_mod_cast positive
  have step : FinancialDecimal.divide 1 (10 ^ scale) scale = 1 / 10 ^ scale :=
    roundHalfUp_of_atScale ⟨1, by norm_num⟩
  have twice := roundDown_of_twice finer (total / quantity)
  simp only [div_lt_iff₀ pos] at twice
  rw [step]
  exact twice

theorem roundDown_nonneg {x : ℚ} (h : 0 ≤ x) : 0 ≤ roundDown scale x := by
  have unit : (0 : ℚ) < 10 ^ scale := by positivity
  have whole : (0 : ℤ) ≤ ⌊x * 10 ^ scale⌋ := Int.floor_nonneg.mpr (mul_nonneg h unit.le)
  exact div_nonneg (by exact_mod_cast whole) unit.le

/-- All units but one at the price rounded down, and the last one at what is left. -/
theorem splitOf_two (nonneg : 0 ≤ total) (grid : AtScale scale total) (two : 2 ≤ quantity) :
    SplitOf total quantity scale [⟨quantity - 1, roundDown scale (total / quantity)⟩,
      ⟨1, total - roundDown scale (total / quantity) * (quantity - 1)⟩] := by
  have pos : (0 : ℚ) < quantity := by exact_mod_cast (show 0 < quantity by omega)
  have others : ((quantity - 1 : ℕ) : ℚ) = quantity - 1 := by
    rw [Nat.cast_sub (by omega), Nat.cast_one]
  set unit := roundDown scale (total / quantity) with unitOf
  have unitNonneg : 0 ≤ unit := roundDown_nonneg (div_nonneg nonneg pos.le)
  have unitGrid : AtScale scale unit := ⟨_, rfl⟩
  have least : unit * quantity ≤ total := (le_div_iff₀ pos).mp (roundDown_le scale _)
  refine ⟨fun row mem => ?_, by simp, fun row mem => ?_, ?_⟩
  · obtain rfl | rfl : row = _ ∨ row = _ := by simpa using mem
    · exact ⟨quantity - 1, others.symm⟩
    · exact ⟨1, Nat.cast_one.symm⟩
  · obtain rfl | rfl : row = _ ∨ row = _ := by simpa using mem
    · exact ⟨unitNonneg, unitGrid⟩
    · refine ⟨?_, grid.sub ?_⟩
      · dsimp only
        linarith
      · rw [← others]
        exact atScale_mul_natCast unitGrid _
  · simp only [List.map_cons, List.map_nil, List.sum_cons, List.sum_nil, SplitRow.amount]
    ring

/-- A total of the currency is split exactly, unless its quotient only becomes a price of the currency by the
rounding to twelve decimals. -/
theorem exactLineSplit_splitOf (nonneg : 0 ≤ total) (grid : AtScale scale total) (positive : 1 ≤ quantity)
    (exact : AtScale scale (FinancialDecimal.divide total quantity 12) →
      FinancialDecimal.divide total quantity 12 = total / quantity) :
    SplitOf total quantity scale (exactLineSplit total quantity scale) := by
  have pos : (0 : ℚ) < quantity := by exact_mod_cast positive
  by_cases onGrid : AtScale scale (FinancialDecimal.divide total quantity 12)
  · have same : FinancialDecimal.round (FinancialDecimal.divide total quantity 12) scale = _ :=
      roundHalfUp_of_atScale onGrid
    rw [exactLineSplit, if_pos same, same, exact onGrid]
    refine ⟨fun row mem => ?_, List.sum_singleton, fun row mem => ?_, ?_⟩
    · rw [List.mem_singleton.mp mem]
      exact ⟨quantity, rfl⟩
    · rw [List.mem_singleton.mp mem]
      exact ⟨div_nonneg nonneg pos.le, exact onGrid ▸ onGrid⟩
    · rw [List.map_singleton, List.sum_singleton, SplitRow.amount, mul_div_cancel₀ _ pos.ne']
  · have other : FinancialDecimal.round (FinancialDecimal.divide total quantity 12) scale ≠
        FinancialDecimal.divide total quantity 12 := fun h => onGrid (h ▸ atScale_roundHalfUp scale _)
    have finer : scale ≤ 12 := by
      by_contra coarser
      exact onGrid ((atScale_roundHalfUp 12 _).mono (by omega))
    -- a single unit divides
    have two : 2 ≤ quantity := by
      by_contra one
      obtain rfl : quantity = 1 := by omega
      refine onGrid ?_
      rw [FinancialDecimal.divide, Nat.cast_one, div_one, roundHalfUp_of_atScale (grid.mono finer)]
      exact grid
    have several : ¬((quantity : ℚ).den ≠ 1 ∨ (quantity : ℚ) < 2) := by
      have few : ¬(quantity : ℚ) < 2 := not_lt.mpr (by exact_mod_cast two)
      simpa using few
    rw [exactLineSplit, if_neg other, if_neg several]
    dsimp only
    rw [unit_eq positive finer]
    exact splitOf_two nonneg grid two

/-- Few units are split exactly: the rounding to twelve decimals makes no price of the currency. -/
theorem few_units_split (nonneg : 0 ≤ total) (grid : AtScale scale total) (positive : 1 ≤ quantity)
    (few : (quantity : ℚ) * 10 ^ scale < 2 * 10 ^ 12) :
    SplitOf total quantity scale (exactLineSplit total quantity scale) := by
  refine exactLineSplit_splitOf nonneg grid positive fun onGrid => ?_
  have pos : (0 : ℚ) < quantity := by exact_mod_cast positive
  have unit : (0 : ℚ) < 10 ^ scale := by positivity
  have near := abs_roundHalfUp_sub_le 12 (total / quantity)
  obtain ⟨j, price⟩ := onGrid
  obtain ⟨t, rfl⟩ := grid
  have parts : (j : ℚ) / 10 ^ scale - t / 10 ^ scale / quantity = (j * quantity - t : ℤ) / (10 ^ scale * quantity) := by
    push_cast
    field_simp
  rw [FinancialDecimal.divide] at price
  rw [price, parts, abs_div, abs_of_pos (mul_pos unit pos), div_le_iff₀ (mul_pos unit pos), halfUnit] at near
  have small : |((j * quantity - t : ℤ) : ℚ)| < 1 := by
    refine near.trans_lt ?_
    rw [div_mul_eq_mul_div, div_lt_one (by positivity)]
    linarith
  have none : j * quantity - t = 0 := Int.abs_lt_one_iff.mp (by exact_mod_cast small)
  rw [none, Int.cast_zero, zero_div, sub_eq_zero] at parts
  exact price.trans parts

/-- Two units at 33 and one at 34. -/
theorem few_units_split_three : SplitOf 100 (3 : ℕ) 0 (exactLineSplit 100 (3 : ℕ) 0) :=
  few_units_split (by norm_num) (AtScale.natCast 0 100) (by norm_num) (by norm_num)

end Split

/-! ## The percent of the tax -/

/-- `percentVatOf` -/
def percentVatOf (net vatPercent : ℚ) (currency : String) : ℚ :=
  if 0 < vatPercent then
    FinancialDecimal.round (FinancialDecimal.divide (net * vatPercent) 100 12) (currencyScale currency)
  else 0

def wooOrderVatPercent (lines : List DocumentLine) (tax : ℚ) (currency : String) : Option ℚ :=
  let net := (vatBaseOf lines).net
  if net ≤ 0 ∨ tax ≤ 0 then none
  else
    let percent := FinancialDecimal.round (FinancialDecimal.divide (tax * 100) net 12) 2
    if percent ≤ 0 ∨ 100 < percent then none
    else
      let rebuilt := percentVatOf net percent currency
      if rebuilt = FinancialDecimal.round tax 4 then some percent else none

theorem wooOrderVatPercent_rebuilds {lines : List DocumentLine} {tax percent : ℚ} {currency : String}
    (found : wooOrderVatPercent lines tax currency = some percent) :
    percentVatOf (vatBaseOf lines).net percent currency = FinancialDecimal.round tax 4 := by
  rw [wooOrderVatPercent] at found
  dsimp only at found
  split_ifs at found with empty outside rebuilt
  cases found
  exact rebuilt

/-! ## The order -/

structure ShopLine where
  itemId : ItemId
  quantity : ℚ
  total : Option ℚ
  price : Option ℚ

structure ShopOrder where
  lineItems : List ShopLine
  shippingLines : Option (List ℚ)
  shippingTotal : ℚ
  feeLines : List ℚ
  totalTax : ℚ
  /-- what was paid -/
  total : Option ℚ

structure OrderCharges where
  shipping : ℚ
  fees : ℚ
  feeDiscount : ℚ
  tax : ℚ

def orderCharges (order : ShopOrder) : OrderCharges where
  shipping := (order.shippingLines.map List.sum).getD order.shippingTotal
  fees := (order.feeLines.filter (0 < ·)).sum
  feeDiscount := -(order.feeLines.filter (· < 0)).sum
  tax := order.totalTax

inductive OrderProblem where
  | invalidQuantity (quantity : ℚ)
  | invalidPrice
  | feeDiscountTooLarge (feeDiscount : ℚ)
  | serviceChargeNegative (serviceCharge : ℚ)
  | vatNegative (orderVat : ℚ)
  deriving DecidableEq

inductive OrderFailure where
  | totalDiffers (orderTotal paid : ℚ)
  | problems (problems : List OrderProblem)
  deriving DecidableEq

def ShopLine.rawPrice (line : ShopLine) : Option ℚ :=
  match line.total with
  | some total => if 0 < line.quantity then some (total / line.quantity) else none
  | none => line.price

def ShopLine.problem (line : ShopLine) : Option OrderProblem :=
  if line.quantity ≤ 0 then some (.invalidQuantity line.quantity)
  else if ∀ price ∈ line.rawPrice, price < 0 then some .invalidPrice
  else none

section Invoice

variable (multiplier : ℚ) (currency : String)

/-- The rows of a line without a problem. -/
def ShopLine.parts (line : ShopLine) : List SplitRow :=
  match line.total with
  | some total => exactLineSplit (total * multiplier) line.quantity (currencyScale currency)
  | none => [⟨line.quantity, FinancialDecimal.round (line.price.getD 0 * multiplier) 4⟩]

def ShopLine.docLines (line : ShopLine) : List DocumentLine :=
  (line.parts multiplier currency).map fun part => ⟨line.itemId, part.quantity, part.unitPrice, 0⟩

structure ShopInvoice where
  items : List DocumentLine
  vatAmount : ℚ
  vatPercent : Option ℚ
  serviceChargeAmount : ℚ

/-- `payable` of `computeInvoiceTotals` -/
def ShopInvoice.payable (invoice : ShopInvoice) : ℚ :=
  (vatBaseOf invoice.items).net + invoice.vatAmount + invoice.serviceChargeAmount

def orderInvoice (order : ShopOrder) : Except OrderFailure ShopInvoice :=
  let lineProblems := order.lineItems.filterMap ShopLine.problem
  let docLines := (order.lineItems.filter fun line => line.problem = none).flatMap (ShopLine.docLines multiplier currency)
  let charges := orderCharges order
  let serviceCharge := FinancialDecimal.round ((charges.shipping + charges.fees) * multiplier) 4
  let orderVat := FinancialDecimal.round (charges.tax * multiplier) 4
  let feeDiscount := FinancialDecimal.round (charges.feeDiscount * multiplier) 4
  let amounts := docLines.map fun line => line.quantity * line.unitPrice
  let discounting := 0 < feeDiscount ∧ lineProblems = []
  let shares :=
    if discounting then allocateFeeDiscount amounts feeDiscount (currencyScale currency)
    else some (docLines.map fun _ => 0)
  let problems := lineProblems ++ (if shares = none then [.feeDiscountTooLarge feeDiscount] else []) ++
    (if serviceCharge < 0 then [.serviceChargeNegative serviceCharge] else []) ++
    (if orderVat < 0 then [.vatNegative orderVat] else [])
  let discounted := if discounting ∧ shares ≠ none then amounts.sum - feeDiscount else amounts.sum
  let orderTotal := discounted + serviceCharge + orderVat
  let differs := order.total.filter fun paid => 1 / 100 * multiplier < |orderTotal - paid * multiplier|
  match problems, differs, shares with
  | [], some paid, _ => .error (.totalDiffers orderTotal (paid * multiplier))
  | [], none, some shares =>
      let items := docLines.zipWith (fun line share => { line with discount := share }) shares
      .ok ⟨items, orderVat, wooOrderVatPercent items orderVat currency, serviceCharge⟩
  | problems, _, _ => .error (.problems problems)

end Invoice

/-! ## The invoice comes to what was paid -/

section Paid

variable {multiplier : ℚ} {currency : String} {order : ShopOrder}

def lineAmount (line : DocumentLine) : ℚ := line.quantity * line.unitPrice

/-- A line whose total is an amount of the currency, in whole units. -/
structure ShopLine.OnGrid (multiplier : ℚ) (currency : String) (line : ShopLine) (total : ℚ) : Prop where
  sent : line.total = some total
  whole : ∃ n : ℕ, line.quantity = n
  grid : AtScale (currencyScale currency) (total * multiplier)
  exact : AtScale (currencyScale currency) (FinancialDecimal.divide (total * multiplier) line.quantity 12) →
    FinancialDecimal.divide (total * multiplier) line.quantity 12 = total * multiplier / line.quantity

/-- An order whose amounts are those of its currency. -/
structure ShopOrder.OnGrid (multiplier : ℚ) (currency : String) (order : ShopOrder) : Prop where
  lines : ∀ line ∈ order.lineItems, ∃ total, line.OnGrid multiplier currency total
  array : (order.lineItems.flatMap (ShopLine.docLines multiplier currency)).length < 2 ^ 32
  feeDiscount : AtScale (currencyScale currency) ((orderCharges order).feeDiscount * multiplier)
  service : AtScale 4 (((orderCharges order).shipping + (orderCharges order).fees) * multiplier)
  tax : AtScale 4 ((orderCharges order).tax * multiplier)

theorem ShopLine.sold {line : ShopLine} {total : ℚ} (sent : line.total = some total) (fine : line.problem = none) :
    0 < line.quantity ∧ 0 ≤ total := by
  have few : 0 < line.quantity := by
    by_contra few
    rw [ShopLine.problem, if_pos (not_lt.mp few)] at fine
    cases fine
  have price : line.rawPrice = some (total / line.quantity) := by
    rw [ShopLine.rawPrice, sent]
    exact if_pos few
  refine ⟨few, ?_⟩
  by_contra below
  have negative : ∀ price ∈ line.rawPrice, price < 0 := by
    rw [price]
    rintro _ ⟨⟩
    exact div_neg_of_neg_of_pos (not_le.mp below) few
  rw [ShopLine.problem, if_neg (not_le.mpr few), if_pos negative] at fine
  cases fine

theorem ShopLine.OnGrid.splitOf {line : ShopLine} {total : ℚ} (grid : line.OnGrid multiplier currency total)
    (positive : 0 ≤ multiplier) (fine : line.problem = none) :
    SplitOf (total * multiplier) line.quantity (currencyScale currency) (line.parts multiplier currency) := by
  obtain ⟨sent, ⟨n, whole⟩, onGrid, exact⟩ := grid
  obtain ⟨few, nonneg⟩ := ShopLine.sold sent fine
  rw [ShopLine.parts, sent]
  rw [whole] at exact few ⊢
  exact exactLineSplit_splitOf (mul_nonneg nonneg positive) onGrid (by exact_mod_cast few) exact

theorem docLines_amounts {line : ShopLine} {total : ℚ} (grid : line.OnGrid multiplier currency total)
    (positive : 0 ≤ multiplier) (fine : line.problem = none) :
    ((line.docLines multiplier currency).map lineAmount).sum = total * multiplier ∧
      ∀ a ∈ (line.docLines multiplier currency).map lineAmount, 0 ≤ a ∧ AtScale (currencyScale currency) a := by
  obtain ⟨whole, -, prices, sum⟩ := grid.splitOf positive fine
  have amounts : (line.docLines multiplier currency).map lineAmount =
      (line.parts multiplier currency).map SplitRow.amount := List.map_map
  rw [amounts]
  refine ⟨sum, fun a mem => ?_⟩
  obtain ⟨row, inside, rfl⟩ := List.mem_map.mp mem
  obtain ⟨n, quantity⟩ := whole row inside
  obtain ⟨nonneg, onGrid⟩ := prices row inside
  rw [SplitRow.amount, quantity, mul_comm]
  exact ⟨mul_nonneg nonneg n.cast_nonneg, atScale_mul_natCast onGrid n⟩

/-- The lines of an order make its rows amounts of the currency that sum up to theirs. -/
theorem flatMap_amounts {lines : List ShopLine} (positive : 0 ≤ multiplier)
    (grid : ∀ line ∈ lines, ∃ total, line.OnGrid multiplier currency total) (fine : ∀ line ∈ lines, line.problem = none) :
    ((lines.flatMap (ShopLine.docLines multiplier currency)).map lineAmount).sum =
        (lines.map fun line => line.total.getD 0).sum * multiplier ∧
      ∀ a ∈ (lines.flatMap (ShopLine.docLines multiplier currency)).map lineAmount,
        0 ≤ a ∧ AtScale (currencyScale currency) a := by
  induction lines with
  | nil => simp
  | cons line lines ih =>
      obtain ⟨total, onGrid⟩ := grid line List.mem_cons_self
      obtain ⟨sum, each⟩ := docLines_amounts onGrid positive (fine line List.mem_cons_self)
      obtain ⟨sums, others⟩ := ih (fun l mem => grid l (List.mem_cons_of_mem line mem))
        fun l mem => fine l (List.mem_cons_of_mem line mem)
      have sent : line.total.getD 0 = total := by rw [onGrid.sent, Option.getD_some]
      rw [List.flatMap_cons, List.map_append, List.sum_append, sum, sums, List.map_cons, List.sum_cons, sent, add_mul]
      refine ⟨rfl, fun a mem => ?_⟩
      obtain mem | mem := List.mem_append.mp mem
      · exact each a mem
      · exact others a mem

/-- The rows with their shares of the discount. -/
theorem discounted_rows {lines : List DocumentLine} {shares : List ℚ} (length : shares.length = lines.length) :
    (lines.zipWith (fun line share => { line with discount := share }) shares).map lineAmount = lines.map lineAmount ∧
      (lines.zipWith (fun line share => { line with discount := share }) shares).map DocumentLine.discount = shares := by
  induction lines generalizing shares with
  | nil => exact ⟨rfl, (List.length_eq_zero_iff.mp length).symm⟩
  | cons line lines ih =>
      cases shares with
      | nil => exact absurd length (by simp)
      | cons share shares =>
          obtain ⟨amounts, discounts⟩ := ih (Nat.succ_injective length)
          rw [List.zipWith_cons_cons, List.map_cons, List.map_cons, List.map_cons, amounts, discounts]
          exact ⟨rfl, rfl⟩

theorem vatBaseOf_net {lines : List DocumentLine} {gross discount : ℚ} (amounts : (lines.map lineAmount).sum = gross)
    (discounts : (lines.map DocumentLine.discount).sum = discount) (grid : AtScale 4 gross) (grid' : AtScale 4 discount)
    (fits : discount ≤ gross) : (vatBaseOf lines).net = gross - discount := by
  have rounded : FinancialDecimal.round (lines.map fun l => l.quantity * l.unitPrice).sum 4 = gross :=
    (congrArg _ amounts).trans (roundHalfUp_of_atScale grid)
  rw [vatBaseOf]
  dsimp only
  rw [rounded, discounts]
  have whole : FinancialDecimal.round discount 4 = discount := roundHalfUp_of_atScale grid'
  rw [whole, if_neg (not_lt.mpr (sub_nonneg.mpr fits))]
  exact roundHalfUp_of_atScale (grid.sub grid')

theorem lines_fine {lines : List ShopLine} (fine : lines.filterMap ShopLine.problem = []) :
    (∀ line ∈ lines, line.problem = none) ∧ lines.filter (fun line => line.problem = none) = lines := by
  have each : ∀ line ∈ lines, line.problem = none := List.filterMap_eq_nil_iff.mp fine
  exact ⟨each, List.filter_eq_self.mpr fun line mem => decide_eq_true (each line mem)⟩

/-- The rows with the shares of the discount: their net is what the rows come to without it. -/
theorem net_of_shares {docLines : List DocumentLine} {feeDiscount : ℚ} {shares : List ℚ}
    (array : docLines.length < 2 ^ 32) (nonneg : 0 ≤ feeDiscount)
    (amounts : ∀ a ∈ docLines.map lineAmount, 0 ≤ a ∧ AtScale (currencyScale currency) a)
    (grid : AtScale (currencyScale currency) feeDiscount)
    (spread : (if 0 < feeDiscount then allocateFeeDiscount (docLines.map lineAmount) feeDiscount (currencyScale currency)
      else some (docLines.map fun _ => 0)) = some shares) :
    (vatBaseOf (docLines.zipWith (fun line share => { line with discount := share }) shares)).net =
      (docLines.map lineAmount).sum - feeDiscount := by
  have fine : currencyScale currency ≤ 4 := (currencyScale_le currency).trans (by norm_num)
  have whole : AtScale 4 (docLines.map lineAmount).sum := (AtScale.sum fun a mem => (amounts a mem).2).mono fine
  have summed : 0 ≤ (docLines.map lineAmount).sum := List.sum_nonneg fun a mem => (amounts a mem).1
  obtain ⟨length, total, fits⟩ : shares.length = docLines.length ∧ shares.sum = feeDiscount ∧
      feeDiscount ≤ (docLines.map lineAmount).sum := by
    split_ifs at spread with positive
    · have fits : feeDiscount ≤ (docLines.map lineAmount).sum := by
        by_contra more
        rw [allocateFeeDiscount, if_pos (not_le.mp more)] at spread
        cases spread
      obtain ⟨made, found, within, total⟩ := FeeDiscount.allocateFeeDiscount_spread
        ⟨docLines.map lineAmount, (List.length_map _).trans_lt array, amounts⟩ grid positive fits
      rw [found] at spread
      cases spread
      exact ⟨within.length_eq.trans (List.length_map _), total, fits⟩
    · cases spread
      have none : feeDiscount = 0 := le_antisymm (not_lt.mp positive) nonneg
      subst none
      exact ⟨List.length_map _, by simp, summed⟩
  obtain ⟨sums, discounts⟩ := discounted_rows length
  exact vatBaseOf_net (by rw [sums]) (by rw [discounts, total]) whole (grid.mono fine) fits

/-- An invoice of an order comes to what the shop's amounts add up to, at most a hundredth of its unit from
what was paid; the percent that it has makes its VAT. -/
theorem orderInvoice_payable (positive : 0 ≤ multiplier) (grid : order.OnGrid multiplier currency) {invoice : ShopInvoice}
    (made : orderInvoice multiplier currency order = .ok invoice) :
    invoice.payable = ((order.lineItems.map fun line => line.total.getD 0).sum - (orderCharges order).feeDiscount +
        ((orderCharges order).shipping + (orderCharges order).fees) + (orderCharges order).tax) * multiplier ∧
      (∀ paid ∈ order.total, |invoice.payable - paid * multiplier| ≤ 1 / 100 * multiplier) ∧
      ∀ percent ∈ invoice.vatPercent,
        percentVatOf (vatBaseOf invoice.items).net percent currency = invoice.vatAmount := by
  obtain ⟨lines, array, feeDiscount, service, tax⟩ := grid
  have fine : currencyScale currency ≤ 4 := (currencyScale_le currency).trans (by norm_num)
  have serviceWhole : FinancialDecimal.round (((orderCharges order).shipping + (orderCharges order).fees) * multiplier) 4 =
      _ := roundHalfUp_of_atScale service
  have taxWhole : FinancialDecimal.round ((orderCharges order).tax * multiplier) 4 = _ := roundHalfUp_of_atScale tax
  have discountWhole : FinancialDecimal.round ((orderCharges order).feeDiscount * multiplier) 4 = _ :=
    roundHalfUp_of_atScale (feeDiscount.mono fine)
  have discountNonneg : 0 ≤ (orderCharges order).feeDiscount * multiplier := by
    have negative : (order.feeLines.filter (· < 0)).sum ≤ 0 := by
      have bound := List.sum_le_card_nsmul (order.feeLines.filter (· < 0)) 0 fun fee mem =>
        (of_decide_eq_true (List.mem_filter.mp mem).2).le
      rwa [smul_zero] at bound
    exact mul_nonneg (neg_nonneg.mpr negative) positive
  rw [orderInvoice, serviceWhole, taxWhole, discountWhole] at made
  dsimp only at made
  split at made
  · cases made
  · rename_i problems differs spread
    cases made
    simp only [List.append_eq_nil_iff] at problems
    have noProblems := problems.1.1.1
    obtain ⟨each, all⟩ := lines_fine noProblems
    obtain ⟨sums, amounts⟩ := flatMap_amounts positive lines each
    simp only [noProblems, all, and_true] at spread differs ⊢
    have net := net_of_shares array discountNonneg amounts feeDiscount spread
    have discounted : (if 0 < (orderCharges order).feeDiscount * multiplier then
        ((order.lineItems.flatMap (ShopLine.docLines multiplier currency)).map fun line =>
          line.quantity * line.unitPrice).sum - (orderCharges order).feeDiscount * multiplier
      else ((order.lineItems.flatMap (ShopLine.docLines multiplier currency)).map fun line =>
        line.quantity * line.unitPrice).sum) =
        ((order.lineItems.flatMap (ShopLine.docLines multiplier currency)).map lineAmount).sum -
          (orderCharges order).feeDiscount * multiplier := by
      split_ifs with reduced
      · rfl
      · rw [le_antisymm (not_lt.mp reduced) discountNonneg, sub_zero]
        rfl
    have payable : ((order.lineItems.map fun line => line.total.getD 0).sum - (orderCharges order).feeDiscount +
        ((orderCharges order).shipping + (orderCharges order).fees) + (orderCharges order).tax) * multiplier =
          ((order.lineItems.flatMap (ShopLine.docLines multiplier currency)).map lineAmount).sum -
            (orderCharges order).feeDiscount * multiplier + (orderCharges order).tax * multiplier +
            ((orderCharges order).shipping + (orderCharges order).fees) * multiplier := by
      rw [sums]
      ring
    refine ⟨?_, fun paid sent => ?_, fun percent found => ?_⟩
    · rw [payable, ShopInvoice.payable]
      dsimp only
      rw [net]
    · have kept := Option.filter_eq_none_iff.mp differs paid sent
      rw [spread] at kept
      simp only [ne_eq, reduceCtorEq, not_false_eq_true, and_true, decide_eq_true_eq, not_lt] at kept
      rw [discounted] at kept
      rw [ShopInvoice.payable]
      dsimp only
      rwa [net, add_right_comm]
    · exact (wooOrderVatPercent_rebuilds found).trans taxWhole
  · cases made

end Paid

/-- Lines are split into their totals exactly, a percent makes the tax that it was found from, and an invoice
on the amounts of the currency comes to what the shop's amounts add up to, within a hundredth of what was paid. -/
theorem order_invoiced_exactly :
    (∀ (total : ℚ) (quantity scale : ℕ), 0 ≤ total → AtScale scale total → 1 ≤ quantity →
      (AtScale scale (FinancialDecimal.divide total quantity 12) →
        FinancialDecimal.divide total quantity 12 = total / quantity) →
      SplitOf total quantity scale (exactLineSplit total quantity scale)) ∧
    (∀ (lines : List DocumentLine) (tax percent : ℚ) (currency : String),
      wooOrderVatPercent lines tax currency = some percent →
        percentVatOf (vatBaseOf lines).net percent currency = FinancialDecimal.round tax 4) ∧
    ∀ (multiplier : ℚ) (currency : String) (order : ShopOrder) (invoice : ShopInvoice), 0 ≤ multiplier →
      order.OnGrid multiplier currency → orderInvoice multiplier currency order = .ok invoice →
        invoice.payable = ((order.lineItems.map fun line => line.total.getD 0).sum - (orderCharges order).feeDiscount +
          ((orderCharges order).shipping + (orderCharges order).fees) + (orderCharges order).tax) * multiplier ∧
        (∀ paid ∈ order.total, |invoice.payable - paid * multiplier| ≤ 1 / 100 * multiplier) ∧
        ∀ percent ∈ invoice.vatPercent,
          percentVatOf (vatBaseOf invoice.items).net percent currency = invoice.vatAmount :=
  ⟨fun _ _ _ nonneg grid positive exact => exactLineSplit_splitOf nonneg grid positive exact,
    fun _ _ _ _ found => wooOrderVatPercent_rebuilds found,
    fun _ _ _ _ positive grid made => orderInvoice_payable positive grid made⟩

/-- An order of one item, of which a hundredth more was paid than its line comes to. -/
def overpaid : ShopOrder where
  lineItems := [⟨1, 1, some 100, none⟩]
  shippingLines := none
  shippingTotal := 0
  feeLines := []
  totalTax := 0
  total := some (10001 / 100)

/-- A negative total has negative prices, a tax with five decimals is not made again, and an invoice is made
although it does not come to what was paid. -/
theorem order_not_exact :
    (exactLineSplit (-3) 2 0).map SplitRow.unitPrice = [-2, -1] ∧
      (wooOrderVatPercent [⟨1, 1, 100, 0⟩] (900001 / 100000) "IRR" = some 9 ∧
        percentVatOf 100 9 "IRR" ≠ 900001 / 100000) ∧
      (orderInvoice 1 "IRR" overpaid).toOption.map ShopInvoice.payable = some 100 ∧ overpaid.total = some (10001 / 100) := by
  decide +kernel

end PapitalErp.ExactLines
