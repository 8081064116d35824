import PapitalErp.Accounting.VoucherBalance
import PapitalErp.FinancialDecimal
import PapitalErp.Lib.Transition

/-!
# What a project's production receipt takes from work in progress

`planDeliveryCost`, the pricing of a delivery under the project lock and the
credit rows of the receipt's voucher. The two accounts of those rows are of
different types (an asset, a profit and loss account), so they are two accounts.
The texts of the rows and their details are left out: nothing reads them back.
-/

namespace PapitalErp.ProjectWip

open Transition

/-- Decimals of a unit cost. -/
def deliveryCostScale : ℕ := 4

inductive DeliveryCostRule where
  | share
  | complete
  | entered
  | noWip
  deriving DecidableEq

inductive DeliveryCostReasonKind where
  | costChanged
  | overdraw
  | noWip
  deriving DecidableEq

structure DeliveryPlanProduct where
  itemId : ℕ
  plannedQty : ℚ
  deliveredQty : ℚ
  deriving DecidableEq

structure DeliveryPlanLine where
  itemId : ℕ
  quantity : ℚ
  typedUnitCost : Option ℚ
  weightedAverageCost : ℚ
  deriving DecidableEq

structure DeliveryCostPlan where
  rule : DeliveryCostRule
  multiProduct : Bool
  completesPlan : Bool
  wipBalance : ℚ
  wipCredit : ℚ
  unitCosts : List ℚ
  changedLines : List ℕ
  reasonNeeded : Option DeliveryCostReasonKind
  deriving DecidableEq

def positiveOrNull (value : Option ℚ) : Option ℚ := value.filter fun v => 0 < v

def nonNegative (value : ℚ) : ℚ := (positiveOrNull (some value)).getD 0

/-- The typed cost of a line, else its product's weighted average cost. -/
def baseCostOf (line : DeliveryPlanLine) : ℚ :=
  FinancialDecimal.round
    ((positiveOrNull line.typedUnitCost).getD (nonNegative line.weightedAverageCost))
    deliveryCostScale

/-- What the receipt delivers of a product. -/
def delivering (lines : List DeliveryPlanLine) (itemId : ℕ) : ℚ :=
  ((lines.filter fun line => line.itemId = itemId).map fun line => nonNegative line.quantity).sum

def totalQuantity (lines : List DeliveryPlanLine) : ℚ :=
  (lines.map fun line => nonNegative line.quantity).sum

def completesPlanOf (products : List DeliveryPlanProduct) (lines : List DeliveryPlanLine) : Bool :=
  !products.isEmpty && products.all fun p =>
    nonNegative p.plannedQty ≤ nonNegative p.deliveredQty + delivering lines p.itemId

/-- The divisor of the share: what the plan still misses, or the receipt's quantity
when that is more. -/
def shareDivisor (product : DeliveryPlanProduct) (lines : List DeliveryPlanLine) : ℚ :=
  let remaining := nonNegative (product.plannedQty - nonNegative product.deliveredQty)
  if totalQuantity lines < remaining then remaining else totalQuantity lines

def shareUnit (wip divisor : ℚ) : ℚ :=
  if 0 < divisor then FinancialDecimal.divide wip divisor deliveryCostScale else 0

/-- The lines whose typed cost is not the computed one. -/
def changedLinesOf (unit : ℚ) (lines : List DeliveryPlanLine) : List ℕ :=
  (lines.zipIdx.filter fun line =>
    (positiveOrNull line.1.typedUnitCost).any fun typed =>
      FinancialDecimal.round typed deliveryCostScale ≠ unit).map Prod.snd

/-- The unit costs of the receipt that completes a plan of several products. -/
def completingCosts (wip : ℚ) (lines : List DeliveryPlanLine) : List ℚ :=
  let valueOf (line : DeliveryPlanLine) := nonNegative line.quantity * baseCostOf line
  let allValued := lines.all fun line => 0 < valueOf line || !decide (0 < nonNegative line.quantity)
  -- a line without any cost has no weight of its own, so all are weighed by quantity
  let weightOf (line : DeliveryPlanLine) :=
    if allValued then valueOf line else nonNegative line.quantity
  let totalWeight := (lines.map weightOf).sum
  lines.map fun line =>
    if 0 < nonNegative line.quantity ∧ 0 < totalWeight then
      FinancialDecimal.divide (wip * weightOf line)
        (totalWeight * nonNegative line.quantity) deliveryCostScale
    else 0

/-- `planDeliveryCost`. -/
def planDeliveryCost (wipBalance : ℚ) (products : List DeliveryPlanProduct)
    (lines : List DeliveryPlanLine) : DeliveryCostPlan :=
  let wip := FinancialDecimal.round wipBalance deliveryCostScale
  let completesPlan := completesPlanOf products lines
  let base := lines.map baseCostOf
  let plan (rule : DeliveryCostRule) (wipCredit : ℚ) (unitCosts : List ℚ)
      (reasonNeeded : Option DeliveryCostReasonKind) (changedLines : List ℕ) : DeliveryCostPlan :=
    { rule, multiProduct := products.length ≠ 1, completesPlan, wipBalance := wip,
      wipCredit := FinancialDecimal.round wipCredit deliveryCostScale, unitCosts, changedLines,
      reasonNeeded }
  if ¬0 < wip then
    plan .noWip (if completesPlan ∧ wip < 0 then wip else 0) base (some .noWip) []
  else match products with
    | [product] =>
        let unit := shareUnit wip (shareDivisor product lines)
        let changedLines := changedLinesOf unit lines
        let reason := if changedLines ≠ [] then some .costChanged else none
        if completesPlan then plan .complete wip (lines.map fun _ => unit) reason changedLines
        else plan .share ((lines.map fun line => nonNegative line.quantity * unit).sum)
          (lines.map fun _ => unit) reason changedLines
    | _ =>
        if completesPlan then plan .complete wip (completingCosts wip lines) none []
        else
          let total := FinancialDecimal.round
            ((lines.map fun line => nonNegative line.quantity * baseCostOf line).sum)
            deliveryCostScale
          let overdraws := 0 < FinancialDecimal.round (total - wip) 0
          plan .entered (if wip < total then wip else total) base
            (if overdraws then some .overdraw else none) []

/-- `postedDeliveryCosts`: with the reason a typed cost stands. -/
def postedDeliveryCosts (plan : DeliveryCostPlan) (lines : List DeliveryPlanLine)
    (withReason : Bool) : List ℚ :=
  (plan.unitCosts.zip lines).map fun line =>
    match if withReason ∧ plan.reasonNeeded.isSome then positiveOrNull line.2.typedUnitCost
      else none with
    | some typed => FinancialDecimal.round typed deliveryCostScale
    | none => line.1

/-! ## Pricing a delivery -/

structure PricedDelivery where
  unitPrices : List ℚ
  plan : DeliveryCostPlan
  reason : String

inductive DeliveryRefusal where
  /-- `PRODUCTION_COST_REASON_REQUIRED` with the kind of reason -/
  | reasonRequired (kind : DeliveryCostReasonKind)
  /-- the account of the cost difference is not in the chart -/
  | varianceAccountMissing

/-- `projectWipBalances` for one project: a balance under the tolerance is not listed,
and reads as zero. -/
def projectWipBalance (balance : ℚ) : ℚ :=
  if |balance| < voucherBalanceTolerance then 0 else balance

/-- `priceProjectDelivery`, on the balance read under the project lock. -/
def priceProjectDelivery (balance : ℚ) (products : List DeliveryPlanProduct)
    (lines : List DeliveryPlanLine) (reason : String) : Except DeliveryRefusal PricedDelivery :=
  let plan := planDeliveryCost (projectWipBalance balance) products lines
  match plan.reasonNeeded with
  | some kind =>
      if reason = "" then .error (.reasonRequired kind)
      else .ok ⟨postedDeliveryCosts plan lines true, plan, reason⟩
  | none => .ok ⟨postedDeliveryCosts plan lines false, plan, ""⟩

/-! ## The credit rows of the voucher -/

inductive ProductionAccount where
  | workInProgress
  | productionVariance
  deriving DecidableEq

structure ProductionCreditRow where
  account : ProductionAccount
  debit : ℚ
  credit : ℚ

/-- A row of `production_receipt_costs`. -/
structure ProductionReceiptCost where
  wipCredit : ℚ
  reason : String

/-- `recordProductionReceiptCost`. -/
def recordProductionReceiptCost (priced : PricedDelivery) : ProductionReceiptCost :=
  ⟨money priced.plan.wipCredit, priced.reason⟩

/-- `projectProductionCreditRows`. -/
def projectProductionCreditRows (cost : Option ProductionReceiptCost) (currency : String)
    (totalGross : ℚ) (varianceMapped strict : Bool) :
    Except DeliveryRefusal (List ProductionCreditRow) :=
  let asBefore : List ProductionCreditRow := [⟨.workInProgress, 0, totalGross⟩]
  match cost with
  | none => .ok asBefore
  | some cost =>
      if currency ≠ "IRR" then .ok asBefore
      else
        let wipCredit := FinancialDecimal.round cost.wipCredit 4
        let variance := FinancialDecimal.round (totalGross - wipCredit) 4
        if |variance| < voucherBalanceTolerance then .ok asBefore
        else if varianceMapped = false then
          if strict ∧ cost.reason ≠ "" then .error .varianceAccountMissing else .ok asBefore
        else .ok (
          (if 0 < wipCredit then [⟨.workInProgress, 0, wipCredit⟩] else []) ++
          (if wipCredit < 0 then [⟨.workInProgress, |wipCredit|, 0⟩] else []) ++
          [⟨.productionVariance, if variance < 0 then |variance| else 0,
            if 0 < variance then variance else 0⟩])

/-- What the rows credit in all. -/
def netCredit (rows : List ProductionCreditRow) : ℚ :=
  (rows.map fun row => row.credit - row.debit).sum

/-- What the rows take out of work in progress. -/
def wipCreditOf (rows : List ProductionCreditRow) : ℚ :=
  netCredit (rows.filter fun row => row.account = .workInProgress)

end PapitalErp.ProjectWip
