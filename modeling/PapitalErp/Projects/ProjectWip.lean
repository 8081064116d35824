import PapitalErp.Projects.DeliveryCostPlan

/-!
# A project's work in progress over its production receipts

The balance starts at nothing, other postings move it, and each receipt takes what
its voucher's rows credit. What a receipt computes is within the balance, except
where the unit cost of a part delivery is rounded up and multiplied by a quantity
so large that the roundings exceed what stays behind: the branch of several
products caps the sum at the balance, this one does not. The receipt that completes
the plan closes the balance up to the tolerance, but where both the balance and the
receipt are below the tolerance, since such a receipt is posted on the balance whole.
-/

namespace PapitalErp.ProjectWip

open Rounding Transition

structure Receipt where
  products : List DeliveryPlanProduct
  lines : List DeliveryPlanLine
  reason : String
  /-- what the inventory rows of its voucher debit -/
  linesValue : ℚ
  deriving DecidableEq

def Receipt.totalGross (r : Receipt) : ℚ := money r.linesValue

def Receipt.completes (r : Receipt) : Bool := completesPlanOf r.products r.lines

/-- A receipt in one transaction: its price, the record of it, the voucher's rows. -/
def deliver (balance : ℚ) (r : Receipt) (varianceMapped : Bool) :
    Except DeliveryRefusal (PricedDelivery × List ProductionCreditRow) := do
  let priced ← priceProjectDelivery balance r.products r.lines r.reason
  let rows ← projectProductionCreditRows (some (recordProductionReceiptCost priced)) "IRR"
    r.totalGross varianceMapped true
  return (priced, rows)

inductive WipOp where
  /-- any other posting on the project's work in progress -/
  | posting (amount : ℚ)
  | receipt (r : Receipt)

/-- The balance after one operation, the variance account being mapped. -/
def wipStep (balance : ℚ) : WipOp → Except DeliveryRefusal ℚ
  | .posting amount => .ok (balance + money amount)
  | .receipt r => do
      let delivered ← deliver balance r true
      return balance - money (wipCreditOf delivered.2)

/-- What is asked of an accepted receipt. -/
structure TakesItsCost (balance : ℚ) (r : Receipt) (priced : PricedDelivery)
    (rows : List ProductionCreditRow) : Prop where
  /-- the rows net to the value of the lines -/
  nets : netCredit rows = r.totalGross
  /-- the rows take the computed credit up to the tolerance -/
  follows : |wipCreditOf rows - priced.plan.wipCredit| < voucherBalanceTolerance
  /-- the receipt takes no more than is there -/
  within : 0 < balance → 0 ≤ priced.plan.wipCredit ∧ priced.plan.wipCredit ≤ balance
  /-- the receipt that completes the plan closes the balance -/
  closes : priced.plan.completesPlan = true →
    |balance - money (wipCreditOf rows)| < voucherBalanceTolerance

def ReceiptsTakeTheirCost (balance : ℚ) : WipOp → Prop
  | .posting _ => True
  | .receipt r => ∀ delivered, deliver balance r true = .ok delivered →
      TakesItsCost balance r delivered.1 delivered.2

/-- In ten-thousandths: the exact unit cost, rounded, stays below the least unit cost at
which the quantity would come to more than the balance. -/
def ShareWithin (balance divisor quantity : ℚ) : Prop :=
  quantity = 0 ∨ balance / divisor * 10 ^ 4 + 1 / 2 < ⌈(balance * 10 ^ 4 + 1 / 2) / quantity⌉

/-- A part delivery of the only product has a unit cost whose rounding the balance
bears, and a completing receipt is not under the tolerance together with the balance. -/
def RoundingsAreBorne (balance : ℚ) : WipOp → Prop
  | .posting _ => True
  | .receipt r =>
      (∀ product, r.products = [product] → r.completes = false →
        voucherBalanceTolerance ≤ balance →
          ShareWithin balance (shareDivisor product r.lines) (totalQuantity r.lines)) ∧
      (r.completes = true → |balance| < voucherBalanceTolerance →
        |r.totalGross| < voucherBalanceTolerance →
          |balance - r.totalGross| < voucherBalanceTolerance)

/-! ## The plan -/

@[simp] theorem round_deliveryCostScale (x : ℚ) :
    FinancialDecimal.round x deliveryCostScale = money x := rfl

theorem nonNegative_nonneg (x : ℚ) : 0 ≤ nonNegative x := by
  unfold nonNegative
  cases kept : positiveOrNull (some x) with
  | none => exact le_rfl
  | some v => exact (of_decide_eq_true (Option.filter_eq_some_iff.mp kept).2).le

theorem baseCostOf_nonneg (line : DeliveryPlanLine) : 0 ≤ baseCostOf line := by
  refine money_nonneg ?_
  cases typed : positiveOrNull line.typedUnitCost with
  | none => exact nonNegative_nonneg _
  | some cost => exact (of_decide_eq_true (Option.filter_eq_some_iff.mp typed).2).le

theorem totalQuantity_nonneg (lines : List DeliveryPlanLine) : 0 ≤ totalQuantity lines := by
  refine List.sum_nonneg fun x mem => ?_
  obtain ⟨line, -, rfl⟩ := List.mem_map.mp mem
  exact nonNegative_nonneg _

theorem totalQuantity_le_shareDivisor (product : DeliveryPlanProduct)
    (lines : List DeliveryPlanLine) : totalQuantity lines ≤ shareDivisor product lines := by
  unfold shareDivisor
  dsimp only
  split
  · exact le_of_lt ‹_›
  · exact le_rfl

section Plan

variable {wip : ℚ} {products : List DeliveryPlanProduct} {lines : List DeliveryPlanLine}

theorem completesPlan_planDeliveryCost :
    (planDeliveryCost wip products lines).completesPlan = completesPlanOf products lines := by
  unfold planDeliveryCost
  dsimp only
  split
  · rfl
  · split <;> split <;> rfl

/-- The receipt that completes the plan takes the whole balance. -/
theorem wipCredit_of_completes (h : completesPlanOf products lines = true)
    (scale : AtScale 4 wip) : (planDeliveryCost wip products lines).wipCredit = wip := by
  unfold planDeliveryCost
  simp only [round_deliveryCostScale, money_of_atScale scale, h, true_and, if_true]
  split
  · dsimp only
    split
    · exact money_of_atScale scale
    · have zero : wip = 0 := by linarith
      rw [zero, money_zero]
  · split <;> rfl

theorem wipCredit_of_nonpos (h : completesPlanOf products lines = false)
    (scale : AtScale 4 wip) (nonpos : ¬0 < wip) :
    (planDeliveryCost wip products lines).wipCredit = 0 := by
  unfold planDeliveryCost
  simp [money_of_atScale scale, h, nonpos]

theorem wipCredit_of_share {product : DeliveryPlanProduct}
    (h : completesPlanOf [product] lines = false) (scale : AtScale 4 wip) (positive : 0 < wip) :
    (planDeliveryCost wip [product] lines).wipCredit =
      money (totalQuantity lines * shareUnit wip (shareDivisor product lines)) := by
  unfold planDeliveryCost
  simp [money_of_atScale scale, h, positive, totalQuantity, List.sum_map_mul_right]

theorem wipCredit_of_entered (several : products.length ≠ 1)
    (h : completesPlanOf products lines = false) (scale : AtScale 4 wip) (positive : 0 < wip) :
    0 ≤ (planDeliveryCost wip products lines).wipCredit ∧
      (planDeliveryCost wip products lines).wipCredit ≤ wip := by
  set total := money ((lines.map fun line => nonNegative line.quantity * baseCostOf line).sum)
    with htotal
  have credit : (planDeliveryCost wip products lines).wipCredit =
      money (if wip < total then wip else total) := by
    unfold planDeliveryCost
    simp only [round_deliveryCostScale, money_of_atScale scale, h, positive, not_true, if_false,
      ← htotal]
    split
    · exact absurd rfl several
    · simp
  have nonneg : 0 ≤ total := by
    refine money_nonneg (List.sum_nonneg fun x mem => ?_)
    obtain ⟨line, -, rfl⟩ := List.mem_map.mp mem
    exact mul_nonneg (nonNegative_nonneg _) (baseCostOf_nonneg line)
  rw [credit]
  split
  · rw [money_of_atScale scale]
    exact ⟨positive.le, le_rfl⟩
  · rw [money_of_atScale (atScale_money _)]
    exact ⟨nonneg, not_lt.mp ‹_›⟩

end Plan

/-- The credit of a part delivery is within the balance when the rounding of its unit
cost is borne, and only then. -/
theorem share_within_iff {wip divisor quantity : ℚ} (scale : AtScale 4 wip) (positive : 0 < wip)
    (nonneg : 0 ≤ quantity) (le : quantity ≤ divisor) :
    money (quantity * shareUnit wip divisor) ≤ wip ↔ ShareWithin wip divisor quantity := by
  rcases nonneg.eq_or_lt with rfl | some
  · simp [ShareWithin, positive.le]
  · have divides : 0 < divisor := some.trans_le le
    have unit : 0 ≤ wip / divisor := (div_pos positive divides).le
    have product : 0 ≤ quantity * roundHalfUp 4 (wip / divisor) :=
      mul_nonneg some.le (roundHalfUp_nonneg 4 unit)
    have bound : (wip * 10 ^ 4 + 1 / 2) / quantity =
        ((wip * 10 ^ 4 + 1 / 2) / (quantity * 10 ^ 4)) * 10 ^ 4 := by
      field_simp
    rw [shareUnit, if_pos divides, ShareWithin, or_iff_right some.ne', bound,
      ← roundHalfUp_lt_iff unit, lt_div_iff₀ (by positivity)]
    refine (roundHalfUp_le_iff product scale).trans ?_
    rw [mul_comm quantity, mul_assoc]

/-! ## The voucher rows -/

theorem netCredit_append (rows rows' : List ProductionCreditRow) :
    netCredit (rows ++ rows') = netCredit rows + netCredit rows' := by
  simp [netCredit]

theorem wipCreditOf_append (rows rows' : List ProductionCreditRow) :
    wipCreditOf (rows ++ rows') = wipCreditOf rows + wipCreditOf rows' := by
  simp [wipCreditOf, netCredit_append]

/-- The one row on work in progress of a credit of either sign. -/
def wipRows (wipCredit : ℚ) : List ProductionCreditRow :=
  (if 0 < wipCredit then [⟨.workInProgress, 0, wipCredit⟩] else []) ++
    (if wipCredit < 0 then [⟨.workInProgress, |wipCredit|, 0⟩] else [])

theorem wipRows_credit (c : ℚ) : netCredit (wipRows c) = c ∧ wipCreditOf (wipRows c) = c := by
  rcases lt_trichotomy c 0 with negative | zero | positive
  · simp [wipRows, netCredit, wipCreditOf, negative, negative.not_gt, abs_of_neg]
  · simp [wipRows, netCredit, wipCreditOf, zero]
  · simp [wipRows, netCredit, wipCreditOf, positive, positive.not_gt]

/-- The row of the variance account. -/
def varianceRow (variance : ℚ) : ProductionCreditRow :=
  ⟨.productionVariance, if variance < 0 then |variance| else 0,
    if 0 < variance then variance else 0⟩

theorem varianceRow_credit (v : ℚ) :
    netCredit [varianceRow v] = v ∧ wipCreditOf [varianceRow v] = 0 := by
  rcases lt_trichotomy v 0 with negative | zero | positive
  · simp [varianceRow, netCredit, wipCreditOf, negative, negative.not_gt, abs_of_neg]
  · simp [varianceRow, netCredit, wipCreditOf, zero]
  · simp [varianceRow, netCredit, wipCreditOf, positive, positive.not_gt]

/-- The rows of a priced receipt, the variance account being mapped: they net to the
lines' value, and take the recorded credit, or the lines' value when that is as near
to it as the tolerance. -/
theorem productionCreditRows_spec {cost : ProductionReceiptCost} {gross : ℚ}
    {rows : List ProductionCreditRow} (scaleC : AtScale 4 cost.wipCredit)
    (scaleG : AtScale 4 gross)
    (h : projectProductionCreditRows (some cost) "IRR" gross true true = .ok rows) :
    netCredit rows = gross ∧
      wipCreditOf rows = if |gross - cost.wipCredit| < voucherBalanceTolerance then gross
        else cost.wipCredit := by
  unfold projectProductionCreditRows at h
  simp only [round_four, money_of_atScale scaleC, money_of_atScale (scaleG.sub scaleC), ne_eq,
    not_true_eq_false, if_false, Bool.true_eq_false] at h
  split at h
  · cases h
    rw [if_pos ‹_›]
    simp [netCredit, wipCreditOf]
  · rw [if_neg ‹_›]
    have shape : rows = wipRows cost.wipCredit ++ [varianceRow (gross - cost.wipCredit)] :=
      (Except.ok.inj h).symm
    obtain ⟨wipNet, wipTaken⟩ := wipRows_credit cost.wipCredit
    obtain ⟨varianceNet, varianceTaken⟩ := varianceRow_credit (gross - cost.wipCredit)
    rw [shape, netCredit_append, wipCreditOf_append, wipNet, wipTaken, varianceNet, varianceTaken]
    constructor <;> ring

/-! ## One receipt -/

theorem projectWipBalance_scale {balance : ℚ} (scale : AtScale 4 balance) :
    AtScale 4 (projectWipBalance balance) := by
  unfold projectWipBalance
  split
  · exact AtScale.zero 4
  · exact scale

theorem wipCreditOf_scale {rows : List ProductionCreditRow} {c g : ℚ} (hc : AtScale 4 c)
    (hg : AtScale 4 g)
    (h : wipCreditOf rows = if |g - c| < voucherBalanceTolerance then g else c) :
    money (wipCreditOf rows) = wipCreditOf rows := by
  rw [h]
  split
  · exact money_of_atScale hg
  · exact money_of_atScale hc

theorem plan_of_priced {balance : ℚ} {r : Receipt} {priced : PricedDelivery}
    (h : priceProjectDelivery balance r.products r.lines r.reason = .ok priced) :
    priced.plan = planDeliveryCost (projectWipBalance balance) r.products r.lines := by
  unfold priceProjectDelivery at h
  dsimp only at h
  split at h
  · split at h
    · exact absurd h (by simp)
    · rw [← Except.ok.inj h]
  · rw [← Except.ok.inj h]

theorem atScale_wipCredit (wip : ℚ) (products : List DeliveryPlanProduct)
    (lines : List DeliveryPlanLine) :
    AtScale 4 (planDeliveryCost wip products lines).wipCredit := by
  unfold planDeliveryCost
  dsimp only
  split
  · exact atScale_money _
  · split <;> split <;> exact atScale_money _

/-- An accepted receipt: its plan, and what its rows net to and take. -/
theorem deliver_spec {balance : ℚ} {r : Receipt}
    {delivered : PricedDelivery × List ProductionCreditRow}
    (h : deliver balance r true = .ok delivered) :
    delivered.1.plan = planDeliveryCost (projectWipBalance balance) r.products r.lines ∧
      netCredit delivered.2 = r.totalGross ∧
      wipCreditOf delivered.2 =
        if |r.totalGross - delivered.1.plan.wipCredit| < voucherBalanceTolerance then r.totalGross
        else delivered.1.plan.wipCredit := by
  unfold deliver at h
  simp only [bind_eq_ok, pure_eq_ok] at h
  obtain ⟨priced, price, rows, posted, rfl⟩ := h
  have plan := plan_of_priced price
  have scale : AtScale 4 priced.plan.wipCredit := plan ▸ atScale_wipCredit _ _ _
  have recorded : (recordProductionReceiptCost priced).wipCredit = priced.plan.wipCredit :=
    money_of_atScale scale
  have rows := productionCreditRows_spec (recorded ▸ scale) (atScale_money _) posted
  rw [recorded] at rows
  exact ⟨plan, rows⟩

/-- The credit of a receipt is within a positive balance when the roundings are borne,
and only then. -/
theorem within_iff {balance : ℚ} {r : Receipt} (scale : AtScale 4 balance) :
    (0 < balance →
      0 ≤ (planDeliveryCost (projectWipBalance balance) r.products r.lines).wipCredit ∧
        (planDeliveryCost (projectWipBalance balance) r.products r.lines).wipCredit ≤ balance) ↔
    (∀ product, r.products = [product] → r.completes = false →
      voucherBalanceTolerance ≤ balance →
        ShareWithin balance (shareDivisor product r.lines) (totalQuantity r.lines)) := by
  have tolerance : 0 < voucherBalanceTolerance := by norm_num [voucherBalanceTolerance]
  rcases lt_or_ge balance voucherBalanceTolerance with small | large
  · -- such a balance reads as zero, and nothing is taken
    refine ⟨fun _ product _ _ listed => absurd listed small.not_ge, fun _ positive => ?_⟩
    have zero : projectWipBalance balance = 0 := if_pos (by rwa [abs_of_pos positive])
    rw [zero]
    cases completes : completesPlanOf r.products r.lines with
    | true => rw [wipCredit_of_completes completes (AtScale.zero 4)]; exact ⟨le_rfl, positive.le⟩
    | false =>
        rw [wipCredit_of_nonpos completes (AtScale.zero 4) (lt_irrefl 0)]
        exact ⟨le_rfl, positive.le⟩
  · have positive : 0 < balance := tolerance.trans_le large
    have listed : projectWipBalance balance = balance :=
      if_neg (by rw [abs_of_pos positive]; exact large.not_gt)
    rw [listed]
    cases completes : completesPlanOf r.products r.lines with
    | true =>
        have whole : r.completes = true := completes
        rw [wipCredit_of_completes completes scale]
        simp [whole, positive.le]
    | false =>
        have part : r.completes = false := completes
        by_cases one : ∃ product, r.products = [product]
        · obtain ⟨product, products⟩ := one
          have credit := wipCredit_of_share (products ▸ completes) scale positive
          have quantity := totalQuantity_nonneg r.lines
          have divisor := totalQuantity_le_shareDivisor product r.lines
          have iff := share_within_iff scale positive quantity divisor
          have nonneg : 0 ≤ money (totalQuantity r.lines *
              shareUnit balance (shareDivisor product r.lines)) := by
            refine money_nonneg (mul_nonneg quantity ?_)
            unfold shareUnit
            split
            · exact roundHalfUp_nonneg 4 (div_pos positive ‹_›).le
            · exact le_rfl
          rw [products, credit]
          simp [positive, nonneg, iff, part, large]
        · have several : r.products.length ≠ 1 := fun length =>
            one (List.length_eq_one_iff.mp length)
          have entered := wipCredit_of_entered several completes scale positive
          exact ⟨fun _ product products => absurd ⟨product, products⟩ one, fun _ _ => entered⟩

/-- What stays after the receipt that completes the plan is within the tolerance, but
where the balance and the receipt are both under it and add up to more. -/
theorem closes_iff {balance gross : ℚ} :
    |balance - (if |gross - projectWipBalance balance| < voucherBalanceTolerance then gross
      else projectWipBalance balance)| < voucherBalanceTolerance ↔
    (|balance| < voucherBalanceTolerance → |gross| < voucherBalanceTolerance →
      |balance - gross| < voucherBalanceTolerance) := by
  have tolerance : 0 < voucherBalanceTolerance := by norm_num [voucherBalanceTolerance]
  by_cases small : |balance| < voucherBalanceTolerance
  · have zero : projectWipBalance balance = 0 := if_pos small
    rw [zero, sub_zero]
    split
    · simp [*]
    · simp [*]
  · have listed : projectWipBalance balance = balance := if_neg small
    rw [listed]
    split
    · rw [abs_sub_comm]
      simp [*]
    · simp [small, tolerance]

/-- An accepted receipt does what is asked exactly where the roundings are borne. -/
theorem takes_iff {balance : ℚ} {r : Receipt}
    {delivered : PricedDelivery × List ProductionCreditRow} (scale : AtScale 4 balance)
    (accepted : deliver balance r true = .ok delivered) :
    TakesItsCost balance r delivered.1 delivered.2 ↔ RoundingsAreBorne balance (.receipt r) := by
  obtain ⟨plan, nets, takes⟩ := deliver_spec accepted
  have creditScale : AtScale 4 delivered.1.plan.wipCredit := plan ▸ atScale_wipCredit _ _ _
  have stored := wipCreditOf_scale creditScale (atScale_money _) takes
  have follows : |wipCreditOf delivered.2 - delivered.1.plan.wipCredit| <
      voucherBalanceTolerance := by
    rw [takes]
    split
    · assumption
    · norm_num [voucherBalanceTolerance]
  have closes : (delivered.1.plan.completesPlan = true →
        |balance - money (wipCreditOf delivered.2)| < voucherBalanceTolerance) ↔
      (r.completes = true → |balance| < voucherBalanceTolerance →
        |r.totalGross| < voucherBalanceTolerance →
          |balance - r.totalGross| < voucherBalanceTolerance) := by
    have completes : delivered.1.plan.completesPlan = r.completes := by
      rw [plan, completesPlan_planDeliveryCost]
      rfl
    rw [completes]
    refine forall_congr' fun whole => ?_
    have credit : delivered.1.plan.wipCredit = projectWipBalance balance := by
      rw [plan]
      exact wipCredit_of_completes whole (projectWipBalance_scale scale)
    rw [stored, takes, credit]
    exact closes_iff
  have within := within_iff (r := r) scale
  rw [← plan] at within
  exact ⟨fun h => ⟨within.mp h.within, closes.mp h.closes⟩,
    fun h => ⟨nets, follows, within.mpr h.1, closes.mpr h.2⟩⟩

/-! ## Runs -/

theorem wipStep_scale {balance next : ℚ} {op : WipOp} (scale : AtScale 4 balance)
    (accepted : wipStep balance op = .ok next) : AtScale 4 next := by
  cases op with
  | posting amount =>
      cases accepted
      exact scale.add (atScale_money _)
  | receipt r =>
      rw [wipStep, bind_eq_ok] at accepted
      obtain ⟨delivered, -, kept⟩ := accepted
      cases kept
      exact scale.sub (atScale_money _)

/-- All but one of a million units, of a work in progress of 10,000,050 rials. -/
def largePartDelivery : Receipt where
  products := [⟨1, 1000000, 0⟩]
  lines := [⟨1, 999999, none, 0⟩]
  reason := ""
  linesValue := 999999 * 100001 / 10000

/-- The unit cost 10.00005 is rounded up, and the receipt takes 10,000,089.9999 rials. -/
theorem largePartDelivery_overdraws :
    ¬Along wipStep ReceiptsTakeTheirCost 0 [.posting 10000050, .receipt largePartDelivery] := by
  have balance : exec wipStep 0 (.posting 10000050) = 10000050 := by decide +kernel
  have overdraws : ∃ delivered, deliver 10000050 largePartDelivery true = .ok delivered ∧
      10000050 < delivered.1.plan.wipCredit := by
    have found : (deliver 10000050 largePartDelivery true).toOption.any
        (fun delivered => 10000050 < delivered.1.plan.wipCredit) = true := by decide +kernel
    cases outcome : deliver 10000050 largePartDelivery true with
    | error refusal => rw [outcome] at found; exact absurd found (by simp [Except.toOption])
    | ok delivered =>
        rw [outcome] at found
        exact ⟨delivered, rfl, of_decide_eq_true found⟩
  rintro ⟨-, second, -⟩
  obtain ⟨delivered, accepted, more⟩ := overdraws
  rw [balance] at second
  have step : wipStep 10000050 (.receipt largePartDelivery) =
      .ok (10000050 - money (wipCreditOf delivered.2)) := by
    rw [wipStep, accepted]
    rfl
  have takes := second _ step delivered accepted
  exact more.not_ge (takes.within (by norm_num)).2

/-- Over any run of postings and receipts of a project, every receipt's rows net to the
value of its lines, no receipt takes more out of a positive balance than is there, and
the receipt that completes the plan leaves nothing but the tolerance, exactly when the
roundings of every receipt are borne. -/
theorem receipts_take_their_cost_iff (ops : List WipOp) :
    Along wipStep ReceiptsTakeTheirCost 0 ops ↔ Along wipStep RoundingsAreBorne 0 ops := by
  refine along_congr (I := AtScale 4) (fun _ _ _ => wipStep_scale) ?_ (AtScale.zero 4)
  intro balance op next scale accepted
  cases op with
  | posting amount => exact Iff.rfl
  | receipt r =>
      rw [wipStep, bind_eq_ok] at accepted
      obtain ⟨delivered, accepted, -⟩ := accepted
      refine ⟨fun h => (takes_iff scale accepted).mp (h delivered accepted), fun h other same => ?_⟩
      exact (takes_iff scale same).mpr h

end PapitalErp.ProjectWip
