import PapitalErp.FinancialDecimal

/-!
# Rial costs in the rows of a foreign document

The costs of the stock ledger are in rial. In a foreign document each of them becomes a
row of the document's currency, with an amount and a rate of four decimals, and the
reports read the row as the product of the two, rounded to the rial. The rate of a row is
searched around the rial over the amount until that product is the rial of the row.

Up to ten thousand units one step of the rate moves the product by at most a rial, and
the first rate the search tries is the one.
-/

namespace PapitalErp

open Rounding

/-- `MIN_FOREIGN_AMOUNT`. -/
def minForeignAmount : ℚ := 1 / 10 ^ 4

structure ForeignCostRow where
  amount : ℚ
  exchangeRate : ℚ
  deriving DecidableEq

/-- A row in the reports: its amount at its rate, in whole rial. -/
def ForeignCostRow.rial (row : ForeignCostRow) : ℚ := FinancialDecimal.round (row.amount * row.exchangeRate) 0

def IsForeignRate (docRate : ℚ) : Prop := 0 < docRate ∧ docRate ≠ 1

instance (docRate : ℚ) : Decidable (IsForeignRate docRate) := inferInstanceAs (Decidable (_ ∧ _))

def irrToForeignAmount (irrAmount docRate : ℚ) : ℚ :=
  if ¬ IsForeignRate docRate then FinancialDecimal.round irrAmount 4
  else if ¬ 0 < irrAmount then 0
  else
    let amount := FinancialDecimal.divide irrAmount docRate 4
    if 0 < amount then amount else minForeignAmount

def rowExchangeRate (irrTotal amount docRate : ℚ) : ℚ :=
  if ¬ IsForeignRate docRate ∨ ¬ 0 < amount then if 0 < docRate then docRate else 1
  else FinancialDecimal.divide irrTotal amount 4

def foreignCostRow (irrAmount docRate : ℚ) : ForeignCostRow :=
  let amount := irrToForeignAmount irrAmount docRate
  ⟨amount, rowExchangeRate irrAmount amount docRate⟩

/-- `RATE_STEP`. -/
def rateStep : ℚ := 1 / 10 ^ 4

/-- `MAX_RATE_STEPS`. -/
def maxRateSteps : ℕ := 2000

/-- The nearest rate around `base` within the bound at which the amount comes to the rial. -/
def searchRate (amount target base : ℚ) : Option ℚ :=
  (List.range (maxRateSteps + 1)).findSome? fun k : ℕ =>
    let up := base + rateStep * k
    let down := base - rateStep * k
    if FinancialDecimal.round (amount * up) 0 = target then some up
    else if 0 < down ∧ FinancialDecimal.round (amount * down) 0 = target then some down
    else none

def rateForRial (amount targetRial docRate : ℚ) : ℚ :=
  let base := rowExchangeRate targetRial amount docRate
  if ¬ IsForeignRate docRate ∨ ¬ 0 < amount then base
  else (searchRate amount targetRial base).getD base

structure BalancedCostRows where
  parts : List ForeignCostRow
  total : ForeignCostRow

/-- The rows so far, with the rial and the amount they come to. -/
structure CostRowsSoFar where
  parts : List ForeignCostRow
  totalRial : ℚ
  totalAmount : ℚ

def addCostRow (docRate : ℚ) (s : CostRowsSoFar) (irr : ℚ) : CostRowsSoFar :=
  let amount := irrToForeignAmount irr docRate
  let rial := FinancialDecimal.round irr 0
  if ¬ 0 < amount then { s with parts := s.parts ++ [⟨amount, docRate⟩] }
  else ⟨s.parts ++ [⟨amount, rateForRial amount rial docRate⟩], s.totalRial + rial, s.totalAmount + amount⟩

def balancedCostRows (irrParts : List ℚ) (docRate : ℚ) : BalancedCostRows :=
  if ¬ IsForeignRate docRate then
    let parts := irrParts.map (foreignCostRow · docRate)
    let amount := FinancialDecimal.round (parts.map (·.amount)).sum 4
    ⟨parts, amount, rowExchangeRate irrParts.sum amount docRate⟩
  else
    let s := irrParts.foldl (addCostRow docRate) ⟨[], 0, 0⟩
    let amount := FinancialDecimal.round s.totalAmount 4
    ⟨s.parts, amount, rateForRial amount s.totalRial docRate⟩

/-! ## The rate of a row -/

section Rate

variable {amount target docRate irr : ℚ}

/-- Up to ten thousand units the target over the amount, at four decimals, comes to the
target. -/
theorem round_mul_divide (positive : 0 < amount) (most : amount ≤ 10000) (whole : AtScale 0 target)
    (nonneg : 0 ≤ target) :
    FinancialDecimal.round (amount * FinancialDecimal.divide target amount 4) 0 = target := by
  unfold FinancialDecimal.round FinancialDecimal.divide
  have rated : 0 ≤ roundHalfUp 4 (target / amount) := roundHalfUp_nonneg 4 (by positivity)
  obtain rfl | below := most.eq_or_lt
  · have exact_rate : AtScale 4 (target / 10000) := by
      obtain ⟨k, rfl⟩ := whole
      exact ⟨k, by norm_num⟩
    rw [roundHalfUp_of_atScale exact_rate, mul_div_cancel₀ _ positive.ne', roundHalfUp_of_atScale whole]
  · have near : |amount * roundHalfUp 4 (target / amount) - target| < 1 / 2 := by
      have close := abs_roundHalfUp_sub_le 4 (target / amount)
      have scaled := mul_le_mul_of_nonneg_left close positive.le
      rw [← abs_of_pos positive, ← abs_mul, abs_of_pos positive, mul_sub, mul_div_cancel₀ _ positive.ne'] at scaled
      refine scaled.trans_lt ?_
      rw [halfUnit]
      linarith
    obtain ⟨k, rfl⟩ := whole
    obtain ⟨low, high⟩ := abs_lt.mp near
    have floor : ⌊amount * roundHalfUp 4 (k / 10 ^ 0 / amount) + 1 / 2⌋ = k := by
      rw [Int.floor_eq_iff]
      rw [pow_zero, div_one] at *
      constructor <;> linarith
    rw [roundHalfUp_zero_eq_floor (mul_nonneg positive.le rated), floor, pow_zero, div_one]

/-- The search ends at its first rate. -/
theorem searchRate_eq (positive : 0 < amount) (most : amount ≤ 10000) (whole : AtScale 0 target)
    (nonneg : 0 ≤ target) :
    searchRate amount target (FinancialDecimal.divide target amount 4) =
      some (FinancialDecimal.divide target amount 4) := by
  have first := round_mul_divide positive most whole nonneg
  unfold searchRate
  rw [List.range_succ_eq_map, List.findSome?_cons]
  simp only [Nat.cast_zero, mul_zero, add_zero, first, if_true]

theorem rateForRial_eq (foreign : IsForeignRate docRate) (positive : 0 < amount) (most : amount ≤ 10000)
    (whole : AtScale 0 target) (nonneg : 0 ≤ target) :
    rateForRial amount target docRate = FinancialDecimal.divide target amount 4 := by
  have guard : ¬(¬ IsForeignRate docRate ∨ ¬ 0 < amount) := by simp [foreign, positive]
  simp only [rateForRial, rowExchangeRate, if_neg guard, searchRate_eq positive most whole nonneg,
    Option.getD_some]

theorem rial_rateForRial (foreign : IsForeignRate docRate) (positive : 0 < amount) (most : amount ≤ 10000)
    (whole : AtScale 0 target) (nonneg : 0 ≤ target) :
    (ForeignCostRow.mk amount (rateForRial amount target docRate)).rial = target := by
  rw [ForeignCostRow.rial, rateForRial_eq foreign positive most whole nonneg]
  exact round_mul_divide positive most whole nonneg

theorem irrToForeignAmount_pos (foreign : IsForeignRate docRate) (positive : 0 < irr) :
    0 < irrToForeignAmount irr docRate := by
  simp only [irrToForeignAmount, if_neg (not_not.mpr foreign), if_neg (not_not.mpr positive)]
  split_ifs with kept
  · exact kept
  · norm_num [minForeignAmount]

theorem atScale_irrToForeignAmount (irr docRate : ℚ) : AtScale 4 (irrToForeignAmount irr docRate) := by
  have least : AtScale 4 minForeignAmount := ⟨1, by norm_num [minForeignAmount]⟩
  simp only [irrToForeignAmount]
  split_ifs
  · exact atScale_roundHalfUp 4 (irr / docRate)
  · exact least
  · exact AtScale.zero 4
  · exact atScale_roundHalfUp 4 irr

end Rate

/-! ## The rows of a document -/

section Rows

variable {docRate : ℚ} {irrParts : List ℚ} {irr : ℚ}

/-- What the rows so far hold, whatever the amounts came to. -/
structure CostRowsSoFar.Holds (docRate : ℚ) (done : List ℚ) (s : CostRowsSoFar) : Prop where
  parts : s.parts = done.map fun irr =>
    ⟨irrToForeignAmount irr docRate, rateForRial (irrToForeignAmount irr docRate)
      (FinancialDecimal.round irr 0) docRate⟩
  amount : s.totalAmount = (done.map (irrToForeignAmount · docRate)).sum
  rial : s.totalRial = (done.map (FinancialDecimal.round · 0)).sum

theorem CostRowsSoFar.Holds.add {s : CostRowsSoFar} {done : List ℚ} (h : s.Holds docRate done)
    (foreign : IsForeignRate docRate) (positive : 0 < irr) :
    (addCostRow docRate s irr).Holds docRate (done ++ [irr]) := by
  have some_amount := irrToForeignAmount_pos foreign positive
  simp only [addCostRow, if_neg (not_not.mpr some_amount)]
  exact ⟨by simp [h.parts], by simp [h.amount], by simp [h.rial]⟩

theorem costRows_hold (foreign : IsForeignRate docRate) (positive : ∀ irr ∈ irrParts, 0 < irr) :
    (irrParts.foldl (addCostRow docRate) ⟨[], 0, 0⟩).Holds docRate irrParts := by
  suffices run : ∀ s done, CostRowsSoFar.Holds docRate done s →
      (irrParts.foldl (addCostRow docRate) s).Holds docRate (done ++ irrParts) from
    run ⟨[], 0, 0⟩ [] ⟨rfl, rfl, rfl⟩
  induction irrParts with
  | nil =>
      intro s done h
      simpa using h
  | cons irr rest ih =>
      intro s done h
      have next := h.add foreign (positive irr List.mem_cons_self)
      have later := ih (fun part mem => positive part (List.mem_cons_of_mem irr mem)) _ _ next
      simpa using later

/-- The rows balance in the currency of the document and in rial. -/
structure BalancedCostRows.Balances (irrParts : List ℚ) (rows : BalancedCostRows) : Prop where
  /-- The amounts of the parts sum to the amount of the document. -/
  amounts : (rows.parts.map (·.amount)).sum = rows.total.amount
  /-- Each part is worth its rial, rounded to the rial. -/
  parts : rows.parts.map (·.rial) = irrParts.map (FinancialDecimal.round · 0)
  /-- The parts are worth what the total is worth. -/
  total : (rows.parts.map (·.rial)).sum = rows.total.rial

/-- The rial of a part is whole. -/
theorem atScale_rial (irr : ℚ) : AtScale 0 (FinancialDecimal.round irr 0) := atScale_roundHalfUp 0 irr

theorem balancedCostRows_eq (foreign : IsForeignRate docRate) (positive : ∀ irr ∈ irrParts, 0 < irr) :
    balancedCostRows irrParts docRate =
      ⟨irrParts.map fun irr => ⟨irrToForeignAmount irr docRate,
          rateForRial (irrToForeignAmount irr docRate) (FinancialDecimal.round irr 0) docRate⟩,
        (irrParts.map (irrToForeignAmount · docRate)).sum,
        rateForRial (irrParts.map (irrToForeignAmount · docRate)).sum
          (irrParts.map (FinancialDecimal.round · 0)).sum docRate⟩ := by
  have held := costRows_hold foreign positive
  have scaled : AtScale 4 (irrParts.map (irrToForeignAmount · docRate)).sum := by
    refine AtScale.sum fun x mem => ?_
    obtain ⟨irr, -, rfl⟩ := List.mem_map.mp mem
    exact atScale_irrToForeignAmount irr docRate
  have amount : FinancialDecimal.round (irrParts.map (irrToForeignAmount · docRate)).sum 4 =
      (irrParts.map (irrToForeignAmount · docRate)).sum := roundHalfUp_of_atScale scaled
  simp only [balancedCostRows, if_neg (not_not.mpr foreign), held.parts, held.amount, held.rial, amount]

/-- The rows of the costs of a foreign document of at most ten thousand units balance in
both currencies, and the search finds the rate of every row. -/
theorem cost_rows_balance (foreign : IsForeignRate docRate) (least : ∀ irr ∈ irrParts, 1 ≤ irr)
    (most : (balancedCostRows irrParts docRate).total.amount ≤ 10000) :
    (balancedCostRows irrParts docRate).Balances irrParts ∧
      ∀ irr ∈ irrParts, ∃ rate, searchRate (irrToForeignAmount irr docRate) (FinancialDecimal.round irr 0)
        (rowExchangeRate (FinancialDecimal.round irr 0) (irrToForeignAmount irr docRate) docRate) = some rate := by
  have positive : ∀ irr ∈ irrParts, 0 < irr := fun irr mem => zero_lt_one.trans_le (least irr mem)
  have amounts_pos : ∀ irr ∈ irrParts, 0 < irrToForeignAmount irr docRate :=
    fun irr mem => irrToForeignAmount_pos foreign (positive irr mem)
  have rials_nonneg : ∀ irr ∈ irrParts, 0 ≤ FinancialDecimal.round irr 0 :=
    fun irr mem => roundHalfUp_nonneg 0 (positive irr mem).le
  rw [balancedCostRows_eq foreign positive] at most ⊢
  dsimp only at most
  -- no part is above the document
  have part_most : ∀ irr ∈ irrParts, irrToForeignAmount irr docRate ≤ 10000 := by
    intro irr mem
    refine le_trans (List.single_le_sum ?_ _ (List.mem_map_of_mem (f := (irrToForeignAmount · docRate)) mem)) most
    intro x listed
    obtain ⟨part, known, rfl⟩ := List.mem_map.mp listed
    exact (amounts_pos part known).le
  have parts : (irrParts.map fun irr => ForeignCostRow.mk (irrToForeignAmount irr docRate)
      (rateForRial (irrToForeignAmount irr docRate) (FinancialDecimal.round irr 0) docRate)).map (·.rial) =
        irrParts.map (FinancialDecimal.round · 0) := by
    rw [List.map_map]
    exact List.map_congr_left fun irr mem =>
      rial_rateForRial foreign (amounts_pos irr mem) (part_most irr mem) (atScale_rial irr) (rials_nonneg irr mem)
  refine ⟨⟨by simp [Function.comp_def], parts, ?_⟩, fun irr mem => ?_⟩
  · dsimp only
    rw [parts]
    cases irrParts with
    | nil => simp [ForeignCostRow.rial, FinancialDecimal.round]
    | cons irr rest =>
        have total_pos : 0 < ((irr :: rest).map (irrToForeignAmount · docRate)).sum :=
          List.sum_pos _ (fun x listed => by
            obtain ⟨part, known, rfl⟩ := List.mem_map.mp listed
            exact amounts_pos part known) (by simp)
        refine (rial_rateForRial foreign total_pos most ?_ ?_).symm
        · refine AtScale.sum fun x listed => ?_
          obtain ⟨part, -, rfl⟩ := List.mem_map.mp listed
          exact atScale_rial part
        · refine List.sum_nonneg fun x listed => ?_
          obtain ⟨part, known, rfl⟩ := List.mem_map.mp listed
          exact rials_nonneg part known
  · have guard : ¬(¬ IsForeignRate docRate ∨ ¬ 0 < irrToForeignAmount irr docRate) := by
      simp [foreign, amounts_pos irr mem]
    rw [rowExchangeRate, if_neg guard]
    exact ⟨_, searchRate_eq (amounts_pos irr mem) (part_most irr mem) (atScale_rial irr) (rials_nonneg irr mem)⟩

/-- Two costs of a document in dollars, the second not in whole rial. -/
theorem cost_rows_balance_of_two :
    (balancedCostRows [100000, 250000 + 1 / 4] 600000).Balances [100000, 250000 + 1 / 4] :=
  (cost_rows_balance (by decide +kernel) (by decide +kernel) (by decide +kernel)).1

/-- A cost of a rial and a half has a row of two rial. -/
theorem cost_row_of_fraction :
    IsForeignRate 2 ∧ (∀ irr ∈ [(3 / 2 : ℚ)], 1 ≤ irr) ∧
      (balancedCostRows [3 / 2] 2).total.amount ≤ 10000 ∧
        (balancedCostRows [3 / 2] 2).parts.map (·.rial) ≠ [3 / 2] := by
  decide +kernel

end Rows

end PapitalErp
