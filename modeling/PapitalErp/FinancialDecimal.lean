import PapitalErp.Lib.Rounding

/-!
# Financial decimals

`FinancialDecimal` and `Money` are exact rationals here, with the source's
explicit roundings (`round`, `divide`, the write to a `numeric(18, 4)` column)
kept where the source makes them. The 30 significant digits that the decimal
library carries between those roundings are not modelled: they reach beyond the
14 whole digits and 4 decimals of every stored amount, and a product of two
stored amounts that can itself be stored fits into them.
-/

namespace PapitalErp

open Rounding

namespace FinancialDecimal

/-- `FinancialDecimal.round`. -/
def round (x : ℚ) (decimalPlaces : ℕ := 4) : ℚ := roundHalfUp decimalPlaces x

/-- `FinancialDecimal.divide`. The source throws on a zero divisor; every
modelled call has excluded one. -/
def divide (x divisor : ℚ) (scale : ℕ := 4) : ℚ := roundHalfUp scale (x / divisor)

end FinancialDecimal

/-- A value as a `numeric(18, 4)` column keeps it (`moneyToDriver`). -/
def money (x : ℚ) : ℚ := FinancialDecimal.round x 4

theorem atScale_money (x : ℚ) : AtScale 4 (money x) := atScale_roundHalfUp 4 x

/-- What a `numeric(18, 4)` column holds. -/
abbrev MoneyColumn := { x : ℚ // AtScale 4 x }

/-- `money(x)` as it is written to its column. -/
def stored (x : ℚ) : MoneyColumn := ⟨money x, atScale_money x⟩

@[simp] theorem coe_stored (x : ℚ) : (stored x : ℚ) = money x := rfl

theorem money_of_atScale {x : ℚ} (h : AtScale 4 x) : money x = x := roundHalfUp_of_atScale h

theorem money_nonneg {x : ℚ} (h : 0 ≤ x) : 0 ≤ money x := roundHalfUp_nonneg 4 h

theorem abs_money_sub_le (x : ℚ) : |money x - x| ≤ halfUnit 4 := abs_roundHalfUp_sub_le 4 x

@[simp] theorem money_column (x : MoneyColumn) : money x = x := money_of_atScale x.2

@[simp] theorem money_zero : money 0 = 0 := roundHalfUp_zero 4

@[simp] theorem round_four (x : ℚ) : FinancialDecimal.round x 4 = money x := rfl

namespace FinancialMath

/-- The weighted average cost after `incomingQty` units at `incomingUnitPrice`
join `currentStock` units at `currentWAC`. -/
def calculateWAC (currentStock currentWAC incomingQty incomingUnitPrice : ℚ) : ℚ :=
  if incomingQty ≤ 0 then currentWAC
  -- a receipt at no price neither zeroes nor dilutes the average
  else if incomingUnitPrice ≤ 0 then currentWAC
  else if currentStock ≤ 0 then FinancialDecimal.round incomingUnitPrice 4
  else if currentStock + incomingQty = 0 then FinancialDecimal.round incomingUnitPrice 4
  else FinancialDecimal.divide
    (currentStock * currentWAC + incomingQty * incomingUnitPrice) (currentStock + incomingQty) 4

variable {stock wac qty price : ℚ}

theorem calculateWAC_of_price_nonpos (h : price ≤ 0) :
    calculateWAC stock wac qty price = wac := by
  rw [calculateWAC, if_pos h, ite_self]

theorem calculateWAC_of_stock_nonpos (hq : 0 < qty) (hp : 0 < price) (hs : stock ≤ 0) :
    calculateWAC stock wac qty price = money price := by
  rw [calculateWAC, if_neg hq.not_ge, if_neg hp.not_ge, if_pos hs, round_four]

theorem calculateWAC_of_stock_pos (hq : 0 < qty) (hp : 0 < price) (hs : 0 < stock) :
    calculateWAC stock wac qty price =
      money ((stock * wac + qty * price) / (stock + qty)) := by
  rw [calculateWAC, if_neg hq.not_ge, if_neg hp.not_ge, if_neg hs.not_ge,
    if_neg (add_pos hs hq).ne']
  rfl

theorem atScale_calculateWAC (stock qty price : ℚ) (h : AtScale 4 wac) :
    AtScale 4 (calculateWAC stock wac qty price) := by
  unfold calculateWAC
  split_ifs
  · exact h
  · exact h
  · exact atScale_roundHalfUp 4 _
  · exact atScale_roundHalfUp 4 _
  · exact atScale_roundHalfUp 4 _

theorem calculateWAC_nonneg (h : 0 ≤ wac) : 0 ≤ calculateWAC stock wac qty price := by
  unfold calculateWAC
  split_ifs with hq hp hs
  · exact h
  · exact h
  · exact roundHalfUp_nonneg 4 (le_of_not_ge hp)
  · exact roundHalfUp_nonneg 4 (le_of_not_ge hp)
  · have hq' := le_of_not_ge hq
    have hp' := le_of_not_ge hp
    have hs' := le_of_not_ge hs
    exact roundHalfUp_nonneg 4 (by positivity)

/-- Goods that come in at the average leave it where it is. -/
theorem calculateWAC_at_average (hw : AtScale 4 wac) (hq : 0 < qty) (hp : 0 < wac) :
    calculateWAC stock wac qty wac = wac := by
  rcases le_or_gt stock 0 with hs | hs
  · rw [calculateWAC_of_stock_nonpos hq hp hs, money_of_atScale hw]
  · have pooled : (stock * wac + qty * wac) / (stock + qty) = wac := by
      have := (add_pos hs hq).ne'
      field_simp
    rw [calculateWAC_of_stock_pos hq hp hs, pooled, money_of_atScale hw]

/-- Re-averaging moves the value of the stock by at most half a unit of the
average's fourth decimal on every unit then on hand. -/
theorem abs_value_calculateWAC_sub_le (hs : 0 ≤ stock) (hq : 0 < qty) (hp : 0 < price) :
    |(stock + qty) * calculateWAC stock wac qty price - (stock * wac + qty * price)| ≤
      halfUnit 4 * (stock + qty) := by
  have total_pos : 0 < stock + qty := by linarith
  have scaled : ∀ x : ℚ, |(stock + qty) * money x - (stock + qty) * x| ≤
      halfUnit 4 * (stock + qty) := by
    intro x
    rw [← mul_sub, abs_mul, abs_of_pos total_pos, mul_comm]
    exact mul_le_mul_of_nonneg_right (abs_money_sub_le x) total_pos.le
  rcases hs.eq_or_lt with rfl | hs
  · rw [calculateWAC_of_stock_nonpos hq hp le_rfl]
    simpa using scaled price
  · rw [calculateWAC_of_stock_pos hq hp hs]
    have pooled : (stock + qty) * ((stock * wac + qty * price) / (stock + qty)) =
        stock * wac + qty * price := by
      field_simp
    simpa only [pooled] using scaled ((stock * wac + qty * price) / (stock + qty))

end FinancialMath

end PapitalErp
