import PapitalErp.Lib.Transition
import PapitalErp.Inventory.Kardex

/-!
# Value added tax of a document

The one VAT formula of a sales document and the reading of a sent VAT. Lines
are read as stored: quantity, unit price and discount have at most four
decimals.
-/

namespace PapitalErp

open Rounding Transition

/-- A row of `document_items`. -/
structure DocumentLine where
  itemId : ItemId
  quantity : ℚ
  unitPrice : ℚ
  discount : ℚ
  deriving DecidableEq

/-- `currencyScale`: whole rials, cents of any other currency. Currencies are
normalised; an empty one is the rial. -/
def currencyScale (currency : String) : ℕ :=
  if currency = "" ∨ currency = "IRR" then 0 else 2

theorem currencyScale_le (currency : String) : currencyScale currency ≤ 2 := by
  unfold currencyScale
  split <;> decide

/-- The sums of `vatBaseOf`. -/
structure VatBase where
  gross : ℚ
  discount : ℚ
  net : ℚ

/-- `vatBaseOf`. -/
def vatBaseOf (lines : List DocumentLine) : VatBase :=
  let gross := FinancialDecimal.round (lines.map fun l => l.quantity * l.unitPrice).sum 4
  let discount := FinancialDecimal.round (lines.map DocumentLine.discount).sum 4
  let net := gross - discount
  ⟨gross, discount, if net < 0 then 0 else FinancialDecimal.round net 4⟩

/-- `computeNetAmount`. -/
def computeNetAmount (lines : List DocumentLine) : ℚ := (vatBaseOf lines).net

theorem computeNetAmount_nonneg (lines : List DocumentLine) : 0 ≤ computeNetAmount lines := by
  unfold computeNetAmount vatBaseOf
  dsimp only
  split
  · exact le_rfl
  · exact roundHalfUp_nonneg 4 (not_lt.mp ‹_›)

/-- The VAT a request may send. -/
structure VatInput where
  vatPercent : Option ℚ
  vatAmount : Option ℚ

def VatInput.none : VatInput := ⟨.none, .none⟩

inductive VatError where
  | percentOutOfRange (vatPercent : ℚ)
  | amountNegative (vatAmount : ℚ)
  | returnVatMismatch (vatPercent vatAmount : ℚ)
  deriving DecidableEq

/-- `parseVatInput`, from numbers on. -/
def parseVatInput (input : VatInput) : Except VatError VatInput := do
  ensure (∀ percent ∈ input.vatPercent, 0 ≤ percent ∧ percent ≤ 100)
    (.percentOutOfRange (input.vatPercent.getD 0))
  ensure (∀ amount ∈ input.vatAmount, 0 ≤ amount) (.amountNegative (input.vatAmount.getD 0))
  return input

end PapitalErp
