import PapitalErp.Documents.DocumentVat

/-!
# Sales returns of an invoice

A final return of a final sales invoice takes its prices from the invoice, gives
back no more than was sold and not yet returned, and carries the part of the
invoice's VAT that its net amount adds to the returns already live. A voided
return keeps the VAT it was given and counts no more.

The state is the list of final returns of one invoice; the invoice itself no
longer changes, and it cannot be voided while a return of it lives. The Kardex
rows of the invoice and of its returns mirror their lines, so what was sold and
returned is read from the lines.
-/

namespace PapitalErp

open Rounding Transition

/-- A final sales invoice. -/
structure SalesInvoice where
  lines : List DocumentLine
  currency : String
  exchangeRate : ℚ
  vatPercent : ℚ
  vatAmount : ℚ
  vat_valid : AtScale 4 vatAmount ∧ 0 ≤ vatAmount

/-- `normalizeCurrency(invoice.currency) === 'IRR'`. -/
def SalesInvoice.isRial (invoice : SalesInvoice) : Prop :=
  currencyScale invoice.currency = 0

instance (invoice : SalesInvoice) : Decidable invoice.isRial :=
  inferInstanceAs (Decidable (_ = _))

/-- What an item of the invoice is returned at. -/
structure ReturnItemTerms where
  quantity : ℚ
  netUnitPrice : ℚ
  net : ℚ

/-- `invoiceReturnTerms(lines).get(itemId)`. -/
def invoiceReturnTerms (lines : List DocumentLine) (itemId : ItemId) : Option ReturnItemTerms :=
  let counted := lines.filter fun l =>
    decide (l.itemId = itemId) && decide (0 < l.itemId) && decide (0 < l.quantity)
  let quantity := (counted.map DocumentLine.quantity).sum
  let net := (counted.map fun l => max 0 (l.quantity * l.unitPrice - l.discount)).sum
  if counted = [] then none
  else some ⟨quantity, FinancialDecimal.divide net quantity 4, net⟩

/-! ## The completing line of a full return -/

/-- The price of one unit that makes a full return of an item give back its exact
net, when the unit price rounded to four decimals does not. -/
def completionPrice (terms : ReturnItemTerms) (earlier : List DocumentLine) (qty : ℚ) :
    Option ℚ :=
  let earlierQty := (earlier.map DocumentLine.quantity).sum
  let earlierNet := (earlier.map fun e => e.quantity * e.unitPrice - e.discount).sum
  let residual :=
    FinancialDecimal.round (terms.net - earlierNet - qty * terms.netUnitPrice) 4
  if earlierQty + qty ≠ terms.quantity then none
  else if residual = 0 then none
  else if terms.netUnitPrice + residual < 0 then none
  else some (terms.netUnitPrice + residual)

/-- The last line of the item, first in this reversed list, takes one unit at the
completing price. -/
def completeLast (itemId : ItemId) (netUnitPrice completion : ℚ) :
    List DocumentLine → Option (List DocumentLine)
  | [] => none
  | last :: rest =>
      if last.itemId = itemId then
        if last.quantity < 1 then none
        else if last.quantity ≤ 1 then some ({ last with unitPrice := completion } :: rest)
        else some ({ last with quantity := 1, unitPrice := completion } ::
          { last with quantity := last.quantity - 1, unitPrice := netUnitPrice } :: rest)
      else (completeLast itemId netUnitPrice completion rest).map (last :: ·)

/-- The lines so far and the completing price of each item that has one. -/
structure CompletedLines where
  lines : List DocumentLine
  completionPrices : List (ItemId × ℚ)

def completeItem (terms : ItemId → Option ReturnItemTerms) (earlier sent : List DocumentLine)
    (out : CompletedLines) (itemId : ItemId) : CompletedLines :=
  let qty := ((sent.filter fun l => decide (l.itemId = itemId)).map DocumentLine.quantity).sum
  match terms itemId with
  | none => out
  | some itemTerms =>
      if qty ≤ 0 then out
      else
        match completionPrice itemTerms (earlier.filter fun e => decide (e.itemId = itemId)) qty with
        | none => out
        | some completion =>
            match completeLast itemId itemTerms.netUnitPrice completion out.lines.reverse with
            | none => out
            | some lines => ⟨lines.reverse, out.completionPrices ++ [(itemId, completion)]⟩

/-- `completeReturnLines`. -/
def completeReturnLines (lines : List DocumentLine) (terms : ItemId → Option ReturnItemTerms)
    (earlier : List DocumentLine) : CompletedLines :=
  ((lines.map DocumentLine.itemId).eraseDups).foldl (completeItem terms earlier lines) ⟨lines, []⟩

/-! ## The terms of the invoice -/

/-- A line as the request sends it. -/
structure ReturnLineInput where
  itemId : ItemId
  quantity : ℚ
  unitPrice : Option ℚ
  discount : Option ℚ

/-- What is wrong with a sent line. -/
inductive ReturnLineProblem where
  | notOnInvoice (itemId : ItemId)
  | price (itemId : ItemId) (sent netUnitPrice : ℚ)
  | discount (itemId : ItemId) (sent : ℚ)
  deriving DecidableEq

inductive ReturnError where
  | currencyMismatch (sent invoice : String)
  | exchangeRateMismatch (sent invoice : ℚ)
  | priceMismatch (problems : List ReturnLineProblem)
  | quantityNotPositive (itemId : ItemId)
  | overReturned (itemId : ItemId) (want returnable : ℚ)
  | vat (e : VatError)
  | notFound (id : ℕ)
  | refusedElsewhere

/-- `isInvoiceNetUnitPrice`. -/
def isInvoiceNetUnitPrice (sent netUnitPrice : ℚ) : Bool :=
  decide (FinancialDecimal.round sent 4 = FinancialDecimal.round netUnitPrice 4)

/-- The checks of one sent line. -/
def lineProblems (terms : ItemId → Option ReturnItemTerms) (completionPrices : List (ItemId × ℚ))
    (line : ReturnLineInput) : List ReturnLineProblem :=
  match terms line.itemId with
  | none => [.notOnInvoice line.itemId]
  | some itemTerms =>
      let priceProblem := match line.unitPrice with
        | none => []
        | some sent =>
            if isInvoiceNetUnitPrice sent itemTerms.netUnitPrice ||
                (completionPrices.lookup line.itemId).any (isInvoiceNetUnitPrice sent) then []
            else [.price line.itemId sent itemTerms.netUnitPrice]
      let discountProblem := match line.discount with
        | none => []
        | some sent => if sent = 0 then [] else [.discount line.itemId sent]
      priceProblem ++ discountProblem

/-- A sent line at the invoice's net price. -/
def pricedLine (terms : ItemId → Option ReturnItemTerms) (line : ReturnLineInput) : DocumentLine :=
  ⟨line.itemId, line.quantity, ((terms line.itemId).map ReturnItemTerms.netUnitPrice).getD 0, 0⟩

/-- `enforceReturnInvoiceTerms`: the lines of the return at the invoice's terms. -/
def enforceReturnInvoiceTerms (invoice : SalesInvoice) (earlier : List DocumentLine)
    (currency : Option String) (rate : Option ℚ) (lines : List ReturnLineInput) :
    Except ReturnError (List DocumentLine) := do
  let terms := invoiceReturnTerms invoice.lines
  ensure (∀ sent ∈ currency, sent = invoice.currency)
    (.currencyMismatch (currency.getD "") invoice.currency)
  ensure (¬invoice.isRial → 0 < invoice.exchangeRate → ∀ sent ∈ rate, sent = invoice.exchangeRate)
    (.exchangeRateMismatch (rate.getD 0) invoice.exchangeRate)
  let asked := lines.map fun l => (⟨l.itemId, l.quantity, 0, 0⟩ : DocumentLine)
  let completionPrices := (completeReturnLines asked terms earlier).completionPrices
  let problems := lines.flatMap (lineProblems terms completionPrices)
  ensure (problems = []) (.priceMismatch problems)
  return (completeReturnLines (lines.map (pricedLine terms)) terms earlier).lines

/-! ## The share of the invoice's VAT -/

/-- `shareOf` in `resolveReturnVatFromInvoice`: the VAT that belongs to a returned
net amount. -/
def vatShare (invoice : SalesInvoice) (net : ℚ) : ℚ :=
  let invoiceNet := computeNetAmount invoice.lines
  if invoiceNet ≤ 0 ∨ invoice.vatAmount ≤ 0 then 0
  else
    let share := FinancialDecimal.round
      (FinancialDecimal.divide (invoice.vatAmount * net) invoiceNet 12)
      (currencyScale invoice.currency)
    if invoice.vatAmount < share then invoice.vatAmount else share

structure DocumentVat where
  vatPercent : ℚ
  vatAmount : ℚ

/-- `resolveReturnVatFromInvoice`; `earlierNet` is the net of the other live final
returns. -/
def resolveReturnVatFromInvoice (invoice : SalesInvoice) (earlierNet : ℚ)
    (lines : List DocumentLine) (input : VatInput) : Except VatError DocumentVat := do
  let diff := vatShare invoice (earlierNet + computeNetAmount lines) - vatShare invoice earlierNet
  let vatAmount := if diff < 0 then 0 else diff
  let sent ← parseVatInput input
  ensure ((∀ percent ∈ sent.vatPercent, percent = invoice.vatPercent) ∧
      ∀ amount ∈ sent.vatAmount,
        FinancialDecimal.round amount 4 = FinancialDecimal.round vatAmount 4)
    (.returnVatMismatch invoice.vatPercent vatAmount)
  return ⟨invoice.vatPercent, money (FinancialDecimal.round vatAmount 4)⟩

/-! ## The returns of one invoice -/

structure SalesReturn where
  id : ℕ
  lines : List DocumentLine
  vatAmount : ℚ
  isDeleted : Bool

namespace SalesReturn

def net (r : SalesReturn) : ℚ := computeNetAmount r.lines

end SalesReturn

structure ReturnState where
  returns : List SalesReturn
  nextId : ℕ

namespace ReturnState

def initial : ReturnState := ⟨[], 1⟩

def live (s : ReturnState) : List SalesReturn := s.returns.filter fun r => !r.isDeleted

/-- The net the live returns give back. -/
def liveNet (s : ReturnState) : ℚ := (s.live.map SalesReturn.net).sum

/-- The VAT the live returns give back. -/
def liveVat (s : ReturnState) : ℚ := (s.live.map SalesReturn.vatAmount).sum

end ReturnState

/-- `RETURN_QTY_TOLERANCE`. -/
def RETURN_QTY_TOLERANCE : ℚ := 1 / 10 ^ 9

def quantityOf (lines : List DocumentLine) (itemId : ItemId) : ℚ :=
  ((lines.filter fun l => decide (l.itemId = itemId)).map DocumentLine.quantity).sum

theorem quantityOf_append (a b : List DocumentLine) (itemId : ItemId) :
    quantityOf (a ++ b) itemId = quantityOf a itemId + quantityOf b itemId := by
  simp [quantityOf]

/-- `assertReturnWithinSold`. -/
def assertReturnWithinSold (invoice : SalesInvoice) (earlier lines : List DocumentLine) :
    Except ReturnError Unit :=
  let returnable itemId := quantityOf invoice.lines itemId - quantityOf earlier itemId
  match ((lines.map DocumentLine.itemId).dedup.insertionSort (· ≤ ·)).find? fun itemId =>
      decide (RETURN_QTY_TOLERANCE < quantityOf lines itemId - returnable itemId) with
  | none => .ok ()
  | some itemId => .error (.overReturned itemId (quantityOf lines itemId) (returnable itemId))

/-- A movement of no goods is refused. -/
def assertPositiveQuantities (lines : List DocumentLine) : Except ReturnError Unit :=
  match lines.find? fun l => decide (l.quantity ≤ 0) with
  | none => .ok ()
  | some l => .error (.quantityNotPositive l.itemId)

/-- A request about the returns of the invoice. -/
inductive ReturnOperation where
  /-- a return recorded as final -/
  | record (lines : List ReturnLineInput) (currency : Option String) (rate : Option ℚ)
      (vat : VatInput)
  /-- the draft of a return, with its stored lines, made final -/
  | finalize (draft : List DocumentLine) (currency : String) (rate : Option ℚ) (vat : VatInput)
  /-- the void of a return; `otherGuardsPass` stands for the stock and year guards -/
  | void (id : ℕ) (otherGuardsPass : Bool)

/-- A final return with the given lines. -/
def addReturn (invoice : SalesInvoice) (s : ReturnState) (lines : List DocumentLine)
    (input : VatInput) : Except ReturnError ReturnState := do
  assertReturnWithinSold invoice (s.live.flatMap SalesReturn.lines) lines
  match resolveReturnVatFromInvoice invoice s.liveNet lines input with
  | .error e => .error (.vat e)
  | .ok vat => .ok ⟨s.returns ++ [⟨s.nextId, lines, vat.vatAmount, false⟩], s.nextId + 1⟩

def returnStep (invoice : SalesInvoice) (s : ReturnState) :
    ReturnOperation → Except ReturnError ReturnState
  | .record sent currency rate input => do
      let lines ← enforceReturnInvoiceTerms invoice (s.live.flatMap SalesReturn.lines) currency rate
        sent
      assertPositiveQuantities lines
      addReturn invoice s lines input
  | .finalize draft currency rate input => do
      -- the stored lines are checked against the invoice and kept
      let _ ← enforceReturnInvoiceTerms invoice (s.live.flatMap SalesReturn.lines) (some currency)
        rate (draft.map fun l => ⟨l.itemId, l.quantity, some l.unitPrice, some l.discount⟩)
      assertPositiveQuantities draft
      addReturn invoice s draft input
  | .void id otherGuardsPass => do
      ensure (∃ r ∈ s.live, r.id = id) (.notFound id)
      ensure (otherGuardsPass = true) .refusedElsewhere
      return { s with
        returns := s.returns.map fun r => if r.id = id then { r with isDeleted := true } else r }

end PapitalErp
