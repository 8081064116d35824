import PapitalErp.Reports.SalesReport

/-!
# The automatic vouchers of sales and returns

The items that `syncSalesInvoiceVoucher` and the return branch of
`syncWarehouseDocumentVoucher` post for a document, each refusal of theirs a `none`.
The pairs of items that move the cost between inventory and cost of sales are left
out: they are on accounts of their own. A rate sent with the finalizing is stored on
the document first, so that it is the document's.
-/

namespace PapitalErp.Sales

open FilteredSums Rounding SalesReports

/-- An item of a voucher as the ledger reads it: with its day, its currency and its
rate. -/
structure Entry where
  accountId : ℕ
  day : ℤ
  debit : ℚ
  credit : ℚ
  currency : String
  rate : ℚ
  deriving DecidableEq

def LedgerRow.entry (row : LedgerRow) : Entry where
  accountId := row.item.accountId
  day := row.voucher.day
  debit := row.item.debit
  credit := row.item.credit
  currency := Aging.voucherItemCurrency row.aging
  rate := Aging.voucherItemRate row.aging

/-- What the documents are posted with besides themselves: the accounts, and the
rates that the settings keep for a currency. -/
structure Posting where
  accounts : SalesAccounts
  exchangeRateSetting : String → Option ℚ

/-- `(doc.currency || 'IRR').toUpperCase()`. -/
def voucherCurrency (d : SalesDocument) : String :=
  ((Aging.nonBlank d.currency).getD "IRR").toUpper

/-- `resolveVoucherExchangeRate`. -/
def resolveVoucherExchangeRate (posting : Posting) (d : SalesDocument) : Option ℚ :=
  if voucherCurrency d = "IRR" then some 1
  else ((d.exchangeRate.map Subtype.val).filter fun rate => 0 < rate).or
    ((posting.exchangeRateSetting (voucherCurrency d)).filter fun rate => 0 < rate)

/-- `moneyOr(item.exchangeRate, 1)`. -/
def storedRate (rate : ℚ) : ℚ := if money rate = 0 then 1 else money rate

/-- An item on an account, if the account is there and the amount is positive. -/
def itemIf (amount : ℚ) (account : Option ℕ) (entry : ℕ → Entry) : List Entry :=
  if 0 < amount then account.toList.map entry else []

def debitEntry (d : SalesDocument) (rate amount : ℚ) (account : ℕ) : Entry where
  accountId := account
  day := d.day
  debit := amount
  credit := 0
  currency := voucherCurrency d
  rate := storedRate rate

def creditEntry (d : SalesDocument) (rate amount : ℚ) (account : ℕ) : Entry where
  accountId := account
  day := d.day
  debit := 0
  credit := amount
  currency := voucherCurrency d
  rate := storedRate rate

/-- `grossAmount` and `totalDiscount`, before they are rounded. -/
def grossOf (books : Books) (d : SalesDocument) : ℚ :=
  ((linesOf books d.id).map DocumentItem.gross).sum

def discountOf (books : Books) (d : SalesDocument) : ℚ :=
  ((linesOf books d.id).map DocumentItem.discountAmount).sum

/-- A positive amount without its account: the voucher would not balance. -/
def unmapped (amount : ℚ) (account : Option ℕ) : Bool := 0 < amount && account.isNone

/-- `syncSalesInvoiceVoucher`. -/
def salesEntries (books : Books) (posting : Posting) (d : SalesDocument) : Option (List Entry) :=
  let accounts := posting.accounts
  let grossAmount := money (grossOf books d)
  let totalDiscount := money (discountOf books d)
  let netAmount := max (grossAmount - totalDiscount) 0
  let vatAmount := money d.vatAmount
  let serviceChargeAmount := money d.serviceChargeAmount
  let finalPayable := money (netAmount + vatAmount + serviceChargeAmount)
  if (linesOf books d.id).isEmpty then none
  else if accounts.receivables.isNone || accounts.revenue.isNone then none
  else if unmapped totalDiscount accounts.discount || unmapped vatAmount accounts.vat ||
      unmapped serviceChargeAmount accounts.service then none
  else (resolveVoucherExchangeRate posting d).map fun rate =>
    itemIf finalPayable accounts.receivables (debitEntry d rate finalPayable) ++
    itemIf totalDiscount accounts.discount (debitEntry d rate totalDiscount) ++
    itemIf grossAmount accounts.revenue (creditEntry d rate grossAmount) ++
    itemIf vatAmount accounts.vat (creditEntry d rate vatAmount) ++
    itemIf serviceChargeAmount accounts.service (creditEntry d rate serviceChargeAmount)

/-- The return branch of `syncWarehouseDocumentVoucher`. -/
def returnEntries (books : Books) (posting : Posting) (d : SalesDocument) : Option (List Entry) :=
  let accounts := posting.accounts
  let totalReturnAmount := money
    (((linesOf books d.id).map fun di => di.gross - di.discountAmount).sum)
  let returnVat := money d.vatAmount
  let customerReturnCredit := money (totalReturnAmount + returnVat)
  if (linesOf books d.id).isEmpty then none
  else (resolveVoucherExchangeRate posting d).bind fun rate =>
    if accounts.returns.isNone || accounts.receivables.isNone then none
    else if unmapped returnVat accounts.vat then none
    else some
      (itemIf totalReturnAmount accounts.returns (debitEntry d rate totalReturnAmount) ++
      itemIf returnVat accounts.vat (debitEntry d rate returnVat) ++
      itemIf customerReturnCredit accounts.receivables (creditEntry d rate customerReturnCredit))

/-- The items of a document's automatic voucher. -/
def autoEntries (books : Books) (posting : Posting) (d : SalesDocument) : Option (List Entry) :=
  if d.isReturn then returnEntries books posting d else salesEntries books posting d

def countedDocs (books : Books) : List SalesDocument :=
  books.documents.filter fun d => d.counted

def onCheck (accounts : SalesAccounts) (e : Entry) : Bool :=
  (checkAccounts accounts).contains e.accountId

/-- No document was voided and the automatic vouchers are unchanged: every counted
document has its voucher, and on the accounts of the check the ledger has the items
of these vouchers and no other ones. -/
structure Unchanged (books : Books) (posting : Posting) : Prop where
  posted : ∀ d ∈ countedDocs books, (autoEntries books posting d).isSome
  items : ((checkRows books posting.accounts).map LedgerRow.entry).Perm
    (((countedDocs books).flatMap fun d => (autoEntries books posting d).getD []).filter
      (onCheck posting.accounts))

end PapitalErp.Sales
