import PapitalErp.FinancialDecimal
import PapitalErp.Lib.FilteredSums
import PapitalErp.Reports.AgingReport

/-!
# The sales documents and the vouchers that the management reports read

The rows behind `vatReportQuery.ts` and `salesReportQuery.ts`: documents with
their lines, journal vouchers with their items. A document's date is a timestamp,
in microseconds; the reports bound it by days. The date of a voucher is an ISO
text (`chk_journal_vouchers_date_datefmt`), read as its day number. Columns that
are only shown are left out.
-/

namespace PapitalErp.SalesReports

open FilteredSums

structure ReportRange where
  fromDay : ℤ
  toDay : ℤ

def ReportRange.holds (range : ReportRange) (day : ℤ) : Bool :=
  range.fromDay ≤ day && day ≤ range.toDay

def microsecondsPerDay : ℤ := 86400000000

/-- A row of `documents`. -/
structure Document where
  id : ℕ
  type : String
  status : String
  date : ℤ
  currency : Option String
  exchangeRate : Option MoneyColumn
  vatPercent : ℚ
  vatAmount : MoneyColumn
  isDeleted : Bool

/-- A row of `document_items`. -/
structure DocumentItem where
  documentId : ℕ
  itemId : ℕ
  quantity : ℚ
  unitPrice : Option MoneyColumn
  discount : Option MoneyColumn
  isDeleted : Bool

/-- `d.date::date`. -/
def Document.day (d : Document) : ℤ := d.date / microsecondsPerDay

/-- `d.date >= from::date AND d.date < to::date + 1`. -/
def Document.within (d : Document) (range : ReportRange) : Bool :=
  range.fromDay * microsecondsPerDay ≤ d.date && d.date < (range.toDay + 1) * microsecondsPerDay

/-- The bounds on the timestamp are bounds on its day. -/
theorem Document.within_eq (d : Document) (range : ReportRange) :
    d.within range = range.holds d.day := by
  have positive : (0 : ℤ) < microsecondsPerDay := by decide
  have first := Int.le_ediv_iff_mul_le (a := range.fromDay) (b := d.date) positive
  have last := Int.ediv_lt_iff_lt_mul (a := d.date) (b := range.toDay + 1) positive
  have upTo := Int.lt_add_one_iff.symm.trans last
  simp only [within, ReportRange.holds, Document.day, first, upTo]

def salesDocumentTypes : List String := ["invoice", "proforma", "return"]

/-- A live final sales document or sales return. -/
def Document.counted (d : Document) : Bool :=
  !d.isDeleted && d.status == "final" && salesDocumentTypes.contains d.type

/-- `kind` is `'return'`; every other one is `'sale'`. -/
def Document.isReturn (d : Document) : Bool := d.type == "return"

/-- `UPPER(COALESCE(NULLIF(btrim(d.currency), ''), 'IRR'))`. -/
def Document.reportCurrency (d : Document) : String :=
  ((Aging.nonBlank (d.currency.map Aging.btrim)).getD "IRR").toUpper

/-- `NULLIF(d.exchange_rate, 0)`. -/
def Document.rate (d : Document) : Option ℚ :=
  (d.exchangeRate.map Subtype.val).filter fun rate => rate ≠ 0

/-- `di.quantity * COALESCE(di.unit_price, 0)`. -/
def DocumentItem.gross (di : DocumentItem) : ℚ :=
  di.quantity * (di.unitPrice.elim 0 Subtype.val)

/-- `COALESCE(di.discount, 0)`. -/
def DocumentItem.discountAmount (di : DocumentItem) : ℚ := di.discount.elim 0 Subtype.val

/-- A row of `journal_vouchers`. -/
structure JournalVoucher extends Aging.JournalVoucher where
  id : ℕ
  voucherType : String
  referenceId : Option ℕ
  referenceNumber : Option String
  sourceDocumentId : Option ℕ
  sourceChequeId : Option ℕ

/-- A row of `journal_voucher_items`; its amounts are columns of four decimals. -/
structure JournalVoucherItem extends Aging.JournalVoucherItem where
  voucherId : ℕ
  debitScale : Rounding.AtScale 4 debit
  creditScale : Rounding.AtScale 4 credit

end PapitalErp.SalesReports
