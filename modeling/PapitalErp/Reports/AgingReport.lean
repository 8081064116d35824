import PapitalErp.Lib.OldestFirst
import PapitalErp.Lib.PrefixSums
import PapitalErp.Lib.Rounding
import PapitalErp.Lib.TrimmedText

/-!
# The aging of receivables and payables

`agingReportQuery.ts`, one definition for each part of the query: the ledger rows
it reads (`factsCte`), their parties, the running sums of the increasing rows,
what stays open on each, the age buckets, the cheques and the rows of the report.
Amounts are exact (`numeric`). A day is a day number: the query compares ISO
texts, whose order is that of the days. A row of the ledger is a voucher item
joined to its voucher. The names that are only shown, the sorting and the paging
are left out.
-/

namespace PapitalErp.Aging

open OldestFirst

inductive AgingKind where
  | receivable
  | payable

structure AgingScope where
  kind : AgingKind
  accountId : ℕ
  asOf : ℤ
  currency : String
  approvedOnly : Bool
  partyId : Option ℕ
  chequesApply : Bool

structure Account where
  id : ℕ
  parentId : Option ℕ

/-- A row of `customers`. -/
structure Party where
  id : ℕ
  name : String
  isDeleted : Bool

structure JournalVoucher where
  day : ℤ
  voucherNumber : ℤ
  status : String
  currency : Option String
  sourceFiscalYear : Option ℕ
  isDeleted : Bool

structure JournalVoucherItem where
  id : ℕ
  accountId : ℕ
  rowOrder : Option ℤ
  debit : ℚ
  credit : ℚ
  detailedType : String
  detailedId : Option ℕ
  detailedName : Option String
  currency : Option String
  exchangeRate : Option ℚ
  isDeleted : Bool

structure LedgerRow where
  item : JournalVoucherItem
  voucher : JournalVoucher

structure Cheque where
  type : String
  partyType : String
  partyId : Option ℕ
  currency : Option String
  status : String
  issueDay : ℤ
  amount : ℚ
  isDeleted : Bool

/-- The tables the report reads; item ids are the primary key. -/
structure Books where
  accounts : List Account
  parties : List Party
  ledger : List LedgerRow
  cheques : List Cheque
  distinct : (ledger.map fun row => row.item.id).Nodup

/-! ## The amount of a row -/

def isAllCurrenciesView (currency : String) : Bool := currency == "" || currency == "all"

/-- `NULLIF(text, '')`. -/
def nonBlank (text : Option String) : Option String := text.filter fun s => s ≠ ""

def voucherItemCurrency (row : LedgerRow) : String :=
  (((nonBlank row.item.currency).or (nonBlank row.voucher.currency)).getD "IRR").toUpper

def voucherItemRate (row : LedgerRow) : ℚ :=
  (row.item.exchangeRate.filter fun rate => rate ≠ 0).getD 1

def voucherItemReportAmount (column : ℚ) (row : LedgerRow) (currency : String) : ℚ :=
  if isAllCurrenciesView currency then
    if voucherItemCurrency row = "IRR" then column
    else Rounding.roundHalfUp 0 (column * voucherItemRate row)
  else column

def voucherItemCurrencyCondition (row : LedgerRow) (currency : String) : Bool :=
  isAllCurrenciesView currency || voucherItemCurrency row == currency.toUpper

/-- The amount of a row on the side that increases the balance. -/
def signedAmount (scope : AgingScope) (row : LedgerRow) : ℚ :=
  let debit := voucherItemReportAmount row.item.debit row scope.currency
  let credit := voucherItemReportAmount row.item.credit row scope.currency
  match scope.kind with
  | .receivable => debit - credit
  | .payable => credit - debit

/-! ## The rows the report reads -/

/-- The accounts found so far with the children of one of them. -/
def withChildren (accounts : List Account) (found : List ℕ) : List ℕ :=
  found ++ (accounts.filter fun a =>
    a.parentId.any (found.contains ·) && !found.contains a.id).map Account.id

/-- `accountSubtreeCondition`: the recursion adds nothing after as many rounds as
there are accounts. -/
def accountSubtree (accounts : List Account) (root : ℕ) : List ℕ :=
  (withChildren accounts)^[accounts.length]
    ((accounts.filter fun a => a.id == root).map Account.id)

def countedStatuses (scope : AgingScope) : List String :=
  if scope.approvedOnly then ["approved", "permanent"] else ["approved", "permanent", "draft"]

/-- The live rows of live vouchers on the account and below it. -/
def onAccount (scope : AgingScope) (books : Books) (row : LedgerRow) : Bool :=
  !row.item.isDeleted && !row.voucher.isDeleted &&
    (accountSubtree books.accounts scope.accountId).contains row.item.accountId &&
    (countedStatuses scope).contains row.voucher.status &&
    voucherItemCurrencyCondition row scope.currency

/-- A voucher of a year's closing, or the opening voucher after it. -/
def ofClosingRun (row : LedgerRow) : Bool := row.voucher.sourceFiscalYear.isSome

def partyTypes : List String := ["customer", "supplier"]

/-- `btrim`: only spaces. -/
def btrim (text : String) : String := TrimmedText.trim (· == ' ') text

/-- Live parties come before deleted ones, then the lowest id. -/
def Party.before (a b : Party) : Bool :=
  if a.isDeleted = b.isDeleted then a.id ≤ b.id else b.isDeleted

/-- `aging_legacy`: the party of a trimmed name. -/
def agingLegacy (parties : List Party) (name : String) : Option ℕ :=
  ((parties.filter fun p => btrim p.name == name).insertionSort
    fun a b => a.before b).head?.map Party.id

/-- `party_id` of a row: its own party, or the one its name leads to. -/
def partyIdOf (books : Books) (item : JournalVoucherItem) : Option ℕ :=
  if partyTypes.contains item.detailedType then
    match item.detailedId with
    | some id => some id
    | none => item.detailedName.bind fun name => agingLegacy books.parties (btrim name)
  else none

/-- A row of `aging_facts`. -/
structure Fact where
  partyId : Option ℕ
  detailName : Option String
  day : ℤ
  vno : ℤ
  ro : ℤ
  rid : ℕ
  amt : ℚ
  isDraft : Bool

def agingFact (scope : AgingScope) (books : Books) (row : LedgerRow) : Fact where
  partyId := partyIdOf books row.item
  detailName := nonBlank (some (btrim (row.item.detailedName.getD "")))
  day := row.voucher.day
  vno := row.voucher.voucherNumber
  ro := row.item.rowOrder.getD 0
  rid := row.item.id
  amt := signedAmount scope row
  isDraft := row.voucher.status == "draft"

def agingFacts (scope : AgingScope) (books : Books) : List Fact :=
  (books.ledger.filter fun row => onAccount scope books row && !ofClosingRun row).map
    (agingFact scope books)

/-- `g_key`: `'p'` and the party, or `'n'` and the name. -/
inductive GroupKey where
  | party (id : ℕ)
  | name (text : String)
  deriving DecidableEq

def Fact.gKey (fact : Fact) : GroupKey :=
  match fact.partyId with
  | some id => .party id
  | none => .name (fact.detailName.getD "")

def agingDated (scope : AgingScope) (books : Books) : List Fact :=
  (agingFacts scope books).filter fun fact => fact.day ≤ scope.asOf

/-- The rows of one group. -/
def agingGroup (scope : AgingScope) (books : Books) (key : GroupKey) : List Fact :=
  (agingDated scope books).filter fun fact => fact.gKey = key

/-! ## What stays open -/

/-- `ORDER BY d.day, d.vno, d.ro, d.rid`. -/
def Fact.order (fact : Fact) : ℤ ×ₗ ℤ ×ₗ ℤ ×ₗ ℕ :=
  toLex (fact.day, toLex (fact.vno, toLex (fact.ro, fact.rid)))

def Fact.older (a b : Fact) : Prop := a.order ≤ b.order

instance : DecidableRel Fact.older := fun a b => inferInstanceAs (Decidable (a.order ≤ b.order))

def Fact.increases (fact : Fact) : Bool := 0 < fact.amt

def balanceOf (rows : List Fact) : ℚ := (rows.map Fact.amt).sum

def settledOf (rows : List Fact) : ℚ := (rows.map fun d => if d.amt < 0 then -d.amt else 0).sum

/-- The increasing rows, the oldest first. -/
def openRows (rows : List Fact) : List (Fact × ℚ) :=
  ((rows.filter Fact.increases).insertionSort Fact.older).map fun d => (d, d.amt)

/-- `aging_open`: each increasing row with `cum`, the sum of the window up to it. -/
def agingOpen (rows : List Fact) : List (Fact × ℚ × ℚ) := running 0 (openRows rows)

/-- `rem` of each row: `GREATEST(LEAST(o.cum - g.settled, o.amt), 0)`. -/
def agingRemaining (rows : List Fact) : List (Fact × ℚ) :=
  (agingOpen rows).map fun o => (o.1, max (min (o.2.2 - settledOf rows) o.2.1) 0)

def ageOf (scope : AgingScope) (fact : Fact) : ℤ := scope.asOf - fact.day

inductive AgingBucket where
  | upTo30
  | upTo60
  | upTo90
  | upTo180
  | over180
  deriving DecidableEq

/-- `AGING_BUCKETS`. -/
def agingBuckets : List AgingBucket := [.upTo30, .upTo60, .upTo90, .upTo180, .over180]

/-- The first and the last age of a bucket. -/
def AgingBucket.range : AgingBucket → ℤ × Option ℤ
  | .upTo30 => (0, some 30)
  | .upTo60 => (31, some 60)
  | .upTo90 => (61, some 90)
  | .upTo180 => (91, some 180)
  | .over180 => (181, none)

def AgingBucket.holds (bucket : AgingBucket) (age : ℤ) : Prop :=
  bucket.range.1 ≤ age ∧ ∀ last ∈ bucket.range.2, age ≤ last

instance (bucket : AgingBucket) (age : ℤ) : Decidable (bucket.holds age) :=
  inferInstanceAs (Decidable (_ ∧ _))

def bucketSum (scope : AgingScope) (rows : List Fact) (bucket : AgingBucket) : ℚ :=
  (((agingRemaining rows).filter fun x => bucket.holds (ageOf scope x.1)).map Prod.snd).sum

/-! ## Cheques -/

def agingPendingChequeStatuses : List String :=
  ["received", "in_treasury", "in_safe", "in_collection"]

def chequeTypeOf : AgingKind → String
  | .receivable => "received"
  | .payable => "paid"

def chequeStatuses : AgingKind → List String
  | .receivable => agingPendingChequeStatuses ++ ["bounced"]
  | .payable => agingPendingChequeStatuses

/-- The cheques behind `aging_cheques`, with their party. -/
def agingCheques (scope : AgingScope) (books : Books) : List (ℕ × Cheque) :=
  if scope.chequesApply then
    (books.cheques.filter fun q =>
      !q.isDeleted && q.type == chequeTypeOf scope.kind && partyTypes.contains q.partyType &&
        ((nonBlank q.currency).getD "IRR").toUpper == "IRR" &&
        (chequeStatuses scope.kind).contains q.status && q.issueDay ≤ scope.asOf).filterMap
      fun q => q.partyId.map fun id => (id, q)
  else []

/-- The amounts of one group's cheques whose status is asked for. -/
def chequeSum (scope : AgingScope) (books : Books) (key : GroupKey) (asked : String → Bool) : ℚ :=
  (((agingCheques scope books).filter fun q =>
    GroupKey.party q.1 = key && asked q.2.status).map fun q => q.2.amount).sum

/-! ## The rows of the report -/

structure AgingRow where
  gKey : GroupKey
  balance : ℚ
  buckets : AgingBucket → ℚ
  advance : ℚ
  draft : ℚ
  pending : ℚ
  bounced : ℚ

/-- One row; a group without ledger rows or without cheques has zeros there. -/
def agingRow (scope : AgingScope) (books : Books) (key : GroupKey) : AgingRow :=
  let rows := agingGroup scope books key
  { gKey := key
    balance := balanceOf rows
    buckets := bucketSum scope rows
    advance := max (-balanceOf rows) 0
    draft := balanceOf (rows.filter Fact.isDraft)
    pending := chequeSum scope books key agingPendingChequeStatuses.contains
    bounced := chequeSum scope books key (· == "bounced") }

/-- The groups of `aging_groups FULL OUTER JOIN aging_cheques`. -/
def agingKeys (scope : AgingScope) (books : Books) : List GroupKey :=
  ((agingDated scope books).map Fact.gKey ++
    (agingCheques scope books).map fun q => GroupKey.party q.1).dedup

def agingRows (scope : AgingScope) (books : Books) : List AgingRow :=
  ((agingKeys scope books).map (agingRow scope books)).filter fun row =>
    (row.balance ≠ 0 || row.pending ≠ 0 || row.bounced ≠ 0) &&
      scope.partyId.all fun id => row.gKey = GroupKey.party id

/-- `balance` of `agingTotalsSql`. -/
def totalBalance (scope : AgingScope) (books : Books) : ℚ :=
  ((agingRows scope books).map AgingRow.balance).sum

/-! ## The ledger -/

/-- The balance up to the report's day of the rows asked for, on the accounts covered. -/
def ledgerSum (scope : AgingScope) (books : Books) (asked : LedgerRow → Bool) : ℚ :=
  ((books.ledger.filter fun row =>
    onAccount scope books row && row.voucher.day ≤ scope.asOf && asked row).map
      (signedAmount scope)).sum

/-- The balance of the accounts covered, the vouchers of closing runs left out. -/
def ledgerBalance (scope : AgingScope) (books : Books) : ℚ :=
  ledgerSum scope books fun row => !ofClosingRun row

end PapitalErp.Aging
