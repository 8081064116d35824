import PapitalErp.Lib.FilteredSums
import PapitalErp.Treasury.ChequeTransitions
import PapitalErp.Documents.DocumentVat

/-!
# What is left to settle on a document

A document is settled by the receipts or payments linked to it directly and by
the parts of receipts, payments and cheques put on it. What is left is its
payable amount less what settles it and less its final returns. A part counts
while it is not replaced and its source is live.

Party names and currency codes stand here as the source compares them (trimmed,
in upper case). Amounts that the source carries as JavaScript numbers are exact.
-/

namespace PapitalErp

open Rounding Transition FilteredSums

inductive PartyType where
  | customer
  | supplier
  | personnel
  | other
  deriving DecidableEq

/-- The statuses the settlement rules tell apart; the draft stands for every other. -/
inductive DocumentStatus where
  | draft
  | proforma
  | final
  deriving DecidableEq

/-- What a row of `documents` and its active lines say about its amount and state. -/
structure DocumentTerms where
  status : DocumentStatus
  isDeleted : Bool
  partyId : Option ℕ
  buyerName : String
  currency : String
  lines : List DocumentLine
  vatAmount : ℚ
  serviceChargeAmount : ℚ

structure SettlementDocument extends DocumentTerms where
  id : DocumentId
  type : DocumentType
  returnOfDocumentId : Option DocumentId

inductive TreasuryType where
  | receipt
  | payment
  deriving DecidableEq

def TreasuryType.opposite : TreasuryType → TreasuryType
  | receipt => payment
  | payment => receipt

inductive TreasuryStatus where
  | completed
  | voided
  deriving DecidableEq

/-- A row of `treasury_transactions`. -/
structure TreasuryRow where
  id : ℕ
  type : TreasuryType
  amount : ℚ
  currency : String
  partyType : PartyType
  partyId : Option ℕ
  partyName : String
  documentId : Option DocumentId
  payrollId : Option ℕ
  reversalOfId : Option ℕ
  status : TreasuryStatus
  isDeleted : Bool

/-- The row linked to a document directly, or to none. -/
def TreasuryRow.link (r : TreasuryRow) (documentId : Option DocumentId) : TreasuryRow :=
  { r with documentId := documentId }

/-- A row of `cheques`. -/
structure Cheque where
  id : ℕ
  type : ChequeType
  amount : ℚ
  currency : String
  partyType : PartyType
  partyId : Option ℕ
  partyName : String
  status : Option ChequeStatus
  isDeleted : Bool

inductive AllocationSource where
  | treasury (id : ℕ)
  | cheque (id : ℕ)
  deriving DecidableEq

/-- A row of `settlement_allocations`. -/
structure SettlementAllocation where
  documentId : DocumentId
  source : AllocationSource
  amount : ℚ
  isDeleted : Bool

/-- The tables the settlement services read and write, with their serial columns. -/
structure SettlementState where
  documents : List SettlementDocument
  treasury : List TreasuryRow
  cheques : List Cheque
  allocations : List SettlementAllocation
  nextTreasuryId : ℕ
  nextChequeId : ℕ

/-! ## The amounts of a document -/

/-- The lines' net amount with VAT and service charge: what `documentEventAmounts`
says a document is payable for, and what `fetchReturnCredits` takes a return for. -/
def DocumentTerms.totalAmount (doc : DocumentTerms) : ℚ :=
  (doc.lines.map fun l => l.quantity * l.unitPrice - l.discount).sum + doc.vatAmount +
    doc.serviceChargeAmount

/-- A treasury row that is completed, not deleted and not a reversal. -/
def TreasuryRow.live (r : TreasuryRow) : Bool :=
  !r.isDeleted && decide (r.status = .completed) && decide (r.reversalOfId = none)

/-- A cheque that is not deleted, bounced or returned. -/
def Cheque.live (q : Cheque) : Bool := !q.isDeleted && !chequeLapsed q.status

namespace SettlementState

variable (s : SettlementState)

def document? (id : DocumentId) : Option SettlementDocument :=
  s.documents.find? fun doc => decide (doc.id = id)

def sourceLive : AllocationSource → Bool
  | .treasury id => s.treasury.any fun r => decide (r.id = id) && r.live
  | .cheque id => s.cheques.any fun q => decide (q.id = id) && q.live

/-- `liveAllocationCondition`. -/
def liveAllocation (a : SettlementAllocation) : Bool := !a.isDeleted && s.sourceLive a.source

/-- `allocatedAmountOf`. -/
def allocatedAmountOf (id : DocumentId) : ℚ :=
  sumWhere (fun a => decide (a.documentId = id) && s.liveAllocation a)
    SettlementAllocation.amount s.allocations

/-- The treasury rows linked to a document directly. -/
def settlementRows (id : DocumentId) : List TreasuryRow :=
  s.treasury.filter fun r => decide (r.documentId = some id) && !r.isDeleted

/-- `fetchReturnCredits(...).get(id)`. -/
def returned (id : DocumentId) : ℚ :=
  sumWhere (fun doc : SettlementDocument => decide (doc.returnOfDocumentId = some id) &&
      decide (doc.type = .salesReturn) && decide (doc.status = .final) && !doc.isDeleted)
    (fun doc => doc.totalAmount) s.documents

end SettlementState

/-- `PURCHASE_SETTLED_TYPES`. -/
def purchaseSettledTypes : List DocumentType := [.purchase, .receipt]

/-- What a row adds to a document that rows of type `settling` settle. -/
def TreasuryRow.settles (t : TreasuryRow) (settling : TreasuryType) : ℚ :=
  if t.type = settling then t.amount else -t.amount

theorem TreasuryRow.settles_le {t : TreasuryRow} (nonneg : 0 ≤ t.amount)
    (settling : TreasuryType) : t.settles settling ≤ t.amount := by
  unfold settles
  split <;> linarith

theorem TreasuryRow.atScale_settles {t : TreasuryRow} (scale : AtScale 4 t.amount)
    (settling : TreasuryType) : AtScale 4 (t.settles settling) := by
  unfold settles
  split
  · exact scale
  · exact scale.neg

/-- `settledAmount`: what the direct rows of one document settle. A voided row counts
when the row that reverses it is among them. -/
def settledAmount (rows : List TreasuryRow) (isPurchase : Bool) : ℚ :=
  let settling : TreasuryType := if isPurchase then .payment else .receipt
  let reversed := rows.filterMap TreasuryRow.reversalOfId
  sumWhere (fun t => decide (t.status = .completed) ||
      (decide (t.status = .voided) && reversed.contains t.id))
    (fun t => t.settles settling) rows

/-- The result of `readDocumentPayableAndSettled`. -/
structure DocumentRemaining where
  payable : ℚ
  settled : ℚ
  returned : ℚ

namespace SettlementState

variable (s : SettlementState)

/-- What the rows linked to a document directly settle of it. -/
def directAmount (doc : SettlementDocument) : ℚ :=
  settledAmount (s.settlementRows doc.id) (purchaseSettledTypes.contains doc.type)

/-- `readDocumentPayableAndSettled`. -/
def readDocumentPayableAndSettled (id : DocumentId) : Option DocumentRemaining :=
  (s.document? id).map fun doc =>
    ⟨doc.totalAmount, s.directAmount doc + s.allocatedAmountOf id, s.returned id⟩

end SettlementState

inductive SettlementError where
  | allocationInvalid
  | exceedsSource (total amount : ℚ)
  | partyInvalid
  | withDocument
  | amountNotPositive
  | amountScale (amount : ℚ)
  | documentInvalid (documentId : DocumentId)
  | documentPartyMismatch (documentId : DocumentId)
  | documentCurrencyMismatch (documentId : DocumentId)
  | documentNotIssued (documentId : DocumentId)
  | exceedsRemaining (payable settled returned remaining : ℚ)
  | sourceNotAllocatable
  | rowNotRelinkable
  | rowHasAllocations
  | notFound
  | conflict
  | refusedElsewhere

/-- `assertWithinDocumentRemaining`: a part (`exact`) compares with what is left at
four decimals, a direct link may pass it by 0.01. -/
def assertWithinDocumentRemaining (s : SettlementState) (documentId : DocumentId) (amount : ℚ)
    (exact : Bool) : Except SettlementError Unit :=
  match s.readDocumentPayableAndSettled documentId with
  | none => .ok ()
  | some doc =>
      let remaining := doc.payable - (if doc.settled < 0 then 0 else doc.settled) - doc.returned
      let exceeds :=
        if exact then
          decide (FinancialDecimal.round remaining 4 < FinancialDecimal.round amount 4)
        else decide (remaining + 1 / 100 < amount)
      ensure (exceeds = false)
        (.exceedsRemaining doc.payable doc.settled doc.returned (max 0 remaining))

/-! ## What an accepted amount leaves on the document -/

/-- What settles the document, by direct links and live parts, fits into its payable
amount less its final returns, at the four decimals a part is stored with. -/
def DocumentRemaining.WithinPayable (doc : DocumentRemaining) : Prop :=
  doc.settled ≤ FinancialDecimal.round (doc.payable - doc.returned) 4

/-- What settles the document and its final returns fit into its payable amount, but
for the 0.01 a direct link may pass it by. -/
def DocumentRemaining.WithinSlack (doc : DocumentRemaining) : Prop :=
  doc.settled + doc.returned ≤ doc.payable + 1 / 100

/-- When the payable amount and the returns have four decimals, nothing is rounded:
the settlements and the returns together do not exceed the payable amount. -/
theorem DocumentRemaining.WithinPayable.exact {doc : DocumentRemaining} (h : doc.WithinPayable)
    (scale : AtScale 4 (doc.payable - doc.returned)) :
    doc.settled + doc.returned ≤ doc.payable := by
  unfold WithinPayable at h
  rw [round_four, money_of_atScale scale] at h
  linarith

/-- Rounding what is left after a stored amount is taken off a value that covers it. -/
theorem money_sub_of_atScale {x y : ℚ} (hy : AtScale 4 y) (nonneg : 0 ≤ y) (covers : y ≤ x) :
    money (x - y) = money x - y := by
  obtain ⟨k, rfl⟩ := hy
  have shift : (x - (k : ℚ) / 10 ^ 4) * 10 ^ 4 + 1 / 2 = x * 10 ^ 4 + 1 / 2 - (k : ℤ) := by
    ring
  have rest : 0 ≤ (x - (k : ℚ) / 10 ^ 4) * 10 ^ 4 :=
    mul_nonneg (sub_nonneg.mpr covers) (by norm_num)
  have whole : 0 ≤ x * 10 ^ 4 := mul_nonneg (nonneg.trans covers) (by norm_num)
  unfold money FinancialDecimal.round roundHalfUp nearestInt
  rw [if_pos rest, if_pos whole, shift, Int.floor_sub_intCast]
  push_cast
  ring

/-- An accepted part fits, whatever settled the document before. -/
theorem withinPayable_of_exact {payable settled returned amount : ℚ}
    (hs : AtScale 4 settled) (ha : AtScale 4 amount) (positive : 0 < amount)
    (accepted : money amount ≤ money (payable - (if settled < 0 then 0 else settled) - returned)) :
    settled + amount ≤ money (payable - returned) := by
  rw [money_of_atScale ha] at accepted
  split at accepted
  · rw [sub_zero] at accepted
    linarith
  · have nonneg := not_lt.mp ‹¬settled < 0›
    have order : payable - settled - returned = payable - returned - settled := by ring
    rw [order] at accepted
    by_cases covers : settled ≤ payable - returned
    · rw [money_sub_of_atScale hs nonneg covers] at accepted
      linarith
    · have : money (payable - returned - settled) ≤ 0 := by
        have := roundHalfUp_mono 4 (x := payable - returned - settled) (y := 0) (by linarith)
        rwa [roundHalfUp_zero] at this
      linarith

/-- An accepted direct link fits with its slack, whatever settled the document before. -/
theorem withinSlack_of_direct {payable settled returned amount : ℚ}
    (accepted : amount ≤ payable - (if settled < 0 then 0 else settled) - returned + 1 / 100) :
    settled + amount + returned ≤ payable + 1 / 100 := by
  split at accepted <;> linarith

end PapitalErp
