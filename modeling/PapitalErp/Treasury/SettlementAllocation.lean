import PapitalErp.Treasury.DocumentRemaining

/-!
# Settling documents

The operations that change what settles a document: a receipt or payment
recorded with a direct link or with parts, its move to another document, its
void, a new set of parts of a recorded source, and the life of a cheque. Each
holds the locks of its documents and of its source to the end of its
transaction, so any interleaving of them is a sequence of the steps below.

Documents change in services of their own; `recordDocument` and
`changeDocument` accept any such change, final returns among them, so what is
proved holds whatever those services allow. `refused` stands for the checks that
read other tables: permissions, open fiscal years, the bank account, the voucher
and the party's record, whose current name is `currentName`.
-/

namespace PapitalErp

open Rounding Transition FilteredSums

/-! ## Reading a request -/

/-- `decimalInput`: at most 14 whole digits and 4 decimals. -/
def DecimalInput (value : ℚ) : Prop := AtScale 4 value ∧ |value| < 10 ^ 14

instance (value : ℚ) : Decidable (DecimalInput value) := inferInstanceAs (Decidable (_ ∧ _))

structure SettlementAllocationInput where
  documentId : DocumentId
  amount : ℚ

/-- `MAX_SETTLEMENT_PARTS`. -/
def maxSettlementParts : ℕ := 50

/-- `settlementParts`, the schema of the parts in a request. -/
def settlementParts (parts : List SettlementAllocationInput) : Except SettlementError Unit :=
  ensure (∀ p ∈ parts, DecimalInput p.amount) .allocationInvalid

/-- `normalizeAllocations`. -/
def normalizeAllocations (parts : List SettlementAllocationInput) (sourceAmount : ℚ) :
    Except SettlementError (List SettlementAllocationInput) := do
  ensure (parts.length ≤ maxSettlementParts) .allocationInvalid
  ensure (∀ p ∈ parts, 0 < p.documentId) .allocationInvalid
  ensure (parts.map SettlementAllocationInput.documentId).Nodup .allocationInvalid
  ensure (∀ p ∈ parts, 0 < p.amount) .allocationInvalid
  let total := (parts.map SettlementAllocationInput.amount).sum
  ensure (total ≤ sourceAmount) (.exceedsSource total sourceAmount)
  return parts.insertionSort fun a b => a.documentId ≤ b.documentId

/-! ## The checks of a link -/

/-- What a part needs from its source to check its documents. -/
structure AllocationSourceParty where
  direction : TreasuryType
  partyType : PartyType
  partyId : Option ℕ
  partyName : String
  currency : String

/-- The party a receipt or a payment that settles documents is of. -/
def expectedParty : TreasuryType → PartyType
  | .receipt => .customer
  | .payment => .supplier

/-- `assertAllocatableParty`. -/
def assertAllocatableParty (direction : TreasuryType) (partyType : PartyType) :
    Except SettlementError Unit :=
  ensure (partyType = expectedParty direction) .partyInvalid

/-- `RECEIPT_DOCUMENT_TYPES` and `PAYMENT_DOCUMENT_TYPES`. -/
def linkableDocumentTypes : TreasuryType → List DocumentType
  | .receipt => [.invoice, .proforma]
  | .payment => [.purchase, .receipt]

/-- `assertTreasuryDocumentLink`. -/
def assertTreasuryDocumentLink (s : SettlementState) (link : AllocationSourceParty)
    (documentId : DocumentId) : Except SettlementError Unit :=
  match s.document? documentId with
  | none => .error (.documentInvalid documentId)
  | some doc => do
      ensure (doc.isDeleted = false) (.documentInvalid documentId)
      ensure (doc.type ∈ linkableDocumentTypes link.direction) (.documentInvalid documentId)
      ensure (link.partyType = expectedParty link.direction) (.documentPartyMismatch documentId)
      ensure (doc.currency = link.currency) (.documentCurrencyMismatch documentId)
      match doc.partyId, link.partyId with
      | some docParty, some party => ensure (party = docParty) (.documentPartyMismatch documentId)
      | _, _ => ensure (doc.buyerName = link.partyName) (.documentPartyMismatch documentId)

/-- `SETTLEABLE_DOCUMENT_STATUSES`. -/
def settleableDocumentStatuses : List DocumentStatus := [.final, .proforma]

/-- `assertSettleableDocumentStatus`: a draft takes no new part; one the source already
settles keeps that part or a smaller one. -/
def assertSettleableDocumentStatus (s : SettlementState) (documentId : DocumentId) (amount : ℚ)
    (keptAmount : Option ℚ) : Except SettlementError Unit :=
  match s.document? documentId with
  | none => .ok ()
  | some doc =>
      ensure (doc.status ∈ settleableDocumentStatuses ∨ ∃ kept ∈ keptAmount, amount ≤ kept)
        (.documentNotIssued documentId)

/-- `lockAndCheckAllocationTargets`. -/
def lockAndCheckAllocationTargets (s : SettlementState) (source : AllocationSourceParty)
    (parts : List SettlementAllocationInput) (kept : DocumentId → Option ℚ) :
    Except SettlementError Unit :=
  parts.forM fun part => do
    assertTreasuryDocumentLink s source part.documentId
    assertSettleableDocumentStatus s part.documentId part.amount (kept part.documentId)
    assertWithinDocumentRemaining s part.documentId part.amount true

/-- The checks of a new source's parts, when it has any. -/
def checkNewParts (s : SettlementState) (source : AllocationSourceParty)
    (parts : List SettlementAllocationInput) : Except SettlementError Unit :=
  if parts = [] then .ok ()
  else do
    assertAllocatableParty source.direction source.partyType
    lockAndCheckAllocationTargets s source parts fun _ => none

/-- A check of the linked document, when there is one. -/
def forDocument (documentId : Option DocumentId) (check : DocumentId → Except SettlementError Unit) :
    Except SettlementError Unit :=
  match documentId with
  | none => .ok ()
  | some document => check document

/-- The checks of a direct link to an issued document. -/
def checkDirectLink (s : SettlementState) (source : AllocationSourceParty) (amount : ℚ)
    (documentId : DocumentId) : Except SettlementError Unit := do
  assertTreasuryDocumentLink s source documentId
  assertSettleableDocumentStatus s documentId amount none
  assertWithinDocumentRemaining s documentId amount false

/-! ## The parts of a source -/

namespace SettlementState

variable (s : SettlementState)

/-- The parts of a source that are not replaced (`sourceAllocationViews`). -/
def sourceAllocations (source : AllocationSource) : List SettlementAllocation :=
  s.allocations.filter fun a => decide (a.source = source) && !a.isDeleted

/-- `insertAllocations`. -/
def insertAllocations (source : AllocationSource) (parts : List SettlementAllocationInput) :
    SettlementState :=
  { s with allocations := s.allocations ++
      parts.map fun p => ⟨p.documentId, source, money p.amount, false⟩ }

/-- `releaseSourceAllocations`. -/
def releaseSourceAllocations (source : AllocationSource) : SettlementState :=
  { s with allocations := s.allocations.map fun a =>
      if a.source = source then { a with isDeleted := true } else a }

def updateTreasury (id : ℕ) (update : TreasuryRow → TreasuryRow) : SettlementState :=
  { s with treasury := s.treasury.map fun r => if r.id = id then update r else r }

def updateCheque (id : ℕ) (update : Cheque → Cheque) : SettlementState :=
  { s with cheques := s.cheques.map fun q => if q.id = id then update q else q }

/-- A row of `treasury_transactions` with the next id. -/
def insertTreasury (row : TreasuryRow) : SettlementState :=
  { s with
    treasury := s.treasury ++ [{ row with id := s.nextTreasuryId }]
    nextTreasuryId := s.nextTreasuryId + 1 }

/-- A row of `cheques` with the next id. -/
def insertCheque (row : Cheque) : SettlementState :=
  { s with
    cheques := s.cheques ++ [{ row with id := s.nextChequeId }]
    nextChequeId := s.nextChequeId + 1 }

/-- The row with this id that is not deleted. -/
def treasuryRow (id : ℕ) : Except SettlementError TreasuryRow :=
  match s.treasury.find? fun r => decide (r.id = id) && !r.isDeleted with
  | none => .error .notFound
  | some row => .ok row

/-- The cheque with this id that is not deleted. -/
def chequeRow (id : ℕ) : Except SettlementError Cheque :=
  match s.cheques.find? fun q => decide (q.id = id) && !q.isDeleted with
  | none => .error .notFound
  | some cheque => .ok cheque

end SettlementState

/-- `keptAmounts`: what a source put on each document before, by its parts or by its
direct link. -/
def keptAmounts (before : List SettlementAllocation) (direct : Option (DocumentId × ℚ))
    (documentId : DocumentId) : Option ℚ :=
  match direct with
  | some (linked, amount) =>
      if linked = documentId then some amount
      else (before.find? fun a => decide (a.documentId = documentId)).map SettlementAllocation.amount
  | none =>
      (before.find? fun a => decide (a.documentId = documentId)).map SettlementAllocation.amount

/-! ## Receipts and payments -/

structure TreasuryRequest where
  type : TreasuryType
  amount : ℚ
  currency : String
  partyType : Option PartyType
  partyId : Option ℕ
  partyName : String
  currentName : Option String
  documentId : Option DocumentId
  allocations : List SettlementAllocationInput
  refused : Bool

/-- The row `postTreasuryRow` writes; its id comes from the table. -/
def TreasuryRequest.row (request : TreasuryRequest) : TreasuryRow :=
  { id := 0
    type := request.type
    amount := money request.amount
    currency := request.currency
    partyType := request.partyType.getD .other
    partyId := request.partyId
    partyName := request.partyName
    documentId := request.documentId
    payrollId := none
    reversalOfId := none
    status := .completed
    isDeleted := false }

/-- `createTreasuryTransaction`. -/
def createTreasuryTransaction (s : SettlementState) (request : TreasuryRequest) :
    Except SettlementError SettlementState := do
  ensure (DecimalInput request.amount) (.amountScale request.amount)
  settlementParts request.allocations
  ensure (0 < request.amount) .amountNotPositive
  let parts ← normalizeAllocations request.allocations request.amount
  ensure (parts = [] ∨ request.documentId = none) .withDocument
  let source : AllocationSourceParty :=
    { direction := request.type
      partyType := request.partyType.getD .other
      partyId := request.partyId
      partyName := request.currentName.getD request.partyName
      currency := request.currency }
  forDocument request.documentId (checkDirectLink s source request.amount)
  checkNewParts s source parts
  ensure (request.refused = false) .refusedElsewhere
  return (s.insertTreasury request.row).insertAllocations (.treasury s.nextTreasuryId) parts

/-- Every other row of the treasury (a payslip, a petty cash or remittance row, a side
of a transfer): no document and no parts. -/
structure OtherTreasuryRow where
  type : TreasuryType
  amount : ℚ
  currency : String
  partyType : PartyType
  partyId : Option ℕ
  partyName : String
  payrollId : Option ℕ

def postOtherRow (s : SettlementState) (row : OtherTreasuryRow) :
    Except SettlementError SettlementState := do
  ensure (0 < money row.amount) .amountNotPositive
  return s.insertTreasury
    { id := 0
      type := row.type
      amount := money row.amount
      currency := row.currency
      partyType := row.partyType
      partyId := row.partyId
      partyName := row.partyName
      documentId := none
      payrollId := row.payrollId
      reversalOfId := none
      status := .completed
      isDeleted := false }

/-- `relinkTreasuryDocument`. -/
def relinkTreasuryDocument (s : SettlementState) (id : ℕ) (documentId : Option DocumentId)
    (currentName : Option String) (refused : Bool) : Except SettlementError SettlementState := do
  let row ← s.treasuryRow id
  let source : AllocationSourceParty :=
    { direction := row.type
      partyType := row.partyType
      partyId := row.partyId
      partyName := currentName.getD row.partyName
      currency := row.currency }
  forDocument documentId (assertTreasuryDocumentLink s source)
  ensure (row.status = .completed ∧ row.reversalOfId = none) .rowNotRelinkable
  ensure (row.payrollId = none) .rowNotRelinkable
  ensure ((s.sourceAllocations (.treasury row.id)).isEmpty = true) .rowHasAllocations
  if row.documentId = documentId then return s
  else do
    forDocument documentId fun document => do
      assertSettleableDocumentStatus s document row.amount none
      assertWithinDocumentRemaining s document row.amount false
    ensure (refused = false) .refusedElsewhere
    return s.updateTreasury row.id fun r => r.link documentId

/-- The void of a receipt or payment: the row that reverses it keeps its links
(`reverseTreasuryRow`), and a reversing row is not voided. -/
def voidTreasuryTransaction (s : SettlementState) (id : ℕ) (refused : Bool) :
    Except SettlementError SettlementState := do
  let original ← s.treasuryRow id
  ensure (original.status ≠ .voided) .conflict
  ensure (original.payrollId = none) .refusedElsewhere
  ensure (original.reversalOfId = none) .conflict
  ensure (refused = false) .refusedElsewhere
  return (s.insertTreasury
    { original with
      type := original.type.opposite
      reversalOfId := some original.id
      status := .completed }).updateTreasury original.id fun r => { r with status := .voided }

/-- `replaceTreasuryAllocations`: the direct link gives way to the parts. -/
def replaceTreasuryAllocations (s : SettlementState) (id : ℕ)
    (allocations : List SettlementAllocationInput) (currentName : Option String)
    (refused : Bool) : Except SettlementError SettlementState := do
  settlementParts allocations
  let row ← s.treasuryRow id
  let parts ← normalizeAllocations allocations row.amount
  ensure (row.status = .completed ∧ row.reversalOfId = none ∧ row.payrollId = none)
    .sourceNotAllocatable
  assertAllocatableParty row.type row.partyType
  let before := s.sourceAllocations (.treasury row.id)
  ensure (refused = false) .refusedElsewhere
  let released := (s.releaseSourceAllocations (.treasury row.id)).updateTreasury row.id
    fun r => r.link none
  lockAndCheckAllocationTargets released
    { direction := row.type
      partyType := row.partyType
      partyId := row.partyId
      partyName := currentName.getD row.partyName
      currency := row.currency }
    parts (keptAmounts before (row.documentId.map fun document => (document, row.amount)))
  return released.insertAllocations (.treasury row.id) parts

/-! ## Cheques -/

structure ChequeRequest where
  type : ChequeType
  amount : ℚ
  currency : String
  partyType : Option PartyType
  partyId : Option ℕ
  partyName : String
  currentName : Option String
  allocations : List SettlementAllocationInput
  refused : Bool

/-- A paid cheque is a payment, a received one a receipt. -/
def ChequeType.direction : ChequeType → TreasuryType
  | .paid => .payment
  | .received => .receipt

/-- `partyType || (type === 'paid' ? 'supplier' : 'customer')`. -/
def chequePartyType (type : ChequeType) (partyType : Option PartyType) : PartyType :=
  partyType.getD (if type = .paid then .supplier else .customer)

/-- The first status of a cheque. -/
def initialChequeStatus (type : ChequeType) : ChequeStatus :=
  if type = .received then .received else .inTreasury

/-- The row `createCheque` writes; its id comes from the table. -/
def ChequeRequest.row (request : ChequeRequest) : Cheque :=
  { id := 0
    type := request.type
    amount := money request.amount
    currency := request.currency
    partyType := chequePartyType request.type request.partyType
    partyId := request.partyId
    partyName := request.partyName
    status := some (initialChequeStatus request.type)
    isDeleted := false }

/-- `createCheque`. -/
def createCheque (s : SettlementState) (request : ChequeRequest) :
    Except SettlementError SettlementState := do
  ensure (DecimalInput request.amount) (.amountScale request.amount)
  settlementParts request.allocations
  ensure (0 < request.amount) .amountNotPositive
  let parts ← normalizeAllocations request.allocations request.amount
  ensure (request.currency = "IRR") .refusedElsewhere
  checkNewParts s
    { direction := request.type.direction
      partyType := chequePartyType request.type request.partyType
      partyId := request.partyId
      partyName := request.currentName.getD request.partyName
      currency := request.currency }
    parts
  ensure (request.refused = false) .refusedElsewhere
  return (s.insertCheque request.row).insertAllocations (.cheque s.nextChequeId) parts

/-- `replaceChequeAllocations`. -/
def replaceChequeAllocations (s : SettlementState) (id : ℕ)
    (allocations : List SettlementAllocationInput) (currentName : Option String)
    (refused : Bool) : Except SettlementError SettlementState := do
  settlementParts allocations
  let cheque ← s.chequeRow id
  ensure (chequeLapsed cheque.status = false) .sourceNotAllocatable
  assertAllocatableParty cheque.type.direction cheque.partyType
  let parts ← normalizeAllocations allocations cheque.amount
  let before := s.sourceAllocations (.cheque cheque.id)
  ensure (refused = false) .refusedElsewhere
  let released := s.releaseSourceAllocations (.cheque cheque.id)
  lockAndCheckAllocationTargets released
    { direction := cheque.type.direction
      partyType := cheque.partyType
      partyId := cheque.partyId
      partyName := currentName.getD cheque.partyName
      currency := cheque.currency }
    parts (keptAmounts before none)
  return released.insertAllocations (.cheque cheque.id) parts

/-- The status of `updateChequeStatus`; its vouchers are another matter. -/
def changeChequeStatus (s : SettlementState) (id : ℕ) (next : ChequeStatus) (refused : Bool) :
    Except SettlementError SettlementState := do
  let cheque ← s.chequeRow id
  ensure (cheque.status ≠ some next) .conflict
  ensure (next ∈ chequeNextStatuses cheque.status cheque.type) .conflict
  ensure (refused = false) .refusedElsewhere
  return s.updateCheque cheque.id fun q => { q with status := some next }

/-- `deleteCheque`: a cleared or spent cheque stays. -/
def deleteCheque (s : SettlementState) (id : ℕ) (refused : Bool) :
    Except SettlementError SettlementState := do
  let cheque ← s.chequeRow id
  ensure (cheque.status ≠ some .passed ∧ cheque.status ≠ some .spent) .refusedElsewhere
  ensure (refused = false) .refusedElsewhere
  return s.updateCheque cheque.id fun q => { q with isDeleted := true }

/-! ## The operations together -/

inductive SettlementOperation where
  | recordDocument (document : SettlementDocument)
  | changeDocument (id : DocumentId) (terms : DocumentTerms)
  | createTreasury (request : TreasuryRequest)
  | postOther (row : OtherTreasuryRow)
  | relink (id : ℕ) (documentId : Option DocumentId) (currentName : Option String) (refused : Bool)
  | voidTreasury (id : ℕ) (refused : Bool)
  | replaceTreasury (id : ℕ) (allocations : List SettlementAllocationInput)
      (currentName : Option String) (refused : Bool)
  | createCheque (request : ChequeRequest)
  | replaceCheque (id : ℕ) (allocations : List SettlementAllocationInput)
      (currentName : Option String) (refused : Bool)
  | changeCheque (id : ℕ) (next : ChequeStatus) (refused : Bool)
  | deleteCheque (id : ℕ) (refused : Bool)

def settlementStep (s : SettlementState) :
    SettlementOperation → Except SettlementError SettlementState
  | .recordDocument document => do
      ensure (∀ other ∈ s.documents, other.id ≠ document.id) .conflict
      return { s with documents := s.documents ++ [document] }
  | .changeDocument id terms =>
      .ok { s with documents := s.documents.map fun doc =>
        if doc.id = id then { doc with toDocumentTerms := terms } else doc }
  | .createTreasury request => createTreasuryTransaction s request
  | .postOther row => postOtherRow s row
  | .relink id documentId currentName refused =>
      relinkTreasuryDocument s id documentId currentName refused
  | .voidTreasury id refused => voidTreasuryTransaction s id refused
  | .replaceTreasury id allocations currentName refused =>
      replaceTreasuryAllocations s id allocations currentName refused
  | .createCheque request => createCheque s request
  | .replaceCheque id allocations currentName refused =>
      replaceChequeAllocations s id allocations currentName refused
  | .changeCheque id next refused => changeChequeStatus s id next refused
  | .deleteCheque id refused => deleteCheque s id refused

/-- A company before its first document, receipt and cheque. -/
def SettlementState.initial : SettlementState := ⟨[], [], [], [], 1, 1⟩

end PapitalErp
