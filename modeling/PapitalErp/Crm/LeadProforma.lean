import PapitalErp.Lib.Interleaving

/-!
# Leads and their proformas

A lead names its proforma (`hasProforma`, `proformaId`) and a document names its lead (`crmLeadId`).
A proforma issued for a lead moves it to the stage `proposal`, a final invoice made from it to
`won`, and the void of either opens the lead again.

A request is one transaction. It reads the rows to lock, waits for them, and from the lock of its
document to the commit it writes only rows that it has locked, which is one step here. Voids of a
shop, the workflow's writes of a status and the writes of a lead alone have no other lock to wait
for. The checks of stock, periods, parties and returns are a failure that may come at any statement;
activities, the history of the stages, notices and the audit rows that nothing reads are left out.
-/

namespace PapitalErp.LeadProforma

open Interleaving

inductive Stage where
  | lead | qualified | proposal | won | lost
  deriving DecidableEq

inductive LeadStatus where
  | active | won | lost | archived
  deriving DecidableEq

/-- The types `POST /documents` records, and the older `purchase`. -/
inductive DocType where
  | receipt | purchase | productionReceipt | invoice | proforma | salesReturn | audit | remittance | waste
  deriving DecidableEq

inductive DocStatus where
  | draft | proforma | final
  deriving DecidableEq

structure Lead where
  stage : Stage
  status : LeadStatus
  hasProforma : Bool
  proformaId : Option ℕ
  isDeleted : Bool
  deriving DecidableEq

structure Document where
  docType : DocType
  status : DocStatus
  crmLeadId : Option ℕ
  version : ℕ
  isDeleted : Bool

/-- By its type or its status. -/
def Document.isProforma (d : Document) : Bool := d.docType = .proforma || d.status = .proforma

structure Tables where
  /-- an id no lead has yet reads as a deleted one -/
  lead : ℕ → Lead
  nextLead : ℕ
  document : ℕ → Document
  nextDocument : ℕ
  /-- document and workflow instance of the audit rows of `returnRejectedProformaToDraft` -/
  rejections : List (ℕ × ℕ)
  leadLocks : Locks ℕ ℕ

inductive Refusal where
  | notFound
  /-- «برای این پرونده قبلاً پیش‌فاکتور صادر شده است» -/
  | leadHasProforma
  | crmLeadClosed
  | crmLeadNotFound
  | statusStageMismatch
  /-- `won` before any proforma -/
  | wonWithoutProforma
  | crmLeadSold
  | leadHasDocuments
  | proformaRecordedFinal
  | auditNotFinal
  | notEditable
  | versionMismatch
  | notFinalizable
  | documentLeadLinkChanged
  | storefrontProformaChanged
  /-- a check left out here, or the database -/
  | failed
  deriving DecidableEq

/-! ## The stage and the status of a lead -/

def statusOfStage : Stage → LeadStatus
  | .won => .won
  | .lost => .lost
  | _ => .active

def isClosedLead (lead : Lead) : Bool :=
  lead.stage = .won || lead.stage = .lost || lead.status = .won || lead.status = .lost

/-- The stage to write (`none`: unchanged) and the status that goes with it. -/
def resolveLeadStageStatus (requestedStage : Option Stage) (requestedStatus : Option LeadStatus)
    (existingStage : Stage) (existingStatus : LeadStatus) : Except Refusal (Option Stage × LeadStatus) :=
  match requestedStage with
  | some stage =>
      if requestedStatus.any fun status => status ≠ .archived && status ≠ statusOfStage stage then
        .error .statusStageMismatch
      else .ok (some stage, if requestedStatus = some .archived then .archived else statusOfStage stage)
  | none =>
      match requestedStatus with
      | some .won => .ok (if existingStage = .won then none else some .won, .won)
      | some .lost => .ok (if existingStage = .lost then none else some .lost, .lost)
      | some .active =>
          if existingStage = .won ∨ existingStage = .lost then .error .statusStageMismatch
          else .ok (none, .active)
      | some .archived => .ok (none, .archived)
      | none => .ok (none, existingStatus)

/-! ## Requests -/

/-- The body of `PUT /documents/:id`; `crmLeadId` is absent, null or an id. -/
structure Edit where
  documentId : ℕ
  crmLeadId : Option (Option ℕ)
  status : Option DocStatus
  version : ℕ
  deriving DecidableEq

inductive Request where
  | createDocument (docType : DocType) (status : Option DocStatus) (crmLeadId : Option ℕ)
      (mayFinalizeSales : Bool)
  | updateDocument (edit : Edit)
  | finalizeDocument (documentId : ℕ)
  | voidDocument (documentId : ℕ)
  /-- the cancellation or expiry of a site order, by its document -/
  | cancelOpenOrder (documentId : ℕ)
  /-- the cancellation of a WooCommerce order, by the document of it -/
  | voidOrderInvoice (documentId : ℕ)
  | rejectToDraft (documentId instanceId : ℕ)
  | resendAsProforma (documentId instanceId : ℕ)
  | createLead (stage : Stage)
  | updateLead (leadId : ℕ) (stage : Option Stage) (status : Option LeadStatus)
  | deleteLead (leadId : ℕ)
  deriving DecidableEq

/-- What the rows of leads are locked for. -/
inductive Purpose where
  | link (edit : Edit) (target : Option ℕ) (isProforma : Bool)
  | finalize (documentId : ℕ)
  | void (documentId : ℕ)
  deriving DecidableEq

def Purpose.documentId : Purpose → ℕ
  | link edit _ _ => edit.documentId
  | finalize documentId | void documentId => documentId

def Purpose.target : Purpose → Option ℕ
  | link _ target _ => target
  | finalize _ | void _ => none

structure LockedDocumentLeads where
  target : Option ℕ
  linked : List ℕ
  deriving DecidableEq

/-- How far a request is. -/
inductive Point where
  | sent (request : Request)
  | creating (docType : DocType) (status : Option DocStatus) (crmLeadId lead : Option ℕ)
  | finding (purpose : Purpose)
  | found (purpose : Purpose) (leads : List ℕ)
  | editing (edit : Edit) (isProforma : Bool) (leadLock : Option LockedDocumentLeads)
  | finalizing (documentId : ℕ) (lead : Option ℕ)
  | voiding (documentId : ℕ) (lead : Option ℕ)
  | done
  | refused (why : Refusal)

namespace Tables

variable (s : Tables) (i : ℕ)

/-! ## Rows -/

def setLead (id : ℕ) (row : Lead) : Tables := { s with lead := Function.update s.lead id row }

def setDocument (id : ℕ) (row : Document) : Tables :=
  { s with document := Function.update s.document id row }

/-- The end of a transaction. -/
def release : Tables := { s with leadLocks := s.leadLocks.release i }

/-- An error: the transaction is rolled back. -/
def abort (why : Refusal) : Tables × Point := (s.release i, .refused why)

def commit : Tables × Point := (s.release i, .done)

/-- The live lead has the document as its proforma. -/
def leadOfDocument (documentId id : ℕ) : Bool :=
  !(s.lead id).isDeleted && (s.lead id).hasProforma && (s.lead id).proformaId = some documentId

/-- The live leads whose proforma is the document, by their ids. -/
def leadsOfDocument (documentId : ℕ) : List ℕ :=
  (List.range s.nextLead).filter (s.leadOfDocument documentId)

/-- The condition of the query that locks leads. -/
def isWanted (purpose : Purpose) (id : ℕ) : Bool :=
  s.leadOfDocument purpose.documentId id ||
    (!(s.lead id).isDeleted && purpose.target = some id)

/-! ## Creating a document -/

/-- The lead of a new proforma, locked and checked; a lead that is not there is no lead. -/
def lockLeadForNewProforma (docType : DocType) (status : Option DocStatus) (leadId : ℕ) :
    Option (Tables × Point) :=
  if (s.lead leadId).isDeleted then some (s, .creating docType status (some leadId) none)
  else
    (s.leadLocks.take i leadId).map fun leadLocks =>
      if (s.lead leadId).hasProforma then s.abort i .leadHasProforma
      else if isClosedLead (s.lead leadId) then s.abort i .crmLeadClosed
      else ({ s with leadLocks }, .creating docType status (some leadId) (some leadId))

/-- `POST /documents`: the type recorded for the user, and the lead of a proforma. -/
def createDocument (docType : DocType) (status : Option DocStatus) (crmLeadId : Option ℕ)
    (mayFinalizeSales : Bool) : Option (Tables × Point) :=
  let recorded := if docType = .invoice ∧ status = some .proforma ∧ mayFinalizeSales = false then
    .proforma else docType
  match crmLeadId with
  | some leadId =>
      if status = some .proforma ∨ recorded = .proforma then
        s.lockLeadForNewProforma i recorded status leadId
      else some (s, .creating recorded status crmLeadId none)
  | none => some (s, .creating recorded status none none)

def markLeadProforma (leadId documentId : ℕ) : Tables :=
  s.setLead leadId { s.lead leadId with
    hasProforma := true
    proformaId := some documentId
    stage := .proposal
    status := .active }

def insertDocument (row : Document) : Tables :=
  { s.setDocument s.nextDocument row with nextDocument := s.nextDocument + 1 }

/-- The status a new document is recorded with. -/
def createdDocumentStatus (docType : DocType) (status : Option DocStatus) : DocStatus :=
  status.getD (if docType = .proforma then .proforma else .final)

/-- The insert of the document and the mark of its lead; `crmLeadId` refers to a row of leads. -/
def createDocumentWithDetails (docType : DocType) (status : Option DocStatus)
    (crmLeadId lead : Option ℕ) : Tables × Point :=
  let docStatus := createdDocumentStatus docType status
  if docType = .proforma ∧ docStatus = .final then s.abort i .proformaRecordedFinal
  else if docType = .audit ∧ docStatus ≠ .final then s.abort i .auditNotFinal
  else if crmLeadId.any (s.nextLead ≤ ·) then s.abort i .failed
  else
    let created := s.insertDocument ⟨docType, docStatus, crmLeadId, 1, false⟩
    match lead with
    | some leadId => (created.markLeadProforma leadId s.nextDocument).commit i
    | none => created.commit i

/-! ## Locking the leads of a document -/

/-- The leads are locked; for an edit they are checked before any write. -/
def lockedFor (purpose : Purpose) (leads : List ℕ) : Tables × Point :=
  match purpose with
  | .finalize documentId => (s, .finalizing documentId leads.head?)
  | .void documentId => (s, .voiding documentId leads.head?)
  | .link edit target isProforma =>
      match target with
      | none => (s, .editing edit isProforma (some ⟨none, leads.filter (s.leadOfDocument edit.documentId)⟩))
      | some leadId =>
          if leadId ∉ leads then s.abort i .crmLeadNotFound
          else if isProforma ∧ (s.lead leadId).hasProforma ∧
              (s.lead leadId).proformaId ≠ some edit.documentId then s.abort i .leadHasProforma
          else if isProforma ∧ (s.lead leadId).proformaId ≠ some edit.documentId ∧
              isClosedLead (s.lead leadId) then s.abort i .crmLeadClosed
          else (s, .editing edit isProforma
            (some ⟨some leadId, leads.filter (s.leadOfDocument edit.documentId)⟩))

/-- FOR UPDATE of the leads that were found and still meet the condition. -/
def lockLeads (purpose : Purpose) (leads : List ℕ) : Option (Tables × Point) :=
  (s.leadLocks.takeAll i (leads.filter (s.isWanted purpose))).map fun leadLocks =>
    ({ s with leadLocks } : Tables).lockedFor i purpose (leads.filter (s.isWanted purpose))

/-! ## Editing a document -/

/-- A lead that the document is no longer the proforma of. -/
def unlinkLead (leadId : ℕ) : Tables :=
  s.setLead leadId { s.lead leadId with
    hasProforma := false
    proformaId := none }

/-- The other leads of the document are unlinked. -/
def unlinkOthers (target : Option ℕ) (linked : List ℕ) : Tables :=
  linked.foldl (fun s leadId => if some leadId = target then s else s.unlinkLead leadId) s

def applyDocumentLeadLink (documentId : ℕ) (isProforma : Bool) (locked : LockedDocumentLeads) : Tables :=
  let unlinked := s.unlinkOthers locked.target locked.linked
  let written := unlinked.setDocument documentId
    { unlinked.document documentId with crmLeadId := locked.target }
  match locked.target with
  | some leadId =>
      if isProforma ∧ (s.lead leadId).proformaId ≠ some documentId then
        written.markLeadProforma leadId documentId
      else written
  | none => written

/-- The stored document is read without a lock, for the leads to lock. -/
def beginEdit (edit : Edit) : Tables × Point :=
  match edit.crmLeadId with
  | none => (s, .editing edit false none)
  | some target =>
      if (s.document edit.documentId).isDeleted then s.abort i .notFound
      else (s, .finding (.link edit target ((s.document edit.documentId).docType = .proforma ||
        edit.status.getD (s.document edit.documentId).status = .proforma)))

/-- `updateDocument` from the lock of the document on. -/
def updateDocument (edit : Edit) (isProforma : Bool) (leadLock : Option LockedDocumentLeads) :
    Tables × Point :=
  let existing := s.document edit.documentId
  if existing.isDeleted then s.abort i .notFound
  else if existing.status = .final ∨ edit.status = some .final then s.abort i .notEditable
  else if existing.version ≠ edit.version then s.abort i .versionMismatch
  else
    let written := s.setDocument edit.documentId
      { existing with status := edit.status.getD existing.status, version := existing.version + 1 }
    match leadLock with
    | some locked => (written.applyDocumentLeadLink edit.documentId isProforma locked).commit i
    | none => written.commit i

/-! ## Finalizing a document -/

/-- The types whose lead the finalize locks. -/
def hasLead (docType : DocType) : Bool := docType = .proforma || docType = .invoice

def beginFinalize (documentId : ℕ) : Tables × Point :=
  let peek := s.document documentId
  if peek.isDeleted then s.abort i .notFound
  else if peek.status = .final then s.commit i
  else if peek.docType = .audit ∨ peek.docType = .productionReceipt then s.abort i .notFinalizable
  else if hasLead peek.docType then (s, .finding (.finalize documentId))
  else (s, .finalizing documentId none)

def markLeadWonByInvoice (leadId : ℕ) : Tables :=
  if (s.lead leadId).stage = .won ∧ (s.lead leadId).status = .won then s
  else s.setLead leadId { s.lead leadId with
    stage := .won
    status := .won }

/-- `finalizeDocument` from the locks of the items and the document on; the lead is read again. -/
def finalizeDocument (documentId : ℕ) (lead : Option ℕ) : Tables × Point :=
  let doc := s.document documentId
  if doc.isDeleted then s.abort i .notFound
  else if doc.status = .final then s.commit i
  else if hasLead doc.docType ∧ (s.leadsOfDocument documentId).head? ≠ lead then
    s.abort i .documentLeadLinkChanged
  else
    let targetType := if doc.docType = .proforma then .invoice else doc.docType
    let written := s.setDocument documentId
      { doc with status := .final, docType := targetType, version := doc.version + 1 }
    match lead with
    | some leadId =>
        if targetType = .invoice then (written.markLeadWonByInvoice leadId).commit i
        else written.commit i
    | none => written.commit i

/-! ## Voiding a document -/

def releaseLeadOfVoidedDocument (leadId : ℕ) : Tables :=
  let lead := s.lead leadId
  let reopenedFromWon := lead.stage = .won ∨ lead.status = .won
  s.setLead leadId { lead with
    hasProforma := false
    proformaId := none
    stage := if reopenedFromWon then .proposal else lead.stage
    status := if reopenedFromWon then .active else lead.status }

/-- The soft delete; a document that is not live stays as it is. -/
def deleteDocument (documentId : ℕ) : Tables :=
  if (s.document documentId).isDeleted then s
  else s.setDocument documentId { s.document documentId with isDeleted := true }

/-- `DELETE /documents/:id` from the lock of the document on. -/
def voidDocument (documentId : ℕ) (lead : Option ℕ) : Tables × Point :=
  match lead with
  | some leadId => ((s.releaseLeadOfVoidedDocument leadId).deleteDocument documentId).commit i
  | none => (s.deleteDocument documentId).commit i

/-- A site order is cancelled while its document is a proforma. -/
def cancelOpenOrder (documentId : ℕ) : Tables × Point :=
  if (s.document documentId).isDeleted = false ∧ (s.document documentId).status ≠ .proforma then
    s.abort i .storefrontProformaChanged
  else (s.deleteDocument documentId).commit i

/-! ## The workflow's writes of the status -/

def rejectToDraft (documentId instanceId : ℕ) : Tables × Point :=
  let doc := s.document documentId
  if doc.isDeleted ∨ doc.status ≠ .proforma then s.commit i
  else ({ s.setDocument documentId { doc with status := .draft, version := doc.version + 1 } with
    rejections := (documentId, instanceId) :: s.rejections } : Tables).commit i

def resendAsProforma (documentId instanceId : ℕ) : Tables × Point :=
  let doc := s.document documentId
  if doc.isDeleted ∨ doc.status ≠ .draft ∨ (documentId, instanceId) ∉ s.rejections then s.commit i
  else (s.setDocument documentId { doc with status := .proforma, version := doc.version + 1 }).commit i

/-! ## The leads -/

def createLead (stage : Stage) : Tables × Point :=
  if stage = .won then s.abort i .wonWithoutProforma
  else ({ s.setLead s.nextLead ⟨stage, statusOfStage stage, false, none, false⟩ with
    nextLead := s.nextLead + 1 } : Tables).commit i

/-- The final invoice a lead's proforma became. -/
def leadFinalInvoice (lead : Lead) : Option ℕ :=
  if lead.hasProforma then
    lead.proformaId.filter fun id => !(s.document id).isDeleted && (s.document id).status = .final
  else none

/-- `PUT /crm/leads/:id` under the lock of the row. -/
def updateLead (leadId : ℕ) (requestedStage : Option Stage) (requestedStatus : Option LeadStatus) :
    Tables × Point :=
  let existing := s.lead leadId
  if existing.isDeleted then s.abort i .notFound
  else
    match resolveLeadStageStatus requestedStage requestedStatus existing.stage existing.status with
    | .error why => s.abort i why
    | .ok (stage, status) =>
        let target := stage.getD existing.stage
        if target = .won ∧ existing.stage ≠ .won ∧ existing.hasProforma = false then
          s.abort i .wonWithoutProforma
        else if target ≠ existing.stage ∧ target ≠ .won ∧ (s.leadFinalInvoice existing).isSome then
          s.abort i .crmLeadSold
        else (s.setLead leadId { existing with stage := target, status := status }).commit i

/-- A live document names the lead or is its proforma. -/
def leadHasDocument (leadId : ℕ) : Bool :=
  (List.range s.nextDocument).any fun id => !(s.document id).isDeleted &&
    ((s.document id).crmLeadId = some leadId || (s.lead leadId).proformaId = some id)

def deleteLead (leadId : ℕ) : Tables × Point :=
  if (s.lead leadId).isDeleted then s.abort i .notFound
  else if s.leadHasDocument leadId then s.abort i .leadHasDocuments
  else (s.setLead leadId { s.lead leadId with isDeleted := true }).commit i

/-- A write of a lead waits for the lock of its row. -/
def underLock (leadId : ℕ) (out : Tables × Point) : Option (Tables × Point) :=
  (s.leadLocks.take i leadId).map fun _ => out

end Tables

open Tables in
/-- The next statement of request `i`. -/
def statement (i : ℕ) (s : Tables) : Point → Option (Tables × Point)
  | .sent (.createDocument docType status crmLeadId mayFinalizeSales) =>
      s.createDocument i docType status crmLeadId mayFinalizeSales
  | .sent (.updateDocument edit) => some (s.beginEdit i edit)
  | .sent (.finalizeDocument documentId) => some (s.beginFinalize i documentId)
  | .sent (.voidDocument documentId) =>
      some (if (s.document documentId).isDeleted then s.abort i .notFound
        else (s, .finding (.void documentId)))
  | .sent (.cancelOpenOrder documentId) => some (s.cancelOpenOrder i documentId)
  | .sent (.voidOrderInvoice documentId) => some ((s.deleteDocument documentId).commit i)
  | .sent (.rejectToDraft documentId instanceId) => some (s.rejectToDraft i documentId instanceId)
  | .sent (.resendAsProforma documentId instanceId) => some (s.resendAsProforma i documentId instanceId)
  | .sent (.createLead stage) => some (s.createLead i stage)
  | .sent (.updateLead leadId stage status) => s.underLock i leadId (s.updateLead i leadId stage status)
  | .sent (.deleteLead leadId) => s.underLock i leadId (s.deleteLead i leadId)
  | .creating docType status crmLeadId lead =>
      some (s.createDocumentWithDetails i docType status crmLeadId lead)
  | .finding purpose =>
      some (s, .found purpose ((List.range s.nextLead).filter (s.isWanted purpose)))
  | .found purpose leads => s.lockLeads i purpose leads
  | .editing edit isProforma leadLock => some (s.updateDocument i edit isProforma leadLock)
  | .finalizing documentId lead => some (s.finalizeDocument i documentId lead)
  | .voiding documentId lead => some (s.voidDocument i documentId lead)
  | .done | .refused _ => none

/-- Requests on leads and documents, each a transaction that may fail at any statement. -/
def requests : Program ℕ Bool Tables Point := fun i fails s point =>
  if fails then some (s.abort i .failed) else statement i s point

/-- No lead and no document yet. -/
def start (request : ℕ → Request) : Config ℕ Tables Point where
  shared :=
    { lead := fun _ => ⟨.lead, .active, false, none, true⟩
      nextLead := 0
      document := fun _ => ⟨.invoice, .draft, none, 1, true⟩
      nextDocument := 0
      rejections := []
      leadLocks := fun _ => none }
  locals := fun i => .sent (request i)

end PapitalErp.LeadProforma
