import PapitalErp.Crm.LeadProforma

/-!
# Leads and proformas stay paired

The invariant is that a live lead and its proforma name each other, and that a live proforma that
names a live lead is the one the lead names. A request knows of the leads it has locked what it
checked there, since nobody else writes them.

Four kinds of steps break it and are left out of the runs of the last theorem: a shop's void of a
document that is a lead's proforma; a status `proforma` written over a linked draft without its
lead; a void or an edit whose document was linked, or became a proforma, after its leads were read,
which the finalize checks and they do not; and a proforma whose lead appears between the lock that
finds none and the insert. The runs after the theorem show the first three.
-/

namespace PapitalErp.LeadProforma

open Interleaving Transition

namespace Tables

variable (s : Tables)

/-- The live lead has the document as its proforma. -/
def Marks (lead documentId : ℕ) : Prop :=
  (s.lead lead).isDeleted = false ∧ (s.lead lead).hasProforma = true ∧
    (s.lead lead).proformaId = some documentId

/-- The lead has it as its proforma, or it is a live proforma that names the lead. -/
def ProformaOf (documentId lead : ℕ) : Prop :=
  s.Marks lead documentId ∨ (s.document documentId).isDeleted = false ∧
    (s.document documentId).isProforma = true ∧ (s.document documentId).crmLeadId = some lead

end Tables

def Document.IsFinalInvoice (d : Document) : Prop :=
  d.isDeleted = false ∧ d.docType = .invoice ∧ d.status = .final

/-- Live leads and live documents are paired, and the outcome of a lead is that of its document. -/
structure Paired (s : Tables) : Prop where
  oneProforma : ∀ lead d d', (s.lead lead).isDeleted = false → s.ProformaOf d lead →
    s.ProformaOf d' lead → d = d'
  oneLead : ∀ d lead lead', (s.lead lead).isDeleted = false → (s.lead lead').isDeleted = false →
    s.ProformaOf d lead → s.ProformaOf d lead' → lead = lead'
  marked : ∀ lead, (s.lead lead).isDeleted = false → ((s.lead lead).hasProforma = true ↔
    ∃ d, (s.lead lead).proformaId = some d ∧ (s.document d).isDeleted = false ∧
      (s.document d).crmLeadId = some lead)
  sold : ∀ lead d, s.Marks lead d → (s.document d).IsFinalInvoice → (s.lead lead).stage = .won
  follows : ∀ lead, (s.lead lead).isDeleted = false →
    (s.lead lead).status = statusOfStage (s.lead lead).stage ∨ (s.lead lead).status = .archived

/-- The void of the final invoice that is a lead's proforma opens the lead. -/
def Reopens (s s' : Tables) : Prop :=
  ∀ lead d, s.Marks lead d → (s.document d).IsFinalInvoice → (s'.document d).isDeleted = true →
    s'.lead lead = ⟨.proposal, .active, false, none, false⟩

/-! ## The runs -/

/-- A live lead that the document names has it as its proforma. -/
def Tables.claimed (s : Tables) (documentId : ℕ) : Bool :=
  (s.document documentId).crmLeadId.all fun lead =>
    (s.lead lead).isDeleted || s.leadOfDocument documentId lead

/-- The document is a proforma when the edit has written its status. -/
def Tables.becomesProforma (s : Tables) (edit : Edit) : Bool :=
  (s.document edit.documentId).docType = .proforma ||
    edit.status.getD (s.document edit.documentId).status = .proforma

/-- What keeps leads and documents paired: of the moment before a statement. -/
def orderly (s : Tables) : Point → Bool
  | .sent (.cancelOpenOrder documentId) | .sent (.voidOrderInvoice documentId) =>
      s.leadsOfDocument documentId = []
  | .sent (.resendAsProforma documentId _) => s.claimed documentId
  | .creating docType status crmLeadId none =>
      decide (docType = .proforma ∨ status = some .proforma) → crmLeadId.all fun lead => (s.lead lead).isDeleted
  | .editing edit _ none => edit.status = some .proforma → s.claimed edit.documentId
  | .editing edit isProforma (some locked) =>
      s.leadsOfDocument edit.documentId = locked.linked && s.becomesProforma edit = isProforma
  | .voiding documentId lead => s.leadsOfDocument documentId = lead.toList
  | _ => true

/-! ## The invariant -/

structure Tables.Valid (s : Tables) : Prop where
  leadIds : ∀ lead, (s.lead lead).isDeleted = false → lead < s.nextLead
  documentIds : ∀ d, (s.document d).isDeleted = false → d < s.nextDocument
  references : ∀ d lead, (s.document d).crmLeadId = some lead → lead < s.nextLead
  named : ∀ lead, (s.lead lead).isDeleted = false →
    ((s.lead lead).hasProforma = true ↔ (s.lead lead).proformaId ≠ none)
  marked : ∀ lead d, s.Marks lead d →
    (s.document d).isDeleted = false ∧ (s.document d).crmLeadId = some lead
  claimed : ∀ d lead, (s.document d).isDeleted = false → (s.document d).isProforma = true →
    (s.document d).crmLeadId = some lead → (s.lead lead).isDeleted = false → s.Marks lead d
  sold : ∀ lead d, s.Marks lead d → (s.document d).IsFinalInvoice → (s.lead lead).stage = .won
  follows : ∀ lead, (s.lead lead).isDeleted = false →
    (s.lead lead).status = statusOfStage (s.lead lead).stage ∨ (s.lead lead).status = .archived

variable {s s' : Tables} {i j lead documentId : ℕ}

theorem Tables.Valid.paired (valid : s.Valid) : Paired s := by
  have marks : ∀ lead d, (s.lead lead).isDeleted = false → s.ProformaOf d lead → s.Marks lead d := by
    rintro lead d live (marks | ⟨there, proforma, names⟩)
    · exact marks
    · exact valid.claimed d lead there proforma names live
  refine ⟨fun lead d d' live first second => ?_, fun d lead lead' live live' first second => ?_,
    fun lead live => ⟨fun has => ?_, ?_⟩, valid.sold, valid.follows⟩
  · have one := (marks lead d live first).2.2
    have two := (marks lead d' live second).2.2
    exact Option.some.inj (one.symm.trans two)
  · have one := (valid.marked lead d (marks lead d live first)).2
    have two := (valid.marked lead' d (marks lead' d live' second)).2
    exact Option.some.inj (one.symm.trans two)
  · obtain ⟨d, named⟩ := Option.ne_none_iff_exists'.mp ((valid.named lead live).mp has)
    exact ⟨d, named, valid.marked lead d ⟨live, has, named⟩⟩
  · rintro ⟨d, named, -⟩
    rw [valid.named lead live, named]
    exact Option.some_ne_none d

@[simp] theorem leadOfDocument_iff : s.leadOfDocument documentId lead = true ↔ s.Marks lead documentId := by
  simp [Tables.leadOfDocument, Tables.Marks, and_assoc]

theorem mem_leadsOfDocument (valid : s.Valid) :
    lead ∈ s.leadsOfDocument documentId ↔ s.Marks lead documentId := by
  rw [Tables.leadsOfDocument, List.mem_filter, leadOfDocument_iff, List.mem_range]
  exact ⟨fun mem => mem.2, fun marks => ⟨valid.leadIds lead marks.1, marks⟩⟩

theorem claimed_iff : s.claimed documentId = true ↔
    ∀ lead, (s.document documentId).crmLeadId = some lead → (s.lead lead).isDeleted = false →
      s.Marks lead documentId := by
  rw [Tables.claimed, Option.all_eq_true]
  refine forall₂_congr fun lead _ => ?_
  rw [Bool.or_eq_true, leadOfDocument_iff]
  cases (s.lead lead).isDeleted <;> simp

/-- The locks of the rows say nothing about the rows. -/
theorem Tables.Valid.of_rows (valid : s.Valid) (leads : s'.lead = s.lead)
    (nextLead : s'.nextLead = s.nextLead) (documents : s'.document = s.document)
    (nextDocument : s'.nextDocument = s.nextDocument) : s'.Valid := by
  obtain ⟨leadIds, documentIds, references, named, marked, claimed, sold, follows⟩ := valid
  constructor <;>
    simp only [leads, nextLead, documents, nextDocument, Tables.Marks] at * <;> assumption

/-! ## Writes of documents -/

/-- A status is written, and nothing else that the invariant is about. -/
theorem Tables.Valid.setStatus (valid : s.Valid) {row : Document}
    (sameLead : row.crmLeadId = (s.document documentId).crmLeadId)
    (sameLife : row.isDeleted = (s.document documentId).isDeleted) (open_ : row.status ≠ .final)
    (claimed : row.isProforma = true → s.claimed documentId = true) :
    (s.setDocument documentId row).Valid := by
  rw [claimed_iff] at claimed
  obtain ⟨leadIds, documentIds, references, named, marked, claimed', sold, follows⟩ := valid
  constructor <;> simp only [Tables.setDocument, Function.update_apply, Tables.Marks,
    Document.IsFinalInvoice] at * <;> grind

theorem Tables.Valid.insert (valid : s.Valid) {row : Document}
    (reference : ∀ lead, row.crmLeadId = some lead → lead < s.nextLead)
    (unclaimed : row.isProforma = true → ∀ lead, row.crmLeadId = some lead → (s.lead lead).isDeleted = true) :
    (s.insertDocument row).Valid := by
  obtain ⟨leadIds, documentIds, references, named, marked, claimed, sold, follows⟩ := valid
  constructor <;> simp only [Tables.insertDocument, Tables.setDocument, Function.update_apply,
    Tables.Marks, Document.IsFinalInvoice] at * <;> grind

theorem Tables.Valid.insertMarked (valid : s.Valid) {row : Document} (live : (s.lead lead).isDeleted = false)
    (unmarked : (s.lead lead).hasProforma = false) (names : row.crmLeadId = some lead)
    (there : row.isDeleted = false) (open_ : row.status ≠ .final) :
    ((s.insertDocument row).markLeadProforma lead s.nextDocument).Valid := by
  obtain ⟨leadIds, documentIds, references, named, marked, claimed, sold, follows⟩ := valid
  constructor <;> simp only [Tables.insertDocument, Tables.markLeadProforma, Tables.setLead,
    Tables.setDocument, Function.update_apply, Tables.Marks, Document.IsFinalInvoice] at * <;> grind [statusOfStage]


theorem unlinkOthers_spec (s : Tables) (target : Option ℕ) (linked : List ℕ) :
    s.unlinkOthers target linked =
      { s with lead := fun lead =>
          if lead ∈ linked ∧ target ≠ some lead then
            { s.lead lead with hasProforma := false, proformaId := none }
          else s.lead lead } := by
  induction linked generalizing s with
  | nil => simp [Tables.unlinkOthers]
  | cons first linked ih =>
      rw [Tables.unlinkOthers, List.foldl_cons, ← Tables.unlinkOthers, ih]
      split_ifs with isTarget
      · congr 1
        funext lead
        grind
      · rw [Tables.unlinkLead, Tables.setLead]
        congr 1
        funext lead
        simp only [Function.update_apply]
        grind

/-- What the link writes in a row of leads. -/
def linkedRow (s : Tables) (documentId : ℕ) (isProforma : Bool) (locked : LockedDocumentLeads)
    (lead : ℕ) : Lead :=
  if locked.target = some lead ∧ isProforma ∧ (s.lead lead).proformaId ≠ some documentId then
    { s.lead lead with hasProforma := true, proformaId := some documentId, stage := .proposal, status := .active }
  else if lead ∈ locked.linked ∧ locked.target ≠ some lead then
    { s.lead lead with hasProforma := false, proformaId := none }
  else s.lead lead

theorem applyDocumentLeadLink_spec (s : Tables) (documentId : ℕ) (isProforma : Bool)
    (locked : LockedDocumentLeads) :
    s.applyDocumentLeadLink documentId isProforma locked =
      { s with
        lead := linkedRow s documentId isProforma locked
        document := Function.update s.document documentId
          { s.document documentId with crmLeadId := locked.target } } := by
  obtain ⟨target, linked⟩ := locked
  unfold Tables.applyDocumentLeadLink
  rw [unlinkOthers_spec]
  cases target with
  | none => simp [Tables.setDocument, linkedRow, funext_iff]
  | some leadId =>
      simp only [Tables.setDocument, Tables.markLeadProforma, Tables.setLead]
      by_cases marks : isProforma = true ∧ (s.lead leadId).proformaId ≠ some documentId
      · rw [if_pos marks, Tables.mk.injEq]
        refine ⟨?_, rfl, rfl, rfl, rfl, rfl⟩
        funext lead
        simp only [linkedRow, Function.update_apply]
        grind
      · rw [if_neg marks, Tables.mk.injEq]
        refine ⟨?_, rfl, rfl, rfl, rfl, rfl⟩
        funext lead
        simp only [linkedRow]
        grind

/-- The link is written: the leads that had the document lose it, and a proforma marks its lead. -/
theorem Tables.Valid.link (valid : s.Valid) {target : Option ℕ} {linked : List ℕ} {row : Document}
    (there : (s.document documentId).isDeleted = false) (open_ : row.status ≠ .final)
    (life : row.isDeleted = false) (all : s.leadsOfDocument documentId = linked)
    (free : ∀ lead, target = some lead → (s.lead lead).isDeleted = false ∧
      (row.isProforma = true → (s.lead lead).hasProforma = true → (s.lead lead).proformaId = some documentId)) :
    ((s.setDocument documentId row).applyDocumentLeadLink documentId row.isProforma ⟨target, linked⟩).Valid := by
  have linkedIff : ∀ lead, lead ∈ linked ↔ s.Marks lead documentId := by
    intro lead
    rw [← all, mem_leadsOfDocument valid]
  rw [applyDocumentLeadLink_spec]
  have proforma : ({ row with crmLeadId := target } : Document).isProforma = row.isProforma := rfl
  obtain ⟨leadIds, documentIds, references, named, marked, claimed, sold, follows⟩ := valid
  constructor <;> simp only [linkedRow, Tables.setDocument, Function.update_apply, Tables.Marks,
    Document.IsFinalInvoice] at * <;> grind [statusOfStage]

theorem Tables.Valid.won (valid : s.Valid) (lead : ℕ) : (s.markLeadWonByInvoice lead).Valid := by
  rw [Tables.markLeadWonByInvoice]
  split_ifs
  · exact valid
  · obtain ⟨leadIds, documentIds, references, named, marked, claimed, sold, follows⟩ := valid
    constructor <;> simp only [Tables.setLead, Function.update_apply, Tables.Marks,
      Document.IsFinalInvoice] at * <;> grind [statusOfStage]

theorem Tables.Valid.finalize (valid : s.Valid) {row : Document} (final : row.status = .final)
    (sales : row.docType ≠ .proforma) (sameLead : row.crmLeadId = (s.document documentId).crmLeadId)
    (sameLife : row.isDeleted = (s.document documentId).isDeleted)
    (won : row.docType = .invoice → ∀ lead, s.Marks lead documentId → (s.lead lead).stage = .won) :
    (s.setDocument documentId row).Valid := by
  have settled : row.isProforma = false := by simp [Document.isProforma, sales, final]
  obtain ⟨leadIds, documentIds, references, named, marked, claimed, sold, follows⟩ := valid
  constructor <;> simp only [Tables.setDocument, Function.update_apply, Tables.Marks,
    Document.IsFinalInvoice] at * <;> grind

/-- A document goes together with the mark of its lead. -/
theorem Tables.Valid.delete (valid : s.Valid) (released : ∀ lead, ¬s.Marks lead documentId) :
    (s.deleteDocument documentId).Valid := by
  rw [Tables.deleteDocument]
  split_ifs
  · exact valid
  · obtain ⟨leadIds, documentIds, references, named, marked, claimed, sold, follows⟩ := valid
    constructor <;> simp only [Tables.setDocument, Function.update_apply, Tables.Marks,
      Document.IsFinalInvoice] at * <;> grind

theorem Tables.Valid.void (valid : s.Valid) (marks : s.Marks lead documentId) :
    ((s.releaseLeadOfVoidedDocument lead).deleteDocument documentId).Valid := by
  have there := (valid.marked lead documentId marks).1
  have only : ∀ other, s.Marks other documentId → other = lead := by
    intro other othersMark
    have names := (valid.marked other documentId othersMark).2
    exact Option.some.inj (names.symm.trans (valid.marked lead documentId marks).2)
  obtain ⟨leadIds, documentIds, references, named, marked, claimed, sold, follows⟩ := valid
  have stays : ((s.releaseLeadOfVoidedDocument lead).document documentId).isDeleted = false := there
  rw [Tables.deleteDocument, if_neg (by simp [stays])]
  constructor <;> simp only [Tables.releaseLeadOfVoidedDocument, Tables.setLead, Tables.setDocument,
    Function.update_apply, Tables.Marks, Document.IsFinalInvoice] at * <;> grind [statusOfStage]

/-! ## Writes of leads -/

theorem resolveLeadStageStatus_follows {requestedStage : Option Stage}
    {requestedStatus status : LeadStatus} {requested : Option LeadStatus} {stage : Option Stage}
    {existingStage : Stage}
    (before : requestedStatus = statusOfStage existingStage ∨ requestedStatus = .archived)
    (resolved : resolveLeadStageStatus requestedStage requested existingStage requestedStatus =
      .ok (stage, status)) :
    status = statusOfStage (stage.getD existingStage) ∨ status = .archived := by
  unfold resolveLeadStageStatus at resolved
  grind [statusOfStage]

theorem Tables.Valid.insertLead (valid : s.Valid) (stage : Stage) :
    ({ s.setLead s.nextLead ⟨stage, statusOfStage stage, false, none, false⟩ with
      nextLead := s.nextLead + 1 } : Tables).Valid := by
  obtain ⟨leadIds, documentIds, references, named, marked, claimed, sold, follows⟩ := valid
  constructor <;> simp only [Tables.setLead, Function.update_apply, Tables.Marks,
    Document.IsFinalInvoice] at * <;> grind

theorem Tables.Valid.rewriteLead (valid : s.Valid) {stage : Stage} {status : LeadStatus}
    (follows : status = statusOfStage stage ∨ status = .archived)
    (sold : ∀ d, s.Marks lead d → (s.document d).IsFinalInvoice → stage = .won) :
    (s.setLead lead { s.lead lead with stage := stage, status := status }).Valid := by
  obtain ⟨leadIds, documentIds, references, named, marked, claimed, sold', follows'⟩ := valid
  constructor <;> simp only [Tables.setLead, Function.update_apply, Tables.Marks,
    Document.IsFinalInvoice] at * <;> grind

theorem Tables.Valid.removeLead (valid : s.Valid) (lead : ℕ) :
    (s.setLead lead { s.lead lead with isDeleted := true }).Valid := by
  obtain ⟨leadIds, documentIds, references, named, marked, claimed, sold, follows⟩ := valid
  constructor <;> simp only [Tables.setLead, Function.update_apply, Tables.Marks,
    Document.IsFinalInvoice] at * <;> grind

/-- The check of `assertSoldLeadStaysWon` finds the final invoice of a lead. -/
theorem leadFinalInvoice_of_marks (marks : s.Marks lead documentId)
    (invoice : (s.document documentId).IsFinalInvoice) :
    s.leadFinalInvoice (s.lead lead) = some documentId := by
  obtain ⟨-, has, named⟩ := marks
  obtain ⟨there, -, final⟩ := invoice
  simp [Tables.leadFinalInvoice, has, named, there, final]

/-! ## Statements -/

/-- What a request knows at a point of the leads it has locked. -/
def Knows (i : ℕ) (s : Tables) : Point → Prop
  | .creating docType status crmLeadId (some lead) =>
      s.leadLocks lead = some i ∧ crmLeadId = some lead ∧ (s.lead lead).isDeleted = false ∧
        (s.lead lead).hasProforma = false ∧ (docType = .proforma ∨ status = some .proforma)
  | .editing edit isProforma (some locked) =>
      (∀ lead ∈ locked.linked, s.leadLocks lead = some i) ∧
        ∀ lead, locked.target = some lead → s.leadLocks lead = some i ∧ (s.lead lead).isDeleted = false ∧
          (isProforma = true → (s.lead lead).hasProforma = true →
            (s.lead lead).proformaId = some edit.documentId)
  | .finalizing _ (some lead) | .voiding _ (some lead) => s.leadLocks lead = some i
  | _ => True

/-- Nobody unlocks or writes the live leads that another request has locked. -/
def Leaves (i : ℕ) (s s' : Tables) : Prop :=
  ∀ j, j ≠ i → ∀ lead, s.leadLocks lead = some j →
    s'.leadLocks lead = some j ∧ ((s.lead lead).isDeleted = false → s'.lead lead = s.lead lead)

structure Outcome (i : ℕ) (s : Tables) (out : Tables × Point) : Prop where
  leaves : Leaves i s out.1
  valid : out.1.Valid
  knows : Knows i out.1 out.2
  reopens : Reopens s out.1

theorem Knows.of_leaves {point : Point} (apart : j ≠ i) (knows : Knows j s point)
    (leaves : Leaves i s s') : Knows j s' point := by
  have rows := leaves j apart
  unfold Knows at *
  split <;> grind

/-- Documents stay live. -/
theorem reopens_of_live (live : ∀ d, (s.document d).isDeleted = false → (s'.document d).isDeleted = false) :
    Reopens s s' := by
  intro lead d marks invoice gone
  rw [live d invoice.1] at gone
  cases gone

theorem outcome_go {next : Point} (valid : s.Valid) (knows : Knows i s next) :
    Outcome i s (s, next) :=
  ⟨fun _ _ _ held => ⟨held, fun _ => rfl⟩, valid, knows, reopens_of_live fun _ live => live⟩

theorem outcome_abort (valid : s.Valid) (why : Refusal) : Outcome i s (s.abort i why) :=
  ⟨fun _ apart _ held => ⟨Locks.release_keeps apart held, fun _ => rfl⟩, valid.of_rows rfl rfl rfl rfl, trivial,
    reopens_of_live fun _ live => live⟩

/-- A commit of rows that the request has locked. -/
theorem outcome_commit {t : Tables} (valid : t.Valid) (locks : t.leadLocks = s.leadLocks)
    (own : ∀ lead, (s.lead lead).isDeleted = false → t.lead lead ≠ s.lead lead →
      s.leadLocks lead = some i ∨ s.leadLocks lead = none)
    (reopens : Reopens s t) : Outcome i s (t.commit i) := by
  refine ⟨fun j apart lead held => ⟨?_, fun live => ?_⟩, valid.of_rows rfl rfl rfl rfl, trivial, reopens⟩
  · exact Locks.release_keeps apart (by rwa [locks])
  · show t.lead lead = s.lead lead
    by_contra changed
    obtain mine | free := own lead live changed
    · exact apart (Option.some.inj (held.symm.trans mine))
    · cases held.symm.trans free

/-- A commit that writes no lead and keeps the documents. -/
theorem outcome_commit_documents {t : Tables} (valid : t.Valid) (locks : t.leadLocks = s.leadLocks)
    (leads : t.lead = s.lead)
    (live : ∀ d, (s.document d).isDeleted = false → (t.document d).isDeleted = false) :
    Outcome i s (t.commit i) :=
  outcome_commit valid locks (fun lead _ changed => absurd (congrFun leads lead) changed)
    (reopens_of_live live)

/-! ### Creating a document -/

theorem lockLeadForNewProforma_outcome {docType : DocType} {status : Option DocStatus} {leadId : ℕ}
    {out : Tables × Point} (valid : s.Valid) (proforma : docType = .proforma ∨ status = some .proforma)
    (runs : s.lockLeadForNewProforma i docType status leadId = some out) : Outcome i s out := by
  unfold Tables.lockLeadForNewProforma at runs
  by_cases gone : (s.lead leadId).isDeleted = true
  · rw [if_pos gone] at runs
    obtain rfl := Option.some.inj runs
    exact outcome_go valid trivial
  · rw [if_neg gone] at runs
    obtain ⟨leadLocks, taken, rfl⟩ := Option.map_eq_some_iff.mp runs
    split_ifs with has closed
    · exact outcome_abort valid _
    · exact outcome_abort valid _
    · refine ⟨fun j apart lead held => ⟨?_, fun _ => rfl⟩, valid.of_rows rfl rfl rfl rfl, ?_,
        reopens_of_live fun _ live => live⟩
      · obtain kept | ⟨-, same⟩ := Locks.take_keeps taken held
        · exact kept
        · exact absurd same apart
      · exact ⟨Locks.take_self taken, rfl, by simpa using gone, by simpa using has, proforma⟩

theorem createDocument_outcome {docType : DocType} {status : Option DocStatus} {crmLeadId : Option ℕ}
    {mayFinalizeSales : Bool} {out : Tables × Point} (valid : s.Valid)
    (runs : s.createDocument i docType status crmLeadId mayFinalizeSales = some out) : Outcome i s out := by
  unfold Tables.createDocument at runs
  cases crmLeadId with
  | none =>
      obtain rfl := Option.some.inj runs
      exact outcome_go valid trivial
  | some leadId =>
      dsimp only at runs
      by_cases proforma : status = some .proforma ∨ (if docType = .invoice ∧ status = some .proforma ∧
          mayFinalizeSales = false then .proforma else docType) = .proforma
      · rw [if_pos proforma] at runs
        exact lockLeadForNewProforma_outcome valid proforma.symm runs
      · rw [if_neg proforma] at runs
        obtain rfl := Option.some.inj runs
        exact outcome_go valid trivial

open Tables in
theorem createDocumentWithDetails_outcome {docType : DocType} {status : Option DocStatus}
    {crmLeadId lead : Option ℕ} (valid : s.Valid) (knows : Knows i s (.creating docType status crmLeadId lead))
    (meets : orderly s (.creating docType status crmLeadId lead) = true) :
    Outcome i s (s.createDocumentWithDetails i docType status crmLeadId lead) := by
  unfold Tables.createDocumentWithDetails
  dsimp only
  split_ifs with recorded audit missing
  · exact outcome_abort valid _
  · exact outcome_abort valid _
  · exact outcome_abort valid _
  · have fresh : ∀ d, (s.document d).isDeleted = false → d ≠ s.nextDocument :=
      fun d live => (valid.documentIds d live).ne
    have live : ∀ row d, (s.document d).isDeleted = false → ((s.insertDocument row).document d).isDeleted = false := by
      intro row d there
      simp [Tables.insertDocument, Tables.setDocument, fresh d there, there]
    cases lead with
    | none =>
        refine outcome_commit_documents (valid.insert ?_ ?_) rfl rfl (live _)
        · rintro leadId rfl
          simpa using missing
        · rintro proforma leadId rfl
          have asked : docType = .proforma ∨ status = some .proforma := by
            obtain type | given : docType = .proforma ∨ createdDocumentStatus docType status = .proforma := by
              simpa [Document.isProforma] using proforma
            · exact .inl type
            · unfold createdDocumentStatus at given
              cases status with
              | none => exact .inl (by simpa using given)
              | some status => exact .inr (congrArg some given)
          simpa [orderly, asked] using meets
    | some leadId =>
        obtain ⟨held, rfl, there, unmarked, proforma⟩ := knows
        refine outcome_commit (valid.insertMarked there unmarked rfl rfl ?_) rfl (fun lead _ changed => .inl ?_)
          (reopens_of_live (live _))
        · intro final
          obtain rfl | rfl := proforma
          · exact recorded ⟨rfl, final⟩
          · cases final
        · by_cases same : lead = leadId
          · rwa [same]
          · exact absurd (Function.update_of_ne same _ _) changed

/-! ### Locking the leads of a document -/

theorem lockLeads_outcome {purpose : Purpose} {leads : List ℕ} {out : Tables × Point} (valid : s.Valid)
    (runs : s.lockLeads i purpose leads = some out) : Outcome i s out := by
  obtain ⟨leadLocks, taken, rfl⟩ := Option.map_eq_some_iff.mp runs
  set wanted := leads.filter (s.isWanted purpose) with wanted_eq
  have held : ∀ lead ∈ wanted, leadLocks lead = some i := fun lead mem => Locks.takeAll_self taken mem
  have keeps : Leaves i s { s with leadLocks := leadLocks } :=
    fun j apart lead others => ⟨Locks.takeAll_keeps taken apart others, fun _ => rfl⟩
  have valid' : ({ s with leadLocks := leadLocks } : Tables).Valid := valid.of_rows rfl rfl rfl rfl
  have go : ∀ {next}, Knows i { s with leadLocks := leadLocks } next →
      Outcome i s ({ s with leadLocks := leadLocks }, next) :=
    fun knows => ⟨keeps, valid', knows, reopens_of_live fun _ live => live⟩
  have stop : ∀ why, Outcome i s (({ s with leadLocks := leadLocks } : Tables).abort i why) :=
    fun why => ⟨fun j apart lead others => ⟨Locks.release_keeps apart (keeps j apart lead others).1, fun _ => rfl⟩,
      valid.of_rows rfl rfl rfl rfl, trivial, reopens_of_live fun _ live => live⟩
  cases purpose with
  | finalize documentId =>
      refine go ?_
      cases first : wanted.head? with
      | none => trivial
      | some lead => exact held lead (List.mem_of_mem_head? first)
  | void documentId =>
      refine go ?_
      cases first : wanted.head? with
      | none => trivial
      | some lead => exact held lead (List.mem_of_mem_head? first)
  | link edit target isProforma =>
      have linked : ∀ lead ∈ wanted.filter (s.leadOfDocument edit.documentId), leadLocks lead = some i :=
        fun lead mem => held lead (List.mem_filter.mp mem).1
      unfold Tables.lockedFor
      cases target with
      | none => exact go ⟨linked, fun lead same => by cases same⟩
      | some leadId =>
          dsimp only
          split_ifs with present other closed
          · exact stop _
          · exact stop _
          · refine go ⟨linked, ?_⟩
            rintro lead ⟨⟩
            have live : (s.lead leadId).isDeleted = false := by
              have cond := (List.mem_filter.mp present).2
              cases deleted : (s.lead leadId).isDeleted with
              | false => rfl
              | true => simp [Tables.isWanted, Tables.leadOfDocument, deleted] at cond
            refine ⟨held leadId present, live, fun proforma has => ?_⟩
            by_contra named
            exact other ⟨proforma, has, named⟩
          · exact stop _

/-! ### Editing a document -/

theorem beginEdit_outcome (valid : s.Valid) (edit : Edit) : Outcome i s (s.beginEdit i edit) := by
  unfold Tables.beginEdit
  cases edit.crmLeadId with
  | none => exact outcome_go valid trivial
  | some target =>
      dsimp only
      split_ifs
      · exact outcome_abort valid _
      · exact outcome_go valid trivial

theorem updateDocument_outcome {edit : Edit} {isProforma : Bool} {leadLock : Option LockedDocumentLeads}
    (valid : s.Valid) (knows : Knows i s (.editing edit isProforma leadLock))
    (meets : orderly s (.editing edit isProforma leadLock) = true) :
    Outcome i s (s.updateDocument i edit isProforma leadLock) := by
  unfold Tables.updateDocument
  dsimp only
  split_ifs with gone final version
  · exact outcome_abort valid _
  · exact outcome_abort valid _
  · exact outcome_abort valid _
  · set row : Document := { s.document edit.documentId with
      status := edit.status.getD (s.document edit.documentId).status
      version := (s.document edit.documentId).version + 1 } with row_eq
    have open_ : row.status ≠ .final := by
      intro same
      obtain ⟨open_, notFinal⟩ := not_or.mp final
      cases given : edit.status with
      | none => exact open_ (by simpa [row_eq, given] using same)
      | some status => exact notFinal (by simpa [row_eq, given] using same)
    have alive : (s.document edit.documentId).isDeleted = false := by simpa using gone
    have live : ∀ d, (s.document d).isDeleted = false →
        ((s.setDocument edit.documentId row).document d).isDeleted = false := by
      intro d there
      simp only [Tables.setDocument, Function.update_apply]
      split_ifs <;> assumption
    have becomes : row.isProforma = s.becomesProforma edit := rfl
    cases leadLock with
    | none =>
        refine outcome_commit_documents (valid.setStatus rfl rfl open_ fun proforma => ?_) rfl rfl live
        -- a document that was a proforma before is claimed already
        by_cases before : (s.document edit.documentId).isProforma = true
        · exact claimed_iff.mpr fun lead names there => valid.claimed _ lead alive before names there
        · have written : edit.status = some .proforma := by
            cases given : edit.status with
            | none => simp [row_eq, Document.isProforma, given] at proforma before; grind
            | some status => simp [row_eq, Document.isProforma, given] at proforma before; grind
          simpa [orderly, written] using meets
    | some locked =>
        obtain ⟨all, same⟩ : s.leadsOfDocument edit.documentId = locked.linked ∧
            s.becomesProforma edit = isProforma := by simpa [orderly] using meets
        subst same
        obtain ⟨linkedHeld, targetHeld⟩ := knows
        refine outcome_commit ?_ ?_ (fun lead there changed => .inl ?_) (reopens_of_live ?_)
        · exact valid.link alive open_ alive all fun lead names =>
            ⟨(targetHeld lead names).2.1, (targetHeld lead names).2.2⟩
        · rw [applyDocumentLeadLink_spec]
          rfl
        · rw [applyDocumentLeadLink_spec] at changed
          by_cases isTarget : locked.target = some lead
          · exact (targetHeld lead isTarget).1
          · by_cases isLinked : lead ∈ locked.linked
            · exact linkedHeld lead isLinked
            · exact absurd (by simp [linkedRow, isTarget, isLinked, Tables.setDocument]) changed
        · intro d there
          rw [applyDocumentLeadLink_spec]
          by_cases same : d = edit.documentId
          · simp [same, Tables.setDocument, row_eq, alive]
          · simpa [same] using live d there

/-! ### Finalizing and voiding a document -/

theorem beginFinalize_outcome (valid : s.Valid) (documentId : ℕ) :
    Outcome i s (s.beginFinalize i documentId) := by
  unfold Tables.beginFinalize
  dsimp only
  split_ifs
  · exact outcome_abort valid _
  · exact outcome_commit_documents valid rfl rfl fun _ live => live
  · exact outcome_abort valid _
  · exact outcome_go valid trivial
  · exact outcome_go valid trivial

/-- The status of a document is written, whatever it was. -/
theorem setDocument_live {row : Document} (life : row.isDeleted = (s.document documentId).isDeleted) (d : ℕ)
    (live : (s.document d).isDeleted = false) :
    ((s.setDocument documentId row).document d).isDeleted = false := by
  by_cases same : d = documentId
  · subst same
    simp [Tables.setDocument, life, live]
  · simp [Tables.setDocument, same, live]

theorem setDocument_markLeadWonByInvoice (s : Tables) (documentId lead : ℕ) (row : Document) :
    (s.setDocument documentId row).markLeadWonByInvoice lead =
      (s.markLeadWonByInvoice lead).setDocument documentId row := by
  by_cases won : (s.lead lead).stage = .won ∧ (s.lead lead).status = .won
  · simp [Tables.markLeadWonByInvoice, Tables.setDocument, won]
  · simp [Tables.markLeadWonByInvoice, Tables.setDocument, Tables.setLead, won]

theorem markLeadWonByInvoice_spec (s : Tables) (lead : ℕ) :
    (s.markLeadWonByInvoice lead).document = s.document ∧
      (s.markLeadWonByInvoice lead).leadLocks = s.leadLocks ∧
      (∀ other, other ≠ lead → (s.markLeadWonByInvoice lead).lead other = s.lead other) ∧
      ((s.markLeadWonByInvoice lead).lead lead).stage = .won := by
  unfold Tables.markLeadWonByInvoice
  split_ifs with won
  · exact ⟨rfl, rfl, fun _ _ => rfl, won.1⟩
  · exact ⟨rfl, rfl, fun other apart => Function.update_of_ne apart _ _, by simp [Tables.setLead]⟩

/-- The document is written, and the lead of an invoice is won. -/
def finalized (i : ℕ) (s : Tables) (documentId : ℕ) (row : Document) : Option ℕ → Tables × Point
  | some leadId =>
      if row.docType = .invoice then ((s.setDocument documentId row).markLeadWonByInvoice leadId).commit i
      else (s.setDocument documentId row).commit i
  | none => (s.setDocument documentId row).commit i

/-- The lead of an invoice is the one that was locked. -/
theorem finalize_outcome {row : Document} {lead : Option ℕ} (valid : s.Valid) (final : row.status = .final)
    (sales : row.docType ≠ .proforma) (sameLead : row.crmLeadId = (s.document documentId).crmLeadId)
    (sameLife : row.isDeleted = (s.document documentId).isDeleted)
    (knows : Knows i s (.finalizing documentId lead))
    (linked : row.docType = .invoice → (s.leadsOfDocument documentId).head? = lead) :
    Outcome i s (finalized i s documentId row lead) := by
  have unlinked : ∀ other, row.docType = .invoice → s.Marks other documentId → lead = some other := by
    intro other invoice marks
    have first := linked invoice
    have mem : other ∈ s.leadsOfDocument documentId := (mem_leadsOfDocument valid).mpr marks
    cases list : s.leadsOfDocument documentId with
    | nil => rw [list] at mem; cases mem
    | cons head rest =>
        have headMem : head ∈ s.leadsOfDocument documentId := by rw [list]; exact List.mem_cons_self
        have headMarks := (mem_leadsOfDocument valid).mp headMem
        have names := (valid.marked head documentId headMarks).2
        obtain rfl := Option.some.inj (names.symm.trans (valid.marked other documentId marks).2)
        rw [← first, list, List.head?_cons]
  have plain : row.docType ≠ .invoice ∨ lead = none → Outcome i s ((s.setDocument documentId row).commit i) := by
    intro alone
    refine outcome_commit_documents (valid.finalize final sales sameLead sameLife fun invoice other marks => ?_)
      rfl rfl (setDocument_live sameLife)
    obtain other_ | none := alone
    · exact absurd invoice other_
    · cases none.symm.trans (unlinked other invoice marks)
  cases lead with
  | none => exact plain (.inr rfl)
  | some leadId =>
      rw [finalized]
      split_ifs with invoice
      · obtain ⟨documents, locks, others, won⟩ := markLeadWonByInvoice_spec s leadId
        rw [setDocument_markLeadWonByInvoice]
        refine outcome_commit ((valid.won leadId).finalize final sales ?_ ?_ ?_) locks
          (fun other _ changed => .inl ?_) (reopens_of_live ?_)
        · rw [documents, sameLead]
        · rw [documents, sameLife]
        · intro _ other marks
          by_cases same : other = leadId
          · rwa [same]
          · rw [Tables.Marks, others other same] at marks
            exact absurd (Option.some.inj (unlinked other invoice marks)).symm same
        · by_cases same : other = leadId
          · rw [same]
            exact knows
          · exact absurd (others other same) changed
        · intro d live
          refine setDocument_live ?_ d ?_
          · rw [documents, sameLife]
          · rw [documents, live]
      · exact plain (.inl invoice)

theorem finalizeDocument_outcome {lead : Option ℕ} (valid : s.Valid)
    (knows : Knows i s (.finalizing documentId lead)) :
    Outcome i s (s.finalizeDocument i documentId lead) := by
  unfold Tables.finalizeDocument
  dsimp only
  by_cases gone : (s.document documentId).isDeleted = true
  · rw [if_pos gone]
    exact outcome_abort valid _
  by_cases final : (s.document documentId).status = .final
  · rw [if_neg gone, if_pos final]
    exact outcome_commit_documents valid rfl rfl fun _ live => live
  by_cases changed : Tables.hasLead (s.document documentId).docType = true ∧
      (s.leadsOfDocument documentId).head? ≠ lead
  · rw [if_neg gone, if_neg final, if_pos changed]
    exact outcome_abort valid _
  · rw [if_neg gone, if_neg final, if_neg changed]
    let row : Document := { s.document documentId with
      docType := if (s.document documentId).docType = .proforma then .invoice else (s.document documentId).docType
      status := .final
      version := (s.document documentId).version + 1 }
    have notProforma : row.docType ≠ .proforma := by
      simp only [row]
      split_ifs with proforma
      · simp
      · exact proforma
    have outcome : Outcome i s (finalized i s documentId row lead) := by
      refine finalize_outcome valid rfl notProforma rfl rfl knows fun invoice => ?_
      have sales : Tables.hasLead (s.document documentId).docType = true := by
        simp only [row] at invoice
        unfold Tables.hasLead
        cases type : (s.document documentId).docType <;> simp_all
      by_contra other
      exact changed ⟨sales, other⟩
    cases lead <;> exact outcome

theorem deleteDocument_spec (s : Tables) (documentId : ℕ) :
    (s.deleteDocument documentId).lead = s.lead ∧ (s.deleteDocument documentId).leadLocks = s.leadLocks ∧
      ∀ d, d ≠ documentId → (s.deleteDocument documentId).document d = s.document d := by
  unfold Tables.deleteDocument
  split_ifs
  · exact ⟨rfl, rfl, fun _ _ => rfl⟩
  · exact ⟨rfl, rfl, fun d apart => Function.update_of_ne apart _ _⟩

/-- A document that no lead has as its proforma goes alone. -/
theorem delete_outcome (valid : s.Valid) (none : s.leadsOfDocument documentId = []) :
    Outcome i s ((s.deleteDocument documentId).commit i) := by
  have unmarked : ∀ lead, ¬s.Marks lead documentId := by
    intro lead marks
    have mem := (mem_leadsOfDocument valid).mpr marks
    rw [none] at mem
    cases mem
  obtain ⟨leads, locks, others⟩ := deleteDocument_spec s documentId
  refine outcome_commit (valid.delete unmarked) locks (fun lead _ changed => absurd (congrFun leads lead) changed) ?_
  intro lead d marks invoice gone
  by_cases same : d = documentId
  · exact absurd (same ▸ marks) (unmarked lead)
  · rw [others d same, invoice.1] at gone
    cases gone

theorem voidDocument_outcome {lead : Option ℕ} (valid : s.Valid)
    (knows : Knows i s (.voiding documentId lead))
    (meets : orderly s (.voiding documentId lead) = true) :
    Outcome i s (s.voidDocument i documentId lead) := by
  have all : s.leadsOfDocument documentId = lead.toList := by simpa [orderly] using meets
  cases lead with
  | none => exact delete_outcome valid all
  | some leadId =>
      have marks : s.Marks leadId documentId := by
        rw [← mem_leadsOfDocument valid, all]
        exact List.mem_singleton_self leadId
      have only : ∀ lead, s.Marks lead documentId → lead = leadId := by
        intro lead others
        have mem := (mem_leadsOfDocument valid).mpr others
        rw [all] at mem
        exact List.mem_singleton.mp mem
      obtain ⟨leads, locks, others⟩ :=
        deleteDocument_spec (s.releaseLeadOfVoidedDocument leadId) documentId
      refine outcome_commit (valid.void marks) locks (fun lead _ changed => .inl ?_) ?_
      · by_cases same : lead = leadId
        · rw [same]
          exact knows
        · rw [leads] at changed
          exact absurd (Function.update_of_ne same _ _) changed
      · intro lead d marks' invoice gone
        by_cases same : d = documentId
        · subst same
          obtain rfl := only lead marks'
          have won := valid.sold lead d marks' invoice
          rw [leads]
          simp [Tables.releaseLeadOfVoidedDocument, Tables.setLead, won, marks.1]
        · rw [others d same] at gone
          exact absurd (invoice.1.symm.trans gone) Bool.false_ne_true

/-! ### The workflow and the leads -/

theorem rejectToDraft_outcome (valid : s.Valid) (documentId instanceId : ℕ) :
    Outcome i s (s.rejectToDraft i documentId instanceId) := by
  unfold Tables.rejectToDraft
  dsimp only
  split_ifs with other
  · exact outcome_commit_documents valid rfl rfl fun _ live => live
  · obtain ⟨gone, -⟩ := not_or.mp other
    let row : Document := { s.document documentId with
      status := .draft
      version := (s.document documentId).version + 1 }
    have written : (s.setDocument documentId row).Valid := by
      refine valid.setStatus rfl rfl (by simp [row]) fun proforma => ?_
      have before : (s.document documentId).isProforma = true := by
        simp only [Document.isProforma, row] at proforma ⊢
        simp_all
      exact claimed_iff.mpr fun lead names there =>
        valid.claimed documentId lead (by simpa using gone) before names there
    exact outcome_commit_documents (written.of_rows rfl rfl rfl rfl) rfl rfl (setDocument_live rfl)

theorem resendAsProforma_outcome {instanceId : ℕ} (valid : s.Valid)
    (meets : orderly s (.sent (.resendAsProforma documentId instanceId)) = true) :
    Outcome i s (s.resendAsProforma i documentId instanceId) := by
  unfold Tables.resendAsProforma
  dsimp only
  split_ifs
  · exact outcome_commit_documents valid rfl rfl fun _ live => live
  · exact outcome_commit_documents (valid.setStatus rfl rfl (by simp) fun _ => meets) rfl rfl
      (setDocument_live rfl)

theorem createLead_outcome (valid : s.Valid) (stage : Stage) : Outcome i s (s.createLead i stage) := by
  unfold Tables.createLead
  split_ifs
  · exact outcome_abort valid _
  · refine outcome_commit (valid.insertLead stage) rfl (fun lead live changed => ?_)
      (reopens_of_live fun _ live => live)
    exact absurd (Function.update_of_ne (valid.leadIds lead live).ne _ _) changed

theorem updateLead_outcome (valid : s.Valid) (free : s.leadLocks lead = none ∨ s.leadLocks lead = some i)
    (stage : Option Stage) (status : Option LeadStatus) :
    Outcome i s (s.updateLead i lead stage status) := by
  unfold Tables.updateLead
  dsimp only
  by_cases gone : (s.lead lead).isDeleted = true
  · rw [if_pos gone]
    exact outcome_abort valid _
  · rw [if_neg gone]
    cases resolved : resolveLeadStageStatus stage status (s.lead lead).stage (s.lead lead).status with
    | error why => exact outcome_abort valid _
    | ok next =>
        obtain ⟨nextStage, nextStatus⟩ := next
        dsimp only
        split_ifs with unissued sold
        · exact outcome_abort valid _
        · exact outcome_abort valid _
        · have follows := resolveLeadStageStatus_follows (valid.follows lead (by simpa using gone)) resolved
          refine outcome_commit (valid.rewriteLead follows fun d marks invoice => ?_) rfl
            (fun other _ changed => ?_) (reopens_of_live fun _ live => live)
          · by_contra left
            have won := valid.sold lead d marks invoice
            refine sold ⟨fun same => left (same.trans won), left, ?_⟩
            rw [leadFinalInvoice_of_marks marks invoice]
            rfl
          · by_cases same : other = lead
            · rw [same]
              exact free.symm
            · exact absurd (Function.update_of_ne same _ _) changed

theorem deleteLead_outcome (valid : s.Valid) (free : s.leadLocks lead = none ∨ s.leadLocks lead = some i) :
    Outcome i s (s.deleteLead i lead) := by
  unfold Tables.deleteLead
  split_ifs
  · exact outcome_abort valid _
  · exact outcome_abort valid _
  · refine outcome_commit (valid.removeLead lead) rfl (fun other _ changed => ?_)
      (reopens_of_live fun _ live => live)
    by_cases same : other = lead
    · rw [same]
      exact free.symm
    · exact absurd (Function.update_of_ne same _ _) changed

theorem underLock_outcome {result out : Tables × Point}
    (outcome : s.leadLocks lead = none ∨ s.leadLocks lead = some i → Outcome i s result)
    (runs : s.underLock i lead result = some out) : Outcome i s out := by
  obtain ⟨leadLocks, taken, rfl⟩ := Option.map_eq_some_iff.mp runs
  refine outcome ?_
  unfold Locks.take at taken
  split_ifs at taken with free
  exact free

/-! ## Runs -/

theorem statement_outcome {point : Point} {out : Tables × Point} (valid : s.Valid)
    (knows : Knows i s point) (meets : orderly s point = true)
    (runs : statement i s point = some out) : Outcome i s out := by
  cases point with
  | done | refused => cases runs
  | creating | editing | finalizing | voiding | finding =>
      obtain rfl := Option.some.inj runs
      first
        | exact createDocumentWithDetails_outcome valid knows meets
        | exact updateDocument_outcome valid knows meets
        | exact finalizeDocument_outcome valid knows
        | exact voidDocument_outcome valid knows meets
        | exact outcome_go valid trivial
  | found => exact lockLeads_outcome valid runs
  | sent request =>
      cases request with
      | createDocument => exact createDocument_outcome valid runs
      | updateLead => exact underLock_outcome (fun free => updateLead_outcome valid free _ _) runs
      | deleteLead => exact underLock_outcome (deleteLead_outcome valid) runs
      | voidDocument documentId =>
          obtain rfl := Option.some.inj runs
          split_ifs
          · exact outcome_abort valid _
          · exact outcome_go valid trivial
      | cancelOpenOrder documentId =>
          obtain rfl := Option.some.inj runs
          rw [Tables.cancelOpenOrder]
          split_ifs
          · exact outcome_abort valid _
          · exact delete_outcome valid (by simpa [orderly] using meets)
      | voidOrderInvoice documentId =>
          obtain rfl := Option.some.inj runs
          exact delete_outcome valid (by simpa [orderly] using meets)
      | updateDocument edit =>
          obtain rfl := Option.some.inj runs
          exact beginEdit_outcome valid edit
      | finalizeDocument documentId =>
          obtain rfl := Option.some.inj runs
          exact beginFinalize_outcome valid documentId
      | rejectToDraft documentId instanceId =>
          obtain rfl := Option.some.inj runs
          exact rejectToDraft_outcome valid documentId instanceId
      | resendAsProforma documentId instanceId =>
          obtain rfl := Option.some.inj runs
          exact resendAsProforma_outcome valid meets
      | createLead stage =>
          obtain rfl := Option.some.inj runs
          exact createLead_outcome valid stage

/-- The next statement of a request meets the condition. -/
def Orderly (_ : ℕ) (_ : Bool) (s : Tables) (point : Point) : Prop := orderly s point = true

instance (i : ℕ) (fails : Bool) (s : Tables) (point : Point) : Decidable (Orderly i fails s point) :=
  inferInstanceAs (Decidable (orderly s point = true))

theorem requests_outcome {fails : Bool} {point : Point} {out : Tables × Point} (valid : s.Valid)
    (knows : Knows i s point) (meets : Orderly i fails s point)
    (runs : requests i fails s point = some out) : Outcome i s out := by
  unfold requests at runs
  split_ifs at runs
  · obtain rfl := Option.some.inj runs
    exact outcome_abort valid _
  · exact statement_outcome valid knows meets runs

theorem outline : Outline requests Orderly Tables.Valid Knows where
  own valid knows meets runs :=
    ⟨(requests_outcome valid knows meets runs).valid, (requests_outcome valid knows meets runs).knows⟩
  others apart valid knows others meets runs :=
    others.of_leaves apart (requests_outcome valid knows meets runs).leaves

theorem start_holds (request : ℕ → Request) : Holds Tables.Valid Knows (start request) where
  shared := by constructor <;> simp [start, Tables.Marks]
  locals _ := trivial

/-- The next turn of a run, whether it runs or waits. -/
theorem turn_reopens {c : Config ℕ Tables Point} {turn : ℕ × Bool} (holds : Holds Tables.Valid Knows c)
    (meets : requests.Meets Orderly c [turn]) : Reopens c.shared (requests.after c [turn]).shared := by
  show Reopens c.shared (exec requests.step c turn).shared
  cases taken : requests.step c turn with
  | error =>
      rw [exec_of_error taken]
      exact reopens_of_live fun _ live => live
  | ok next =>
      have orderly := meets.1 next taken
      obtain ⟨s, point, runs, rfl⟩ := Program.step_ok.mp taken
      rw [exec_of_ok taken]
      exact (requests_outcome holds.shared (holds.locals turn.1) orderly runs).reopens

/-- In every run whose statements are orderly, leads and proformas are paired at every moment, and
a statement that voids the final invoice of a lead opens the lead. -/
theorem leads_stay_paired (request : ℕ → Request) (schedule : List (ℕ × Bool))
    (meets : requests.Meets Orderly (start request) schedule) (n : ℕ) :
    Paired (requests.after (start request) (schedule.take n)).shared ∧
      Reopens (requests.after (start request) (schedule.take n)).shared
        (requests.after (start request) (schedule.take (n + 1))).shared := by
  have holds := outline.after_meets (start_holds request) (meets.take n)
  refine ⟨holds.shared.paired, ?_⟩
  have next := meets.take (n + 1)
  rw [List.take_add_one] at next ⊢
  cases turn : schedule[n]? with
  | none =>
      simp only [Option.toList_none, List.append_nil]
      exact reopens_of_live fun _ live => live
  | some turn_ =>
      rw [turn, Option.toList_some] at next
      rw [Option.toList_some, Program.after_append]
      exact turn_reopens holds (Program.Meets.append.mp next).2

/-- The requests of a run, each run to its end before the next: no more than five statements. -/
def oneByOne (count : ℕ) : List (ℕ × Bool) :=
  (List.range count).flatMap fun i => List.replicate 5 (i, false)

/-- The requests in order; the rest do nothing. -/
def requestsOf (list : List Request) (i : ℕ) : Request := list.getD i (.deleteLead 0)

/-- A proforma for a lead becomes a final invoice, which is voided. -/
def soldAndVoided : List Request :=
  [.createLead .lead, .createDocument .proforma none (some 0) false, .finalizeDocument 0, .voidDocument 0]

theorem leads_stay_paired_sold :
    requests.Meets Orderly (start (requestsOf soldAndVoided)) (oneByOne 4) ∧
      Paired (requests.after (start (requestsOf soldAndVoided)) ((oneByOne 4).take 15)).shared :=
  ⟨by decide +kernel, (leads_stay_paired (requestsOf soldAndVoided) (oneByOne 4) (by decide +kernel) 15).1⟩

/-! ## The runs that are left out -/

/-- A site order's proforma is linked to a lead, and the order is cancelled. -/
def cancelledOrder : List Request :=
  [.createLead .lead, .createDocument .proforma none none false,
    .updateDocument ⟨0, some (some 0), none, 1⟩, .cancelOpenOrder 0]

/-- A linked draft becomes a proforma by an edit without a lead, and the lead gets another one. -/
def twoProformas : List Request :=
  [.createLead .lead, .createDocument .invoice (some .draft) (some 0) true,
    .updateDocument ⟨0, none, some .proforma, 1⟩, .createDocument .proforma none (some 0) true]

/-- A void reads the leads of a proforma before an edit links it, and voids it afterwards. -/
def voidWhileLinking : List Request :=
  [.createLead .lead, .createDocument .proforma none none true, .voidDocument 0,
    .updateDocument ⟨0, some (some 0), none, 1⟩]

def voidWhileLinkingSchedule : List (ℕ × Bool) :=
  oneByOne 2 ++ List.replicate 3 (2, false) ++ List.replicate 5 (3, false) ++ [(2, false)]

theorem not_paired_of_lost (lead d : ℕ) (named : s.leadOfDocument d lead = true)
    (gone : (s.document d).isDeleted = true) : ¬Paired s := by
  intro paired
  have marks := leadOfDocument_iff.mp named
  obtain ⟨other, named, there, -⟩ := (paired.marked lead marks.1).mp marks.2.1
  obtain rfl := Option.some.inj (marks.2.2.symm.trans named)
  exact absurd (gone.symm.trans there) Bool.noConfusion

/-- A lead keeps a proforma that a cancellation or a racing void has deleted, and a lead has two
proformas. -/
theorem leads_lose_their_pairing :
    ¬Paired (requests.after (start (requestsOf cancelledOrder)) (oneByOne 4)).shared ∧
    ¬Paired (requests.after (start (requestsOf voidWhileLinking)) voidWhileLinkingSchedule).shared ∧
    ¬Paired (requests.after (start (requestsOf twoProformas)) (oneByOne 4)).shared := by
  refine ⟨?_, ?_, fun paired => ?_⟩
  · exact not_paired_of_lost 0 0 (by decide +kernel) (by decide +kernel)
  · exact not_paired_of_lost 0 0 (by decide +kernel) (by decide +kernel)
  · have same := paired.oneProforma 0 0 1 (by decide +kernel) (.inr (by decide +kernel)) (.inr (by decide +kernel))
    cases same

end PapitalErp.LeadProforma
