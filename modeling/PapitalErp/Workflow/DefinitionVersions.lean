import PapitalErp.Workflow.DesignRules
import Mathlib.Data.List.MinMax

/-!
# The versions of a workflow definition

`workflowSnapshot.ts` and the writes of `workflowVersionPublish.ts`, `workflowDefinitionService.ts`
and `workflowDefinitionLifecycle.ts` on one definition. The step and action rows hold the newest
save, which may be a draft; a version row holds a whole snapshot. A `Workflow` is a definition with
its step rows, action rows and version rows, all of which are written under its row lock.

Who saved a version, when, and the copy of the last payload are read by none of this and left out.
-/

namespace PapitalErp.WorkflowVersions

/-! ## Rows -/

/-- A snapshot in `dsl_json` or `snapshot_dsl`. -/
structure Snapshot where
  definitionId : ℕ
  code : String
  title : String
  entityType : String
  version : ℕ
  states : List StateRow
  transitions : List TransitionRow
  deriving DecidableEq

def isUsableSnapshot (snapshot : Snapshot) : Prop := usableRows snapshot.states snapshot.transitions

instance : DecidablePred isUsableSnapshot :=
  fun snapshot => inferInstanceAs (Decidable (usableRows snapshot.states snapshot.transitions))

inductive VersionStatus where
  | draft
  | published
  | retired
  deriving DecidableEq

/-- A row of `workflow_definition_versions`. -/
structure VersionRow where
  version : ℕ
  title : String
  description : String
  dslJson : Snapshot
  status : VersionStatus
  deriving DecidableEq

/-- A row of `workflow_definitions`. -/
structure Definition where
  code : String
  title : String
  entityType : String
  description : String
  version : ℕ
  publishedVersion : Option ℕ
  isActive : Bool
  isArchived : Bool
  deriving DecidableEq

/-- A definition with its steps, its actions and its versions. -/
structure Workflow extends Definition where
  states : List StateRow
  transitions : List TransitionRow
  versions : List VersionRow

/-! ## Snapshots and versions -/

def publishedVersionOf (d : Definition) : ℕ :=
  numberOr d.publishedVersion (numberOr (some d.version) 1)

def buildDefinitionSnapshot (id : ℕ) (w : Workflow) (version : ℕ) : Snapshot :=
  ⟨id, w.code, w.title, w.entityType, version, w.states, w.transitions⟩

/-- The greatest recorded version. -/
def maxVersion (versions : List VersionRow) : ℕ := (versions.map (·.version)).foldr max 0

def VersionRow.setStatus (row : VersionRow) (status : VersionStatus) : VersionRow := { row with status := status }

/-- `SET status = 'retired'` where the status is one of these. -/
def retire (statuses : List VersionStatus) (versions : List VersionRow) : List VersionRow :=
  versions.map fun row => if row.status ∈ statuses then row.setStatus .retired else row

/-- The number of the next version. -/
def nextVersion (w : Workflow) : ℕ := max w.version (maxVersion w.versions) + 1

/-- A new draft retires the older draft, a publication the published version too. -/
def superseded (status : VersionStatus) : List VersionStatus :=
  if status = .published then [.draft, .published] else [.draft]

def recordDefinitionVersion (id : ℕ) (w : Workflow) (title description : String) (status : VersionStatus) :
    Workflow :=
  { w with
    versions := retire (superseded status) w.versions ++
      [⟨nextVersion w, title, description, buildDefinitionSnapshot id w (nextVersion w), status⟩]
    version := nextVersion w
    publishedVersion := if status = .published then some (nextVersion w) else w.publishedVersion }

def versionRow (w : Workflow) (version : ℕ) : Option VersionRow := w.versions.find? (·.version = version)

def storedVersionSnapshot (w : Workflow) (version : ℕ) : Option Snapshot :=
  ((versionRow w version).map (·.dslJson)).filter fun snapshot => isUsableSnapshot snapshot

def ensurePublishedSnapshot (id : ℕ) (w : Workflow) (title : String) : Workflow :=
  match storedVersionSnapshot w (publishedVersionOf w.toDefinition) with
  | some _ => w
  | none =>
      if publishedVersionOf w.toDefinition ≠ w.version ∧ 0 < w.version then w
      else recordDefinitionVersion id w title "تصویر نسخه منتشرشده پیش از نخستین پیش‌نویس" .published

def publishedDesignOf (id : ℕ) (w : Workflow) : Option Snapshot :=
  match storedVersionSnapshot w (publishedVersionOf w.toDefinition) with
  | some snapshot => some snapshot
  | none =>
      if publishedVersionOf w.toDefinition = numberOr (some w.version) (publishedVersionOf w.toDefinition) then
        some (buildDefinitionSnapshot id w (publishedVersionOf w.toDefinition))
      else none

def draftRow (w : Workflow) : Option VersionRow :=
  (w.versions.filter (·.status = .draft)).argmax (·.version)

/-! ## The writes on one definition -/

/-- The payload of `saveWorkflowDefinition`, but for the id of the definition it names. -/
structure SavePayload where
  code : String
  title : String
  entityType : String
  description : Option String := none
  startInactive : Bool := false
  states : List DesignStateInput
  transitions : List DesignTransitionInput
  deriving DecidableEq

/-- `writeDesignTables`, with the last ids that were given to a step and to an action. -/
def writeDesignTables (reads : Reads) (w : Workflow) (lastState lastTransition : ℕ)
    (states : List DesignStateInput) (transitions : List DesignTransitionInput) : Option Workflow :=
  (transitionRows reads (stateIdMap states lastState) lastTransition transitions).map fun rows =>
    { w with states := stateRows states lastState, transitions := rows }

/-- A new definition, published at once. -/
def createDefinition (reads : Reads) (id : ℕ) (p : SavePayload) (isActive : Bool) (lastState lastTransition : ℕ) :
    Option Workflow :=
  let created : Workflow :=
    { code := p.code, title := p.title, entityType := p.entityType, description := p.description.getD "",
      version := 0, publishedVersion := none, isActive := isActive, isArchived := false,
      states := [], transitions := [], versions := [] }
  (writeDesignTables reads created lastState lastTransition p.states p.transitions).map fun w =>
    recordDefinitionVersion id w p.title "ایجاد فرآیند" .published

/-- `workflowEntityTypeChangeRefusal`. -/
def typeChangeRefused (w : Workflow) (startedCount : ℕ) : Bool := 0 < startedCount || w.isActive

/-- The draft of an existing definition, once its row is locked. -/
def saveDraft (reads : Reads) (id : ℕ) (w : Workflow) (p : SavePayload) (startedCount lastState lastTransition : ℕ) :
    Option Workflow :=
  if p.entityType ≠ w.entityType ∧ typeChangeRefused w startedCount then none
  else
    let ensured := ensurePublishedSnapshot id w w.title
    let headed : Workflow :=
      { ensured with
        title := p.title
        entityType := p.entityType
        description := p.description.getD w.description }
    (writeDesignTables reads headed lastState lastTransition p.states p.transitions).map fun w =>
      recordDefinitionVersion id w p.title "پیش‌نویس طرح گردش کار" .draft

/-- `assertRunnableDesign`. -/
def runnableDesign (reads : Reads) (design : Snapshot) : Prop :=
  workflowDesignErrors reads (design.states.map (·.input)) (design.transitions.map (·.input)) = [] ∧
    rolesKnown reads (design.transitions.map (·.input))

instance (reads : Reads) (design : Snapshot) : Decidable (runnableDesign reads design) :=
  inferInstanceAs (Decidable (_ ∧ _))

/-- A snapshot that may be published for the definition. -/
def publishable (reads : Reads) (w : Workflow) (design : Snapshot) : Prop :=
  isUsableSnapshot design ∧ ¬(design.entityType ≠ "" ∧ design.entityType ≠ w.entityType) ∧
    runnableDesign reads design

instance (reads : Reads) (w : Workflow) (design : Snapshot) : Decidable (publishable reads w design) :=
  inferInstanceAs (Decidable (_ ∧ _ ∧ _))

/-- The published version is retired and the draft is published. -/
def publishRow (w : Workflow) (draft : VersionRow) : Workflow :=
  { w with
    versions := (retire [.published] w.versions).map fun row =>
      if row.version = draft.version then row.setStatus .published else row
    publishedVersion := some draft.version }

/-- `publishWorkflowDraft`, once the row is locked. -/
def publishDraft (reads : Reads) (w : Workflow) (draftVersion : ℕ) : Option Workflow :=
  match draftRow w with
  | none => none
  | some draft =>
      if draft.version ≠ draftVersion ∨ ¬publishable reads w draft.dslJson then none else some (publishRow w draft)

/-- `revertWorkflowToVersion`, once the row is locked. -/
def revertToVersion (reads : Reads) (id : ℕ) (w : Workflow) (version lastState lastTransition : ℕ) : Option Workflow :=
  match versionRow w version with
  | none => none
  | some row =>
      if (version = publishedVersionOf w.toDefinition ∧ draftRow w = none) ∨ ¬publishable reads w row.dslJson then none
      else
        (writeDesignTables reads w lastState lastTransition (row.dslJson.states.map (·.input))
            (row.dslJson.transitions.map (·.input))).map fun written =>
          recordDefinitionVersion id written w.title ("برگرداندن به نسخه " ++ toString version) .published

/-- Record types that never stay without an active workflow. -/
def WORKFLOW_REQUIRED_ENTITY_TYPES : List String := ["purchase_requisition"]

/-- `writeState`. -/
def Workflow.writeState (w : Workflow) (isActive isArchived : Bool) : Workflow :=
  { w with isActive := isActive, isArchived := isArchived }

/-- Turning a definition off. -/
def deactivate (w : Workflow) : Option Workflow :=
  if ¬w.isActive ∨ w.entityType ∈ WORKFLOW_REQUIRED_ENTITY_TYPES then none else some (w.writeState false false)

/-- `setWorkflowDefinitionArchived`. -/
def setArchived (w : Workflow) (archived : Bool) : Option Workflow :=
  if archived = w.isArchived ∨ (archived ∧ w.isActive) then none else some (w.writeState false archived)

/-- The check of `setWorkflowDefinitionActive` on the definition that is to be turned on. -/
def activatable (reads : Reads) (id : ℕ) (w : Workflow) : Prop :=
  ¬w.isArchived ∧ ¬w.isActive ∧
    ∃ design ∈ publishedDesignOf id w, ¬(design.entityType ≠ "" ∧ design.entityType ≠ w.entityType) ∧
      workflowDesignErrors reads (design.states.map (·.input)) (design.transitions.map (·.input)) = []

instance (reads : Reads) (id : ℕ) (w : Workflow) : Decidable (activatable reads id w) :=
  inferInstanceAs (Decidable (_ ∧ _ ∧ _))

end PapitalErp.WorkflowVersions
