import PapitalErp.Lib.Interleaving
import PapitalErp.Workflow.DefinitionVersions
import PapitalErp.Workflow.TransitionExecutor

/-!
# Transactions on workflow definitions

Saves, publications, reverts, switches and starts, each a transaction of its own. A transaction
reads the record type of its definition, takes the advisory locks of the record types, in order,
and then the row lock of the definition. From there on it reads and writes rows that the lock keeps
from the others, and they see its writes after the commit, so the rest is one statement. An
activation also reads which other definitions of the type are active and locks them one by one; a
start takes no lock on the definition and reads the definition and its version in turn. A start's
commit waits for the row lock of the definition, for its foreign key.

The unique indexes are checked at the commit, against what is committed by then. Rows are numbered
in the order of the commits. No caller of `startInstance` names a version, and the rest of a
record's path through its workflow is only the end of its instance here.
-/

namespace PapitalErp.WorkflowVersions

open Interleaving
open WorkflowQuorum (InstanceStatus)

/-! ## The tables and their locks -/

/-- A row of `workflow_instances`. -/
structure Instance where
  workflowDefinitionId : ℕ
  definitionVersion : ℕ
  snapshotDsl : Snapshot
  entityType : String
  entityId : String
  currentStateId : ℕ
  status : InstanceStatus

structure Store where
  workflows : ℕ → Option Workflow
  lastDefinition : ℕ
  lastState : ℕ
  lastTransition : ℕ
  instances : List Instance
  typeLocks : Locks String ℕ
  rowLocks : Locks ℕ ℕ
  entityLocks : Locks (String × String) ℕ

/-- No definition yet. -/
def Store.empty : Store := ⟨fun _ => none, 0, 0, 0, [], fun _ => none, fun _ => none, fun _ => none⟩

namespace Store

variable (s : Store)

/-- The end of a transaction. -/
def release (i : ℕ) : Store :=
  { s with
    typeLocks := s.typeLocks.release i
    rowLocks := s.rowLocks.release i
    entityLocks := s.entityLocks.release i }

def ids : List ℕ := List.range' 1 s.lastDefinition

def isActiveOfType (type : String) (id : ℕ) : Bool :=
  (s.workflows id).any fun w => w.entityType = type && w.isActive

/-- The active definitions of a type but for one, in the order of their ids. -/
def activeDefinitionsOfType (type : String) (exceptId : Option ℕ) : List ℕ :=
  s.ids.filter fun id => s.isActiveOfType type id && some id ≠ exceptId

def findCode (code : String) : Option ℕ := s.ids.find? fun id => (s.workflows id).any (·.code = code)

def startedInstanceCount (id : ℕ) : ℕ := s.instances.countP (·.workflowDefinitionId = id)

/-- The definition's rows are written; the sequences of steps and actions move on. -/
def put (id : ℕ) (w : Workflow) : Store :=
  { s with
    workflows := Function.update s.workflows id (some w)
    lastState := s.lastState + w.states.length
    lastTransition := s.lastTransition + w.transitions.length }

def addInstance (inst : Instance) : Store := { s with instances := s.instances ++ [inst] }

def openInstance (entityType entityId : String) : Option Instance :=
  s.instances.find? fun n => n.entityType = entityType && n.entityId = entityId && n.status = .IN_PROGRESS

end Store

/-! ## Transactions -/

/-- A change of an existing definition. -/
inductive Change where
  | save (p : SavePayload)
  | publish (draftVersion : ℕ)
  | revert (version : ℕ)
  | activate (replaceActive : Bool)
  | deactivate
  | archive (archived : Bool)
  deriving DecidableEq

inductive DefinitionChoice where
  | code (workflowCode : String)
  | id (workflowDefinitionId : ℕ)
  | active
  deriving DecidableEq

/-- The parameters of `startInstance`. -/
structure StartParams where
  choice : DefinitionChoice
  entityType : String
  entityId : String
  deriving DecidableEq

inductive Op where
  | create (p : SavePayload)
  | change (id : ℕ) (c : Change)
  | start (p : StartParams)
  /-- an instance comes to its end -/
  | finish (n : ℕ) (status : InstanceStatus)

/-- How far a transaction is. -/
inductive Point where
  | begin (op : Op)
  /-- the record types are locked, but for these -/
  | lockTypes (op : Op) (types : List String)
  | creating (p : SavePayload) (isActive : Bool)
  | locked (id : ℕ) (c : Change)
  /-- the checks of an activation have passed; the others are locked, but for those left -/
  | replacing (id : ℕ) (type : String) (others left : List ℕ)
  | chosen (p : StartParams) (id : ℕ) (d : Definition)
  | queued (p : StartParams) (id : ℕ) (d : Definition)
  | reading (p : StartParams) (id : ℕ) (d : Definition)
  | building (p : StartParams) (id : ℕ) (d : Definition) (recorded : Bool)
  | starting (p : StartParams) (id : ℕ) (title : String) (target : ℕ) (snapshot : Snapshot) (recorded : Bool)
  | ended

/-- `assertSavableWorkflowDesign` and `resolveTransitionRoles`. -/
def savable (reads : Reads) (p : SavePayload) : Prop :=
  text (some p.code) ≠ "" ∧ text (some p.title) ≠ "" ∧ text (some p.entityType) ≠ "" ∧
    workflowDesignErrors reads p.states p.transitions = [] ∧
      (∀ tr ∈ p.transitions, ∀ rule ∈ tr.ruleConditionsJson, reads.validateExpression rule) ∧
        rolesKnown reads p.transitions

instance (reads : Reads) (p : SavePayload) : Decidable (savable reads p) :=
  inferInstanceAs (Decidable (_ ∧ _ ∧ _ ∧ _ ∧ _ ∧ _))

/-- The record types to lock, in order: the one the definition has and, for a save, the one asked for. -/
def lockedTypes (type : String) : Change → List String
  | .save p =>
      if p.entityType = type then [type]
      else if p.entityType < type then [p.entityType, type]
      else [type, p.entityType]
  | _ => [type]

namespace Store

variable (s : Store) (i : ℕ) (reads : Reads)

/-- An error, or a transaction with nothing to write. -/
def abandon : Store × Point := (s.release i, .ended)

def commit : Store × Point := (s.release i, .ended)

def beginChange (id : ℕ) (c : Change) : Store × Point :=
  match s.workflows id with
  | none => s.abandon i
  | some w => (s, .lockTypes (.change id c) (lockedTypes w.entityType c))

/-- The first statements of `startInstance`. -/
def chooseDefinition (p : StartParams) : Store × Point :=
  let named :=
    match p.choice with
    | .code code => s.findCode code
    | .id id => if s.workflows id = none then none else some id
    | .active => none
  match named <|> (s.activeDefinitionsOfType p.entityType none).head? with
  | none => s.abandon i
  | some id =>
      match s.workflows id with
      | none => s.abandon i
      | some w =>
          if w.entityType ≠ p.entityType ∨ ¬w.isActive ∨ ¬reads.recordExists then s.abandon i
          else (s, .chosen p id w.toDefinition)

def begin : Op → Store × Point
  | .create p => if savable reads p then (s, .lockTypes (.create p) [p.entityType]) else s.abandon i
  | .change id (.save p) => if savable reads p then s.beginChange i id (.save p) else s.abandon i
  | .change id c => s.beginChange i id c
  | .start p => s.chooseDefinition i reads p
  | .finish n status =>
      if status = .IN_PROGRESS then s.abandon i
      else ({ s with instances := s.instances.modify n fun inst => { inst with status := status } }, .ended)

/-- The checks on a new definition, once its record type is locked. -/
def checkNew (p : SavePayload) : Store × Point :=
  match s.findCode p.code with
  | some _ => s.abandon i
  | none => (s, .creating p (!p.startInactive && (s.activeDefinitionsOfType p.entityType none).isEmpty))

def insertDefinition (p : SavePayload) (isActive : Bool) : Store × Point :=
  if s.findCode p.code ≠ none ∨ (isActive ∧ s.activeDefinitionsOfType p.entityType none ≠ []) then s.abandon i
  else
    match createDefinition reads (s.lastDefinition + 1) p isActive s.lastState s.lastTransition with
    | none => s.abandon i
    | some w => { s.put (s.lastDefinition + 1) w with lastDefinition := s.lastDefinition + 1 }.commit i

/-- The rows of a definition after a change; an activation has statements of its own. -/
def changed (id : ℕ) (w : Workflow) : Change → Option Workflow
  | .save p => saveDraft reads id w p (s.startedInstanceCount id) s.lastState s.lastTransition
  | .publish draftVersion => publishDraft reads w draftVersion
  | .revert version => revertToVersion reads id w version s.lastState s.lastTransition
  | .deactivate => deactivate w
  | .archive archived => setArchived w archived
  | .activate _ => none

/-- The checks of an activation, and the read of the other active definitions of the type. -/
def checkActivation (id : ℕ) (w : Workflow) (replaceActive : Bool) : Store × Point :=
  if activatable reads id w ∧ (s.activeDefinitionsOfType w.entityType (some id) = [] ∨ replaceActive) then
    (s, .replacing id w.entityType (s.activeDefinitionsOfType w.entityType (some id))
      (s.activeDefinitionsOfType w.entityType (some id)))
  else s.abandon i

def writeChange (id : ℕ) (w : Workflow) (c : Change) : Store × Point :=
  match s.changed reads id w c with
  | none => s.abandon i
  | some w' => (s.put id w').commit i

/-- The statements under the row lock. -/
def change (id : ℕ) (w : Workflow) : Change → Store × Point
  | .activate replaceActive => s.checkActivation i reads id w replaceActive
  | c => s.writeChange i reads id w c

/-- The others are turned off and the definition is turned on. -/
def switched (id : ℕ) (others : List ℕ) : Store :=
  { s with
    workflows := fun n =>
      if n = id then (s.workflows n).map (·.writeState true false)
      else if n ∈ others then (s.workflows n).map (·.writeState false false)
      else s.workflows n }

/-- The index on active definitions holds for the one that is turned on. -/
def onlyActive (id : ℕ) : Prop :=
  ∀ w ∈ s.workflows id, s.activeDefinitionsOfType w.entityType (some id) = []

instance (id : ℕ) : Decidable (s.onlyActive id) :=
  inferInstanceAs (Decidable (∀ w ∈ s.workflows id, _))

def switch (id : ℕ) (others : List ℕ) : Store × Point :=
  if (s.switched id others).onlyActive id then (s.switched id others).commit i else s.abandon i

/-- A start looks for an open instance of the record. -/
def checkOpen (p : StartParams) (id : ℕ) (d : Definition) : Store × Point :=
  match s.openInstance p.entityType p.entityId with
  | some _ => s.abandon i
  | none => (s, .reading p id d)

/-- A start reads the row of the version it is to run. -/
def readVersion (p : StartParams) (id : ℕ) (d : Definition) : Store × Point :=
  let target := publishedVersionOf d
  let entry := (s.workflows id).bind fun w => versionRow w target
  match (entry.map (·.dslJson)).filter fun snapshot => isUsableSnapshot snapshot with
  | some snapshot => (s, .starting p id d.title target snapshot true)
  | none =>
      if target ≠ numberOr (some d.version) target then s.abandon i else (s, .building p id d entry.isSome)

/-- A start without a usable version reads the step and action rows. -/
def readTables (p : StartParams) (id : ℕ) (d : Definition) (recorded : Bool) : Store × Point :=
  match s.workflows id with
  | none => s.abandon i
  | some w =>
      (s, .starting p id d.title (publishedVersionOf d) (buildDefinitionSnapshot id w (publishedVersionOf d)) recorded)

/-- A start records the version it built, as the published one when there is none. -/
def recordStarted (id : ℕ) (w : Workflow) (title : String) (target : ℕ) (snapshot : Snapshot) : Store :=
  let status : VersionStatus := if w.versions.any (·.status = .published) then .retired else .published
  s.put id
    { w with
      versions := w.versions ++ [⟨target, title, "نسخه اولیه تولیدشده سیستمی (" ++ toString target ++ ")", snapshot, status⟩] }

def insertInstance (p : StartParams) (id target : ℕ) (snapshot : Snapshot) (w : Workflow) : Store × Point :=
  match (snapshot.states.find? (·.stateType = .initial)) <|> w.states.find? (·.stateType = .initial) with
  | none => s.abandon i
  | some initial =>
      if s.openInstance p.entityType p.entityId ≠ none then s.abandon i
      else
        (s.addInstance ⟨id, target, snapshot, p.entityType, p.entityId, initial.id, .IN_PROGRESS⟩).commit i

/-- The writes of a start. -/
def insertStarted (p : StartParams) (id : ℕ) (title : String) (target : ℕ) (snapshot : Snapshot) (recorded : Bool) :
    Store × Point :=
  match s.workflows id with
  | none => s.abandon i
  | some w =>
      if recorded then s.insertInstance i p id target snapshot w
      else if versionRow w target ≠ none then s.abandon i
      else (s.recordStarted id w title target snapshot).insertInstance i p id target snapshot w

/-- Another transaction holds the row lock of the definition. -/
def rowHeld (id : ℕ) : Prop := s.rowLocks id ≠ none ∧ s.rowLocks id ≠ some i

instance (id : ℕ) : Decidable (s.rowHeld i id) := inferInstanceAs (Decidable (_ ∧ _))

/-- The next statement of a transaction. -/
def statement : Point → Option (Store × Point)
  | .begin op => some (s.begin i reads op)
  | .lockTypes op (type :: types) =>
      (s.typeLocks.take i type).map fun locks => ({ s with typeLocks := locks }, .lockTypes op types)
  | .lockTypes (.create p) [] => some (s.checkNew i p)
  | .lockTypes (.change id c) [] =>
      (s.rowLocks.take i id).map fun locks => ({ s with rowLocks := locks }, .locked id c)
  | .lockTypes _ [] => none
  | .creating p isActive => some (s.insertDefinition i reads p isActive)
  | .locked id c =>
      match s.workflows id with
      | none => some (s.abandon i)
      | some w => some (s.change i reads id w c)
  | .replacing id type others (other :: left) =>
      (s.rowLocks.take i other).map fun locks => ({ s with rowLocks := locks }, .replacing id type others left)
  | .replacing id _ others [] => some (s.switch i id others)
  | .chosen p id d =>
      (s.entityLocks.take i (p.entityType, p.entityId)).map fun locks => ({ s with entityLocks := locks }, .queued p id d)
  | .queued p id d => some (s.checkOpen i p id d)
  | .reading p id d => some (s.readVersion i p id d)
  | .building p id d recorded => some (s.readTables i p id d recorded)
  | .starting p id title target snapshot recorded =>
      if s.rowHeld i id then none else some (s.insertStarted i p id title target snapshot recorded)
  | .ended => none

end Store

/-- The transactions; any of them may fail before a statement. -/
def transactions : Program ℕ Reads Store Point :=
  fun i reads s point => if reads.fails then some (s.abandon i) else s.statement i reads point

/-- No definition yet, and every transaction at its first statement. -/
def fresh (ops : ℕ → Op) : Config ℕ Store Point := ⟨.empty, fun i => .begin (ops i)⟩

end PapitalErp.WorkflowVersions
