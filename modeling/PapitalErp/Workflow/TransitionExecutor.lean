import PapitalErp.Lib.Transition
import PapitalErp.Workflow.Quorum

/-!
# Executing an action of a workflow instance

An instance keeps the design it was started with: its steps and actions, with database
ids. A call of `executeTransition` runs under the row lock of the instance. What it
reads besides the instance, at its moment, are the users with their roles, the
delegations, the permissions of roles, the live design tables and whether the action's
conditions hold; the domain action that follows a move may refuse it.

Titles, comments, history rows, tasks and events are left out. An action id that the
instance's own design does not have is looked up in the live tables, whose steps get
fresh ids on every save of a design.
-/

namespace PapitalErp

open Transition

namespace WorkflowQuorum

structure WorkflowState where
  id : ℕ
  stateKey : String
  stateType : String

/-- An action of a step; a text that is not given is empty. -/
structure WorkflowTransition where
  id : ℕ
  fromStateId : ℕ
  toStateId : ℕ
  requiredRole : String
  requiredPermission : String
  isInitiatorExcluded : Bool
  isInitiatorOnly : Bool
  approvalRuleType : String
  kValue : Option ℤ

/-- The design that an instance keeps. -/
structure WorkflowDesign where
  code : String
  entityType : String
  states : List WorkflowState
  transitions : List WorkflowTransition

def WorkflowDesign.HasStep (design : WorkflowDesign) (stateId : ℕ) : Prop :=
  ∃ state ∈ design.states, state.id = stateId

/-- The live tables: an action that the design does not have starts at a step it does not have. -/
structure LiveTables (design : WorkflowDesign) where
  states : List WorkflowState
  transitions : List WorkflowTransition
  fresh : ∀ t ∈ transitions, (∀ t' ∈ design.transitions, t'.id ≠ t.id) → ¬design.HasStep t.fromStateId

inductive InstanceStatus where
  | IN_PROGRESS
  | REJECTED
  | COMPLETED
  | TERMINATED
  deriving DecidableEq

/-- An entry of `approval_progress_json`. -/
structure StepProgress where
  approvalRuleType : String
  kValue : Option ℤ
  requiredCount : ℕ
  signatures : List SignatureEntry
  fulfilled : Bool

/-- A row of `workflow_instances`; `startedBy` is zero when nobody is recorded, and `visit`
counts its moves. -/
structure WorkflowInstance where
  entityType : String
  currentStateId : ℕ
  status : InstanceStatus
  startedBy : ℕ
  progress : ℕ → Option StepProgress
  visit : ℕ

structure User where
  id : ℕ
  role : String
  isDeleted : Bool

/-- What a call reads besides the instance. -/
structure Moment (design : WorkflowDesign) where
  now : ℤ
  users : List User
  delegations : List Delegation
  rolePermissions : String → List String
  live : LiveTables design
  rulesPassed : Bool
  entityPermissions : List String
  actionSucceeds : Bool

/-- The parameters of `executeTransition`; `userId` is zero when there is none. -/
structure ExecuteTransition where
  transitionId : ℕ
  userId : ℕ
  userRole : String
  userPermissions : List String

structure ActingDelegation where
  id : ℕ
  fromUserId : ℕ
  fromRole : String
  scope : String

inductive TransitionRefusal where
  | ended
  | entityTypeMismatch
  | actionNotFound
  | stepsNotFound
  | notCurrentStep
  | roleForbidden
  | permissionRequired
  | initiatorExcluded
  | initiatorOnly
  | entityPermissionRequired
  | rulesUnmet
  | actionFailed

/-- What a call answers. -/
inductive SignOutcome where
  | alreadySigned
  | signed
  | moved
  deriving DecidableEq

/-! ## Who may sign -/

section Signer

variable (rules : CaseRules)

def roleKey (role : String) : String := rules.toLowerCase (jsTrim role)

def checkUserRoleMatch (userRole requiredRole : String) : Bool :=
  requiredRole == "" || requiredRole == "*" || requiredRole == "ALL" || isSystemAdminRole rules userRole ||
    roleKey rules userRole == roleKey rules requiredRole

/-- `effectivePermissionKey`: a removed key is read as the one that replaced it. -/
def effectivePermissionKey (stored : String) : String :=
  if jsTrim stored = "audit.create" then "audit.apply" else jsTrim stored

def signerPermissions (rolePermissions : String → List String) (userRole : String)
    (given : List String) : List String :=
  if roleKey rules userRole = "" then given
  else (rolePermissions (roleKey rules userRole) ++ given).dedup

def holdsRequiredPermission (rolePermissions : String → List String) (transition : WorkflowTransition)
    (role : String) (permissions : List String) (ownPermissions : Bool) : Bool :=
  let permission := effectivePermissionKey transition.requiredPermission
  permission == "" || isSystemAdminRole rules role || (ownPermissions && permissions.contains permission) ||
    (roleKey rules role ≠ "" && (rolePermissions (roleKey rules role)).contains permission)

def initiatorExcluded (transition : WorkflowTransition) (startedBy userId actorId : ℕ)
    (role : String) : Bool :=
  transition.isInitiatorExcluded && startedBy ≠ 0 && !isSystemAdminRole rules role &&
    (userId == startedBy || actorId == startedBy)

def initiatorOnlyRefused (transition : WorkflowTransition) (startedBy userId actorId : ℕ)
    (role : String) : Bool :=
  transition.isInitiatorOnly && !isSystemAdminRole rules role &&
    (startedBy == 0 || (userId ≠ startedBy && actorId ≠ startedBy))

variable {design : WorkflowDesign}

def Moment.isActiveUser (m : Moment design) (userId : ℕ) : Bool :=
  m.users.any fun user => user.id == userId && !user.isDeleted

/-- `activeDelegations` to a user, with the role of the delegator. -/
def activeDelegations (m : Moment design) (toUserId : ℕ) : List ActingDelegation :=
  (m.delegations.filter fun d =>
    d.toUserId == toUserId && d.isLive m.now && m.isActiveUser d.toUserId).filterMap fun d =>
      (m.users.find? fun user => user.id == d.fromUserId && !user.isDeleted).map fun user =>
        ⟨d.id, d.fromUserId, user.role, if d.scope = "" then "ALL" else d.scope⟩

/-- `resolveSigner`: the delegation by which the caller signs, or the caller's own name. -/
def resolveSigner (m : Moment design) (transition : WorkflowTransition) (call : ExecuteTransition)
    (userPermissions : List String) : Except TransitionRefusal (Option ActingDelegation) :=
  let ownRole := checkUserRoleMatch rules call.userRole transition.requiredRole
  if ownRole && holdsRequiredPermission rules m.rolePermissions transition call.userRole userPermissions true
  then .ok none
  else
    let delegations := if call.userId = 0 then [] else activeDelegations m call.userId
    match delegations.find? fun d => delegationCovers rules d.scope design.code &&
        checkUserRoleMatch rules d.fromRole transition.requiredRole &&
        holdsRequiredPermission rules m.rolePermissions transition d.fromRole [] false with
    | some d => .ok (some d)
    | none => .error (if ownRole then .permissionRequired else .roleForbidden)

/-- `andAllMemberIds`: the active users of the role of an AND_ALL action. -/
def andAllMemberIds (m : Moment design) (transition : WorkflowTransition) : Option (List ℕ) :=
  let role := roleKey rules transition.requiredRole
  if normalizeRuleType rules transition.approvalRuleType ≠ .AND_ALL ∨ role = "" ∨ role = "*" ∨ role = "all"
  then none
  else some ((m.users.filter fun user => !user.isDeleted && rules.lower user.role == role).map User.id)

end Signer

/-! ## The instance -/

/-- `startInstance`: at the initial step, with nothing signed. -/
def startInstance (design : WorkflowDesign) (startedBy : ℕ) : Option WorkflowInstance :=
  (design.states.find? fun state => state.stateType == "initial").map fun state =>
    ⟨design.entityType, state.id, .IN_PROGRESS, startedBy, fun _ => none, 0⟩

def WorkflowInstance.signatures (s : WorkflowInstance) (transitionId : ℕ) : List SignatureEntry :=
  match s.progress transitionId with
  | none => []
  | some entry => entry.signatures

section Execute

variable (rules : CaseRules) {design : WorkflowDesign}

/-- The action and its two steps, from the instance's design or from the live tables. -/
def locateTransition (live : LiveTables design) (transitionId : ℕ) :
    Except TransitionRefusal (WorkflowTransition × WorkflowState × WorkflowState) :=
  let withSteps (transition : WorkflowTransition) (states : List WorkflowState) :=
    match states.find? (·.id == transition.fromStateId), states.find? (·.id == transition.toStateId) with
    | some fromState, some toState => .ok (transition, fromState, toState)
    | _, _ => .error .stepsNotFound
  match design.transitions.find? (·.id == transitionId) with
  | some transition => withSteps transition design.states
  | none =>
      match live.transitions.find? (·.id == transitionId) with
      | some transition => withSteps transition live.states
      | none => .error .actionNotFound

/-- The checks between the signer and the quorum. -/
def checkSigner (m : Moment design) (s : WorkflowInstance) (transition : WorkflowTransition)
    (call : ExecuteTransition) (userPermissions : List String) (actingFor : Option ActingDelegation) :
    Except TransitionRefusal Unit := do
  let holds := match actingFor with
    | some d => holdsRequiredPermission rules m.rolePermissions transition d.fromRole [] false
    | none => holdsRequiredPermission rules m.rolePermissions transition call.userRole userPermissions true
  ensure (holds = true) .permissionRequired
  let signerId := actingFor.elim call.userId ActingDelegation.fromUserId
  ensure (initiatorExcluded rules transition s.startedBy signerId call.userId call.userRole = false)
    .initiatorExcluded
  ensure (initiatorOnlyRefused rules transition s.startedBy signerId call.userId call.userRole = false)
    .initiatorOnly
  let signerRole := actingFor.elim call.userRole ActingDelegation.fromRole
  let signerHeld := match actingFor with
    | some d => signerPermissions rules m.rolePermissions d.fromRole []
    | none => userPermissions
  ensure (m.entityPermissions = [] ∨ isSystemAdminRole rules signerRole = true ∨
    m.entityPermissions.any signerHeld.contains = true) .entityPermissionRequired
  ensure (m.rulesPassed = true) .rulesUnmet

/-- The evaluation of the quorum with the caller's signature. -/
def evaluateCall (m : Moment design) (s : WorkflowInstance) (transition : WorkflowTransition)
    (call : ExecuteTransition) (actingFor : Option ActingDelegation) : QuorumEvaluationResult :=
  evaluateAndAddSignature (normalizeRuleType rules transition.approvalRuleType) transition.kValue
    (andAllMemberIds rules m transition) (s.signatures transition.id)
    (actingFor.elim call.userId ActingDelegation.fromUserId) call.userId
    (actingFor.map ActingDelegation.id) s.visit

/-- `updatedProgressMap`. -/
def WorkflowInstance.record (s : WorkflowInstance) (transition : WorkflowTransition)
    (quorum : QuorumEvaluationResult) : ℕ → Option StepProgress :=
  Function.update s.progress transition.id (some
    ⟨transition.approvalRuleType, transition.kValue, quorum.requiredCount, quorum.signatures,
      quorum.quorumMet⟩)

/-- `transitionsFromState`. -/
def WorkflowDesign.transitionsFromState (design : WorkflowDesign) (stateId : ℕ) :
    List WorkflowTransition :=
  design.transitions.filter fun t => t.fromStateId == stateId

/-- `progressAfterMove`: the actions of the step that is entered are signed anew. -/
def progressAfterMove (design : WorkflowDesign) (progress : ℕ → Option StepProgress) (toStateId : ℕ) :
    ℕ → Option StepProgress := fun transitionId =>
  if transitionId ∈ (design.transitionsFromState toStateId).map WorkflowTransition.id then none
  else progress transitionId

def newStatus (toState : WorkflowState) : InstanceStatus :=
  if toState.stateType = "terminal" then
    if toState.stateKey = "rejected" then .REJECTED else .COMPLETED
  else .IN_PROGRESS

/-- The instance after its move to the step. -/
def WorkflowInstance.advance (s : WorkflowInstance) (design : WorkflowDesign)
    (progress : ℕ → Option StepProgress) (toState : WorkflowState) : WorkflowInstance :=
  { s with
      currentStateId := toState.id, status := newStatus toState
      progress := progressAfterMove design progress toState.id, visit := s.visit + 1 }

def executeTransition (m : Moment design) (s : WorkflowInstance) (call : ExecuteTransition) :
    Except TransitionRefusal (WorkflowInstance × SignOutcome) := do
  ensure (s.status = .IN_PROGRESS ∨ s.status = .REJECTED) .ended
  ensure (design.entityType = s.entityType) .entityTypeMismatch
  let (transition, _, toState) ← locateTransition m.live call.transitionId
  ensure (transition.fromStateId = s.currentStateId) .notCurrentStep
  let userPermissions := signerPermissions rules m.rolePermissions call.userRole call.userPermissions
  let actingFor ← resolveSigner rules m transition call userPermissions
  checkSigner rules m s transition call userPermissions actingFor
  let quorum := evaluateCall rules m s transition call actingFor
  if quorum.alreadySigned then return (s, .alreadySigned)
  let progress := s.record transition quorum
  if ¬quorum.quorumMet then return ({ s with progress }, .signed)
  ensure (m.actionSucceeds = true) .actionFailed
  return (s.advance design progress toState, .moved)

end Execute

end WorkflowQuorum

end PapitalErp
