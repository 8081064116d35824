import PapitalErp.Workflow.Quorum

/-!
# Workflow designs and the rows they are written as

`workflowDesignRules.ts`, `transitionRoles.ts` and `workflowDesignTables.ts`. A design is what the
designer sends or what a stored version holds; it is checked as a whole and then replaces the step
and action rows of its definition, with fresh ids. A text that is not given is `none`.

The errors of a design are kept by kind, without their Persian text. The list of roles, the
catalogue of permissions and the rule engine's verdict on the conditions of an action are read
from outside.
-/

namespace PapitalErp.WorkflowVersions

open WorkflowQuorum (ApprovalRule)

/-! ## Designs -/

inductive StateType where
  | initial
  | intermediate
  | normal
  | terminal
  deriving DecidableEq

/-- A step named by its id, or by a text. -/
inductive StepRef where
  | id (id : ℕ)
  | text (s : String)
  deriving DecidableEq

/-- A step as the designer and a version snapshot send it. -/
structure DesignStateInput where
  id : Option ℕ := none
  stateKey : Option String := none
  key : Option String := none
  title : String
  stateType : Option StateType := none
  color : Option String := none
  stepOrder : Option ℕ := none
  slaHours : Option ℕ := none
  positionX : Option ℤ := none
  positionY : Option ℤ := none
  x : Option ℤ := none
  y : Option ℤ := none
  deriving DecidableEq

/-- An action as the designer and a version snapshot send it; `source` and `target` are
its `from` and `to`. -/
structure DesignTransitionInput where
  fromStateId : Option StepRef := none
  fromStateKey : Option String := none
  source : Option StepRef := none
  toStateId : Option StepRef := none
  toStateKey : Option String := none
  target : Option StepRef := none
  actionKey : String
  key : Option String := none
  title : Option String := none
  requiredRole : Option String := none
  requiredPermission : Option String := none
  approvalRuleType : Option ApprovalRule := none
  parallelApprovalRule : Option ApprovalRule := none
  kValue : Option ℕ := none
  ruleConditionsJson : Option String := none
  autoActionKey : Option String := none
  isInitiatorExcluded : Bool := false
  isInitiatorOnly : Bool := false
  deriving DecidableEq

/-- What is read from outside the workflow tables. -/
structure Reads where
  /-- the stored code of the role that a text names -/
  roleCode : String → Option String
  isCatalogPermission : String → Bool
  /-- `RuleEngineService.validateExpression` -/
  validateExpression : String → Bool
  /-- `workflowEntityExists` -/
  recordExists : Bool
  /-- the statement fails, and its transaction with it -/
  fails : Bool

/-! ## The rules of a design -/

/-- `text`: the trimmed text, empty when there is none. -/
def text (s : Option String) : String := jsTrim (s.getD "")

/-- `s || orElse` on texts. -/
def textOr (s : Option String) (orElse : String) : String :=
  match s with
  | none => orElse
  | some s => if s = "" then orElse else s

def designStateKey (state : DesignStateInput) : String :=
  if text state.stateKey = "" then text state.key else text state.stateKey

/-- `transitionEndpoints`. -/
def DesignTransitionInput.fromRef (tr : DesignTransitionInput) : Option StepRef :=
  tr.fromStateId <|> tr.fromStateKey.map .text <|> tr.source

def DesignTransitionInput.toRef (tr : DesignTransitionInput) : Option StepRef :=
  tr.toStateId <|> tr.toStateKey.map .text <|> tr.target

/-- `resolveDesignState` on the map of `designStateLookup`, where a later step replaces an earlier one. -/
def resolveDesignState (states : List DesignStateInput) : Option StepRef → Option DesignStateInput
  | none => none
  | some (.id n) => states.reverse.find? fun st => st.id = some n
  | some (.text s) =>
      if s = "" then none
      else
        (states.reverse.find? fun st => designStateKey st ≠ "" ∧ designStateKey st = jsTrim s) <|>
          states.reverse.find? fun st => st.id.map toString = some (jsTrim s)

def REJECTED_STATE_KEY : String := "rejected"

inductive DesignError where
  | noStates
  | keyMissing (index : ℕ)
  | keyTwice (key : String)
  | titleMissing (index : ℕ)
  | noInitial
  | manyInitial (count : ℕ)
  | noTerminal
  | sourceNotFound (index : ℕ)
  | targetNotFound (index : ℕ)
  | leavesTerminal (index : ℕ)
  | kValueInvalid (index : ℕ)
  | permissionUnknown (index : ℕ) (permission : String)
  | closedToAll (index : ℕ)
  | roleIsPermission (index : ℕ)

/-- `errors.push` under a condition. -/
def errorIf (c : Prop) [Decidable c] (e : DesignError) : List DesignError := if c then [e] else []

/-- The loop over the steps, from the `i`-th on, with the keys seen so far. -/
def stateErrors (seen : List String) (i : ℕ) : List DesignStateInput → List DesignError
  | [] => []
  | st :: rest =>
      (if designStateKey st = "" then [.keyMissing i]
        else errorIf (designStateKey st ∈ seen) (.keyTwice (designStateKey st))) ++
      errorIf (text (some st.title) = "") (.titleMissing i) ++
      stateErrors (designStateKey st :: seen) (i + 1) rest

def transitionErrors (reads : Reads) (states : List DesignStateInput) (i : ℕ) (tr : DesignTransitionInput) :
    List DesignError :=
  let fromState := resolveDesignState states tr.fromRef
  errorIf (fromState = none) (.sourceNotFound i) ++
  errorIf (resolveDesignState states tr.toRef = none) (.targetNotFound i) ++
  errorIf (∃ st ∈ fromState, st.stateType = some .terminal ∧ designStateKey st ≠ REJECTED_STATE_KEY)
    (.leavesTerminal i) ++
  errorIf (tr.kValue = some 0) (.kValueInvalid i) ++
  errorIf (text tr.requiredPermission ≠ "" ∧ ¬reads.isCatalogPermission (text tr.requiredPermission))
    (.permissionUnknown i (text tr.requiredPermission)) ++
  errorIf (tr.isInitiatorOnly ∧ tr.isInitiatorExcluded) (.closedToAll i) ++
  errorIf ('.' ∈ (text tr.requiredRole).toList) (.roleIsPermission i)

/-- The structural errors of a design; none means that the design is right. -/
def workflowDesignErrors (reads : Reads) (states : List DesignStateInput)
    (transitions : List DesignTransitionInput) : List DesignError :=
  if states = [] then [.noStates]
  else
    let initialCount := states.countP fun st => st.stateType = some .initial
    stateErrors [] 0 states ++
    errorIf (initialCount = 0) .noInitial ++
    errorIf (1 < initialCount) (.manyInitial initialCount) ++
    errorIf (¬∃ st ∈ states, st.stateType = some .terminal) .noTerminal ++
    (transitions.zipIdx.flatMap fun (tr, i) => transitionErrors reads states i tr)

/-- A role that accepts everybody. -/
def isOpenTransitionRole (role : String) : Prop := role = "" ∨ role = "*" ∨ role = "ALL"

instance (role : String) : Decidable (isOpenTransitionRole role) :=
  inferInstanceAs (Decidable (role = "" ∨ role = "*" ∨ role = "ALL"))

/-- `resolveTransitionRoles` finds every role that an action asks for. -/
def rolesKnown (reads : Reads) (transitions : List DesignTransitionInput) : Prop :=
  ∀ tr ∈ transitions, isOpenTransitionRole (text tr.requiredRole) ∨ reads.roleCode (text tr.requiredRole) ≠ none

instance (reads : Reads) (transitions : List DesignTransitionInput) : Decidable (rolesKnown reads transitions) :=
  inferInstanceAs (Decidable (∀ tr ∈ transitions, _ ∨ _))

def storedTransitionRole (reads : Reads) (role : Option String) : String :=
  if isOpenTransitionRole (text role) then text role else (reads.roleCode (text role)).getD (text role)

/-! ## Rows -/

/-- A row of `workflow_states`. -/
structure StateRow where
  id : ℕ
  stateKey : String
  title : String
  stateType : StateType
  color : String
  stepOrder : ℕ
  slaHours : ℕ
  positionX : ℤ
  positionY : ℤ
  deriving DecidableEq

/-- A row of `workflow_transitions`. -/
structure TransitionRow where
  id : ℕ
  fromStateId : ℕ
  toStateId : ℕ
  actionKey : String
  title : String
  requiredRole : String
  requiredPermission : String
  approvalRuleType : ApprovalRule
  kValue : ℕ
  ruleConditionsJson : String
  autoActionKey : String
  isInitiatorExcluded : Bool
  isInitiatorOnly : Bool
  deriving DecidableEq

/-- `Number(n) || orElse`. -/
def numberOr {α : Type} [Zero α] [DecidableEq α] (n : Option α) (orElse : α) : α :=
  if n.getD 0 = 0 then orElse else n.getD 0

def DesignStateInput.row (st : DesignStateInput) (id index : ℕ) : StateRow where
  id := id
  stateKey := textOr st.stateKey (textOr st.key "state")
  title := textOr (some st.title) "وضعیت"
  stateType := st.stateType.getD .normal
  color := textOr st.color "gray"
  stepOrder := numberOr st.stepOrder (index + 1)
  slaHours := numberOr st.slaHours 24
  positionX := numberOr st.positionX (numberOr st.x 100)
  positionY := numberOr st.positionY (numberOr st.y 100)

/-- The step is put into `stateIdMap` under this name. -/
def DesignStateInput.answers (st : DesignStateInput) : StepRef → Prop
  | .id n => st.id = some n
  | .text s => st.id.map toString = some s ∨ s ≠ "" ∧ (st.stateKey = some s ∨ st.key = some s)

instance (st : DesignStateInput) (ref : StepRef) : Decidable (st.answers ref) := by
  unfold DesignStateInput.answers
  split <;> infer_instance

/-- `stateIdMap.get`: the row of the last step under the name, the rows being numbered after `last`. -/
def stateIdMap (states : List DesignStateInput) (last : ℕ) (ref : StepRef) : Option ℕ :=
  ((states.zipIdx (last + 1)).reverse.find? fun p => p.1.answers ref).map (·.2)

/-- The action's row, once the rows of its two steps are known. -/
def DesignTransitionInput.row (reads : Reads) (tr : DesignTransitionInput) (id fromId toId : ℕ) : TransitionRow where
  id := id
  fromStateId := fromId
  toStateId := toId
  actionKey := textOr (some tr.actionKey) (textOr tr.key "action")
  title := textOr tr.title "اقدام"
  requiredRole := storedTransitionRole reads tr.requiredRole
  requiredPermission := text tr.requiredPermission
  approvalRuleType := (tr.approvalRuleType <|> tr.parallelApprovalRule).getD .SINGLE
  kValue := numberOr tr.kValue 1
  ruleConditionsJson := tr.ruleConditionsJson.getD "[]"
  autoActionKey := tr.autoActionKey.getD ""
  isInitiatorExcluded := tr.isInitiatorExcluded
  isInitiatorOnly := tr.isInitiatorOnly

def stateRows (states : List DesignStateInput) (last : ℕ) : List StateRow :=
  states.zipIdx.map fun (st, i) => st.row (last + 1 + i) i

/-- The rows of the actions, numbered after `last`; an action without its source or target is refused. -/
def transitionRows (reads : Reads) (stepOf : StepRef → Option ℕ) (last : ℕ) :
    List DesignTransitionInput → Option (List TransitionRow)
  | [] => some []
  | tr :: rest => do
      let fromId ← tr.fromRef >>= stepOf
      let toId ← tr.toRef >>= stepOf
      let rows ← transitionRows reads stepOf (last + 1) rest
      some (tr.row reads (last + 1) fromId toId :: rows)

/-- A snapshot's step, as it is written again. -/
def StateRow.input (row : StateRow) : DesignStateInput where
  id := some row.id
  stateKey := some row.stateKey
  title := row.title
  stateType := some row.stateType
  color := some row.color
  stepOrder := some row.stepOrder
  slaHours := some row.slaHours
  positionX := some row.positionX
  positionY := some row.positionY

def TransitionRow.input (row : TransitionRow) : DesignTransitionInput where
  fromStateId := some (.id row.fromStateId)
  toStateId := some (.id row.toStateId)
  actionKey := row.actionKey
  title := some row.title
  requiredRole := some row.requiredRole
  requiredPermission := some row.requiredPermission
  approvalRuleType := some row.approvalRuleType
  kValue := some row.kValue
  ruleConditionsJson := some row.ruleConditionsJson
  autoActionKey := some row.autoActionKey
  isInitiatorExcluded := row.isInitiatorExcluded
  isInitiatorOnly := row.isInitiatorOnly

/-! ## What is written can be run -/

/-- The check of `isUsableSnapshot`: there is a step, and all rows have database ids. -/
def usableRows (states : List StateRow) (transitions : List TransitionRow) : Prop :=
  states ≠ [] ∧ (∀ st ∈ states, 0 < st.id) ∧
    ∀ t ∈ transitions, 0 < t.id ∧ 0 < t.fromStateId ∧ 0 < t.toStateId

instance (states : List StateRow) (transitions : List TransitionRow) :
    Decidable (usableRows states transitions) :=
  inferInstanceAs (Decidable (_ ∧ _ ∧ _))

variable {reads : Reads} {states : List DesignStateInput} {transitions : List DesignTransitionInput}
  {stepOf : StepRef → Option ℕ} {last lastTransition : ℕ} {ref : StepRef} {rows : List TransitionRow}

theorem states_ne_nil (right : workflowDesignErrors reads states transitions = []) : states ≠ [] := by
  rintro rfl
  simp [workflowDesignErrors] at right

theorem stateIdMap_pos {id : ℕ} (found : stateIdMap states last ref = some id) : 0 < id := by
  simp only [stateIdMap, Option.map_eq_some_iff] at found
  obtain ⟨⟨st, n⟩, found, rfl⟩ := found
  have mem : (st, n) ∈ states.zipIdx (last + 1) := List.mem_reverse.mp (List.mem_of_find?_eq_some found)
  have numbered := List.le_snd_of_mem_zipIdx mem
  dsimp only at numbered ⊢
  omega

theorem transitionRows_pos (steps : ∀ ref id, stepOf ref = some id → 0 < id)
    (written : transitionRows reads stepOf last transitions = some rows) :
    ∀ t ∈ rows, 0 < t.id ∧ 0 < t.fromStateId ∧ 0 < t.toStateId := by
  induction transitions generalizing last rows with
  | nil =>
      obtain rfl := Option.some.inj written
      simp
  | cons tr rest ih =>
      simp only [transitionRows, Option.bind_eq_bind, Option.bind_eq_some_iff] at written
      obtain ⟨fromId, ⟨fromRef, -, source⟩, toId, ⟨toRef, -, target⟩, later, write, made⟩ := written
      obtain rfl := Option.some.inj made
      intro t mem
      obtain rfl | mem := List.mem_cons.mp mem
      · exact ⟨Nat.succ_pos last, steps _ _ source, steps _ _ target⟩
      · exact ih write t mem

theorem usable_of_written (some_state : states ≠ [])
    (written : transitionRows reads (stateIdMap states last) lastTransition transitions = some rows) :
    usableRows (stateRows states last) rows := by
  refine ⟨?_, ?_, transitionRows_pos (fun _ _ => stateIdMap_pos) written⟩
  · simpa [stateRows] using some_state
  · intro st mem
    simp only [stateRows, List.mem_map] at mem
    obtain ⟨⟨input, i⟩, -, rfl⟩ := mem
    show 0 < last + 1 + i
    omega

end PapitalErp.WorkflowVersions
