import Mathlib

/-!
# The cheque state machine

One table of legal steps serves every cheque. A paid cheque is neither sent to
collection nor handed to somebody else, so those two steps are taken out for it.

Each step moves a cheque strictly nearer to a status without a next step, so no
cheque changes its status more than three times. A cheque that bounced or came
back to its drawer (`LAPSED_CHEQUE_STATUSES`) never leaves these two statuses.
-/

namespace PapitalErp

inductive ChequeStatus where
  | received
  | inTreasury
  | inSafe
  | inCollection
  | passed
  | bounced
  | returned
  | spent
  deriving DecidableEq

inductive ChequeType where
  | received
  | paid
  deriving DecidableEq

/-- `CHEQUE_TRANSITIONS`. -/
def chequeTransitions : ChequeStatus → List ChequeStatus
  | .received => [.inTreasury, .inCollection, .passed, .bounced, .spent]
  | .inTreasury => [.inCollection, .passed, .bounced, .spent]
  | .inSafe => [.inCollection, .passed, .bounced, .spent]
  | .inCollection => [.passed, .bounced]
  | .passed => []
  | .bounced => [.returned]
  | .returned => []
  | .spent => []

/-- `RECEIVED_ONLY_STEPS`. -/
def receivedOnlySteps : List ChequeStatus := [.inCollection, .spent]

/-- The legal next statuses of a cheque; an imported cheque without a status has none. -/
def chequeNextStatuses (status : Option ChequeStatus) (type : ChequeType) : List ChequeStatus :=
  let all := (status.map chequeTransitions).getD []
  if type = .paid then all.filter fun s => !receivedOnlySteps.contains s else all

/-- `LAPSED_CHEQUE_STATUSES`. -/
def lapsedChequeStatuses : List ChequeStatus := [.bounced, .returned]

/-- A bounced or returned cheque; one without a status has not lapsed. -/
def chequeLapsed (status : Option ChequeStatus) : Bool :=
  (status.map lapsedChequeStatuses.contains).getD false

/-- How many more steps a cheque in this status can take at most. -/
def ChequeStatus.stepsLeft : ChequeStatus → ℕ
  | .received => 4
  | .inTreasury | .inSafe => 3
  | .inCollection => 2
  | .bounced => 1
  | .passed | .returned | .spent => 0

variable {status next : ChequeStatus} {type : ChequeType}

theorem mem_chequeNextStatuses :
    next ∈ chequeNextStatuses (some status) type ↔
      next ∈ chequeTransitions status ∧ (type = .paid → next ∉ receivedOnlySteps) := by
  unfold chequeNextStatuses
  cases type <;> simp

theorem stepsLeft_decreases (h : next ∈ chequeNextStatuses (some status) type) :
    next.stepsLeft < status.stepsLeft := by
  have legal := (mem_chequeNextStatuses.mp h).1
  revert legal
  cases status <;> cases next <;> decide

/-- A lapsed cheque stays lapsed. -/
theorem chequeLapsed_next {status : Option ChequeStatus} (lapsed : chequeLapsed status = true)
    (h : next ∈ chequeNextStatuses status type) : chequeLapsed (some next) = true := by
  cases status with
  | none => simp [chequeLapsed] at lapsed
  | some status =>
      have legal := (mem_chequeNextStatuses.mp h).1
      revert legal lapsed
      cases status <;> cases next <;> decide

/-! ## Runs of one cheque -/

/-- Each status of the list is a legal next status of the one before it. -/
def ChequePath (type : ChequeType) : ChequeStatus → List ChequeStatus → Prop
  | _, [] => True
  | status, next :: rest =>
      next ∈ chequeNextStatuses (some status) type ∧ ChequePath type next rest

/-- Every legal run of a cheque is finite, with a bound its first status gives. -/
theorem ChequePath.length_le {path : List ChequeStatus} (h : ChequePath type status path) :
    path.length ≤ status.stepsLeft := by
  induction path generalizing status with
  | nil => exact Nat.zero_le _
  | cons next rest ih =>
      obtain ⟨legal, tail⟩ := h
      have shorter := stepsLeft_decreases legal
      have bound := ih tail
      rw [List.length_cons]
      omega

end PapitalErp
