import PapitalErp.Workflow.QuorumRuns

/-!
# What a call answers about the quorum

A call that finds the caller's signature stored answers whether the stored signatures are a quorum of
today's members, and leaves the instance where it is. So a quorum that is met by a change of the role,
not by a signature, is reported and not acted on.

Between two calls the users, their roles and the delegations change freely, and the per-call results
hold of every stored progress, whatever settings it was collected under.
-/

namespace PapitalErp

open Transition

namespace WorkflowQuorum

/-- The body of the answer; a move does not tell the quorum. -/
inductive TransitionAnswer where
  | signature (quorumMet alreadySigned : Bool) (signaturesCollected requiredSignatures : ℕ)
  | moved (fromStateId toStateId : ℕ) (status : InstanceStatus)
  deriving DecidableEq

def TransitionAnswer.quorumMet : TransitionAnswer → Option Bool
  | .signature quorumMet _ _ _ => some quorumMet
  | .moved _ _ _ => none

/-- The signatures of an action are a quorum of the members of this moment. -/
def StoredQuorum (rules : CaseRules) {design : WorkflowDesign} (m : Moment design)
    (transition : WorkflowTransition) (signatures : List SignatureEntry) : Prop :=
  let ruleType := normalizeRuleType rules transition.approvalRuleType
  let members := countedMembers ruleType (andAllMemberIds rules m transition)
  getRequiredSignaturesCount ruleType transition.kValue (members.elim 0 List.length) 0 ≤
    countOf members signatures

section Answer

variable (rules : CaseRules) {design : WorkflowDesign}

/-- `executeTransition` with the body of its answer. -/
def answerTransition (m : Moment design) (s : WorkflowInstance) (call : ExecuteTransition) :
    Except TransitionRefusal (WorkflowInstance × TransitionAnswer) := do
  ensure (s.status = .IN_PROGRESS ∨ s.status = .REJECTED) .ended
  ensure (design.entityType = s.entityType) .entityTypeMismatch
  let (transition, fromState, toState) ← locateTransition m.live call.transitionId
  ensure (transition.fromStateId = s.currentStateId) .notCurrentStep
  let userPermissions := signerPermissions rules m.rolePermissions call.userRole call.userPermissions
  let actingFor ← resolveSigner rules m transition call userPermissions
  checkSigner rules m s transition call userPermissions actingFor
  let quorum := evaluateCall rules m s transition call actingFor
  if quorum.alreadySigned then
    return (s, .signature quorum.quorumMet true quorum.signaturesCount quorum.requiredCount)
  let progress := s.record transition quorum
  if ¬quorum.quorumMet then
    return ({ s with progress }, .signature false false quorum.signaturesCount quorum.requiredCount)
  ensure (m.actionSucceeds = true) .actionFailed
  return (s.advance design progress toState, .moved fromState.id toState.id (newStatus toState))

/-- What the answer tells of the outcome. -/
def TransitionAnswer.outcome : TransitionAnswer → SignOutcome
  | .signature _ true _ _ => .alreadySigned
  | .signature _ false _ _ => .signed
  | .moved _ _ _ => .moved

variable {m : Moment design} {s s' : WorkflowInstance} {call : ExecuteTransition} {answer : TransitionAnswer}

/-- The call finds the action and its signer and gets to the evaluation of the quorum. -/
theorem answerTransition_ok (accepted : answerTransition rules m s call = .ok (s', answer)) :
    ∃ transition fromState toState actingFor,
      locateTransition m.live call.transitionId = .ok (transition, fromState, toState) ∧
      transition.fromStateId = s.currentStateId ∧
      resolveSigner rules m transition call
        (signerPermissions rules m.rolePermissions call.userRole call.userPermissions) = .ok actingFor ∧
      let quorum := evaluateCall rules m s transition call actingFor
      (quorum.alreadySigned = true ∧ s' = s ∧ answer =
        .signature quorum.quorumMet true quorum.signaturesCount quorum.requiredCount) ∨
      (quorum.alreadySigned = false ∧ quorum.quorumMet = false ∧
        s' = { s with progress := s.record transition quorum } ∧ answer =
          .signature false false quorum.signaturesCount quorum.requiredCount) ∨
      (quorum.alreadySigned = false ∧ quorum.quorumMet = true ∧
        s' = s.advance design (s.record transition quorum) toState ∧ answer =
          .moved fromState.id toState.id (newStatus toState)) := by
  simp only [answerTransition, bind_eq_ok, ensure_eq_ok] at accepted
  obtain ⟨-, -, -, -, ⟨transition, fromState, toState⟩, found, -, current, actingFor, signer, -, -, rest⟩ := accepted
  refine ⟨transition, fromState, toState, actingFor, found, current, signer, ?_⟩
  intro quorum
  split_ifs at rest with signed met
  · simp only [pure_eq_ok, Prod.mk.injEq] at rest
    exact .inl ⟨signed, rest.1.symm, rest.2.symm⟩
  · simp only [bind_eq_ok, ensure_eq_ok, pure_eq_ok, Prod.mk.injEq] at rest
    obtain ⟨-, -, moved, told⟩ := rest
    exact .inr (.inr ⟨by simpa using signed, by simpa using met, moved.symm, told.symm⟩)
  · simp only [pure_eq_ok, Prod.mk.injEq] at rest
    exact .inr (.inl ⟨by simpa using signed, by simpa using met, rest.1.symm, rest.2.symm⟩)

/-- The answer goes with the call: its instance and its outcome are those of `executeTransition`. -/
theorem answerTransition_outcome :
    (answerTransition rules m s call).map (fun r => (r.1, r.2.outcome)) = executeTransition rules m s call := by
  have map_bind {α β γ ε : Type} (x : Except ε α) (f : α → Except ε β) (g : β → γ) :
      (x >>= f).map g = x >>= fun a => (f a).map g := by
    cases x <;> rfl
  simp only [answerTransition, executeTransition, map_bind]
  refine congrArg _ (funext fun _ => congrArg _ (funext fun _ => congrArg _ (funext fun located => ?_)))
  refine congrArg _ (funext fun _ => congrArg _ (funext fun actingFor => congrArg _ (funext fun _ => ?_)))
  split_ifs
  · rfl
  · rw [map_bind]
    rfl
  · rfl

/-! ## When a met quorum stays -/

variable (m s call) in
/-- The caller has signed already, and the stored signatures are a quorum of the members of this moment. -/
def SignedQuorum : Prop :=
  ∃ transition fromState toState actingFor,
    locateTransition m.live call.transitionId = .ok (transition, fromState, toState) ∧
    resolveSigner rules m transition call
      (signerPermissions rules m.rolePermissions call.userRole call.userPermissions) = .ok actingFor ∧
    hasSigned (s.signatures transition.id) (actingFor.elim call.userId ActingDelegation.fromUserId)
      call.userId = true ∧
    StoredQuorum rules m transition (s.signatures transition.id)

/-- An answer with a met quorum has left the step. -/
def MovesWhenMet (s : WorkflowInstance) (op : Moment design × ExecuteTransition) : Prop :=
  ∀ s' answer, answerTransition rules op.1 s op.2 = .ok (s', answer) →
    answer.quorumMet = some true → s'.currentStateId ≠ s.currentStateId

variable {rules} {transition : WorkflowTransition} {actingFor : Option ActingDelegation}

theorem evaluateCall_alreadySigned :
    (evaluateCall rules m s transition call actingFor).alreadySigned =
      hasSigned (s.signatures transition.id) (actingFor.elim call.userId ActingDelegation.fromUserId)
        call.userId := by
  unfold evaluateCall evaluateAndAddSignature
  split_ifs with signed
  · exact signed.symm
  · simpa using signed

theorem evaluateCall_quorumMet
    (signed : (evaluateCall rules m s transition call actingFor).alreadySigned = true) :
    (evaluateCall rules m s transition call actingFor).quorumMet = true ↔
      StoredQuorum rules m transition (s.signatures transition.id) := by
  rw [evaluateCall_alreadySigned] at signed
  unfold evaluateCall evaluateAndAddSignature
  rw [if_pos signed]
  exact decide_eq_true_iff

theorem moves_iff (accepted : answerTransition rules m s call = .ok (s', answer)) :
    (answer.quorumMet = some true → s'.currentStateId ≠ s.currentStateId) ↔ ¬SignedQuorum rules m s call := by
  obtain ⟨transition, fromState, toState, actingFor, found, -, signer, result⟩ := answerTransition_ok rules accepted
  constructor
  · rintro moves ⟨transition', fromState', toState', actingFor', found', signer', signed, stored⟩
    obtain ⟨rfl, rfl, rfl⟩ : transition' = transition ∧ fromState' = fromState ∧ toState' = toState := by
      simpa [found] using found'.symm
    obtain rfl : actingFor' = actingFor := by simpa [signer] using signer'.symm
    have again : (evaluateCall rules m s transition' call actingFor').alreadySigned = true :=
      evaluateCall_alreadySigned.trans signed
    obtain ⟨-, rfl, rfl⟩ | ⟨unsigned, -⟩ | ⟨unsigned, -⟩ := result
    · refine moves ?_ rfl
      rw [TransitionAnswer.quorumMet, (evaluateCall_quorumMet again).mpr stored]
    · simp [again] at unsigned
    · simp [again] at unsigned
  · intro apart met
    obtain ⟨signed, -, rfl⟩ | ⟨-, -, -, rfl⟩ | ⟨-, -, -, rfl⟩ := result
    · refine absurd ⟨transition, fromState, toState, actingFor, found, signer, ?_, ?_⟩ apart
      · rwa [← evaluateCall_alreadySigned]
      · exact (evaluateCall_quorumMet signed).mp (by simpa [TransitionAnswer.quorumMet] using met)
    · cases met
    · cases met

end Answer

/-! ## Runs -/

section Runs

variable {rules : CaseRules} {design : WorkflowDesign} {m : Moment design} {s s' : WorkflowInstance}
  {call : ExecuteTransition} {transition : WorkflowTransition}

/-- The signatures that an action with a fixed number of signers needs. -/
def fixedQuorum (rules : CaseRules) (transition : WorkflowTransition) : ℕ :=
  getRequiredSignaturesCount (normalizeRuleType rules transition.approvalRuleType) transition.kValue 0 0

/-- No action of the current step with a fixed number of signers has its quorum stored. -/
def Pending (rules : CaseRules) (design : WorkflowDesign) (s : WorkflowInstance) : Prop :=
  ∀ t, design.transitions.find? (·.id == t.id) = some t → t.fromStateId = s.currentStateId →
    normalizeRuleType rules t.approvalRuleType ≠ .AND_ALL → (s.signatures t.id).length < fixedQuorum rules t

theorem fixedQuorum_pos (fixed : normalizeRuleType rules transition.approvalRuleType ≠ .AND_ALL) :
    0 < fixedQuorum rules transition := by
  unfold fixedQuorum getRequiredSignaturesCount
  cases rule : normalizeRuleType rules transition.approvalRuleType with
  | SINGLE => exact Nat.one_pos
  | OR_ANY => exact Nat.one_pos
  | K_OF_N =>
      dsimp only
      omega
  | AND_ALL => exact absurd rule fixed

theorem countedMembers_fixed (fixed : normalizeRuleType rules transition.approvalRuleType ≠ .AND_ALL)
    (memberIds : Option (List ℕ)) :
    countedMembers (normalizeRuleType rules transition.approvalRuleType) memberIds = none := by
  cases memberIds with
  | none => rfl
  | some ids => simp [countedMembers, Option.filter, fixed]

theorem storedQuorum_iff (fixed : normalizeRuleType rules transition.approvalRuleType ≠ .AND_ALL)
    (signatures : List SignatureEntry) :
    StoredQuorum rules m transition signatures ↔ fixedQuorum rules transition ≤ signatures.length := by
  unfold StoredQuorum fixedQuorum
  dsimp only
  rw [countedMembers_fixed fixed]
  rfl

theorem evaluateCall_unmet {actingFor : Option ActingDelegation}
    (fixed : normalizeRuleType rules transition.approvalRuleType ≠ .AND_ALL)
    (unsigned : (evaluateCall rules m s transition call actingFor).alreadySigned = false)
    (unmet : (evaluateCall rules m s transition call actingFor).quorumMet = false) :
    (evaluateCall rules m s transition call actingFor).signatures.length < fixedQuorum rules transition := by
  unfold evaluateCall evaluateAndAddSignature at unsigned unmet ⊢
  rw [countedMembers_fixed fixed] at unsigned unmet ⊢
  split_ifs at unsigned unmet ⊢
  simp only [Bool.or_eq_false_iff, decide_eq_false_iff_not, not_le] at unmet
  exact unmet.2

/-- The action that a call finds is the first one of the design with its id. -/
theorem locateTransition_find {fromState toState : WorkflowState} {transitionId : ℕ}
    (found : locateTransition m.live transitionId = .ok (transition, fromState, toState))
    (step : design.HasStep transition.fromStateId) :
    design.transitions.find? (·.id == transition.id) = some transition := by
  obtain ⟨mem, rfl, -⟩ := locateTransition_ok found step
  cases own : design.transitions.find? (·.id == transition.id) with
  | none => exact absurd (beq_self_eq_true _) (List.find?_eq_none.mp own transition mem)
  | some other =>
      unfold locateTransition at found
      dsimp only at found
      rw [own] at found
      dsimp only at found
      split at found
      · cases found
        rfl
      · cases found

theorem executeTransition_pending {out : SignOutcome} (valid : s.Valid design)
    (pending : Pending rules design s) (accepted : executeTransition rules m s call = .ok (s', out)) :
    Pending rules design s' := by
  rw [← answerTransition_outcome] at accepted
  cases answered : answerTransition rules m s call with
  | error refusal =>
      rw [answered] at accepted
      cases accepted
  | ok answer =>
      rw [answered] at accepted
      cases accepted
      obtain ⟨transition, fromState, toState, actingFor, found, current, -, result⟩ := answerTransition_ok rules answered
      have own := locateTransition_find found (current ▸ valid.current)
      obtain ⟨-, same, -⟩ | ⟨unsigned, unmet, next, -⟩ | ⟨-, -, next, -⟩ := result
      · rwa [same]
      · rw [next]
        intro t first start fixed
        rw [record_signatures]
        split_ifs with same
        · obtain rfl : t = transition := by
            rw [same, own] at first
            exact (Option.some.inj first).symm
          exact evaluateCall_unmet fixed unsigned unmet
        · exact pending t first start fixed
      · rw [next]
        intro t first start fixed
        have entered : t.id ∈ (design.transitionsFromState toState.id).map WorkflowTransition.id :=
          List.mem_map_of_mem (List.mem_filter.mpr ⟨List.mem_of_find?_eq_some first, beq_iff_eq.mpr start⟩)
        rw [advance_signatures, if_pos entered]
        exact fixedQuorum_pos fixed

theorem executeStep_pending {op : Moment design × ExecuteTransition} (valid : s.Valid design)
    (pending : Pending rules design s) (accepted : executeStep rules s op = .ok s') :
    Pending rules design s' := by
  unfold executeStep at accepted
  cases result : executeTransition rules op.1 s op.2 with
  | error refusal =>
      rw [result] at accepted
      cases accepted
  | ok answer =>
      rw [result] at accepted
      cases accepted
      exact executeTransition_pending valid pending result

theorem startInstance_pending {startedBy : ℕ} (started : startInstance design startedBy = some s) :
    Pending rules design s := by
  obtain ⟨state, -, rfl⟩ := Option.map_eq_some_iff.mp started
  exact fun t _ _ fixed => fixedQuorum_pos fixed

end Runs

/-- Whatever the stored progress, the settings and the members are, a call that is accepted reports a
met quorum only after leaving its step if and only if it is not a second call of someone whose action
has its quorum stored. So it is along every run of an instance, where only an action that asks all
members of a role can have its quorum stored. -/
theorem met_quorum_moves (rules : CaseRules) (design : WorkflowDesign) :
    (∀ (m : Moment design) (s s' : WorkflowInstance) (call : ExecuteTransition) (answer : TransitionAnswer),
      answerTransition rules m s call = .ok (s', answer) →
        ((answer.quorumMet = some true → s'.currentStateId ≠ s.currentStateId) ↔
          ¬SignedQuorum rules m s call)) ∧
    ∀ (startedBy : ℕ) (start : WorkflowInstance), startInstance design startedBy = some start →
      ∀ ops : List (Moment design × ExecuteTransition),
        (Along (executeStep rules) (MovesWhenMet rules) start ops ↔
          Along (executeStep rules) (fun s op => ¬SignedQuorum rules op.1 s op.2) start ops) ∧
        ∀ (m : Moment design), ∀ t ∈ design.transitions, design.transitions.find? (·.id == t.id) = some t →
          t.fromStateId = (run (executeStep rules) start ops).currentStateId →
          StoredQuorum rules m t ((run (executeStep rules) start ops).signatures t.id) →
          normalizeRuleType rules t.approvalRuleType = .AND_ALL := by
  refine ⟨fun m s s' call answer accepted => moves_iff accepted, fun startedBy start started ops => ⟨?_, ?_⟩⟩
  · refine along_congr (I := fun _ => True) (fun _ _ _ _ _ => trivial) (fun s op t _ accepted => ?_) trivial
    have answers : ∃ answer, answerTransition rules op.1 s op.2 = .ok (t, answer) := by
      unfold executeStep at accepted
      rw [← answerTransition_outcome] at accepted
      cases answered : answerTransition rules op.1 s op.2 with
      | error refusal =>
          rw [answered] at accepted
          cases accepted
      | ok answer =>
          rw [answered] at accepted
          cases accepted
          exact ⟨answer.2, rfl⟩
    obtain ⟨answer, answered⟩ := answers
    rw [← moves_iff answered]
    refine ⟨fun moves => moves t answer answered, fun moves s' answer' answered' => ?_⟩
    obtain ⟨rfl, rfl⟩ : t = s' ∧ answer = answer' := by simpa [answered] using answered'
    exact moves
  · intro m t mem first current stored
    by_contra fixed
    have kept : (run (executeStep rules) start ops).Valid design ∧
        Pending rules design (run (executeStep rules) start ops) :=
      run_invariant (I := fun s => s.Valid design ∧ Pending rules design s)
        (fun _ _ _ good accepted =>
          ⟨executeStep_valid good.1 accepted, executeStep_pending good.1 good.2 accepted⟩)
        ⟨startInstance_valid started, startInstance_pending started⟩ ops
    have short := kept.2 t first current fixed
    exact absurd ((storedQuorum_iff fixed _).mp stored) (not_le.mpr short)

/-- User 8 has left the role since. -/
def oneMemberMoment : Moment unanimousDesign :=
  { unanimousMoment with users := [⟨7, "cfo", false⟩, ⟨8, "clerk", false⟩, ⟨9, "clerk", false⟩] }

/-- One of two members has signed and the other one leaves the role: when the first one calls again the
answer has a met quorum, and the instance stays in its step. -/
theorem met_quorum_stays :
    startInstance unanimousDesign 5 = some unanimousStart ∧
      let s := run (executeStep asciiRules) unanimousStart [(unanimousMoment, ⟨1, 7, "cfo", []⟩)]
      s.currentStateId = 1 ∧ (s.signatures 1).map SignatureEntry.userId = [7] ∧
      andAllMemberIds asciiRules oneMemberMoment ⟨1, 1, 2, "cfo", "", false, false, "AND_ALL", none⟩ = some [7] ∧
      ∃ s', answerTransition asciiRules oneMemberMoment s ⟨1, 7, "cfo", []⟩ = .ok (s', .signature true true 1 1) ∧
        s'.currentStateId = 1 := by
  have answered : ∃ s', answerTransition asciiRules oneMemberMoment
      (run (executeStep asciiRules) unanimousStart [(unanimousMoment, ⟨1, 7, "cfo", []⟩)])
      ⟨1, 7, "cfo", []⟩ = .ok (s', .signature true true 1 1) ∧ s'.currentStateId = 1 := by
    have evaluated : ((answerTransition asciiRules oneMemberMoment
        (run (executeStep asciiRules) unanimousStart [(unanimousMoment, ⟨1, 7, "cfo", []⟩)])
        ⟨1, 7, "cfo", []⟩).toOption.map fun r => (r.1.currentStateId, r.2)) =
          some (1, .signature true true 1 1) := by decide +kernel
    obtain ⟨⟨s', answer⟩, found, same⟩ := Option.map_eq_some_iff.mp evaluated
    simp only [Prod.mk.injEq] at same
    obtain ⟨step, rfl⟩ := same
    cases answered : answerTransition asciiRules oneMemberMoment
        (run (executeStep asciiRules) unanimousStart [(unanimousMoment, ⟨1, 7, "cfo", []⟩)])
        ⟨1, 7, "cfo", []⟩ with
    | error refusal =>
        rw [answered] at found
        cases found
    | ok r =>
        rw [answered] at found
        cases found
        exact ⟨s', rfl, step⟩
  exact ⟨unanimousStart_started, by decide +kernel, by decide +kernel, by decide +kernel, answered⟩

end WorkflowQuorum

end PapitalErp
