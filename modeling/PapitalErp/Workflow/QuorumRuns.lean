import PapitalErp.Workflow.TransitionExecutor

/-!
# Signatures over the runs of an instance

Whatever the users, roles and delegations are at each call: the signatures stored for an
action have distinct principals and distinct actors, those of the current step were all
made in its current visit, and an action that asks all members of a role is passed only
with the signatures of everyone who is a member then. A step may have another way out
that asks for less, such as a rejection by one person.
-/

namespace PapitalErp

open Transition

namespace WorkflowQuorum

/-- The signature that a call adds to an action. -/
def signatureFor (rules : CaseRules) {design : WorkflowDesign} (m : Moment design)
    (s : WorkflowInstance) (transition : WorkflowTransition) (call : ExecuteTransition) :
    Except TransitionRefusal SignatureEntry := do
  let actingFor ← resolveSigner rules m transition call
    (signerPermissions rules m.rolePermissions call.userRole call.userPermissions)
  return newSignature (actingFor.elim call.userId ActingDelegation.fromUserId) call.userId
    (actingFor.map ActingDelegation.id) s.visit

/-- The instance after a call. -/
def executeStep (rules : CaseRules) {design : WorkflowDesign} (s : WorkflowInstance)
    (op : Moment design × ExecuteTransition) : Except TransitionRefusal WorkflowInstance :=
  (executeTransition rules op.1 s op.2).map Prod.fst

/-- What the stored progress keeps. -/
structure WorkflowInstance.Valid (design : WorkflowDesign) (s : WorkflowInstance) : Prop where
  current : design.HasStep s.currentStateId
  distinct : ∀ transitionId, DistinctSigners (s.signatures transitionId)
  visit : ∀ t ∈ design.transitions, t.fromStateId = s.currentStateId →
    ∀ signature ∈ s.signatures t.id, signature.visit = s.visit

section Execute

variable {rules : CaseRules} {design : WorkflowDesign} {m : Moment design} {s s' : WorkflowInstance}
  {call : ExecuteTransition} {out : SignOutcome} {transition : WorkflowTransition}
  {toState : WorkflowState} {quorum : QuorumEvaluationResult}

/-- An action that is found and starts at a step of the design is one of the design. -/
theorem locateTransition_ok {fromState : WorkflowState} {transitionId : ℕ}
    (found : locateTransition m.live transitionId = .ok (transition, fromState, toState))
    (step : design.HasStep transition.fromStateId) :
    transition ∈ design.transitions ∧ transition.id = transitionId ∧ toState ∈ design.states := by
  unfold locateTransition at found
  dsimp only at found
  split at found
  · rename_i t own
    split at found
    · rename_i target
      cases found
      have same := List.find?_some own
      exact ⟨List.mem_of_find?_eq_some own, beq_iff_eq.mp same, List.mem_of_find?_eq_some target⟩
    · cases found
  · rename_i none
    split at found
    · rename_i t live
      split at found
      · cases found
        have absent : ∀ t' ∈ design.transitions, t'.id ≠ transition.id := by
          intro t' mem same
          have asked := List.find?_some live
          have other := List.find?_eq_none.mp none t' mem
          rw [same] at other
          exact other asked
        exact absurd step (m.live.fresh transition (List.mem_of_find?_eq_some live) absent)
      · cases found
    · cases found

/-- What an accepted call does: it has an action of the current step and the evaluation
of its quorum, and it leaves the instance, records the signature or moves. -/
structure Executed (rules : CaseRules) (m : Moment design) (s : WorkflowInstance)
    (call : ExecuteTransition) (s' : WorkflowInstance) (out : SignOutcome)
    (transition : WorkflowTransition) (actingFor : Option ActingDelegation) (toState : WorkflowState) :
    Prop where
  action : transition ∈ design.transitions
  asked : transition.id = call.transitionId
  current : transition.fromStateId = s.currentStateId
  target : toState ∈ design.states
  signer : resolveSigner rules m transition call
    (signerPermissions rules m.rolePermissions call.userRole call.userPermissions) = .ok actingFor
  result : let quorum := evaluateCall rules m s transition call actingFor
    (quorum.alreadySigned = true ∧ s' = s ∧ out = .alreadySigned) ∨
    (quorum.alreadySigned = false ∧ quorum.quorumMet = false ∧ out = .signed ∧
      s' = { s with progress := s.record transition quorum }) ∨
    (quorum.alreadySigned = false ∧ quorum.quorumMet = true ∧ out = .moved ∧
      s' = s.advance design (s.record transition quorum) toState)

theorem executeTransition_ok (valid : s.Valid design)
    (accepted : executeTransition rules m s call = .ok (s', out)) :
    ∃ transition actingFor toState, Executed rules m s call s' out transition actingFor toState := by
  simp only [executeTransition, bind_eq_ok, ensure_eq_ok] at accepted
  obtain ⟨-, -, -, -, ⟨transition, fromState, toState⟩, found, -, current, actingFor, signer, -, -,
    rest⟩ := accepted
  obtain ⟨action, asked, target⟩ := locateTransition_ok found (current ▸ valid.current)
  refine ⟨transition, actingFor, toState, action, asked, current, target, signer, ?_⟩
  intro quorum
  split_ifs at rest with signed met
  · simp only [pure_eq_ok, Prod.mk.injEq] at rest
    exact .inl ⟨signed, rest.1.symm, rest.2.symm⟩
  · simp only [bind_eq_ok, ensure_eq_ok, pure_eq_ok, Prod.mk.injEq] at rest
    obtain ⟨-, -, moved, answer⟩ := rest
    exact .inr (.inr ⟨by simpa using signed, by simpa using met, answer.symm, moved.symm⟩)
  · simp only [pure_eq_ok, Prod.mk.injEq] at rest
    exact .inr (.inl ⟨by simpa using signed, by simpa using met, rest.2.symm, rest.1.symm⟩)

/-! ## One call -/

theorem record_signatures (transitionId : ℕ) :
    ({ s with progress := s.record transition quorum } : WorkflowInstance).signatures transitionId =
      if transitionId = transition.id then quorum.signatures else s.signatures transitionId := by
  unfold WorkflowInstance.signatures WorkflowInstance.record
  by_cases same : transitionId = transition.id
  · subst same
    simp
  · simp [same]

theorem advance_signatures {progress : ℕ → Option StepProgress} (transitionId : ℕ) :
    (s.advance design progress toState).signatures transitionId =
      if transitionId ∈ (design.transitionsFromState toState.id).map WorkflowTransition.id then []
      else ({ s with progress } : WorkflowInstance).signatures transitionId := by
  by_cases entered : transitionId ∈ (design.transitionsFromState toState.id).map WorkflowTransition.id
  · simp only [WorkflowInstance.signatures, WorkflowInstance.advance, progressAfterMove, if_pos entered]
  · simp only [WorkflowInstance.signatures, WorkflowInstance.advance, progressAfterMove,
      if_neg entered]

theorem evaluateCall_distinct {actingFor : Option ActingDelegation} (valid : s.Valid design)
    (transitionId : ℕ) :
    DistinctSigners (({ s with
      progress := s.record transition (evaluateCall rules m s transition call actingFor) } :
        WorkflowInstance).signatures transitionId) := by
  rw [record_signatures]
  split_ifs with same
  · exact evaluate_distinct (valid.distinct transition.id)
  · exact valid.distinct transitionId

/-- A call that is not signed yet adds its signature at the end. -/
theorem evaluateCall_signatures {actingFor : Option ActingDelegation}
    (unsigned : (evaluateCall rules m s transition call actingFor).alreadySigned = false) :
    (evaluateCall rules m s transition call actingFor).signatures = s.signatures transition.id ++
      [newSignature (actingFor.elim call.userId ActingDelegation.fromUserId) call.userId
        (actingFor.map ActingDelegation.id) s.visit] := by
  unfold evaluateCall evaluateAndAddSignature at unsigned ⊢
  split_ifs at unsigned ⊢
  rfl

theorem executeTransition_valid (valid : s.Valid design)
    (accepted : executeTransition rules m s call = .ok (s', out)) : s'.Valid design := by
  obtain ⟨transition, actingFor, toState, executed⟩ := executeTransition_ok valid accepted
  obtain ⟨-, rfl, -⟩ | ⟨unsigned, -, -, rfl⟩ | ⟨-, -, -, rfl⟩ := executed.result
  · exact valid
  · refine ⟨valid.current, evaluateCall_distinct valid, fun t mem from_ signature signed => ?_⟩
    rw [record_signatures] at signed
    split_ifs at signed with same
    · rw [evaluateCall_signatures unsigned] at signed
      obtain old | new := List.mem_append.mp signed
      · exact valid.visit transition executed.action executed.current signature old
      · obtain rfl := List.mem_singleton.mp new
        exact newSignature_visit
    · exact valid.visit t mem from_ signature signed
  · refine ⟨⟨toState, executed.target, rfl⟩, fun transitionId => ?_, fun t mem from_ signature signed => ?_⟩
    · rw [advance_signatures]
      split_ifs
      · exact List.Pairwise.nil
      · exact evaluateCall_distinct valid transitionId
    · have entered : t.id ∈ (design.transitionsFromState toState.id).map WorkflowTransition.id :=
        List.mem_map_of_mem (List.mem_filter.mpr ⟨mem, beq_iff_eq.mpr from_⟩)
      rw [advance_signatures, if_pos entered] at signed
      cases signed

theorem normalizeRuleType_of_members {ids : List ℕ}
    (members : andAllMemberIds rules m transition = some ids) :
    normalizeRuleType rules transition.approvalRuleType = .AND_ALL := by
  unfold andAllMemberIds at members
  dsimp only at members
  split_ifs at members with other
  exact not_not.mp fun rule => other (.inl rule)

theorem signatureFor_ok {actingFor : Option ActingDelegation}
    (signer : resolveSigner rules m transition call
      (signerPermissions rules m.rolePermissions call.userRole call.userPermissions) = .ok actingFor) :
    signatureFor rules m s transition call = .ok (newSignature
      (actingFor.elim call.userId ActingDelegation.fromUserId) call.userId
      (actingFor.map ActingDelegation.id) s.visit) := by
  unfold signatureFor
  rw [signer]
  rfl

/-- A move by an action that asks all members has the signature of each of them. -/
theorem executeTransition_members (valid : s.Valid design)
    (accepted : executeTransition rules m s call = .ok (s', .moved)) :
    ∃ transition ∈ design.transitions, transition.id = call.transitionId ∧
      transition.fromStateId = s.currentStateId ∧
      ∀ ids, andAllMemberIds rules m transition = some ids → ∀ memberId ∈ ids,
        ∃ signature, (signature ∈ s.signatures transition.id ∨
          signatureFor rules m s transition call = .ok signature) ∧
          signature.userId = memberId ∧ signature.visit = s.visit := by
  obtain ⟨transition, actingFor, toState, executed⟩ := executeTransition_ok valid accepted
  refine ⟨transition, executed.action, executed.asked, executed.current, fun ids members memberId mem => ?_⟩
  obtain ⟨-, -, out⟩ | ⟨-, -, out, -⟩ | ⟨unsigned, met, -, -⟩ := executed.result
  · cases out
  · cases out
  · unfold evaluateCall at unsigned met
    rw [normalizeRuleType_of_members members, members] at unsigned met
    obtain ⟨signature, signed, same⟩ := evaluate_members unsigned met memberId mem
    obtain old | new := List.mem_append.mp signed
    · exact ⟨signature, .inl old, same, valid.visit transition executed.action executed.current _ old⟩
    · obtain rfl := List.mem_singleton.mp new
      exact ⟨_, .inr (signatureFor_ok executed.signer), same, newSignature_visit⟩

end Execute

theorem startInstance_valid {design : WorkflowDesign} {startedBy : ℕ} {s : WorkflowInstance}
    (started : startInstance design startedBy = some s) : s.Valid design := by
  obtain ⟨state, found, rfl⟩ := Option.map_eq_some_iff.mp started
  refine ⟨⟨state, List.mem_of_find?_eq_some found, rfl⟩, fun _ => List.Pairwise.nil, ?_⟩
  intro t _ _ signature signed
  cases signed

theorem executeStep_valid {rules : CaseRules} {design : WorkflowDesign} {s s' : WorkflowInstance}
    {op : Moment design × ExecuteTransition} (valid : s.Valid design)
    (accepted : executeStep rules s op = .ok s') : s'.Valid design := by
  unfold executeStep at accepted
  cases result : executeTransition rules op.1 s op.2 with
  | error refusal =>
      rw [result] at accepted
      cases accepted
  | ok answer =>
      rw [result] at accepted
      cases accepted
      exact executeTransition_valid valid result

/-- After every sequence of calls on an instance, at any moments of the users, roles and
delegations: no two signatures stored for an action share a principal or an actor, those
for the actions of the current step were made in its current visit, and the next call
passes an action that asks all members of a role only if each of its members at that
moment has signed it in this visit. -/
theorem quorum_over_runs (rules : CaseRules) (design : WorkflowDesign) (startedBy : ℕ)
    (start : WorkflowInstance) (started : startInstance design startedBy = some start)
    (ops : List (Moment design × ExecuteTransition)) :
    let s := run (executeStep rules) start ops
    (∀ transitionId, DistinctSigners (s.signatures transitionId)) ∧
    (∀ t ∈ design.transitions, t.fromStateId = s.currentStateId →
      ∀ signature ∈ s.signatures t.id, signature.visit = s.visit) ∧
    ∀ (m : Moment design) (call : ExecuteTransition) (s' : WorkflowInstance),
      executeTransition rules m s call = .ok (s', .moved) →
      ∃ transition ∈ design.transitions, transition.id = call.transitionId ∧
        transition.fromStateId = s.currentStateId ∧
        ∀ ids, andAllMemberIds rules m transition = some ids → ∀ memberId ∈ ids,
          ∃ signature, (signature ∈ s.signatures transition.id ∨
            signatureFor rules m s transition call = .ok signature) ∧
            signature.userId = memberId ∧ signature.visit = s.visit := by
  intro s
  have valid : s.Valid design :=
    run_invariant (fun _ _ _ valid accepted => executeStep_valid valid accepted)
      (startInstance_valid started) ops
  exact ⟨valid.distinct, valid.visit, fun m call s' accepted => executeTransition_members valid accepted⟩

/-! ## A step with two ways out -/

/-- A step that all members of a role approve, and that any of them may reject. -/
def unanimousDesign : WorkflowDesign where
  code := "DOC"
  entityType := "document"
  states := [⟨1, "review", "initial"⟩, ⟨2, "approved", "terminal"⟩, ⟨3, "rejected", "terminal"⟩]
  transitions := [⟨1, 1, 2, "cfo", "", false, false, "AND_ALL", none⟩,
    ⟨2, 1, 3, "cfo", "", false, false, "SINGLE", none⟩]

/-- Users 7 and 8 have the role; 9 is the deputy of 8. -/
def unanimousMoment : Moment unanimousDesign where
  now := 0
  users := [⟨7, "cfo", false⟩, ⟨8, "CFO", false⟩, ⟨9, "clerk", false⟩]
  delegations := [⟨1, 8, 9, "ALL", 0, 10, true⟩]
  rolePermissions _ := []
  live := ⟨[], [], fun _ mem => by cases mem⟩
  rulesPassed := true
  entityPermissions := []
  actionSucceeds := true

def unanimousStart : WorkflowInstance := ⟨"document", 1, .IN_PROGRESS, 5, fun _ => none, 0⟩

theorem unanimousStart_started : startInstance unanimousDesign 5 = some unanimousStart := by
  simp [startInstance, unanimousDesign, unanimousStart]

/-- A call that is found to move the instance. -/
theorem moved_of_any {A : Except TransitionRefusal (WorkflowInstance × SignOutcome)}
    {C : WorkflowInstance → Bool}
    (found : A.toOption.any (fun r => r.2 == .moved && C r.1) = true) :
    ∃ s', A = .ok (s', .moved) ∧ C s' = true := by
  cases A with
  | error => cases found
  | ok r =>
      obtain ⟨s', out⟩ := r
      simp only [Except.toOption, Option.any_some, Bool.and_eq_true, beq_iff_eq] at found
      obtain ⟨rfl, checked⟩ := found
      exact ⟨s', rfl, checked⟩

/-- One member has signed for himself; the deputy's signature for the other one is the last. -/
theorem quorum_over_runs_with_deputy :
    let s := run (executeStep asciiRules) unanimousStart [(unanimousMoment, ⟨1, 7, "cfo", []⟩)]
    (∀ transitionId, DistinctSigners (s.signatures transitionId)) ∧
      s.signatures 1 = [⟨7, none, none, 0⟩] ∧
      ∃ s', executeTransition asciiRules unanimousMoment s ⟨1, 9, "clerk", []⟩ = .ok (s', .moved) ∧
        ∃ transition ∈ unanimousDesign.transitions, transition.id = 1 ∧
          transition.fromStateId = s.currentStateId ∧
          ∀ ids, andAllMemberIds asciiRules unanimousMoment transition = some ids → ∀ memberId ∈ ids,
            ∃ signature, (signature ∈ s.signatures transition.id ∨
              signatureFor asciiRules unanimousMoment s transition ⟨1, 9, "clerk", []⟩ = .ok signature) ∧
              signature.userId = memberId ∧ signature.visit = s.visit := by
  dsimp only
  obtain ⟨distinct, -, members⟩ := quorum_over_runs asciiRules unanimousDesign 5 unanimousStart
    unanimousStart_started [(unanimousMoment, ⟨1, 7, "cfo", []⟩)]
  obtain ⟨s', moved, -⟩ := moved_of_any (C := fun _ => true)
    (A := executeTransition asciiRules unanimousMoment
      (run (executeStep asciiRules) unanimousStart [(unanimousMoment, ⟨1, 7, "cfo", []⟩)])
      ⟨1, 9, "clerk", []⟩) (by decide +kernel)
  exact ⟨distinct, by decide +kernel, s', moved, members unanimousMoment ⟨1, 9, "clerk", []⟩ s' moved⟩

/-- One member rejects, and the step that all members approve is left without the other's
signature. -/
theorem rejection_leaves_unanimous_step :
    startInstance unanimousDesign 5 = some unanimousStart ∧
      ∃ s', executeTransition asciiRules unanimousMoment unanimousStart ⟨2, 7, "cfo", []⟩ = .ok (s', .moved) ∧
        s'.currentStateId ≠ unanimousStart.currentStateId ∧
        ∃ t ∈ unanimousDesign.transitions, t.fromStateId = unanimousStart.currentStateId ∧
          andAllMemberIds asciiRules unanimousMoment t = some [7, 8] ∧
          ∀ t' ∈ unanimousDesign.transitions, ∀ signature ∈ s'.signatures t'.id, signature.userId ≠ 8 := by
  obtain ⟨s', moved, checked⟩ := moved_of_any
    (C := fun s' => s'.currentStateId == 3 && unanimousDesign.transitions.all fun t' =>
      (s'.signatures t'.id).all fun signature => signature.userId ≠ 8)
    (A := executeTransition asciiRules unanimousMoment unanimousStart ⟨2, 7, "cfo", []⟩)
    (by decide +kernel)
  simp only [Bool.and_eq_true, beq_iff_eq, List.all_eq_true, decide_eq_true_eq] at checked
  refine ⟨unanimousStart_started, s', moved, ?_, ⟨1, 1, 2, "cfo", "", false, false, "AND_ALL", none⟩,
    List.mem_cons_self, rfl, by decide +kernel, checked.2⟩
  rw [checked.1]
  decide

end WorkflowQuorum

end PapitalErp
