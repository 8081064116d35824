import PapitalErp.Workflow.Delegation

/-!
# Signatures and quorum of one action

A signature has a principal, in whose name it counts, and an actor, who gave it. The
names, roles and comments on a signature are read by nobody and left out; `visit` stands
for its time and counts the moves of the instance before it.
-/

namespace PapitalErp

namespace WorkflowQuorum

structure SignatureEntry where
  userId : ℕ
  signedBy : Option ℕ
  delegationId : Option ℕ
  visit : ℕ
  deriving DecidableEq

/-- The person who signed. -/
def SignatureEntry.actor (s : SignatureEntry) : ℕ := s.signedBy.getD s.userId

inductive ApprovalRule where
  | SINGLE
  | AND_ALL
  | OR_ANY
  | K_OF_N
  deriving DecidableEq

/-- `normalizeRuleType`; a rule that is not given is the empty text. -/
def normalizeRuleType (rules : CaseRules) (rawType : String) : ApprovalRule :=
  let type := rules.toUpperCase (jsTrim (if rawType = "" then "SINGLE" else rawType))
  if type = "ALL" ∨ type = "AND_ALL" then .AND_ALL
  else if type = "ANY" ∨ type = "OR_ANY" then .OR_ANY
  else if type = "K_OF_N" ∨ type = "KOFN" ∨ type = "QUORUM" then .K_OF_N
  else .SINGLE

/-- `kValue || orElse`. -/
def kValueOr (kValue : Option ℤ) (orElse : ℤ) : ℤ :=
  match kValue with
  | none => orElse
  | some k => if k = 0 then orElse else k

def getRequiredSignaturesCount (ruleType : ApprovalRule) (kValue : Option ℤ)
    (requiredSignaturesCount totalCandidatesCount : ℕ) : ℕ :=
  match ruleType with
  | .SINGLE | .OR_ANY => 1
  | .K_OF_N => (max 1 (kValueOr kValue 2)).toNat
  | .AND_ALL =>
      if 0 < requiredSignaturesCount then requiredSignaturesCount
      else if 0 < totalCandidatesCount then totalCandidatesCount
      else (max 1 (kValueOr kValue 1)).toNat

structure QuorumEvaluationResult where
  alreadySigned : Bool
  quorumMet : Bool
  requiredCount : ℕ
  signaturesCount : ℕ
  signatures : List SignatureEntry

/-- The members whose signatures an AND_ALL action counts, when there are any. -/
def countedMembers (ruleType : ApprovalRule) (memberIds : Option (List ℕ)) : Option (List ℕ) :=
  memberIds.filter fun ids => ruleType == .AND_ALL && !ids.isEmpty

/-- `countOf`. -/
def countOf (members : Option (List ℕ)) (signatures : List SignatureEntry) : ℕ :=
  match members with
  | some ids => (ids.filter fun memberId => signatures.any fun s => s.userId == memberId).length
  | none => signatures.length

/-- The person has signed, in the principal's or in the actor's role. -/
def hasSigned (existing : List SignatureEntry) (userId actorId : ℕ) : Bool :=
  existing.any fun s => s.userId == userId || s.userId == actorId || s.signedBy == some actorId

/-- A signature of `userId` that `actorId` gives. -/
def newSignature (userId actorId : ℕ) (delegationId : Option ℕ) (visit : ℕ) : SignatureEntry :=
  if actorId = userId then ⟨userId, none, none, visit⟩ else ⟨userId, some actorId, delegationId, visit⟩

def evaluateAndAddSignature (ruleType : ApprovalRule) (kValue : Option ℤ)
    (memberIds : Option (List ℕ)) (existing : List SignatureEntry) (userId actorId : ℕ)
    (delegationId : Option ℕ) (visit : ℕ) : QuorumEvaluationResult :=
  let members := countedMembers ruleType memberIds
  let requiredCount :=
    getRequiredSignaturesCount ruleType kValue (members.elim 0 List.length) 0
  if hasSigned existing userId actorId then
    ⟨true, requiredCount ≤ countOf members existing, requiredCount, countOf members existing, existing⟩
  else
    let signatures := existing ++ [newSignature userId actorId delegationId visit]
    let count := countOf members signatures
    ⟨false, ruleType == .SINGLE || ruleType == .OR_ANY || requiredCount ≤ count, requiredCount, count,
      signatures⟩

/-! ## What an evaluation keeps -/

/-- No two signatures share a principal or an actor. -/
def DistinctSigners (signatures : List SignatureEntry) : Prop :=
  signatures.Pairwise fun s s' => s.userId ≠ s'.userId ∧ s.actor ≠ s'.actor

section Evaluation

variable {ruleType : ApprovalRule} {kValue : Option ℤ} {memberIds : Option (List ℕ)}
  {existing : List SignatureEntry} {userId actorId visit : ℕ} {delegationId : Option ℕ}

@[simp] theorem newSignature_userId :
    (newSignature userId actorId delegationId visit).userId = userId := by
  unfold newSignature
  split_ifs <;> rfl

@[simp] theorem newSignature_visit :
    (newSignature userId actorId delegationId visit).visit = visit := by
  unfold newSignature
  split_ifs <;> rfl

@[simp] theorem newSignature_actor :
    (newSignature userId actorId delegationId visit).actor = actorId := by
  unfold newSignature
  split_ifs with own
  · exact own.symm
  · rfl

theorem distinctSigners_concat (h : DistinctSigners existing)
    (unsigned : hasSigned existing userId actorId = false) :
    DistinctSigners (existing ++ [newSignature userId actorId delegationId visit]) := by
  refine List.pairwise_append.mpr ⟨h, List.pairwise_singleton _ _, fun s mem s' new => ?_⟩
  obtain rfl := List.mem_singleton.mp new
  have apart := List.any_eq_false.mp unsigned s mem
  simp only [Bool.or_eq_true, beq_iff_eq, not_or] at apart
  rw [newSignature_userId, newSignature_actor]
  refine ⟨apart.1.1, ?_⟩
  cases by_ : s.signedBy with
  | none => simpa [SignatureEntry.actor, by_] using apart.1.2
  | some actor => simpa [SignatureEntry.actor, by_] using apart.2

theorem evaluate_distinct (h : DistinctSigners existing) :
    DistinctSigners (evaluateAndAddSignature ruleType kValue memberIds existing userId actorId
      delegationId visit).signatures := by
  unfold evaluateAndAddSignature
  split_ifs with signed
  · exact h
  · exact distinctSigners_concat h (by simpa using signed)

/-- A quorum of an AND_ALL action has a signature of every member. -/
theorem evaluate_members {ids : List ℕ}
    (unsigned : (evaluateAndAddSignature .AND_ALL kValue (some ids) existing userId actorId
      delegationId visit).alreadySigned = false)
    (met : (evaluateAndAddSignature .AND_ALL kValue (some ids) existing userId actorId
      delegationId visit).quorumMet = true) :
    ∀ memberId ∈ ids, ∃ s ∈ existing ++ [newSignature userId actorId delegationId visit],
      s.userId = memberId := by
  intro memberId mem
  have some : ids ≠ [] := List.ne_nil_of_mem mem
  have counted : countedMembers .AND_ALL (Option.some ids) = Option.some ids := by
    simp [countedMembers, Option.filter, some]
  have positive : 0 < ids.length := List.length_pos_iff.mpr some
  unfold evaluateAndAddSignature at unsigned met
  split_ifs at unsigned met
  simp only [counted, Option.elim_some, getRequiredSignaturesCount, positive, if_true, countOf,
    Bool.or_eq_true, decide_eq_true_eq, beq_iff_eq, reduceCtorEq, false_or] at met
  have all := List.length_filter_eq_length_iff.mp (le_antisymm (List.length_filter_le _ _) met)
  obtain ⟨s, signed, same⟩ := List.any_eq_true.mp (all memberId mem)
  exact ⟨s, signed, beq_iff_eq.mp same⟩

end Evaluation

end WorkflowQuorum

end PapitalErp
