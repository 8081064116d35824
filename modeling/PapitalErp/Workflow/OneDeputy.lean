import PapitalErp.Workflow.Delegation

/-!
# One deputy at a time

A creation looks for overlapping delegations and commits while it holds the lock of its
delegator, so nothing that overlaps can be committed in between. Ranges are closed at
both ends in the check and in the use. Scopes are stored trimmed, so the database's
`btrim` leaves them; that it lowers them as JavaScript does is what the code relies on.
-/

namespace PapitalErp

open Interleaving TrimmedText

/-- The delegation acts for the delegator in the workflow at the moment. -/
def Delegation.Acts (rules : CaseRules) (d : Delegation) (now : ℤ) (fromUserId : ℕ)
    (workflowCode : String) : Prop :=
  d.fromUserId = fromUserId ∧ d.isLive now = true ∧ delegationCovers rules d.scope workflowCode = true

instance (rules : CaseRules) (d : Delegation) (now : ℤ) (fromUserId : ℕ) (workflowCode : String) :
    Decidable (d.Acts rules now fromUserId workflowCode) :=
  inferInstanceAs (Decidable (_ ∧ _))

/-- No two of the delegations ever act for one delegator in one workflow. -/
def OneDeputy (rules : CaseRules) (rows : List Delegation) : Prop :=
  rows.Pairwise fun d e => ∀ now u code, d.Acts rules now u code → ¬e.Acts rules now u code

/-- A scope as the code stores it. -/
def StoredScope (scope : String) : Prop := scope ≠ "" ∧ jsTrim scope = scope

section Scopes

variable {rules : CaseRules} {d e : Delegation} {now : ℤ} {u : ℕ} {code : String}

theorem jsTrim_jsTrim (s : String) : jsTrim (jsTrim s) = jsTrim s :=
  trim_trim fun _ => id

theorem btrim_jsTrim (s : String) : btrim (jsTrim s) = jsTrim s := by
  refine trim_trim fun c space => ?_
  obtain rfl := beq_iff_eq.mp space
  rfl

theorem requestedScope_stored (scope : Option String) : StoredScope (requestedScope scope) := by
  have all : StoredScope "ALL" := ⟨by decide, by decide +kernel⟩
  cases scope with
  | none => exact all
  | some text =>
      show StoredScope (if jsTrim text = "" then "ALL" else jsTrim (jsTrim text))
      split_ifs with empty
      · exact all
      · rw [jsTrim_jsTrim]
        exact ⟨empty, jsTrim_jsTrim text⟩

/-- Of two delegations that act at one moment, either overlaps the other. -/
theorem overlaps_of_acts (sameCase : ∀ s, rules.lower s = rules.toLowerCase s)
    (storedD : StoredScope d.scope) (storedE : StoredScope e.scope)
    (actsD : d.Acts rules now u code) (actsE : e.Acts rules now u code) :
    overlaps rules e d = true := by
  obtain ⟨userD, liveD, coversD⟩ := actsD
  obtain ⟨userE, liveE, coversE⟩ := actsE
  simp only [Delegation.isLive, Bool.and_eq_true, decide_eq_true_eq] at liveD liveE
  simp only [delegationCovers, if_neg storedD.1, if_neg storedE.1, storedD.2, storedE.2,
    Bool.or_eq_true, Bool.and_eq_true, beq_iff_eq, decide_eq_true_eq] at coversD coversE
  have trimmedAll : jsTrim "all" = "all" := by decide +kernel
  have trimmedStar : jsTrim "*" = "*" := by decide +kernel
  have lowered : rules.lower (btrim d.scope) = rules.toLowerCase d.scope := by
    rw [sameCase, ← storedD.2, btrim_jsTrim]
  have scopes : isAllScope rules (rules.toLowerCase e.scope) = true ∨
      rules.toLowerCase d.scope ∈ ["all", "*", rules.toLowerCase e.scope] := by
    obtain (all | star) | ⟨-, same⟩ := coversE
    · exact .inl (by simp [isAllScope, all, trimmedAll, rules.all])
    · exact .inl (by simp [isAllScope, star, trimmedStar, rules.star])
    · obtain (all | star) | ⟨-, same'⟩ := coversD
      · exact .inr (by simp [all])
      · exact .inr (by simp [star])
      · exact .inr (by simp [same, same'])
  simp only [overlaps, storedE.2, lowered, Bool.and_eq_true, Bool.or_eq_true, beq_iff_eq,
    decide_eq_true_eq, List.contains_iff_mem]
  exact ⟨⟨⟨⟨userD.trans userE.symm, liveD.1.1⟩, liveD.1.2.trans liveE.2⟩, liveE.1.2.trans liveD.2⟩,
    scopes⟩

/-- A revoked delegation acts no more. -/
theorem not_acts_of_inactive (revoked : d.isActive = false) : ¬d.Acts rules now u code := by
  intro acts
  simp [Delegation.Acts, Delegation.isLive, revoked] at acts

end Scopes

/-! ## What the processes keep -/

/-- The committed delegations. -/
structure DelegationTables.Valid (rules : CaseRules) (t : DelegationTables) : Prop where
  oneDeputy : OneDeputy rules t.rows
  stored : ∀ d ∈ t.rows, StoredScope d.scope

/-- The process holds its delegator's lock and has stored its scope trimmed. -/
def HoldsDelegator (i : ℕ) (t : DelegationTables) (candidate : Delegation) : Prop :=
  t.locks candidate.fromUserId = some i ∧ StoredScope candidate.scope

/-- No committed delegation overlaps the candidate. -/
def NoneOverlaps (rules : CaseRules) (rows : List Delegation) (candidate : Delegation) : Prop :=
  ∀ d ∈ rows, overlaps rules candidate d = false

/-- What a process knows at its point of the code. -/
def KnowsDelegator (rules : CaseRules) (i : ℕ) (t : DelegationTables) : DelegationProgress → Prop
  | .begun candidate => StoredScope candidate.scope
  | .locked candidate | .checked candidate => HoldsDelegator i t candidate
  | .clear candidate | .inserted candidate =>
      HoldsDelegator i t candidate ∧ NoneOverlaps rules t.rows candidate
  | .start | .revoking _ | .done => True

section Outline

variable {rules : CaseRules} {dayStart : ℤ → ℤ} {actors : ℕ → DelegationActor} {i j : ℕ}
  {t t' : DelegationTables} {progress next : DelegationProgress} {candidate row : Delegation}

/-- What a statement of process `i` leaves to the others: their locks stay, and the rows
of a delegator that another process holds are at most revoked. -/
structure LeavesDelegators (rules : CaseRules) (i : ℕ) (t t' : DelegationTables) : Prop where
  locks : ∀ j ≠ i, ∀ u, t.locks u = some j → t'.locks u = some j
  rows : ∀ j ≠ i, ∀ candidate, t.locks candidate.fromUserId = some j →
    NoneOverlaps rules t.rows candidate → NoneOverlaps rules t'.rows candidate

/-- The effect of a statement. -/
structure DelegationOutcome (rules : CaseRules) (i : ℕ) (t t' : DelegationTables)
    (next : DelegationProgress) : Prop where
  valid : t'.Valid rules
  own : KnowsDelegator rules i t' next
  others : LeavesDelegators rules i t t'

theorem HoldsDelegator.others (h : HoldsDelegator j t candidate) (apart : j ≠ i)
    (leaves : LeavesDelegators rules i t t') : HoldsDelegator j t' candidate :=
  ⟨leaves.locks j apart _ h.1, h.2⟩

theorem KnowsDelegator.others (h : KnowsDelegator rules j t progress) (apart : j ≠ i)
    (leaves : LeavesDelegators rules i t t') : KnowsDelegator rules j t' progress := by
  cases progress with
  | begun => exact h
  | locked | checked => exact HoldsDelegator.others h apart leaves
  | clear | inserted => exact ⟨h.1.others apart leaves, leaves.rows j apart _ h.1.1 h.2⟩
  | start | revoking | done => trivial

namespace DelegationOutcome

theorem read (h : t.Valid rules) (own : KnowsDelegator rules i t next) :
    DelegationOutcome rules i t t next :=
  ⟨h, own, fun _ _ _ => id, fun _ _ _ _ => id⟩

/-- The end of a transaction that has written nothing. -/
theorem release (h : t.Valid rules) : DelegationOutcome rules i t (t.release i) .done :=
  ⟨⟨h.oneDeputy, h.stored⟩, trivial, fun _ apart _ held => Locks.release_keeps apart held,
    fun _ _ _ _ => id⟩

theorem lock {locks : Locks ℕ ℕ} (h : t.Valid rules) (stored : StoredScope candidate.scope)
    (taken : t.locks.take i candidate.fromUserId = some locks) :
    DelegationOutcome rules i t { t with locks } (.locked candidate) := by
  refine ⟨⟨h.oneDeputy, h.stored⟩, ⟨Locks.take_self taken, stored⟩, fun j apart u held => ?_,
    fun _ _ _ _ => id⟩
  obtain kept | ⟨-, rfl⟩ := Locks.take_keeps taken held
  · exact kept
  · exact absurd rfl apart

/-- A commit: what overlaps the new row was not there, and cannot have come since. -/
theorem commitRow (sameCase : ∀ s, rules.lower s = rules.toLowerCase s) (h : t.Valid rules)
    (holds : HoldsDelegator i t row) (clear : NoneOverlaps rules t.rows row) :
    DelegationOutcome rules i t ((t.commitRow row).release i) .done := by
  obtain ⟨held, stored⟩ := holds
  refine ⟨⟨?_, ?_⟩, trivial, ?_, ?_⟩
  · refine List.pairwise_append.mpr ⟨h.oneDeputy, List.pairwise_singleton _ _, ?_⟩
    intro d mem e new now u code actsD actsE
    obtain rfl := List.mem_singleton.mp new
    have overlap := overlaps_of_acts sameCase (h.stored d mem) stored actsD actsE
    rw [clear d mem] at overlap
    cases overlap
  · intro d mem
    obtain old | new := List.mem_append.mp mem
    · exact h.stored d old
    · obtain rfl := List.mem_singleton.mp new
      exact stored
  · exact fun j apart u held => Locks.release_keeps apart held
  · intro j apart candidate locked none d mem
    obtain old | new := List.mem_append.mp mem
    · exact none d old
    · -- the new row is of another delegator: process `i` holds that one's lock
      obtain rfl := List.mem_singleton.mp new
      have other : d.fromUserId ≠ candidate.fromUserId := fun same =>
        apart (Option.some.inj (locked.symm.trans (same ▸ held)))
      simp [overlaps, other]

theorem deactivate (h : t.Valid rules) (delegation : ℕ) :
    DelegationOutcome rules i t (t.deactivate delegation) .done := by
  have acts : ∀ {d : Delegation} {now u code}, (if d.id = delegation then { d with isActive := false } else d).Acts
      rules now u code → d.Acts rules now u code := by
    intro d now u code acts
    split_ifs at acts with revoked
    · exact absurd acts (not_acts_of_inactive rfl)
    · exact acts
  refine ⟨⟨?_, ?_⟩, trivial, fun _ _ _ => id, ?_⟩
  · refine List.pairwise_map.mpr (h.oneDeputy.imp fun apart now u code actsD actsE => ?_)
    exact apart now u code (acts actsD) (acts actsE)
  · intro d mem
    obtain ⟨before, old, rfl⟩ := List.mem_map.mp mem
    split_ifs
    · exact h.stored before old
    · exact h.stored before old
  · intro j _ candidate _ none d mem
    obtain ⟨before, old, rfl⟩ := List.mem_map.mp mem
    split_ifs
    · simp [overlaps]
    · exact none before old

end DelegationOutcome

theorem beginDelegation_knows (actor : DelegationActor) :
    KnowsDelegator rules i t (beginDelegation rules dayStart actor t) := by
  cases actor with
  | create params =>
      show KnowsDelegator rules i t (if _ then _ else _)
      split_ifs
      · trivial
      · exact requestedScope_stored params.scope
  | revoke delegation userId userRole =>
      simp only [beginDelegation]
      split
      · trivial
      · split_ifs <;> trivial

theorem noneOverlaps_of_not_found (none : findOverlappingDelegation rules t.rows candidate = none) :
    NoneOverlaps rules t.rows candidate := by
  intro d mem
  simpa using List.find?_eq_none.mp none d mem

/-- Every statement has its outcome. -/
theorem delegationStatement_outcome (sameCase : ∀ s, rules.lower s = rules.toLowerCase s)
    {turn : DelegationTurn} (h : t.Valid rules) (own : KnowsDelegator rules i t progress)
    (runs : delegationStatement rules dayStart actors i turn t progress = some (t', next)) :
    DelegationOutcome rules i t t' next := by
  unfold delegationStatement at runs
  split at runs
  · cases runs
    exact .release h
  · cases runs
    exact .read h (beginDelegation_knows _)
  · obtain ⟨locks, taken, rest⟩ := Option.map_eq_some_iff.mp runs
    cases rest
    exact .lock h own taken
  · split_ifs at runs
    · cases runs
      exact .read h own
    · cases runs
      exact .release h
  · split at runs
    · cases runs
      exact .release h
    · rename_i none
      cases runs
      exact .read h ⟨own, noneOverlaps_of_not_found none⟩
  · cases runs
    exact ⟨⟨h.oneDeputy, h.stored⟩, own, fun _ _ _ => id, fun _ _ _ _ => id⟩
  · cases runs
    exact .commitRow sameCase h own.1 own.2
  · cases runs
    exact .deactivate h _
  · cases runs

/-- All statements follow the outline. -/
theorem delegationOutline (sameCase : ∀ s, rules.lower s = rules.toLowerCase s)
    (dayStart : ℤ → ℤ) (actors : ℕ → DelegationActor) :
    Outline (delegationStatement rules dayStart actors) (fun _ _ _ _ => True)
      (fun t => t.Valid rules) (KnowsDelegator rules) where
  own h own _ runs :=
    have outcome := delegationStatement_outcome sameCase h own runs
    ⟨outcome.valid, outcome.own⟩
  others apart h own other _ runs :=
    other.others apart (delegationStatement_outcome sameCase h own runs).others

end Outline

/-- The delegations that act for a delegator in a workflow at a moment. -/
def actingDelegations (rules : CaseRules) (rows : List Delegation) (now : ℤ) (fromUserId : ℕ)
    (workflowCode : String) : List Delegation :=
  rows.filter fun d => d.Acts rules now fromUserId workflowCode

theorem actingDelegations_length_le_one {rules : CaseRules} {rows : List Delegation}
    (h : OneDeputy rules rows) (now : ℤ) (u : ℕ) (code : String) :
    (actingDelegations rules rows now u code).length ≤ 1 := by
  have apart : OneDeputy rules (actingDelegations rules rows now u code) := List.Pairwise.filter _ h
  have acts : ∀ d ∈ actingDelegations rules rows now u code, d.Acts rules now u code :=
    fun d mem => by simpa using (List.mem_filter.mp mem).2
  generalize actingDelegations rules rows now u code = acting at apart acts
  match acting with
  | [] => exact Nat.zero_le _
  | [_] => exact le_rfl
  | d :: e :: rest =>
      have first := (List.pairwise_cons.mp apart).1 e List.mem_cons_self now u code
      exact absurd (acts e (by simp)) (first (acts d (by simp)))

end PapitalErp
