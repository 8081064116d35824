import PapitalErp.Treasury.SettlementAllocation

/-!
# Settlements stay within their documents and their sources

Five facts, over every sequence of the settlement operations from an empty
company. An accepted set of parts leaves each of its documents settled within
its payable amount less its final returns, compared at four decimals; an
accepted direct link may pass it by 0.01. The parts of a source never exceed the
source's amount, no treasury row has a direct link and parts, and the parts of a
cheque that bounced or came back settle nothing ever again.

`SettlementInvariant` carries the facts about sources. What an acceptance says
about its documents needs no invariant of the documents: the check reads them
in the state the parts are written to.
-/

namespace PapitalErp

open Rounding Transition FilteredSums

/-! ## Reading the tables -/

namespace SettlementState

variable {s : SettlementState} {source : AllocationSource}

/-- What the parts of a source that are not replaced add up to. -/
def partsTotal (s : SettlementState) (source : AllocationSource) : ℚ :=
  sumWhere (fun a => decide (a.source = source) && !a.isDeleted)
    SettlementAllocation.amount s.allocations

theorem live_of_find? {α : Type} {rows : List α} {key : α → ℕ} {deleted : α → Bool} {id : ℕ} {row : α}
    (found : rows.find? (fun r => decide (key r = id) && !deleted r) = some row) :
    row ∈ rows ∧ key row = id ∧ deleted row = false :=
  ⟨List.mem_of_find?_eq_some found, by simpa using List.find?_some found⟩

theorem treasuryRow_eq_ok {id : ℕ} {row : TreasuryRow} (h : s.treasuryRow id = .ok row) :
    row ∈ s.treasury ∧ row.id = id ∧ row.isDeleted = false := by
  unfold treasuryRow at h
  split at h <;> cases h
  exact live_of_find? ‹_›

theorem chequeRow_eq_ok {id : ℕ} {cheque : Cheque} (h : s.chequeRow id = .ok cheque) :
    cheque ∈ s.cheques ∧ cheque.id = id ∧ cheque.isDeleted = false := by
  unfold chequeRow at h
  split at h <;> cases h
  exact live_of_find? ‹_›

theorem sourceAllocations_eq_nil :
    s.sourceAllocations source = [] ↔
      ∀ a ∈ s.allocations, a.source = source → a.isDeleted = true := by
  simp [sourceAllocations, List.filter_eq_nil_iff]

theorem partsTotal_eq_zero (h : s.sourceAllocations source = []) : s.partsTotal source = 0 := by
  refine sumWhere_eq_zero fun a ha => ?_
  by_cases same : a.source = source
  · simp [sourceAllocations_eq_nil.mp h a ha same]
  · simp [same]

/-! ### New and replaced parts -/

section parts

variable {parts : List SettlementAllocationInput} {written : AllocationSource}

@[simp] theorem insertAllocations_nil : s.insertAllocations source [] = s := by
  simp [insertAllocations]

theorem mem_insertAllocations {a : SettlementAllocation} :
    a ∈ (s.insertAllocations written parts).allocations ↔
      a ∈ s.allocations ∨ ∃ p ∈ parts, a = ⟨p.documentId, written, money p.amount, false⟩ := by
  simp [insertAllocations, eq_comm]

theorem partsTotal_insertAllocations (scale : ∀ p ∈ parts, AtScale 4 p.amount) :
    (s.insertAllocations written parts).partsTotal source =
      s.partsTotal source +
        if written = source then (parts.map SettlementAllocationInput.amount).sum else 0 := by
  unfold partsTotal insertAllocations
  rw [sumWhere_append, sumWhere_map]
  congr 1
  split
  · rename_i same
    rw [← sumWhere_true]
    refine sumWhere_congr (fun p _ => by simp [same]) fun p hp _ => ?_
    exact money_of_atScale (scale p hp)
  · rename_i other
    exact sumWhere_eq_zero fun p _ => by simp [other]

theorem sourceAllocations_insertAllocations (other : written ≠ source) :
    (s.insertAllocations written parts).sourceAllocations source = s.sourceAllocations source := by
  have none_new : (parts.map fun p => (⟨p.documentId, written, money p.amount, false⟩ :
      SettlementAllocation)).filter (fun a => decide (a.source = source) && !a.isDeleted) = [] := by
    rw [List.filter_eq_nil_iff]
    intro a ha
    obtain ⟨p, _, rfl⟩ := List.mem_map.mp ha
    simp [other]
  unfold sourceAllocations insertAllocations
  rw [List.filter_append, none_new, List.append_nil]

theorem sourceAllocations_release :
    (s.releaseSourceAllocations source).sourceAllocations source = [] := by
  rw [sourceAllocations_eq_nil]
  intro a ha same
  obtain ⟨b, _, rfl⟩ := List.mem_map.mp ha
  by_cases written : b.source = source
  · rw [if_pos written]
  · rw [if_neg written] at same
    exact absurd same written

theorem sourceAllocations_release_of_ne (other : written ≠ source) :
    (s.releaseSourceAllocations written).sourceAllocations source =
      s.sourceAllocations source := by
  unfold sourceAllocations releaseSourceAllocations
  dsimp only
  induction s.allocations with
  | nil => rfl
  | cons a rest ih =>
      rw [List.map_cons, List.filter_cons, List.filter_cons, ih]
      by_cases same : a.source = written
      · rw [if_pos same]
        have apart : a.source ≠ source := same ▸ other
        simp [apart]
      · rw [if_neg same]

theorem partsTotal_release_of_ne (other : written ≠ source) :
    (s.releaseSourceAllocations written).partsTotal source = s.partsTotal source := by
  have same := sourceAllocations_release_of_ne (s := s) other
  unfold sourceAllocations at same
  unfold partsTotal sumWhere
  rw [same]

end parts

end SettlementState

/-! ## What a set of parts is once it is normalised -/

structure NormalParts (parts : List SettlementAllocationInput) (sourceAmount : ℚ) : Prop where
  scale : ∀ p ∈ parts, AtScale 4 p.amount
  positive : ∀ p ∈ parts, 0 < p.amount
  nodup : (parts.map SettlementAllocationInput.documentId).Nodup
  total : (parts.map SettlementAllocationInput.amount).sum ≤ sourceAmount

/-- `normalizeAllocations` only sorts: the parts are the ones sent. -/
theorem normalizeAllocations_perm {sent parts : List SettlementAllocationInput} {amount : ℚ}
    (h : normalizeAllocations sent amount = .ok parts) : parts.Perm sent := by
  simp only [normalizeAllocations, bind_eq_ok, ensure_eq_ok, pure_eq_ok] at h
  obtain ⟨-, -, -, -, -, -, -, -, -, -, rfl⟩ := h
  exact List.perm_insertionSort _ _

theorem normalizeAllocations_normal {sent parts : List SettlementAllocationInput} {amount : ℚ}
    {u : Unit} (schema : settlementParts sent = .ok u)
    (h : normalizeAllocations sent amount = .ok parts) : NormalParts parts amount := by
  have perm := normalizeAllocations_perm h
  simp only [settlementParts, ensure_eq_ok] at schema
  simp only [normalizeAllocations, bind_eq_ok, ensure_eq_ok, pure_eq_ok] at h
  obtain ⟨-, -, -, -, -, distinct, -, positive, -, total, -⟩ := h
  refine ⟨fun p hp => (schema p (perm.mem_iff.mp hp)).1, fun p hp => positive p (perm.mem_iff.mp hp),
    (perm.map _).nodup_iff.mpr distinct, ?_⟩
  rw [(perm.map _).sum_eq]
  exact total

/-! ## The invariant of the sources -/

/-- The id of a source is one its table has given out. -/
def AllocationSource.Below (s : SettlementState) : AllocationSource → Prop
  | .treasury id => id < s.nextTreasuryId
  | .cheque id => id < s.nextChequeId

structure SettlementInvariant (s : SettlementState) : Prop where
  treasuryBelow : ∀ r ∈ s.treasury, r.id < s.nextTreasuryId
  chequesBelow : ∀ q ∈ s.cheques, q.id < s.nextChequeId
  partsBelow : ∀ a ∈ s.allocations, a.source.Below s
  treasuryApart : s.treasury.Pairwise fun r r' => r.id ≠ r'.id
  chequesApart : s.cheques.Pairwise fun q q' => q.id ≠ q'.id
  treasuryAmounts : ∀ r ∈ s.treasury, AtScale 4 r.amount ∧ 0 ≤ r.amount
  chequeAmounts : ∀ q ∈ s.cheques, 0 ≤ q.amount
  partAmounts : ∀ a ∈ s.allocations, AtScale 4 a.amount
  treasuryParts : ∀ r ∈ s.treasury, s.partsTotal (.treasury r.id) ≤ r.amount
  chequeParts : ∀ q ∈ s.cheques, s.partsTotal (.cheque q.id) ≤ q.amount
  oneKind : ∀ r ∈ s.treasury, r.documentId ≠ none → s.sourceAllocations (.treasury r.id) = []

namespace SettlementInvariant

variable {s : SettlementState} (inv : SettlementInvariant s)

include inv

/-- A source the tables have not given out has no parts. -/
theorem fresh_parts {source : AllocationSource} (fresh : ¬source.Below s) :
    s.sourceAllocations source = [] := by
  rw [SettlementState.sourceAllocations_eq_nil]
  rintro a ha rfl
  exact absurd (inv.partsBelow a ha) fresh

theorem insertTreasury {row : TreasuryRow} (amount : AtScale 4 row.amount ∧ 0 ≤ row.amount) :
    SettlementInvariant (s.insertTreasury row) := by
  have none_yet : s.sourceAllocations (.treasury s.nextTreasuryId) = [] :=
    inv.fresh_parts (lt_irrefl _)
  refine
    { inv with
      treasuryBelow := ?_, partsBelow := ?_, treasuryApart := ?_, treasuryAmounts := ?_,
      treasuryParts := ?_, oneKind := ?_ }
  · exact List.forall_mem_append.mpr ⟨fun r hr => (inv.treasuryBelow r hr).trans (Nat.lt_succ_self _),
      List.forall_mem_singleton.mpr (Nat.lt_succ_self _)⟩
  · intro a ha
    have below := inv.partsBelow a ha
    cases hs : a.source <;> rw [hs] at below
    · exact below.trans (Nat.lt_succ_self _)
    · exact below
  · refine List.pairwise_append.mpr ⟨inv.treasuryApart, List.pairwise_singleton _ _, ?_⟩
    intro r hr r' hr'
    rw [List.mem_singleton.mp hr']
    exact (inv.treasuryBelow r hr).ne
  · exact List.forall_mem_append.mpr ⟨inv.treasuryAmounts, List.forall_mem_singleton.mpr amount⟩
  · exact List.forall_mem_append.mpr ⟨inv.treasuryParts, List.forall_mem_singleton.mpr
      ((SettlementState.partsTotal_eq_zero none_yet).trans_le amount.2)⟩
  · exact List.forall_mem_append.mpr ⟨inv.oneKind, List.forall_mem_singleton.mpr fun _ => none_yet⟩

theorem insertCheque {row : Cheque} (amount : 0 ≤ row.amount) :
    SettlementInvariant (s.insertCheque row) := by
  have none_yet : s.sourceAllocations (.cheque s.nextChequeId) = [] :=
    inv.fresh_parts (lt_irrefl _)
  refine
    { inv with
      chequesBelow := ?_, partsBelow := ?_, chequesApart := ?_, chequeAmounts := ?_,
      chequeParts := ?_ }
  · exact List.forall_mem_append.mpr ⟨fun q hq => (inv.chequesBelow q hq).trans (Nat.lt_succ_self _),
      List.forall_mem_singleton.mpr (Nat.lt_succ_self _)⟩
  · intro a ha
    have below := inv.partsBelow a ha
    cases hs : a.source <;> rw [hs] at below
    · exact below
    · exact below.trans (Nat.lt_succ_self _)
  · refine List.pairwise_append.mpr ⟨inv.chequesApart, List.pairwise_singleton _ _, ?_⟩
    intro q hq q' hq'
    rw [List.mem_singleton.mp hq']
    exact (inv.chequesBelow q hq).ne
  · exact List.forall_mem_append.mpr ⟨inv.chequeAmounts, List.forall_mem_singleton.mpr amount⟩
  · exact List.forall_mem_append.mpr ⟨inv.chequeParts, List.forall_mem_singleton.mpr
      ((SettlementState.partsTotal_eq_zero none_yet).trans_le amount)⟩

/-- A treasury row keeps its amount; a link is written only on a row without parts. -/
theorem updateTreasury {id : ℕ} {update : TreasuryRow → TreasuryRow}
    (sameId : ∀ r, (update r).id = r.id) (sameAmount : ∀ r, (update r).amount = r.amount)
    (link : ∀ r ∈ s.treasury, r.id = id → (update r).documentId ≠ none →
      s.sourceAllocations (.treasury id) = []) :
    SettlementInvariant (s.updateTreasury id update) := by
  have rows : ∀ r' ∈ (s.updateTreasury id update).treasury, ∃ r ∈ s.treasury,
      r'.id = r.id ∧ r'.amount = r.amount ∧
        (r'.documentId ≠ none → s.sourceAllocations (.treasury r.id) = []) := by
    intro r' hr'
    obtain ⟨r, hr, rfl⟩ := List.mem_map.mp hr'
    refine ⟨r, hr, ?_⟩
    split
    · rename_i same
      exact ⟨sameId r, sameAmount r, fun linked => same ▸ link r hr same linked⟩
    · exact ⟨rfl, rfl, inv.oneKind r hr⟩
  refine
    { inv with
      treasuryBelow := ?_, treasuryApart := ?_, treasuryAmounts := ?_, treasuryParts := ?_,
      oneKind := ?_ }
  · intro r' hr'
    obtain ⟨r, hr, hid, -, -⟩ := rows r' hr'
    exact hid ▸ inv.treasuryBelow r hr
  · refine List.pairwise_map.mpr (inv.treasuryApart.imp fun {r r'} apart => ?_)
    have keeps : ∀ r : TreasuryRow, (if r.id = id then update r else r).id = r.id := by
      intro r
      split
      · exact sameId r
      · rfl
    rwa [keeps r, keeps r']
  · intro r' hr'
    obtain ⟨r, hr, -, hamount, -⟩ := rows r' hr'
    exact hamount ▸ inv.treasuryAmounts r hr
  · intro r' hr'
    obtain ⟨r, hr, hid, hamount, -⟩ := rows r' hr'
    rw [hid, hamount]
    exact inv.treasuryParts r hr
  · intro r' hr' linked
    obtain ⟨r, hr, hid, -, hlink⟩ := rows r' hr'
    rw [hid]
    exact hlink linked

theorem updateCheque {id : ℕ} {update : Cheque → Cheque} (sameId : ∀ q, (update q).id = q.id)
    (sameAmount : ∀ q, (update q).amount = q.amount) :
    SettlementInvariant (s.updateCheque id update) := by
  have rows : ∀ q' ∈ (s.updateCheque id update).cheques, ∃ q ∈ s.cheques,
      q'.id = q.id ∧ q'.amount = q.amount := by
    intro q' hq'
    obtain ⟨q, hq, rfl⟩ := List.mem_map.mp hq'
    refine ⟨q, hq, ?_⟩
    split
    · exact ⟨sameId q, sameAmount q⟩
    · exact ⟨rfl, rfl⟩
  refine { inv with chequesBelow := ?_, chequesApart := ?_, chequeAmounts := ?_, chequeParts := ?_ }
  · intro q' hq'
    obtain ⟨q, hq, hid, -⟩ := rows q' hq'
    exact hid ▸ inv.chequesBelow q hq
  · refine List.pairwise_map.mpr (inv.chequesApart.imp fun {q q'} apart => ?_)
    have keeps : ∀ q : Cheque, (if q.id = id then update q else q).id = q.id := by
      intro q
      split
      · exact sameId q
      · rfl
    rwa [keeps q, keeps q']
  · intro q' hq'
    obtain ⟨q, hq, -, hamount⟩ := rows q' hq'
    exact hamount ▸ inv.chequeAmounts q hq
  · intro q' hq'
    obtain ⟨q, hq, hid, hamount⟩ := rows q' hq'
    rw [hid, hamount]
    exact inv.chequeParts q hq

/-- Releasing the parts of a source leaves it with none and every other as it was. -/
theorem releaseSourceAllocations (source : AllocationSource) :
    SettlementInvariant (s.releaseSourceAllocations source) := by
  have parts : ∀ a' ∈ (s.releaseSourceAllocations source).allocations, ∃ a ∈ s.allocations,
      a'.source = a.source ∧ a'.amount = a.amount := by
    intro a' ha'
    obtain ⟨a, ha, rfl⟩ := List.mem_map.mp ha'
    refine ⟨a, ha, ?_⟩
    split <;> exact ⟨rfl, rfl⟩
  have total_le : ∀ (other : AllocationSource) (amount : ℚ), 0 ≤ amount →
      s.partsTotal other ≤ amount →
      (s.releaseSourceAllocations source).partsTotal other ≤ amount := by
    intro other amount nonneg bound
    by_cases same : source = other
    · subst same
      exact (SettlementState.partsTotal_eq_zero
        SettlementState.sourceAllocations_release).trans_le nonneg
    · rwa [SettlementState.partsTotal_release_of_ne same]
  refine
    { inv with
      partsBelow := ?_, partAmounts := ?_, treasuryParts := ?_, chequeParts := ?_, oneKind := ?_ }
  · intro a' ha'
    obtain ⟨a, ha, hsource, -⟩ := parts a' ha'
    rw [hsource]
    exact inv.partsBelow a ha
  · intro a' ha'
    obtain ⟨a, ha, -, hamount⟩ := parts a' ha'
    exact hamount ▸ inv.partAmounts a ha
  · intro r hr
    exact total_le _ _ (inv.treasuryAmounts r hr).2 (inv.treasuryParts r hr)
  · intro q hq
    exact total_le _ _ (inv.chequeAmounts q hq) (inv.chequeParts q hq)
  · intro r hr linked
    by_cases same : source = .treasury r.id
    · rw [same]
      exact SettlementState.sourceAllocations_release
    · rw [SettlementState.sourceAllocations_release_of_ne same]
      exact inv.oneKind r hr linked

/-- Parts are written on a source without any, within its amount and, for a treasury
row, without a direct link. -/
theorem insertAllocations {source : AllocationSource} {parts : List SettlementAllocationInput}
    {amount : ℚ} (normal : NormalParts parts amount) (below : source.Below s)
    (empty : s.sourceAllocations source = [])
    (row : ∀ r ∈ s.treasury, source = .treasury r.id →
      amount ≤ r.amount ∧ (parts = [] ∨ r.documentId = none))
    (cheque : ∀ q ∈ s.cheques, source = .cheque q.id → amount ≤ q.amount) :
    SettlementInvariant (s.insertAllocations source parts) := by
  have total_le : ∀ (other : AllocationSource) (bound : ℚ), s.partsTotal other ≤ bound →
      (source = other → amount ≤ bound) →
      (s.insertAllocations source parts).partsTotal other ≤ bound := by
    intro other bound old new
    rw [SettlementState.partsTotal_insertAllocations normal.scale]
    split
    · rename_i same
      rw [← same, SettlementState.partsTotal_eq_zero empty, zero_add]
      exact normal.total.trans (new same)
    · rwa [add_zero]
  refine
    { inv with
      partsBelow := ?_, partAmounts := ?_, treasuryParts := ?_, chequeParts := ?_, oneKind := ?_ }
  · intro a ha
    rcases SettlementState.mem_insertAllocations.mp ha with old | ⟨p, _, rfl⟩
    · exact inv.partsBelow a old
    · exact below
  · intro a ha
    rcases SettlementState.mem_insertAllocations.mp ha with old | ⟨p, _, rfl⟩
    · exact inv.partAmounts a old
    · exact atScale_money _
  · intro r hr
    exact total_le _ _ (inv.treasuryParts r hr) fun same => (row r hr same).1
  · intro q hq
    exact total_le _ _ (inv.chequeParts q hq) fun same => cheque q hq same
  · intro r hr linked
    by_cases same : source = .treasury r.id
    · rcases (row r hr same).2 with none_sent | unlinked
      · rw [none_sent, SettlementState.insertAllocations_nil]
        exact inv.oneKind r hr linked
      · exact absurd unlinked linked
    · rw [SettlementState.sourceAllocations_insertAllocations same]
      exact inv.oneKind r hr linked

end SettlementInvariant

/-! ## What an accepted request did

One lemma for each operation says what it wrote and which checks it passed. -/

section accepted

variable {s t : SettlementState}

theorem checkNewParts_ok {source : AllocationSourceParty}
    {parts : List SettlementAllocationInput} {u : Unit}
    (h : checkNewParts s source parts = .ok u) (some_part : parts ≠ []) :
    lockAndCheckAllocationTargets s source parts (fun _ => none) = .ok () := by
  simp only [checkNewParts, if_neg some_part, bind_eq_ok] at h
  exact h.choose_spec.2

theorem createTreasuryTransaction_ok {request : TreasuryRequest}
    (h : createTreasuryTransaction s request = .ok t) :
    ∃ parts source, NormalParts parts request.amount ∧ parts.Perm request.allocations ∧
      AtScale 4 request.amount ∧ 0 < request.amount ∧
      (parts = [] ∨ request.documentId = none) ∧
      (∀ document, request.documentId = some document →
        checkDirectLink s source request.amount document = .ok ()) ∧
      (parts ≠ [] → lockAndCheckAllocationTargets s source parts (fun _ => none) = .ok ()) ∧
      t = (s.insertTreasury request.row).insertAllocations (.treasury s.nextTreasuryId) parts := by
  simp only [createTreasuryTransaction, bind_eq_ok, ensure_eq_ok, pure_eq_ok] at h
  obtain ⟨-, scale, ⟨⟩, schema, -, positive, parts, hparts, -, exclusive, ⟨⟩, direct, ⟨⟩, targets,
    -, -, rfl⟩ := h
  refine ⟨parts, _, normalizeAllocations_normal schema hparts, normalizeAllocations_perm hparts,
    scale.1, positive, exclusive, ?_, checkNewParts_ok targets, rfl⟩
  intro document linked
  rw [linked] at direct
  exact direct

theorem relinkTreasuryDocument_ok {id : ℕ} {documentId : Option DocumentId}
    {currentName : Option String} {refused : Bool}
    (h : relinkTreasuryDocument s id documentId currentName refused = .ok t) :
    ∃ row ∈ s.treasury, row.id = id ∧ row.isDeleted = false ∧ row.status = .completed ∧
      row.reversalOfId = none ∧ s.sourceAllocations (.treasury row.id) = [] ∧
      (row.documentId = documentId ∧ t = s ∨
        (∀ document, documentId = some document →
          (∃ source, assertTreasuryDocumentLink s source document = .ok ()) ∧
            assertWithinDocumentRemaining s document row.amount false = .ok ()) ∧
        t = s.updateTreasury row.id fun r => r.link documentId) := by
  simp only [relinkTreasuryDocument, bind_eq_ok, ensure_eq_ok] at h
  obtain ⟨row, found, ⟨⟩, link, -, ⟨completed, original⟩, -, -, -, noParts, moved⟩ := h
  obtain ⟨member, sameId, live⟩ := SettlementState.treasuryRow_eq_ok found
  refine ⟨row, member, sameId, live, completed, original, List.isEmpty_iff.mp noParts, ?_⟩
  split at moved
  · exact .inl ⟨‹_›, (pure_eq_ok.mp moved).symm⟩
  · simp only [bind_eq_ok, ensure_eq_ok, pure_eq_ok] at moved
    obtain ⟨⟨⟩, checks, -, -, rfl⟩ := moved
    refine .inr ⟨?_, rfl⟩
    rintro document rfl
    simp only [forDocument, bind_eq_ok] at checks
    exact ⟨⟨_, link⟩, checks.choose_spec.2⟩

theorem voidTreasuryTransaction_ok {id : ℕ} {refused : Bool}
    (h : voidTreasuryTransaction s id refused = .ok t) :
    ∃ row ∈ s.treasury, t = (s.insertTreasury { row with
        type := row.type.opposite, reversalOfId := some row.id,
        status := .completed }).updateTreasury row.id fun r => { r with status := .voided } := by
  simp only [voidTreasuryTransaction, bind_eq_ok, ensure_eq_ok, pure_eq_ok] at h
  obtain ⟨row, found, -, -, -, -, -, -, -, -, rfl⟩ := h
  exact ⟨row, (SettlementState.treasuryRow_eq_ok found).1, rfl⟩

/-- The state the new parts of a treasury row are checked in and written to. -/
abbrev releasedTreasury (s : SettlementState) (row : TreasuryRow) : SettlementState :=
  (s.releaseSourceAllocations (.treasury row.id)).updateTreasury row.id
    fun r => r.link none

theorem replaceTreasuryAllocations_ok {id : ℕ} {sent : List SettlementAllocationInput}
    {currentName : Option String} {refused : Bool}
    (h : replaceTreasuryAllocations s id sent currentName refused = .ok t) :
    ∃ row ∈ s.treasury, ∃ parts, row.live = true ∧ NormalParts parts row.amount ∧
      parts.Perm sent ∧
      (∃ source kept,
        lockAndCheckAllocationTargets (releasedTreasury s row) source parts kept = .ok ()) ∧
      t = (releasedTreasury s row).insertAllocations (.treasury row.id) parts := by
  simp only [replaceTreasuryAllocations, bind_eq_ok, ensure_eq_ok, pure_eq_ok] at h
  obtain ⟨⟨⟩, schema, row, found, parts, hparts, -, ⟨completed, original, -⟩, -, -, -, -, ⟨⟩,
    targets, rfl⟩ := h
  obtain ⟨member, -, notDeleted⟩ := SettlementState.treasuryRow_eq_ok found
  refine ⟨row, member, parts, ?_, normalizeAllocations_normal schema hparts,
    normalizeAllocations_perm hparts, ⟨_, _, targets⟩, rfl⟩
  simp [TreasuryRow.live, completed, original, notDeleted]

theorem createCheque_ok {request : ChequeRequest} (h : createCheque s request = .ok t) :
    ∃ parts source, NormalParts parts request.amount ∧ parts.Perm request.allocations ∧
      AtScale 4 request.amount ∧ 0 < request.amount ∧
      (parts ≠ [] → lockAndCheckAllocationTargets s source parts (fun _ => none) = .ok ()) ∧
      t = (s.insertCheque request.row).insertAllocations (.cheque s.nextChequeId) parts := by
  simp only [createCheque, bind_eq_ok, ensure_eq_ok, pure_eq_ok] at h
  obtain ⟨-, scale, ⟨⟩, schema, -, positive, parts, hparts, -, -, ⟨⟩, targets, -, -, rfl⟩ := h
  exact ⟨parts, _, normalizeAllocations_normal schema hparts, normalizeAllocations_perm hparts,
    scale.1, positive, checkNewParts_ok targets, rfl⟩

theorem replaceChequeAllocations_ok {id : ℕ} {sent : List SettlementAllocationInput}
    {currentName : Option String} {refused : Bool}
    (h : replaceChequeAllocations s id sent currentName refused = .ok t) :
    ∃ cheque ∈ s.cheques, ∃ parts, cheque.live = true ∧ NormalParts parts cheque.amount ∧
      parts.Perm sent ∧
      (∃ source kept, lockAndCheckAllocationTargets
        (s.releaseSourceAllocations (.cheque cheque.id)) source parts kept = .ok ()) ∧
      t = (s.releaseSourceAllocations (.cheque cheque.id)).insertAllocations
        (.cheque cheque.id) parts := by
  simp only [replaceChequeAllocations, bind_eq_ok, ensure_eq_ok, pure_eq_ok] at h
  obtain ⟨⟨⟩, schema, cheque, found, -, notLapsed, -, -, parts, hparts, -, -, ⟨⟩, targets, rfl⟩ := h
  obtain ⟨member, -, notDeleted⟩ := SettlementState.chequeRow_eq_ok found
  refine ⟨cheque, member, parts, ?_, normalizeAllocations_normal schema hparts,
    normalizeAllocations_perm hparts, ⟨_, _, targets⟩, rfl⟩
  simp [Cheque.live, notLapsed, notDeleted]

theorem changeChequeStatus_ok {id : ℕ} {next : ChequeStatus} {refused : Bool}
    (h : changeChequeStatus s id next refused = .ok t) :
    ∃ cheque ∈ s.cheques, cheque.isDeleted = false ∧
      next ∈ chequeNextStatuses cheque.status cheque.type ∧
      t = s.updateCheque cheque.id fun q => { q with status := some next } := by
  simp only [changeChequeStatus, bind_eq_ok, ensure_eq_ok, pure_eq_ok] at h
  obtain ⟨cheque, found, -, -, -, legal, -, -, rfl⟩ := h
  obtain ⟨member, -, notDeleted⟩ := SettlementState.chequeRow_eq_ok found
  exact ⟨cheque, member, notDeleted, legal, rfl⟩

theorem deleteCheque_ok {id : ℕ} {refused : Bool} (h : deleteCheque s id refused = .ok t) :
    ∃ chequeId, t = s.updateCheque chequeId fun q => { q with isDeleted := true } := by
  simp only [deleteCheque, bind_eq_ok, ensure_eq_ok, pure_eq_ok] at h
  obtain ⟨cheque, -, -, -, -, -, rfl⟩ := h
  exact ⟨cheque.id, rfl⟩

end accepted

/-! ## Every accepted request keeps the invariant -/

theorem SettlementInvariant.releasedTreasury {s : SettlementState} (inv : SettlementInvariant s)
    (row : TreasuryRow) : SettlementInvariant (releasedTreasury s row) :=
  (inv.releaseSourceAllocations _).updateTreasury (fun _ => rfl) (fun _ => rfl)
    fun _ _ _ linked => absurd rfl linked

/-- Rows with one id are one row. -/
theorem SettlementInvariant.treasury_unique {s : SettlementState} (inv : SettlementInvariant s)
    {r r' : TreasuryRow} (hr : r ∈ s.treasury) (hr' : r' ∈ s.treasury) (same : r.id = r'.id) :
    r = r' :=
  eq_of_key_eq inv.treasuryApart hr hr' same

theorem SettlementInvariant.cheque_unique {s : SettlementState} (inv : SettlementInvariant s)
    {q q' : Cheque} (hq : q ∈ s.cheques) (hq' : q' ∈ s.cheques) (same : q.id = q'.id) :
    q = q' :=
  eq_of_key_eq inv.chequesApart hq hq' same

theorem settlementInvariant_step {s : SettlementState} {op : SettlementOperation}
    {t : SettlementState} (inv : SettlementInvariant s) (h : settlementStep s op = .ok t) :
    SettlementInvariant t := by
  cases op with
  | recordDocument document =>
      simp only [settlementStep, bind_eq_ok, ensure_eq_ok, pure_eq_ok] at h
      obtain ⟨-, -, rfl⟩ := h
      exact { inv with }
  | changeDocument id terms =>
      simp only [settlementStep, Except.ok.injEq] at h
      subst h
      exact { inv with }
  | createTreasury request =>
      obtain ⟨parts, _, normal, -, scale, positive, exclusive, -, -, rfl⟩ :=
        createTreasuryTransaction_ok h
      have amount : request.row.amount = request.amount := money_of_atScale scale
      have posted : SettlementInvariant (s.insertTreasury request.row) := inv.insertTreasury
        ⟨atScale_money _, amount.symm ▸ positive.le⟩
      refine posted.insertAllocations normal (Nat.lt_succ_self _)
        (inv.fresh_parts (lt_irrefl _)) ?_ (fun _ _ other => by cases other)
      intro r hr same
      rcases List.mem_append.mp hr with old | new
      · have : s.nextTreasuryId = r.id := by simpa using same
        exact absurd this (inv.treasuryBelow r old).ne'
      · rw [List.mem_singleton.mp new]
        exact ⟨amount.ge, exclusive⟩
  | postOther row =>
      simp only [settlementStep, postOtherRow, bind_eq_ok, ensure_eq_ok, pure_eq_ok] at h
      obtain ⟨-, positive, rfl⟩ := h
      exact inv.insertTreasury ⟨atScale_money _, positive.le⟩
  | relink id documentId currentName refused =>
      obtain ⟨row, _, _, _, _, _, noParts, ⟨_, rfl⟩ | ⟨_, rfl⟩⟩ := relinkTreasuryDocument_ok h
      · exact inv
      · exact inv.updateTreasury (fun _ => rfl) (fun _ => rfl) fun _ _ _ _ => noParts
  | voidTreasury id refused =>
      obtain ⟨row, member, rfl⟩ := voidTreasuryTransaction_ok h
      have posted : SettlementInvariant (s.insertTreasury { row with
          type := row.type.opposite, reversalOfId := some row.id, status := .completed }) :=
        inv.insertTreasury (inv.treasuryAmounts row member)
      refine posted.updateTreasury (fun _ => rfl) (fun _ => rfl) fun r hr same linked => ?_
      rw [← same]
      exact posted.oneKind r hr linked
  | replaceTreasury id sent currentName refused =>
      obtain ⟨row, member, parts, -, normal, -, -, rfl⟩ := replaceTreasuryAllocations_ok h
      refine (inv.releasedTreasury row).insertAllocations normal (inv.treasuryBelow row member)
        SettlementState.sourceAllocations_release ?_ (fun _ _ other => by cases other)
      intro r' hr' same
      obtain ⟨r, hr, rfl⟩ := List.mem_map.mp hr'
      split at same
      · rename_i sameId
        rw [inv.treasury_unique hr member sameId, if_pos rfl]
        exact ⟨le_rfl, .inr rfl⟩
      · rename_i other
        exact absurd (by simpa using same.symm) other
  | createCheque request =>
      obtain ⟨parts, _, normal, -, scale, positive, -, rfl⟩ := createCheque_ok h
      have amount : request.row.amount = request.amount := money_of_atScale scale
      have posted : SettlementInvariant (s.insertCheque request.row) :=
        inv.insertCheque (amount.symm ▸ positive.le)
      refine posted.insertAllocations normal (Nat.lt_succ_self _)
        (inv.fresh_parts (lt_irrefl _)) (fun _ _ other => by cases other) ?_
      intro q hq same
      rcases List.mem_append.mp hq with old | new
      · have : s.nextChequeId = q.id := by simpa using same
        exact absurd this (inv.chequesBelow q old).ne'
      · rw [List.mem_singleton.mp new]
        exact amount.ge
  | replaceCheque id sent currentName refused =>
      obtain ⟨cheque, member, parts, -, normal, -, -, rfl⟩ := replaceChequeAllocations_ok h
      refine (inv.releaseSourceAllocations _).insertAllocations normal
        (inv.chequesBelow cheque member) SettlementState.sourceAllocations_release
        (fun _ _ other => by cases other) ?_
      intro q hq same
      have sameId : cheque.id = q.id := by simpa using same
      rw [inv.cheque_unique member hq sameId]
  | changeCheque id next refused =>
      obtain ⟨cheque, -, -, -, rfl⟩ := changeChequeStatus_ok h
      exact inv.updateCheque (fun _ => rfl) fun _ => rfl
  | deleteCheque id refused =>
      obtain ⟨chequeId, rfl⟩ := deleteCheque_ok h
      exact inv.updateCheque (fun _ => rfl) fun _ => rfl

theorem settlementInvariant_initial : SettlementInvariant .initial := by
  constructor <;> simp [SettlementState.initial]

/-- The state after any sequence of requests to an empty company. -/
abbrev runSettlement (ops : List SettlementOperation) : SettlementState :=
  run settlementStep .initial ops

theorem settlementInvariant_run (ops : List SettlementOperation) :
    SettlementInvariant (runSettlement ops) :=
  run_invariant (fun _ _ _ inv h => settlementInvariant_step inv h) settlementInvariant_initial ops

/-! ## What an accepted amount leaves on its document -/

theorem atScale_sumWhere {α : Type} {p : α → Bool} {f : α → ℚ} {rows : List α}
    (h : ∀ a ∈ rows, AtScale 4 (f a)) : AtScale 4 (sumWhere p f rows) := by
  refine AtScale.sum fun x hx => ?_
  obtain ⟨a, ha, rfl⟩ := List.mem_map.mp hx
  exact h a (List.mem_of_mem_filter ha)

/-- What settles a document is a sum of stored amounts. -/
theorem SettlementInvariant.settled_scale {s : SettlementState} (inv : SettlementInvariant s)
    {id : DocumentId} {doc : DocumentRemaining}
    (read : s.readDocumentPayableAndSettled id = some doc) : AtScale 4 doc.settled := by
  obtain ⟨document, -, rfl⟩ := Option.map_eq_some_iff.mp read
  refine AtScale.add (atScale_sumWhere fun t ht => ?_) (atScale_sumWhere inv.partAmounts)
  exact TreasuryRow.atScale_settles (inv.treasuryAmounts t (List.mem_of_mem_filter ht)).1 _

/-- A passed check of a part, on a document that exists. -/
theorem within_of_exact {s : SettlementState} {id : DocumentId} {amount : ℚ}
    {doc : DocumentRemaining} (read : s.readDocumentPayableAndSettled id = some doc)
    (scale : AtScale 4 doc.settled ∧ AtScale 4 amount) (positive : 0 < amount)
    (h : assertWithinDocumentRemaining s id amount true = .ok ()) :
    ({ doc with settled := doc.settled + amount } : DocumentRemaining).WithinPayable := by
  simp only [assertWithinDocumentRemaining, read, ensure_eq_ok, if_true,
    decide_eq_false_iff_not, not_lt] at h
  exact withinPayable_of_exact scale.1 scale.2 positive h

theorem within_of_direct {s : SettlementState} {id : DocumentId} {amount : ℚ}
    {doc : DocumentRemaining} (read : s.readDocumentPayableAndSettled id = some doc)
    (h : assertWithinDocumentRemaining s id amount false = .ok ()) :
    ({ doc with settled := doc.settled + amount } : DocumentRemaining).WithinSlack := by
  simp only [assertWithinDocumentRemaining, read, ensure_eq_ok, Bool.false_eq_true, if_false,
    decide_eq_false_iff_not, not_lt] at h
  exact withinSlack_of_direct h

theorem document_of_link {s : SettlementState} {link : AllocationSourceParty} {id : DocumentId}
    {u : Unit} (h : assertTreasuryDocumentLink s link id = .ok u) :
    ∃ doc, s.readDocumentPayableAndSettled id = some doc := by
  unfold assertTreasuryDocumentLink at h
  split at h
  · cases h
  · rename_i document found
    exact ⟨_, by rw [SettlementState.readDocumentPayableAndSettled, found, Option.map_some]⟩

/-- The checks of one part among those of all. -/
theorem lockAndCheckAllocationTargets_ok {s : SettlementState} {source : AllocationSourceParty}
    {parts : List SettlementAllocationInput} {kept : DocumentId → Option ℚ}
    (h : lockAndCheckAllocationTargets s source parts kept = .ok ())
    {p : SettlementAllocationInput} (hp : p ∈ parts) :
    (∃ doc, s.readDocumentPayableAndSettled p.documentId = some doc) ∧
      assertWithinDocumentRemaining s p.documentId p.amount true = .ok () := by
  simp only [lockAndCheckAllocationTargets, List.forM_eq_forM, forM_eq_ok] at h
  have passed := h p hp
  simp only [bind_eq_ok] at passed
  obtain ⟨⟨⟩, link, -, -, within⟩ := passed
  exact ⟨document_of_link link, within⟩

/-! ### Reading a document after a write -/

namespace SettlementState

variable {s : SettlementState} {id : DocumentId}

/-- A document receives at most one part of a set. -/
theorem sumWhere_parts {parts : List SettlementAllocationInput} {amount : ℚ}
    (normal : NormalParts parts amount) {p : SettlementAllocationInput} (hp : p ∈ parts) :
    sumWhere (fun q => decide (q.documentId = p.documentId)) (fun q => money q.amount) parts =
      p.amount := by
  rw [sumWhere_of_unique hp (decide_eq_true rfl), money_of_atScale (normal.scale p hp)]
  refine (List.pairwise_map.mp normal.nodup).imp fun {q q'} apart => ?_
  simp only [decide_eq_true_eq]
  exact fun ⟨same, same'⟩ => apart (same.trans same'.symm)

theorem read_insertAllocations {source : AllocationSource}
    {parts : List SettlementAllocationInput} {amount : ℚ} (live : s.sourceLive source = true)
    (normal : NormalParts parts amount) {p : SettlementAllocationInput} (hp : p ∈ parts) :
    (s.insertAllocations source parts).readDocumentPayableAndSettled p.documentId =
      (s.readDocumentPayableAndSettled p.documentId).map fun doc =>
        { doc with settled := doc.settled + p.amount } := by
  have allocated : (s.insertAllocations source parts).allocatedAmountOf p.documentId =
      s.allocatedAmountOf p.documentId + p.amount := by
    unfold allocatedAmountOf insertAllocations
    rw [sumWhere_append, sumWhere_map]
    congr 1
    rw [← sumWhere_parts normal hp]
    refine sumWhere_congr (fun q _ => ?_) fun _ _ _ => rfl
    have still : ({ s with allocations := s.allocations ++ parts.map fun p =>
        ⟨p.documentId, source, money p.amount, false⟩ } : SettlementState).sourceLive source =
        true := live
    simp [liveAllocation, still]
  unfold readDocumentPayableAndSettled
  rw [allocated, Option.map_map]
  refine Option.map_congr fun doc _ => ?_
  show DocumentRemaining.mk _ (_ + (_ + _)) _ = DocumentRemaining.mk _ (_ + _ + _) _
  rw [← add_assoc]
  rfl

/-- A new treasury row changes the liveness of no part. -/
theorem sourceLive_insertTreasury {row : TreasuryRow} {source : AllocationSource}
    (below : source.Below s) : (s.insertTreasury row).sourceLive source = s.sourceLive source := by
  cases source with
  | treasury id =>
      have other : s.nextTreasuryId ≠ id := ne_of_gt below
      simp [sourceLive, insertTreasury, other]
  | cheque id => rfl

theorem sourceLive_insertCheque {row : Cheque} {source : AllocationSource}
    (below : source.Below s) : (s.insertCheque row).sourceLive source = s.sourceLive source := by
  cases source with
  | treasury id => rfl
  | cheque id =>
      have other : s.nextChequeId ≠ id := ne_of_gt below
      simp [sourceLive, insertCheque, other]

/-- States with the same parts, as live as before, allocate the same to a document. -/
theorem allocatedAmountOf_congr {t : SettlementState} (parts : t.allocations = s.allocations)
    (live : ∀ a ∈ s.allocations, t.sourceLive a.source = s.sourceLive a.source) :
    t.allocatedAmountOf id = s.allocatedAmountOf id := by
  unfold allocatedAmountOf
  rw [parts]
  refine sumWhere_congr (fun a ha => ?_) fun _ _ _ => rfl
  simp only [liveAllocation, live a ha]

theorem read_insertCheque (inv : SettlementInvariant s) (row : Cheque) :
    (s.insertCheque row).readDocumentPayableAndSettled id = s.readDocumentPayableAndSettled id := by
  have allocated : (s.insertCheque row).allocatedAmountOf id = s.allocatedAmountOf id :=
    allocatedAmountOf_congr rfl fun a ha => sourceLive_insertCheque (inv.partsBelow a ha)
  unfold readDocumentPayableAndSettled
  rw [allocated]
  rfl

theorem read_insertTreasury (inv : SettlementInvariant s) {row : TreasuryRow}
    (unlinked : row.documentId = none) :
    (s.insertTreasury row).readDocumentPayableAndSettled id =
      s.readDocumentPayableAndSettled id := by
  have allocated : (s.insertTreasury row).allocatedAmountOf id = s.allocatedAmountOf id :=
    allocatedAmountOf_congr rfl fun a ha => sourceLive_insertTreasury (inv.partsBelow a ha)
  have rows : ∀ document, (s.insertTreasury row).settlementRows document =
      s.settlementRows document := by
    intro document
    simp [settlementRows, insertTreasury, unlinked]
  unfold readDocumentPayableAndSettled directAmount
  simp only [allocated, rows]
  rfl

end SettlementState

/-! ### A direct link -/

/-- A new original row adds at most its amount to what the direct rows settle. -/
theorem settledAmount_append_le {rows : List TreasuryRow} {row : TreasuryRow} {isPurchase : Bool}
    (original : row.reversalOfId = none) (completed : row.status = .completed)
    (nonneg : 0 ≤ row.amount) :
    settledAmount (rows ++ [row]) isPurchase ≤ settledAmount rows isPurchase + row.amount := by
  unfold settledAmount
  simp only [List.filterMap_append, List.filterMap_cons, original, List.filterMap_nil,
    List.append_nil, sumWhere_append, sumWhere_cons, sumWhere_nil, completed, decide_true,
    Bool.true_or, if_true, add_zero]
  gcongr
  exact TreasuryRow.settles_le nonneg _

namespace SettlementState

variable {s : SettlementState} {id : DocumentId}

/-- The rows of a document, reversed ones told by the rows that reverse them. -/
def counts (s : SettlementState) (id : DocumentId) (t : TreasuryRow) : Bool :=
  (decide (t.documentId = some id) && !t.isDeleted) &&
    (decide (t.status = .completed) || (decide (t.status = .voided) &&
      s.treasury.any fun r => (decide (r.documentId = some id) && !r.isDeleted) &&
        decide (r.reversalOfId = some t.id)))

theorem settledAmount_eq (isPurchase : Bool) :
    settledAmount (s.settlementRows id) isPurchase =
      sumWhere (s.counts id)
        (fun t => t.settles (if isPurchase then .payment else .receipt)) s.treasury := by
  unfold settledAmount settlementRows
  rw [sumWhere_filter]
  refine sumWhere_congr (fun t _ => ?_) fun _ _ _ => rfl
  have reversed : ((s.treasury.filter fun r => decide (r.documentId = some id) && !r.isDeleted).filterMap
      TreasuryRow.reversalOfId).contains t.id = s.treasury.any fun r =>
        (decide (r.documentId = some id) && !r.isDeleted) && decide (r.reversalOfId = some t.id) := by
    rw [Bool.eq_iff_iff]
    simp [and_assoc]
  rw [reversed]
  rfl

/-- The state after a row is linked elsewhere. -/
abbrev relinked (s : SettlementState) (rowId : ℕ) (documentId : Option DocumentId) :
    SettlementState :=
  s.updateTreasury rowId fun r => r.link documentId

/-- Linking an original row elsewhere changes which rows count, not what reverses them. -/
theorem counts_relink {row : TreasuryRow} {documentId : Option DocumentId}
    (unique : ∀ r ∈ s.treasury, r.id = row.id → r = row) (original : row.reversalOfId = none)
    (t : TreasuryRow) :
    (s.relinked row.id documentId).counts id t = s.counts id t := by
  unfold counts relinked updateTreasury
  congr 3
  rw [List.any_map, Bool.eq_iff_iff, List.any_eq_true, List.any_eq_true]
  refine exists_congr fun r => and_congr_right fun hr => ?_
  by_cases moved : r.id = row.id
  · rw [unique r hr moved]
    simp [original, TreasuryRow.link]
  · rw [Function.comp_apply, if_neg moved]

theorem sourceLive_relink {rowId : ℕ} {documentId : Option DocumentId}
    {source : AllocationSource} :
    (s.relinked rowId documentId).sourceLive source = s.sourceLive source := by
  cases source with
  | cheque id => rfl
  | treasury id =>
      simp only [sourceLive, updateTreasury, List.any_map]
      congr 1
      funext r
      rw [Function.comp_apply]
      split <;> rfl

theorem settled_le {t : SettlementState} {document : SettlementDocument} {amount : ℚ}
    (allocated : t.allocatedAmountOf id = s.allocatedAmountOf id)
    (direct : t.directAmount document ≤ s.directAmount document + amount) :
    t.directAmount document + t.allocatedAmountOf id ≤
      s.directAmount document + s.allocatedAmountOf id + amount := by
  rw [allocated]
  linarith

/-- The document an original row is newly linked to counts at most the row's amount more. -/
theorem read_relink (inv : SettlementInvariant s) {row : TreasuryRow} (member : row ∈ s.treasury)
    (original : row.reversalOfId = none) (elsewhere : row.documentId ≠ some id)
    {doc : DocumentRemaining} (read : s.readDocumentPayableAndSettled id = some doc) :
    ∃ doc', (s.relinked row.id (some id)).readDocumentPayableAndSettled id = some doc' ∧
      doc'.payable = doc.payable ∧ doc'.returned = doc.returned ∧
      doc'.settled ≤ doc.settled + row.amount := by
  obtain ⟨document, found, rfl⟩ := Option.map_eq_some_iff.mp read
  have sameId : document.id = id := by simpa using List.find?_some found
  have nonneg := (inv.treasuryAmounts row member).2
  have allocated : (s.relinked row.id (some id)).allocatedAmountOf id = s.allocatedAmountOf id :=
    allocatedAmountOf_congr rfl fun _ _ => sourceLive_relink
  have direct : (s.relinked row.id (some id)).directAmount document ≤
      s.directAmount document + row.amount := by
    unfold directAmount
    rw [sameId, settledAmount_eq, settledAmount_eq]
    set settling : TreasuryType :=
      if purchaseSettledTypes.contains document.type then .payment else .receipt
    have gone : s.counts id row = false := by simp [counts, elsewhere]
    have counted : (if s.counts id (row.link (some id)) then
        (row.link (some id)).settles settling else 0) ≤ row.amount := by
      split
      · exact TreasuryRow.settles_le (t := row.link (some id)) nonneg settling
      · exact nonneg
    have moved := sumWhere_update (p := s.counts id) (f := fun t => t.settles settling)
      (fun r : TreasuryRow => r.link (some id)) inv.treasuryApart member
    rw [gone, if_neg Bool.false_ne_true, add_zero] at moved
    rw [funext (counts_relink (fun r hr => inv.treasury_unique hr member) original)]
    exact moved.trans_le (by gcongr)
  exact ⟨_, congrArg (Option.map _) found, rfl, rfl, settled_le allocated direct⟩

end SettlementState

/-! ## The documents of an accepted request -/

namespace SettlementOperation

/-- The documents a request puts parts on. -/
def partTargets : SettlementOperation → List DocumentId
  | createTreasury request => request.allocations.map SettlementAllocationInput.documentId
  | replaceTreasury _ sent _ _ => sent.map SettlementAllocationInput.documentId
  | createCheque request => request.allocations.map SettlementAllocationInput.documentId
  | replaceCheque _ sent _ _ => sent.map SettlementAllocationInput.documentId
  | _ => []

/-- The document a request links a treasury row to directly; a move to the document the
row is already on changes nothing. -/
def directTarget (s : SettlementState) : SettlementOperation → Option DocumentId
  | createTreasury request => request.documentId
  | relink id documentId _ _ =>
      if ∃ row ∈ s.treasury, row.id = id ∧ row.documentId = documentId then none else documentId
  | _ => none

end SettlementOperation

/-- New parts fit, when they were checked in a state that reads their documents as the
state they are written to does. -/
theorem parts_withinPayable {s checked : SettlementState} {source : AllocationSource}
    {party : AllocationSourceParty} {kept : DocumentId → Option ℚ}
    {parts sent : List SettlementAllocationInput} {amount : ℚ}
    (inv : SettlementInvariant s) (live : s.sourceLive source = true)
    (normal : NormalParts parts amount) (perm : parts.Perm sent)
    (reads : ∀ id, checked.readDocumentPayableAndSettled id = s.readDocumentPayableAndSettled id)
    (passed : parts ≠ [] → lockAndCheckAllocationTargets checked party parts kept = .ok ()) :
    ∀ id ∈ sent.map SettlementAllocationInput.documentId, ∃ doc,
      (s.insertAllocations source parts).readDocumentPayableAndSettled id = some doc ∧
        doc.WithinPayable := by
  intro id hid
  obtain ⟨p, hp, rfl⟩ := List.mem_map.mp hid
  have member := perm.mem_iff.mpr hp
  obtain ⟨⟨doc, read⟩, within⟩ :=
    lockAndCheckAllocationTargets_ok (passed (List.ne_nil_of_mem member)) member
  have scale : AtScale 4 doc.settled := inv.settled_scale ((reads _).symm.trans read)
  refine ⟨_, ?_, within_of_exact read ⟨scale, normal.scale p member⟩ (normal.positive p member)
    within⟩
  rw [SettlementState.read_insertAllocations live normal member, ← reads, read]
  rfl

/-- A document's reading grows by at most the amount that was checked. -/
theorem withinSlack_mono {doc doc' : DocumentRemaining} {amount : ℚ}
    (payable : doc'.payable = doc.payable) (returned : doc'.returned = doc.returned)
    (settled : doc'.settled ≤ doc.settled + amount)
    (h : ({ doc with settled := doc.settled + amount } : DocumentRemaining).WithinSlack) :
    doc'.WithinSlack := by
  unfold DocumentRemaining.WithinSlack at h ⊢
  rw [payable, returned]
  linarith

/-- The row an accepted direct link is recorded with. -/
theorem read_insertTreasury_linked {s : SettlementState} (inv : SettlementInvariant s)
    (row : TreasuryRow) {id : DocumentId} (linked : row.documentId = some id)
    (live : row.isDeleted = false) (original : row.reversalOfId = none)
    (completed : row.status = .completed) (nonneg : 0 ≤ row.amount) {doc : DocumentRemaining}
    (read : s.readDocumentPayableAndSettled id = some doc) :
    ∃ doc', (s.insertTreasury row).readDocumentPayableAndSettled id = some doc' ∧
      doc'.payable = doc.payable ∧ doc'.returned = doc.returned ∧
      doc'.settled ≤ doc.settled + row.amount := by
  obtain ⟨document, found, rfl⟩ := Option.map_eq_some_iff.mp read
  have sameId : document.id = id := by simpa using List.find?_some found
  have allocated : (s.insertTreasury row).allocatedAmountOf id = s.allocatedAmountOf id :=
    SettlementState.allocatedAmountOf_congr rfl fun a ha =>
      SettlementState.sourceLive_insertTreasury (inv.partsBelow a ha)
  have rows : (s.insertTreasury row).settlementRows id =
      s.settlementRows id ++ [{ row with id := s.nextTreasuryId }] := by
    simp [SettlementState.settlementRows, SettlementState.insertTreasury, linked, live]
  have direct : (s.insertTreasury row).directAmount document ≤
      s.directAmount document + row.amount := by
    unfold SettlementState.directAmount
    rw [sameId, rows]
    exact settledAmount_append_le original completed nonneg
  exact ⟨_, congrArg (Option.map _) found, rfl, rfl, SettlementState.settled_le allocated direct⟩

/-- A row or a cheque just recorded is a live source. -/
theorem sourceLive_new_treasury (s : SettlementState) (request : TreasuryRequest) :
    (s.insertTreasury request.row).sourceLive (.treasury s.nextTreasuryId) = true := by
  simp [SettlementState.sourceLive, SettlementState.insertTreasury, TreasuryRow.live,
    TreasuryRequest.row]

theorem sourceLive_new_cheque (s : SettlementState) (request : ChequeRequest) :
    (s.insertCheque request.row).sourceLive (.cheque s.nextChequeId) = true := by
  simp only [SettlementState.sourceLive, SettlementState.insertCheque, List.any_append,
    List.any_cons, List.any_nil, decide_true, Bool.true_and, Bool.or_false, Bool.or_eq_true]
  right
  unfold Cheque.live ChequeRequest.row initialChequeStatus
  cases request.type <;> rfl

theorem settlement_acceptance {s t : SettlementState} {op : SettlementOperation}
    (inv : SettlementInvariant s) (h : settlementStep s op = .ok t) :
    (∀ id ∈ op.partTargets, ∃ doc,
      t.readDocumentPayableAndSettled id = some doc ∧ doc.WithinPayable) ∧
    ∀ id ∈ op.directTarget s, ∃ doc,
      t.readDocumentPayableAndSettled id = some doc ∧ doc.WithinSlack := by
  have no_direct : ∀ {P : DocumentId → Prop}, ∀ id ∈ (none : Option DocumentId), P id :=
    fun _ member => by cases member
  cases op with
  | recordDocument | changeDocument | postOther | voidTreasury | changeCheque | deleteCheque =>
      exact ⟨List.forall_mem_nil _, no_direct⟩
  | createTreasury request =>
      obtain ⟨parts, party, normal, perm, scale, positive, exclusive, direct, targets, rfl⟩ :=
        createTreasuryTransaction_ok h
      have amount : request.row.amount = request.amount := money_of_atScale scale
      have posted : SettlementInvariant (s.insertTreasury request.row) := inv.insertTreasury
        ⟨atScale_money _, amount.symm ▸ positive.le⟩
      refine ⟨?_, ?_⟩
      · intro id hid
        have some_part : parts ≠ [] := by
          rintro rfl
          rw [SettlementOperation.partTargets, ← perm.nil_eq] at hid
          exact absurd hid List.not_mem_nil
        have unlinked : request.row.documentId = none := exclusive.resolve_left some_part
        exact parts_withinPayable posted (sourceLive_new_treasury s request) normal perm
          (fun _ => (SettlementState.read_insertTreasury inv unlinked).symm) targets id hid
      · intro id linked
        have linked : request.documentId = some id := linked
        have no_parts : parts = [] := exclusive.resolve_right (by simp [linked])
        have passed := direct id linked
        simp only [checkDirectLink, bind_eq_ok] at passed
        obtain ⟨⟨⟩, exists_doc, -, -, within⟩ := passed
        obtain ⟨doc, read⟩ := document_of_link exists_doc
        obtain ⟨doc', read', payable, returned, settled⟩ :=
          read_insertTreasury_linked inv request.row linked rfl rfl rfl
            (amount.symm ▸ positive.le) read
        rw [no_parts, SettlementState.insertAllocations_nil]
        exact ⟨doc', read', withinSlack_mono payable returned (amount ▸ settled)
          (within_of_direct read within)⟩
  | relink rowId documentId currentName refused =>
      refine ⟨List.forall_mem_nil _, ?_⟩
      intro id linked
      obtain ⟨row, member, sameId, -, -, original, -, ⟨unmoved, -⟩ | ⟨checks, rfl⟩⟩ :=
        relinkTreasuryDocument_ok h
      · rw [SettlementOperation.directTarget, if_pos ⟨row, member, sameId, unmoved⟩] at linked
        cases linked
      · simp only [SettlementOperation.directTarget] at linked
        split at linked
        · cases linked
        · rename_i moved
          have target : documentId = some id := linked
          subst target
          have elsewhere : row.documentId ≠ some id :=
            fun same => moved ⟨row, member, sameId, same⟩
          obtain ⟨⟨party, exists_doc⟩, within⟩ := checks id rfl
          obtain ⟨doc, read⟩ := document_of_link exists_doc
          obtain ⟨doc', read', payable, returned, settled⟩ :=
            SettlementState.read_relink inv member original elsewhere read
          exact ⟨doc', read', withinSlack_mono payable returned settled
            (within_of_direct read within)⟩
  | replaceTreasury id sent currentName refused =>
      obtain ⟨row, member, parts, live, normal, perm, ⟨party, kept, passed⟩, rfl⟩ :=
        replaceTreasuryAllocations_ok h
      have released_live :
          (releasedTreasury s row).sourceLive (.treasury row.id) = true := by
        rw [SettlementState.sourceLive_relink]
        exact List.any_eq_true.mpr ⟨row, member, by simp [live]⟩
      exact ⟨parts_withinPayable (inv.releasedTreasury row) released_live normal perm
        (fun _ => rfl) (fun _ => passed), no_direct⟩
  | createCheque request =>
      obtain ⟨parts, party, normal, perm, scale, positive, targets, rfl⟩ := createCheque_ok h
      have amount : request.row.amount = request.amount := money_of_atScale scale
      have posted : SettlementInvariant (s.insertCheque request.row) :=
        inv.insertCheque (amount.symm ▸ positive.le)
      exact ⟨parts_withinPayable posted (sourceLive_new_cheque s request) normal perm
        (fun _ => (SettlementState.read_insertCheque inv _).symm) targets, no_direct⟩
  | replaceCheque id sent currentName refused =>
      obtain ⟨cheque, member, parts, live, normal, perm, ⟨party, kept, passed⟩, rfl⟩ :=
        replaceChequeAllocations_ok h
      have released_live : (s.releaseSourceAllocations (.cheque cheque.id)).sourceLive
          (.cheque cheque.id) = true :=
        List.any_eq_true.mpr ⟨cheque, member, by simp [live]⟩
      exact ⟨parts_withinPayable (inv.releaseSourceAllocations _) released_live normal perm
        (fun _ => rfl) (fun _ => passed), no_direct⟩

/-! ## Lapsed cheques -/

/-- The cheque with this id has lapsed or is deleted, and no later cheque gets its id. -/
def ChequeLapsed (id : ℕ) (s : SettlementState) : Prop :=
  id < s.nextChequeId ∧
    ∀ q ∈ s.cheques, q.id = id → q.isDeleted = true ∨ chequeLapsed q.status = true

theorem ChequeLapsed.not_live {id : ℕ} {s : SettlementState} (h : ChequeLapsed id s) :
    s.sourceLive (.cheque id) = false := by
  rw [SettlementState.sourceLive, List.any_eq_false]
  intro q hq
  by_cases same : q.id = id
  · rcases h.2 q hq same with deleted | lapsed
    · simp [Cheque.live, deleted]
    · simp [Cheque.live, lapsed]
  · simp [same]

theorem ChequeLapsed.insertCheque {id : ℕ} {s : SettlementState} (h : ChequeLapsed id s)
    (row : Cheque) : ChequeLapsed id (s.insertCheque row) := by
  refine ⟨h.1.trans (Nat.lt_succ_self _), fun q hq same => ?_⟩
  rcases List.mem_append.mp hq with old | new
  · exact h.2 q old same
  · rw [List.mem_singleton.mp new] at same
    exact absurd same h.1.ne'

theorem ChequeLapsed.updateCheque {id chequeId : ℕ} {s : SettlementState}
    (h : ChequeLapsed id s) {update : Cheque → Cheque} (sameId : ∀ q, (update q).id = q.id)
    (lapses : ∀ q ∈ s.cheques, q.id = chequeId → q.id = id →
      (update q).isDeleted = true ∨ chequeLapsed (update q).status = true) :
    ChequeLapsed id (s.updateCheque chequeId update) := by
  refine ⟨h.1, fun q' hq' same => ?_⟩
  obtain ⟨q, hq, rfl⟩ := List.mem_map.mp hq'
  by_cases updated : q.id = chequeId
  · rw [if_pos updated] at same ⊢
    exact lapses q hq updated ((sameId q).symm.trans same)
  · rw [if_neg updated] at same ⊢
    exact h.2 q hq same

theorem chequeLapsed_step {id : ℕ} {s t : SettlementState} {op : SettlementOperation}
    (inv : SettlementInvariant s) (lapsed : ChequeLapsed id s) (h : settlementStep s op = .ok t) :
    ChequeLapsed id t := by
  cases op with
  | recordDocument document =>
      simp only [settlementStep, bind_eq_ok, ensure_eq_ok, pure_eq_ok] at h
      obtain ⟨-, -, rfl⟩ := h
      exact lapsed
  | changeDocument docId terms =>
      simp only [settlementStep, Except.ok.injEq] at h
      subst h
      exact lapsed
  | createTreasury request =>
      obtain ⟨parts, _, -, -, -, -, -, -, -, rfl⟩ := createTreasuryTransaction_ok h
      exact lapsed
  | postOther row =>
      simp only [settlementStep, postOtherRow, bind_eq_ok, ensure_eq_ok, pure_eq_ok] at h
      obtain ⟨-, -, rfl⟩ := h
      exact lapsed
  | relink rowId documentId currentName refused =>
      obtain ⟨row, _, _, _, _, _, _, ⟨_, rfl⟩ | ⟨_, rfl⟩⟩ := relinkTreasuryDocument_ok h
      · exact lapsed
      · exact lapsed
  | voidTreasury rowId refused =>
      obtain ⟨row, -, rfl⟩ := voidTreasuryTransaction_ok h
      exact lapsed
  | replaceTreasury rowId sent currentName refused =>
      obtain ⟨row, -, parts, -, -, -, -, rfl⟩ := replaceTreasuryAllocations_ok h
      exact lapsed
  | createCheque request =>
      obtain ⟨parts, _, -, -, -, -, -, rfl⟩ := createCheque_ok h
      exact lapsed.insertCheque request.row
  | replaceCheque chequeId sent currentName refused =>
      obtain ⟨cheque, -, parts, -, -, -, -, rfl⟩ := replaceChequeAllocations_ok h
      exact lapsed
  | changeCheque chequeId next refused =>
      obtain ⟨cheque, member, notDeleted, legal, rfl⟩ := changeChequeStatus_ok h
      refine lapsed.updateCheque (fun _ => rfl) fun q hq sameCheque same => .inr ?_
      have this_one : q = cheque := inv.cheque_unique hq member sameCheque
      subst this_one
      rcases lapsed.2 q hq same with deleted | status
      · rw [notDeleted] at deleted
        cases deleted
      · exact chequeLapsed_next status legal
  | deleteCheque chequeId refused =>
      obtain ⟨deletedId, rfl⟩ := deleteCheque_ok h
      exact lapsed.updateCheque (fun _ => rfl) fun _ _ _ _ => .inl rfl

/-- Once a cheque has lapsed, no part of it is live again, whatever happens. -/
theorem lapsed_never_live {s : SettlementState} (inv : SettlementInvariant s) {q : Cheque}
    (hq : q ∈ s.cheques) (lapsed : chequeLapsed q.status = true)
    (ops : List SettlementOperation) :
    (run settlementStep s ops).sourceLive (.cheque q.id) = false := by
  have start : ChequeLapsed q.id s :=
    ⟨inv.chequesBelow q hq, fun q' hq' same => .inr (inv.cheque_unique hq' hq same ▸ lapsed)⟩
  have both : SettlementInvariant (run settlementStep s ops) ∧
      ChequeLapsed q.id (run settlementStep s ops) := by
    refine run_invariant (I := fun s => SettlementInvariant s ∧ ChequeLapsed q.id s) ?_
      ⟨inv, start⟩ ops
    exact fun _ _ _ held h => ⟨settlementInvariant_step held.1 h, chequeLapsed_step held.1 held.2 h⟩
  exact both.2.not_live

/-! ## The claim -/

/-- Every order of the settlement operations keeps documents, sources and lapsed cheques
apart as the module says. -/
theorem settlement_is_safe (ops : List SettlementOperation) :
    let s := runSettlement ops
    (∀ op t, settlementStep s op = .ok t →
      (∀ id ∈ op.partTargets, ∃ doc,
        t.readDocumentPayableAndSettled id = some doc ∧ doc.WithinPayable) ∧
      ∀ id ∈ op.directTarget s, ∃ doc,
        t.readDocumentPayableAndSettled id = some doc ∧ doc.WithinSlack) ∧
    (∀ r ∈ s.treasury, s.partsTotal (.treasury r.id) ≤ r.amount) ∧
    (∀ q ∈ s.cheques, s.partsTotal (.cheque q.id) ≤ q.amount) ∧
    (∀ r ∈ s.treasury, r.documentId ≠ none → s.sourceAllocations (.treasury r.id) = []) ∧
    ∀ q ∈ s.cheques, chequeLapsed q.status = true → ∀ later,
      ∀ a ∈ (run settlementStep s later).allocations, a.source = .cheque q.id →
        (run settlementStep s later).liveAllocation a = false := by
  have inv := settlementInvariant_run ops
  refine ⟨fun _ _ h => settlement_acceptance inv h, inv.treasuryParts, inv.chequeParts, inv.oneKind,
    fun q hq lapsed later a _ source => ?_⟩
  rw [SettlementState.liveAllocation, source, lapsed_never_live inv hq lapsed later,
    Bool.and_false]

end PapitalErp
