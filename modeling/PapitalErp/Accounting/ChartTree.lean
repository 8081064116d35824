import PapitalErp.Lib.FilteredSums
import PapitalErp.Lib.ParentLinks
import PapitalErp.Accounting.ChartOfAccounts

/-!
# The chart of accounts stays a levelled tree

Every live account that has a parent has a live parent one level above it, and
following parents never cycles, after every schedule of transactions whose
restorations find the account's parent as `assertAccountPlacement` would require it:
live, one level above, and with no lock of another transaction on its row. The
restoration itself asks only that the parent is not deleted, and takes no lock.

A transaction keeps what it has read because it holds the lock of its account, and of
the parent it places the account under; a row comes under a parent only with a lock on
that parent. A live account is on no cycle because levels go up along its parents.
-/

namespace PapitalErp

open Interleaving ParentLinks FilteredSums Relation

/-! ## A well-formed chart -/

def ParentOf (rows : List Account) (a b : ℕ) : Prop := ∃ row ∈ rows, row.id = a ∧ row.parentId = some b

/-- The account with the id is live and one level above. -/
def LevelParent (rows : List Account) (level : AccountLevel) (id : ℕ) : Prop :=
  ∃ parent ∈ rows, parent.id = id ∧ parent.isDeleted = false ∧ parentLevelOf level = some parent.level

instance (rows : List Account) (level : AccountLevel) (id : ℕ) : Decidable (LevelParent rows level id) :=
  inferInstanceAs (Decidable (∃ parent ∈ rows, _))

/-- The levels of the live children of an account. -/
def ChildrenAre (rows : List Account) (id : ℕ) (P : AccountLevel → Prop) : Prop :=
  ∀ row ∈ rows, row.parentId = some id → row.isDeleted = false → P row.level

structure WellFormed (rows : List Account) : Prop where
  ids : rows.Pairwise fun a b => a.id ≠ b.id
  levels : ∀ row ∈ rows, row.isDeleted = false → ∀ p ∈ row.parentId, LevelParent rows row.level p
  acyclic : Acyclic (ParentOf rows)

def AccountLevel.rank : AccountLevel → ℕ
  | .group => 0
  | .general => 1
  | .subsidiary => 2
  | .detailed => 3

theorem rank_of_parentLevelOf {level above : AccountLevel} (h : parentLevelOf level = some above) :
    above.rank < level.rank := by
  cases level <;> cases h <;> decide

section Rows

variable {rows : List Account} {row new old : Account} {id p : ℕ} {level : AccountLevel}
  {P : AccountLevel → Prop}

theorem find_of_mem (ids : rows.Pairwise fun a b => a.id ≠ b.id) (mem : row ∈ rows) :
    rows.find? (fun r => r.id == row.id) = some row := by
  cases found : rows.find? (fun r => r.id == row.id) with
  | none => exact absurd (BEq.rfl : (row.id == row.id) = true) (List.find?_eq_none.mp found row mem)
  | some other =>
      have same : other.id = row.id := by simpa using List.find?_some found
      rw [eq_of_key_eq ids (List.mem_of_find?_eq_some found) mem same]

/-- A live account is on no cycle: the levels go up along its parents. -/
theorem no_cycle_of_live (ids : rows.Pairwise fun a b => a.id ≠ b.id)
    (levels : ∀ row ∈ rows, row.isDeleted = false → ∀ p ∈ row.parentId, LevelParent rows row.level p)
    (mem : row ∈ rows) (live : row.isDeleted = false) : ¬TransGen (ParentOf rows) row.id row.id := by
  let Live (a : ℕ) : Prop := ∃ row ∈ rows, row.id = a ∧ row.isDeleted = false
  let rank (a : ℕ) : ℕ := ((rows.find? fun r => r.id == a).map (·.level.rank)).getD 0
  have down : ∀ a b, Live a → ParentOf rows a b → Live b ∧ rank b < rank a := by
    rintro a b ⟨child, known, rfl, alive⟩ ⟨same, mem', key, link⟩
    cases eq_of_key_eq ids mem' known key
    obtain ⟨parent, there, rfl, lives, above⟩ := levels child known alive b link
    refine ⟨⟨parent, there, rfl, lives⟩, ?_⟩
    simp only [rank]
    rw [find_of_mem ids there, find_of_mem ids known]
    exact rank_of_parentLevelOf above
  exact no_cycle_of_rank down ⟨row, mem, rfl, live⟩

/-- A row of the table after one was written. -/
theorem mem_written (mem : row ∈ rows.map fun r => if r.id = new.id then new else r) :
    row = new ∨ row ∈ rows ∧ row.id ≠ new.id := by
  obtain ⟨r, earlier, rfl⟩ := List.mem_map.mp mem
  split
  · exact Or.inl rfl
  · exact Or.inr ⟨earlier, ‹_›⟩

theorem LevelParent.written (h : LevelParent rows level p) (other : p ≠ new.id) :
    LevelParent (rows.map fun r => if r.id = new.id then new else r) level p := by
  obtain ⟨parent, mem, rfl, rest⟩ := h
  exact ⟨parent, List.mem_map.mpr ⟨parent, mem, if_neg other⟩, rfl, rest⟩

theorem LevelParent.ne_of_deleted (ids : rows.Pairwise fun a b => a.id ≠ b.id)
    (h : LevelParent rows level p) (mem : old ∈ rows) (deleted : old.isDeleted = true) : p ≠ old.id := by
  rintro rfl
  obtain ⟨parent, there, same, live, -⟩ := h
  cases eq_of_key_eq ids there mem same
  rw [deleted] at live
  cases live

namespace WellFormed

/-- A write keeps the chart when the row's live children stay one level below it, its
parent is one level above it, and either it is live or its parent stays. -/
theorem write (h : WellFormed rows) (mem : old ∈ rows) (same : new.id = old.id)
    (children : ∀ row ∈ rows, row.id ≠ new.id → row.isDeleted = false → row.parentId = some new.id →
      new.isDeleted = false ∧ parentLevelOf row.level = some new.level)
    (parent : new.isDeleted = false → ∀ p ∈ new.parentId, p ≠ new.id ∧ LevelParent rows new.level p)
    (stays : new.isDeleted = false ∨ new.parentId = old.parentId) :
    WellFormed (rows.map fun r => if r.id = new.id then new else r) := by
  have here : new ∈ rows.map fun r => if r.id = new.id then new else r :=
    List.mem_map.mpr ⟨old, mem, if_pos same.symm⟩
  have ids : (rows.map fun r => if r.id = new.id then new else r).Pairwise fun a b => a.id ≠ b.id := by
    refine List.pairwise_map.mpr (h.ids.imp fun {a b} apart => ?_)
    split <;> split
    · exact absurd (Eq.trans ‹_› (Eq.symm ‹_›)) apart
    · exact fun eq => ‹¬b.id = new.id› eq.symm
    · exact ‹¬a.id = new.id›
    · exact apart
  have levels : ∀ row ∈ rows.map fun r => if r.id = new.id then new else r, row.isDeleted = false →
      ∀ p ∈ row.parentId, LevelParent (rows.map fun r => if r.id = new.id then new else r) row.level p := by
    intro row written live p link
    rcases mem_written written with rfl | ⟨earlier, other⟩
    · obtain ⟨apart, above⟩ := parent live p link
      exact above.written apart
    · by_cases child : p = new.id
      · subst child
        obtain ⟨alive, above⟩ := children row earlier other live link
        exact ⟨new, here, rfl, alive, above⟩
      · exact (h.levels row earlier live p link).written child
  refine ⟨ids, levels, ?_⟩
  have before : ∀ a b, a ≠ new.id →
      ParentOf (rows.map fun r => if r.id = new.id then new else r) a b → ParentOf rows a b := by
    rintro a b apart ⟨row, written, rfl, link⟩
    rcases mem_written written with rfl | ⟨earlier, -⟩
    · exact absurd rfl apart
    · exact ⟨row, earlier, rfl, link⟩
  rcases stays with live | sameParent
  · exact h.acyclic.change before (no_cycle_of_live ids levels here live)
  · -- the links are the same
    have links : ParentOf (rows.map fun r => if r.id = new.id then new else r) ≤ ParentOf rows := by
      rintro b c ⟨row, written, rfl, link⟩
      rcases mem_written written with rfl | ⟨earlier, -⟩
      · exact ⟨old, mem, same.symm, sameParent ▸ link⟩
      · exact ⟨row, earlier, rfl, link⟩
    exact fun a cycle => h.acyclic a (TransGen.mono links a a cycle)

/-- A new account that nothing refers to. -/
theorem insert (h : WellFormed rows) (fresh : ∀ row ∈ rows, row.id ≠ new.id)
    (parent : ∀ p ∈ new.parentId, LevelParent rows new.level p) (live : new.isDeleted = false) :
    WellFormed (rows ++ [new]) := by
  have grow : ∀ {level p}, LevelParent rows level p → LevelParent (rows ++ [new]) level p := by
    rintro level p ⟨parent, mem, rest⟩
    exact ⟨parent, List.mem_append_left _ mem, rest⟩
  have ids : (rows ++ [new]).Pairwise fun a b => a.id ≠ b.id := by
    refine List.pairwise_append.mpr ⟨h.ids, List.pairwise_singleton _ _, ?_⟩
    intro a mem b added
    cases List.mem_singleton.mp added
    exact fresh a mem
  have levels : ∀ row ∈ rows ++ [new], row.isDeleted = false →
      ∀ p ∈ row.parentId, LevelParent (rows ++ [new]) row.level p := by
    intro row mem alive p link
    rcases List.mem_append.mp mem with earlier | added
    · exact grow (h.levels row earlier alive p link)
    · cases List.mem_singleton.mp added
      exact grow (parent p link)
  refine ⟨ids, levels, h.acyclic.change (x := new.id) ?_ ?_⟩
  · rintro a b apart ⟨row, mem, rfl, link⟩
    rcases List.mem_append.mp mem with earlier | added
    · exact ⟨row, earlier, rfl, link⟩
    · cases List.mem_singleton.mp added
      exact absurd rfl apart
  · exact no_cycle_of_live ids levels (List.mem_append_right _ (List.mem_singleton_self _)) live

end WellFormed

end Rows

/-! ## What the transactions keep -/

/-- The committed chart; `known` is the foreign key and the sequence. -/
structure ChartTables.Valid (t : ChartTables) : Prop where
  chart : WellFormed t.rows
  known : ∀ row ∈ t.rows, row.id < t.nextId ∧ ∀ p ∈ row.parentId, p < t.nextId
  locks : t.locks.Consistent

/-- The transaction holds the lock of the row it read. -/
def HoldsRow (i : ℕ) (t : ChartTables) (account : Account) : Prop :=
  t.locks.owner account.id = some i ∧ account ∈ t.rows

/-- It holds the lock of a parent that is live and one level above. -/
def HoldsParent (i : ℕ) (t : ChartTables) (level : AccountLevel) (parentId : Option ℕ) : Prop :=
  ∀ p ∈ parentId, i ∈ t.locks.sharers p ∧ LevelParent t.rows level p

/-- The row that an update will write. -/
structure Updates (i : ℕ) (t : ChartTables) (account target : Account) : Prop where
  row : HoldsRow i t account
  live : account.isDeleted = false
  id : target.id = account.id
  stays : target.isDeleted = false

/-- The new place of an account: its parent is another account. -/
structure Places (i : ℕ) (t : ChartTables) (account target : Account) : Prop where
  parent : HoldsParent i t target.level target.parentId
  other : ∀ p ∈ target.parentId, p ≠ account.id

/-- What a transaction knows at its point of the code. -/
def KnowsChart (i : ℕ) (t : ChartTables) : ChartProgress → Prop
  | .start | .done => True
  | .placed input => HoldsParent i t input.level input.parentId
  | .counting account target | .placing account target => Updates i t account target
  | .climbing account target _ _ | .fitting account target =>
      Updates i t account target ∧ Places i t account target
  | .writing account target => Updates i t account target ∧
      (account.moves target = false ∨ Places i t account target ∧
        ChildrenAre t.rows account.id fun level => parentLevelOf level = some target.level)
  | .emptying account => HoldsRow i t account ∧ account.isDeleted = false
  | .deleting account => HoldsRow i t account ∧ account.isDeleted = false ∧
      ChildrenAre t.rows account.id fun _ => False
  | .reviving account | .restoring account => HoldsRow i t account ∧ account.isDeleted = true

/-- The restoration finds the account's parent in its place: live, one level above, and not
locked by another transaction. -/
def RestoresInPlace (i : ℕ) (turn : ChartTurn) (t : ChartTables) (progress : ChartProgress) : Prop :=
  match turn, progress with
  | .proceed _ _, .restoring account => ∀ p ∈ account.parentId,
      LevelParent t.rows account.level p ∧ (t.locks.owner p = none ∨ t.locks.owner p = some i)
  | _, _ => True

instance (i : ℕ) (turn : ChartTurn) (t : ChartTables) (progress : ChartProgress) :
    Decidable (RestoresInPlace i turn t progress) := by
  cases turn <;> cases progress <;> unfold RestoresInPlace <;> infer_instance

section Outline

variable {requests : ℕ → ChartRequest} {i j id : ℕ} {t t' : ChartTables}
  {progress next : ChartProgress} {account target new old : Account} {level : AccountLevel}
  {parentId : Option ℕ}

/-- What a statement of process `i` leaves to the others. -/
structure LeavesChart (i : ℕ) (t t' : ChartTables) : Prop where
  locks : ∀ j ≠ i, RowLocks.Keeps j t.locks t'.locks
  rows : ∀ j ≠ i, ∀ account, t.locks.owner account.id = some j → account ∈ t.rows → account ∈ t'.rows
  parents : ∀ j ≠ i, ∀ level p, j ∈ t.locks.sharers p → LevelParent t.rows level p →
    LevelParent t'.rows level p
  children : ∀ j ≠ i, ∀ id P, t.locks.owner id = some j → ChildrenAre t.rows id P →
    ChildrenAre t'.rows id P

/-- The effect of a statement. -/
structure ChartOutcome (i : ℕ) (t t' : ChartTables) (next : ChartProgress) : Prop where
  valid : t'.Valid
  own : KnowsChart i t' next
  others : LeavesChart i t t'

theorem HoldsRow.others (h : HoldsRow j t account) (apart : j ≠ i) (leaves : LeavesChart i t t') :
    HoldsRow j t' account :=
  ⟨(leaves.locks j apart).owner _ h.1, leaves.rows j apart _ h.1 h.2⟩

theorem HoldsParent.others (h : HoldsParent j t level parentId) (apart : j ≠ i)
    (leaves : LeavesChart i t t') : HoldsParent j t' level parentId := by
  intro p link
  obtain ⟨shared, above⟩ := h p link
  exact ⟨(leaves.locks j apart).sharers _ shared, leaves.parents j apart level p shared above⟩

theorem Updates.others (h : Updates j t account target) (apart : j ≠ i) (leaves : LeavesChart i t t') :
    Updates j t' account target :=
  ⟨h.row.others apart leaves, h.live, h.id, h.stays⟩

theorem Places.others (h : Places j t account target) (apart : j ≠ i) (leaves : LeavesChart i t t') :
    Places j t' account target :=
  ⟨h.parent.others apart leaves, h.other⟩

theorem KnowsChart.others (h : KnowsChart j t progress) (apart : j ≠ i) (leaves : LeavesChart i t t') :
    KnowsChart j t' progress := by
  cases progress with
  | start | done => trivial
  | placed input => exact HoldsParent.others h apart leaves
  | counting account target | placing account target => exact Updates.others h apart leaves
  | climbing account target seen next => exact ⟨h.1.others apart leaves, h.2.others apart leaves⟩
  | fitting account target => exact ⟨h.1.others apart leaves, h.2.others apart leaves⟩
  | writing account target =>
      obtain ⟨updates, place⟩ := h
      refine ⟨updates.others apart leaves, place.imp_right fun ⟨places, children⟩ => ?_⟩
      exact ⟨places.others apart leaves, leaves.children j apart _ _ updates.row.1 children⟩
  | emptying account => exact ⟨h.1.others apart leaves, h.2⟩
  | deleting account =>
      obtain ⟨row, live, children⟩ := h
      exact ⟨row.others apart leaves, live, leaves.children j apart _ _ row.1 children⟩
  | reviving account | restoring account => exact ⟨h.1.others apart leaves, h.2⟩

namespace ChartOutcome

theorem read (h : t.Valid) (own : KnowsChart i t next) : ChartOutcome i t t next :=
  ⟨h, own, fun j _ => .refl j t.locks, fun _ _ _ _ => id, fun _ _ _ _ _ => id, fun _ _ _ _ _ => id⟩

/-- A statement that only changes locks of its own. -/
theorem relock {locks : RowLocks ℕ ℕ} (h : t.Valid) (consistent : locks.Consistent)
    (keeps : ∀ j ≠ i, RowLocks.Keeps j t.locks locks) (own : KnowsChart i { t with locks } next) :
    ChartOutcome i t { t with locks } next :=
  ⟨⟨h.chart, h.known, consistent⟩, own, keeps, fun _ _ _ _ => id, fun _ _ _ _ _ => id,
    fun _ _ _ _ _ => id⟩

theorem refuse (h : t.Valid) : ChartOutcome i t (t.release i) .done :=
  relock h (RowLocks.release_consistent h.locks) (fun _ apart => RowLocks.release_keeps apart) trivial

/-- A write and its commit. What another transaction has read stays: it holds no lock on the
row, and a live row comes under a parent only when no other transaction owns the parent. -/
theorem write (h : t.Valid) (row : HoldsRow i t old) (same : new.id = old.id)
    (chart : WellFormed (t.write new).rows) (known : ∀ p ∈ new.parentId, p < t.nextId)
    (enters : new.isDeleted = false → ∀ id, new.parentId = some id →
      (∀ j ≠ i, t.locks.owner id ≠ some j) ∨
        old.isDeleted = false ∧ old.parentId = some id ∧ old.level = new.level) :
    ChartOutcome i t ((t.write new).release i) .done := by
  have owner : t.locks.owner new.id = some i := same ▸ row.1
  refine ⟨⟨chart, ?_, RowLocks.release_consistent h.locks⟩, trivial,
    fun _ apart => RowLocks.release_keeps apart, ?_, ?_, ?_⟩
  · intro r written
    rcases mem_written written with rfl | ⟨earlier, -⟩
    · exact ⟨same ▸ (h.known old row.2).1, known⟩
    · exact h.known r earlier
  · intro j apart account held mem
    have other : ¬account.id = new.id := fun eq =>
      apart (Option.some.inj (held.symm.trans (eq ▸ owner)))
    exact List.mem_map.mpr ⟨account, mem, if_neg other⟩
  · intro j apart level p shared above
    refine above.written fun eq => apart ?_
    exact h.locks _ _ owner j (eq ▸ shared)
  · intro j apart id P held children r written link alive
    rcases mem_written written with rfl | ⟨earlier, -⟩
    · rcases enters alive id link with free | ⟨lived, link', level⟩
      · exact absurd held (free j apart)
      · exact level ▸ children old row.2 link' lived
    · exact children r earlier link alive

/-- The insert of a new account and its commit. -/
theorem insert {input : NewAccountInput} (h : t.Valid)
    (parent : HoldsParent i t input.level input.parentId) :
    ChartOutcome i t ((t.insert (input.account t.nextId)).release i) .done := by
  have fresh : ∀ row ∈ t.rows, row.id ≠ t.nextId := fun row mem => (h.known row mem).1.ne
  refine ⟨⟨?_, ?_, RowLocks.release_consistent h.locks⟩, trivial,
    fun _ apart => RowLocks.release_keeps apart, ?_, ?_, ?_⟩
  · exact h.chart.insert fresh (fun p link => (parent p link).2) rfl
  · intro row mem
    rcases List.mem_append.mp mem with earlier | added
    · obtain ⟨below, parents⟩ := h.known row earlier
      exact ⟨Nat.lt_succ_of_lt below, fun p link => Nat.lt_succ_of_lt (parents p link)⟩
    · cases List.mem_singleton.mp added
      refine ⟨Nat.lt_succ_self _, fun p link => ?_⟩
      obtain ⟨row, known, rfl, -⟩ := (parent p link).2
      exact Nat.lt_succ_of_lt (h.known row known).1
  · exact fun j _ account _ mem => List.mem_append_left _ mem
  · rintro j - level p - ⟨row, mem, rest⟩
    exact ⟨row, List.mem_append_left _ mem, rest⟩
  · intro j apart id P held children row mem link alive
    rcases List.mem_append.mp mem with earlier | added
    · exact children row earlier link alive
    · cases List.mem_singleton.mp added
      exact absurd (h.locks id j held i (parent id link).1).symm apart

/-- An update is written: it leaves the place of the account, or has checked the new one. -/
theorem update (h : t.Valid) (updates : Updates i t account target)
    (place : account.moves target = false ∨ Places i t account target ∧
      ChildrenAre t.rows account.id fun level => parentLevelOf level = some target.level) :
    ChartOutcome i t ((t.write target).release i) .done := by
  obtain ⟨row, live, same, stays⟩ := updates
  have parents := h.chart.levels account row.2 live
  rcases place with unmoved | ⟨places, children⟩
  · have kept : target.level = account.level ∧ target.parentId = account.parentId := by
      simpa [Account.moves, not_or] using unmoved
    obtain ⟨level, parentId⟩ := kept
    refine write h row same (h.chart.write row.2 same ?_ ?_ (.inl stays)) ?_ fun _ id link => ?_
    · intro child mem _ alive link
      obtain ⟨parent, there, key, -, above⟩ := h.chart.levels child mem alive _ link
      cases eq_of_key_eq h.chart.ids there row.2 (key.trans same)
      exact ⟨stays, level ▸ above⟩
    · intro _ p link
      rw [parentId] at link
      refine ⟨fun eq => h.chart.acyclic account.id (.single ⟨account, row.2, rfl, ?_⟩), level ▸ parents p link⟩
      rw [← same, ← eq]
      exact link
    · rw [parentId]
      exact (h.known account row.2).2
    · exact .inr ⟨live, parentId ▸ link, level.symm⟩
  · refine write h row same (h.chart.write row.2 same ?_ ?_ (.inl stays)) ?_ fun _ id link => ?_
    · intro child mem _ alive link
      exact ⟨stays, children child mem (same ▸ link) alive⟩
    · exact fun _ p link => ⟨same ▸ places.other p link, (places.parent p link).2⟩
    · intro p link
      obtain ⟨parent, mem, rfl, -⟩ := (places.parent p link).2
      exact (h.known parent mem).1
    · refine .inl fun j apart held => apart ?_
      exact (h.locks id j held i (places.parent id link).1).symm

theorem delete (h : t.Valid) (row : HoldsRow i t account)
    (children : ChildrenAre t.rows account.id fun _ => False) :
    ChartOutcome i t ((t.write account.deleted).release i) .done := by
  refine write h row rfl (h.chart.write row.2 rfl ?_ ?_ (.inr rfl)) (h.known account row.2).2 ?_
  · exact fun child mem _ alive link => (children child mem link alive).elim
  · exact fun alive => by cases alive
  · exact fun alive => by cases alive

theorem restore (h : t.Valid) (row : HoldsRow i t account) (deleted : account.isDeleted = true)
    (place : ∀ p ∈ account.parentId,
      LevelParent t.rows account.level p ∧ (t.locks.owner p = none ∨ t.locks.owner p = some i)) :
    ChartOutcome i t ((t.write account.restored).release i) .done := by
  refine write h row rfl (h.chart.write row.2 rfl ?_ ?_ (.inl rfl)) (h.known account row.2).2 ?_
  · intro child mem _ alive link
    have above : LevelParent t.rows child.level account.id := h.chart.levels child mem alive _ link
    exact absurd rfl (above.ne_of_deleted h.chart.ids row.2 deleted)
  · intro _ p link
    have other : p ≠ account.id := (place p link).1.ne_of_deleted h.chart.ids row.2 deleted
    exact ⟨other, (place p link).1⟩
  · intro _ id link
    refine .inl fun j apart held => ?_
    rcases (place id link).2 with none | own
    · rw [none] at held
      cases held
    · exact apart (Option.some.inj (held.symm.trans own))

theorem after {t₁ : ChartTables} {first : ChartProgress} (h : ChartOutcome i t t₁ first)
    (h' : ChartOutcome i t₁ t' next) : ChartOutcome i t t' next := by
  refine ⟨h'.valid, h'.own, fun j apart => (h.others.locks j apart).trans (h'.others.locks j apart), ?_, ?_, ?_⟩
  · intro j apart account held mem
    exact h'.others.rows j apart account ((h.others.locks j apart).owner _ held)
      (h.others.rows j apart account held mem)
  · intro j apart level p shared above
    exact h'.others.parents j apart level p ((h.others.locks j apart).sharers _ shared)
      (h.others.parents j apart level p shared above)
  · intro j apart id P held children
    exact h'.others.children j apart id P ((h.others.locks j apart).owner _ held)
      (h.others.children j apart id P held children)

end ChartOutcome

theorem find_eq_some (found : t.find id = some account) : account ∈ t.rows ∧ account.id = id :=
  ⟨List.mem_of_find?_eq_some found, by simpa using List.find?_some found⟩

/-- The lock of a parent, and what is known when the parent fits. -/
theorem lockParent_outcome {self : Option ℕ} {parentId : ℕ} {follow : Account → ChartProgress}
    (h : t.Valid) (runs : lockParent i t self level parentId follow = some (t', next))
    (fits : ∀ locks parent, RowLocks.Keeps i t.locks locks → i ∈ locks.sharers parentId →
      LevelParent t.rows level parentId → self ≠ some parentId →
      KnowsChart i { t with locks } (follow parent)) : ChartOutcome i t t' next := by
  obtain ⟨locks, taken, rest⟩ := Option.map_eq_some_iff.mp runs
  have shared : i ∈ locks.sharers parentId := (RowLocks.mem_share taken _ _).mpr (.inr ⟨rfl, rfl⟩)
  have first : ChartOutcome i t { t with locks } .start :=
    .relock h (RowLocks.share_consistent h.locks taken) (fun j _ => RowLocks.share_keeps taken j) trivial
  dsimp only at rest
  split at rest
  · cases rest
    exact first.after (.refuse first.valid)
  · rename_i parent found
    obtain ⟨mem, rfl⟩ := find_eq_some found
    split at rest
    · rename_i place
      cases rest
      obtain ⟨live, other, above⟩ := place
      exact first.after (.read first.valid
        (fits locks parent (RowLocks.share_keeps taken i) shared ⟨parent, mem, rfl, live, above⟩ other))
    · cases rest
      exact first.after (.refuse first.valid)

/-- The lock of the account's own row. -/
theorem lockOwn_outcome {follow : Account → ChartTables → ChartTables × ChartProgress} (h : t.Valid)
    (runs : lockOwn i t id follow = some (t', next))
    (rest : ∀ t₁ existing, t₁.Valid → HoldsRow i t₁ existing → follow existing t₁ = (t', next) →
      ChartOutcome i t₁ t' next) : ChartOutcome i t t' next := by
  obtain ⟨locks, taken, continues⟩ := Option.map_eq_some_iff.mp runs
  have first : ChartOutcome i t { t with locks } .start :=
    .relock h (RowLocks.own_consistent h.locks taken) (fun j _ => RowLocks.own_keeps taken j) trivial
  dsimp only at continues
  split at continues
  · cases continues
    exact first.after (.refuse first.valid)
  · rename_i existing found
    obtain ⟨mem, rfl⟩ := find_eq_some found
    exact first.after (rest _ existing first.valid ⟨RowLocks.own_owner taken, mem⟩ continues)

theorem beginUpdate_outcome {edit : AccountEdit} (h : t.Valid) (row : HoldsRow i t account)
    (runs : beginUpdate i edit account t = (t', next)) : ChartOutcome i t t' next := by
  simp only [beginUpdate] at runs
  split at runs
  · cases runs
    exact .refuse h
  · rename_i live
    have updates : Updates i t account (account.edited edit) :=
      ⟨row, Bool.eq_false_iff.mpr live, rfl, Bool.eq_false_iff.mpr live⟩
    split at runs
    · cases runs
      exact .refuse h
    · split at runs
      · cases runs
        exact .read h updates
      · rename_i plain
        cases runs
        refine .read h ⟨updates, .inl ?_⟩
        rw [Account.structural, Bool.or_eq_true, not_or] at plain
        exact Bool.eq_false_iff.mpr plain.1

/-- Every statement that meets the condition has its outcome. -/
theorem chartStatement_outcome {turn : ChartTurn} (h : t.Valid) (own : KnowsChart i t progress)
    (place : RestoresInPlace i turn t progress)
    (runs : chartStatement requests i turn t progress = some (t', next)) :
    ChartOutcome i t t' next := by
  have refused : ∀ {t₁ next₁}, some (refuseChart i t) = some (t₁, next₁) → ChartOutcome i t t₁ next₁ := by
    rintro t₁ next₁ ⟨⟩
    exact .refuse h
  cases turn with
  | die => exact refused runs
  | proceed refusal voucherRows =>
      cases progress with
      | done => cases runs
      | start =>
          simp only [chartStatement] at runs
          split at runs
          · exact refused runs
          · split at runs
            · rename_i input _
              split at runs
              · rename_i root
                cases runs
                refine .read h fun p link => ?_
                rw [root] at link
                cases link
              · rename_i parentId placed
                refine lockParent_outcome h runs fun locks _ _ shared above _ p link => ?_
                rw [placed] at link
                cases Option.some.inj link
                exact ⟨shared, above⟩
            · exact lockOwn_outcome h runs fun t₁ existing valid row rest =>
                beginUpdate_outcome valid row rest
            · refine lockOwn_outcome h runs fun t₁ existing valid row rest => ?_
              split at rest
              · rename_i deleted
                cases rest
                exact .read valid ⟨row, deleted⟩
              · cases rest
                exact .refuse valid
            · refine lockOwn_outcome h runs fun t₁ existing valid row rest => ?_
              split at rest
              · cases rest
                exact .refuse valid
              · rename_i kept
                cases rest
                rw [not_or] at kept
                exact .read valid ⟨row, Bool.eq_false_iff.mpr kept.1⟩
      | placed input =>
          simp only [chartStatement] at runs
          split at runs
          · exact refused runs
          · cases runs
            exact .insert h own
      | counting account target =>
          simp only [chartStatement] at runs
          split at runs
          · exact refused runs
          · split at runs
            · cases runs
              exact .read h own
            · rename_i still
              cases runs
              exact .read h ⟨own, .inl (Bool.eq_false_iff.mpr still)⟩
      | placing account target =>
          simp only [chartStatement] at runs
          split at runs
          · rename_i root
            cases runs
            refine .read h ⟨own, ⟨fun p link => ?_, fun p link => ?_⟩⟩
            · rw [root] at link
              cases link
            · rw [root] at link
              cases link
          · rename_i parentId placed
            refine lockParent_outcome h runs fun locks parent keeps shared above other => ?_
            refine ⟨⟨⟨keeps.owner _ own.row.1, own.row.2⟩, own.live, own.id, own.stays⟩, ⟨?_, ?_⟩⟩
            · intro p link
              rw [placed] at link
              cases Option.some.inj link
              exact ⟨shared, above⟩
            · intro p link eq
              rw [placed] at link
              cases Option.some.inj link
              exact other (congrArg some eq.symm)
      | climbing account target seen up =>
          simp only [chartStatement] at runs
          split at runs
          · cases runs
            exact .read h own
          · split_ifs at runs
            · exact refused runs
            · cases runs
              exact .read h own
            · cases runs
              exact .read h own
      | fitting account target =>
          simp only [chartStatement] at runs
          split at runs
          · rename_i fits
            cases runs
            obtain ⟨updates, places⟩ := own
            refine .read h ⟨updates, .inr ⟨places, fun row mem link alive => ?_⟩⟩
            refine fits row (List.mem_filter.mpr ⟨mem, ?_⟩)
            simp [link, alive]
          · exact refused runs
      | writing account target =>
          simp only [chartStatement] at runs
          split at runs
          · exact refused runs
          · cases runs
            exact .update h own.1 own.2
      | emptying account =>
          simp only [chartStatement] at runs
          split at runs
          · rename_i none
            cases runs
            refine .read h ⟨own.1, own.2, fun row mem link alive => ?_⟩
            have child : row ∈ t.children account.id :=
              List.mem_filter.mpr ⟨mem, by simp [link, alive]⟩
            rw [none] at child
            cases child
          · exact refused runs
      | deleting account =>
          simp only [chartStatement] at runs
          split at runs
          · exact refused runs
          · cases runs
            exact .delete h own.1 own.2.2
      | reviving account =>
          simp only [chartStatement] at runs
          split at runs
          · exact refused runs
          · split at runs
            · split at runs
              · exact refused runs
              · cases runs
                exact .read h own
            · cases runs
              exact .read h own
      | restoring account =>
          cases runs
          exact .restore h own.1 own.2 place

/-- All statements follow the outline. -/
theorem chartOutline (requests : ℕ → ChartRequest) :
    Outline (chartStatement requests) RestoresInPlace ChartTables.Valid KnowsChart where
  own h own place runs :=
    have outcome := chartStatement_outcome h own place runs
    ⟨outcome.valid, outcome.own⟩
  others apart h own other place runs :=
    other.others apart (chartStatement_outcome h own place runs).others

end Outline

/-- A chart before any request. -/
def ChartTables.initial (rows : List Account) (nextId : ℕ) : ChartTables := ⟨rows, nextId, .free⟩

/-- From a well-formed chart, after every schedule whose restorations find the parent in its
place: every live account with a parent has a live parent one level above, and following
parents never cycles. -/
theorem chart_stays_levelled (requests : ℕ → ChartRequest) (rows : List Account) (nextId : ℕ)
    (wellFormed : WellFormed rows)
    (known : ∀ row ∈ rows, row.id < nextId ∧ ∀ p ∈ row.parentId, p < nextId)
    (schedule : List (ℕ × ChartTurn))
    (place : (chartStatement requests).Meets RestoresInPlace
      ⟨.initial rows nextId, fun _ => .start⟩ schedule) :
    let c := (chartStatement requests).after ⟨.initial rows nextId, fun _ => .start⟩ schedule
    (∀ row ∈ c.shared.rows, row.isDeleted = false → ∀ p ∈ row.parentId,
        LevelParent c.shared.rows row.level p) ∧
      Acyclic (ParentOf c.shared.rows) := by
  intro c
  have free : RowLocks.Consistent (RowLocks.free : RowLocks ℕ ℕ) := fun row i owner => by cases owner
  have begins : Holds ChartTables.Valid KnowsChart
      (⟨.initial rows nextId, fun _ => .start⟩ : Config ℕ ChartTables ChartProgress) :=
    ⟨⟨wellFormed, known, free⟩, fun _ => trivial⟩
  have holds := (chartOutline requests).after_meets begins place
  exact ⟨holds.shared.chart.levels, holds.shared.chart.acyclic⟩

theorem WellFormed.empty : WellFormed [] := by
  refine ⟨List.Pairwise.nil, fun row mem => (by cases mem), fun a cycle => ?_⟩
  cases cycle with
  | single link =>
      obtain ⟨row, mem, -⟩ := link
      cases mem
  | tail _ link =>
      obtain ⟨row, mem, -⟩ := link
      cases mem

/-- The request for an account of assets. -/
def newAsset (level : AccountLevel) (parentId : Option ℕ) : ChartRequest :=
  .create ⟨"", level, parentId, .asset, .debit⟩

/-- A group, a general and a subsidiary account; the last is deleted and then restored, and
the general account becomes a group or is deleted. -/
def chartRequests : ℕ → ChartRequest
  | 0 => newAsset .group none
  | 1 => newAsset .general (some 1)
  | 2 => newAsset .subsidiary (some 2)
  | 3 => .delete 3
  | 4 => .restore 3
  | 5 => .update 2 ⟨some .group, some none, none, none, none⟩
  | _ => .delete 2

/-- So many statements of a process in a row. -/
def statementsOf (i count : ℕ) : List (ℕ × ChartTurn) := List.replicate count (i, .proceed false 0)

def chartGrown : List (ℕ × ChartTurn) := statementsOf 0 2 ++ statementsOf 1 2 ++ statementsOf 2 2

theorem chart_stays_levelled_over_restoration :
    let schedule := chartGrown ++ statementsOf 3 3 ++ statementsOf 4 3 ++ statementsOf 5 4
    let c := (chartStatement chartRequests).after ⟨.initial [] 1, fun _ => .start⟩ schedule
    c.shared.rows.length = 3 ∧ (∀ row ∈ c.shared.rows, row.isDeleted = false →
        ∀ p ∈ row.parentId, LevelParent c.shared.rows row.level p) ∧
      Acyclic (ParentOf c.shared.rows) :=
  ⟨by decide +kernel, chart_stays_levelled chartRequests [] 1 .empty (fun row mem => by cases mem)
    (chartGrown ++ statementsOf 3 3 ++ statementsOf 4 3 ++ statementsOf 5 4) (by decide +kernel)⟩

/-- The account is restored after its parent became a group; and it is restored while its
parent, which was live when the restoration read it, is deleted. -/
theorem restoration_breaks_levels :
    (let c := (chartStatement chartRequests).after ⟨.initial [] 1, fun _ => .start⟩
      (chartGrown ++ statementsOf 3 3 ++ statementsOf 5 5 ++ statementsOf 4 3)
    ∃ row ∈ c.shared.rows, row.isDeleted = false ∧ row.parentId = some 2 ∧
      ∃ parent ∈ c.shared.rows, parent.id = 2 ∧ parent.isDeleted = false ∧ parent.level = .group ∧
        row.level = .subsidiary) ∧
    (let c := (chartStatement chartRequests).after ⟨.initial [] 1, fun _ => .start⟩
      (chartGrown ++ statementsOf 3 3 ++ statementsOf 4 2 ++ statementsOf 6 3 ++ statementsOf 4 1)
    ∃ row ∈ c.shared.rows, row.isDeleted = false ∧ row.parentId = some 2 ∧
      ∃ parent ∈ c.shared.rows, parent.id = 2 ∧ parent.isDeleted = true) := by
  decide +kernel

end PapitalErp
