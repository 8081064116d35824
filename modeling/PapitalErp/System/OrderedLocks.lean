import Mathlib.Data.Prod.Lex
import Mathlib.Algebra.Order.Ring.Rat
import PapitalErp.Lib.LockWaits

/-!
# Row locks in one order

`withOrderedLocks` of `lib/lockOrder.ts`: a transaction names tables and ids, and
the helper locks the rows table by table, the tables by the level of the lock
hierarchy and the ids of each entry ascending. What JavaScript's `Number` makes of
an id is a parameter (`none` is `NaN`). Names that every JavaScript object
inherits ("constructor") are not table names and not looked up as such.

The entries are sorted by their level alone, with a stable sort, and ids only
inside one entry. So two entries of one level are locked in the caller's order:
two calls that name two rows of one table in opposite entries deadlock.
`ordered_locks_never_deadlock` gives the condition on the calls: one order of the
tables, kept by every call's entries of one level.
-/

namespace PapitalErp.OrderedLocks

/-- The lock hierarchy, from the locks taken first to those taken last. -/
inductive LockHierarchyLevel
  | bankAccounts
  | cheques
  | parties
  | itemsStock
  | production
  | documents
  | journalVouchers
  | treasuryTransactions
  | workflow
  | outbox

def LockHierarchyLevel.value : LockHierarchyLevel → ℤ
  | bankAccounts => 10
  | cheques => 20
  | parties => 30
  | itemsStock => 40
  | production => 50
  | documents => 60
  | journalVouchers => 70
  | treasuryTransactions => 80
  | workflow => 90
  | outbox => 100

def lockOrderMap : List (List Char × LockHierarchyLevel) :=
  [ ("bank_accounts".toList, .bankAccounts),
    ("cheques".toList, .cheques),
    ("customers".toList, .parties),
    ("items".toList, .itemsStock),
    ("production_projects".toList, .production),
    ("project_bom_allocations".toList, .production),
    ("documents".toList, .documents),
    ("journal_vouchers".toList, .journalVouchers),
    ("treasury_transactions".toList, .treasuryTransactions),
    ("workflow_instances".toList, .workflow),
    ("outbox_events".toList, .outbox) ]

/-- The level of a table that is not in the map. -/
def unknownLockLevel : ℤ := 999

/-- A table of the schema: its name in the database and whether it has an `id`. -/
structure Table where
  dbName : List Char
  hasId : Bool := true

/-- One entry of the list a caller passes. -/
structure LockResourceTarget (Id : Type) where
  table : Option Table
  tableName : Option (List Char) := none
  name : Option (List Char) := none
  id : Option Id := none
  ids : Option (List Id) := none
  level : Option ℤ := none

/-- A row: the name of its table and its id. -/
abbrev Row := List Char × ℚ

/-! ## The level of an entry -/

def withoutSeparators (name : List Char) : List Char :=
  name.filter fun c => c ≠ '-' ∧ c ≠ '_'

/-- The level the map gives a name: the name itself, else the first key that is the
name without separators, begins it or is begun by it. -/
def levelOfName (name : List Char) : Option ℤ :=
  match lockOrderMap.lookup name with
  | some level => some level.value
  | none =>
      let normalizedName := withoutSeparators name
      (lockOrderMap.find? fun entry =>
        let normalizedMapKey := withoutSeparators entry.1
        normalizedName = normalizedMapKey ∨ normalizedMapKey <+: normalizedName ∨
          normalizedName <+: normalizedMapKey).map fun entry => entry.2.value

variable {Id : Type}

def candidateNames (r : LockResourceTarget Id) : List (List Char) :=
  ([r.table.map (·.dbName), r.tableName, r.name].filterMap id).filter (· ≠ []) |>.map
    fun name => name.map Char.toLower

def resolveLockHierarchyLevel (r : LockResourceTarget Id) : ℤ :=
  match r.level with
  | some level => level
  | none => ((candidateNames r).findSome? levelOfName).getD unknownLockLevel

/-! ## The locks of one call -/

section Calls

variable (number : Id → Option ℚ)

/-- The ids without repetitions, ascending. -/
def sortIdsForLocking (ids : List Id) : List ℚ :=
  (ids.filterMap number).dedup.insertionSort (· ≤ ·)

def rawIds (r : LockResourceTarget Id) : List Id :=
  match r.ids with
  | some ids => ids
  | none => r.id.toList

inductive RowLock
  | forUpdate
  | forNoKeyUpdate

/-- The rows one entry locks, in the order of their ids. -/
def rowsOf (r : LockResourceTarget Id) : List Row :=
  match r.table with
  | none => []
  | some table =>
      if table.hasId then (sortIdsForLocking number (rawIds r)).map fun id => (table.dbName, id)
      else []

/-- The entries by level; entries of one level stay in the caller's order. -/
def sortedResources (resources : List (LockResourceTarget Id)) : List (LockResourceTarget Id) :=
  resources.insertionSort fun a b => resolveLockHierarchyLevel a ≤ resolveLockHierarchyLevel b

/-- The row locks a call takes, one after the other. -/
def lockRequests (resources : List (LockResourceTarget Id)) : List (Row × RowLock) :=
  (sortedResources resources).flatMap fun r => (rowsOf number r).map fun row =>
    (row, if resolveLockHierarchyLevel r = LockHierarchyLevel.itemsStock.value
      then .forNoKeyUpdate else .forUpdate)

/-- The call: an entry whose table has no level refuses it before any lock. -/
def withOrderedLocks (resources : List (LockResourceTarget Id)) :
    Except Unit (List (Row × RowLock)) := do
  Transition.ensure (∀ r ∈ resources, resolveLockHierarchyLevel r ≠ unknownLockLevel) ()
  pure (lockRequests number resources)

/-- The rows that the call locks, in order; every lock excludes every other, so the
rows alone decide who waits. -/
def lockedRows (resources : List (LockResourceTarget Id)) : List Row :=
  match withOrderedLocks number resources with
  | .ok requests => requests.map (·.1)
  | .error _ => []

end Calls


/-! ## When calls cannot deadlock -/

section Order

variable {ι : Type*} (number : Id → Option ℚ) (level : List Char → ℤ) (place : List Char → ℕ)

/-- A call keeps one order of the tables: a table is always locked at its level, and
of two entries of one level the earlier names earlier tables, or the same table with
ids up to those of the later. -/
def KeepsTableOrder (resources : List (LockResourceTarget Id)) : Prop :=
  (∀ r ∈ resources, ∀ row ∈ rowsOf number r, resolveLockHierarchyLevel r = level row.1) ∧
    resources.Pairwise fun r r' => resolveLockHierarchyLevel r = resolveLockHierarchyLevel r' →
      ∀ a ∈ rowsOf number r, ∀ b ∈ rowsOf number r',
        place a.1 < place b.1 ∨ a.1 = b.1 ∧ a.2 ≤ b.2

/-- Rows by the level of their table, the place of the table and the id. -/
def rank (row : Row) : ℤ ×ₗ ℕ ×ₗ ℚ := toLex (level row.1, toLex (place row.1, row.2))

variable {number level place}

theorem rank_lt_of_level {a b : Row} (h : level a.1 < level b.1) :
    rank level place a < rank level place b :=
  Prod.Lex.toLex_lt_toLex.2 (.inl h)

theorem rank_lt_of_place {a b : Row} (same : level a.1 = level b.1) (h : place a.1 < place b.1) :
    rank level place a < rank level place b :=
  Prod.Lex.toLex_lt_toLex.2 (.inr ⟨same, Prod.Lex.toLex_lt_toLex.2 (.inl h)⟩)

theorem eq_or_rank_lt {a b : Row} (same : a.1 = b.1) (h : a.2 ≤ b.2) :
    a = b ∨ rank level place a < rank level place b := by
  rcases h.eq_or_lt with equal | less
  · exact .inl (Prod.ext same equal)
  · refine .inr (Prod.Lex.toLex_lt_toLex.2 (.inr ⟨by rw [same], ?_⟩))
    exact Prod.Lex.toLex_lt_toLex.2 (.inr ⟨by rw [same], less⟩)

/-- A stable sort by a key keeps what holds, in list order, between entries of one key. -/
theorem pairwise_insertionSort_of_stable {α : Type*} (key : α → ℤ) {P : α → α → Prop} {l : List α}
    (h : l.Pairwise fun a b => key a = key b → P a b) :
    (l.insertionSort fun a b => key a ≤ key b).Pairwise fun a b =>
      key a < key b ∨ key a = key b ∧ P a b := by
  have insert : ∀ (a : α) (l : List α), (∀ b ∈ l, key a = key b → P a b) →
      (l.Pairwise fun a b => key a < key b ∨ key a = key b ∧ P a b) →
      (l.orderedInsert (fun a b => key a ≤ key b) a).Pairwise fun a b =>
        key a < key b ∨ key a = key b ∧ P a b := by
    intro a l
    induction l with
    | nil => simp
    | cons b l ih =>
        intro new sorted
        obtain ⟨first, rest⟩ := List.pairwise_cons.1 sorted
        by_cases le : key a ≤ key b
        · rw [List.orderedInsert_cons, if_pos le]
          refine List.pairwise_cons.2 ⟨fun c mem => ?_, sorted⟩
          have below : key b ≤ key c := by
            rcases List.mem_cons.1 mem with rfl | mem
            · exact le_rfl
            · rcases first c mem with less | ⟨same, _⟩
              · exact less.le
              · exact same.le
          rcases (le.trans below).lt_or_eq with less | same
          · exact .inl less
          · exact .inr ⟨same, new c mem same⟩
        · rw [List.orderedInsert_cons, if_neg le]
          refine List.pairwise_cons.2 ⟨fun c mem => ?_, ih (fun c mem => new c (.tail _ mem)) rest⟩
          rcases (List.mem_orderedInsert _).1 mem with rfl | mem
          · exact .inl (not_le.1 le)
          · exact first c mem
  induction l with
  | nil => simp
  | cons a l ih =>
      obtain ⟨new, rest⟩ := List.pairwise_cons.1 h
      rw [List.insertionSort_cons]
      exact insert a _ (fun b mem => new b ((List.mem_insertionSort _).1 mem)) (ih rest)

/-- Inside one entry the rows come in the order of their ids. -/
theorem pairwise_rowsOf (r : LockResourceTarget Id) :
    (rowsOf number r).Pairwise fun a b => a = b ∨ rank level place a < rank level place b := by
  cases table : r.table with
  | none => simp [rowsOf, table]
  | some t =>
      by_cases keyed : t.hasId
      · simp only [rowsOf, table, keyed, if_true]
        refine List.pairwise_map.2 ?_
        have ascending : (sortIdsForLocking number (rawIds r)).Pairwise (· ≤ ·) :=
          List.pairwise_insertionSort _ _
        refine ascending.imp fun {a b} le => ?_
        exact eq_or_rank_lt rfl le
      · simp [rowsOf, table, keyed]

/-- The rows of a call that keeps the order of the tables climb. -/
theorem climbs_lockedRows {resources : List (LockResourceTarget Id)}
    (h : KeepsTableOrder number level place resources) :
    LockWaits.Climbs (rank level place) (lockedRows number resources) := by
  apply LockWaits.climbs_of_pairwise
  cases call : withOrderedLocks number resources with
  | error e => simp [lockedRows, call]
  | ok requests =>
      obtain ⟨_, _, result⟩ := Transition.bind_eq_ok.1 call
      obtain rfl : lockRequests number resources = requests := Transition.pure_eq_ok.1 result
      have rows : (lockRequests number resources).map (·.1) =
          (sortedResources resources).flatMap (rowsOf number) := by
        simp [lockRequests, List.map_flatMap, Function.comp_def]
      simp only [lockedRows, call, rows, List.pairwise_flatMap]
      refine ⟨fun r _ => pairwise_rowsOf r, ?_⟩
      refine (pairwise_insertionSort_of_stable resolveLockHierarchyLevel h.2).imp_of_mem ?_
      intro r r' mem mem' apart a ha b hb
      have la := h.1 r ((List.mem_insertionSort _).1 mem) a ha
      have lb := h.1 r' ((List.mem_insertionSort _).1 mem') b hb
      rcases apart with less | ⟨same, inOrder⟩
      · exact .inr (rank_lt_of_level (by rwa [la, lb] at less))
      · rcases inOrder a ha b hb with before | ⟨table, le⟩
        · exact .inr (rank_lt_of_place (by rw [← la, ← lb, same]) before)
        · exact eq_or_rank_lt table le

end Order

/-- Where all calls keep one order of the tables, no reachable state of their lock
requests has a cycle of waits, for any number of transactions. -/
theorem ordered_locks_never_deadlock {ι : Type*} [DecidableEq ι] (number : Id → Option ℚ)
    (calls : ι → List (LockResourceTarget Id)) (level : List Char → ℤ) (place : List Char → ℕ)
    (common : ∀ i, KeepsTableOrder number level place (calls i)) (moves : List (LockWaits.Move ι)) :
    ¬ LockWaits.Deadlocked (fun i => lockedRows number (calls i))
      (Transition.run (LockWaits.step fun i => lockedRows number (calls i)) LockWaits.start moves) :=
  LockWaits.no_deadlock (fun i => climbs_lockedRows (common i)) moves


instance (number : Id → Option ℚ) (level : List Char → ℤ) (place : List Char → ℕ)
    (resources : List (LockResourceTarget Id)) :
    Decidable (KeepsTableOrder number level place resources) :=
  inferInstanceAs (Decidable (_ ∧ _))

/-- Two calls: the materials and the project of a consumption with its allocation,
and those of another, named the other way round. -/
def consumptions (first : Bool) : List (LockResourceTarget ℚ) :=
  if first then
    [ { table := some ⟨"items".toList, true⟩, ids := some [7, 3] },
      { table := some ⟨"production_projects".toList, true⟩, id := some 4 },
      { table := some ⟨"project_bom_allocations".toList, true⟩, id := some 9 } ]
  else
    [ { table := some ⟨"production_projects".toList, true⟩, id := some 4 },
      { table := some ⟨"items".toList, true⟩, ids := some [3, 7, 3] } ]

theorem ordered_locks_never_deadlock_consumptions :
    ¬ LockWaits.Deadlocked (fun i => lockedRows some (consumptions i))
      (Transition.run (LockWaits.step fun i => lockedRows some (consumptions i)) LockWaits.start
        [.take true, .wait false, .take true, .take true]) :=
  ordered_locks_never_deadlock some consumptions
    (fun table => if table = "items".toList then 40 else 50)
    (fun table => if table = "production_projects".toList then 0 else 1)
    (fun i => by cases i <;> decide +kernel) _

/-- Two calls with the same two items in two entries each, in opposite order. -/
def crossing (first : Bool) : List (LockResourceTarget ℚ) :=
  let item (id : ℚ) : LockResourceTarget ℚ :=
    { table := some ⟨"items".toList, true⟩, id := some id }
  if first then [item 1, item 2] else [item 2, item 1]

/-- Entries of one level are locked in the caller's order, so the two calls deadlock. -/
theorem entries_of_one_table_deadlock :
    ¬ ∀ (calls : Bool → List (LockResourceTarget ℚ)) (moves : List (LockWaits.Move Bool)),
      ¬ LockWaits.Deadlocked (fun i => lockedRows some (calls i))
        (Transition.run (LockWaits.step fun i => lockedRows some (calls i)) LockWaits.start moves) := by
  intro claim
  refine claim crossing [.take true, .take false, .wait true, .wait false] ⟨true, ?_⟩
  have there : LockWaits.WaitsFor (fun i => lockedRows some (crossing i))
      (Transition.run (LockWaits.step fun i => lockedRows some (crossing i)) LockWaits.start
        [.take true, .take false, .wait true, .wait false]) true false :=
    ⟨by decide +kernel, by decide, ("items".toList, 2), by decide +kernel, .inl (by decide +kernel)⟩
  have back : LockWaits.WaitsFor (fun i => lockedRows some (crossing i))
      (Transition.run (LockWaits.step fun i => lockedRows some (crossing i)) LockWaits.start
        [.take true, .take false, .wait true, .wait false]) false true :=
    ⟨by decide +kernel, by decide, ("items".toList, 1), by decide +kernel, .inl (by decide +kernel)⟩
  exact .tail (.single there) back


end PapitalErp.OrderedLocks
