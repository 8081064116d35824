import PapitalErp.Workflow.DefinitionTransactions
import PapitalErp.Workflow.VersionLedger

/-!
# Runs of the transactions on workflow definitions

`Wrote` says once what a statement can do to the tables; the invariant, what the transactions know
and the promises follow from it. Whatever the order of the statements, the ledger of every
definition stays in order, one definition of a record type is active at most and runs a design of
that type, and an instance keeps the snapshot that was the published one when its start read the
definition.

A required record type keeps an active definition unless an activation turns off, in the place of
another active definition of its own type, one that has become the active definition of the required
type since it was read: `lockDefinition` locks the record type that the definition had before it
waited, and the definitions to turn off are not read again under their row locks. The run at the end
does this.
-/

namespace PapitalErp.WorkflowVersions

open Interleaving Transition

/-! ## The invariant -/

/-- New records of the definition start with this version and this snapshot. -/
def Store.Runs (s : Store) (id version : ℕ) (snapshot : Snapshot) : Prop :=
  ∃ w, s.workflows id = some w ∧ publishedVersionOf w.toDefinition = version ∧
    publishedDesignOf id w = some snapshot

/-- The instance as it was started. -/
def Instance.atStart (inst : Instance) : Instance := { inst with status := .IN_PROGRESS }

def Store.starts (s : Store) : List Instance := s.instances.map Instance.atStart

/-- `K` is what new records have started with at some moment. -/
structure Store.Valid (K : ℕ → ℕ → Snapshot → Prop) (s : Store) : Prop where
  sound : ∀ n w, s.workflows n = some w → Sound w
  numbered : ∀ n w, s.workflows n = some w → n ∈ s.ids
  unique : ∀ n n' w w', s.workflows n = some w → s.workflows n' = some w' → w.isActive = true →
    w'.isActive = true → w.entityType = w'.entityType → n = n'
  started : ∀ inst ∈ s.starts, K inst.workflowDefinitionId inst.definitionVersion inst.snapshotDsl

/-- The payload of a save has passed its checks. -/
def Op.Checked : Op → Prop
  | .create p | .change _ (.save p) => p.entityType ≠ "" ∧ p.states ≠ []
  | _ => True

/-- The version that a start is to run is recorded, and was the published one. -/
def Chosen (K : ℕ → ℕ → Snapshot → Prop) (s : Store) (id : ℕ) (d : Definition) : Prop :=
  ∃ snapshot, K id (publishedVersionOf d) snapshot ∧ isUsableSnapshot snapshot ∧
    ∃ w, s.workflows id = some w ∧ ∃ r ∈ w.records, r.version = publishedVersionOf d ∧ r.dslJson = snapshot

/-- The definition to turn on is locked and has passed its checks, and so are the others, but for those left. -/
structure Replacing (s : Store) (i id : ℕ) (type : String) (others left : List ℕ) : Prop where
  own : s.rowLocks id = some i
  apart : id ∉ others
  held : ∀ o ∈ others, o ∈ left ∨ s.rowLocks o = some i
  right : ∃ w, s.workflows id = some w ∧ w.entityType = type ∧ Sound (w.writeState true false)

/-- What a transaction knows at a point. -/
def Knows (K : ℕ → ℕ → Snapshot → Prop) (ops : ℕ → Op) (i : ℕ) (s : Store) : Point → Prop
  | .begin op => op = ops i
  | .lockTypes op _ => op = ops i ∧ op.Checked
  | .creating p _ => .create p = ops i ∧ (Op.create p).Checked
  | .locked id c => .change id c = ops i ∧ (Op.change id c).Checked ∧ s.rowLocks id = some i
  | .replacing id type others left => (∃ replaceActive, .change id (.activate replaceActive) = ops i) ∧
      Replacing s i id type others left
  | .chosen p id d | .queued p id d | .reading p id d => .start p = ops i ∧ Chosen K s id d
  | .building _ _ _ _ => False
  | .starting p id _ target snapshot recorded => .start p = ops i ∧ recorded = true ∧ K id target snapshot
  | .ended => True

/-- What a statement writes. -/
inductive Wrote (K : ℕ → ℕ → Snapshot → Prop) (s s' : Store) : Point → Prop
  | nothing {point} : s'.workflows = s.workflows → s'.lastDefinition = s.lastDefinition →
      s'.starts = s.starts → Wrote K s s' point
  | created {p isActive w} : s'.workflows = Function.update s.workflows (s.lastDefinition + 1) (some w) →
      s'.lastDefinition = s.lastDefinition + 1 → s'.starts = s.starts → Sound w →
      (w.isActive = true → s.activeDefinitionsOfType w.entityType none = []) → Wrote K s s' (.creating p isActive)
  | changed {id c w w'} : s.workflows id = some w → s'.workflows = Function.update s.workflows id (some w') →
      s'.lastDefinition = s.lastDefinition → s'.starts = s.starts → Keeps w w' →
      (∀ p, c = .save p → SameDesign id w w') → Wrote K s s' (.locked id c)
  | switched {id type others} : s'.workflows = (s.switched id others).workflows →
      s'.lastDefinition = s.lastDefinition → s'.starts = s.starts → (s.switched id others).onlyActive id →
      Wrote K s s' (.replacing id type others [])
  | started {p id title target snapshot recorded inst} : s'.workflows = s.workflows →
      s'.lastDefinition = s.lastDefinition → s'.starts = s.starts ++ [inst] →
      K inst.workflowDefinitionId inst.definitionVersion inst.snapshotDsl →
      Wrote K s s' (.starting p id title target snapshot recorded)

/-- The row locks of the other transactions stay. -/
def LocksKept (i : ℕ) (s s' : Store) : Prop :=
  ∀ n j, j ≠ i → s.rowLocks n = some j → s'.rowLocks n = some j

variable {K : ℕ → ℕ → Snapshot → Prop} {ops : ℕ → Op} {s s' : Store} {i j id n target : ℕ} {w w' : Workflow}
  {type title : String} {exceptId : Option ℕ} {others left : List ℕ} {point next : Point} {reads : Reads}
  {payload : SavePayload} {c : Change} {p : StartParams} {d : Definition} {snapshot : Snapshot}
  {isActive recorded : Bool}

theorem mem_ids : n ∈ s.ids ↔ 1 ≤ n ∧ n ≤ s.lastDefinition := by
  rw [Store.ids, List.mem_range'_1]
  omega

theorem mem_activeDefinitionsOfType : n ∈ s.activeDefinitionsOfType type exceptId ↔
    n ∈ s.ids ∧ (∃ w, s.workflows n = some w ∧ w.entityType = type ∧ w.isActive = true) ∧ some n ≠ exceptId := by
  simp [Store.activeDefinitionsOfType, Store.isActiveOfType, Option.any_eq_true]

/-! ## What follows from the writes of a statement -/

theorem switched_workflows : (s.switched id others).workflows n =
    if n = id then (s.workflows n).map (·.writeState true false)
    else if n ∈ others then (s.workflows n).map (·.writeState false false)
    else s.workflows n := rfl

theorem update_some {rows : ℕ → Option Workflow} (found : Function.update rows id (some w) n = some w') :
    n = id ∧ w' = w ∨ n ≠ id ∧ rows n = some w' := by
  by_cases same : n = id
  · subst same
    rw [Function.update_self] at found
    exact .inl ⟨rfl, (Option.some.inj found).symm⟩
  · rw [Function.update_of_ne same] at found
    exact .inr ⟨same, found⟩

theorem Wrote.starts (wrote : Wrote K s s' point) : s.starts <+: s'.starts := by
  cases wrote with
  | nothing _ _ starts | created _ _ starts | changed _ _ _ starts | switched _ _ starts => rw [starts]
  | started _ _ starts =>
      rw [starts]
      exact List.prefix_append _ _

theorem Wrote.records (valid : s.Valid K) (wrote : Wrote K s s' point) (found : s.workflows n = some w) :
    ∃ w', s'.workflows n = some w' ∧ w.records <+: w'.records := by
  cases wrote with
  | nothing rows | started rows => exact ⟨w, rows ▸ found, List.prefix_refl _⟩
  | created rows =>
      have old := (mem_ids.mp (valid.numbered n w found)).2
      refine ⟨w, ?_, List.prefix_refl _⟩
      rw [rows, Function.update_of_ne (by omega)]
      exact found
  | @changed id c w₀ w' was rows _ _ keeps =>
      by_cases same : n = id
      · subst same
        obtain rfl := Option.some.inj (was.symm.trans found)
        exact ⟨w', by rw [rows, Function.update_self], keeps.records⟩
      · exact ⟨w, by rw [rows, Function.update_of_ne same, found], List.prefix_refl _⟩
  | switched rows =>
      rw [rows, switched_workflows, found]
      split_ifs
      · exact ⟨_, rfl, List.prefix_refl _⟩
      · exact ⟨_, rfl, List.prefix_refl _⟩
      · exact ⟨w, rfl, List.prefix_refl _⟩

/-- A definition that another transaction has locked is not written. -/
theorem Wrote.untouched (valid : s.Valid K) (knows : Knows K ops i s point) (wrote : Wrote K s s' point)
    (apart : j ≠ i) (lock : s.rowLocks n = some j) (found : s.workflows n = some w) : s'.workflows n = some w := by
  have free : ∀ m, s.rowLocks m = some i → n ≠ m := by
    rintro m held rfl
    exact apart (Option.some.inj (lock.symm.trans held))
  cases wrote with
  | nothing rows | started rows => rwa [rows]
  | created rows =>
      have old := (mem_ids.mp (valid.numbered n w found)).2
      rwa [rows, Function.update_of_ne (by omega)]
  | changed _ rows => rwa [rows, Function.update_of_ne (free _ knows.2.2)]
  | @switched id type others rows =>
      have replacing := knows.2
      have other : n ∉ others := by
        intro mem
        obtain left | held := replacing.held n mem
        · cases left
        · exact free n held rfl
      rwa [rows, switched_workflows, if_neg (free id replacing.own), if_neg other]

theorem switched_valid (valid : s.Valid K) (replacing : Replacing s i id type others [])
    (only : (s.switched id others).onlyActive id) : (s.switched id others).Valid K := by
  obtain ⟨w₀, found₀, -, sound₀⟩ := replacing.right
  have on : (s.switched id others).workflows id = some (w₀.writeState true false) := by
    rw [switched_workflows, if_pos rfl, found₀]
    rfl
  -- a definition that is active afterwards, but for the one turned on, was so before
  have before : ∀ {n w}, n ≠ id → (s.switched id others).workflows n = some w → w.isActive = true →
      s.workflows n = some w := by
    intro n w apart found active
    rw [switched_workflows, if_neg apart] at found
    split_ifs at found
    · obtain ⟨old, -, rfl⟩ := Option.map_eq_some_iff.mp found
      cases active
    · exact found
  have alone : ∀ {n w}, n ≠ id → (s.switched id others).workflows n = some w → w.isActive = true →
      w.entityType ≠ w₀.entityType := by
    intro n w apart found active same
    have mem : n ∈ (s.switched id others).activeDefinitionsOfType w₀.entityType (some id) :=
      mem_activeDefinitionsOfType.mpr ⟨valid.numbered n w (before apart found active), ⟨w, found, same, active⟩,
        fun same => apart (Option.some.inj same)⟩
    have none := only _ on
    change (s.switched id others).activeDefinitionsOfType w₀.entityType (some id) = [] at none
    rw [none] at mem
    cases mem
  refine ⟨?_, ?_, ?_, valid.started⟩
  · intro n w found
    rw [switched_workflows] at found
    split_ifs at found with same other
    · subst same
      rw [found₀] at found
      obtain rfl := Option.some.inj found
      exact sound₀
    · obtain ⟨old, was, rfl⟩ := Option.map_eq_some_iff.mp found
      exact writeState_off (valid.sound n old was)
    · exact valid.sound n w found
  · intro n w found
    cases was : s.workflows n with
    | none =>
        rw [switched_workflows, was] at found
        split_ifs at found <;> cases found
    | some old => exact valid.numbered n old was
  · intro n n' w w' found found' active active' type
    by_cases same : n = id
    · subst same
      obtain rfl := Option.some.inj (on.symm.trans found)
      by_contra apart
      exact alone (Ne.symm apart) found' active' type.symm
    · by_cases same' : n' = id
      · subst same'
        obtain rfl := Option.some.inj (on.symm.trans found')
        exact absurd type (alone same found active)
      · exact valid.unique n n' w w' (before same found active) (before same' found' active') active active' type

theorem Wrote.valid (valid : s.Valid K) (knows : Knows K ops i s point) (wrote : Wrote K s s' point) :
    s'.Valid K := by
  have transport : ∀ {t : Store}, t.Valid K → s'.workflows = t.workflows → s'.lastDefinition = t.lastDefinition →
      s'.starts = t.starts → s'.Valid K := by
    rintro t ⟨sound, numbered, unique, started⟩ rows last starts
    refine ⟨?_, ?_, ?_, ?_⟩
    · rwa [rows]
    · rwa [rows, Store.ids, last]
    · rwa [rows]
    · rwa [starts]
  cases wrote with
  | nothing rows last starts => exact transport valid rows last starts
  | @started p id title target snapshot recorded inst rows last starts own =>
      refine ⟨?_, ?_, ?_, ?_⟩
      · rw [rows]
        exact valid.sound
      · rw [rows, Store.ids, last]
        exact valid.numbered
      · rw [rows]
        exact valid.unique
      · rw [starts]
        intro inst' mem
        obtain old | new := List.mem_append.mp mem
        · exact valid.started inst' old
        · obtain rfl := List.mem_singleton.mp new
          exact own
  | @created p isActive w rows last starts sound alone =>
      have apart : ∀ n w', s.workflows n = some w' → w.isActive = true → w'.isActive = true →
          w'.entityType ≠ w.entityType := by
        intro n w' found active active' same
        have mem : n ∈ s.activeDefinitionsOfType w.entityType none :=
          mem_activeDefinitionsOfType.mpr ⟨valid.numbered n w' found, ⟨w', found, same, active'⟩, nofun⟩
        rw [alone active] at mem
        cases mem
      refine ⟨?_, ?_, ?_, ?_⟩
      · intro n w' found
        rw [rows] at found
        obtain ⟨-, rfl⟩ | ⟨-, found⟩ := update_some found
        · exact sound
        · exact valid.sound n w' found
      · intro n w' found
        rw [rows] at found
        rw [mem_ids, last]
        obtain ⟨rfl, -⟩ | ⟨-, found⟩ := update_some found
        · omega
        · have old := mem_ids.mp (valid.numbered n w' found)
          omega
      · intro n n' w₁ w₂ found found' active active' type
        rw [rows] at found found'
        obtain ⟨rfl, rfl⟩ | ⟨-, old⟩ := update_some found
        · obtain ⟨rfl, -⟩ | ⟨-, old'⟩ := update_some found'
          · rfl
          · exact absurd type.symm (apart n' w₂ old' active active')
        · obtain ⟨rfl, rfl⟩ | ⟨-, old'⟩ := update_some found'
          · exact absurd type (apart n w₁ old active' active)
          · exact valid.unique n n' w₁ w₂ old old' active active' type
      · rw [starts]
        exact valid.started
  | @changed id c w w' was rows last starts keeps =>
      have back : ∀ {n w₁}, s'.workflows n = some w₁ → w₁.isActive = true →
          ∃ w₀, s.workflows n = some w₀ ∧ w₀.isActive = true ∧ w₁.entityType = w₀.entityType := by
        intro n w₁ found active
        rw [rows] at found
        obtain ⟨rfl, rfl⟩ | ⟨-, found⟩ := update_some found
        · exact ⟨w, was, keeps.active active⟩
        · exact ⟨w₁, found, active, rfl⟩
      refine ⟨?_, ?_, ?_, ?_⟩
      · intro n w₁ found
        rw [rows] at found
        obtain ⟨-, rfl⟩ | ⟨-, found⟩ := update_some found
        · exact keeps.sound
        · exact valid.sound n w₁ found
      · intro n w₁ found
        rw [rows] at found
        rw [mem_ids, last, ← mem_ids]
        obtain ⟨rfl, -⟩ | ⟨-, found⟩ := update_some found
        · exact valid.numbered n w was
        · exact valid.numbered n w₁ found
      · intro n n' w₁ w₂ found found' active active' type
        obtain ⟨u, was, on, same⟩ := back found active
        obtain ⟨u', was', on', same'⟩ := back found' active'
        exact valid.unique n n' u u' was was' on on' (by rw [← same, ← same', type])
      · rw [starts]
        exact valid.started
  | switched rows last starts only =>
      exact transport (switched_valid valid knows.2 only) rows last starts

/-! ## What the promises need of one statement -/

/-- Some definition of the type is active. -/
def Store.HasActive (s : Store) (type : String) : Prop :=
  ∃ n w, s.workflows n = some w ∧ w.entityType = type ∧ w.isActive = true

/-- A definition that an activation turns off is not by now the active one of another, required, type. -/
def StillOfType (_ : ℕ) (_ : Reads) (s : Store) : Point → Prop
  | .replacing _ type others [] => ∀ o ∈ others, ∀ w ∈ s.workflows o, w.isActive = true →
      w.entityType ∈ WORKFLOW_REQUIRED_ENTITY_TYPES → w.entityType = type
  | _ => True

theorem Wrote.required (knows : Knows K ops i s point) (wrote : Wrote K s s' point)
    (still : StillOfType i reads s point) (required : type ∈ WORKFLOW_REQUIRED_ENTITY_TYPES)
    (h : s.HasActive type) (valid : s.Valid K) : s'.HasActive type := by
  obtain ⟨n, w, found, rfl, active⟩ := h
  cases wrote with
  | nothing rows | started rows => exact ⟨n, w, rows ▸ found, rfl, active⟩
  | created rows =>
      have old := (mem_ids.mp (valid.numbered n w found)).2
      exact ⟨n, w, by rw [rows, Function.update_of_ne (by omega), found], rfl, active⟩
  | @changed id c w₀ w' was rows _ _ keeps =>
      by_cases same : n = id
      · subst same
        obtain rfl := Option.some.inj (was.symm.trans found)
        have stays := keeps.required active required
        exact ⟨n, w', by rw [rows, Function.update_self], (keeps.active stays).2, stays⟩
      · exact ⟨n, w, by rw [rows, Function.update_of_ne same, found], rfl, active⟩
  | @switched id type others rows =>
      obtain ⟨w₀, found₀, rfl, -⟩ := knows.2.right
      have on : s'.workflows id = some (w₀.writeState true false) := by
        rw [rows, switched_workflows, if_pos rfl, found₀]
        rfl
      by_cases turned : n = id ∨ n ∈ others
      · refine ⟨id, _, on, ?_, rfl⟩
        obtain rfl | mem := turned
        · rw [Option.some.inj (found.symm.trans found₀)]
          rfl
        · exact (still n mem w found active required).symm
      · rw [not_or] at turned
        exact ⟨n, w, by rw [rows, switched_workflows, if_neg turned.1, if_neg turned.2, found], rfl, active⟩

/-- The transaction saves a draft of an existing definition. -/
def Op.savesDraft : Op → Prop
  | .change _ (.save _) => True
  | _ => False

theorem Wrote.sameDesign (knows : Knows K ops i s point) (wrote : Wrote K s s' point) (saves : (ops i).savesDraft)
    (found : s.workflows n = some w) : ∃ w', s'.workflows n = some w' ∧ SameDesign n w w' := by
  cases wrote with
  | nothing rows | started rows => exact ⟨w, rows ▸ found, rfl, rfl⟩
  | created =>
      rw [← knows.1] at saves
      cases saves
  | @changed id c w₀ w' was rows _ _ _ same =>
      by_cases own : n = id
      · subst own
        obtain rfl := Option.some.inj (was.symm.trans found)
        refine ⟨w', by rw [rows, Function.update_self], ?_⟩
        rw [← knows.1] at saves
        cases c with
        | save p => exact same p rfl
        | _ => cases saves
      · exact ⟨w, by rw [rows, Function.update_of_ne own, found], rfl, rfl⟩
  | switched =>
      obtain ⟨⟨replaceActive, own⟩, -⟩ := knows
      rw [← own] at saves
      cases saves

/-! ## What each statement does -/

/-- A statement's writes, the locks it leaves and what its transaction knows after it. -/
structure Outcome (K : ℕ → ℕ → Snapshot → Prop) (ops : ℕ → Op) (i : ℕ) (s : Store) (point : Point)
    (out : Store × Point) : Prop where
  wrote : Wrote K s out.1 point
  locks : LocksKept i s out.1
  knows : Knows K ops i out.1 out.2

theorem locksKept_release (i : ℕ) : LocksKept i s (s.release i) :=
  fun _ _ apart held => Locks.release_keeps apart held

theorem outcome_abandon : Outcome K ops i s point (s.abandon i) :=
  ⟨.nothing rfl rfl rfl, locksKept_release i, trivial⟩

/-- Only the point changes. -/
theorem outcome_go (knows : Knows K ops i s next) : Outcome K ops i s point (s, next) :=
  ⟨.nothing rfl rfl rfl, fun _ _ _ held => held, knows⟩

theorem checked_of_savable (right : savable reads payload) : payload.entityType ≠ "" ∧ payload.states ≠ [] := by
  refine ⟨?_, states_ne_nil right.2.2.2.1⟩
  intro empty
  refine right.2.2.1 ?_
  rw [empty]
  decide +kernel

theorem beginChange_outcome (own : .change id c = ops i) (checked : (Op.change id c).Checked) :
    Outcome K ops i s point (s.beginChange i id c) := by
  unfold Store.beginChange
  split
  · exact outcome_abandon
  · exact outcome_go ⟨own, checked⟩

theorem chooseDefinition_outcome (valid : s.Valid K)
    (cond : ∀ id version snapshot, s.Runs id version snapshot → K id version snapshot) (own : .start p = ops i) :
    Outcome K ops i s point (s.chooseDefinition i reads p) := by
  unfold Store.chooseDefinition
  dsimp only
  split
  · exact outcome_abandon
  next id _ =>
    split
    · exact outcome_abandon
    next w found =>
      split
      · exact outcome_abandon
      · have sound := valid.sound id w found
        obtain ⟨row, published⟩ := sound.published
        have known : K id (publishedVersionOf w.toDefinition) row.dslJson :=
          cond id _ _ ⟨w, found, rfl, published.design sound.toRecorded⟩
        have chosen : Chosen K s id w.toDefinition :=
          ⟨row.dslJson, known, published.usable, w, found, row.setStatus .retired, List.mem_map_of_mem published.mem,
            (published.version_eq sound.toRecorded).symm, rfl⟩
        exact outcome_go ⟨own, chosen⟩

theorem finish_starts {status : WorkflowQuorum.InstanceStatus} :
    (s.instances.modify n fun inst => { inst with status := status }).map Instance.atStart = s.starts := by
  refine List.ext_getElem? fun m => ?_
  simp only [Store.starts, List.getElem?_map, List.getElem?_modify]
  split <;> cases s.instances[m]? <;> rfl

theorem begin_outcome (valid : s.Valid K)
    (cond : ∀ id version snapshot, s.Runs id version snapshot → K id version snapshot) {op : Op} (own : op = ops i) :
    Outcome K ops i s (.begin op) (s.begin i reads op) := by
  cases op with
  | create p =>
      show Outcome K ops i s _ (if savable reads p then _ else _)
      split
      next right => exact outcome_go ⟨own, checked_of_savable right⟩
      · exact outcome_abandon
  | change id c =>
      cases c with
      | save p =>
          show Outcome K ops i s _ (if savable reads p then _ else _)
          split
          next right => exact beginChange_outcome own (checked_of_savable right)
          · exact outcome_abandon
      | _ => exact beginChange_outcome own trivial
  | start p => exact chooseDefinition_outcome valid cond own
  | finish n status =>
      show Outcome K ops i s _ (if status = .IN_PROGRESS then _ else _)
      split
      · exact outcome_abandon
      · exact ⟨.nothing rfl rfl finish_starts, fun _ _ _ held => held, trivial⟩

theorem insertDefinition_outcome (checked : (Op.create payload).Checked) :
    Outcome K ops i s (.creating payload isActive) (s.insertDefinition i reads payload isActive) := by
  unfold Store.insertDefinition
  split
  · exact outcome_abandon
  next free =>
    split
    · exact outcome_abandon
    next w created =>
      obtain ⟨sound, active, type⟩ := createDefinition_sound checked.1 checked.2 created
      refine ⟨.created rfl rfl rfl sound fun on => ?_, locksKept_release i, trivial⟩
      rw [type]
      by_contra other
      exact free (.inr ⟨active.symm.trans on, other⟩)

theorem writeChange_outcome (found : s.workflows id = some w)
    (keeps : ∀ w', s.changed reads id w c = some w' → Keeps w w' ∧ ∀ p, c = .save p → SameDesign id w w') :
    Outcome K ops i s (.locked id c) (s.writeChange i reads id w c) := by
  unfold Store.writeChange
  split
  · exact outcome_abandon
  next w' changed =>
    obtain ⟨keeps, same⟩ := keeps w' changed
    exact ⟨.changed found rfl rfl rfl keeps same, locksKept_release i, trivial⟩

theorem checkActivation_outcome (sound : Sound w) {replaceActive : Bool}
    (own : .change id (.activate replaceActive) = ops i) (lock : s.rowLocks id = some i)
    (found : s.workflows id = some w) : Outcome K ops i s point (s.checkActivation i reads id w replaceActive) := by
  unfold Store.checkActivation
  split
  next right =>
    have apart : id ∉ s.activeDefinitionsOfType w.entityType (some id) :=
      fun mem => (mem_activeDefinitionsOfType.mp mem).2.2 rfl
    exact outcome_go ⟨⟨replaceActive, own⟩, lock, apart, fun _ mem => .inl mem, w, found, rfl,
      writeState_on sound right.1⟩
  · exact outcome_abandon

theorem change_outcome (valid : s.Valid K) (own : .change id c = ops i) (checked : (Op.change id c).Checked)
    (lock : s.rowLocks id = some i) (found : s.workflows id = some w) :
    Outcome K ops i s (.locked id c) (s.change i reads id w c) := by
  have sound := valid.sound id w found
  cases c with
  | activate replaceActive => exact checkActivation_outcome sound own lock found
  | save p =>
      refine writeChange_outcome found fun w' changed => ?_
      obtain ⟨keeps, same⟩ := saveDraft_keeps sound checked.1 changed
      exact ⟨keeps, fun _ _ => same⟩
  | publish draftVersion =>
      exact writeChange_outcome found fun w' changed => ⟨publishDraft_keeps sound changed, nofun⟩
  | revert version =>
      exact writeChange_outcome found fun w' changed => ⟨revertToVersion_keeps sound changed, nofun⟩
  | deactivate => exact writeChange_outcome found fun w' changed => ⟨deactivate_keeps sound changed, nofun⟩
  | archive archived => exact writeChange_outcome found fun w' changed => ⟨setArchived_keeps sound changed, nofun⟩

theorem readVersion_outcome (valid : s.Valid K) (own : .start p = ops i) (chosen : Chosen K s id d) :
    Outcome K ops i s (.reading p id d) (s.readVersion i p id d) := by
  obtain ⟨snapshot, known, usable, w, found, r, mem, version, rfl⟩ := chosen
  obtain ⟨row, recorded, rfl⟩ := List.mem_map.mp mem
  have entry : versionRow w (publishedVersionOf d) = some row := by
    rw [← version]
    exact (valid.sound id w found).toRecorded.versionRow recorded
  have isUsable : isUsableSnapshot row.dslJson := usable
  unfold Store.readVersion
  simp only [found, Option.bind_some, entry, Option.map_some, Option.filter_some, isUsable, decide_true, if_true]
  exact outcome_go ⟨own, rfl, known⟩

theorem insertStarted_outcome (known : K id target snapshot) :
    Outcome K ops i s (.starting p id title target snapshot true) (s.insertStarted i p id title target snapshot true) := by
  unfold Store.insertStarted
  split
  · exact outcome_abandon
  next w found =>
    rw [if_pos rfl]
    unfold Store.insertInstance
    split
    · exact outcome_abandon
    next initial _ =>
      split
      · exact outcome_abandon
      · refine ⟨.started rfl rfl (List.map_append ..) known, locksKept_release i, trivial⟩

/-- A statement that takes a lock and leaves the tables. -/
theorem outcome_lock {t : Store} (rows : t.workflows = s.workflows) (last : t.lastDefinition = s.lastDefinition)
    (starts : t.starts = s.starts) (locks : LocksKept i s t) (knows : Knows K ops i t next) :
    Outcome K ops i s point (t, next) :=
  ⟨.nothing rows last starts, locks, knows⟩

theorem locksKept_take {locks : Locks ℕ ℕ} (taken : s.rowLocks.take i n = some locks) :
    LocksKept i s { s with rowLocks := locks } := by
  intro m j apart held
  obtain kept | ⟨-, same⟩ := Locks.take_keeps taken held
  · exact kept
  · exact absurd same apart

theorem Replacing.lock (h : Replacing s i id type others (n :: left)) {locks : Locks ℕ ℕ}
    (taken : s.rowLocks.take i n = some locks) : Replacing { s with rowLocks := locks } i id type others left := by
  refine ⟨Locks.take_keeps_own taken h.own, h.apart, fun o mem => ?_, h.right⟩
  obtain waiting | held := h.held o mem
  · obtain rfl | waiting := List.mem_cons.mp waiting
    · exact .inr (Locks.take_self taken)
    · exact .inl waiting
  · exact .inr (Locks.take_keeps_own taken held)

theorem statement_outcome (valid : s.Valid K)
    (cond : ∀ id version snapshot, s.Runs id version snapshot → K id version snapshot)
    (knows : Knows K ops i s point) {out : Store × Point} (runs : s.statement i reads point = some out) :
    Outcome K ops i s point out := by
  cases point with
  | begin op =>
      obtain rfl := Option.some.inj runs.symm
      exact begin_outcome valid cond knows
  | lockTypes op types =>
      cases types with
      | cons type types =>
          obtain ⟨locks, -, made⟩ := Option.map_eq_some_iff.mp runs
          rw [← made]
          exact outcome_lock rfl rfl rfl (fun _ _ _ held => held) knows
      | nil =>
          cases op with
          | create p =>
              obtain rfl := Option.some.inj runs.symm
              unfold Store.checkNew
              split
              · exact outcome_abandon
              · exact outcome_go knows
          | change id c =>
              obtain ⟨locks, taken, made⟩ := Option.map_eq_some_iff.mp runs
              rw [← made]
              exact outcome_lock rfl rfl rfl (locksKept_take taken) ⟨knows.1, knows.2, Locks.take_self taken⟩
          | _ => cases runs
  | creating p isActive =>
      obtain rfl := Option.some.inj runs.symm
      exact insertDefinition_outcome knows.2
  | locked id c =>
      simp only [Store.statement] at runs
      split at runs
      · obtain rfl := Option.some.inj runs.symm
        exact outcome_abandon
      next w found =>
        obtain rfl := Option.some.inj runs.symm
        exact change_outcome valid knows.1 knows.2.1 knows.2.2 found
  | replacing id type others left =>
      obtain ⟨own, replacing⟩ := knows
      cases left with
      | cons other left =>
          obtain ⟨locks, taken, made⟩ := Option.map_eq_some_iff.mp runs
          rw [← made]
          exact outcome_lock rfl rfl rfl (locksKept_take taken) ⟨own, replacing.lock taken⟩
      | nil =>
          obtain rfl := Option.some.inj runs.symm
          unfold Store.switch
          split
          next only => exact ⟨.switched rfl rfl rfl only, locksKept_release i, trivial⟩
          · exact outcome_abandon
  | chosen p id d =>
      obtain ⟨locks, -, made⟩ := Option.map_eq_some_iff.mp runs
      rw [← made]
      exact outcome_lock rfl rfl rfl (fun _ _ _ held => held) knows
  | queued p id d =>
      obtain rfl := Option.some.inj runs.symm
      unfold Store.checkOpen
      split
      · exact outcome_abandon
      · exact outcome_go knows
  | reading p id d =>
      obtain rfl := Option.some.inj runs.symm
      exact readVersion_outcome valid knows.1 knows.2
  | building p id d recorded => exact knows.elim
  | starting p id title target snapshot recorded =>
      obtain ⟨-, rfl, known⟩ := knows
      simp only [Store.statement] at runs
      split at runs
      · cases runs
      · obtain rfl := Option.some.inj runs.symm
        exact insertStarted_outcome known
  | ended => cases runs

/-- What new records start with is recorded in `K`. -/
def Watched (K : ℕ → ℕ → Snapshot → Prop) (_ : ℕ) (_ : Reads) (s : Store) (_ : Point) : Prop :=
  ∀ id version snapshot, s.Runs id version snapshot → K id version snapshot

theorem transactions_outcome (valid : s.Valid K) (cond : Watched K i reads s point) (knows : Knows K ops i s point)
    {out : Store × Point} (runs : transactions i reads s point = some out) : Outcome K ops i s point out := by
  unfold transactions at runs
  split at runs
  · obtain rfl := Option.some.inj runs.symm
    exact outcome_abandon
  · exact statement_outcome valid cond knows runs

/-- What another transaction does disturbs nothing that a transaction knows. -/
theorem knows_others (valid : s.Valid K) (knows : Knows K ops i s point) (outcome : Outcome K ops i s point (s', next))
    (apart : j ≠ i) {other : Point} (h : Knows K ops j s other) : Knows K ops j s' other := by
  obtain ⟨wrote, locks, -⟩ := outcome
  have chosenKept : ∀ {id d}, Chosen K s id d → Chosen K s' id d := by
    rintro id d ⟨snapshot, known, usable, w, found, r, mem, same⟩
    obtain ⟨w', found', grows⟩ := wrote.records valid found
    exact ⟨snapshot, known, usable, w', found', r, grows.subset mem, same⟩
  cases other with
  | locked id c => exact ⟨h.1, h.2.1, locks id j apart h.2.2⟩
  | replacing id type others left =>
      obtain ⟨own, replacing⟩ := h
      obtain ⟨w, found, right⟩ := replacing.right
      exact ⟨own, locks id j apart replacing.own, replacing.apart,
        fun o mem => (replacing.held o mem).imp_right (locks o j apart),
        w, wrote.untouched valid knows apart replacing.own found, right⟩
  | chosen | queued | reading => exact ⟨h.1, chosenKept h.2⟩
  | _ => exact h

theorem outline : Outline transactions (Watched K) (Store.Valid K) (Knows K ops) where
  own valid knows cond runs := by
    have outcome := transactions_outcome valid cond knows runs
    exact ⟨outcome.wrote.valid valid knows, outcome.knows⟩
  others apart valid knows other cond runs :=
    knows_others valid knows (transactions_outcome valid cond knows runs) apart other

theorem holds_fresh (ops : ℕ → Op) : Holds (Store.Valid K) (Knows K ops) (fresh ops) :=
  ⟨⟨nofun, nofun, nofun, nofun⟩, fun _ => rfl⟩

/-! ## The promises -/

/-- One draft and one published version at most, the published one is the definition's, and the
numbers rise. -/
structure InOrder (w : Workflow) : Prop where
  oneDraft : w.versions.countP (·.status = .draft) ≤ 1
  onePublished : w.versions.countP (·.status = .published) ≤ 1
  named : ∀ r ∈ w.versions, r.status = .published → w.publishedVersion = some r.version
  rising : (w.records.map (·.version)).Pairwise (· < ·)

/-- What holds of the tables after any run. -/
structure Store.Kept (s : Store) : Prop where
  versions : ∀ id w, s.workflows id = some w → InOrder w
  oneActive : ∀ id id' w w', s.workflows id = some w → s.workflows id' = some w' → w.isActive = true →
    w'.isActive = true → w.entityType = w'.entityType → id = id'
  ownType : ∀ id w, s.workflows id = some w → w.isActive = true →
    ∃ design, publishedDesignOf id w = some design ∧ design.entityType = w.entityType

/-- What was recorded and what was started stays, with its snapshot. -/
structure Store.Extends (s s' : Store) : Prop where
  records : ∀ id w, s.workflows id = some w → ∃ w', s'.workflows id = some w' ∧ w.records <+: w'.records
  starts : s.starts <+: s'.starts

theorem Store.Extends.refl (s : Store) : s.Extends s :=
  ⟨fun _ w found => ⟨w, found, List.prefix_refl _⟩, List.prefix_refl _⟩

theorem Store.Extends.trans {s'' : Store} (h : s.Extends s') (h' : s'.Extends s'') : s.Extends s'' := by
  refine ⟨fun id w found => ?_, h.starts.trans h'.starts⟩
  obtain ⟨w', found', grows⟩ := h.records id w found
  obtain ⟨w'', found'', grows'⟩ := h'.records id w' found'
  exact ⟨w'', found'', grows.trans grows'⟩

theorem countP_le_one {versions : List VersionRow} {q : VersionRow → Bool}
    (ordered : versions.Pairwise fun r r' => r.version < r'.version)
    (same : ∀ r ∈ versions, ∀ r' ∈ versions, q r = true → q r' = true → r.version = r'.version) :
    versions.countP q ≤ 1 := by
  induction versions with
  | nil => exact Nat.zero_le 1
  | cons r rest ih =>
      obtain ⟨above, ordered⟩ := List.pairwise_cons.mp ordered
      rw [List.countP_cons]
      by_cases this : q r = true
      · have none : rest.countP q = 0 := by
          refine List.countP_eq_zero.mpr fun r' mem other => ?_
          have less := above r' mem
          have equal := same r List.mem_cons_self r' (List.mem_cons_of_mem r mem) this other
          omega
        rw [none, if_pos this]
      · rw [if_neg this]
        exact ih ordered fun r mem r' mem' =>
          same r (List.mem_cons_of_mem _ mem) r' (List.mem_cons_of_mem _ mem')

theorem Ledger.inOrder (h : Ledger w) : InOrder w := by
  refine ⟨countP_le_one h.ordered fun r mem r' mem' draft draft' => ?_,
    countP_le_one h.ordered fun r mem r' mem' published published' => ?_, h.onlyPublished, ?_⟩
  · exact h.oneDraft r mem r' mem' (by simpa using draft) (by simpa using draft')
  · have named := h.onlyPublished r mem (by simpa using published)
    have named' := h.onlyPublished r' mem' (by simpa using published')
    exact Option.some.inj (named.symm.trans named')
  · rw [Workflow.records, List.map_map, List.pairwise_map]
    exact h.ordered

theorem Store.Valid.kept (valid : s.Valid K) : s.Kept := by
  refine ⟨fun id w found => (valid.sound id w found).toLedger.inOrder, valid.unique, fun id w found active => ?_⟩
  have sound := valid.sound id w found
  obtain ⟨row, published⟩ := sound.published
  exact ⟨row.dslJson, published.design sound.toRecorded, sound.runs active row published⟩

/-- In every run the tables are in order, what is recorded and started stays, a save of a draft
changes nothing for new records, and what is started was the published design at some moment. A
required type that has an active definition keeps one as long as no activation turns off a
definition that is by now the active one of another, required, type. -/
theorem workflow_versions (ops : ℕ → Op) (schedule later : List (ℕ × Reads)) :
    (transactions.after (fresh ops) schedule).shared.Kept ∧
    (transactions.after (fresh ops) schedule).shared.Extends
      (transactions.after (transactions.after (fresh ops) schedule) later).shared ∧
    (∀ turn : ℕ × Reads, (ops turn.1).savesDraft → ∀ id w,
      (transactions.after (fresh ops) schedule).shared.workflows id = some w →
      ∃ w', (transactions.after (transactions.after (fresh ops) schedule) [turn]).shared.workflows id = some w' ∧
        SameDesign id w w') ∧
    (∀ inst ∈ (transactions.after (fresh ops) schedule).shared.starts, ∃ n,
      (transactions.after (fresh ops) (schedule.take n)).shared.Runs
        inst.workflowDefinitionId inst.definitionVersion inst.snapshotDsl) ∧
    (transactions.Meets StillOfType (transactions.after (fresh ops) schedule) later →
      ∀ type ∈ WORKFLOW_REQUIRED_ENTITY_TYPES,
        (transactions.after (fresh ops) schedule).shared.HasActive type →
        (transactions.after (transactions.after (fresh ops) schedule) later).shared.HasActive type) := by
  have watched : transactions.Meets (Watched fun id version snapshot =>
      ∃ n, (transactions.after (fresh ops) (schedule.take n)).shared.Runs id version snapshot) (fresh ops) schedule :=
    along_of_take fun n _ _ _ _ runs => ⟨n, runs⟩
  have holds := outline.after_meets (holds_fresh ops) watched
  -- what comes later need not be watched
  have unwatched : ∀ c schedule, transactions.Meets (Watched fun _ _ _ => True) c schedule :=
    fun c schedule => along_of_forall (fun _ _ _ _ _ _ _ => trivial) c
  have open_ := outline.after_meets (holds_fresh ops) (unwatched (fresh ops) schedule)
  refine ⟨holds.shared.kept, ?_, ?_, holds.shared.started, ?_⟩
  · refine outline.after_rel Store.Extends.refl Store.Extends.trans ?_ open_ (unwatched _ later)
    intro i reads s point s' next valid knows cond runs
    have wrote := (transactions_outcome valid cond knows runs).wrote
    exact ⟨fun id w found => wrote.records valid found, wrote.starts⟩
  · intro turn saves id w found
    show ∃ w', (exec transactions.step _ turn).shared.workflows id = some w' ∧ _
    refine exec_invariant (I := fun d : Config ℕ Store Point => ∃ w', d.shared.workflows id = some w' ∧
      SameDesign id w w') ⟨w, found, rfl, rfl⟩ fun c' ok => ?_
    obtain ⟨s, l, runs, rfl⟩ := Program.step_ok.mp ok
    have knows := open_.locals turn.1
    have wrote := (transactions_outcome open_.shared (fun _ _ _ _ => trivial) knows runs).wrote
    exact wrote.sameDesign knows saves found
  · intro still type required active
    have lax : Outline transactions StillOfType (Store.Valid fun _ _ _ => True) (Knows (fun _ _ _ => True) ops) :=
      ⟨fun valid knows _ runs => outline.own valid knows (fun _ _ _ _ => trivial) runs,
        fun apart valid knows other _ runs => outline.others apart valid knows other (fun _ _ _ _ => trivial) runs⟩
    refine lax.after_rel (R := fun s s' : Store => ∀ type ∈ WORKFLOW_REQUIRED_ENTITY_TYPES,
      s.HasActive type → s'.HasActive type) (fun _ _ _ => id) (fun h h' type mem => h' type mem ∘ h type mem) ?_
      open_ still type required active
    intro i reads s point s' next valid knows still runs type required active
    have wrote := (transactions_outcome valid (fun _ _ _ _ => trivial) knows runs).wrote
    exact wrote.required knows still required active valid

/-! ## A required record type without an active workflow -/

/-- Every role and permission is known and nothing fails. -/
def lenient : Reads := ⟨some, fun _ => true, fun _ => true, true, false⟩

def plainPayload (code entityType : String) (startInactive : Bool) : SavePayload where
  code := code
  title := code
  entityType := entityType
  startInactive := startInactive
  states := [
    { stateKey := some "start", title := "start", stateType := some .initial },
    { stateKey := some "end", title := "end", stateType := some .terminal }]
  transitions := [{ fromStateKey := some "start", toStateKey := some "end", actionKey := "finish" }]

/-- Three definitions are made; the third is to be turned on in the place of its type's active one,
while it and the second one take other types and the second one is turned on. -/
def overtakingOps : ℕ → Op
  | 0 => .create (plainPayload "purchase" "purchase_requisition" false)
  | 1 => .create (plainPayload "goods" "item" false)
  | 2 => .create (plainPayload "bank" "bank_account" true)
  | 3 => .change 3 (.activate true)
  | 4 => .change 3 (.save (plainPayload "bank" "item" false))
  | 5 => .change 3 (.publish 2)
  | 6 => .change 2 .deactivate
  | 7 => .change 2 (.save (plainPayload "goods" "purchase_requisition" false))
  | 8 => .change 2 (.publish 2)
  | _ => .change 2 (.activate true)

/-- `n` statements of one transaction. -/
def turns (i n : ℕ) : List (ℕ × Reads) := List.replicate n (i, lenient)

def creations : List (ℕ × Reads) := turns 0 4 ++ turns 1 4 ++ turns 2 4

def overtaking : List (ℕ × Reads) :=
  turns 3 1 ++ turns 4 5 ++ turns 5 4 ++ turns 3 3 ++ turns 6 4 ++ turns 7 5 ++ turns 8 4 ++ turns 9 7 ++ turns 3 2

theorem hasActive_iff (valid : s.Valid K) : s.HasActive type ↔ s.activeDefinitionsOfType type none ≠ [] := by
  constructor
  · rintro ⟨n, w, found, same, active⟩ empty
    have mem : n ∈ s.activeDefinitionsOfType type none :=
      mem_activeDefinitionsOfType.mpr ⟨valid.numbered n w found, ⟨w, found, same, active⟩, nofun⟩
    rw [empty] at mem
    cases mem
  · intro filled
    obtain ⟨n, mem⟩ := List.exists_mem_of_ne_nil _ filled
    obtain ⟨-, ⟨w, found, same, active⟩, -⟩ := mem_activeDefinitionsOfType.mp mem
    exact ⟨n, w, found, same, active⟩

/-- Purchase requisitions have an active workflow and then none. -/
theorem purchase_workflow_lost :
    (transactions.after (fresh overtakingOps) creations).shared.HasActive "purchase_requisition" ∧
      ¬(transactions.after (transactions.after (fresh overtakingOps) creations) overtaking).shared.HasActive
        "purchase_requisition" := by
  have holds : ∀ schedule, (transactions.after (fresh overtakingOps) schedule).shared.Valid fun _ _ _ => True :=
    fun schedule => (outline.after_meets (holds_fresh overtakingOps)
      (along_of_forall (fun _ _ _ _ _ _ _ => trivial) _)).shared
  rw [← Program.after_append, hasActive_iff (holds _), hasActive_iff (holds _)]
  decide +kernel

end PapitalErp.WorkflowVersions
