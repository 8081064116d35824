import PapitalErp.Workflow.DefinitionVersions

/-!
# What the writes on one definition keep

The version rows are a ledger: numbers rise, and a row once recorded only changes its status. One
row is the published one, it can be run, and the definition names it. `Sound` adds what holds of
an active definition. Each write of `DefinitionVersions` is shown to keep `Sound`, to extend the
ledger and to leave an active definition active, unless it turns it off.
-/

namespace PapitalErp.WorkflowVersions

variable {reads : Reads} {id version lastState lastTransition startedCount : ℕ} {w w' : Workflow}
  {row : VersionRow} {title description : String} {status : VersionStatus} {payload : SavePayload}
  {states : List DesignStateInput} {transitions : List DesignTransitionInput} {archived : Bool}

/-- The recorded versions without their status. -/
def Workflow.records (w : Workflow) : List VersionRow := w.versions.map (·.setStatus .retired)

/-- The version numbers rise from one record to the next, up to the definition's own. -/
structure Recorded (w : Workflow) : Prop where
  ordered : w.versions.Pairwise fun r r' => r.version < r'.version
  latest : ∀ r ∈ w.versions, r.version ≤ w.version
  positive : ∀ r ∈ w.versions, 0 < r.version
  typed : ∀ r ∈ w.versions, r.dslJson.entityType ≠ ""

/-- The row is the published one, and new records can start with it. -/
structure IsPublished (w : Workflow) (row : VersionRow) : Prop where
  mem : row ∈ w.versions
  status : row.status = .published
  named : w.publishedVersion = some row.version
  usable : isUsableSnapshot row.dslJson

structure Ledger (w : Workflow) : Prop extends Recorded w where
  published : ∃ row, IsPublished w row
  onlyPublished : ∀ r ∈ w.versions, r.status = .published → w.publishedVersion = some r.version
  oneDraft : ∀ r ∈ w.versions, ∀ r' ∈ w.versions, r.status = .draft → r'.status = .draft → r.version = r'.version

/-! ## Rows by their number -/

theorem Recorded.eq_of_version (h : Recorded w) {r r' : VersionRow} (mem : r ∈ w.versions) (mem' : r' ∈ w.versions)
    (same : r.version = r'.version) : r = r' := by
  have apart : (w.versions.map (·.version)).Nodup := List.pairwise_map.mpr (h.ordered.imp fun less => less.ne)
  exact List.inj_on_of_nodup_map apart mem mem' same

theorem Recorded.versionRow (h : Recorded w) (mem : row ∈ w.versions) : versionRow w row.version = some row := by
  cases found : WorkflowVersions.versionRow w row.version with
  | none => simpa using List.find?_eq_none.mp found row mem
  | some other =>
      have same := List.find?_some found
      rw [h.eq_of_version (List.mem_of_find?_eq_some found) mem (by simpa using same)]

theorem IsPublished.version_eq (h : IsPublished w row) (recorded : Recorded w) :
    publishedVersionOf w.toDefinition = row.version := by
  have positive := recorded.positive row h.mem
  simp [publishedVersionOf, numberOr, h.named, positive.ne']

theorem IsPublished.stored (h : IsPublished w row) (recorded : Recorded w) :
    storedVersionSnapshot w (publishedVersionOf w.toDefinition) = some row.dslJson := by
  rw [h.version_eq recorded, storedVersionSnapshot, recorded.versionRow h.mem]
  simp [h.usable]

theorem IsPublished.design (h : IsPublished w row) (recorded : Recorded w) :
    publishedDesignOf id w = some row.dslJson := by
  rw [publishedDesignOf, h.stored recorded]

theorem Ledger.ensured (h : Ledger w) : ensurePublishedSnapshot id w title = w := by
  obtain ⟨row, published⟩ := h.published
  rw [ensurePublishedSnapshot, published.stored h.toRecorded]

/-! ## Changes of status -/

@[simp] theorem setStatus_setStatus {status' : VersionStatus} :
    (row.setStatus status).setStatus status' = row.setStatus status' := rfl

/-- `change` gives each row another status at most. -/
def OnlyStatus (change : VersionRow → VersionRow) : Prop := ∀ r, ∃ status, change r = r.setStatus status

theorem onlyStatus_retire {statuses : List VersionStatus} :
    OnlyStatus fun r => if r.status ∈ statuses then r.setStatus .retired else r := by
  intro r
  dsimp only
  split
  · exact ⟨_, rfl⟩
  · exact ⟨r.status, rfl⟩

theorem Recorded.changeStatus (h : Recorded w) {change : VersionRow → VersionRow} (only : OnlyStatus change)
    (versions : w'.versions = w.versions.map change) (latest : w'.version = w.version) : Recorded w' := by
  have same : ∀ r, (change r).version = r.version ∧ (change r).dslJson = r.dslJson := by
    intro r
    obtain ⟨status, made⟩ := only r
    rw [made]
    exact ⟨rfl, rfl⟩
  refine ⟨?_, ?_, ?_, ?_⟩
  · rw [versions, List.pairwise_map]
    exact h.ordered.imp fun {a b} less => by rwa [(same a).1, (same b).1]
  all_goals
    rw [versions]
    simp only [List.forall_mem_map]
    intro r mem
  · rw [(same r).1, latest]
    exact h.latest r mem
  · rw [(same r).1]
    exact h.positive r mem
  · rw [(same r).2]
    exact h.typed r mem

theorem records_map {change : VersionRow → VersionRow} (only : OnlyStatus change) (versions : List VersionRow) :
    (versions.map change).map (·.setStatus .retired) = versions.map (·.setStatus .retired) := by
  rw [List.map_map]
  refine List.map_congr_left fun r _ => ?_
  obtain ⟨status, made⟩ := only r
  rw [Function.comp_apply, made, setStatus_setStatus]

/-! ## A new version -/

theorem records_record : w.records <+: (recordDefinitionVersion id w title description status).records := by
  refine ⟨[VersionRow.setStatus
    ⟨nextVersion w, title, description, buildDefinitionSnapshot id w (nextVersion w), status⟩ .retired], ?_⟩
  rw [Workflow.records, Workflow.records, recordDefinitionVersion, List.map_append, retire, records_map onlyStatus_retire]
  rfl

theorem Recorded.record (h : Recorded w) (typed : w.entityType ≠ "") :
    Recorded (recordDefinitionVersion id w title description status) := by
  have retired : Recorded { w with versions := retire (superseded status) w.versions } :=
    h.changeStatus onlyStatus_retire rfl rfl
  refine ⟨?_, ?_, ?_, ?_⟩
  · refine List.pairwise_append.mpr ⟨retired.ordered, List.pairwise_singleton _ _, fun r mem r' mem' => ?_⟩
    obtain rfl := List.mem_singleton.mp mem'
    exact Nat.lt_succ_of_le ((retired.latest r mem).trans (le_max_left _ _))
  · intro r mem
    obtain mem | mem := List.mem_append.mp mem
    · exact ((retired.latest r mem).trans (le_max_left _ _)).trans (Nat.le_succ _)
    · obtain rfl := List.mem_singleton.mp mem
      exact le_rfl
  · intro r mem
    obtain mem | mem := List.mem_append.mp mem
    · exact retired.positive r mem
    · obtain rfl := List.mem_singleton.mp mem
      exact Nat.succ_pos _
  · intro r mem
    obtain mem | mem := List.mem_append.mp mem
    · exact retired.typed r mem
    · obtain rfl := List.mem_singleton.mp mem
      exact typed

theorem mem_of_mem_retire {statuses : List VersionStatus} {versions : List VersionRow}
    (mem : row ∈ retire statuses versions) (live : row.status ≠ .retired) :
    row ∈ versions ∧ row.status ∉ statuses := by
  obtain ⟨r, old, made⟩ := List.mem_map.mp mem
  split at made
  · rw [← made] at live
    exact absurd rfl live
  · next other =>
      subst made
      exact ⟨old, other⟩

theorem mem_retire {statuses : List VersionStatus} {versions : List VersionRow} (mem : row ∈ versions)
    (other : row.status ∉ statuses) : row ∈ retire statuses versions :=
  List.mem_map.mpr ⟨row, mem, if_neg other⟩

theorem Recorded.publish (h : Recorded w) (typed : w.entityType ≠ "")
    (usable : usableRows w.states w.transitions) :
    Ledger (recordDefinitionVersion id w title description .published) := by
  have gone : ∀ r ∈ retire (superseded .published) w.versions, r.status ≠ .draft ∧ r.status ≠ .published := by
    intro r mem
    by_cases dead : r.status = .retired
    · simp [dead]
    · have other := (mem_of_mem_retire mem dead).2
      simpa [superseded] using other
  refine { h.record typed with published := ?_, onlyPublished := ?_, oneDraft := ?_ }
  · exact ⟨_, List.mem_append_right _ List.mem_cons_self, rfl, rfl, usable⟩
  · intro r mem status
    obtain mem | mem := List.mem_append.mp mem
    · exact absurd status (gone r mem).2
    · obtain rfl := List.mem_singleton.mp mem
      rfl
  · intro r mem r' _ status _
    obtain mem | mem := List.mem_append.mp mem
    · exact absurd status (gone r mem).1
    · obtain rfl := List.mem_singleton.mp mem
      cases status

theorem IsPublished.keep (h : IsPublished w row) (mem : row ∈ w'.versions)
    (named : w'.publishedVersion = w.publishedVersion) : IsPublished w' row :=
  ⟨mem, h.status, named.trans h.named, h.usable⟩

theorem IsPublished.draft (h : IsPublished w row) :
    IsPublished (recordDefinitionVersion id w title description .draft) row := by
  refine h.keep (List.mem_append_left _ (mem_retire h.mem ?_)) rfl
  rw [h.status]
  decide

theorem Ledger.draft (h : Ledger w) (typed : w.entityType ≠ "") :
    Ledger (recordDefinitionVersion id w title description .draft) := by
  refine { h.toRecorded.record typed with published := ?_, onlyPublished := ?_, oneDraft := ?_ }
  · obtain ⟨row, published⟩ := h.published
    exact ⟨row, published.draft⟩
  · intro r mem status
    obtain mem | mem := List.mem_append.mp mem
    · exact h.onlyPublished r (mem_of_mem_retire mem (by simp [status])).1 status
    · obtain rfl := List.mem_singleton.mp mem
      cases status
  · have new : ∀ r ∈ (recordDefinitionVersion id w title description .draft).versions, r.status = .draft →
        r.version = nextVersion w := by
      intro r mem status
      obtain mem | mem := List.mem_append.mp mem
      · have other := (mem_of_mem_retire mem (by simp [status])).2
        simp [superseded, status] at other
      · obtain rfl := List.mem_singleton.mp mem
        rfl
    intro r mem r' mem' status status'
    rw [new r mem status, new r' mem' status']

theorem IsPublished.unique (h : IsPublished w row) (recorded : Recorded w) {row' : VersionRow}
    (h' : IsPublished w row') : row' = row :=
  recorded.eq_of_version h'.mem h.mem (Option.some.inj (h'.named.symm.trans h.named))

/-! ## A definition and its writes -/

/-- The ledger is in order, and an active definition runs a design for its own record type. -/
structure Sound (w : Workflow) : Prop extends Ledger w where
  named : w.entityType ≠ ""
  runs : w.isActive = true → ∀ row, IsPublished w row → row.dslJson.entityType = w.entityType
  inactive : w.isArchived = true → w.isActive = false

/-- A write that turns nothing on, and turns no required workflow off. -/
structure Keeps (w w' : Workflow) : Prop where
  sound : Sound w'
  records : w.records <+: w'.records
  active : w'.isActive = true → w.isActive = true ∧ w'.entityType = w.entityType
  required : w.isActive = true → w.entityType ∈ WORKFLOW_REQUIRED_ENTITY_TYPES → w'.isActive = true

/-- New records start with the same design as before. -/
def SameDesign (id : ℕ) (w w' : Workflow) : Prop :=
  publishedDesignOf id w' = publishedDesignOf id w ∧
    publishedVersionOf w'.toDefinition = publishedVersionOf w.toDefinition

theorem writeDesignTables_ok (written : writeDesignTables reads w lastState lastTransition states transitions = some w') :
    w'.toDefinition = w.toDefinition ∧ w'.versions = w.versions ∧
      (states ≠ [] → usableRows w'.states w'.transitions) := by
  obtain ⟨rows, made, rfl⟩ := Option.map_eq_some_iff.mp written
  exact ⟨rfl, rfl, fun design => usable_of_written design made⟩

theorem Recorded.congr (h : Recorded w) (versions : w'.versions = w.versions) (version : w'.version = w.version) :
    Recorded w' := by
  obtain ⟨ordered, latest, positive, typed⟩ := h
  rw [← versions] at ordered latest positive typed
  rw [← version] at latest
  exact ⟨ordered, latest, positive, typed⟩

theorem Ledger.congr (h : Ledger w) (versions : w'.versions = w.versions) (version : w'.version = w.version)
    (named : w'.publishedVersion = w.publishedVersion) : Ledger w' := by
  obtain ⟨recorded, ⟨row, published⟩, only, drafts⟩ := h
  refine ⟨recorded.congr versions version, ⟨row, published.keep (versions ▸ published.mem) named⟩, ?_, ?_⟩
  · rwa [versions, named]
  · rwa [versions]

/-- The version just published is the one of the definition's own record type. -/
theorem runs_record (recorded : Recorded w) (typed : w.entityType ≠ "") (usable : usableRows w.states w.transitions)
    (published : IsPublished (recordDefinitionVersion id w title description .published) row) :
    row.dslJson.entityType = w.entityType := by
  have own : IsPublished (recordDefinitionVersion id w title description .published)
      ⟨nextVersion w, title, description, buildDefinitionSnapshot id w (nextVersion w), .published⟩ :=
    ⟨List.mem_append_right _ List.mem_cons_self, rfl, rfl, usable⟩
  rw [own.unique (recorded.record typed) published]
  rfl

theorem createDefinition_sound {isActive : Bool} (typed : payload.entityType ≠ "") (design : payload.states ≠ [])
    (created : createDefinition reads id payload isActive lastState lastTransition = some w) :
    Sound w ∧ w.isActive = isActive ∧ w.entityType = payload.entityType := by
  obtain ⟨tables, written, rfl⟩ := Option.map_eq_some_iff.mp created
  obtain ⟨header, versions, usable⟩ := writeDesignTables_ok written
  have type : tables.entityType = payload.entityType := by rw [header]
  have recorded : Recorded tables := by
    refine ⟨?_, ?_, ?_, ?_⟩
    all_goals simp [versions]
  rw [← type] at typed ⊢
  refine ⟨{ recorded.publish typed (usable design) with named := typed, runs := ?_, inactive := ?_ }, ?_, rfl⟩
  · intro _ row published
    have same : row.dslJson.entityType = tables.entityType := runs_record recorded typed (usable design) published
    exact same
  · show tables.isArchived = true → _
    rw [header]
    nofun
  · show tables.isActive = isActive
    rw [header]

theorem saveDraft_keeps (sound : Sound w) (typed : payload.entityType ≠ "")
    (saved : saveDraft reads id w payload startedCount lastState lastTransition = some w') :
    Keeps w w' ∧ SameDesign id w w' := by
  simp only [saveDraft, sound.ensured] at saved
  split at saved
  · cases saved
  next allowed =>
    obtain ⟨tables, written, rfl⟩ := Option.map_eq_some_iff.mp saved
    obtain ⟨header, versions, -⟩ := writeDesignTables_ok written
    have type : tables.entityType = payload.entityType := by rw [header]
    have active : tables.isActive = w.isActive := by rw [header]
    have archived : tables.isArchived = w.isArchived := by rw [header]
    have named : tables.publishedVersion = w.publishedVersion := by rw [header]
    have typeKept : w.isActive = true → tables.entityType = w.entityType := by
      intro active
      by_contra other
      exact allowed ⟨type ▸ other, by simp [typeChangeRefused, active]⟩
    have ledger : Ledger tables := sound.toLedger.congr versions (by rw [header]) named
    have drafted : Ledger (recordDefinitionVersion id tables payload.title "پیش‌نویس طرح گردش کار" .draft) :=
      ledger.draft (type ▸ typed)
    obtain ⟨row, published⟩ := sound.published
    have stays : IsPublished (recordDefinitionVersion id tables payload.title "پیش‌نویس طرح گردش کار" .draft) row :=
      (published.keep (versions ▸ published.mem) named).draft
    refine ⟨⟨{ drafted with named := type ▸ typed, runs := ?_, inactive := ?_ }, ?_, ?_, ?_⟩, ?_, ?_⟩
    · intro on row' published'
      have on : w.isActive = true := active ▸ on
      rw [stays.unique drafted.toRecorded published', sound.runs on row published]
      exact (typeKept on).symm
    · intro old
      exact active.trans (sound.inactive (archived ▸ old))
    · rw [← show tables.records = w.records by rw [Workflow.records, versions, Workflow.records]]
      exact records_record
    · intro on
      have on : w.isActive = true := active ▸ on
      exact ⟨on, typeKept on⟩
    · exact fun on _ => active.trans on
    · rw [stays.design drafted.toRecorded, published.design sound.toRecorded]
    · rw [stays.version_eq drafted.toRecorded, published.version_eq sound.toRecorded]

theorem draftRow_some (found : draftRow w = some row) : row ∈ w.versions ∧ row.status = .draft := by
  have mem : row ∈ w.versions.filter (·.status = .draft) := List.argmax_mem found
  simpa using mem

theorem publishable_type (ledger : Recorded w) (mem : row ∈ w.versions) (right : publishable reads w row.dslJson) :
    row.dslJson.entityType = w.entityType := by
  by_contra other
  exact right.2.1 ⟨ledger.typed row mem, other⟩

theorem onlyStatus_publish {version : ℕ} :
    OnlyStatus fun r => if r.version = version then r.setStatus .published else r := by
  intro r
  dsimp only
  split
  · exact ⟨_, rfl⟩
  · exact ⟨r.status, rfl⟩

theorem publishRow_keeps (sound : Sound w) (mem : row ∈ w.versions) (isDraft : row.status = .draft)
    (right : publishable reads w row.dslJson) : Keeps w (publishRow w row) := by
  have retired : Recorded { w with versions := retire [.published] w.versions } :=
    sound.toRecorded.changeStatus onlyStatus_retire rfl rfl
  have recorded : Recorded (publishRow w row) :=
    retired.changeStatus (onlyStatus_publish : OnlyStatus fun r =>
      if r.version = row.version then r.setStatus .published else r) rfl rfl
  have own : IsPublished (publishRow w row) (row.setStatus .published) :=
    ⟨List.mem_map.mpr ⟨row, mem_retire mem (by simp [isDraft]), if_pos rfl⟩, rfl, rfl, right.1⟩
  -- another row is no draft, for there is one at most, and no longer published
  have gone : ∀ r ∈ retire [.published] w.versions, r.version ≠ row.version →
      r.status ≠ .draft ∧ r.status ≠ .published := by
    intro r old other
    by_cases dead : r.status = .retired
    · simp [dead]
    · obtain ⟨old, live⟩ := mem_of_mem_retire old dead
      exact ⟨fun status => other (sound.oneDraft r old row mem status isDraft), by simpa using live⟩
  refine ⟨{ recorded with
      published := ⟨_, own⟩
      onlyPublished := ?_
      oneDraft := ?_
      named := sound.named
      runs := ?_
      inactive := sound.inactive }, ?_, fun on => ⟨on, rfl⟩, fun on _ => on⟩
  · refine List.forall_mem_map.mpr fun r old status => ?_
    by_cases same : r.version = row.version
    · rw [if_pos same]
      exact congrArg some same.symm
    · rw [if_neg same] at status
      exact absurd status (gone r old same).2
  · refine List.forall_mem_map.mpr fun r old r' _ status _ => ?_
    by_cases same : r.version = row.version
    · rw [if_pos same] at status
      cases status
    · rw [if_neg same] at status
      exact absurd status (gone r old same).1
  · intro _ row' published
    rw [own.unique recorded published]
    have same : row.dslJson.entityType = w.entityType := publishable_type sound.toRecorded mem right
    exact same
  · have same : (publishRow w row).records = w.records :=
      (records_map onlyStatus_publish _).trans (records_map onlyStatus_retire _)
    rw [same]

theorem publishDraft_keeps (sound : Sound w) {draftVersion : ℕ}
    (published : publishDraft reads w draftVersion = some w') : Keeps w w' := by
  unfold publishDraft at published
  cases found : draftRow w with
  | none =>
      rw [found] at published
      cases published
  | some draft =>
      obtain ⟨mem, isDraft⟩ := draftRow_some found
      simp only [found] at published
      split at published
      · cases published
      next right =>
        obtain rfl := Option.some.inj published
        have publishableDraft : publishable reads w draft.dslJson := by
          by_contra other
          exact right (.inr other)
        exact publishRow_keeps sound mem isDraft publishableDraft

theorem revertToVersion_keeps (sound : Sound w)
    (reverted : revertToVersion reads id w version lastState lastTransition = some w') : Keeps w w' := by
  unfold revertToVersion at reverted
  cases found : versionRow w version with
  | none =>
      rw [found] at reverted
      cases reverted
  | some row =>
      simp only [found] at reverted
      split at reverted
      · cases reverted
      next right =>
        obtain ⟨tables, written, rfl⟩ := Option.map_eq_some_iff.mp reverted
        obtain ⟨header, versions, usable⟩ := writeDesignTables_ok written
        have design : row.dslJson.states.map (·.input) ≠ [] := by
          have runnable : publishable reads w row.dslJson := by
            by_contra other
            exact right (.inr other)
          exact states_ne_nil runnable.2.2.1
        have type : tables.entityType = w.entityType := by rw [header]
        have active : tables.isActive = w.isActive := by rw [header]
        have archived : tables.isArchived = w.isArchived := by rw [header]
        have recorded : Recorded tables := sound.toRecorded.congr versions (by rw [header])
        have typed : tables.entityType ≠ "" := type ▸ sound.named
        refine ⟨{ recorded.publish typed (usable design) with named := typed, runs := ?_, inactive := ?_ },
          ?_, ?_, fun on _ => active.trans on⟩
        · intro _ row' published
          have same : row'.dslJson.entityType = tables.entityType := runs_record recorded typed (usable design) published
          exact same
        · intro old
          exact active.trans (sound.inactive (archived ▸ old))
        · rw [← show tables.records = w.records by rw [Workflow.records, versions, Workflow.records]]
          exact records_record
        · exact fun on => ⟨active ▸ on, type⟩

theorem Ledger.writeState (h : Ledger w) {isActive : Bool} : Ledger (w.writeState isActive archived) :=
  h.congr rfl rfl rfl

theorem writeState_off (sound : Sound w) : Sound (w.writeState false archived) :=
  { sound.toLedger.writeState with named := sound.named, runs := nofun, inactive := fun _ => rfl }

theorem deactivate_keeps (sound : Sound w) (off : deactivate w = some w') : Keeps w w' := by
  unfold deactivate at off
  split at off
  · cases off
  next allowed =>
    obtain rfl := Option.some.inj off
    exact ⟨writeState_off sound, List.prefix_refl _, nofun, fun _ required => absurd (.inr required) allowed⟩

theorem setArchived_keeps (sound : Sound w) (set : setArchived w archived = some w') : Keeps w w' := by
  unfold setArchived at set
  split at set
  · cases set
  next allowed =>
    obtain rfl := Option.some.inj set
    refine ⟨writeState_off sound, List.prefix_refl _, nofun, fun on _ => absurd ?_ allowed⟩
    cases archived with
    | true => exact .inr ⟨rfl, on⟩
    | false =>
        left
        by_contra other
        have old : w.isArchived = true := by simpa using other
        simp [sound.inactive old] at on

/-- What has passed the check may be turned on. -/
theorem writeState_on (sound : Sound w) (right : activatable reads id w) : Sound (w.writeState true false) := by
  obtain ⟨row, published⟩ := sound.published
  obtain ⟨-, -, design, isDesign, typed, -⟩ := right
  rw [published.design sound.toRecorded] at isDesign
  obtain rfl := Option.some.inj isDesign
  refine { sound.toLedger.writeState with
    named := sound.named, runs := fun _ row' published' => ?_, inactive := nofun }
  have same : IsPublished w row' := published'.keep published'.mem rfl
  rw [published.unique sound.toRecorded same]
  by_contra other
  exact typed ⟨sound.typed row published.mem, other⟩

end PapitalErp.WorkflowVersions
