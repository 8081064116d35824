import PapitalErp.Storefront.BuyerGroups

/-!
# No buyer in a deleted group, no group at the retail price

Each of the two rules has two sides, and only one of them is checked under a lock.
A deletion looks for accounts with the row of the group in hand, while a review of
an account reads the group without a lock and writes later. A group is checked
against the retail list before its transaction, and the retail list is saved by a
service that does not read the groups.

A run keeps both rules exactly when no transaction commits after the other side has
changed what it was checked against.
-/

namespace PapitalErp.BuyerGroups

open Transition

variable {text : GroupText} {t t' : Tables}

/-- No account belongs to a deleted group, and an active group has a price list that
is not the site's retail list. -/
structure Safe (t : Tables) : Prop where
  joined : ∀ account ∈ t.accounts, ∀ group ∈ t.groups,
    account.groupId = some group.id → group.isDeleted = false
  priced : ∀ group ∈ t.groups, group.isActive = true →
    group.priceList ≠ "" ∧ group.priceList ≠ t.settings.retailPriceList

/-- The group, once written, is not at the retail price of now. -/
def apartFromRetail (t : Tables) (values : BuyerGroupInput) : Bool :=
  !values.isActive || decide (values.priceList ≠ t.settings.retailPriceList)

/-- What a commit was checked against is still so: the retail list has not become
the list of the group a save is about to write, the group a review has read is not
deleted, and no active group has the list that becomes the retail list. -/
def undisturbed (t : Tables) : Op → Bool
  | .create p =>
      match t.phase p with
      | .creating values => apartFromRetail t values
      | _ => true
  | .update p =>
      match t.phase p with
      | .updateLocked _ values => apartFromRetail t values
      | _ => true
  | .joinGroup p =>
      match t.phase p with
      | .groupRead _ groupId _ => t.groups.all fun group => group.id ≠ groupId || !group.isDeleted
      | _ => true
  | .saveSettings p _ =>
      match t.phase p with
      | .settingsChecked values =>
          t.groups.all fun group => !group.isActive || group.priceList ≠ values.retailPriceList
      | _ => true
  | _ => true

/-- What a request relies on, by how far it is. -/
def Knows (t : Tables) (p : ℕ) : Phase → Prop
  | .creating values => values.isActive = true → values.priceList ≠ ""
  | .updating _ _ values => values.isActive = true → values.priceList ≠ ""
  | .updateLocked _ values => values.isActive = true → values.priceList ≠ ""
  | .deleteLocked id => t.groupLocks id = some p
  | .unused id =>
      t.groupLocks id = some p ∧ ∀ account ∈ t.accounts, account.groupId ≠ some id
  | _ => True

structure Valid (t : Tables) : Prop where
  safe : Safe t
  knows : ∀ p, Knows t p (t.phase p)

/-! ## The functions -/

/-- A checked group that is active has a list, and not the retail one. -/
theorem checkedBuyerGroup_active {input values : BuyerGroupInput} {priceLists : List String}
    {retail : String} (ok : checkedBuyerGroup text input priceLists retail = .ok values)
    (active : values.isActive = true) :
    values.priceList ≠ "" ∧ values.priceList ≠ retail := by
  simp only [checkedBuyerGroup, bind_eq_ok, ensure_eq_ok, pure_eq_ok] at ok
  obtain ⟨_, _, _, _, _, _, _, _, _, _, _, apart, _, listed, _, _, _, _, _, _, _, _, _, _, _, _, _, _,
    _, _, rfl⟩ := ok
  have nonempty := listed active
  exact ⟨nonempty, apart.resolve_left nonempty⟩

theorem liveGroup_ok {id : ℕ} {refusal : Refusal} {group : BuyerGroup}
    (ok : liveGroup t id refusal = .ok group) :
    group ∈ t.groups ∧ group.id = id ∧ group.isDeleted = false := by
  rw [liveGroup] at ok
  cases found : t.groups.find? fun group => group.id = id ∧ live group with
  | none =>
      rw [found] at ok
      exact absurd ok nofun
  | some row =>
      rw [found] at ok
      obtain rfl := Except.ok.inj ok
      have meets := List.find?_some found
      simp only [live, Bool.not_eq_true', decide_eq_true_eq] at meets
      exact ⟨List.mem_of_find?_eq_some found, meets⟩

theorem accountById_ok {id : ℕ} {account : BuyerAccount} (ok : accountById t id = .ok account) :
    account ∈ t.accounts ∧ account.id = id := by
  rw [accountById] at ok
  cases found : t.accounts.find? fun account => account.id = id with
  | none =>
      rw [found] at ok
      exact absurd ok nofun
  | some row =>
      rw [found] at ok
      obtain rfl := Except.ok.inj ok
      exact ⟨List.mem_of_find?_eq_some found, by simpa using List.find?_some found⟩

theorem finish_lock {p q : ℕ} (other : q ≠ p) {id : ℕ} (lock : t.groupLocks id = some q) :
    (finish t p).groupLocks id = some q := by
  have kept : t.groupLocks id ≠ some p := by
    rw [lock]
    simpa using other
  exact (if_neg kept).trans lock

/-! ## What the requests rely on -/

/-- A request keeps what it relies on while its locks stay and no account comes into a
group it has locked. -/
theorem Knows.mono {q : ℕ} {phase : Phase} (h : Knows t q phase)
    (locks : ∀ id, t.groupLocks id = some q → t'.groupLocks id = some q)
    (accounts : ∀ id, t.groupLocks id = some q → (∀ a ∈ t.accounts, a.groupId ≠ some id) →
      ∀ a ∈ t'.accounts, a.groupId ≠ some id) : Knows t' q phase := by
  cases phase with
  | deleteLocked id => exact locks id h
  | unused id => exact ⟨locks id h.1, accounts id h.1 h.2⟩
  | _ => exact h

/-- A statement of one request leaves the others what they rely on. -/
theorem Valid.knows_update (h : Valid t) (p : ℕ) (phase : Phase) (own : Knows t' p phase)
    (phases : t'.phase = Function.update t.phase p phase)
    (locks : ∀ q ≠ p, ∀ id, t.groupLocks id = some q → t'.groupLocks id = some q)
    (accounts : ∀ q ≠ p, ∀ id, t.groupLocks id = some q → (∀ a ∈ t.accounts, a.groupId ≠ some id) →
      ∀ a ∈ t'.accounts, a.groupId ≠ some id) : ∀ q, Knows t' q (t'.phase q) := by
  intro q
  rw [phases]
  by_cases same : q = p
  · subst same
    rwa [Function.update_self]
  · rw [Function.update_of_ne same]
    exact (h.knows q).mono (locks q same) (accounts q same)

/-- A statement that only moves its request on. -/
theorem Valid.knows_enter (h : Valid t) (p : ℕ) (phase : Phase) (own : Knows (enter t p phase) p phase) :
    ∀ q, Knows (enter t p phase) q ((enter t p phase).phase q) :=
  h.knows_update p phase own rfl (fun _ _ _ lock => lock) fun _ _ _ _ unused => unused

/-- The row lock of a group that no request has. -/
theorem Valid.knows_lock (h : Valid t) (p : ℕ) {id : ℕ} (phase : Phase)
    (free : t.groupLocks id = none)
    (own : Knows { enter t p phase with
      groupLocks := Function.update t.groupLocks id (some p) } p phase) :
    ∀ q, Knows { enter t p phase with groupLocks := Function.update t.groupLocks id (some p) } q
      ((enter t p phase).phase q) := by
  refine h.knows_update p phase own rfl (fun q _ id' lock => ?_) fun _ _ _ _ unused => unused
  have other : id' ≠ id := by
    rintro rfl
    simp [free] at lock
  exact (Function.update_of_ne other _ _).trans lock

/-- A commit that writes no account. -/
theorem Valid.knows_finish (h : Valid t) (p : ℕ) {s : Tables} (accounts : s.accounts = t.accounts)
    (locks : s.groupLocks = t.groupLocks) (phases : s.phase = t.phase) :
    ∀ q, Knows (finish s p) q ((finish s p).phase q) := by
  refine h.knows_update p .idle trivial ?_ (fun q other id lock => ?_) fun q _ id _ unused => ?_
  · rw [← phases]
    rfl
  · exact finish_lock other (by rwa [locks])
  · show ∀ a ∈ s.accounts, a.groupId ≠ some id
    rwa [accounts]

/-- The commit of a review: a deletion that has looked for accounts has the row of
the group, so the account is not new in it. -/
theorem Valid.knows_join (h : Valid t) (p : ℕ) {accountId groupId : ℕ} {account : BuyerAccount}
    (found : accountById t accountId = .ok account)
    (free : account.groupId = some groupId ∨ t.groupLocks groupId = none)
    {change : BuyerAccount → BuyerAccount} (moves : ∀ row, (change row).groupId = some groupId) :
    ∀ q, Knows (finish { t with accounts := withAccount t accountId change } p) q
      ((finish { t with accounts := withAccount t accountId change } p).phase q) := by
  refine h.knows_update p .idle trivial rfl (fun q other id lock => finish_lock other lock)
    fun q _ id lock unused => ?_
  intro row mem
  obtain ⟨before, listed, rfl⟩ := List.mem_map.mp mem
  by_cases own : before.id = accountId
  · rw [if_pos own, moves]
    intro same
    obtain rfl := Option.some.inj same
    rcases free with already | unlocked
    · exact unused account (accountById_ok found).1 already
    · simp [unlocked] at lock
  · rw [if_neg own]
    exact unused before listed

/-! ## The two rules -/

/-- Locks and phases do not count. -/
theorem Safe.of_eq {s : Tables} (h : Safe t) (groups : s.groups = t.groups)
    (accounts : s.accounts = t.accounts) (settings : s.settings = t.settings) : Safe s := by
  obtain ⟨joined, priced⟩ := h
  rw [← groups, ← accounts] at joined
  rw [← groups, ← settings] at priced
  exact ⟨joined, priced⟩

theorem safe_finish {p : ℕ} : Safe (finish t p) ↔ Safe t :=
  ⟨fun h => h.of_eq rfl rfl rfl, fun h => h.of_eq rfl rfl rfl⟩

/-- The rule for the prices of a group that is about to be written. -/
theorem apartFromRetail_eq {values : BuyerGroupInput}
    (listed : values.isActive = true → values.priceList ≠ "") :
    apartFromRetail t values = true ↔ (values.isActive = true →
      values.priceList ≠ "" ∧ values.priceList ≠ t.settings.retailPriceList) := by
  rw [apartFromRetail, Bool.or_eq_true, Bool.not_eq_true', decide_eq_true_eq]
  constructor
  · exact fun either active => ⟨listed active, either.resolve_left (by simp [active])⟩
  · intro rule
    cases active : values.isActive with
    | false => exact .inl rfl
    | true => exact .inr (rule active).2

/-- A new group has no account, so only its price list counts. -/
theorem safe_create (h : Safe t) {group : BuyerGroup} (new : group.isDeleted = false)
    (listed : group.isActive = true → group.priceList ≠ "") (nextGroup : ℕ) :
    Safe { t with
      groups := t.groups ++ [group]
      nextGroup := nextGroup } ↔ apartFromRetail t group.values = true := by
  rw [apartFromRetail_eq listed]
  constructor
  · intro safe
    exact safe.priced group (List.mem_append_right _ List.mem_cons_self)
  · intro rule
    refine ⟨fun account mem row listed own => ?_, fun row listed => ?_⟩
    · rcases List.mem_append.mp listed with old | added
      · exact h.joined account mem row old own
      · rwa [List.mem_singleton.mp added]
    · exact List.forall_mem_append.mpr ⟨h.priced, List.forall_mem_singleton.mpr rule⟩ row listed

theorem safe_update (h : Safe t) {id version : ℕ} {values : BuyerGroupInput} {group : BuyerGroup}
    (found : liveGroup t id .groupNotFound = .ok group)
    (listed : values.isActive = true → values.priceList ≠ "") :
    Safe { t with
      groups := withGroup t id fun row =>
        { row with values := values, version := version } } ↔ apartFromRetail t values = true := by
  obtain ⟨mem, own, _⟩ := liveGroup_ok found
  rw [apartFromRetail_eq listed]
  constructor
  · intro safe
    refine safe.priced { group with values := values, version := version } ?_
    exact List.mem_map.mpr ⟨group, mem, if_pos own⟩
  · intro rule
    refine ⟨fun account there row listed joined => ?_, fun row listed => ?_⟩
    · obtain ⟨before, old, rfl⟩ := List.mem_map.mp listed
      have kept := h.joined account there before old
      by_cases own : before.id = id
      · rw [if_pos own] at joined ⊢
        exact kept joined
      · rw [if_neg own] at joined ⊢
        exact kept joined
    · obtain ⟨before, old, rfl⟩ := List.mem_map.mp listed
      split
      · exact rule
      · exact h.priced before old

/-- A group without accounts may be deleted; it is no longer active. -/
theorem safe_delete (h : Safe t) {id version : ℕ}
    (unused : ∀ account ∈ t.accounts, account.groupId ≠ some id) :
    Safe { t with
      groups := withGroup t id fun row =>
        { row with
          values := { row.values with isActive := false }
          isDeleted := true
          version := version } } := by
  refine ⟨fun account there row listed joined => ?_, fun row listed => ?_⟩
  · obtain ⟨before, old, rfl⟩ := List.mem_map.mp listed
    by_cases own : before.id = id
    · rw [if_pos own] at joined
      exact absurd (own ▸ joined) (unused account there)
    · rw [if_neg own] at joined ⊢
      exact h.joined account there before old joined
  · obtain ⟨before, old, rfl⟩ := List.mem_map.mp listed
    by_cases own : before.id = id
    · rw [if_pos own]
      exact nofun
    · rw [if_neg own]
      exact h.priced before old

theorem safe_join (h : Safe t) {accountId groupId : ℕ} {account : BuyerAccount}
    (found : accountById t accountId = .ok account) {change : BuyerAccount → BuyerAccount}
    (moves : ∀ row, (change row).groupId = some groupId) :
    Safe { t with accounts := withAccount t accountId change } ↔
      (t.groups.all fun group => group.id ≠ groupId || !group.isDeleted) = true := by
  obtain ⟨mem, own⟩ := accountById_ok found
  simp only [List.all_eq_true, Bool.or_eq_true, Bool.not_eq_true', decide_eq_true_eq]
  constructor
  · intro safe group listed
    by_cases same : group.id = groupId
    · refine .inr (safe.joined (change account) ?_ group listed (same ▸ moves account))
      exact List.mem_map.mpr ⟨account, mem, if_pos own⟩
    · exact .inl same
  · intro rule
    refine ⟨fun row there group listed joined => ?_, h.priced⟩
    obtain ⟨before, old, rfl⟩ := List.mem_map.mp there
    by_cases moved : before.id = accountId
    · rw [if_pos moved, moves] at joined
      exact (rule group listed).resolve_left (not_not.mpr (Option.some.inj joined).symm)
    · rw [if_neg moved] at joined
      exact h.joined before old group listed joined

theorem safe_settings (h : Safe t) (values : PriceListSettings) (settingsVersion : ℕ) :
    Safe { t with
      settings := values
      settingsVersion := settingsVersion } ↔
      (t.groups.all fun group => !group.isActive || group.priceList ≠ values.retailPriceList) =
        true := by
  simp only [List.all_eq_true, Bool.or_eq_true, Bool.not_eq_true', decide_eq_true_eq]
  constructor
  · intro safe group listed
    cases active : group.isActive with
    | false => exact .inl rfl
    | true => exact .inr (safe.priced group listed active).2
  · intro rule
    refine ⟨h.joined, fun group listed active => ⟨(h.priced group listed active).1, ?_⟩⟩
    exact (rule group listed).resolve_left (by simp [active])

/-- An accepted statement leaves each request what it relies on, and keeps both rules exactly when it is
undisturbed. -/
theorem Valid.step_spec (h : Valid t) {op : Op} (ok : step text t op = .ok t') :
    (∀ q, Knows t' q (t'.phase q)) ∧ (Safe t' ↔ undisturbed t op = true) := by
  have same : ∀ {s : Tables}, s.groups = t.groups → s.accounts = t.accounts → s.settings = t.settings →
      (Safe s ↔ true = true) :=
    fun groups accounts settings => iff_of_true (h.safe.of_eq groups accounts settings) rfl
  cases op with
  | checkNew p input priceLists mayPrice =>
      cases phase : t.phase p <;> simp only [BuyerGroups.step, phase, reduceCtorEq] at ok
      simp only [bind_eq_ok, ensure_eq_ok, pure_eq_ok] at ok
      obtain ⟨values, checked, _, _, rfl⟩ := ok
      exact ⟨h.knows_enter p (.creating values) fun active => (checkedBuyerGroup_active checked active).1,
        same rfl rfl rfl⟩
  | create p =>
      have own := h.knows p
      cases phase : t.phase p <;> simp only [BuyerGroups.step, phase, reduceCtorEq] at ok
      simp only [bind_eq_ok, ensure_eq_ok, pure_eq_ok] at ok
      obtain ⟨_, _, rfl⟩ := ok
      rw [phase] at own
      simp only [undisturbed, phase]
      refine ⟨h.knows_finish p rfl rfl rfl, safe_finish.trans (safe_create h.safe ?_ ?_ _)⟩
      · rfl
      · exact own
  | checkUpdate p id version input priceLists =>
      cases phase : t.phase p <;> simp only [BuyerGroups.step, phase, reduceCtorEq] at ok
      simp only [bind_eq_ok, pure_eq_ok] at ok
      obtain ⟨values, checked, rfl⟩ := ok
      exact ⟨h.knows_enter p (.updating id version values)
        fun active => (checkedBuyerGroup_active checked active).1, same rfl rfl rfl⟩
  | lockForUpdate p mayPrice =>
      have own := h.knows p
      cases phase : t.phase p <;> simp only [BuyerGroups.step, phase, reduceCtorEq] at ok
      simp only [bind_eq_ok, ensure_eq_ok, pure_eq_ok] at ok
      obtain ⟨_, free, _, _, _, _, _, _, rfl⟩ := ok
      rw [phase] at own
      exact ⟨h.knows_lock p (.updateLocked _ _) free own, same rfl rfl rfl⟩
  | update p =>
      have own := h.knows p
      cases phase : t.phase p <;> simp only [BuyerGroups.step, phase, reduceCtorEq] at ok
      simp only [bind_eq_ok, ensure_eq_ok, pure_eq_ok] at ok
      obtain ⟨_, found, _, _, rfl⟩ := ok
      rw [phase] at own
      simp only [undisturbed, phase]
      exact ⟨h.knows_finish p rfl rfl rfl, safe_finish.trans (safe_update h.safe found own)⟩
  | lockForDelete p id version =>
      cases phase : t.phase p <;> simp only [BuyerGroups.step, phase, reduceCtorEq] at ok
      simp only [bind_eq_ok, ensure_eq_ok, pure_eq_ok] at ok
      obtain ⟨_, free, _, _, _, _, rfl⟩ := ok
      exact ⟨h.knows_lock p (.deleteLocked id) free (Function.update_self ..), same rfl rfl rfl⟩
  | lookForAccounts p =>
      have own := h.knows p
      cases phase : t.phase p <;> simp only [BuyerGroups.step, phase, reduceCtorEq] at ok
      simp only [bind_eq_ok, ensure_eq_ok, pure_eq_ok] at ok
      obtain ⟨_, unused, rfl⟩ := ok
      rw [phase] at own
      exact ⟨h.knows_enter p (.unused _) ⟨own, unused⟩, same rfl rfl rfl⟩
  | delete p =>
      have own := h.knows p
      cases phase : t.phase p <;> simp only [BuyerGroups.step, phase, reduceCtorEq] at ok
      simp only [bind_eq_ok, pure_eq_ok] at ok
      obtain ⟨_, _, rfl⟩ := ok
      rw [phase] at own
      exact ⟨h.knows_finish p rfl rfl rfl, iff_of_true (safe_finish.mpr (safe_delete h.safe own.2)) rfl⟩
  | lockAccount p accountId version review =>
      cases phase : t.phase p <;> simp only [BuyerGroups.step, phase, reduceCtorEq] at ok
      simp only [bind_eq_ok, ensure_eq_ok, pure_eq_ok] at ok
      obtain ⟨_, _, _, _, _, _, _, _, rfl⟩ := ok
      exact ⟨h.knows_update p (.accountLocked accountId review) trivial rfl
        (fun _ _ _ lock => lock) fun _ _ _ _ unused => unused, same rfl rfl rfl⟩
  | readGroup p groupId =>
      cases phase : t.phase p <;> simp only [BuyerGroups.step, phase, reduceCtorEq] at ok
      simp only [bind_eq_ok, pure_eq_ok] at ok
      obtain ⟨_, _, rfl⟩ := ok
      exact ⟨h.knows_enter p (.groupRead _ groupId _) trivial, same rfl rfl rfl⟩
  | joinGroup p =>
      cases phase : t.phase p <;> simp only [BuyerGroups.step, phase, reduceCtorEq] at ok
      simp only [bind_eq_ok, ensure_eq_ok, pure_eq_ok] at ok
      obtain ⟨account, found, _, free, rfl⟩ := ok
      simp only [undisturbed, phase]
      exact ⟨h.knows_join p found free (fun _ => rfl), safe_finish.trans (safe_join h.safe found fun _ => rfl)⟩
  | lockSettings p version =>
      cases phase : t.phase p <;> simp only [BuyerGroups.step, phase, reduceCtorEq] at ok
      simp only [bind_eq_ok, ensure_eq_ok, pure_eq_ok] at ok
      obtain ⟨_, _, _, _, rfl⟩ := ok
      exact ⟨h.knows_update p .settingsLocked trivial rfl
        (fun _ _ _ lock => lock) fun _ _ _ _ unused => unused, same rfl rfl rfl⟩
  | checkSettings p input priceLists =>
      cases phase : t.phase p <;> simp only [BuyerGroups.step, phase, reduceCtorEq] at ok
      simp only [bind_eq_ok, pure_eq_ok] at ok
      obtain ⟨values, _, rfl⟩ := ok
      exact ⟨h.knows_enter p (.settingsChecked values) trivial, same rfl rfl rfl⟩
  | saveSettings p otherChanges =>
      cases phase : t.phase p <;> simp only [BuyerGroups.step, phase, reduceCtorEq] at ok
      obtain rfl := Except.ok.inj ok
      simp only [undisturbed, phase]
      exact ⟨h.knows_finish p rfl rfl rfl, safe_finish.trans (safe_settings h.safe _ _)⟩
  | abort p =>
      obtain rfl := Except.ok.inj ok
      exact ⟨h.knows_finish p rfl rfl rfl, same rfl rfl rfl⟩

theorem Valid.step (h : Valid t) {op : Op} (meets : undisturbed t op = true)
    (ok : step text t op = .ok t') : Valid t' :=
  ⟨(h.step_spec ok).2.mpr meets, (h.step_spec ok).1⟩

/-- A run keeps both rules in every state it reaches exactly when each of its commits is
undisturbed. -/
theorem groups_keep_their_rules (text : GroupText) (groups : List BuyerGroup) (nextGroup : ℕ)
    (accounts : List BuyerAccount) (settings : PriceListSettings) (settingsVersion : ℕ)
    (safe : Safe (start groups nextGroup accounts settings settingsVersion)) (ops : List Op) :
    (∀ n, Safe (run (step text) (start groups nextGroup accounts settings settingsVersion)
      (ops.take n))) ↔
    Along (step text) (fun t op => undisturbed t op = true)
      (start groups nextGroup accounts settings settingsVersion) ops := by
  have begins : Valid (start groups nextGroup accounts settings settingsVersion) :=
    ⟨safe, fun _ => trivial⟩
  constructor
  · refine along_of_prefixes (fun s op t h ok after => ?_) begins
    have meets := (h.step_spec ok).2.mp after
    exact ⟨meets, h.step meets ok⟩
  · intro along n
    have valid : Valid (run (step text) (start groups nextGroup accounts settings settingsVersion)
        (ops.take n)) :=
      run_invariant_along (fun _ _ _ h meets ok => h.step meets ok) begins (along.take n)
    exact valid.safe

/-! ### The settings choose the list of a group -/

def plainText : GroupText := ⟨⟨id, id⟩, some⟩

/-- The form of an active group with the price list `priceList`. -/
def groupForm (priceList : String) : BuyerGroupInput where
  code := "dealers"
  title := "Dealers"
  description := ""
  priceList := priceList
  minOrderAmount := "0"
  minLineQuantity := 0
  allowCard := true
  allowOnAccount := false
  creditLimit := "0"
  catalogScope := some .all
  collections := []
  acceptsDiscounts := false
  isActive := true
  sortOrder := 0

def noGroups : Tables := start [] 0 [⟨7, .pending, none, 1⟩] ⟨"retail", ""⟩ 0

theorem noGroups_safe : Safe noGroups where
  joined := fun _ _ _ mem => absurd mem List.not_mem_nil
  priced := fun _ mem => absurd mem List.not_mem_nil

/-- A group is made, a buyer approved into it, and the settings choose `retail`. -/
def groupThenSettings (retail : String) : List Op :=
  [.checkNew 1 (groupForm "dealers") ["retail", "dealers", "site"] true, .create 1,
    .lockAccount 2 7 1 .approve, .readGroup 2 1, .joinGroup 2,
    .lockSettings 3 0, .checkSettings 3 ⟨retail, ""⟩ ["retail", "dealers", "site"],
    .saveSettings 3 false]

theorem groups_keep_their_rules_another_list :
    Safe (run (step plainText) noGroups ((groupThenSettings "site").take 8)) :=
  (groups_keep_their_rules plainText [] 0 [⟨7, .pending, none, 1⟩] ⟨"retail", ""⟩ 0 noGroups_safe
    (groupThenSettings "site")).mpr (by decide +kernel) 8

/-- The settings make the list of an active group the retail list. -/
theorem retail_list_of_a_group :
    ¬ ∀ (text : GroupText) (groups : List BuyerGroup) (nextGroup : ℕ) (accounts : List BuyerAccount)
      (settings : PriceListSettings) (settingsVersion : ℕ),
      Safe (start groups nextGroup accounts settings settingsVersion) → ∀ (ops : List Op) (n : ℕ),
        Safe (run (step text) (start groups nextGroup accounts settings settingsVersion)
          (ops.take n)) := by
  intro claim
  have safe := claim plainText [] 0 [⟨7, .pending, none, 1⟩] ⟨"retail", ""⟩ 0 noGroups_safe
    (groupThenSettings "dealers")
  have along := (groups_keep_their_rules plainText [] 0 _ _ 0 noGroups_safe _).mp safe
  exact absurd along (by decide +kernel)

end PapitalErp.BuyerGroups
