import PapitalErp.Lib.FilteredSums
import PapitalErp.Users.UserAdmin

/-!
# No escalation by granting

`U` is what the group's accounts hold at the start. Three facts survive every statement: a role
within `U` stays within it, whoever edits it; every live account of the group has such a role;
and no account of the group, nor any that it may take over, is a system admin's. The first is
what makes the checks outside a transaction harmless: what was within `U` when it was read is
within `U` when it is used.

Case conversion is a parameter; the results rely on it leaving the characters of role codes.
-/

namespace PapitalErp.UserAdmin

open Interleaving FilteredSums TrimmedText

/-! ## Reading the boundary -/

/-- Lower-case letters, digits, `_` and `-` stay as they are. -/
def KeepsRoleCodes (rules : CaseRules) : Prop :=
  ∀ s : String, s.toList.all isRoleCodeChar = true → rules.toLowerCase s = s

section Boundary

variable {rules : CaseRules} {U : Set String} {t : UserTables} {role : Role} {code : RoleCode}
  {grantor : Grantor} {keys : List String} {key text : String} {actor : Actor}

theorem isRoleCodeChar_range {c : Char} (h : isRoleCodeChar c = true) :
    45 ≤ c.toNat ∧ c.toNat ≤ 57 ∨ 95 ≤ c.toNat ∧ c.toNat ≤ 122 := by
  simp only [isRoleCodeChar, Bool.or_eq_true, Bool.and_eq_true, decide_eq_true_eq, beq_iff_eq,
    Char.le_def, UInt32.le_iff_toNat_le] at h
  change ((97 ≤ c.toNat ∧ c.toNat ≤ 122 ∨ 48 ≤ c.toNat ∧ c.toNat ≤ 57) ∨ c = '_') ∨ c = '-' at h
  obtain ((letter | digit) | rfl) | rfl := h
  · omega
  · omega
  · decide
  · decide

theorem not_blank_of_roleCode {c : Char} (h : isRoleCodeChar c = true) : ¬isJsBlank c = true := by
  have range := isRoleCodeChar_range h
  simp only [isJsBlank, Bool.or_eq_true, Bool.and_eq_true, decide_eq_true_eq, List.mem_cons,
    List.not_mem_nil, or_false]
  omega

theorem jsTrim_roleCode (h : text.toList.all isRoleCodeChar = true) : jsTrim text = text := by
  rw [List.all_eq_true] at h
  have same : trimEnds isJsBlank text.toList = text.toList := by
    refine trimEnds_eq_self (fun c mem => ?_) fun some => ?_
    · exact not_blank_of_roleCode (h c (List.mem_of_mem_head? mem))
    · exact not_blank_of_roleCode (h _ (List.getLast_mem some))
  rw [jsTrim, trim, same, String.ofList_toList]

theorem RoleCode.chars (role : Option RoleCode) :
    (RoleCode.text role).toList.all isRoleCodeChar = true := by
  cases role with
  | none => rfl
  | some code =>
      have pattern := code.2
      rw [matchesRoleCode, Bool.and_eq_true] at pattern
      exact pattern.2

theorem RoleCode.ne_empty (code : RoleCode) : code.1 ≠ "" := by
  intro empty
  have pattern := code.2
  rw [empty] at pattern
  simp [matchesRoleCode] at pattern

/-- Of the roles a row can hold, only `admin` itself is read as the system admin's. -/
theorem isSystemAdminRole_text (lower : KeepsRoleCodes rules) (role : Option RoleCode) :
    isSystemAdminRole rules (RoleCode.text role) = true ↔ role = some .admin := by
  rw [isSystemAdminRole, jsTrim_roleCode (RoleCode.chars role), lower _ (RoleCode.chars role), beq_iff_eq]
  cases role with
  | none => simp [RoleCode.text]
  | some code =>
      rw [Option.some_inj]
      exact ⟨fun same => Subtype.ext same, fun same => congrArg Subtype.val same⟩

/-- The keys are all in `U`; `'all'` never is. -/
def Grantor.Below (U : Set String) : Grantor → Prop
  | .all => False
  | .keys own => ∀ key ∈ own, key ∈ U

theorem mem_of_assertWithin {u : Unit} (below : grantor.Below U) (h : assertWithin grantor keys = .ok u) :
    ∀ key ∈ keys, key ∈ U := by
  cases grantor with
  | all => exact absurd below id
  | keys own =>
      intro key mem
      refine below key ?_
      by_contra beyond
      have listed : key ∈ (keys.filter (· ∉ own)).eraseDups := by
        simp [List.mem_eraseDups, mem, beyond]
      unfold assertWithin at h
      split at h
      · rename_i none
        rw [Grantor.beyond] at none
        rw [none] at listed
        cases listed
      · cases h

theorem mem_rolePermissions (mem : key ∈ t.rolePermissions text) :
    ∃ role ∈ t.roles, role.code.1 = text ∧ key ∈ role.permissions := by
  unfold UserTables.rolePermissions at mem
  split at mem
  · cases mem
  · cases found : t.roles.find? fun r => r.code.1 == text with
    | none =>
        rw [found] at mem
        cases mem
    | some role =>
        rw [found] at mem
        have same := List.find?_some found
        exact ⟨role, List.mem_of_find?_eq_some found, beq_iff_eq.mp same, mem⟩

theorem rolePermissions_of_mem (codes : t.roles.Pairwise fun r s => r.code ≠ s.code) (mem : role ∈ t.roles) :
    t.rolePermissions role.code.1 = role.permissions := by
  unfold UserTables.rolePermissions
  rw [if_neg role.code.ne_empty]
  cases found : t.roles.find? fun r => r.code.1 == role.code.1 with
  | none => exact absurd (List.find?_eq_none.mp found role mem) (by simp)
  | some first =>
      have same := List.find?_some found
      obtain rfl : first = role :=
        eq_of_key_eq codes (List.mem_of_find?_eq_some found) mem (Subtype.ext (beq_iff_eq.mp same))
      rfl

/-! ## Roles within what the group holds -/

/-- The role is not the system admin's, and every permission stored for it is in `U`. -/
structure Bounded (U : Set String) (t : UserTables) (code : RoleCode) : Prop where
  ordinary : code ≠ .admin
  permissions : ∀ role ∈ t.roles, role.code = code → ∀ key ∈ role.permissions, key ∈ U

/-- An account's role is within `U`, or it has none. -/
def Within (U : Set String) (t : UserTables) (role : Option RoleCode) : Prop :=
  ∀ code, role = some code → Bounded U t code

/-- The role that a request names, if there is one. -/
def TextWithin (U : Set String) (t : UserTables) (text : String) : Prop :=
  ∀ code : RoleCode, code.1 = text → Bounded U t code

theorem grantorPermissions_below (lower : KeepsRoleCodes rules) (within : Within U t actor.role) :
    (t.grantorPermissions rules actor).Below U := by
  have ordinary : ¬actor.isSystemAdmin rules = true := by
    rw [Actor.isSystemAdmin, isSystemAdminRole_text lower]
    exact fun admin => (within .admin admin).ordinary rfl
  rw [UserTables.grantorPermissions, if_neg ordinary]
  intro key mem
  obtain ⟨role, listed, same, held⟩ := mem_rolePermissions mem
  cases named : actor.role with
  | none =>
      -- an account without a role reads no row: no code is the empty text
      rw [named] at mem
      cases mem
  | some code =>
      rw [named] at same
      exact (within code named).permissions role listed (Subtype.ext same) key held

/-- A role that passed the boundary and is not the system admin's. -/
theorem textWithin_of_assert {u : Unit} (codes : t.roles.Pairwise fun r s => r.code ≠ s.code)
    (below : grantor.Below U) (ordinary : text ≠ "admin") (h : t.assertRoleWithin grantor text = .ok u) :
    TextWithin U t text := by
  rintro code rfl
  refine ⟨fun admin => ordinary (congrArg Subtype.val admin), ?_⟩
  rintro role mem rfl key held
  rw [UserTables.assertRoleWithin, rolePermissions_of_mem codes mem] at h
  exact mem_of_assertWithin below h key held

theorem within_of_textWithin {role : Option RoleCode} (h : TextWithin U t (RoleCode.text role)) :
    Within U t role := by
  rintro code rfl
  exact h code rfl

end Boundary

/-! ## What the statements keep -/

/-- The keys of the tables. -/
structure UserTables.Keyed (t : UserTables) : Prop where
  roleIds : t.roles.Pairwise fun r s => r.id ≠ s.id
  roleCodes : t.roles.Pairwise fun r s => r.code ≠ s.code
  userIds : t.users.Pairwise fun u v => u.id ≠ v.id
  freshRole : ∀ r ∈ t.roles, r.id < t.nextRole
  freshUser : ∀ u ∈ t.users, u.id < t.nextUser

/-- The group's accounts stay within `U`, and the rows of the system admins stay. -/
structure Contained (U : Set String) (admins : List User) (t : UserTables) : Prop where
  keyed : t.Keyed
  ordinary : ∀ user ∈ t.users, user.id ∈ t.controlled → user.role ≠ some .admin
  within : ∀ user ∈ t.users, user.id ∈ t.controlled → user.isDeleted = false → Within U t user.role
  admins : ∀ user ∈ admins, user.role = some .admin ∧ user ∈ t.users

/-- Request `i` is in the transaction of an account change, and the row is as it read it. -/
structure Holding (i : ℕ) (t : UserTables) (prev : User) : Prop where
  set : t.locks .systemAdminSet = some i
  lock : t.locks (.user prev.id) = some i
  row : prev ∈ t.users

/-- The account's live row still has the role that was read, or that role is within `U`. -/
def Seen (U : Set String) (t : UserTables) (actor : Actor) : Prop :=
  (∃ user ∈ t.users, user.id = actor.id ∧ user.role = actor.role ∧ user.isDeleted = false) ∨
    Within U t actor.role

/-- Neither the account nor the role that the change gives is a system admin's. -/
structure Ordinary (change : AccountChange) (prev : User) : Prop where
  prev : prev.role ≠ some .admin
  given : change.role ≠ some "admin"

/-- What a request knows at its point of the code. -/
def KnowsAdmin (U : Set String) (i : ℕ) (t : UserTables) : UserAdminProgress → Prop
  | .waiting | .done _ => True
  | .identified actor => Seen U t actor
  | .sent actor _ => Within U t actor.role
  | .granted _ grantor call => grantor.Below U ∧ ∀ input, call = .createUser input → input.role ≠ "admin"
  | .creatingRole _ permissions => ∀ key ∈ permissions, key ∈ U
  | .creatingUser input => TextWithin U t input.role
  | .locked actor _ _ => t.locks .systemAdminSet = some i ∧ Within U t actor.role
  | .opened actor change prev => Holding i t prev ∧ Ordinary change prev ∧ Within U t actor.role
  | .weighed _ change prev grantor => Holding i t prev ∧ Ordinary change prev ∧ grantor.Below U
  | .manageable _ change prev grantor =>
      Holding i t prev ∧ Ordinary change prev ∧ grantor.Below U ∧ Within U t prev.role
  | .ready change prev =>
      Holding i t prev ∧ Within U t prev.role ∧ ∀ role, change.newRole prev = some role → TextWithin U t role

/-- What a statement of request `i` leaves to the others. -/
structure LeavesAdmin (U : Set String) (i : ℕ) (t t' : UserTables) : Prop where
  locks : ∀ j ≠ i, ∀ lock, t.locks lock = some j → t'.locks lock = some j
  bounded : ∀ code, Bounded U t code → Bounded U t' code
  live : ∀ user ∈ t.users, user.isDeleted = false →
    (∃ now ∈ t'.users, now.id = user.id ∧ now.role = user.role ∧ now.isDeleted = false) ∨ Within U t' user.role
  rows : ∀ j ≠ i, ∀ user ∈ t.users, t.locks .systemAdminSet = some j → t.locks (.user user.id) = some j →
    user ∈ t'.users

section Outline

variable {rules : CaseRules} {catalog : List PermissionDefinition} {U : Set String} {admins : List User}
  {i j : ℕ} {t t' : UserTables} {progress next : UserAdminProgress} {actor : Actor} {prev user : User}
  {grantor : Grantor} {change : AccountChange} {code : RoleCode} {permissions : List String}
  {refusal : UserAdminError}

theorem LeavesAdmin.refl : LeavesAdmin U i t t :=
  ⟨fun _ _ _ => id, fun _ => id, fun user mem live => .inl ⟨user, mem, rfl, rfl, live⟩,
    fun _ _ _ mem _ _ => mem⟩

theorem LeavesAdmin.within (h : LeavesAdmin U i t t') {role : Option RoleCode} (within : Within U t role) :
    Within U t' role :=
  fun code named => h.bounded code (within code named)

theorem LeavesAdmin.textWithin (h : LeavesAdmin U i t t') {text : String} (within : TextWithin U t text) :
    TextWithin U t' text :=
  fun code named => h.bounded code (within code named)

theorem Holding.others (h : Holding j t prev) (apart : j ≠ i) (leaves : LeavesAdmin U i t t') :
    Holding j t' prev :=
  ⟨leaves.locks j apart _ h.set, leaves.locks j apart _ h.lock, leaves.rows j apart prev h.row h.set h.lock⟩

theorem Seen.after (h : Seen U t actor) (leaves : LeavesAdmin U i t t') : Seen U t' actor := by
  obtain ⟨user, mem, id, role, live⟩ | within := h
  · obtain ⟨now, mem', id', role', live'⟩ | within := leaves.live user mem live
    · exact .inl ⟨now, mem', id'.trans id, role'.trans role, live'⟩
    · rw [role] at within
      exact .inr within
  · exact .inr (leaves.within within)

theorem KnowsAdmin.others (h : KnowsAdmin U j t progress) (apart : j ≠ i) (leaves : LeavesAdmin U i t t') :
    KnowsAdmin U j t' progress := by
  cases progress with
  | waiting | done => trivial
  | identified => exact Seen.after h leaves
  | sent => exact leaves.within h
  | granted | creatingRole => exact h
  | creatingUser => exact leaves.textWithin h
  | locked => exact ⟨leaves.locks j apart _ h.1, leaves.within h.2⟩
  | opened => exact ⟨h.1.others apart leaves, h.2.1, leaves.within h.2.2⟩
  | weighed => exact ⟨h.1.others apart leaves, h.2⟩
  | manageable => exact ⟨h.1.others apart leaves, h.2.1, h.2.2.1, leaves.within h.2.2.2⟩
  | ready =>
      exact ⟨h.1.others apart leaves, leaves.within h.2.1,
        fun role given => leaves.textWithin (h.2.2 role given)⟩

/-- The effect of a statement. -/
structure AdminOutcome (U : Set String) (admins : List User) (i : ℕ) (t t' : UserTables)
    (next : UserAdminProgress) : Prop where
  contained : Contained U admins t'
  own : KnowsAdmin U i t' next
  others : LeavesAdmin U i t t'

/-- Locks are no part of what is kept. -/
theorem Contained.withLocks (h : Contained U admins t) (locks : Locks UserLock ℕ) :
    Contained U admins { t with locks } :=
  ⟨⟨h.keyed.roleIds, h.keyed.roleCodes, h.keyed.userIds, h.keyed.freshRole, h.keyed.freshUser⟩, h.ordinary,
    fun user mem known live code named => ⟨(h.within user mem known live code named).ordinary,
      (h.within user mem known live code named).permissions⟩, h.admins⟩

theorem LeavesAdmin.withLocks (leaves : LeavesAdmin U i t t') {locks : Locks UserLock ℕ}
    (kept : ∀ j ≠ i, ∀ lock, t'.locks lock = some j → locks lock = some j) :
    LeavesAdmin U i t { t' with locks } :=
  ⟨fun j apart lock held => kept j apart lock (leaves.locks j apart lock held),
    fun code bounded => ⟨(leaves.bounded code bounded).ordinary, (leaves.bounded code bounded).permissions⟩,
    fun user mem live => (leaves.live user mem live).imp_right fun within code named =>
      ⟨(within code named).ordinary, (within code named).permissions⟩, leaves.rows⟩

theorem LeavesAdmin.release (leaves : LeavesAdmin U i t t') : LeavesAdmin U i t (t'.release i) :=
  leaves.withLocks fun _ apart _ held => Locks.release_keeps apart held

theorem LeavesAdmin.trans {u : UserTables} (h : LeavesAdmin U i t t') (h' : LeavesAdmin U i t' u) :
    LeavesAdmin U i t u := by
  refine ⟨fun j apart lock held => h'.locks j apart lock (h.locks j apart lock held),
    fun code bounded => h'.bounded code (h.bounded code bounded), fun user mem live => ?_,
    fun j apart user mem set lock => ?_⟩
  · obtain ⟨now, mem', id', role', live'⟩ | within := h.live user mem live
    · obtain ⟨last, mem'', id'', role'', live''⟩ | within := h'.live now mem' live'
      · exact .inl ⟨last, mem'', id''.trans id', role''.trans role', live''⟩
      · rw [role'] at within
        exact .inr within
    · exact .inr (h'.within within)
  · exact h'.rows j apart user (h.rows j apart user mem set lock) (h.locks j apart _ set) (h.locks j apart _ lock)

theorem leaves_take {locks : Locks UserLock ℕ} {lock : UserLock} (taken : t.locks.take i lock = some locks) :
    LeavesAdmin U i t { t with locks } := by
  refine LeavesAdmin.refl.withLocks fun j apart held had => ?_
  obtain kept | ⟨-, rfl⟩ := Locks.take_keeps taken had
  · exact kept
  · exact absurd rfl apart

/-! ## The writes -/

/-- A transaction keeps what it must and leaves the others what they know. -/
structure AdminWrite (U : Set String) (admins : List User) (i : ℕ) (t t' : UserTables) : Prop where
  contained : Contained U admins t'
  leaves : LeavesAdmin U i t t'

theorem insertRole_write (h : Contained U admins t) (below : ∀ key ∈ permissions, key ∈ U)
    (ok : t.insertRole code permissions = .ok t') : AdminWrite U admins i t t' := by
  unfold UserTables.insertRole at ok
  split at ok <;> cases ok
  rename_i free
  rw [List.any_eq_true] at free
  have bounded : ∀ c, Bounded U t c → Bounded U { t with
      roles := t.roles ++ [⟨t.nextRole, code, permissions⟩], nextRole := t.nextRole + 1 } c := by
    intro c before
    refine ⟨before.ordinary, fun role mem same => ?_⟩
    obtain old | new := List.mem_append.mp mem
    · exact before.permissions role old same
    · obtain rfl := List.mem_singleton.mp new
      exact below
  refine ⟨⟨⟨?_, ?_, h.keyed.userIds, ?_, h.keyed.freshUser⟩, h.ordinary, ?_, h.admins⟩,
    fun _ _ _ => id, bounded, fun user mem live => .inl ⟨user, mem, rfl, rfl, live⟩, fun _ _ _ mem _ _ => mem⟩
  · refine List.pairwise_append.mpr ⟨h.keyed.roleIds, List.pairwise_singleton _ _, fun r mem s new => ?_⟩
    obtain rfl := List.mem_singleton.mp new
    exact (h.keyed.freshRole r mem).ne
  · refine List.pairwise_append.mpr ⟨h.keyed.roleCodes, List.pairwise_singleton _ _, fun r mem s new => ?_⟩
    obtain rfl := List.mem_singleton.mp new
    exact fun same => free ⟨r, mem, decide_eq_true same⟩
  · intro r mem
    obtain old | new := List.mem_append.mp mem
    · exact Nat.lt_succ_of_lt (h.keyed.freshRole r old)
    · obtain rfl := List.mem_singleton.mp new
      exact Nat.lt_succ_self _
  · exact fun user mem known live c named => bounded c (h.within user mem known live c named)

/-- What an accepted edit writes: the new list has what the old one had and what the grantor holds. -/
theorem updateRole_ok (below : grantor.Below U) {roleId : ℕ} {input : RoleUpdateInput}
    (ok : t.updateRole rules catalog actor grantor roleId input = .ok t') :
    ∃ target ∈ t.roles, target.id = roleId ∧ ∃ new : List String,
      (∀ key ∈ new, key ∈ target.permissions ∨ key ∈ U) ∧
        t' = { t with roles := t.roles.map fun r => if r.id = roleId then { r with permissions := new } else r } := by
  unfold UserTables.updateRole at ok
  split at ok
  · cases ok
  · rename_i target found
    simp only [bind, Except.bind] at ok
    split at ok
    · cases ok
    split at ok
    · cases ok
    split at ok
    · cases ok
    split at ok
    · cases ok
    rename_i within
    split at ok <;> cases ok
    have same := List.find?_some found
    refine ⟨target, List.mem_of_find?_eq_some found, of_decide_eq_true same, _, fun key mem => ?_, rfl⟩
    by_cases had : key ∈ target.permissions
    · exact .inl had
    · refine .inr (mem_of_assertWithin below within key ?_)
      exact List.mem_filter.mpr ⟨mem, decide_eq_true had⟩

theorem updateRole_write (h : Contained U admins t) (below : grantor.Below U) {roleId : ℕ}
    {input : RoleUpdateInput} (ok : t.updateRole rules catalog actor grantor roleId input = .ok t') :
    AdminWrite U admins i t t' := by
  obtain ⟨target, mem, rfl, new, within, rfl⟩ := updateRole_ok below ok
  have bounded : ∀ c, Bounded U t c → Bounded U { t with
      roles := t.roles.map fun r => if r.id = target.id then { r with permissions := new } else r } c := by
    intro c before
    refine ⟨before.ordinary, fun role mem' same key held => ?_⟩
    obtain ⟨old, listed, rfl⟩ := List.mem_map.mp mem'
    split at same
    · rename_i edited
      rw [if_pos edited] at held
      obtain rfl := eq_of_key_eq h.keyed.roleIds listed mem edited
      obtain had | own := within key held
      · exact before.permissions old listed same key had
      · exact own
    · rename_i other
      rw [if_neg other] at held
      exact before.permissions old listed same key held
  refine ⟨⟨⟨pairwise_update h.keyed.roleIds fun _ => rfl, ?_, h.keyed.userIds, ?_, h.keyed.freshUser⟩,
    h.ordinary, ?_, h.admins⟩, fun _ _ _ => id, bounded,
    fun user mem live => .inl ⟨user, mem, rfl, rfl, live⟩, fun _ _ _ mem _ _ => mem⟩
  · refine List.pairwise_map.mpr (h.keyed.roleCodes.imp fun {r s} apart => ?_)
    split_ifs <;> exact apart
  · intro r mem'
    obtain ⟨old, listed, rfl⟩ := List.mem_map.mp mem'
    split_ifs <;> exact h.keyed.freshRole old listed
  · exact fun user mem known live c named => bounded c (h.within user mem known live c named)

theorem deleteRole_ok {roleId : ℕ} {required : Bool} (ok : t.deleteRole rules grantor roleId required = .ok t') :
    ∃ target ∈ t.roles, target.id = roleId ∧ ¬isSystemAdminRole rules target.code.1 = true ∧
      t' = { t with
        users := t.users.map fun u => if u.namesDeleted target.code then { u with role := none } else u
        roles := t.roles.filter (·.id ≠ roleId) } := by
  unfold UserTables.deleteRole at ok
  split at ok
  · cases ok
  · rename_i target found
    simp only [bind, Except.bind] at ok
    split at ok
    · cases ok
    rename_i ordinary
    split at ok
    · cases ok
    split at ok
    · cases ok
    split at ok <;> cases ok
    have same := List.find?_some found
    exact ⟨target, List.mem_of_find?_eq_some found, of_decide_eq_true same, ordinary, rfl⟩

/-- A row that does not lose its role. -/
theorem kept_of_not_names (mem : user ∈ t.users) (other : user.namesDeleted code = false) :
    user ∈ t.users.map fun u => if u.namesDeleted code then { u with role := none } else u :=
  List.mem_map.mpr ⟨user, mem, by rw [other]; rfl⟩

theorem deleteRole_write (lower : KeepsRoleCodes rules) (h : Contained U admins t) {roleId : ℕ}
    {required : Bool} (free : ¬t.waitsForUser i roleId = true)
    (ok : t.deleteRole rules grantor roleId required = .ok t') : AdminWrite U admins i t t' := by
  obtain ⟨target, listed, rfl, ordinary, rfl⟩ := deleteRole_ok ok
  have live_kept : ∀ {u : User}, u.isDeleted = false → u.namesDeleted target.code = false := by
    intro u live
    simp [User.namesDeleted, live]
  have bounded : ∀ c, Bounded U t c → Bounded U { t with
      users := t.users.map fun u => if u.namesDeleted target.code then { u with role := none } else u
      roles := t.roles.filter (·.id ≠ target.id) } c :=
    fun c before => ⟨before.ordinary, fun role mem => before.permissions role (List.mem_of_mem_filter mem)⟩
  refine ⟨⟨⟨h.keyed.roleIds.filter _, h.keyed.roleCodes.filter _, ?_,
    fun r mem => h.keyed.freshRole r (List.mem_of_mem_filter mem), ?_⟩, ?_, ?_, ?_⟩,
    fun _ _ _ => id, bounded, ?_, ?_⟩
  · refine List.pairwise_map.mpr (h.keyed.userIds.imp fun {u v} apart => ?_)
    split_ifs <;> exact apart
  · intro u mem
    obtain ⟨old, had, rfl⟩ := List.mem_map.mp mem
    split_ifs <;> exact h.keyed.freshUser old had
  · intro u mem known
    obtain ⟨old, had, rfl⟩ := List.mem_map.mp mem
    split_ifs at known ⊢
    · nofun
    · exact h.ordinary old had known
  · intro u mem known live c named
    obtain ⟨old, had, rfl⟩ := List.mem_map.mp mem
    split_ifs at known live named
    exact bounded c (h.within old had known live c named)
  · intro user mem
    obtain ⟨admin, had⟩ := h.admins user mem
    refine ⟨admin, kept_of_not_names had ?_⟩
    have other : RoleCode.admin ≠ target.code := by
      intro same
      exact ordinary ((isSystemAdminRole_text lower (some target.code)).mpr (congrArg some same.symm))
    simp [User.namesDeleted, admin, other]
  · exact fun user mem live => .inl ⟨user, kept_of_not_names mem (live_kept live), rfl, rfl, live⟩
  · intro j apart user mem _ lock
    refine kept_of_not_names mem ?_
    by_contra names
    rw [Bool.not_eq_false] at names
    refine free (List.any_eq_true.mpr ⟨target, List.mem_filter.mpr ⟨listed, decide_eq_true rfl⟩, ?_⟩)
    refine List.any_eq_true.mpr ⟨user, mem, ?_⟩
    simp [names, lock, apart]

theorem storedRole_ok {text : String} (ok : t.storedRole text = .ok code) : code.1 = text := by
  unfold UserTables.storedRole at ok
  split at ok <;> cases ok
  rename_i row found
  have same := List.find?_some found
  exact beq_iff_eq.mp same

theorem insertUser_write (h : Contained U admins t) {input : UserCreateInput}
    (within : TextWithin U t input.role) (ok : t.insertUser rules input = .ok t') :
    AdminWrite U admins i t t' := by
  unfold UserTables.insertUser at ok
  simp only [bind, Except.bind] at ok
  split at ok
  · cases ok
  split at ok
  · cases ok
  split at ok <;> cases ok
  rename_i code stored
  have role := within code (storedRole_ok stored)
  have known : ∀ {u : User}, u ∈ t.users → u.id ∈ t.nextUser :: t.controlled → u.id ∈ t.controlled := by
    intro u mem listed
    exact (List.mem_cons.mp listed).resolve_left (h.keyed.freshUser u mem).ne
  refine ⟨⟨⟨h.keyed.roleIds, h.keyed.roleCodes, ?_, h.keyed.freshRole, ?_⟩, ?_, ?_, ?_⟩,
    fun _ _ _ => id, fun _ before => ⟨before.ordinary, before.permissions⟩,
    fun user mem live => .inl ⟨user, List.mem_append_left _ mem, rfl, rfl, live⟩,
    fun _ _ _ mem _ _ => List.mem_append_left _ mem⟩
  · refine List.pairwise_append.mpr ⟨h.keyed.userIds, List.pairwise_singleton _ _, fun u mem v new => ?_⟩
    obtain rfl := List.mem_singleton.mp new
    exact (h.keyed.freshUser u mem).ne
  · intro u mem
    obtain old | new := List.mem_append.mp mem
    · exact Nat.lt_succ_of_lt (h.keyed.freshUser u old)
    · obtain rfl := List.mem_singleton.mp new
      exact Nat.lt_succ_self _
  · intro u mem listed
    obtain old | new := List.mem_append.mp mem
    · exact h.ordinary u old (known old listed)
    · obtain rfl := List.mem_singleton.mp new
      exact fun admin => role.ordinary (Option.some.inj admin)
  · intro u mem listed live c named
    obtain old | new := List.mem_append.mp mem
    · have before := h.within u old (known old listed) live c named
      exact ⟨before.ordinary, before.permissions⟩
    · obtain rfl := List.mem_singleton.mp new
      obtain rfl := Option.some.inj named
      exact ⟨role.ordinary, role.permissions⟩
  · exact fun user mem => ⟨(h.admins user mem).1, List.mem_append_left _ (h.admins user mem).2⟩

/-- The row of an account that may be taken over, rewritten with a role within `U`. -/
theorem putUser_write (h : Contained U admins t) (holding : Holding i t prev) (before : Within U t prev.role)
    (same : user.id = prev.id) (after : Within U t user.role) (setsPassword : Bool) :
    AdminWrite U admins i t (t.putUser user setsPassword) := by
  have ordinary : ∀ {role : Option RoleCode}, Within U t role → role ≠ some .admin :=
    fun within admin => (within .admin admin).ordinary rfl
  have known : ∀ {id : ℕ}, id ∈ (t.putUser user setsPassword).controlled → id = user.id ∨ id ∈ t.controlled := by
    intro id listed
    cases setsPassword with
    | false => exact .inr listed
    | true => exact List.mem_cons.mp listed
  have moved : ∀ {role : Option RoleCode}, Within U t role → Within U (t.putUser user setsPassword) role :=
    fun within code named => ⟨(within code named).ordinary, (within code named).permissions⟩
  have row_or : ∀ u ∈ (t.putUser user setsPassword).users, u = user ∨ u ∈ t.users ∧ u.id ≠ user.id := by
    intro u mem
    obtain ⟨old, had, rfl⟩ := List.mem_map.mp mem
    split_ifs with this
    · exact .inl rfl
    · exact .inr ⟨had, this⟩
  have prev_of_id : ∀ u ∈ t.users, u.id = user.id → u = prev :=
    fun u mem at_ => eq_of_key_eq h.keyed.userIds mem holding.row (at_.trans same)
  have other_kept : ∀ u ∈ t.users, u.id ≠ user.id → u ∈ (t.putUser user setsPassword).users :=
    fun u mem apart => List.mem_map.mpr ⟨u, mem, if_neg apart⟩
  refine ⟨⟨⟨h.keyed.roleIds, h.keyed.roleCodes, ?_, h.keyed.freshRole, ?_⟩, ?_, ?_, ?_⟩,
    fun _ _ _ => id, fun _ before => ⟨before.ordinary, before.permissions⟩, ?_, ?_⟩
  · refine List.pairwise_map.mpr (h.keyed.userIds.imp fun {u v} apart => ?_)
    split_ifs with first second second
    · exact absurd (first.trans second.symm) apart
    · exact fun equal => apart (first.trans equal)
    · exact fun equal => apart (equal.trans second.symm)
    · exact apart
  · intro u mem
    obtain rfl | ⟨had, -⟩ := row_or u mem
    · rw [same]
      exact h.keyed.freshUser prev holding.row
    · exact h.keyed.freshUser u had
  · intro u mem listed
    obtain rfl | ⟨had, apart⟩ := row_or u mem
    · exact ordinary after
    · exact h.ordinary u had ((known listed).resolve_left apart)
  · intro u mem listed live
    obtain rfl | ⟨had, apart⟩ := row_or u mem
    · exact moved after
    · exact moved (h.within u had ((known listed).resolve_left apart) live)
  · intro admin mem
    obtain ⟨role, had⟩ := h.admins admin mem
    refine ⟨role, other_kept admin had fun at_ => ordinary before ?_⟩
    rw [← prev_of_id admin had at_, role]
  · intro u mem live
    by_cases at_ : u.id = user.id
    · rw [prev_of_id u mem at_]
      exact .inr (moved before)
    · exact .inl ⟨u, other_kept u mem at_, rfl, rfl, live⟩
  · intro j apart u mem set lock
    exact absurd (Option.some.inj (set.symm.trans holding.set)) apart

/-! ## The checks of an account change -/

theorem text_eq_admin {role : Option RoleCode} : RoleCode.text role = "admin" ↔ role = some .admin := by
  cases role with
  | none => simp [RoleCode.text]
  | some code =>
      rw [Option.some_inj]
      exact ⟨fun same => Subtype.ext same, fun same => congrArg Subtype.val same⟩

theorem Within.ordinary {role : Option RoleCode} (h : Within U t role) : role ≠ some .admin :=
  fun admin => (h .admin admin).ordinary rfl

theorem mayTouch_ok {u : Unit} {roles : List String} (within : Within U t actor.role)
    (ok : assertMayTouchAdminAccounts actor roles = .ok u) : "admin" ∉ roles := by
  unfold assertMayTouchAdminAccounts at ok
  split at ok
  · cases ok
  · rename_i allowed
    exact fun mem => allowed ⟨fun admin => within.ordinary (text_eq_admin.mp admin), mem⟩

theorem ordinary_of_mayTouch {u : Unit} (within : Within U t actor.role)
    (ok : assertMayTouchAdminAccounts actor (RoleCode.text prev.role :: change.role.toList) = .ok u) :
    Ordinary change prev := by
  have apart := mayTouch_ok within ok
  refine ⟨fun admin => apart ?_, fun admin => apart ?_⟩
  · rw [text_eq_admin.mpr admin]
    exact List.mem_cons_self
  · exact List.mem_cons_of_mem _ (Option.mem_toList.mpr admin)

theorem admit_ok {row : Option User} (within : Within U t actor.role)
    (ok : AccountChange.admit rules change actor row = .ok prev) : row = some prev ∧ Ordinary change prev := by
  unfold AccountChange.admit at ok
  simp only [bind, Except.bind] at ok
  cases row with
  | none => cases ok
  | some user =>
      cases change with
      | updateUser input =>
          simp only at ok
          split at ok
          · cases ok
          split at ok
          · cases ok
          rename_i touch
          cases ok
          exact ⟨rfl, ordinary_of_mayTouch within touch⟩
      | restoreUser role =>
          simp only at ok
          split at ok
          · cases ok
          split at ok
          · cases ok
          rename_i touch
          split at ok <;> cases ok
          exact ⟨rfl, ordinary_of_mayTouch within touch⟩
      | deleteUser =>
          simp only at ok
          split at ok
          · cases ok
          split at ok
          · cases ok
          rename_i touch
          cases ok
          exact ⟨rfl, ordinary_of_mayTouch within touch⟩

theorem newRole_of_ordinary (h : Ordinary change prev) {role : String} (given : change.newRole prev = some role) :
    role ≠ "admin" := by
  rintro rfl
  refine h.given ?_
  cases change with
  | updateUser input => exact (Option.filter_eq_some_iff.mp given).1
  | restoreUser role => exact given
  | deleteUser => cases given

theorem assign_ok {u : Unit} (keyed : t.Keyed) (below : grantor.Below U) (h : Ordinary change prev)
    (ok : change.assign rules t actor grantor prev = .ok u) {role : String}
    (given : change.newRole prev = some role) : TextWithin U t role := by
  refine textWithin_of_assert (u := u) keyed.roleCodes below (newRole_of_ordinary h given) ?_
  cases change with
  | updateUser input =>
      simp only [AccountChange.assign, given, bind, Except.bind] at ok
      split at ok
      · cases ok
      · exact ok
  | restoreUser role' =>
      simp only [AccountChange.assign, given] at ok
      exact ok
  | deleteUser => cases given

theorem row_ok (before : Within U t prev.role)
    (given : ∀ role, change.newRole prev = some role → TextWithin U t role)
    (ok : change.row rules t prev = .ok user) : user.id = prev.id ∧ Within U t user.role := by
  unfold AccountChange.row at ok
  simp only [bind, Except.bind] at ok
  cases change with
  | updateUser input =>
      simp only at ok
      split at ok
      · cases ok
        exact ⟨rfl, before⟩
      · rename_i role named
        split at ok
        · cases ok
        rename_i stored found
        have text := storedRole_ok found
        have within : Within U t (some stored) := by
          by_cases same : role = RoleCode.text prev.role
          · cases had : prev.role with
            | none =>
                rw [had] at same
                exact absurd (text.trans same) stored.ne_empty
            | some code =>
                rw [had] at same before
                obtain rfl : stored = code := Subtype.ext (text.trans same)
                exact before
          · refine within_of_textWithin (given stored.1 ?_)
            have nonempty := stored.ne_empty
            rw [text] at nonempty
            rw [AccountChange.newRole, named, Option.filter_some, text]
            simp [nonempty, same]
        split at ok
        · split at ok <;> cases ok
          exact ⟨rfl, within⟩
        · cases ok
          exact ⟨rfl, within⟩
  | restoreUser role =>
      simp only at ok
      split at ok
      · cases ok
      rename_i stored found
      split at ok <;> cases ok
      refine ⟨rfl, within_of_textWithin ?_⟩
      rw [← storedRole_ok found] at given
      exact given stored.1 rfl
  | deleteUser =>
      simp only at ok
      split at ok
      · split at ok <;> cases ok
        exact ⟨rfl, before⟩
      · cases ok
        exact ⟨rfl, before⟩

/-! ## The statements -/

namespace AdminOutcome

theorem read (h : Contained U admins t) (own : KnowsAdmin U i t next) : AdminOutcome U admins i t t next :=
  ⟨h, own, .refl⟩

theorem after (leaves : LeavesAdmin U i t t') {u : UserTables} (h : AdminOutcome U admins i t' u next) :
    AdminOutcome U admins i t u next :=
  ⟨h.contained, h.own, leaves.trans h.others⟩

theorem settle {result : Except UserAdminError UserTables}
    (runs : some (t.settle i result) = some (t', next)) (h : Contained U admins t)
    (writes : ∀ written, result = .ok written → AdminWrite U admins i t written) :
    AdminOutcome U admins i t t' next := by
  cases result with
  | error refusal =>
      cases runs
      exact ⟨h.withLocks _, trivial, LeavesAdmin.refl.release⟩
  | ok written =>
      cases runs
      have write := writes written rfl
      exact ⟨write.contained.withLocks _, trivial, write.leaves.release⟩

theorem check {α : Type} {result : Except UserAdminError α} {goOn : α → UserAdminProgress}
    (runs : some (t.check i result goOn) = some (t', next)) (h : Contained U admins t)
    (own : ∀ a, result = .ok a → KnowsAdmin U i t (goOn a)) : AdminOutcome U admins i t t' next := by
  cases result with
  | error refusal =>
      cases runs
      exact ⟨h.withLocks _, trivial, LeavesAdmin.refl.release⟩
  | ok a =>
      cases runs
      exact .read h (own a rfl)

end AdminOutcome

theorem map_ok {α β : Type} {result : Except UserAdminError α} {f : α → β} {b : β}
    (ok : result.map f = .ok b) : ∃ a, result = .ok a ∧ f a = b := by
  cases result with
  | error refusal => cases ok
  | ok a => exact ⟨a, rfl, Except.ok.inj ok⟩

theorem prepareRole_ok {input : RoleCreateInput} {role : RoleCode × List String} (below : grantor.Below U)
    (ok : prepareRole rules catalog grantor input = .ok role) : ∀ key ∈ role.2, key ∈ U := by
  unfold prepareRole at ok
  simp only [bind, Except.bind] at ok
  split at ok
  · cases ok
  split at ok
  · cases ok
  rename_i within
  split at ok <;> cases ok
  exact mem_of_assertWithin below within

theorem begin_outcome (lower : KeepsRoleCodes rules) {call : UserAdminCall} (h : Contained U admins t)
    (within : Within U t actor.role) (runs : begin rules catalog i t actor call = some (t', next)) :
    AdminOutcome U admins i t t' next := by
  have below := grantorPermissions_below lower within
  cases call with
  | createRole input =>
      exact .check runs h fun role ok => prepareRole_ok below ok
  | updateRole roleId input =>
      cases runs
      exact .read h ⟨below, nofun⟩
  | deleteRole roleId =>
      cases runs
      exact .read h ⟨below, nofun⟩
  | createUser input =>
      refine .check runs h fun _ ok => ⟨below, ?_⟩
      rintro _ ⟨⟩ admin
      exact mayTouch_ok within ok (List.mem_singleton.mpr admin.symm)
  | account targetUserId change =>
      simp only [begin] at runs
      split at runs
      · cases runs
        exact .read h trivial
      · obtain ⟨locks, taken, result⟩ := Option.map_eq_some_iff.mp runs
        cases result
        have leaves : LeavesAdmin U i t { t with locks } := leaves_take taken
        exact .after leaves (.read (h.withLocks locks) ⟨Locks.take_self taken, leaves.within within⟩)

theorem proceedGranted_outcome (lower : KeepsRoleCodes rules) {call : GrantedCall} {required : Bool}
    (h : Contained U admins t) (below : grantor.Below U)
    (ordinary : ∀ input, call = .createUser input → input.role ≠ "admin")
    (runs : proceedGranted rules catalog i t actor grantor required call = some (t', next)) :
    AdminOutcome U admins i t t' next := by
  cases call with
  | updateRole roleId input =>
      exact .settle runs h fun _ ok => updateRole_write h below ok
  | deleteRole roleId =>
      simp only [proceedGranted] at runs
      split at runs
      · cases runs
      · rename_i free
        exact .settle runs h fun _ ok => deleteRole_write lower h free ok
  | createUser input =>
      refine .check runs h fun _ ok => ?_
      simp only [bind, Except.bind] at ok
      split at ok
      · cases ok
      · rename_i within
        exact textWithin_of_assert h.keyed.roleCodes below (ordinary input rfl) within

theorem locked_outcome {targetUserId : ℕ} {required : Bool} (h : Contained U admins t)
    (knows : KnowsAdmin U i t (.locked actor targetUserId change))
    (runs : proceed rules catalog i t required (.locked actor targetUserId change) = some (t', next)) :
    AdminOutcome U admins i t t' next := by
  obtain ⟨set, within⟩ := knows
  obtain ⟨locks, taken, result⟩ := Option.map_eq_some_iff.mp runs
  have leaves : LeavesAdmin U i t { t with locks } := leaves_take taken
  refine .after leaves (.check (congrArg some result) (h.withLocks locks) fun prev ok => ?_)
  obtain ⟨found, ordinary⟩ := admit_ok within ok
  have same := List.find?_some found
  refine ⟨⟨Locks.take_keeps_own taken set, ?_, List.mem_of_find?_eq_some found⟩, ordinary, leaves.within within⟩
  rw [of_decide_eq_true same]
  exact Locks.take_self taken

theorem proceed_outcome (lower : KeepsRoleCodes rules) {required : Bool} (h : Contained U admins t)
    (knows : KnowsAdmin U i t progress)
    (runs : proceed rules catalog i t required progress = some (t', next)) :
    AdminOutcome U admins i t t' next := by
  cases progress with
  | waiting | identified | done => cases runs
  | sent actor call => exact begin_outcome lower h knows runs
  | granted actor grantor call => exact proceedGranted_outcome lower h knows.1 knows.2 runs
  | creatingRole code permissions =>
      exact .settle runs h fun _ ok => insertRole_write h knows ok
  | creatingUser input =>
      exact .settle runs h fun _ ok => insertUser_write h knows ok
  | locked actor targetUserId change => exact locked_outcome h knows runs
  | opened actor change prev =>
      cases runs
      exact .read h ⟨knows.1, knows.2.1, grantorPermissions_below lower knows.2.2⟩
  | weighed actor change prev grantor =>
      obtain ⟨holding, ordinary, below⟩ := knows
      refine .check runs h fun _ ok => ⟨holding, ordinary, below, within_of_textWithin ?_⟩
      exact textWithin_of_assert h.keyed.roleCodes below (fun admin => ordinary.prev (text_eq_admin.mp admin)) ok
  | manageable actor change prev grantor =>
      obtain ⟨holding, ordinary, below, before⟩ := knows
      exact .check runs h fun _ ok => ⟨holding, before, fun role given => assign_ok h.keyed below ordinary ok given⟩
  | ready change prev =>
      obtain ⟨holding, before, given⟩ := knows
      refine .settle runs h fun written ok => ?_
      obtain ⟨user, row, rfl⟩ := map_ok ok
      obtain ⟨same, after⟩ := row_ok before given row
      exact putUser_write h holding before same after _

/-- A request is identified by a live row, and only the group's are sent. -/
theorem userAdmin_outcome (lower : KeepsRoleCodes rules) {turn : UserAdminTurn} (h : Contained U admins t)
    (knows : KnowsAdmin U i t progress)
    (runs : userAdmin rules catalog i turn t progress = some (t', next)) :
    AdminOutcome U admins i t t' next := by
  unfold userAdmin at runs
  split at runs
  · obtain ⟨user, found, result⟩ := Option.map_eq_some_iff.mp runs
    cases result
    obtain ⟨found, live⟩ := Option.filter_eq_some_iff.mp found
    refine .read h (.inl ⟨user, List.mem_of_find?_eq_some found, rfl, rfl, ?_⟩)
    simpa using live
  · rename_i actor
    split at runs <;> cases runs
    rename_i known
    refine .read h ?_
    obtain ⟨user, mem, id, role, live⟩ | within := knows
    · rw [← id] at known
      have := h.within user mem known live
      rwa [role] at this
    · exact within
  · exact proceed_outcome lower h knows runs
  · cases runs

theorem userAdminOutline (catalog : List PermissionDefinition) (lower : KeepsRoleCodes rules) :
    Outline (userAdmin rules catalog) (fun _ _ _ _ => True) (Contained U admins) (KnowsAdmin U) where
  own h knows _ runs := by
    have outcome := userAdmin_outcome lower h knows runs
    exact ⟨outcome.contained, outcome.own⟩
  others apart h knows knowsOther _ runs :=
    KnowsAdmin.others knowsOther apart (userAdmin_outcome lower h knows runs).others

end Outline

/-! ## Every schedule -/

/-- A live account has the permission. -/
def UserTables.Holds (t : UserTables) (id : ℕ) (key : String) : Prop :=
  ∃ user ∈ t.users, user.id = id ∧ user.isDeleted = false ∧ t.can user.role key = true

/-- The permissions of the group. -/
def UserTables.held (t : UserTables) : Set String := {key | ∃ id ∈ t.controlled, t.Holds id key}

def User.isSystemAdmin (rules : CaseRules) (user : User) : Bool :=
  isSystemAdminRole rules (RoleCode.text user.role)

section Schedules

variable {rules : CaseRules} {t start : UserTables} {user : User}

theorem isSystemAdmin_iff (lower : KeepsRoleCodes rules) :
    user.isSystemAdmin rules = false ↔ user.role ≠ some .admin := by
  rw [User.isSystemAdmin, ← Bool.not_eq_true, isSystemAdminRole_text lower]

theorem held_of_role (keyed : t.Keyed) (mem : user ∈ t.users) (known : user.id ∈ t.controlled)
    (live : user.isDeleted = false) (ordinary : user.role ≠ some .admin) : Within t.held t user.role := by
  intro code named
  refine ⟨fun admin => ordinary (named.trans (congrArg some admin)), ?_⟩
  rintro role listed rfl key held
  refine ⟨user.id, known, user, mem, rfl, live, ?_⟩
  rw [named, UserTables.can, rolePermissions_of_mem keyed.roleCodes listed]
  simp [held]

/-- What the group holds is in `U` when its accounts are contained in `U`. -/
theorem held_subset {U : Set String} {admins : List User} (h : Contained U admins t) : t.held ⊆ U := by
  rintro key ⟨id, known, user, mem, rfl, live, can⟩
  unfold UserTables.can at can
  split at can
  · cases can
  · rename_i code named
    have bounded := h.within user mem known live code named
    rw [Bool.or_eq_true, decide_eq_true_eq, List.contains_iff_mem] at can
    obtain ⟨role, listed, same, held⟩ := mem_rolePermissions (can.resolve_left bounded.ordinary)
    exact bounded.permissions role listed (Subtype.ext same) key held

theorem contained_start (keyed : start.Keyed)
    (outsiders : ∀ user ∈ start.users, user.id ∈ start.controlled → user.role ≠ some .admin) :
    Contained start.held (start.users.filter fun user => user.role = some .admin) start where
  keyed := keyed
  ordinary := outsiders
  within user mem known live := held_of_role keyed mem known live (outsiders user mem known)
  admins user mem := by
    obtain ⟨listed, admin⟩ := List.mem_filter.mp mem
    exact ⟨of_decide_eq_true admin, listed⟩

/-- However a group of accounts without a system admin creates, edits and deletes roles and
accounts, its accounts together hold no permission that they did not hold at the start, none of
them is a system admin's, and a live system admin stays. -/
theorem no_escalation_by_granting (catalog : List PermissionDefinition) (lower : KeepsRoleCodes rules) (keyed : start.Keyed)
    (outsiders : ∀ user ∈ start.users, user.id ∈ start.controlled → user.isSystemAdmin rules = false)
    (schedule : List (ℕ × UserAdminTurn)) :
    let t := ((userAdmin rules catalog).after ⟨start, fun _ => .waiting⟩ schedule).shared
    t.held ⊆ start.held ∧
      (∀ user ∈ t.users, user.id ∈ t.controlled → user.isSystemAdmin rules = false) ∧
      ((∃ user ∈ start.users, user.isSystemAdmin rules = true ∧ user.isDeleted = false) →
        ∃ user ∈ t.users, user.isSystemAdmin rules = true ∧ user.isDeleted = false) := by
  have contained := contained_start keyed fun user mem known =>
    (isSystemAdmin_iff lower).mp (outsiders user mem known)
  have holds : Holds (Contained start.held (start.users.filter fun user => user.role = some .admin))
      (KnowsAdmin start.held) ⟨start, fun _ => .waiting⟩ := ⟨contained, fun _ => trivial⟩
  have after := ((userAdminOutline catalog lower).after holds schedule).shared
  refine ⟨held_subset after, fun user mem known => ?_, ?_⟩
  · exact (isSystemAdmin_iff lower).mpr (after.ordinary user mem known)
  · rintro ⟨user, mem, admin, live⟩
    have role : user.role = some .admin := by
      rw [User.isSystemAdmin, isSystemAdminRole_text lower] at admin
      exact admin
    have listed : user ∈ start.users.filter fun user => user.role = some .admin :=
      List.mem_filter.mpr ⟨mem, decide_eq_true role⟩
    exact ⟨user, (after.admins user listed).2, admin, live⟩

end Schedules

theorem asciiRules_keeps : KeepsRoleCodes asciiRules := by
  intro s chars
  have same : s.toList.map Char.toLower = s.toList := by
    conv_rhs => rw [← List.map_id s.toList]
    refine List.map_congr_left fun c mem => ?_
    have range := isRoleCodeChar_range (List.all_eq_true.mp chars c mem)
    have small : ¬(c.val ≥ 'A'.val ∧ c.val ≤ 'Z'.val) := by
      simp only [ge_iff_le, UInt32.le_iff_toNat_le]
      change ¬(65 ≤ c.toNat ∧ c.toNat ≤ 90)
      omega
    exact dif_neg small
  show String.ofList (s.toList.map Char.toLower) = s
  rw [same, String.ofList_toList]

/-- A clerk, the head of sales and the system admin; the clerk makes an account for itself. -/
def clerkTables : UserTables where
  roles := [⟨1, .admin, []⟩, ⟨2, ⟨"clerk", by decide +kernel⟩, ["users.manage"]⟩,
    ⟨3, ⟨"sales", by decide +kernel⟩, ["customers.manage"]⟩]
  users := [⟨1, "owner", some .admin, false⟩, ⟨2, "clerk", some ⟨"clerk", by decide +kernel⟩, false⟩,
    ⟨3, "sales", some ⟨"sales", by decide +kernel⟩, false⟩]
  nextRole := 4
  nextUser := 4
  locks := fun _ => none
  controlled := [2]

def clerkSchedule : List (ℕ × UserAdminTurn) :=
  [(0, .identify 2), (0, .send (.createUser ⟨"helper", "clerk"⟩)), (0, .proceed false), (0, .proceed false),
    (0, .proceed false)]

theorem no_escalation_by_granting_clerk :
    ((userAdmin asciiRules []).after ⟨clerkTables, fun _ => .waiting⟩ clerkSchedule).shared.controlled = [4, 2] ∧
      ((userAdmin asciiRules []).after ⟨clerkTables, fun _ => .waiting⟩ clerkSchedule).shared.held ⊆
        clerkTables.held := by
  refine ⟨by decide +kernel, ?_⟩
  refine (no_escalation_by_granting [] asciiRules_keeps ?_ ?_ clerkSchedule).1
  · exact ⟨by decide +kernel, by decide +kernel, by decide +kernel, by decide +kernel, by decide +kernel⟩
  · decide +kernel

end PapitalErp.UserAdmin
