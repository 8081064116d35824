import PapitalErp.Workflow.Delegation

/-!
# Roles and accounts, administered by their holders

`roleAdmin.service.ts`, `userAccount.service.ts` and the grant boundary they share. A request
carries the role its account had when its row was last read, from the table or from the cache
of the guard; reading and sending are two statements, so the role may be as old as it likes.
A read outside a transaction and every read of a role inside one are statements of their own.
A role row is read, checked and written under its row lock and nothing else of that transaction
is read later, so this is one statement; the three account changes hold the lock of the system
admins and the row of the account from their first read to the commit.

Names, descriptions, display names, session versions and the audit row decide nothing and are
left out, and so are the route guards, which only refuse. The catalogue of permissions is a
parameter. `controlled` is not a table: it lists the accounts whose password the acting group
knows, which a created, restored or reset account joins.
-/

namespace PapitalErp.UserAdmin

open Interleaving TrimmedText

/-! ## Role codes -/

/-- A character of `ROLE_CODE_PATTERN`. -/
def isRoleCodeChar (c : Char) : Bool :=
  ('a' ≤ c && c ≤ 'z') || ('0' ≤ c && c ≤ '9') || c == '_' || c == '-'

/-- `ROLE_CODE_PATTERN`. -/
def matchesRoleCode (s : String) : Bool := s ≠ "" && s.toList.all isRoleCodeChar

/-- A code as `roles.code` holds it, which `users.role` references: `createRole` tests the
pattern, and the only other row is the baseline's. -/
def RoleCode := { code : String // matchesRoleCode code = true }
  deriving DecidableEq

namespace RoleCode

def admin : RoleCode := ⟨"admin", by decide +kernel⟩

/-- `role ?? ''`. -/
def text : Option RoleCode → String
  | none => ""
  | some code => code.1

end RoleCode

/-! ## The permission catalogue -/

structure PermissionDefinition where
  key : String
  requires : List String

section Catalogue

variable (catalog : List PermissionDefinition)

def isCatalogPermission (key : String) : Bool := catalog.any fun p => p.key == key

def permissionDefinition (key : String) : Option PermissionDefinition :=
  catalog.find? fun p => p.key == key

/-- `visit` of `requiredPermissionsOf`. Every call but the first is for a key just found, so it
goes no deeper than the catalogue is long. -/
def visitRequired : ℕ → String → List String → List String
  | 0, _, found => found
  | depth + 1, key, found =>
      (((permissionDefinition catalog key).map (·.requires)).getD []).foldl
        (fun found r => if r ∈ found then found else visitRequired depth r (found ++ [r])) found

def requiredPermissionsOf (key : String) : List String :=
  let found := (visitRequired catalog (catalog.length + 1) key []).erase key
  (catalog.map (·.key)).filter (· ∈ found)

def withRequiredPermissions (keys : List String) : List String :=
  let out := keys.eraseDups
  let needed := out.flatMap (requiredPermissionsOf catalog)
  out ++ (catalog.map (·.key)).filter fun k => k ∈ needed && k ∉ out

end Catalogue

/-! ## Tables -/

structure Role where
  id : ℕ
  code : RoleCode
  permissions : List String

structure User where
  id : ℕ
  username : String
  role : Option RoleCode
  isDeleted : Bool

/-- The advisory lock `SYSTEM_ADMIN_SET` and the row locks of accounts. -/
inductive UserLock where
  | systemAdminSet
  | user (id : ℕ)
  deriving DecidableEq

structure UserTables where
  roles : List Role
  users : List User
  nextRole : ℕ
  nextUser : ℕ
  locks : Locks UserLock ℕ
  controlled : List ℕ

def UserTables.rolePermissions (t : UserTables) (roleCode : String) : List String :=
  if roleCode = "" then []
  else ((t.roles.find? fun r => r.code.1 == roleCode).map (·.permissions)).getD []

/-- `can`, for one key. -/
def UserTables.can (t : UserTables) (role : Option RoleCode) (key : String) : Bool :=
  match role with
  | none => false
  | some code => code = .admin || (t.rolePermissions code.1).contains key

/-! ## The grant boundary -/

/-- `GrantorPermissions`. -/
inductive Grantor where
  | all
  | keys (own : List String)

/-- `permissionsBeyond`. -/
def Grantor.beyond : Grantor → List String → List String
  | .all, _ => []
  | .keys own, asked => (asked.filter (· ∉ own)).eraseDups

/-- `req.user`. -/
structure Actor where
  id : ℕ
  role : Option RoleCode

inductive UserAdminError where
  | unknownPermissions (keys : List String)
  | grantBeyondOwnPermissions (keys : List String)
  | ownRoleChangeRefused
  | roleCodeInvalid
  | roleCodeTaken
  | roleNotFound
  | systemAdminRoleFixed
  | systemAdminRoleKept
  | roleAssigned (users : ℕ)
  | roleUsedByWorkflow
  | onlyAdminManagesAdmins
  | syntheticUsername
  | usernameFormatInvalid
  | usernameTaken
  | usernameOfDeletedUser (id : ℕ)
  | usernameHeldByLiveUser
  | roleInvalid
  | roleMissing
  | userNotFound
  | userNotDeleted
  | ownAccountDeleted
  | lastSystemAdmin

section Boundary

variable (rules : CaseRules)

def Actor.isSystemAdmin (actor : Actor) : Bool := isSystemAdminRole rules (RoleCode.text actor.role)

/-- `grantorPermissions`, which reads the role's row. -/
def UserTables.grantorPermissions (t : UserTables) (actor : Actor) : Grantor :=
  if actor.isSystemAdmin rules then .all else .keys (t.rolePermissions (RoleCode.text actor.role))

/-- `assertGrantWithinOwn`, `assertRemovalWithinOwn`, and what `assertAssignableRole` and
`assertManageableAccount` test of the permissions they read. -/
def assertWithin (grantor : Grantor) (keys : List String) : Except UserAdminError Unit :=
  match grantor.beyond keys with
  | [] => .ok ()
  | beyond => .error (.grantBeyondOwnPermissions beyond)

def assertNotOwnRole (actor : Actor) (targetRoleCode : RoleCode) : Except UserAdminError Unit :=
  if ¬actor.isSystemAdmin rules ∧ actor.role ≠ none ∧
      rules.toLowerCase (RoleCode.text actor.role) = rules.toLowerCase targetRoleCode.1 then
    .error .ownRoleChangeRefused
  else .ok ()

def assertNotOwnAccountRole (actor : Actor) (targetUserId : ℕ) : Except UserAdminError Unit :=
  if ¬actor.isSystemAdmin rules ∧ actor.id = targetUserId then .error .ownRoleChangeRefused
  else .ok ()

def assertMayTouchAdminAccounts (actor : Actor) (targetRoles : List String) :
    Except UserAdminError Unit :=
  if RoleCode.text actor.role ≠ "admin" ∧ "admin" ∈ targetRoles then .error .onlyAdminManagesAdmins
  else .ok ()

end Boundary

/-! ## Roles -/

structure RoleCreateInput where
  code : String
  permissions : List String

structure RoleUpdateInput where
  permissions : Option (List String)

/-- `replace(/\s+/g, '_')`. -/
def underscoreBlanks (inBlank : Bool) : List Char → List Char
  | [] => []
  | c :: rest =>
      if isJsBlank c then if inBlank then underscoreBlanks true rest else '_' :: underscoreBlanks true rest
      else c :: underscoreBlanks false rest

section Roles

variable (rules : CaseRules) (catalog : List PermissionDefinition)

def slugCode (code : String) : String :=
  String.ofList (underscoreBlanks false (rules.toLowerCase (jsTrim code)).toList)

/-- `createRole` up to its transaction; `grantor` is what it reads on the way. -/
def prepareRole (grantor : Grantor) (input : RoleCreateInput) :
    Except UserAdminError (RoleCode × List String) := do
  let unknown := input.permissions.filter fun p => !isCatalogPermission catalog p
  if unknown ≠ [] then throw (.unknownPermissions unknown)
  let permissions := withRequiredPermissions catalog input.permissions
  assertWithin grantor permissions
  if matches_ : matchesRoleCode (slugCode rules input.code) = true then
    return (⟨slugCode rules input.code, matches_⟩, permissions)
  else throw .roleCodeInvalid

/-- The transaction of `createRole`. -/
def UserTables.insertRole (t : UserTables) (code : RoleCode) (permissions : List String) :
    Except UserAdminError UserTables :=
  if t.roles.any (·.code = code) then .error .roleCodeTaken
  else .ok { t with roles := t.roles ++ [⟨t.nextRole, code, permissions⟩], nextRole := t.nextRole + 1 }

/-- The transaction of `updateRole`. -/
def UserTables.updateRole (t : UserTables) (actor : Actor) (grantor : Grantor) (roleId : ℕ)
    (input : RoleUpdateInput) : Except UserAdminError UserTables := do
  match t.roles.find? (·.id = roleId) with
  | none => throw .roleNotFound
  | some target =>
    assertNotOwnRole rules actor target.code
    if isSystemAdminRole rules target.code.1 ∧ (¬actor.isSystemAdmin rules ∨ input.permissions ≠ none) then
      throw .systemAdminRoleFixed
    let prevPermissions := target.permissions
    let requested := input.permissions.getD prevPermissions
    let unknown := requested.filter fun p => !isCatalogPermission catalog p && !prevPermissions.contains p
    if unknown ≠ [] then throw (.unknownPermissions unknown)
    let newPermissions := (input.permissions.map (withRequiredPermissions catalog)).getD prevPermissions
    assertWithin grantor (newPermissions.filter (· ∉ prevPermissions))
    assertWithin grantor (prevPermissions.filter (· ∉ newPermissions))
    return { t with roles := t.roles.map fun r =>
      if r.id = roleId then { r with permissions := newPermissions } else r }

/-- A deleted account that still names the role. -/
def User.namesDeleted (user : User) (code : RoleCode) : Bool := user.role = some code && user.isDeleted

/-- The transaction of `deleteRole`. -/
def UserTables.deleteRole (t : UserTables) (grantor : Grantor) (roleId : ℕ) (requiredByWorkflow : Bool) :
    Except UserAdminError UserTables := do
  match t.roles.find? (·.id = roleId) with
  | none => throw .roleNotFound
  | some target =>
    if isSystemAdminRole rules target.code.1 then throw .systemAdminRoleKept
    assertWithin grantor target.permissions
    let assigned := t.users.countP fun u => u.role = some target.code && !u.isDeleted
    if assigned ≠ 0 then throw (.roleAssigned assigned)
    if requiredByWorkflow then throw .roleUsedByWorkflow
    return { t with
      users := t.users.map fun u => if u.namesDeleted target.code then { u with role := none } else u
      roles := t.roles.filter (·.id ≠ roleId) }

end Roles

/-! ## Accounts -/

structure UserCreateInput where
  username : String
  role : String

structure UserUpdateInput where
  password : Option String
  role : Option String

/-- The three changes of an account that exists. -/
inductive AccountChange where
  | updateUser (input : UserUpdateInput)
  | restoreUser (role : String)
  | deleteUser

/-- The role the change gives, where it names one. -/
def AccountChange.role : AccountChange → Option String
  | .updateUser input => input.role
  | .restoreUser role => some role
  | .deleteUser => none

/-- `passwordChanged` of an update; a restored account has a new password. -/
def AccountChange.setsPassword : AccountChange → Bool
  | .updateUser input => input.password.any fun text => jsTrim text ≠ ""
  | .restoreUser _ => true
  | .deleteUser => false

def SYNTHETIC_TEST_USERNAME_PREFIXES : List String := ["testuser_", "test_", "e2e_"]

/-- A character of `USERNAME_PATTERN`. -/
def isUsernameChar (c : Char) : Bool :=
  ('A' ≤ c && c ≤ 'Z') || ('a' ≤ c && c ≤ 'z') || ('0' ≤ c && c ≤ '9') || ['.', '_', '-'].contains c

/-- `usernameFormatError` is null. -/
def isUsernameFormat (username : String) : Bool :=
  let name := (jsTrim username).toList
  name.all isUsernameChar && 3 ≤ name.length && name.length ≤ 50

section Accounts

variable (rules : CaseRules)

def isSyntheticTestUsername (username : String) : Bool :=
  SYNTHETIC_TEST_USERNAME_PREFIXES.any fun start => start.isPrefixOf (rules.toLowerCase (jsTrim username))

/-- The user's name under the key of `uq_users_username_key` is `usernameKey` of the other. -/
def User.hasKey (user : User) (username : String) : Bool :=
  rules.lower (btrim user.username) = rules.toLowerCase (btrim username)

/-- What `createUser` tests of its input before its transaction. -/
def checkUsername (username : String) : Except UserAdminError Unit := do
  if isSyntheticTestUsername rules username then throw .syntheticUsername
  if ¬isUsernameFormat username then throw .usernameFormatInvalid

/-- `assertRoleDefined`, and the foreign key where it looks no row up. -/
def UserTables.storedRole (t : UserTables) (role : String) : Except UserAdminError RoleCode :=
  match t.roles.find? fun r => r.code.1 == role with
  | some row => .ok row.code
  | none => .error (if role = "admin" ∨ role = "" then .roleMissing else .roleInvalid)

/-- `assertAssignableRole` and `assertManageableAccount`. -/
def UserTables.assertRoleWithin (t : UserTables) (grantor : Grantor) (role : String) :
    Except UserAdminError Unit :=
  assertWithin grantor (t.rolePermissions role)

/-- The transaction of `createUser`; whoever sends it knows the password. -/
def UserTables.insertUser (t : UserTables) (input : UserCreateInput) : Except UserAdminError UserTables := do
  let held := t.users.filter fun u => u.hasKey rules (jsTrim input.username)
  if held.any (!·.isDeleted) then throw .usernameTaken
  match held with
  | user :: _ => throw (.usernameOfDeletedUser user.id)
  | [] =>
    let role ← t.storedRole input.role
    return { t with
      users := t.users ++ [⟨t.nextUser, jsTrim input.username, some role, false⟩]
      nextUser := t.nextUser + 1
      controlled := t.nextUser :: t.controlled }

/-- The checks of a change once the account's row is locked. -/
def AccountChange.admit (change : AccountChange) (actor : Actor) (row : Option User) :
    Except UserAdminError User := do
  match row with
  | none => throw .userNotFound
  | some prev =>
    match change with
    | .updateUser input =>
        if prev.isDeleted then throw .userNotFound
        assertMayTouchAdminAccounts actor (RoleCode.text prev.role :: input.role.toList)
    | .restoreUser role =>
        if ¬prev.isDeleted then throw .userNotDeleted
        assertMayTouchAdminAccounts actor [RoleCode.text prev.role, role]
        if isSyntheticTestUsername rules prev.username then throw .syntheticUsername
    | .deleteUser =>
        if prev.isDeleted then throw .userNotFound
        assertMayTouchAdminAccounts actor [RoleCode.text prev.role]
    return prev

/-- The role an update gives, when it is another one; a restored account gets its role anew. -/
def AccountChange.newRole (change : AccountChange) (prev : User) : Option String :=
  match change with
  | .updateUser input => input.role.filter fun role => role ≠ "" && role ≠ RoleCode.text prev.role
  | .restoreUser role => some role
  | .deleteUser => none

/-- The check of a new role: not one's own account, and within the grantor's permissions. -/
def AccountChange.assign (change : AccountChange) (t : UserTables) (actor : Actor) (grantor : Grantor)
    (prev : User) : Except UserAdminError Unit := do
  match change, change.newRole prev with
  | .updateUser _, some role =>
      assertNotOwnAccountRole rules actor prev.id
      t.assertRoleWithin grantor role
  | .restoreUser _, some role => t.assertRoleWithin grantor role
  | _, _ => return ()

/-- `assertAnotherActiveAdmin`. -/
def UserTables.assertAnotherActiveAdmin (t : UserTables) (userId : ℕ) : Except UserAdminError Unit :=
  if t.users.any fun u => u.role = some .admin && !u.isDeleted && u.id ≠ userId then .ok ()
  else .error .lastSystemAdmin

/-- The row that the change writes. -/
def AccountChange.row (change : AccountChange) (t : UserTables) (prev : User) :
    Except UserAdminError User := do
  match change with
  | .updateUser input =>
      match input.role with
      | none => return prev
      | some role =>
          let stored ← t.storedRole role
          if prev.role = some .admin ∧ stored ≠ .admin then t.assertAnotherActiveAdmin prev.id
          return { prev with role := some stored }
  | .restoreUser role =>
      let stored ← t.storedRole role
      if t.users.any fun u => u.hasKey rules prev.username && !u.isDeleted && u.id ≠ prev.id then
        throw .usernameHeldByLiveUser
      return { prev with role := some stored, isDeleted := false }
  | .deleteUser =>
      if prev.role = some .admin then t.assertAnotherActiveAdmin prev.id
      return { prev with isDeleted := true }

/-- The update and the commit. -/
def UserTables.putUser (t : UserTables) (user : User) (setsPassword : Bool) : UserTables :=
  { t with
    users := t.users.map fun u => if u.id = user.id then user else u
    controlled := if setsPassword then user.id :: t.controlled else t.controlled }

end Accounts

/-! ## Requests -/

inductive UserAdminCall where
  | createRole (input : RoleCreateInput)
  | updateRole (roleId : ℕ) (input : RoleUpdateInput)
  | deleteRole (roleId : ℕ)
  | createUser (input : UserCreateInput)
  | account (targetUserId : ℕ) (change : AccountChange)

/-- A request that has read what its grantor holds. -/
inductive GrantedCall where
  | updateRole (roleId : ℕ) (input : RoleUpdateInput)
  | deleteRole (roleId : ℕ)
  | createUser (input : UserCreateInput)

/-- How far a request is. -/
inductive UserAdminProgress where
  | waiting
  /-- the account's row is read, or was when the guard cached it -/
  | identified (actor : Actor)
  | sent (actor : Actor) (call : UserAdminCall)
  | granted (actor : Actor) (grantor : Grantor) (call : GrantedCall)
  | creatingRole (code : RoleCode) (permissions : List String)
  | creatingUser (input : UserCreateInput)
  /-- with the lock of the system admins -/
  | locked (actor : Actor) (targetUserId : ℕ) (change : AccountChange)
  /-- with the account's row too -/
  | opened (actor : Actor) (change : AccountChange) (prev : User)
  | weighed (actor : Actor) (change : AccountChange) (prev : User) (grantor : Grantor)
  | manageable (actor : Actor) (change : AccountChange) (prev : User) (grantor : Grantor)
  | ready (change : AccountChange) (prev : User)
  | done (refusal : Option UserAdminError)

/-- What the environment decides: whose row is read, what is sent, and whether a workflow needs
the role. -/
inductive UserAdminTurn where
  | identify (userId : ℕ)
  | send (call : UserAdminCall)
  | proceed (requiredByWorkflow : Bool)

section Statements

variable (rules : CaseRules) (catalog : List PermissionDefinition)

namespace UserTables

/-- The end of a transaction gives its locks back. -/
def release (t : UserTables) (i : ℕ) : UserTables := { t with locks := t.locks.release i }

/-- A transaction is committed, or refused and rolled back. -/
def settle (t : UserTables) (i : ℕ) (result : Except UserAdminError UserTables) :
    UserTables × UserAdminProgress :=
  match result with
  | .ok written => (written.release i, .done none)
  | .error refusal => (t.release i, .done (some refusal))

/-- On to the next statement, unless the check refuses. -/
def check {α : Type} (t : UserTables) (i : ℕ) (result : Except UserAdminError α)
    (next : α → UserAdminProgress) : UserTables × UserAdminProgress :=
  match result with
  | .ok a => (t, next a)
  | .error refusal => (t.release i, .done (some refusal))

/-- Another transaction has locked a row that `deleteRole` rewrites. -/
def waitsForUser (t : UserTables) (i roleId : ℕ) : Bool :=
  (t.roles.filter (·.id = roleId)).any fun target => t.users.any fun u =>
    u.namesDeleted target.code && (t.locks (.user u.id)).any (· ≠ i)

end UserTables

/-- The first statement of a request that is sent. -/
def begin (i : ℕ) (t : UserTables) (actor : Actor) :
    UserAdminCall → Option (UserTables × UserAdminProgress)
  | .createRole input =>
      some (t.check i (prepareRole rules catalog (t.grantorPermissions rules actor) input)
        fun role => .creatingRole role.1 role.2)
  | .updateRole roleId input =>
      some (t, .granted actor (t.grantorPermissions rules actor) (.updateRole roleId input))
  | .deleteRole roleId =>
      some (t, .granted actor (t.grantorPermissions rules actor) (.deleteRole roleId))
  | .createUser input =>
      some (t.check i (assertMayTouchAdminAccounts actor [input.role])
        fun _ => .granted actor (t.grantorPermissions rules actor) (.createUser input))
  | .account targetUserId change =>
      match change, decide (actor.id = targetUserId) with
      | .deleteUser, true => some (t, .done (some .ownAccountDeleted))
      | _, _ => (t.locks.take i .systemAdminSet).map fun locks =>
          ({ t with locks }, .locked actor targetUserId change)

/-- The statement after the grantor's permissions are read outside a transaction. -/
def proceedGranted (i : ℕ) (t : UserTables) (actor : Actor) (grantor : Grantor) (requiredByWorkflow : Bool) :
    GrantedCall → Option (UserTables × UserAdminProgress)
  | .updateRole roleId input => some (t.settle i (t.updateRole rules catalog actor grantor roleId input))
  | .deleteRole roleId =>
      if t.waitsForUser i roleId then none
      else some (t.settle i (t.deleteRole rules grantor roleId requiredByWorkflow))
  | .createUser input =>
      some (t.check i (t.assertRoleWithin grantor input.role >>= fun _ => checkUsername rules input.username)
        fun _ => .creatingUser input)

/-- The next statement of request `i`. -/
def proceed (i : ℕ) (t : UserTables) (requiredByWorkflow : Bool) :
    UserAdminProgress → Option (UserTables × UserAdminProgress)
  | .sent actor call => begin rules catalog i t actor call
  | .granted actor grantor call => proceedGranted rules catalog i t actor grantor requiredByWorkflow call
  | .creatingRole code permissions => some (t.settle i (t.insertRole code permissions))
  | .creatingUser input => some (t.settle i (t.insertUser rules input))
  | .locked actor targetUserId change =>
      (t.locks.take i (.user targetUserId)).map fun locks =>
        ({ t with locks } : UserTables).check i ( AccountChange.admit rules change actor (t.users.find? (·.id = targetUserId)))
          fun prev => .opened actor change prev
  | .opened actor change prev => some (t, .weighed actor change prev (t.grantorPermissions rules actor))
  | .weighed actor change prev grantor =>
      some (t.check i (t.assertRoleWithin grantor (RoleCode.text prev.role))
        fun _ => .manageable actor change prev grantor)
  | .manageable actor change prev grantor =>
      some (t.check i (change.assign rules t actor grantor prev) fun _ => .ready change prev)
  | .ready change prev =>
      some (t.settle i ((change.row rules t prev).map fun user => t.putUser user change.setsPassword))
  | .waiting | .identified _ | .done _ => none

end Statements

/-- Every request: its account's row is read, it is sent by one of the group, it runs. -/
def userAdmin (rules : CaseRules) (catalog : List PermissionDefinition) :
    Program ℕ UserAdminTurn UserTables UserAdminProgress :=
  fun i turn t progress =>
    match turn, progress with
    | .identify userId, .waiting =>
        ((t.users.find? fun u => u.id = userId).filter (!·.isDeleted)).map fun user =>
          (t, .identified ⟨user.id, user.role⟩)
    | .send call, .identified actor => if actor.id ∈ t.controlled then some (t, .sent actor call) else none
    | .proceed requiredByWorkflow, progress => proceed rules catalog i t requiredByWorkflow progress
    | _, _ => none

end PapitalErp.UserAdmin
