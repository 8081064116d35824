import PapitalErp.Lib.Transition
import PapitalErp.Lib.EventLog

/-!
# Buyer accounts of the site

A buyer signs in with a password, with a proof of the phone by SMS, or with the
one-time link a colleague made, and then presents a session. A password is checked
against a row read before the transaction; a sign-up, a wholesale form and an SMS
sign-in of one phone are serialized by an advisory lock; a link is locked before its
account. From the row lock of the account on, nothing a transaction has read changes
before it commits, so this part of each transaction is one step, as is a statement
that stands alone.

Tokens are numbers drawn once each, and a password hash is its salt with the password
it was made of: no hash matches another password. Names, groups, customers and the
strength of passwords decide nothing here and are left out. The log records what was
done, for the statements only: no step reads it.
-/

namespace PapitalErp.BuyerAccounts

open Transition

def LOGIN_FAILURES_MAX : ℕ := 5
def LOGIN_LOCK_MS : ℕ := 15 * 60000
def SESSION_MS : ℕ := 30 * 24 * 3600000
def PASSWORD_LINK_MS : ℕ := 48 * 3600000
def PHONE_PROOF_TTL_MS : ℕ := 600 * 1000

inductive AccountStatus
  | pending
  | active
  | suspended
  deriving DecidableEq

inductive ApplicationStatus
  | none
  | pending
  | approved
  | declined
  deriving DecidableEq

/-- A stored password: the salt drawn for it, and the password. -/
structure PasswordHash where
  salt : ℕ
  password : String
  deriving DecidableEq

/-- A row of `storefront_buyer_accounts`; an empty password hash is none. -/
structure Account where
  id : ℕ
  phoneKey : String
  status : AccountStatus
  applicationStatus : ApplicationStatus
  passwordHash : Option PasswordHash
  phoneVerifiedAt : Option ℕ
  failedLogins : ℕ
  lockedUntil : Option ℕ
  version : ℕ

structure Session where
  id : ℕ
  accountId : ℕ
  expiresAt : ℕ
  revokedAt : Option ℕ

/-- A row of `storefront_password_tokens`. -/
structure Link where
  id : ℕ
  accountId : ℕ
  expiresAt : ℕ
  usedAt : Option ℕ

/-- The phone proof of a verified code. -/
structure PhoneProof where
  id : ℕ
  phoneKey : String
  expiresAt : ℕ
  usedAt : Option ℕ

/-- What a buyer presents. -/
inductive Credential
  | session (id : ℕ)
  | link (id : ℕ)
  | password (salt : ℕ)
  deriving DecidableEq

/-- What was done with an account. -/
inductive Event
  | activated (accountId : ℕ)
  | suspended (accountId : ℕ)
  /-- the credential may be presented from now on -/
  | made (credential : Credential) (accountId : ℕ)
  /-- what was made before is closed, the password only if `password` says so -/
  | closed (accountId : ℕ) (password : Bool)
  | accepted (credential : Credential) (accountId : ℕ) (time : ℕ)
  | signedIn (accountId : ℕ)
  | locked (accountId : ℕ) (lockEnd : ℕ)
  | lifted (accountId : ℕ)
  | proofUsed (proof : ℕ)

/-- How far a request is. -/
inductive Phase
  | idle
  /-- `registerAccount` before its transaction -/
  | registering (phoneKey : String) (hash : PasswordHash) (proof : Option ℕ) (needed : Bool)
  /-- a wholesale form without a session -/
  | applying (phoneKey : String) (proof : Option ℕ) (needed : Bool)
  /-- a wholesale form from the account -/
  | applyingFrom (accountId : ℕ) (phoneKey : String)
  | smsSigningIn (phoneKey : String) (proof : ℕ)
  /-- the advisory lock of the phone is held, and the proof is checked and used -/
  | proven (request : Phase) (proof : Option ℕ) (verifiedAt : Option ℕ)
  /-- `signIn` has read the account and checked the password against its hash -/
  | signingIn (accountId : ℕ) (found : Option PasswordHash) (matched : Bool)
  /-- `setPasswordWithLink` has read the link and hashed the new password -/
  | settingPassword (linkId : ℕ) (hash : PasswordHash)
  /-- it has the row of the link, unused and not expired -/
  | linkLocked (linkId accountId : ℕ) (hash : PasswordHash)

structure Tables where
  now : ℕ
  /-- the site and its orders are on -/
  isOpen : Bool
  smsLoginOn : Bool
  accounts : List Account
  sessions : List Session
  links : List Link
  proofs : List PhoneProof
  /-- the last number drawn for a row, a token or a salt -/
  drawn : ℕ
  phoneLocks : String → Option ℕ
  linkLocks : ℕ → Option ℕ
  phase : ℕ → Phase
  log : List Event

inductive Refusal
  | notFound
  | phoneProofInvalid
  | accountExists
  | accountNotFound
  | signInLocked
  | signInFailed
  | accountSuspended
  | accountPending
  | applicationExists
  | passwordLinkInvalid
  | sessionRequired
  | buyerNotFound
  | staleVersion
  | buyerNotPending
  | buyerNotActive
  | buyerNotSuspended
  /-- the lock is another transaction's: the request waits -/
  | locked
  /-- not the next statement of the request -/
  | notPossible

/-- What a colleague does. -/
inductive StaffAction
  | approve
  | decline
  | suspend
  | reactivate
  | newPasswordLink

section Statements

variable (t : Tables)

def byPhoneKey (phoneKey : String) : Option Account :=
  t.accounts.find? fun account => account.phoneKey = phoneKey

def byId (id : ℕ) : Option Account := t.accounts.find? fun account => account.id = id

def accountOf (id : ℕ) (refusal : Refusal) : Except Refusal Account :=
  match byId t id with
  | some account => .ok account
  | none => .error refusal

def withAccount (id : ℕ) (change : Account → Account) : List Account :=
  t.accounts.map fun account => if account.id = id then change account else account

/-- Whether the row is locked at this time. -/
def Account.isLocked (account : Account) (now : ℕ) : Bool :=
  account.lockedUntil.any fun lockEnd => now < lockEnd

/-- `revokeSessions` -/
def revokeSessions (accountId : ℕ) : List Session :=
  t.sessions.map fun session =>
    if session.accountId = accountId ∧ session.revokedAt = none then
      { session with revokedAt := some t.now }
    else session

/-- `closePasswordLinks` -/
def closePasswordLinks (accountId : ℕ) : List Link :=
  t.links.map fun link =>
    if link.accountId = accountId ∧ link.usedAt = none then { link with usedAt := some t.now }
    else link

/-- The account's unused links are not locked by another transaction. -/
def linksFree (accountId : ℕ) : Bool :=
  t.links.all fun link => link.accountId ≠ accountId || link.usedAt ≠ none || t.linkLocks link.id = none

def useProof (proof : Option ℕ) : List PhoneProof :=
  t.proofs.map fun row => if proof = some row.id then { row with usedAt := some t.now } else row

def newSession (accountId drawn : ℕ) : Session where
  id := drawn
  accountId := accountId
  expiresAt := t.now + SESSION_MS
  revokedAt := none

def newLink (accountId drawn : ℕ) : Link where
  id := drawn
  accountId := accountId
  expiresAt := t.now + PASSWORD_LINK_MS
  usedAt := none

/-- `consumePhoneProof`: a live, unused proof of the phone. -/
def proofLive (phoneKey : String) (proof : ℕ) : Bool :=
  t.proofs.any fun row =>
    row.id = proof && row.phoneKey = phoneKey && row.usedAt = none && t.now < row.expiresAt

/-- `provenPhoneAt`: when the proof of the phone was checked, if there is one. -/
def provenPhoneAt (phoneKey : String) (proof : Option ℕ) (needed : Bool) :
    Except Refusal (Option ℕ) :=
  match proof with
  | none => do
      ensure (needed = false) .phoneProofInvalid
      pure none
  | some proof => do
      ensure (proofLive t phoneKey proof = true) .phoneProofInvalid
      pure (some t.now)

/-- The end of a transaction or of a request without one. -/
def finished (p : ℕ) : Tables :=
  { t with
    phoneLocks := fun phoneKey => if t.phoneLocks phoneKey = some p then none else t.phoneLocks phoneKey
    linkLocks := fun id => if t.linkLocks id = some p then none else t.linkLocks id
    phase := Function.update t.phase p .idle }

def enter (p : ℕ) (phase : Phase) : Tables := { t with phase := Function.update t.phase p phase }

/-- The session row a presented token finds, with its account (`sessionAccount`). -/
def sessionAccount (session : ℕ) : Except Refusal Account :=
  match t.sessions.find? fun row => row.id = session ∧ row.revokedAt = none ∧ t.now < row.expiresAt with
  | none => .error .sessionRequired
  | some row => do
      let account ← accountOf t row.accountId .sessionRequired
      ensure (account.status = .active) .sessionRequired
      pure account

def proofEvent (proof : Option ℕ) : List Event := proof.toList.map .proofUsed

/-! ## The commits -/

/-- `registerAccount` -/
def register (phoneKey : String) (hash : PasswordHash) (proof verifiedAt : Option ℕ) :
    Except Refusal Tables := do
  ensure (byPhoneKey t phoneKey = none) .accountExists
  pure { t with
    accounts := t.accounts ++ [{
      id := t.drawn + 1
      phoneKey := phoneKey
      status := .active
      applicationStatus := .none
      passwordHash := some hash
      phoneVerifiedAt := verifiedAt
      failedLogins := 0
      lockedUntil := none
      version := 1 }]
    sessions := t.sessions ++ [newSession t (t.drawn + 1) (t.drawn + 2)]
    proofs := useProof t proof
    drawn := t.drawn + 2
    log := t.log ++ proofEvent proof ++ [.activated (t.drawn + 1),
      .made (.password hash.salt) (t.drawn + 1), .made (.session (t.drawn + 2)) (t.drawn + 1),
      .signedIn (t.drawn + 1)] }

/-- `applyForWholesale` without a session -/
def applyAnonymously (phoneKey : String) (proof verifiedAt : Option ℕ) : Except Refusal Tables := do
  ensure (byPhoneKey t phoneKey = none) .accountExists
  pure { t with
    accounts := t.accounts ++ [{
      id := t.drawn + 1
      phoneKey := phoneKey
      status := .pending
      applicationStatus := .pending
      passwordHash := none
      phoneVerifiedAt := verifiedAt
      failedLogins := 0
      lockedUntil := none
      version := 1 }]
    proofs := useProof t proof
    drawn := t.drawn + 1
    log := t.log ++ proofEvent proof }

/-- `applyForWholesale` from an account -/
def applyFromAccount (accountId : ℕ) (phoneKey : String) : Except Refusal Tables :=
  match byPhoneKey t phoneKey with
  | none => .error .accountExists
  | some existing => do
      ensure (existing.id = accountId) .accountExists
      ensure (existing.applicationStatus ≠ .pending ∧ existing.applicationStatus ≠ .approved)
        .applicationExists
      pure { t with
        accounts := withAccount t existing.id fun row =>
          { row with
            applicationStatus := .pending
            version := existing.version + 1 } }

/-- `smsSignIn` -/
def smsSignIn (phoneKey : String) (proof verifiedAt : Option ℕ) : Except Refusal Tables :=
  match byPhoneKey t phoneKey with
  | none => .error .accountNotFound
  | some account => do
      ensure (account.status ≠ .suspended) .accountSuspended
      ensure (account.status = .active) .accountPending
      if account.phoneVerifiedAt = none then do
        -- an account nobody proved is taken
        ensure (linksFree t account.id = true) .locked
        pure { t with
          accounts := withAccount t account.id fun row =>
            { row with
              phoneVerifiedAt := verifiedAt
              failedLogins := 0
              lockedUntil := none
              passwordHash := none
              version := account.version + 1 }
          sessions := revokeSessions t account.id ++ [newSession t account.id (t.drawn + 1)]
          links := closePasswordLinks t account.id
          proofs := useProof t proof
          drawn := t.drawn + 1
          log := t.log ++ proofEvent proof ++ [.lifted account.id, .closed account.id true,
            .made (.session (t.drawn + 1)) account.id, .signedIn account.id] }
      else
        pure { t with
          accounts := withAccount t account.id fun row =>
            { row with
              failedLogins := 0
              lockedUntil := none }
          sessions := t.sessions ++ [newSession t account.id (t.drawn + 1)]
          proofs := useProof t proof
          drawn := t.drawn + 1
          log := t.log ++ proofEvent proof ++ [.lifted account.id,
            .made (.session (t.drawn + 1)) account.id, .signedIn account.id] }

/-- The failed attempt in `signIn`'s transaction. -/
def countFailure (account : Account) : Tables :=
  let failures := account.failedLogins + 1
  if LOGIN_FAILURES_MAX ≤ failures then
    { t with
      accounts := withAccount t account.id fun row =>
        { row with
          failedLogins := 0
          lockedUntil := some (t.now + LOGIN_LOCK_MS) }
      log := t.log ++ [.locked account.id (t.now + LOGIN_LOCK_MS)] }
  else
    { t with
      accounts := withAccount t account.id fun row => { row with failedLogins := failures } }

/-- `signIn`'s transaction: the lock is not looked at again. -/
def signIn (accountId : ℕ) (found : Option PasswordHash) (matched : Bool) : Except Refusal Tables :=
  match byId t accountId with
  | none => .error .signInFailed
  | some account =>
      if matched = false ∨ account.passwordHash ≠ found then .ok (countFailure t account)
      else do
        ensure (account.status = .active) .accountSuspended
        pure { t with
          accounts := withAccount t account.id fun row =>
            { row with
              failedLogins := 0
              lockedUntil := none }
          sessions := t.sessions ++ [newSession t account.id (t.drawn + 1)]
          drawn := t.drawn + 1
          log := t.log ++ found.toList.map (fun hash => .accepted (.password hash.salt) account.id t.now) ++
            [.lifted account.id, .made (.session (t.drawn + 1)) account.id, .signedIn account.id] }

/-- `setPasswordWithLink`, the row of the link in hand. -/
def setPassword (linkId accountId : ℕ) (hash : PasswordHash) : Except Refusal Tables := do
  let account ← accountOf t accountId .passwordLinkInvalid
  ensure (account.status = .active) .passwordLinkInvalid
  pure { t with
    accounts := withAccount t account.id fun row =>
      { row with
        passwordHash := some hash
        failedLogins := 0
        lockedUntil := none
        version := account.version + 1 }
    sessions := revokeSessions t account.id ++ [newSession t account.id (t.drawn + 1)]
    links := t.links.map fun link =>
      if link.id = linkId then { link with usedAt := some t.now } else link
    drawn := t.drawn + 1
    log := t.log ++ [.accepted (.link linkId) account.id t.now, .lifted account.id,
      .closed account.id true, .made (.password hash.salt) account.id,
      .made (.session (t.drawn + 1)) account.id, .signedIn account.id] }

/-- `approveBuyer`: an account nobody proved loses its password and sessions; the
earlier links are closed and a new one is made. -/
def approve (account : Account) : Except Refusal Tables := do
  ensure (account.applicationStatus = .pending ∨ account.applicationStatus = .declined) .buyerNotPending
  ensure (linksFree t account.id = true) .locked
  let links := closePasswordLinks t account.id ++ [newLink t account.id (t.drawn + 1)]
  if account.phoneVerifiedAt = none then
    pure { t with
      accounts := withAccount t account.id fun row =>
        { row with
          applicationStatus := .approved
          status := .active
          passwordHash := none
          failedLogins := 0
          lockedUntil := none
          version := account.version + 1 }
      sessions := revokeSessions t account.id
      links := links
      drawn := t.drawn + 1
      log := t.log ++ [.lifted account.id, .closed account.id true, .activated account.id,
        .made (.link (t.drawn + 1)) account.id] }
  else
    pure { t with
      accounts := withAccount t account.id fun row =>
        { row with
          applicationStatus := .approved
          status := .active
          failedLogins := 0
          lockedUntil := none
          version := account.version + 1 }
      links := links
      drawn := t.drawn + 1
      log := t.log ++ [.lifted account.id, .activated account.id,
        .made (.link (t.drawn + 1)) account.id] }

/-- `decline` and `suspend` of `buyerAction`: sessions end and unused links are closed. -/
def shut (account : Account) (applicationStatus : ApplicationStatus) (status : AccountStatus) :
    Except Refusal Tables := do
  ensure (linksFree t account.id = true) .locked
  pure { t with
    accounts := withAccount t account.id fun row =>
      { row with
        applicationStatus := applicationStatus
        status := status
        version := account.version + 1 }
    sessions := revokeSessions t account.id
    links := closePasswordLinks t account.id
    log := t.log ++ [.closed account.id false] ++
      if status = .suspended then [.suspended account.id] else [] }

/-- What a colleague does with the row of the account in hand. -/
def act (account : Account) : StaffAction → Except Refusal Tables
  | .approve => approve t account
  | .decline => do
      ensure (account.applicationStatus = .pending) .buyerNotPending
      shut t account .declined (if account.status = .pending then .suspended else account.status)
  | .suspend => do
      ensure (account.status = .active) .buyerNotActive
      shut t account account.applicationStatus .suspended
  | .reactivate => do
      ensure (account.status = .suspended) .buyerNotSuspended
      pure { t with
        accounts := withAccount t account.id fun row =>
          { row with
            status := .active
            failedLogins := 0
            lockedUntil := none
            version := account.version + 1 }
        log := t.log ++ [.lifted account.id, .activated account.id] }
  | .newPasswordLink => do
      ensure (account.status = .active) .buyerNotActive
      ensure (linksFree t account.id = true) .locked
      pure { t with
        accounts := withAccount t account.id fun row => { row with version := account.version + 1 }
        links := closePasswordLinks t account.id ++ [newLink t account.id (t.drawn + 1)]
        drawn := t.drawn + 1
        log := t.log ++ [.made (.link (t.drawn + 1)) account.id] }

def staff (accountId version : ℕ) (action : StaffAction) : Except Refusal Tables := do
  let account ← accountOf t accountId .buyerNotFound
  ensure (account.version = version) .staleVersion
  act t account action

end Statements

inductive Op
  | tick (ms : ℕ)
  /-- the switches of the site and of the sign-in by SMS -/
  | switch (isOpen smsLoginOn : Bool)
  /-- a code of the phone is verified, which makes a proof -/
  | verifyOtp (phoneKey : String)
  /-- `registerAccount` up to its transaction -/
  | askRegister (p : ℕ) (phoneKey password : String) (proof : Option ℕ)
  /-- `applyForWholesale` up to its transaction -/
  | askApply (p : ℕ) (phoneKey : String) (proof : Option ℕ)
  | askApplyFrom (p session : ℕ)
  /-- `smsSignIn` up to its transaction -/
  | askSmsSignIn (p : ℕ) (phoneKey : String) (proof : ℕ)
  /-- `signIn` up to its transaction -/
  | askSignIn (p : ℕ) (phoneKey password : String)
  /-- `setPasswordWithLink` up to its transaction -/
  | askSetPassword (p link : ℕ) (password : String)
  /-- the advisory lock of the phone, and what is checked first under it -/
  | lockPhone (p : ℕ)
  /-- the row of the link -/
  | lockLink (p : ℕ)
  /-- from the row of the account to the commit -/
  | commit (p : ℕ)
  /-- any refusal or failure ends the request -/
  | abort (p : ℕ)
  | signOut (session : ℕ)
  /-- any request that needs the account of a session -/
  | present (session : ℕ)
  | staff (accountId version : ℕ) (action : StaffAction)

section Step

variable (nfc : String → String) (t : Tables)

/-- `hashPassword`: a salt is drawn. -/
def hashPassword (password : String) : PasswordHash where
  salt := t.drawn + 1
  password := nfc password

/-- `verifyPassword`: an empty hash matches nothing. -/
def verifyPassword (password : String) (stored : Option PasswordHash) : Bool :=
  stored.any fun hash => hash.password = nfc password

/-- A request begins while the site is on. -/
def beginRequest (p : ℕ) (phase : Phase) : Except Refusal Tables :=
  match t.phase p with
  | .idle => do
      ensure (t.isOpen = true) .notFound
      pure (enter t p phase)
  | _ => .error .notPossible

/-- `signIn` before its transaction: the row is read and its lock looked at, and the
password is checked against the hash of that row. -/
def readForSignIn (p : ℕ) (phoneKey password : String) : Except Refusal Tables :=
  match byPhoneKey t phoneKey with
  | none => .error .signInFailed
  | some found => do
      ensure (found.isLocked t.now = false) .signInLocked
      beginRequest t p (.signingIn found.id found.passwordHash (verifyPassword nfc password found.passwordHash))

def readLink (p link : ℕ) (password : String) : Except Refusal Tables :=
  if t.links.any (fun row => row.id = link) then do
    let asked ← beginRequest t p (.settingPassword link (hashPassword nfc t password))
    pure { asked with drawn := t.drawn + 1 }
  else .error .passwordLinkInvalid

/-- The proof a request presents, and whether it needs one. -/
def Phase.proofOf : Phase → Option (String × Option ℕ × Bool)
  | .registering phoneKey _ proof needed => some (phoneKey, proof, needed)
  | .applying phoneKey proof needed => some (phoneKey, proof, needed)
  | .smsSigningIn phoneKey proof => some (phoneKey, some proof, true)
  | _ => none

def lockPhone (p : ℕ) : Except Refusal Tables :=
  match (t.phase p).proofOf with
  | none => .error .notPossible
  | some (phoneKey, proof, needed) => do
      ensure (t.phoneLocks phoneKey = none) .locked
      let verifiedAt ← provenPhoneAt t phoneKey proof needed
      pure { enter t p (.proven (t.phase p) proof verifiedAt) with
        phoneLocks := Function.update t.phoneLocks phoneKey (some p) }

def lockLink (p : ℕ) : Except Refusal Tables :=
  match t.phase p with
  | .settingPassword link hash =>
      match t.links.find? fun row => row.id = link with
      | none => .error .passwordLinkInvalid
      | some row => do
          ensure (t.linkLocks link = none) .locked
          ensure (row.usedAt = none ∧ t.now < row.expiresAt) .passwordLinkInvalid
          pure { enter t p (.linkLocked link row.accountId hash) with
            linkLocks := Function.update t.linkLocks link (some p) }
  | _ => .error .notPossible

def commit (p : ℕ) : Except Refusal Tables :=
  match t.phase p with
  | .proven (.registering phoneKey hash _ _) proof verifiedAt =>
      register t phoneKey hash proof verifiedAt
  | .proven (.applying phoneKey _ _) proof verifiedAt => applyAnonymously t phoneKey proof verifiedAt
  | .proven (.smsSigningIn phoneKey _) proof verifiedAt => smsSignIn t phoneKey proof verifiedAt
  | .applyingFrom accountId phoneKey => do
      ensure (t.phoneLocks phoneKey = none) .locked
      applyFromAccount t accountId phoneKey
  | .signingIn accountId found matched => signIn t accountId found matched
  | .linkLocked link accountId hash => setPassword t link accountId hash
  | _ => .error .notPossible

/-- One step of a request. A refused one changes nothing; a request that a lock stops
waits, that is, it is refused here and asks again. -/
def step : Op → Except Refusal Tables
  | .tick ms => .ok { t with now := t.now + ms }
  | .switch isOpen smsLoginOn => .ok { t with
      isOpen := isOpen
      smsLoginOn := smsLoginOn }
  | .verifyOtp phoneKey => .ok { t with
      proofs := t.proofs ++ [{
        id := t.drawn + 1
        phoneKey := phoneKey
        expiresAt := t.now + PHONE_PROOF_TTL_MS
        usedAt := none }]
      drawn := t.drawn + 1 }
  | .askRegister p phoneKey password proof => do
      ensure (t.smsLoginOn = true → proof.isSome = true) .phoneProofInvalid
      let asked ← beginRequest t p (.registering phoneKey (hashPassword nfc t password) proof t.smsLoginOn)
      pure { asked with drawn := t.drawn + 1 }
  | .askApply p phoneKey proof => do
      ensure (t.smsLoginOn = true → proof.isSome = true) .phoneProofInvalid
      beginRequest t p (.applying phoneKey proof t.smsLoginOn)
  | .askApplyFrom p session => do
      let account ← sessionAccount t session
      let asked ← beginRequest t p (.applyingFrom account.id account.phoneKey)
      pure { asked with log := t.log ++ [.accepted (.session session) account.id t.now] }
  | .askSmsSignIn p phoneKey proof => do
      ensure (t.smsLoginOn = true) .notFound
      beginRequest t p (.smsSigningIn phoneKey proof)
  | .askSignIn p phoneKey password => readForSignIn nfc t p phoneKey password
  | .askSetPassword p link password => readLink nfc t p link password
  | .lockPhone p => lockPhone t p
  | .lockLink p => lockLink t p
  | .commit p => do
      let done ← commit t p
      pure (finished done p)
  | .abort p => .ok (finished t p)
  | .signOut session => do
      ensure (t.isOpen = true) .notFound
      pure { t with
        sessions := t.sessions.map fun row =>
          if row.id = session ∧ row.revokedAt = none then { row with revokedAt := some t.now } else row }
  | .present session => do
      ensure (t.isOpen = true) .notFound
      let account ← sessionAccount t session
      pure { t with log := t.log ++ [.accepted (.session session) account.id t.now] }
  | .staff accountId version action => staff t accountId version action

end Step

/-- The site before its first account. -/
def start (now : ℕ) (isOpen smsLoginOn : Bool) : Tables where
  now := now
  isOpen := isOpen
  smsLoginOn := smsLoginOn
  accounts := []
  sessions := []
  links := []
  proofs := []
  drawn := 0
  phoneLocks _ := none
  linkLocks _ := none
  phase _ := .idle
  log := []

end PapitalErp.BuyerAccounts
