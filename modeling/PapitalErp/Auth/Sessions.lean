import PapitalErp.Lib.CacheAside
import PapitalErp.Lib.Interleaving

/-!
# Signed-in devices

`sessionStore.ts`, `userSessions.service.ts`, `tokenVersionGrace.ts`, `resolveLiveSession` of
`middleware/auth.ts` and the routes that renew a cookie, in one server process. What runs between
two awaits is one statement; a transaction shows at its commit, so it is one statement too, and
what the code does after the await is the next. The two caches and the grace entries are maps of
the process. The bounded maps may forget an entry at any time, which the environment decides.

A device is known by the key of its session row: the `sid` of its token, or the key derived
from a token issued before rows were kept. A token whose key cannot be derived is refused by
`checkSession` and left out; an account that does not exist counts as a deleted one. Who may
close whose devices is left to the environment, and so are passwords and role permissions.

`changes`, `returned`, `closed` and `reissued` are history: the changes of a token version that
are committed, those whose cache entry has been dropped since, the devices that are signed out,
and the devices that were given a new session by a renewal.
-/

namespace PapitalErp.Sessions

open Interleaving CacheAside

/-! ## The server's state -/

inductive SessionKey where
  | own (n : ℕ)
  | legacy (n : ℕ)
  deriving DecidableEq

/-- The claims of a signed token. -/
structure Token where
  userId : ℕ
  sid : Option SessionKey
  legacySid : ℕ
  csrfToken : Bool
  version : ℕ
  exp : ℕ
  deriving DecidableEq

/-- `sessionIdOfClaims`. -/
def Token.key (token : Token) : SessionKey := token.sid.getD (.legacy token.legacySid)

/-- A row of `user_sessions`. -/
structure SessionRow where
  userId : ℕ
  revoked : Bool
  expiresAt : ℕ

structure Account where
  tokenVersion : ℕ
  isDeleted : Bool

/-- An entry of a cache, with the moment it was read. -/
structure Cached (α : Type) where
  entry : α
  cachedAt : ℕ

structure Grace where
  userId : ℕ
  previous : ℕ
  current : ℕ
  until_ : ℕ

/-- A committed change of an account's token version, and the device that made it for itself. -/
structure VersionChange where
  userId : ℕ
  device : Option SessionKey
  previous : ℕ
  current : ℕ

structure Server where
  rows : SessionKey → Option SessionRow
  accounts : ℕ → Account
  sessionCache : SessionKey → Option (Cached SessionRow)
  userAuthCache : ℕ → Option (Cached Account)
  graceBySid : SessionKey → Option Grace
  now : ℕ
  nextSid : ℕ
  tokens : List Token
  changes : List VersionChange
  returned : List VersionChange
  closed : ℕ → SessionKey → Bool
  reissued : List (ℕ × SessionKey)

def CACHE_TTL_MS : ℕ := 30000

def TOKEN_VERSION_GRACE_MS : ℕ := 60000

/-- A request: its token, and what had been closed and changed when it came. -/
structure Request where
  token : Token
  closedBefore : ℕ → SessionKey → Bool
  changesBefore : List VersionChange

/-- What an accepted request goes on to do. -/
inductive Action where
  | closeOwnSession (key : SessionKey)
  | closeOtherOwnSessions
  | closeUserSessionByAdmin (userId : ℕ) (key : SessionKey)
  | closeAllUserSessionsByAdmin (userId : ℕ)
  | changeRole (userId : ℕ)
  | updateOwnPassword
  | renew
  deriving DecidableEq

/-- How far a process is. -/
inductive Progress where
  | idle
  | loggingIn (userId version : ℕ)
  | readingUser (request : Request) (since : ℕ)
  | userRead (request : Request) (since : ℕ) (row : Account)
  | readingSession (request : Request) (version since : ℕ) (adopted : Bool)
  | sessionRead (request : Request) (version since : ℕ) (adopted : Bool) (row : Option SessionRow)
  | adopting (request : Request) (version since : ℕ)
  /-- the check has passed, under the grace or not -/
  | accepted (request : Request) (grace : Bool)
  /-- one session is closed; its cache entry comes next -/
  | sessionClosed (userId : ℕ) (key : SessionKey)
  /-- a version is raised, with the sessions closed in the same transaction -/
  | versionRaised (change : VersionChange) (keys : SessionKey → Bool) (by_ : Option Request)
  | changingPassword (request : Request) (version : ℕ)
  | renewing (request : Request) (version : ℕ)
  | renewed (request : Request) (version : ℕ)

/-- What the environment decides. -/
inductive Turn where
  | tick (ms : ℕ)
  | forgetSession (key : SessionKey)
  | forgetUser (userId : ℕ)
  | forgetGrace (key : SessionKey)
  | login (userId : ℕ)
  | present (token : Token)
  | logout (token : Token)
  | act (action : Action)
  /-- the next statement; a session it writes lives this long -/
  | proceed (lifetime : ℕ)

namespace Server

variable (s : Server)

/-! ## Statements on the rows -/

/-- The user has a row under the key. -/
def hasRow (userId : ℕ) (key : SessionKey) : Bool := (s.rows key).any (·.userId = userId)

def isOpen (userId : ℕ) (key : SessionKey) : Bool :=
  (s.rows key).any fun row => row.userId = userId && !row.revoked

/-- `insertSession`, and the token that names the row. -/
def issueSession (userId version lifetime : ℕ) : Server :=
  { s with
    rows := Function.update s.rows (.own s.nextSid) (some ⟨userId, false, s.now + lifetime⟩)
    nextSid := s.nextSid + 1
    tokens := ⟨userId, some (.own s.nextSid), 0, true, version, s.now + lifetime⟩ :: s.tokens }

/-- `adoptLegacySession`; the row of another process stays. -/
def adoptLegacySession (token : Token) : Server :=
  match s.rows token.key with
  | some _ => s
  | none =>
      let expiresAt := if 0 < token.exp then token.exp else s.now + 24 * 60 * 60 * 1000
      { s with rows := Function.update s.rows token.key (some ⟨token.userId, false, expiresAt⟩) }

/-- `closeRow`. -/
def closeRow (key : SessionKey) : Server :=
  { s with rows := Function.update s.rows key ((s.rows key).map fun row => { row with revoked := true }) }

/-- The upsert of `closeSessionOnLogout`. -/
def closeSessionOnLogout (token : Token) : Server :=
  match s.rows token.key with
  | some row => if row.userId = token.userId then s.closeRow token.key else s
  | none => { s with rows := Function.update s.rows token.key (some ⟨token.userId, true, token.exp⟩) }

/-- `UPDATE users SET token_version`. -/
def setVersion (userId version : ℕ) : Server :=
  { s with accounts := Function.update s.accounts userId { s.accounts userId with tokenVersion := version } }

/-- The version of an account goes up; a device that raises it for itself is named. -/
def raiseVersion (change : VersionChange) : Server :=
  { s.setVersion change.userId change.current with changes := change :: s.changes }

/-- The open sessions of a user but for the current device's. -/
def otherSessions (userId : ℕ) (current : Option SessionKey) (key : SessionKey) : Bool :=
  s.isOpen userId key && some key ≠ current

/-- Old tokens of the user whose first request has not written their row: a raised version is
what signs them out. -/
def unadopted (userId : ℕ) (current : Option SessionKey) (key : SessionKey) : Bool :=
  s.tokens.any (fun token => token.userId = userId && token.key = key) && !s.hasRow userId key &&
    some key ≠ current

/-- The transaction of `closeOtherOwnSessions` and of `closeAllUserSessionsByAdmin`. -/
def closeSessions (change : VersionChange) : Server :=
  { s.raiseVersion change with
    rows := fun key =>
      if s.otherSessions change.userId change.device key then
        (s.rows key).map fun row => { row with revoked := true }
      else s.rows key
    closed := fun userId key =>
      s.closed userId key || userId = change.userId && s.unadopted change.userId change.device key }

/-- The next version of an account. -/
def nextVersion (userId : ℕ) (device : Option SessionKey) : VersionChange :=
  ⟨userId, device, (s.accounts userId).tokenVersion, (s.accounts userId).tokenVersion + 1⟩

/-! ## The caches -/

/-- `invalidateSessionCache` after a close: the close returns. -/
def dropSession (userId : ℕ) (key : SessionKey) : Server :=
  { s with
    sessionCache := drop s.sessionCache key
    closed := fun u k => s.closed u k || (u = userId && k = key) }

/-- After the commit of a raised version: `allowPreviousTokenVersion` for the device that raised
it itself, then the user's and the closed sessions' cache entries are dropped. -/
def dropVersion (change : VersionChange) (keys : SessionKey → Bool) : Server :=
  { s with
    graceBySid :=
      match change.device with
      | none => s.graceBySid
      | some key =>
          fill s.graceBySid key ⟨change.userId, change.previous, change.current, s.now + TOKEN_VERSION_GRACE_MS⟩
    userAuthCache := drop s.userAuthCache change.userId
    sessionCache := dropWhere s.sessionCache keys
    closed := fun u k => s.closed u k || (u = change.userId && keys k)
    returned := change :: s.returned }

def freshUser (userId : ℕ) : Option Account :=
  ((s.userAuthCache userId).filter fun c => s.now - c.cachedAt < CACHE_TTL_MS).map (·.entry)

def freshSession (key : SessionKey) : Option SessionRow :=
  ((s.sessionCache key).filter fun c => s.now - c.cachedAt < CACHE_TTL_MS).map (·.entry)

/-- `previousTokenVersionAccepted`. -/
def previousTokenVersionAccepted (token : Token) (dbVersion : ℕ) : Bool :=
  (s.graceBySid token.key).any fun g =>
    s.now < g.until_ && g.userId = token.userId && g.previous = token.version && g.current = dbVersion

/-! ## The request check -/

/-- The end of `checkSession`, with the session it found. -/
def checkRow (request : Request) (version since : ℕ) (row : SessionRow) : Progress :=
  if row.userId ≠ request.token.userId ∨ row.revoked ∨ (0 < row.expiresAt ∧ row.expiresAt ≤ since) then .idle
  else .accepted request (request.token.version ≠ version)

/-- The start of `checkSession`. -/
def checkSession (request : Request) (version : ℕ) : Progress :=
  match s.freshSession request.token.key with
  | some row => checkRow request version s.now row
  | none => .readingSession request version s.now false

/-- `resolveLiveSession` once it has the account. -/
def checkUser (request : Request) (account : Account) : Server × Progress :=
  let refused := ({ s with userAuthCache := drop s.userAuthCache request.token.userId }, Progress.idle)
  if account.isDeleted then refused
  else if request.token.version ≠ account.tokenVersion ∧
      ¬s.previousTokenVersionAccepted request.token account.tokenVersion then refused
  else (s, s.checkSession request account.tokenVersion)

/-- `resolveLiveSession` up to its first await. -/
def present (token : Token) : Server × Progress :=
  let request : Request := ⟨token, s.closed, s.returned⟩
  match s.freshUser token.userId with
  | some account => s.checkUser request account
  | none => (s, .readingUser request s.now)

/-! ## Actions -/

/-- `refuseTokenGrace` stands before each of them; `meHandler` and `csrfHandler` renew the
cookie of a token without a CSRF value. -/
def act (request : Request) : Action → Server × Progress
  | .closeOwnSession key =>
      if s.isOpen request.token.userId key ∧ key ≠ request.token.key then
        (s.closeRow key, .sessionClosed request.token.userId key)
      else (s, .idle)
  | .closeOtherOwnSessions =>
      if (s.accounts request.token.userId).isDeleted then (s, .idle)
      else
        let change := s.nextVersion request.token.userId (some request.token.key)
        (s.closeSessions change,
          .versionRaised change (s.otherSessions request.token.userId (some request.token.key)) (some request))
  | .closeUserSessionByAdmin userId key =>
      if s.isOpen userId key then (s.closeRow key, .sessionClosed userId key) else (s, .idle)
  | .closeAllUserSessionsByAdmin userId =>
      let change := s.nextVersion userId none
      (s.closeSessions change, .versionRaised change (s.otherSessions userId none) none)
  | .changeRole userId =>
      let change := s.nextVersion userId none
      (s.raiseVersion change, .versionRaised change (fun _ => false) none)
  | .updateOwnPassword => (s, .changingPassword request (s.accounts request.token.userId).tokenVersion)
  | .renew =>
      if request.token.csrfToken ∨ (s.accounts request.token.userId).isDeleted then (s, .idle)
      else (s, .renewing request (s.accounts request.token.userId).tokenVersion)

/-- The write of `updateOwnProfile`, one above the version it read. -/
def writePassword (request : Request) (version : ℕ) : Server × Progress :=
  let change : VersionChange := ⟨request.token.userId, some request.token.key, version, version + 1⟩
  (s.raiseVersion change, .versionRaised change (fun _ => false) (some request))

/-- `renewSessionCookie`: the row takes a new expiry, or a new session is issued. -/
def renewSession (request : Request) (version lifetime : ℕ) : Server × Progress :=
  if s.isOpen request.token.userId request.token.key then
    ({ s with
        rows := Function.update s.rows request.token.key
          ((s.rows request.token.key).map fun row => { row with expiresAt := s.now + lifetime }) },
      .renewed request version)
  else
    ({ s.issueSession request.token.userId version lifetime with
        reissued := (request.token.userId, request.token.key) :: s.reissued }, .idle)

/-- The rest of `renewSessionCookie` on its own row. -/
def signRenewed (request : Request) (version lifetime : ℕ) : Server :=
  { s with
    sessionCache := drop s.sessionCache request.token.key
    tokens := ⟨request.token.userId, some request.token.key, 0, true, version, s.now + lifetime⟩ :: s.tokens }

/-- The next statement of a process. -/
def proceed (lifetime : ℕ) : Progress → Option (Server × Progress)
  | .loggingIn userId version => some (s.issueSession userId version lifetime, .idle)
  | .readingUser request since => some (s, .userRead request since (s.accounts request.token.userId))
  | .userRead request since row =>
      some ({ s with userAuthCache := fill s.userAuthCache request.token.userId ⟨row, since⟩ }.checkUser request row)
  | .readingSession request version since adopted =>
      some (s, .sessionRead request version since adopted (s.rows request.token.key))
  | .sessionRead request version since adopted none =>
      if request.token.sid = none ∧ ¬adopted then some (s, .adopting request version since) else some (s, .idle)
  | .sessionRead request version since _ (some row) =>
      some ({ s with sessionCache := fill s.sessionCache request.token.key ⟨row, s.now⟩ },
        checkRow request version since row)
  | .adopting request version since =>
      some (s.adoptLegacySession request.token, .readingSession request version since true)
  | .sessionClosed userId key => some (s.dropSession userId key, .idle)
  | .versionRaised change keys none => some (s.dropVersion change keys, .idle)
  | .versionRaised change keys (some request) =>
      some (s.dropVersion change keys, .renewing request change.current)
  | .changingPassword request version => some (s.writePassword request version)
  | .renewing request version => some (s.renewSession request version lifetime)
  | .renewed request version => some (s.signRenewed request version lifetime, .idle)
  | .idle | .accepted _ _ => none

end Server

/-- The server's processes: logins, requests with a token that was signed, and log-outs. -/
def serve : Program ℕ Turn Server Progress :=
  fun _ turn s progress =>
    match turn, progress with
    | .tick ms, progress => some ({ s with now := s.now + ms }, progress)
    | .forgetSession key, progress => some ({ s with sessionCache := drop s.sessionCache key }, progress)
    | .forgetUser userId, progress => some ({ s with userAuthCache := drop s.userAuthCache userId }, progress)
    | .forgetGrace key, progress => some ({ s with graceBySid := drop s.graceBySid key }, progress)
    | .login userId, .idle =>
        if (s.accounts userId).isDeleted then none else some (s, .loggingIn userId (s.accounts userId).tokenVersion)
    | .present token, .idle => if token ∈ s.tokens then some (s.present token) else none
    | .logout token, .idle =>
        if token ∈ s.tokens then
          some (s.closeSessionOnLogout token, .sessionClosed token.userId token.key)
        else none
    | .act action, .accepted request grace =>
        if grace then some (s, .idle) else some (s.act request action)
    | .proceed lifetime, progress => s.proceed lifetime progress
    | _, _ => none

end PapitalErp.Sessions
