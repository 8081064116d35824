import PapitalErp.Workflow.Delegation

/-!
# The lock of failed logins

A login with a wrong password is answered by the wrong credentials or by a lock. A lock is of a
username with an address, in the memory of the process, or of the account: in the database for a
username that has one, in memory for one that has none. The memory keeps its keys in the order of
their last failure and drops the oldest one when it is full.

A check of the locks reads the clock once, and so do the two counters of a failure. JavaScript's
`toLowerCase` is a parameter. The limiter of an address, which counts the answers of this route, and
the activity log are left out.
-/

namespace PapitalErp.LoginLockout

def LOCKOUT_THRESHOLD : ℕ := 5
def MAX_LOCK_MINUTES : ℕ := 30
def ACCOUNT_LOCKOUT_THRESHOLD : ℕ := 50
/-- In milliseconds, as every time here. -/
def STREAK_RESET_AFTER_MS : ℕ := 24 * 60 * 60 * 1000
def MAX_TRACKED_ENTRIES : ℕ := 10000

def lockMinutesForFailureCount (failureCount threshold : ℕ) : ℕ :=
  if failureCount < threshold then 0 else min MAX_LOCK_MINUTES (2 ^ (failureCount - threshold))

structure FailureState where
  count : ℕ
  lockedUntil : ℕ
  lastFailureAt : ℕ

/-- A map in the order of its insertions. -/
abbrev FailureMap := List (String × FailureState)

namespace FailureMap

variable (map : FailureMap) (key : String)

def get : Option FailureState := (map.find? fun entry => decide (entry.1 = key)).map Prod.snd

def delete : FailureMap := map.filter fun entry => decide (entry.1 ≠ key)

/-- The oldest entry goes when there are too many. -/
def bounded : FailureMap := if map.length > MAX_TRACKED_ENTRIES then map.tail else map

end FailureMap

/-- The state of a key after one more failure. -/
def nextFailure (prev : Option FailureState) (threshold now : ℕ) : FailureState :=
  let streak := match prev with
    | some prev => if now ≤ prev.lastFailureAt + STREAK_RESET_AFTER_MS then prev.count else 0
    | none => 0
  let count := streak + 1
  let lockMinutes := lockMinutesForFailureCount count threshold
  { count
    lockedUntil := if lockMinutes > 0 then now + lockMinutes * 60 * 1000 else (prev.map (·.lockedUntil)).getD 0
    lastFailureAt := now }

/-- `bumpMemoryCounter`: the map and the minutes of the lock the failure causes. -/
def bumpMemoryCounter (map : FailureMap) (key : String) (threshold now : ℕ) : FailureMap × ℕ :=
  let next := nextFailure (map.get key) threshold now
  (FailureMap.bounded (map.delete key ++ [(key, next)]), lockMinutesForFailureCount next.count threshold)

def activeMemoryLock (map : FailureMap) (key : String) (now : ℕ) : ℕ :=
  match map.get key with
  | some state => if state.lockedUntil > now then state.lockedUntil else 0
  | none => 0

/-- What a row of `users` holds about failed logins; the password of an attempt is wrong. -/
structure Account where
  isDeleted : Bool
  failedLoginCount : ℕ
  lockedUntil : Option ℕ
  lastFailedLoginAt : Option ℕ

/-- The accounts by their username, and the memory of the process. -/
structure LoginState where
  accounts : String → Option Account
  pairFailures : FailureMap
  phantomAccountFailures : FailureMap

/-- A login with a wrong password; the clock is past the start of 1970. -/
structure Attempt where
  username : String
  ip : String
  checkedAt : ℕ
  pairFailedAt : ℕ
  accountFailedAt : ℕ
  past1970 : 0 < accountFailedAt

inductive Answer where
  | wrongCredentials
  | locked (remainingMinutes : ℕ)
  deriving DecidableEq

variable (toLowerCase : String → String)

def usernameKey (username : String) : String := toLowerCase (jsTrim username)

def pairKey (username ip : String) : String :=
  usernameKey toLowerCase username ++ "|" ++ jsTrim (if ip = "" then "unknown" else ip)

/-- Whole minutes, rounded up, and one at least. -/
def remainingMinutes (untilMs now : ℕ) : ℕ := max 1 ((untilMs - now + 59999) / 60000)

/-- The time until which the account is locked. -/
def accountLock (s : LoginState) (username : String) (now : ℕ) : ℕ :=
  match s.accounts username with
  | some u => u.lockedUntil.getD 0
  | none => activeMemoryLock s.phantomAccountFailures (usernameKey toLowerCase username) now

/-- `checkAccountLockout`: the minutes left of a lock. -/
def checkAccountLockout (s : LoginState) (username ip : String) (now : ℕ) : Option ℕ :=
  let pairUntil := activeMemoryLock s.pairFailures (pairKey toLowerCase username ip) now
  let accountUntil := accountLock toLowerCase s username now
  let lockUntil := if accountUntil > now then max pairUntil accountUntil else pairUntil
  if lockUntil > now then some (remainingMinutes lockUntil now) else none

/-- The row of an account after one more failure. -/
def Account.failed (u : Account) (now : ℕ) : Account :=
  let lastFailure := u.lastFailedLoginAt.getD 0
  let streak := if lastFailure ≠ 0 ∧ now ≤ lastFailure + STREAK_RESET_AFTER_MS then u.failedLoginCount else 0
  let newCount := streak + 1
  let lockMinutes := lockMinutesForFailureCount newCount ACCOUNT_LOCKOUT_THRESHOLD
  { u with
    failedLoginCount := newCount
    lockedUntil := if lockMinutes > 0 then some (now + lockMinutes * 60 * 1000) else u.lockedUntil
    lastFailedLoginAt := some now }

/-- The account's counter of `recordFailedAttempt`, and the minutes of the lock it causes. -/
def recordAccountFailure (s : LoginState) (username : String) (now : ℕ) : LoginState × ℕ :=
  match s.accounts username with
  | some u =>
      ({ s with accounts := Function.update s.accounts username (some (u.failed now)) },
        lockMinutesForFailureCount (u.failed now).failedLoginCount ACCOUNT_LOCKOUT_THRESHOLD)
  | none =>
      let bumped := bumpMemoryCounter s.phantomAccountFailures (usernameKey toLowerCase username)
        ACCOUNT_LOCKOUT_THRESHOLD now
      ({ s with phantomAccountFailures := bumped.1 }, bumped.2)

/-- `recordFailedAttempt`: the longer one of the locks that the failure causes. -/
def recordFailedAttempt (s : LoginState) (username : String) (attempt : Attempt) : LoginState × ℕ :=
  let pair := bumpMemoryCounter s.pairFailures (pairKey toLowerCase username attempt.ip)
    LOCKOUT_THRESHOLD attempt.pairFailedAt
  let account := recordAccountFailure toLowerCase { s with pairFailures := pair.1 } username
    attempt.accountFailedAt
  (account.1, max pair.2 account.2)

/-- The route `/login` for a wrong password. -/
def login (s : LoginState) (attempt : Attempt) : LoginState × Answer :=
  let username := jsTrim attempt.username
  match checkAccountLockout toLowerCase s username attempt.ip attempt.checkedAt with
  | some minutes => (s, .locked minutes)
  | none =>
    if (s.accounts username).any (·.isDeleted) then (s, .wrongCredentials)
    else
      let recorded := recordFailedAttempt toLowerCase s username attempt
      (recorded.1, if recorded.2 > 0 then .locked recorded.2 else .wrongCredentials)

/-- The answers to a sequence of attempts. -/
def answers (s : LoginState) : List Attempt → List Answer
  | [] => []
  | attempt :: attempts =>
      (login toLowerCase s attempt).2 :: answers (login toLowerCase s attempt).1 attempts

/-- A process that has just started, over these accounts. -/
def started (accounts : String → Option Account) : LoginState := ⟨accounts, [], []⟩

/-- An account without failures. -/
def unfailed (isDeleted : Bool) : Account := ⟨isDeleted, 0, none, none⟩

end PapitalErp.LoginLockout
