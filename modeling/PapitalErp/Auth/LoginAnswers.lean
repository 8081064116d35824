import PapitalErp.Auth.LoginLockout

/-!
# What the answers of failed logins tell

Two processes that differ only in whether a username has a live account are compared attempt by
attempt. When the account's own spelling is tried, its row counts in one process what the memory
counts in the other (`Counts`); when another spelling is tried, neither process looks at the row.
The memory drops no key as long as it is asked for fewer names than it holds.

A deleted account counts nothing, so a login under its name is never locked by itself.
-/

namespace PapitalErp.LoginLockout

variable {toLowerCase : String → String} {map : FailureMap} {key other : String} {state : FailureState}
variable {s s' : LoginState} {u : String} {names : List String} {a : Account} {now : ℕ}

/-! ## The memory -/

theorem get_delete_of_ne (apart : other ≠ key) : (map.delete key).get other = map.get other := by
  simp only [FailureMap.get, FailureMap.delete, List.find?_filter]
  congr 2
  funext entry
  by_cases same : entry.1 = other <;> simp [same, apart]

theorem get_delete_self : (map.delete key).get key = none := by
  simp [FailureMap.get, FailureMap.delete, List.find?_filter]

theorem get_append (map : FailureMap) (key other : String) (state : FailureState) :
    FailureMap.get (map.delete key ++ [(key, state)]) other =
      if other = key then some state else map.get other := by
  by_cases same : other = key
  · subst same
    have none : (map.delete other).get other = none := get_delete_self
    rw [FailureMap.get, Option.map_eq_none_iff] at none
    simp [FailureMap.get, List.find?_append, none]
  · have kept : (map.delete key).get other = map.get other := get_delete_of_ne same
    rw [if_neg same, ← kept]
    simp [FailureMap.get, List.find?_append, Ne.symm same]

/-- The keys are distinct and among the names. -/
structure Among (names : List String) (map : FailureMap) : Prop where
  nodup : (map.map Prod.fst).Nodup
  subset : ∀ key ∈ map.map Prod.fst, key ∈ names

theorem Among.nil : Among names [] := ⟨List.nodup_nil, nofun⟩

theorem Among.push (among : Among names map) (member : key ∈ names) :
    Among names (map.delete key ++ [(key, state)]) := by
  have kept : ∀ k ∈ (map.delete key).map Prod.fst, k ∈ map.map Prod.fst ∧ k ≠ key := by
    intro k mem
    obtain ⟨entry, entryMem, rfl⟩ := List.mem_map.mp mem
    obtain ⟨there, apart⟩ := List.mem_filter.mp entryMem
    exact ⟨List.mem_map_of_mem there, by simpa using apart⟩
  constructor
  · rw [List.map_append, List.nodup_append]
    refine ⟨among.nodup.sublist (List.filter_sublist.map _), List.nodup_singleton _, ?_⟩
    intro k mem k' new
    rw [List.map_singleton, List.mem_singleton] at new
    exact new ▸ (kept k mem).2
  · intro k mem
    rw [List.map_append, List.mem_append] at mem
    rcases mem with earlier | new
    · exact among.subset k (kept k earlier).1
    · rw [List.map_singleton, List.mem_singleton] at new
      exact new ▸ member

/-- Fewer names than it holds: the memory drops nothing. -/
theorem Among.bounded (among : Among names map) (few : names.dedup.length < MAX_TRACKED_ENTRIES) :
    map.bounded = map := by
  have short : map.length ≤ names.dedup.length := by
    have subset : map.map Prod.fst ⊆ names.dedup := fun key mem =>
      List.mem_dedup.mpr (among.subset key mem)
    simpa using (List.subperm_of_subset among.nodup subset).length_le
  rw [FailureMap.bounded, if_neg (by omega)]

theorem bump_fst (among : Among names map) (member : key ∈ names)
    (few : names.dedup.length < MAX_TRACKED_ENTRIES) (threshold : ℕ) :
    (bumpMemoryCounter map key threshold now).1 =
      map.delete key ++ [(key, nextFailure (map.get key) threshold now)] :=
  (among.push member).bounded few

/-! ## A row that counts what the memory would -/

/-- The row of the account holds what the memory holds of a username without one. -/
def Counts (a : Account) : Option FailureState → Prop
  | none => a.lockedUntil = none ∧ a.lastFailedLoginAt = none
  | some state => a.failedLoginCount = state.count ∧ a.lockedUntil.getD 0 = state.lockedUntil ∧
      a.lastFailedLoginAt = some state.lastFailureAt ∧ 0 < state.lastFailureAt

theorem counts_unfailed (isDeleted : Bool) : Counts (unfailed isDeleted) none := ⟨rfl, rfl⟩

/-- The failures of the account that one more continues. -/
def accountStreak (a : Account) (now : ℕ) : ℕ :=
  if a.lastFailedLoginAt.getD 0 ≠ 0 ∧ now ≤ a.lastFailedLoginAt.getD 0 + STREAK_RESET_AFTER_MS then
    a.failedLoginCount
  else 0

/-- The failures of a key in the memory that one more continues. -/
def memoryStreak (prev : Option FailureState) (now : ℕ) : ℕ :=
  match prev with
  | some prev => if now ≤ prev.lastFailureAt + STREAK_RESET_AFTER_MS then prev.count else 0
  | none => 0

theorem failed_of_streak {n : ℕ} (streak : accountStreak a now = n) :
    a.failed now =
      { a with
        failedLoginCount := n + 1
        lockedUntil :=
          if lockMinutesForFailureCount (n + 1) ACCOUNT_LOCKOUT_THRESHOLD > 0 then
            some (now + lockMinutesForFailureCount (n + 1) ACCOUNT_LOCKOUT_THRESHOLD * 60 * 1000)
          else a.lockedUntil
        lastFailedLoginAt := some now } := by
  subst streak
  rfl

theorem nextFailure_of_streak {prev : Option FailureState} {n threshold : ℕ}
    (streak : memoryStreak prev now = n) :
    nextFailure prev threshold now =
      { count := n + 1
        lockedUntil :=
          if lockMinutesForFailureCount (n + 1) threshold > 0 then
            now + lockMinutesForFailureCount (n + 1) threshold * 60 * 1000
          else (prev.map (·.lockedUntil)).getD 0
        lastFailureAt := now } := by
  subst streak
  rfl

theorem Counts.streak {prev : Option FailureState} (counts : Counts a prev) :
    accountStreak a now = memoryStreak prev now := by
  cases prev with
  | none => simp [accountStreak, memoryStreak, counts.2]
  | some state =>
      obtain ⟨count, -, last, late⟩ := counts
      simp only [accountStreak, memoryStreak, last, count, Option.getD_some, ne_eq, late.ne',
        not_false_eq_true, true_and]

theorem Counts.lockedUntil {prev : Option FailureState} (counts : Counts a prev) :
    a.lockedUntil.getD 0 = (prev.map (·.lockedUntil)).getD 0 := by
  cases prev with
  | none => simp [counts.1]
  | some state => exact counts.2.1

/-- One more failure is counted alike. -/
theorem Counts.failed {prev : Option FailureState} (counts : Counts a prev) (past1970 : 0 < now) :
    Counts (a.failed now) (some (nextFailure prev ACCOUNT_LOCKOUT_THRESHOLD now)) := by
  rw [failed_of_streak counts.streak, nextFailure_of_streak rfl]
  refine ⟨rfl, ?_, rfl, past1970⟩
  dsimp only
  split_ifs
  · rfl
  · exact counts.lockedUntil

/-- A lock of the account is one in the memory. -/
theorem Counts.lock (counts : Counts a (map.get key)) (pairUntil now : ℕ) :
    (if a.lockedUntil.getD 0 > now then max pairUntil (a.lockedUntil.getD 0) else pairUntil) =
      if activeMemoryLock map key now > now then max pairUntil (activeMemoryLock map key now)
      else pairUntil := by
  unfold activeMemoryLock
  cases found : map.get key with
  | none =>
      rw [found] at counts
      simp [counts.1]
  | some state =>
      rw [found] at counts
      rw [counts.2.1]
      by_cases active : state.lockedUntil > now <;> simp [active]

/-! ## The account's own spelling -/

/-- `s'` has a live account `u` where `s` has none, and is otherwise as `s`. -/
structure Hidden (toLowerCase : String → String) (u : String) (names : List String)
    (s s' : LoginState) : Prop where
  unknown : s.accounts u = none
  known : ∃ a, s'.accounts u = some a ∧ a.isDeleted = false ∧
    Counts a (s.phantomAccountFailures.get (usernameKey toLowerCase u))
  others : ∀ name, name ≠ u → s'.accounts name = s.accounts name
  pairs : s'.pairFailures = s.pairFailures
  phantoms : s'.phantomAccountFailures =
    s.phantomAccountFailures.delete (usernameKey toLowerCase u)
  among : Among names s.phantomAccountFailures

theorem Hidden.accountLock_of_ne (hidden : Hidden toLowerCase u names s s') {username : String}
    (same : username ≠ u) (apart : usernameKey toLowerCase username ≠ usernameKey toLowerCase u) (now : ℕ) :
    accountLock toLowerCase s' username now = accountLock toLowerCase s username now := by
  unfold accountLock activeMemoryLock
  rw [hidden.others username same, hidden.phantoms, get_delete_of_ne apart]

theorem Hidden.check (hidden : Hidden toLowerCase u names s s') {username : String}
    (spelled : usernameKey toLowerCase username = usernameKey toLowerCase u → username = u)
    (ip : String) (now : ℕ) :
    checkAccountLockout toLowerCase s' username ip now =
      checkAccountLockout toLowerCase s username ip now := by
  unfold checkAccountLockout
  rw [hidden.pairs]
  by_cases same : username = u
  · subst same
    obtain ⟨a, found, -, counts⟩ := hidden.known
    simp only [accountLock, found, hidden.unknown, counts.lock]
  · rw [hidden.accountLock_of_ne same fun key => same (spelled key)]

theorem delete_delete (map : FailureMap) (key other : String) :
    (map.delete key).delete other = (map.delete other).delete key := by
  simp only [FailureMap.delete, List.filter_filter, Bool.and_comm]

theorem delete_append (map : FailureMap) (key : String) (state : FailureState) :
    FailureMap.delete (map.delete key ++ [(key, state)]) key = map.delete key := by
  simp [FailureMap.delete]

theorem delete_append_of_ne (map : FailureMap) (apart : other ≠ key) (state : FailureState) :
    FailureMap.delete (map.delete other ++ [(other, state)]) key =
      FailureMap.delete (map.delete key) other ++ [(other, state)] := by
  rw [delete_delete]
  simp [FailureMap.delete, apart]

theorem Among.delete (among : Among names map) (key : String) : Among names (map.delete key) := by
  refine ⟨among.nodup.sublist (List.filter_sublist.map _), fun k mem => among.subset k ?_⟩
  exact (List.filter_sublist.map _).subset mem

/-- The pair's counter of a failure. -/
def pairBump (toLowerCase : String → String) (s : LoginState) (username : String) (attempt : Attempt) :
    FailureMap × ℕ :=
  bumpMemoryCounter s.pairFailures (pairKey toLowerCase username attempt.ip) LOCKOUT_THRESHOLD
    attempt.pairFailedAt

theorem recordFailedAttempt_known {username : String} (attempt : Attempt)
    (found : s.accounts username = some a) :
    recordFailedAttempt toLowerCase s username attempt =
      (⟨Function.update s.accounts username (some (a.failed attempt.accountFailedAt)),
          (pairBump toLowerCase s username attempt).1, s.phantomAccountFailures⟩,
        max (pairBump toLowerCase s username attempt).2
          (lockMinutesForFailureCount (a.failed attempt.accountFailedAt).failedLoginCount
            ACCOUNT_LOCKOUT_THRESHOLD)) := by
  simp only [recordFailedAttempt, recordAccountFailure, found, pairBump]

theorem recordFailedAttempt_none {username : String} (attempt : Attempt)
    (unknown : s.accounts username = none) :
    let bumped := bumpMemoryCounter s.phantomAccountFailures (usernameKey toLowerCase username)
      ACCOUNT_LOCKOUT_THRESHOLD attempt.accountFailedAt
    recordFailedAttempt toLowerCase s username attempt =
      (⟨s.accounts, (pairBump toLowerCase s username attempt).1, bumped.1⟩,
        max (pairBump toLowerCase s username attempt).2 bumped.2) := by
  simp only [recordFailedAttempt, recordAccountFailure, unknown, pairBump]

theorem recordFailedAttempt_unknown {username : String} (attempt : Attempt)
    (few : names.dedup.length < MAX_TRACKED_ENTRIES) (among : Among names s.phantomAccountFailures)
    (member : usernameKey toLowerCase username ∈ names) (unknown : s.accounts username = none) :
    let key := usernameKey toLowerCase username
    let next := nextFailure (s.phantomAccountFailures.get key) ACCOUNT_LOCKOUT_THRESHOLD
      attempt.accountFailedAt
    recordFailedAttempt toLowerCase s username attempt =
      (⟨s.accounts, (pairBump toLowerCase s username attempt).1,
          s.phantomAccountFailures.delete key ++ [(key, next)]⟩,
        max (pairBump toLowerCase s username attempt).2
          (lockMinutesForFailureCount next.count ACCOUNT_LOCKOUT_THRESHOLD)) := by
  simp only [recordFailedAttempt_none attempt unknown, bump_fst among member few]
  rfl

/-- A failure keeps the processes alike and causes the same lock in both. -/
theorem Hidden.record (hidden : Hidden toLowerCase u names s s') {username : String}
    (few : names.dedup.length < MAX_TRACKED_ENTRIES) (member : usernameKey toLowerCase username ∈ names)
    (spelled : usernameKey toLowerCase username = usernameKey toLowerCase u → username = u)
    (attempt : Attempt) :
    Hidden toLowerCase u names (recordFailedAttempt toLowerCase s username attempt).1
        (recordFailedAttempt toLowerCase s' username attempt).1 ∧
      (recordFailedAttempt toLowerCase s' username attempt).2 =
        (recordFailedAttempt toLowerCase s username attempt).2 := by
  obtain ⟨unknown, ⟨a, found, live, counts⟩, others, pairs, phantoms, among⟩ := hidden
  have samePair : pairBump toLowerCase s' username attempt = pairBump toLowerCase s username attempt := by
    rw [pairBump, pairs, pairBump]
  by_cases same : username = u
  · -- the row counts in `s'` what the memory counts in `s`
    subst same
    have counts' := counts.failed attempt.past1970
    rw [recordFailedAttempt_known attempt found,
      recordFailedAttempt_unknown attempt few among member unknown, samePair]
    refine ⟨⟨unknown, ⟨_, Function.update_self .., live, ?_⟩, ?_, rfl, ?_, among.push member⟩, ?_⟩
    · rw [get_append, if_pos rfl]
      exact counts'
    · intro name apart
      exact (Function.update_of_ne apart _ _).trans (others name apart)
    · exact phantoms.trans (delete_append _ _ _).symm
    · rw [counts'.1]
  · have apart : usernameKey toLowerCase username ≠ usernameKey toLowerCase u :=
      fun key => same (spelled key)
    cases row : s.accounts username with
    | some other =>
        rw [recordFailedAttempt_known attempt ((others username same).trans row),
          recordFailedAttempt_known attempt row, samePair]
        refine ⟨⟨?_, ⟨a, ?_, live, counts⟩, ?_, rfl, phantoms, among⟩, rfl⟩
        · exact (Function.update_of_ne (Ne.symm same) _ _).trans unknown
        · exact (Function.update_of_ne (Ne.symm same) _ _).trans found
        · intro name notU
          simp only [Function.update_apply, others name notU]
    | none =>
        have among' : Among names s'.phantomAccountFailures := phantoms ▸ among.delete _
        have sameState : s'.phantomAccountFailures.get (usernameKey toLowerCase username) =
            s.phantomAccountFailures.get (usernameKey toLowerCase username) := by
          rw [phantoms, get_delete_of_ne apart]
        rw [recordFailedAttempt_unknown attempt few among' member ((others username same).trans row),
          recordFailedAttempt_unknown attempt few among member row, samePair, sameState]
        refine ⟨⟨unknown, ⟨a, found, live, ?_⟩, others, rfl, ?_, among.push member⟩, rfl⟩
        · rw [get_append, if_neg (Ne.symm apart)]
          exact counts
        · show s'.phantomAccountFailures.delete _ ++ _ = _
          rw [delete_append_of_ne _ apart, phantoms]

/-- Neither process takes the username for a deleted one. -/
theorem Hidden.deleted (hidden : Hidden toLowerCase u names s s') (username : String) :
    (s'.accounts username).any (·.isDeleted) = (s.accounts username).any (·.isDeleted) := by
  by_cases same : username = u
  · subst same
    obtain ⟨a, found, live, -⟩ := hidden.known
    rw [found, hidden.unknown, Option.any_some, live, Option.any_none]
  · rw [hidden.others username same]

/-- An attempt keeps the processes alike and is answered alike. -/
theorem Hidden.login (hidden : Hidden toLowerCase u names s s')
    (few : names.dedup.length < MAX_TRACKED_ENTRIES) {attempt : Attempt}
    (member : usernameKey toLowerCase (jsTrim attempt.username) ∈ names)
    (spelled : usernameKey toLowerCase (jsTrim attempt.username) = usernameKey toLowerCase u →
      jsTrim attempt.username = u) :
    Hidden toLowerCase u names (login toLowerCase s attempt).1 (login toLowerCase s' attempt).1 ∧
      (login toLowerCase s' attempt).2 = (login toLowerCase s attempt).2 := by
  unfold LoginLockout.login
  simp only [hidden.check spelled, hidden.deleted]
  split
  · exact ⟨hidden, rfl⟩
  · split
    · exact ⟨hidden, rfl⟩
    · obtain ⟨hidden', sameLock⟩ := hidden.record few member spelled attempt
      exact ⟨hidden', by rw [sameLock]⟩

theorem Hidden.answers {attempts : List Attempt} (hidden : Hidden toLowerCase u names s s')
    (few : names.dedup.length < MAX_TRACKED_ENTRIES)
    (member : ∀ attempt ∈ attempts, usernameKey toLowerCase (jsTrim attempt.username) ∈ names)
    (spelled : ∀ attempt ∈ attempts,
      usernameKey toLowerCase (jsTrim attempt.username) = usernameKey toLowerCase u →
        jsTrim attempt.username = u) :
    LoginLockout.answers toLowerCase s' attempts = LoginLockout.answers toLowerCase s attempts := by
  induction attempts generalizing s s' with
  | nil => rfl
  | cons attempt attempts ih =>
      obtain ⟨hidden', same⟩ := hidden.login few (member attempt List.mem_cons_self)
        (spelled attempt List.mem_cons_self)
      rw [LoginLockout.answers, LoginLockout.answers, same,
        ih hidden' (fun a mem => member a (List.mem_cons_of_mem _ mem))
          fun a mem => spelled a (List.mem_cons_of_mem _ mem)]

/-! ## Another spelling -/

/-- The processes differ in the row of `u` only. -/
structure SameBut (u : String) (s s' : LoginState) : Prop where
  others : ∀ name, name ≠ u → s'.accounts name = s.accounts name
  pairs : s'.pairFailures = s.pairFailures
  phantoms : s'.phantomAccountFailures = s.phantomAccountFailures

theorem SameBut.record (same : SameBut u s s') {attempt : Attempt} (other : jsTrim attempt.username ≠ u) :
    SameBut u (recordFailedAttempt toLowerCase s (jsTrim attempt.username) attempt).1
        (recordFailedAttempt toLowerCase s' (jsTrim attempt.username) attempt).1 ∧
      (recordFailedAttempt toLowerCase s' (jsTrim attempt.username) attempt).2 =
        (recordFailedAttempt toLowerCase s (jsTrim attempt.username) attempt).2 := by
  have samePair : pairBump toLowerCase s' (jsTrim attempt.username) attempt =
      pairBump toLowerCase s (jsTrim attempt.username) attempt := by
    rw [pairBump, same.pairs, pairBump]
  have row := same.others _ other
  cases found : s.accounts (jsTrim attempt.username) with
  | none =>
      rw [recordFailedAttempt_none attempt (row.trans found), recordFailedAttempt_none attempt found,
        samePair, same.phantoms]
      exact ⟨⟨same.others, rfl, rfl⟩, rfl⟩
  | some a =>
      rw [recordFailedAttempt_known attempt (row.trans found), recordFailedAttempt_known attempt found,
        samePair]
      refine ⟨⟨fun name notU => ?_, rfl, same.phantoms⟩, rfl⟩
      simp only [Function.update_apply, same.others name notU]

theorem SameBut.login (same : SameBut u s s') {attempt : Attempt} (other : jsTrim attempt.username ≠ u) :
    SameBut u (login toLowerCase s attempt).1 (login toLowerCase s' attempt).1 ∧
      (login toLowerCase s' attempt).2 = (login toLowerCase s attempt).2 := by
  have row := same.others _ other
  have account (now : ℕ) : accountLock toLowerCase s' (jsTrim attempt.username) now =
      accountLock toLowerCase s (jsTrim attempt.username) now := by
    unfold accountLock
    rw [row, same.phantoms]
  have lock (now : ℕ) : checkAccountLockout toLowerCase s' (jsTrim attempt.username) attempt.ip now =
      checkAccountLockout toLowerCase s (jsTrim attempt.username) attempt.ip now := by
    simp only [checkAccountLockout, account, same.pairs]
  unfold LoginLockout.login
  simp only [lock, row]
  split
  · exact ⟨same, rfl⟩
  · split
    · exact ⟨same, rfl⟩
    · obtain ⟨same', sameLock⟩ := same.record other
      exact ⟨same', by rw [sameLock]⟩

theorem SameBut.answers {attempts : List Attempt} (same : SameBut u s s')
    (other : ∀ attempt ∈ attempts, jsTrim attempt.username ≠ u) :
    LoginLockout.answers toLowerCase s' attempts = LoginLockout.answers toLowerCase s attempts := by
  induction attempts generalizing s s' with
  | nil => rfl
  | cons attempt attempts ih =>
      obtain ⟨same', answer⟩ := same.login (other attempt List.mem_cons_self)
      rw [LoginLockout.answers, LoginLockout.answers, answer,
        ih same' fun a mem => other a (List.mem_cons_of_mem _ mem)]

/-! ## The two runs -/

/-- The names of the attempts, as the memory keeps them. -/
def namesOf (toLowerCase : String → String) (attempts : List Attempt) : List String :=
  attempts.map fun attempt => usernameKey toLowerCase (jsTrim attempt.username)

/-- The username is tried in one letter case. -/
def OneSpelling (toLowerCase : String → String) (u : String) (attempts : List Attempt) : Prop :=
  ∃ spelling, ∀ attempt ∈ attempts,
    usernameKey toLowerCase (jsTrim attempt.username) = usernameKey toLowerCase u →
      jsTrim attempt.username = spelling

/-- The answers to attempts with wrong passwords are the same whether the username has a live
account or none, as long as it is tried in one letter case and the memory is asked for fewer names
than it holds. An attempt under the name of a deleted account counts nowhere, and is locked only by
a lock there is. -/
theorem login_answers (toLowerCase : String → String) :
    (∀ accounts u attempts, OneSpelling toLowerCase u attempts →
      (namesOf toLowerCase attempts).dedup.length < MAX_TRACKED_ENTRIES →
      answers toLowerCase (started (Function.update accounts u (some (unfailed false)))) attempts =
        answers toLowerCase (started (Function.update accounts u none)) attempts) ∧
    ∀ (s : LoginState) (attempt : Attempt) (account : Account),
      s.accounts (jsTrim attempt.username) = some account → account.isDeleted = true →
      (login toLowerCase s attempt).1 = s ∧
        ∀ minutes, (login toLowerCase s attempt).2 = .locked minutes →
          checkAccountLockout toLowerCase s (jsTrim attempt.username) attempt.ip attempt.checkedAt =
            some minutes := by
  constructor
  · rintro accounts u attempts ⟨spelling, spelled⟩ few
    by_cases own : spelling = u
    · subst own
      have hidden : Hidden toLowerCase spelling (namesOf toLowerCase attempts)
          (started (Function.update accounts spelling none))
          (started (Function.update accounts spelling (some (unfailed false)))) := by
        refine ⟨Function.update_self .., ⟨_, Function.update_self .., rfl, counts_unfailed _⟩, ?_, rfl, rfl, .nil⟩
        intro name apart
        exact (Function.update_of_ne apart _ _).trans (Function.update_of_ne apart _ _).symm
      exact hidden.answers few (fun attempt mem => List.mem_map_of_mem mem) spelled
    · have same : SameBut u (started (Function.update accounts u none))
          (started (Function.update accounts u (some (unfailed false)))) := by
        refine ⟨fun name apart => ?_, rfl, rfl⟩
        exact (Function.update_of_ne apart _ _).trans (Function.update_of_ne apart _ _).symm
      refine same.answers fun attempt mem exact_ => own ?_
      rw [← exact_, spelled attempt mem (by rw [exact_])]
  · intro s attempt account found deleted
    cases lock : checkAccountLockout toLowerCase s (jsTrim attempt.username) attempt.ip
      attempt.checkedAt with
    | some minutes =>
        simp only [login, lock, true_and]
        rintro other ⟨⟩
        rfl
    | none =>
        simp only [login, lock, found, Option.any_some, deleted, if_true, true_and]
        rintro minutes ⟨⟩

/-- Only the keys of the usernames matter. -/
theorem answers_congr {f g : String → String} {attempts : List Attempt}
    (keys : ∀ attempt ∈ attempts,
      usernameKey f (jsTrim attempt.username) = usernameKey g (jsTrim attempt.username))
    (s : LoginState) : answers f s attempts = answers g s attempts := by
  induction attempts generalizing s with
  | nil => rfl
  | cons attempt attempts ih =>
      have key := keys attempt List.mem_cons_self
      have pair (ip : String) :
          pairKey f (jsTrim attempt.username) ip = pairKey g (jsTrim attempt.username) ip := by
        rw [pairKey, pairKey, key]
      have account (now : ℕ) :
          accountLock f s (jsTrim attempt.username) now = accountLock g s (jsTrim attempt.username) now := by
        rw [accountLock, accountLock, key]
      have check : checkAccountLockout f s (jsTrim attempt.username) attempt.ip attempt.checkedAt =
          checkAccountLockout g s (jsTrim attempt.username) attempt.ip attempt.checkedAt := by
        simp only [checkAccountLockout, account, pair]
      have record : recordFailedAttempt f s (jsTrim attempt.username) attempt =
          recordFailedAttempt g s (jsTrim attempt.username) attempt := by
        simp only [recordFailedAttempt, recordAccountFailure, pair, key]
      have same : login f s attempt = login g s attempt := by
        simp only [login, check, record]
      rw [answers, answers, same, ih fun a mem => keys a (List.mem_cons_of_mem _ mem)]

/-- An attempt of the counterexample, from the address with this number. -/
def attemptFrom (address : ℕ) (username : String) : Attempt :=
  ⟨username, "::" ++ toString address, 1790000000000, 1790000000000, 1790000000000, by decide⟩

/-- The last answer when no name but `sara` may have an account. -/
def lastAnswer (sara : Option Account) (attempts : List Attempt) : Option Answer :=
  (answers String.toLower (started fun name => if name = "sara" then sara else none) attempts).getLast?

/-- Five attempts from one address: a deleted account is never locked. Fifty-two attempts from
thirteen addresses, some of them in capital letters: only the username without an account is locked. -/
theorem answers_tell_accounts :
    ∃ oneAddress manyAddresses : List Attempt,
      lastAnswer none oneAddress = some (.locked 1) ∧
      lastAnswer (some (unfailed true)) oneAddress = some .wrongCredentials ∧
      lastAnswer none manyAddresses = some (.locked 1) ∧
      lastAnswer (some (unfailed false)) manyAddresses = some .wrongCredentials := by
  refine ⟨List.replicate 5 (attemptFrom 1 "sara"),
    (List.range 13).flatMap fun n => List.replicate 4 (attemptFrom n (if n < 6 then "SARA" else "sara")), ?_⟩
  -- both spellings have one key, which is not computed again at every comparison
  have oneKey (sara : Option Account) {attempts : List Attempt}
      (spelled : ∀ attempt ∈ attempts, attempt.username = "sara" ∨ attempt.username = "SARA") :
      lastAnswer sara attempts =
        (answers (fun _ => "sara") (started fun name => if name = "sara" then sara else none) attempts).getLast? := by
    have small : usernameKey String.toLower (jsTrim "sara") = "sara" := by decide +kernel
    have capital : usernameKey String.toLower (jsTrim "SARA") = "sara" := by decide +kernel
    rw [lastAnswer, answers_congr (g := fun _ => "sara")]
    intro attempt mem
    obtain same | same := spelled attempt mem
    · rw [same, small, usernameKey]
    · rw [same, capital, usernameKey]
  have one : ∀ attempt ∈ List.replicate 5 (attemptFrom 1 "sara"),
      attempt.username = "sara" ∨ attempt.username = "SARA" := by decide
  have many : ∀ attempt ∈ (List.range 13).flatMap fun n => List.replicate 4 (attemptFrom n (if n < 6 then "SARA" else "sara")),
      attempt.username = "sara" ∨ attempt.username = "SARA" := by decide
  rw [oneKey _ one, oneKey _ one, oneKey _ many, oneKey _ many]
  refine ⟨?_, ?_, ?_, ?_⟩ <;> decide +kernel

end PapitalErp.LoginLockout
