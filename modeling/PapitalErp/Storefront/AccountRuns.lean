import PapitalErp.Storefront.AccountSafety

/-!
# Every run of the buyer accounts

Each commit keeps what the rows say about the log, and what the other requests know:
the proof of a request stays unused under the lock of its phone, and the link of a
request stays unused under the lock of its row. A commit is allowed by the log, save
that a sign-in accepts a password during a lock when its row was read before the lock.
-/

namespace PapitalErp.BuyerAccounts

open Transition EventLog

variable {nfc : String → String} {t t' : Tables} {p q : ℕ}

/-! ## What the requests know -/

section Requests

variable {phase : Phase} {a : ℕ} {proof : Option ℕ} {new : List Event}

/-- A request keeps its proof and its link while the rows it has locked stay. -/
theorem Knows.of_frame (h : Knows t q phase)
    (proofs : ∀ row ∈ t.proofs, row.usedAt = none → t.phoneLocks row.phoneKey = some q →
      row ∈ t'.proofs ∧ t'.phoneLocks row.phoneKey = some q)
    (links : ∀ row ∈ t.links, row.usedAt = none → t.linkLocks row.id = some q →
      row ∈ t'.links ∧ t'.linkLocks row.id = some q) : Knows t' q phase := by
  cases phase with
  | proven request proof verifiedAt =>
      cases proof with
      | none => trivial
      | some proof =>
          obtain ⟨row, mem, same, live, held⟩ := h
          obtain ⟨stays, kept⟩ := proofs row mem live held
          exact ⟨row, stays, same, live, kept⟩
  | linkLocked link accountId hash =>
      obtain ⟨held, row, mem, rfl, own, live⟩ := h
      obtain ⟨stays, kept⟩ := links row mem live held
      exact ⟨kept, row, stays, rfl, own, live⟩
  | _ => exact h

/-- A commit uses no proof and no link that another request has locked. -/
theorem Commits.knows (c : Commits t t' a proof new)
    (proofs : ∀ number ∈ proof, ∀ row ∈ t.proofs, row.id = number → t.phoneLocks row.phoneKey ≠ some q)
    (links : ∀ link time, .accepted (.link link) a time ∈ new → t.linkLocks link ≠ some q)
    (knows : Knows t q phase) : Knows t' q phase := by
  refine knows.of_frame (fun row mem live held => ⟨?_, ?_⟩) fun row mem live held => ⟨?_, ?_⟩
  · rw [c.proofs, useProof]
    exact List.mem_map.mpr ⟨row, mem, if_neg fun is => proofs row.id is row mem rfl held⟩
  · rw [c.frame.2.1]
    exact held
  · have locked : t.linkLocks row.id ≠ none := by
      rw [held]
      exact Option.some_ne_none q
    exact (c.held row mem live locked).resolve_right fun accepted => links _ _ accepted held
  · rw [c.frame.2.2]
    exact held

theorem Knows.finished (apart : q ≠ p) (knows : Knows t q phase) : Knows (finished t p) q phase := by
  have other : some q ≠ some p := fun same => apart (Option.some.inj same)
  refine knows.of_frame (fun row mem _ held => ⟨mem, ?_⟩) fun row mem _ held => ⟨mem, ?_⟩
  · exact (if_neg (held ▸ other)).trans held
  · exact (if_neg (held ▸ other)).trans held

/-- After a request has ended it knows nothing, and the others know what they did. -/
theorem knows_finished (knows : ∀ q, q ≠ p → Knows t q (t.phase q)) :
    ∀ q, Knows (finished t p) q ((finished t p).phase q) := by
  intro q
  by_cases own : q = p
  · rw [own, show (BuyerAccounts.finished t p).phase p = .idle from Function.update_self ..]
    trivial
  · rw [show (BuyerAccounts.finished t p).phase q = t.phase q from Function.update_of_ne own ..]
    exact (knows q own).finished own

/-- One request moves on, and the others know what they did. -/
theorem knows_enter (own : Knows t p phase) (knows : ∀ q, Knows t q (t.phase q)) :
    ∀ q, Knows t q ((enter t p phase).phase q) := by
  intro q
  by_cases same : q = p
  · rw [same, show (enter t p phase).phase p = phase from Function.update_self ..]
    exact own
  · rw [show (enter t p phase).phase q = t.phase q from Function.update_of_ne same ..]
    exact knows q

end Requests

/-! ## What the log allows -/

section Entries

variable {log new : List Event} {a : ℕ} {account : Account}

theorem plain_justified (before : Justified Allowed log) (plain : ∀ e ∈ new, Plain e) :
    Justified Allowed (log ++ new) := by
  refine before.append_each ?_
  clear before
  induction new generalizing log with
  | nil => trivial
  | cons e new ih =>
      obtain ⟨first, rest⟩ := List.forall_mem_cons.mp plain
      exact ⟨first log, ih rest⟩

/-- A sign-in to an active account. -/
theorem signsIn_justified (middle : List Event) (before : Justified Allowed log)
    (plain : ∀ e ∈ middle, Plain e) (standing : Standing Ends (log ++ middle) (.activated a)) :
    Justified Allowed (log ++ (middle ++ [.signedIn a])) := by
  rw [← List.append_assoc]
  exact (plain_justified before plain).append standing

/-- A sign-in with a credential to an active account. -/
theorem accepts_justified {e : Event} (middle : List Event) (before : Justified Allowed log)
    (first : Allowed log e) (plain : ∀ e ∈ middle, Plain e)
    (standing : Standing Ends (log ++ e :: middle) (.activated a)) :
    Justified Allowed (log ++ e :: (middle ++ [.signedIn a])) := by
  rw [List.append_cons] at standing ⊢
  exact signsIn_justified middle (before.append first) plain standing

/-- A proof that is not used yet is used for the first time. -/
theorem Valid.uses (h : Valid t) {proof : Option ℕ}
    (mine : ∀ number ∈ proof, ∃ row ∈ t.proofs, row.id = number ∧ row.usedAt = none) :
    Justified Allowed (t.log ++ proofEvent proof) := by
  cases proof with
  | none =>
      rw [show proofEvent none = [] from rfl, List.append_nil]
      exact h.allowed
  | some number =>
      obtain ⟨row, mem, rfl, live⟩ := mine number rfl
      exact h.allowed.append fun used => (h.sound.proofs row mem).mpr used live

/-- The row of an account is locked exactly while a lock of the log stands and has not
ended. -/
theorem AccountSound.lock_iff {now : ℕ} (h : AccountSound log now account) :
    (∀ lockEnd, Standing Ends log (.locked account.id lockEnd) → lockEnd ≤ now) ↔
      account.isLocked now = false := by
  constructor
  · intro ended
    cases lock : account.lockedUntil with
    | none => simp [Account.isLocked, lock]
    | some lockEnd =>
        have past := ended lockEnd (h.locked lockEnd lock).1
        simpa [Account.isLocked, lock] using past
  · intro free lockEnd standing
    obtain ⟨later, lock, le⟩ := h.covers lockEnd standing
    have past : later ≤ now := by simpa [Account.isLocked, lock] using free
    exact le.trans past

end Entries

/-! ## The commits -/

/-- What the commit of a request does: it uses its own proof and its own link only, and
the log allows it exactly when it accepts no password during a lock. -/
structure CommitSpec (t t' : Tables) (p a : ℕ) (proof : Option ℕ) (new : List Event) : Prop where
  commits : Commits t t' a proof new
  proofs : ∀ number ∈ proof, ∃ row ∈ t.proofs, row.id = number ∧ row.usedAt = none ∧
    t.phoneLocks row.phoneKey = some p
  links : ∀ link time, .accepted (.link link) a time ∈ new → t.linkLocks link = some p
  allowed : Justified Allowed t'.log ↔ unlocked t (.commit p) = true

theorem proven_proofs {request : Phase} {proof verifiedAt : Option ℕ}
    (knows : Knows t p (.proven request proof verifiedAt)) :
    ∀ number ∈ proof, ∃ row ∈ t.proofs, row.id = number ∧ row.usedAt = none ∧
      t.phoneLocks row.phoneKey = some p := by
  intro number is
  obtain rfl := Option.mem_def.mp is
  exact knows

theorem Valid.proven_justified (h : Valid t) {request : Phase} {proof verifiedAt : Option ℕ}
    (knows : Knows t p (.proven request proof verifiedAt)) :
    Justified Allowed (t.log ++ proofEvent proof) :=
  h.uses fun number is => by
    obtain ⟨row, mem, same, live, _⟩ := proven_proofs knows number is
    exact ⟨row, mem, same, live⟩

/-- A sign-in with a password is allowed exactly when the account is not locked. -/
theorem Valid.signIn_justified (h : Valid t) {account : Account} {hash : PasswordHash}
    (there : account ∈ t.accounts) (stored : account.passwordHash = some hash)
    (active : account.status = .active) (c : Commits t t' account.id none (signInEvents t account hash)) :
    Justified Allowed t'.log ↔ account.isLocked t.now = false := by
  have sound := h.sound.accounts account there
  rw [← sound.lock_iff]
  constructor
  · intro justified
    exact (justified t.log _ _ c.log).2
  · intro ended
    rw [c.log]
    refine accepts_justified [.lifted account.id, .made (.session (t.drawn + 1)) account.id] h.allowed
      ⟨sound.password hash stored, ended⟩ (by simp [Plain, Allowed]) ?_
    exact standing_activated (sound.active active) (by simp)

theorem commit_spec (h : Valid t) (ok : commit t p = .ok t') :
    ∃ a proof new, CommitSpec t t' p a proof new := by
  have knows := h.knows p
  cases phase : t.phase p with
  | proven request proof verifiedAt =>
      rw [phase] at knows
      have mine := proven_proofs knows
      have used := h.proven_justified knows
      cases request with
      | registering phoneKey hash _ needed =>
          simp only [commit, phase] at ok
          have c := register_commits h.sound ok
          refine ⟨_, _, _, c, mine, by simp, iff_of_true ?_ (by simp [unlocked, phase])⟩
          rw [c.log, ← List.append_assoc]
          refine signsIn_justified [.activated (t.drawn + 1), .made (.password hash.salt) (t.drawn + 1),
            .made (.session (t.drawn + 2)) (t.drawn + 1)] used (by simp [Plain, Allowed]) ?_
          exact standing_in [] [.made (.password hash.salt) (t.drawn + 1),
            .made (.session (t.drawn + 2)) (t.drawn + 1)] rfl (by simp [Ends])
      | applying phoneKey _ needed =>
          simp only [commit, phase] at ok
          have c := applyAnonymously_commits h.sound ok
          refine ⟨_, _, _, c, mine, by simp, iff_of_true ?_ (by simp [unlocked, phase])⟩
          rw [c.log, List.append_nil]
          exact used
      | smsSigningIn phoneKey _ =>
          simp only [commit, phase] at ok
          obtain ⟨a, account, there, rfl, active, c | c⟩ := smsSignIn_commits h.sound ok
          all_goals
            have stands := (h.sound.accounts account there).active active
          · refine ⟨_, _, _, c, mine, by simp, iff_of_true ?_ (by simp [unlocked, phase])⟩
            rw [c.log, ← List.append_assoc]
            refine signsIn_justified [.lifted account.id, .made (.session (t.drawn + 1)) account.id] used
              (by simp [Plain, Allowed]) ?_
            rw [List.append_assoc]
            exact standing_activated stands (by simp [proofEvent])
          · refine ⟨_, _, _, c, mine, by simp, iff_of_true ?_ (by simp [unlocked, phase])⟩
            rw [c.log, ← List.append_assoc]
            refine signsIn_justified [.lifted account.id, .closed account.id true,
              .made (.session (t.drawn + 1)) account.id] used (by simp [Plain, Allowed]) ?_
            rw [List.append_assoc]
            exact standing_activated stands (by simp [proofEvent])
      | _ =>
          simp only [commit, phase] at ok
          cases ok
  | applyingFrom accountId phoneKey =>
      simp only [commit, phase, bind_eq_ok, ensure_eq_ok] at ok
      obtain ⟨_, _, ok⟩ := ok
      have c := applyFromAccount_commits h.sound ok
      refine ⟨_, _, _, c, by simp, by simp, iff_of_true ?_ (by simp [unlocked, phase])⟩
      rw [c.log, show proofEvent none ++ [] = [] from rfl, List.append_nil]
      exact h.allowed
  | signingIn accountId found matched =>
      rw [phase] at knows
      simp only [commit, phase] at ok
      obtain ⟨account, listed, ⟨wrong, rfl⟩ | ⟨hash, rfl, rfl, stored, active, c⟩⟩ :=
        signIn_cases h.sound knows ok
      · have holds : unlocked t (.commit p) = true := by
          rcases wrong with rfl | other
          · simp [unlocked, phase, listed]
          · simp [unlocked, phase, listed, other]
        rcases countFailure_commits h.sound (byId_some listed).1 with c | c
        · refine ⟨_, _, _, c, by simp, by simp, iff_of_true ?_ holds⟩
          rw [c.log]
          exact plain_justified h.allowed (by simp [proofEvent])
        · refine ⟨_, _, _, c, by simp, by simp, iff_of_true ?_ holds⟩
          rw [c.log]
          exact plain_justified h.allowed (by simp [proofEvent, Plain, Allowed])
      · refine ⟨_, _, _, c, by simp, by simp [signInEvents], ?_⟩
        rw [h.signIn_justified (byId_some listed).1 stored active c]
        simp [unlocked, phase, listed, stored]
  | linkLocked link accountId hash =>
      rw [phase] at knows
      obtain ⟨held, row, mem, rfl, rfl, live⟩ := knows
      simp only [commit, phase] at ok
      obtain ⟨account, there, same, active, c⟩ :=
        setPassword_commits h.sound ⟨row, mem, rfl, rfl, live⟩ ok
      refine ⟨_, _, _, c, by simp, fun other time accepted => ?_,
        iff_of_true ?_ (by simp [unlocked, phase])⟩
      · have is : other = row.id ∧ time = t.now := by simpa [setPasswordEvents] using accepted
        rw [is.1]
        exact held
      · have stands := (h.sound.accounts account there).active active
        rw [same] at stands
        rw [c.log]
        refine accepts_justified [.lifted row.accountId, .closed row.accountId true,
          .made (.password hash.salt) row.accountId, .made (.session (t.drawn + 1)) row.accountId]
          h.allowed (h.sound.links row mem live) (by simp [Plain, Allowed]) ?_
        exact standing_activated stands (by simp)
  | _ =>
      simp only [commit, phase] at ok
      cases ok

/-! ## Every step -/

/-- The rows and the log stay, while time passes and numbers are drawn. -/
structure Moved (t t' : Tables) : Prop where
  accounts : t'.accounts = t.accounts
  sessions : t'.sessions = t.sessions
  links : t'.links = t.links
  proofs : t'.proofs = t.proofs
  log : t'.log = t.log
  now : t.now ≤ t'.now
  drawn : t.drawn ≤ t'.drawn

theorem Sound.moved (h : Sound t) (m : Moved t t') : Sound t' where
  onePhone := m.accounts ▸ h.onePhone
  ids := m.accounts ▸ h.ids
  idsDrawn account mem := (h.idsDrawn account (m.accounts ▸ mem)).trans m.drawn
  accounts account mem := m.log ▸ (h.accounts account (m.accounts ▸ mem)).later m.now
  sessions session mem := m.log ▸ h.sessions session (m.sessions ▸ mem)
  links link mem := m.log ▸ h.links link (m.links ▸ mem)
  oneLink := m.links ▸ h.oneLink
  linksDrawn link mem := (h.linksDrawn link (m.links ▸ mem)).trans m.drawn
  proofIds := m.proofs ▸ h.proofIds
  proofsDrawn proof mem := (h.proofsDrawn proof (m.proofs ▸ mem)).trans m.drawn
  proofs proof mem := m.log ▸ h.proofs proof (m.proofs ▸ mem)
  logDrawn e mem := (h.logDrawn e (m.log ▸ mem)).mono m.drawn

/-- A request is at its next point, with numbers it has drawn. -/
theorem Valid.enters (h : Valid t) {phase : Phase} (own : Knows t p phase) {n : ℕ} (le : t.drawn ≤ n) :
    Valid { enter t p phase with drawn := n } where
  sound := h.sound.moved ⟨rfl, rfl, rfl, rfl, rfl, le_rfl, le⟩
  allowed := h.allowed
  knows q :=
    (knows_enter own h.knows q).of_frame (fun _ mem _ held => ⟨mem, held⟩) fun _ mem _ held => ⟨mem, held⟩

theorem beginRequest_ok {phase : Phase} (ok : beginRequest t p phase = .ok t') :
    t' = enter t p phase := by
  rw [beginRequest] at ok
  split at ok
  · simp only [bind_eq_ok, ensure_eq_ok, pure_eq_ok] at ok
    obtain ⟨_, _, rfl⟩ := ok
    rfl
  · cases ok

theorem Valid.begins (h : Valid t) {phase : Phase} (ok : beginRequest t p phase = .ok t')
    (own : Knows t p phase) : Valid t' := by
  rw [beginRequest_ok ok]
  exact h.enters own (le_refl t.drawn)

theorem Valid.begins_drawing (h : Valid t) {phase : Phase} (ok : beginRequest t p phase = .ok t')
    (own : Knows t p phase) : Valid { t' with drawn := t.drawn + 1 } := by
  rw [beginRequest_ok ok]
  exact h.enters own (Nat.le_succ _)

/-- A session that is found was made for its account, and nothing has closed it. -/
theorem sessionAccount_made (h : Sound t) {session : ℕ} {account : Account}
    (ok : sessionAccount t session = .ok account) :
    account ∈ t.accounts ∧ Standing Ends t.log (.made (.session session) account.id) := by
  rw [sessionAccount] at ok
  cases found : t.sessions.find? fun row =>
      row.id = session ∧ row.revokedAt = none ∧ t.now < row.expiresAt with
  | none =>
      rw [found] at ok
      cases ok
  | some row =>
      rw [found] at ok
      simp only [bind_eq_ok, ensure_eq_ok, pure_eq_ok] at ok
      obtain ⟨_, listed, _, _, rfl⟩ := ok
      obtain ⟨there, same⟩ := byId_some (accountOf_ok listed)
      have meets : row.id = session ∧ row.revokedAt = none ∧ t.now < row.expiresAt := by
        simpa using List.find?_some found
      obtain ⟨rfl, live, _⟩ := meets
      rw [same]
      exact ⟨there, h.sessions row (List.mem_of_find?_eq_some found) live⟩

/-- A session is accepted. -/
theorem Valid.accepts (h : Valid t) {session : ℕ} {account : Account}
    (ok : sessionAccount t session = .ok account) :
    Valid { t with log := t.log ++ [.accepted (.session session) account.id t.now] } := by
  obtain ⟨there, made⟩ := sessionAccount_made h.sound ok
  have c : Commits t { t with log := t.log ++ [.accepted (.session session) account.id t.now] }
      account.id none [.accepted (.session session) account.id t.now] := {
    now := rfl
    log := rfl
    drawn := le_rfl
    about := by simp [Event.account]
    newDrawn := by simp [Event.Drawn]
    onePhone := h.sound.onePhone
    ids := h.sound.ids
    idsDrawn := h.sound.idsDrawn
    accounts := fun row mem => .inr ((h.sound.accounts row mem).keepsAll rfl rfl rfl rfl
      (fun x new e => List.mem_singleton.mp new ▸ (not_ends _ _).2 t.now) (by simp))
    sessions := sessions_stay (by simp [Closes])
    toLinksAfter := .stay h.sound rfl le_rfl (by simp [Closes]) (by simp)
    frame := ⟨rfl, rfl, rfl⟩
    proofs := useProof_none.symm }
  exact ⟨c.sound h.sound (by simp), h.allowed.append made,
    fun q => c.knows (by simp) (by simp) (h.knows q)⟩

/-- A request has the lock of its phone, and its proof is live under it. -/
theorem Valid.locksPhone (h : Valid t) (ok : lockPhone t p = .ok t') : Valid t' := by
  rw [lockPhone] at ok
  split at ok
  · cases ok
  · rename_i phoneKey proof needed _
    simp only [bind_eq_ok, ensure_eq_ok, pure_eq_ok] at ok
    obtain ⟨_, free, verifiedAt, proven, rfl⟩ := ok
    refine ⟨h.sound.moved ⟨rfl, rfl, rfl, rfl, rfl, le_rfl, le_rfl⟩, h.allowed, fun q => ?_⟩
    by_cases same : q = p
    · subst same
      rw [show (enter t q (.proven (t.phase q) proof verifiedAt)).phase q =
        .proven (t.phase q) proof verifiedAt from Function.update_self ..]
      cases proof with
      | none => trivial
      | some number =>
          simp only [provenPhoneAt, bind_eq_ok, ensure_eq_ok] at proven
          obtain ⟨_, live, _⟩ := proven
          obtain ⟨row, mem, meets⟩ := List.any_eq_true.mp live
          simp only [Bool.and_eq_true, decide_eq_true_eq] at meets
          obtain ⟨⟨⟨rfl, rfl⟩, unused⟩, _⟩ := meets
          exact ⟨row, mem, rfl, unused, Function.update_self ..⟩
    · rw [show (enter t p (.proven (t.phase p) proof verifiedAt)).phase q = t.phase q from
        Function.update_of_ne same ..]
      refine (h.knows q).of_frame (fun row mem _ held => ⟨mem, ?_⟩) fun _ mem _ held => ⟨mem, held⟩
      have other : row.phoneKey ≠ phoneKey := by
        rintro rfl
        cases free.symm.trans held
      exact (Function.update_of_ne other ..).trans held

/-- A request has the row of its link, unused. -/
theorem Valid.locksLink (h : Valid t) (ok : lockLink t p = .ok t') : Valid t' := by
  rw [lockLink] at ok
  split at ok
  · rename_i link hash _
    cases found : t.links.find? fun row => row.id = link with
    | none =>
        rw [found] at ok
        cases ok
    | some row =>
        rw [found] at ok
        simp only [bind_eq_ok, ensure_eq_ok, pure_eq_ok] at ok
        obtain ⟨_, free, _, ⟨unused, _⟩, rfl⟩ := ok
        refine ⟨h.sound.moved ⟨rfl, rfl, rfl, rfl, rfl, le_rfl, le_rfl⟩, h.allowed, fun q => ?_⟩
        by_cases same : q = p
        · subst same
          rw [show (enter t q (.linkLocked link row.accountId hash)).phase q =
            .linkLocked link row.accountId hash from Function.update_self ..]
          exact ⟨Function.update_self .., row, List.mem_of_find?_eq_some found,
            by simpa using List.find?_some found, rfl, unused⟩
        · rw [show (enter t p (.linkLocked link row.accountId hash)).phase q = t.phase q from
            Function.update_of_ne same ..]
          refine (h.knows q).of_frame (fun _ mem _ held => ⟨mem, held⟩) fun other mem _ held => ⟨mem, ?_⟩
          have apart : other.id ≠ link := by
            rintro rfl
            cases free.symm.trans held
          exact (Function.update_of_ne apart ..).trans held
  · cases ok

/-- A verified code makes a proof with the next number. -/
theorem Valid.verifiesOtp (h : Valid t) (phoneKey : String) (expiresAt : ℕ) :
    Valid { t with
      proofs := t.proofs ++ [{
        id := t.drawn + 1
        phoneKey := phoneKey
        expiresAt := expiresAt
        usedAt := none }]
      drawn := t.drawn + 1 } where
  sound := {
    onePhone := h.sound.onePhone
    ids := h.sound.ids
    idsDrawn := fun account mem => (h.sound.idsDrawn account mem).trans (Nat.le_succ _)
    accounts := h.sound.accounts
    sessions := h.sound.sessions
    links := h.sound.links
    oneLink := h.sound.oneLink
    linksDrawn := fun link mem => (h.sound.linksDrawn link mem).trans (Nat.le_succ _)
    proofIds := by
      refine List.pairwise_append.mpr ⟨h.sound.proofIds, List.pairwise_singleton .., ?_⟩
      intro old mem new added
      have bound := h.sound.proofsDrawn old mem
      rw [List.mem_singleton.mp added]
      exact Nat.ne_of_lt (Nat.lt_succ_of_le bound)
    proofsDrawn := fun proof mem => by
      rcases List.mem_append.mp mem with old | added
      · exact (h.sound.proofsDrawn proof old).trans (Nat.le_succ _)
      · rw [List.mem_singleton.mp added]
    proofs := fun proof mem => by
      rcases List.mem_append.mp mem with old | added
      · exact h.sound.proofs proof old
      · rw [List.mem_singleton.mp added]
        have fresh : Event.proofUsed (t.drawn + 1) ∉ t.log :=
          fun used => absurd (h.sound.logDrawn _ used) (Nat.not_succ_le_self t.drawn)
        exact iff_of_false (fun used => used rfl) fresh
    logDrawn := fun e mem => (h.sound.logDrawn e mem).mono (Nat.le_succ _) }
  allowed := h.allowed
  knows q := (h.knows q).of_frame (fun _ mem _ held => ⟨List.mem_append_left _ mem, held⟩)
    fun _ mem _ held => ⟨mem, held⟩

theorem Valid.signsOut (h : Valid t) (session : ℕ) :
    Valid { t with
      sessions := t.sessions.map fun row =>
        if row.id = session ∧ row.revokedAt = none then { row with revokedAt := some t.now } else row } where
  sound := { h.sound with
    sessions := fun row mem => by
      obtain ⟨old, there, rfl⟩ := List.mem_map.mp mem
      split
      · exact fun live => by cases live
      · exact h.sound.sessions old there }
  allowed := h.allowed
  knows q := (h.knows q).of_frame (fun _ mem _ held => ⟨mem, held⟩) fun _ mem _ held => ⟨mem, held⟩

/-- What a colleague does leaves the proofs and links of the requests in flight. -/
theorem Valid.staff (h : Valid t) {accountId version : ℕ} {action : StaffAction}
    (ok : staff t accountId version action = .ok t') : Valid t' := by
  simp only [BuyerAccounts.staff, bind_eq_ok, ensure_eq_ok] at ok
  obtain ⟨account, found, _, _, ok⟩ := ok
  obtain ⟨new, c, plain⟩ := act_commits h.sound (byId_some (accountOf_ok found)).1 ok
  refine ⟨c.sound h.sound (by simp), ?_, fun q => ?_⟩
  · rw [c.log]
    exact plain_justified h.allowed plain
  · rw [c.frame.1]
    refine c.knows (by simp) (fun link time accepted => ?_) (h.knows q)
    have allowed := plain _ accepted [.accepted (.link link) account.id time]
    exact absurd List.mem_cons_self (allowed.2 account.id time)

/-- After a commit all rows and requests are sound, and the log is allowed exactly when no
password was accepted during a lock. -/
theorem Valid.commits (h : Valid t) (ok : commit t p = .ok t') :
    Sound (finished t' p) ∧ (∀ q, Knows (finished t' p) q ((finished t' p).phase q)) ∧
      (Justified Allowed t'.log ↔ unlocked t (.commit p) = true) := by
  obtain ⟨a, proof, new, spec⟩ := commit_spec h ok
  have c := spec.commits
  refine ⟨?_, knows_finished fun q other => ?_, spec.allowed⟩
  · refine (c.sound h.sound fun number is => ?_).moved ⟨rfl, rfl, rfl, rfl, rfl, le_rfl, le_rfl⟩
    obtain ⟨row, mem, rfl, _⟩ := spec.proofs number is
    exact h.sound.proofsDrawn row mem
  · rw [c.frame.1]
    refine c.knows (fun number is row mem same held => ?_) (fun link time accepted held => ?_) (h.knows q)
    · obtain ⟨own, listed, rfl, _, mine⟩ := spec.proofs number is
      have one : row = own := h.sound.sameProof mem listed same
      rw [one, mine] at held
      exact other (Option.some.inj held).symm
    · rw [spec.links link time accepted] at held
      exact other (Option.some.inj held).symm

theorem Valid.step (h : Valid t) {op : Op} (meets : unlocked t op = true)
    (ok : step nfc t op = .ok t') : Valid t' := by
  cases op with
  | tick ms =>
      obtain rfl := Except.ok.inj ok
      refine ⟨h.sound.moved ⟨rfl, rfl, rfl, rfl, rfl, Nat.le_add_right .., le_rfl⟩, h.allowed, fun q => ?_⟩
      exact (h.knows q).of_frame (fun _ mem _ held => ⟨mem, held⟩) fun _ mem _ held => ⟨mem, held⟩
  | switch isOpen smsLoginOn =>
      obtain rfl := Except.ok.inj ok
      refine ⟨h.sound.moved ⟨rfl, rfl, rfl, rfl, rfl, le_rfl, le_rfl⟩, h.allowed, fun q => ?_⟩
      exact (h.knows q).of_frame (fun _ mem _ held => ⟨mem, held⟩) fun _ mem _ held => ⟨mem, held⟩
  | verifyOtp phoneKey =>
      obtain rfl := Except.ok.inj ok
      exact h.verifiesOtp phoneKey _
  | askRegister p phoneKey password proof =>
      simp only [BuyerAccounts.step, bind_eq_ok, ensure_eq_ok, pure_eq_ok] at ok
      obtain ⟨_, _, asked, begun, rfl⟩ := ok
      exact h.begins_drawing begun trivial
  | askApply p phoneKey proof =>
      simp only [BuyerAccounts.step, bind_eq_ok, ensure_eq_ok] at ok
      obtain ⟨_, _, begun⟩ := ok
      exact h.begins begun trivial
  | askApplyFrom p session =>
      simp only [BuyerAccounts.step, bind_eq_ok, pure_eq_ok] at ok
      obtain ⟨account, found, asked, begun, rfl⟩ := ok
      rw [beginRequest_ok begun]
      have own : Knows { t with log := t.log ++ [.accepted (.session session) account.id t.now] } p
          (.applyingFrom account.id account.phoneKey) := trivial
      exact (h.accepts found).enters own (le_refl t.drawn)
  | askSmsSignIn p phoneKey proof =>
      simp only [BuyerAccounts.step, bind_eq_ok, ensure_eq_ok] at ok
      obtain ⟨_, _, begun⟩ := ok
      exact h.begins begun trivial
  | askSignIn p phoneKey password =>
      simp only [BuyerAccounts.step, readForSignIn] at ok
      split at ok
      · cases ok
      · simp only [bind_eq_ok, ensure_eq_ok] at ok
        obtain ⟨_, _, begun⟩ := ok
        refine h.begins begun fun matched => ?_
        rw [verifyPassword, Option.any_eq_true] at matched
        obtain ⟨hash, is, _⟩ := matched
        exact Option.isSome_iff_exists.mpr ⟨hash, is⟩
  | askSetPassword p link password =>
      simp only [BuyerAccounts.step, readLink] at ok
      split at ok
      · simp only [bind_eq_ok, pure_eq_ok] at ok
        obtain ⟨asked, begun, rfl⟩ := ok
        exact h.begins_drawing begun trivial
      · cases ok
  | lockPhone p => exact h.locksPhone ok
  | lockLink p => exact h.locksLink ok
  | commit p =>
      simp only [BuyerAccounts.step, bind_eq_ok, pure_eq_ok] at ok
      obtain ⟨done, ok, rfl⟩ := ok
      obtain ⟨sound, knows, allowed⟩ := h.commits ok
      exact ⟨sound, allowed.mpr meets, knows⟩
  | abort p =>
      obtain rfl := Except.ok.inj ok
      exact ⟨h.sound.moved ⟨rfl, rfl, rfl, rfl, rfl, le_rfl, le_rfl⟩, h.allowed,
        knows_finished fun q _ => h.knows q⟩
  | signOut session =>
      simp only [BuyerAccounts.step, bind_eq_ok, ensure_eq_ok, pure_eq_ok] at ok
      obtain ⟨_, _, rfl⟩ := ok
      exact h.signsOut session
  | present session =>
      simp only [BuyerAccounts.step, bind_eq_ok, ensure_eq_ok, pure_eq_ok] at ok
      obtain ⟨_, _, account, found, rfl⟩ := ok
      exact h.accepts found
  | staff accountId version action => exact h.staff ok

/-- A step that leaves a safe state has accepted no password during a lock. -/
theorem Valid.unlocked (h : Valid t) {op : Op} (ok : BuyerAccounts.step nfc t op = .ok t')
    (safe : Safe t') : BuyerAccounts.unlocked t op = true := by
  cases op with
  | commit p =>
      simp only [BuyerAccounts.step, bind_eq_ok, pure_eq_ok] at ok
      obtain ⟨done, ok, rfl⟩ := ok
      exact (h.commits ok).2.2.mp safe.allowed
  | _ => rfl

theorem valid_start (now : ℕ) (isOpen smsLoginOn : Bool) : Valid (start now isOpen smsLoginOn) where
  sound := {
    onePhone := List.Pairwise.nil
    ids := List.Pairwise.nil
    idsDrawn := List.forall_mem_nil _
    accounts := List.forall_mem_nil _
    sessions := List.forall_mem_nil _
    links := List.forall_mem_nil _
    oneLink := List.forall_mem_nil _
    linksDrawn := List.forall_mem_nil _
    proofIds := List.Pairwise.nil
    proofsDrawn := List.forall_mem_nil _
    proofs := List.forall_mem_nil _
    logDrawn := List.forall_mem_nil _ }
  allowed := justified_nil
  knows _ := trivial

/-- A run keeps the accounts safe in every state it reaches exactly when no sign-in's
transaction accepts the password of an account that is locked. -/
theorem accounts_are_safe (nfc : String → String) (now : ℕ) (isOpen smsLoginOn : Bool)
    (ops : List Op) :
    (∀ n, Safe (run (step nfc) (start now isOpen smsLoginOn) (ops.take n))) ↔
    Along (step nfc) (fun t op => unlocked t op = true) (start now isOpen smsLoginOn) ops := by
  have begins := valid_start now isOpen smsLoginOn
  constructor
  · refine along_of_prefixes (fun s op t h ok after => ?_) begins
    have meets := h.unlocked ok after
    exact ⟨meets, h.step meets ok⟩
  · intro along n
    have valid : Valid (run (step nfc) (start now isOpen smsLoginOn) (ops.take n)) :=
      run_invariant_along (fun _ _ _ h meets ok => h.step meets ok) begins (along.take n)
    exact valid.safe

/-! ### A sign-in in flight when the account is locked -/

/-- An account is made, the right password is checked, five wrong ones lock the account,
and the first request commits. -/
def inFlight : List Op :=
  [.askRegister 1 "9121234567" "right" none, .lockPhone 1, .commit 1,
    .askSignIn 1 "9121234567" "right"] ++
  (List.replicate 5 [.askSignIn 2 "9121234567" "wrong", .commit 2]).flatten ++ [.commit 1]

/-- The account is locked for the next fifteen minutes, and a password is accepted. -/
theorem password_during_a_lock :
    ¬ ∀ (nfc : String → String) (now : ℕ) (isOpen smsLoginOn : Bool) (ops : List Op) (n : ℕ),
      Safe (run (step nfc) (start now isOpen smsLoginOn) (ops.take n)) := by
  intro claim
  have along := (accounts_are_safe id 0 true false inFlight).mp (claim id 0 true false inFlight)
  exact absurd along (by decide +kernel)

end PapitalErp.BuyerAccounts
