import PapitalErp.Storefront.BuyerAccounts

/-!
# What a closed credential, a suspension and a lock mean for later sign-ins

The log of a run says what was made, closed and accepted, in this order. A session, a
link or a password is accepted only while the entry that made it stands, which is what
the revoked and used rows and the replaced hash keep track of; a sign-in succeeds only
while the account is active; a proof is used once.

The lock of an account after wrong passwords is looked at in the row read before the
transaction and not again under the row lock, so a sign-in that has read the row before
the lock may succeed while it stands. A run is safe exactly when no sign-in does so.
-/

namespace PapitalErp.BuyerAccounts

open Transition EventLog

variable {nfc : String → String} {t t' : Tables}

/-- What closes a credential, ends the right to sign in, or lifts a lock. -/
def Ends : Event → Event → Prop
  | .made (.password _) a, .closed b password => a = b ∧ password = true
  | .made _ a, .closed b _ => a = b
  | .activated a, .suspended b => a = b
  | .locked a _, .lifted b => a = b
  | _, _ => False

/-- What may be done after the entries `earlier`. -/
def Allowed (earlier : List Event) : Event → Prop
  | .accepted (.session id) a _ => Standing Ends earlier (.made (.session id) a)
  | .accepted (.link id) a _ =>
      Standing Ends earlier (.made (.link id) a) ∧ ∀ b time, .accepted (.link id) b time ∉ earlier
  | .accepted (.password salt) a time =>
      Standing Ends earlier (.made (.password salt) a) ∧
        ∀ lockEnd, Standing Ends earlier (.locked a lockEnd) → lockEnd ≤ time
  | .signedIn a => Standing Ends earlier (.activated a)
  | .proofUsed proof => .proofUsed proof ∉ earlier
  | _ => True

/-- One account a phone; everything accepted was made and not closed since, by an active
account, no password during a lock, each link and proof once; and a proof is used
exactly when an operation has committed with it. -/
structure Safe (t : Tables) : Prop where
  onePhone : t.accounts.Pairwise fun a b => a.phoneKey ≠ b.phoneKey
  allowed : Justified Allowed t.log
  proofs : ∀ proof ∈ t.proofs, proof.usedAt ≠ none ↔ .proofUsed proof.id ∈ t.log

/-- The account that a sign-in's transaction accepts the password for is not locked. -/
def unlocked (t : Tables) : Op → Bool
  | .commit p =>
      match t.phase p with
      | .signingIn accountId found matched =>
          match byId t accountId with
          | some account => !(matched && account.passwordHash = found && account.isLocked t.now)
          | none => true
      | _ => true
  | _ => true

/-! ## The rows and the log -/

/-- The account an entry is about. -/
def Event.account : Event → Option ℕ
  | .activated a => some a
  | .suspended a => some a
  | .made _ a => some a
  | .closed a _ => some a
  | .accepted _ a _ => some a
  | .signedIn a => some a
  | .locked a _ => some a
  | .lifted a => some a
  | .proofUsed _ => none

/-- The numbers in an entry that a later row could repeat are drawn. -/
def Event.Drawn (n : ℕ) : Event → Prop
  | .locked a _ => a ≤ n
  | .accepted (.link id) _ _ => id ≤ n
  | .proofUsed proof => proof ≤ n
  | _ => True

/-- The entries are about the account, or about none. -/
def About (a : ℕ) (new : List Event) : Prop := ∀ e ∈ new, e.account = some a ∨ e.account = none

/-- What the row of an account says about the log. -/
structure AccountSound (log : List Event) (now : ℕ) (account : Account) : Prop where
  active : account.status = .active → Standing Ends log (.activated account.id)
  password : ∀ hash, account.passwordHash = some hash →
    Standing Ends log (.made (.password hash.salt) account.id)
  locked : ∀ lockEnd, account.lockedUntil = some lockEnd →
    Standing Ends log (.locked account.id lockEnd) ∧ lockEnd ≤ now + LOGIN_LOCK_MS
  covers : ∀ lockEnd, Standing Ends log (.locked account.id lockEnd) →
    ∃ later, account.lockedUntil = some later ∧ lockEnd ≤ later

def SessionSound (log : List Event) (session : Session) : Prop :=
  session.revokedAt = none → Standing Ends log (.made (.session session.id) session.accountId)

def LinkSound (log : List Event) (link : Link) : Prop :=
  link.usedAt = none → Standing Ends log (.made (.link link.id) link.accountId) ∧
    ∀ a time, .accepted (.link link.id) a time ∉ log

/-- An account has one unused link at most. -/
def OneLink (links : List Link) : Prop :=
  ∀ link ∈ links, ∀ other ∈ links, link.accountId = other.accountId → link.usedAt = none →
    other.usedAt = none → link.id = other.id

/-- What the rows say about the log, and the keys of the tables. -/
structure Sound (t : Tables) : Prop where
  onePhone : t.accounts.Pairwise fun a b => a.phoneKey ≠ b.phoneKey
  ids : t.accounts.Pairwise fun a b => a.id ≠ b.id
  idsDrawn : ∀ account ∈ t.accounts, account.id ≤ t.drawn
  accounts : ∀ account ∈ t.accounts, AccountSound t.log t.now account
  sessions : ∀ session ∈ t.sessions, SessionSound t.log session
  links : ∀ link ∈ t.links, LinkSound t.log link
  oneLink : OneLink t.links
  linksDrawn : ∀ link ∈ t.links, link.id ≤ t.drawn
  proofIds : t.proofs.Pairwise fun a b => a.id ≠ b.id
  proofsDrawn : ∀ proof ∈ t.proofs, proof.id ≤ t.drawn
  proofs : ∀ proof ∈ t.proofs, proof.usedAt ≠ none ↔ .proofUsed proof.id ∈ t.log
  logDrawn : ∀ e ∈ t.log, e.Drawn t.drawn

/-- What a request relies on, by how far it is. -/
def Knows (t : Tables) (p : ℕ) : Phase → Prop
  | .signingIn _ found matched => matched = true → found.isSome = true
  | .proven _ (some proof) _ => ∃ row ∈ t.proofs, row.id = proof ∧ row.usedAt = none ∧
      t.phoneLocks row.phoneKey = some p
  | .linkLocked link accountId _ => t.linkLocks link = some p ∧
      ∃ row ∈ t.links, row.id = link ∧ row.accountId = accountId ∧ row.usedAt = none
  | _ => True

structure Valid (t : Tables) : Prop where
  sound : Sound t
  allowed : Justified Allowed t.log
  knows : ∀ p, Knows t p (t.phase p)

theorem Valid.safe (h : Valid t) : Safe t := ⟨h.sound.onePhone, h.allowed, h.sound.proofs⟩

/-! ### Entries about one account -/

section Entries

variable {log new : List Event} {e x : Event} {a : ℕ}

theorem Ends.account (ends : Ends e x) : ∃ a, e.account = some a ∧ x.account = some a := by
  cases e with
  | made c a =>
      cases x with
      | closed b password =>
          have same : a = b := by
            cases c with
            | password salt => exact ends.1
            | session id => exact ends
            | link id => exact ends
          exact ⟨a, rfl, same ▸ rfl⟩
      | _ => cases c <;> exact absurd ends id
  | activated a =>
      cases x with
      | suspended b => exact ⟨a, rfl, congrArg some (show a = b from ends).symm⟩
      | _ => exact absurd ends id
  | locked a lockEnd =>
      cases x with
      | lifted b => exact ⟨a, rfl, congrArg some (show a = b from ends).symm⟩
      | _ => exact absurd ends id
  | _ => cases x <;> exact absurd ends id

/-- Making or accepting a credential ends nothing. -/
theorem not_ends (c : Credential) (a : ℕ) :
    ¬Ends e (.made c a) ∧ ∀ time, ¬Ends e (.accepted c a time) := by
  refine ⟨fun ends => ?_, fun time ends => ?_⟩ <;> cases e with
  | made c => cases c <;> exact ends
  | _ => exact ends

/-- Entries about one account leave the others'. -/
theorem About.keeps (about : About a new) {b : ℕ} (is : e.account = some b) (other : b ≠ a) :
    ∀ x ∈ new, ¬Ends e x := by
  intro x mem ends
  obtain ⟨c, first, second⟩ := ends.account
  rcases about x mem with own | none
  · rw [is] at first
    rw [own] at second
    exact other ((Option.some.inj first).trans (Option.some.inj second).symm)
  · rw [none] at second
    cases second

theorem About.standing (about : About a new) {b : ℕ} (is : e.account = some b) (other : b ≠ a)
    (standing : Standing Ends log e) : Standing Ends (log ++ new) e :=
  standing.append_list (about.keeps is other)

theorem About.not_mem (about : About a new) {b : ℕ} (is : e.account = some b) (other : b ≠ a) :
    e ∉ new := by
  intro mem
  rcases about e mem with own | none
  · exact other (Option.some.inj (is.symm.trans own))
  · cases is.symm.trans none

/-- The row of another account says as much about the longer log. -/
theorem AccountSound.other {now later : ℕ} {account : Account} (h : AccountSound log now account)
    (about : About a new) (other : account.id ≠ a) (le : now ≤ later) :
    AccountSound (log ++ new) later account where
  active active := about.standing rfl other (h.active active)
  password hash is := about.standing rfl other (h.password hash is)
  locked lockEnd is :=
    ⟨about.standing rfl other (h.locked lockEnd is).1, by have := (h.locked lockEnd is).2; omega⟩
  covers lockEnd standing :=
    h.covers lockEnd (standing.of_append (about.not_mem rfl other)).1

theorem AccountSound.later {now later : ℕ} {account : Account} (h : AccountSound log now account)
    (le : now ≤ later) : AccountSound log later account where
  active := h.active
  password := h.password
  locked lockEnd is := ⟨(h.locked lockEnd is).1, by have := (h.locked lockEnd is).2; omega⟩
  covers := h.covers

/-- No entry of the list closes anything of the account. -/
def Closes (a : ℕ) (new : List Event) : Prop := ∃ password, .closed a password ∈ new

theorem standing_made {c : Credential} (standing : Standing Ends log (.made c a))
    (keeps : ¬Closes a new) : Standing Ends (log ++ new) (.made c a) := by
  refine standing.append_list fun x mem ends => keeps ?_
  cases x with
  | closed b password =>
      have same : a = b := by
        cases c with
        | password salt => exact ends.1
        | session id => exact ends
        | link id => exact ends
      exact ⟨password, same ▸ mem⟩
  | _ => cases c <;> exact absurd ends id

theorem SessionSound.append {session : Session} (h : SessionSound log session)
    (keeps : ¬Closes session.accountId new) : SessionSound (log ++ new) session :=
  fun live => standing_made (h live) keeps

theorem About.not_closes (about : About a new) {b : ℕ} (other : b ≠ a) : ¬Closes b new := by
  rintro ⟨password, mem⟩
  exact about.not_mem rfl other mem

end Entries

/-! ### The row of the account an operation is about -/

section Row

variable {log new : List Event} {now : ℕ} {row : Account} {a : ℕ}

theorem standing_activated (standing : Standing Ends log (.activated a))
    (keeps : Event.suspended a ∉ new) : Standing Ends (log ++ new) (.activated a) := by
  refine standing.append_list fun x mem ends => keeps ?_
  cases x with
  | suspended b => exact (show a = b from ends) ▸ mem
  | _ => exact absurd ends id

theorem standing_password {salt : ℕ} (standing : Standing Ends log (.made (.password salt) a))
    (keeps : Event.closed a true ∉ new) : Standing Ends (log ++ new) (.made (.password salt) a) := by
  refine standing.append_list fun x mem ends => keeps ?_
  cases x with
  | closed b password =>
      obtain ⟨rfl, rfl⟩ : a = b ∧ password = true := ends
      exact mem
  | _ => exact absurd ends id

/-- No lock stands once it was lifted. -/
theorem not_standing_locked {lockEnd : ℕ} (lifted : Event.lifted a ∈ new)
    (old : Event.locked a lockEnd ∉ new) : ¬Standing Ends (log ++ new) (.locked a lockEnd) :=
  fun standing => (standing.of_append old).2 _ lifted rfl

/-- The row after its lock was lifted: what it keeps of its status and password still
stands. -/
theorem AccountSound.lifted (lifted : Event.lifted row.id ∈ new)
    (unlocks : ∀ lockEnd, Event.locked row.id lockEnd ∉ new)
    (none : row.lockedUntil = none)
    (active : row.status = .active → Standing Ends (log ++ new) (.activated row.id))
    (password : ∀ hash, row.passwordHash = some hash →
      Standing Ends (log ++ new) (.made (.password hash.salt) row.id)) :
    AccountSound (log ++ new) now row where
  active := active
  password := password
  locked _ is := absurd (none.symm.trans is) nofun
  covers lockEnd standing := absurd standing (not_standing_locked lifted (unlocks lockEnd))

/-- The row after entries that neither lock it nor lift its lock. -/
theorem AccountSound.keepsLock {old : Account} (h : AccountSound log now old) (same : row.id = old.id)
    (kept : row.lockedUntil = old.lockedUntil) (lifts : Event.lifted row.id ∉ new)
    (unlocks : ∀ lockEnd, Event.locked row.id lockEnd ∉ new)
    (active : row.status = .active → Standing Ends (log ++ new) (.activated row.id))
    (password : ∀ hash, row.passwordHash = some hash →
      Standing Ends (log ++ new) (.made (.password hash.salt) row.id)) :
    AccountSound (log ++ new) now row where
  active := active
  password := password
  locked lockEnd is := by
    rw [kept] at is
    obtain ⟨standing, bound⟩ := h.locked lockEnd is
    refine ⟨?_, bound⟩
    rw [same] at lifts ⊢
    refine standing.append_list fun x mem ends => lifts ?_
    cases x with
    | lifted b => exact (show old.id = b from ends) ▸ mem
    | _ => exact absurd ends id
  covers lockEnd standing := by
    rw [kept]
    exact h.covers lockEnd (same ▸ (standing.of_append (unlocks lockEnd)).1)

end Row

/-! ### One commit -/

/-- The accounts after a commit about `a`. -/
structure AccountsAfter (t t' : Tables) (a : ℕ) : Prop where
  onePhone : t'.accounts.Pairwise fun a b => a.phoneKey ≠ b.phoneKey
  ids : t'.accounts.Pairwise fun a b => a.id ≠ b.id
  idsDrawn : ∀ account ∈ t'.accounts, account.id ≤ t'.drawn
  accounts : ∀ row ∈ t'.accounts,
    row ∈ t.accounts ∧ row.id ≠ a ∨ AccountSound t'.log t'.now row

/-- The links after a commit about `a` with the entries `new`. -/
structure LinksAfter (t t' : Tables) (a : ℕ) (new : List Event) : Prop where
  links : ∀ link ∈ t'.links, link ∈ t.links ∧ (link.accountId = a → ¬Closes a new) ∧
    (∀ b time, .accepted (.link link.id) b time ∉ new) ∨ LinkSound t'.log link
  oneLink : OneLink t'.links
  linksDrawn : ∀ link ∈ t'.links, link.id ≤ t'.drawn
  held : ∀ link ∈ t.links, link.usedAt = none → t.linkLocks link.id ≠ none →
    link ∈ t'.links ∨ .accepted (.link link.id) a t.now ∈ new

/-- A commit about the account `a`: its entries, and what its rows say about the log.
The proof it has used is an entry of its own. -/
structure Commits (t t' : Tables) (a : ℕ) (proof : Option ℕ) (new : List Event) : Prop
    extends AccountsAfter t t' a, LinksAfter t t' a new where
  now : t'.now = t.now
  log : t'.log = t.log ++ (proofEvent proof ++ new)
  drawn : t.drawn ≤ t'.drawn
  about : ∀ e ∈ new, e.account = some a
  newDrawn : ∀ e ∈ new, e.Drawn t'.drawn
  sessions : ∀ session ∈ t'.sessions, session ∈ t.sessions ∧
    (session.accountId = a → ¬Closes a new) ∨ SessionSound t'.log session
  frame : t'.phase = t.phase ∧ t'.phoneLocks = t.phoneLocks ∧ t'.linkLocks = t.linkLocks
  proofs : t'.proofs = useProof t proof

theorem about_proofEvent (a : ℕ) (proof : Option ℕ) : About a (proofEvent proof) := by
  intro e mem
  obtain ⟨number, _, rfl⟩ := List.mem_map.mp mem
  exact .inr rfl

theorem Commits.about_all {a : ℕ} {proof : Option ℕ} {new : List Event} (h : Commits t t' a proof new) :
    About a (proofEvent proof ++ new) := by
  intro e mem
  rcases List.mem_append.mp mem with used | own
  · exact about_proofEvent a proof e used
  · exact .inl (h.about e own)

theorem closes_proofEvent {a : ℕ} {proof : Option ℕ} {new : List Event}
    (closes : Closes a (proofEvent proof ++ new)) : Closes a new := by
  obtain ⟨password, mem⟩ := closes
  rcases List.mem_append.mp mem with used | own
  · obtain ⟨number, _, is⟩ := List.mem_map.mp used
    cases is
  · exact ⟨password, own⟩

theorem mem_proofEvent {proof : Option ℕ} {number : ℕ} :
    Event.proofUsed number ∈ proofEvent proof ↔ proof = some number := by
  cases proof <;> simp [proofEvent, eq_comm]

/-- The proofs after one was used, when it is in the table. -/
theorem Commits.proofs_iff {a : ℕ} {proof : Option ℕ} {new : List Event} (h : Sound t)
    (c : Commits t t' a proof new) :
    ∀ row ∈ t'.proofs, row.usedAt ≠ none ↔ .proofUsed row.id ∈ t'.log := by
  have fresh (number : ℕ) : Event.proofUsed number ∉ new :=
    fun mem => absurd (c.about _ mem) nofun
  intro row mem
  rw [c.proofs, useProof] at mem
  obtain ⟨old, there, rfl⟩ := List.mem_map.mp mem
  rw [c.log, List.mem_append, List.mem_append]
  by_cases used : proof = some old.id
  · rw [if_pos used]
    exact iff_of_true nofun (.inr (.inl (mem_proofEvent.mpr used)))
  · rw [if_neg used]
    refine (h.proofs old there).trans ⟨.inl, fun either => either.resolve_right ?_⟩
    exact fun later => later.elim (fun is => used (mem_proofEvent.mp is)) (fresh old.id)

theorem Event.Drawn.mono {e : Event} {m n : ℕ} (h : e.Drawn m) (le : m ≤ n) : e.Drawn n := by
  cases e with
  | accepted c a time => cases c <;> first | exact trivial | exact Nat.le_trans h le
  | locked a lockEnd => exact Nat.le_trans h le
  | proofUsed proof => exact Nat.le_trans h le
  | _ => trivial

theorem Commits.sound {a : ℕ} {proof : Option ℕ} {new : List Event} (h : Sound t)
    (c : Commits t t' a proof new) (listed : ∀ number ∈ proof, number ≤ t.drawn) : Sound t' where
  onePhone := c.onePhone
  ids := c.ids
  idsDrawn := c.idsDrawn
  accounts row mem := by
    rcases c.accounts row mem with ⟨old, other⟩ | sound
    · rw [c.log]
      exact (h.accounts row old).other c.about_all other c.now.ge
    · exact sound
  sessions session mem := by
    rcases c.sessions session mem with ⟨old, keeps⟩ | sound
    · rw [c.log]
      refine (h.sessions session old).append fun closes => ?_
      by_cases own : session.accountId = a
      · exact keeps own (own ▸ closes_proofEvent closes)
      · exact c.about_all.not_closes own closes
    · exact sound
  links link mem := by
    rcases c.links link mem with ⟨old, keeps, unused⟩ | sound
    · intro live
      obtain ⟨standing, fresh⟩ := h.links link old live
      rw [c.log]
      refine ⟨standing_made standing fun closes => ?_, fun b time accepted => ?_⟩
      · by_cases own : link.accountId = a
        · exact keeps own (own ▸ closes_proofEvent closes)
        · exact c.about_all.not_closes own closes
      · rcases List.mem_append.mp accepted with before | later
        · exact fresh b time before
        · rcases List.mem_append.mp later with used | own
          · obtain ⟨number, _, is⟩ := List.mem_map.mp used
            cases is
          · exact unused b time own
    · exact sound
  oneLink := c.oneLink
  linksDrawn := c.linksDrawn
  proofIds := by
    rw [c.proofs, useProof, List.pairwise_map]
    refine h.proofIds.imp fun {p q} apart => ?_
    split <;> split <;> exact apart
  proofsDrawn row mem := by
    rw [c.proofs, useProof] at mem
    obtain ⟨old, there, rfl⟩ := List.mem_map.mp mem
    have bound := (h.proofsDrawn old there).trans c.drawn
    split <;> exact bound
  proofs := c.proofs_iff h
  logDrawn e mem := by
    rw [c.log] at mem
    rcases List.mem_append.mp mem with old | later
    · exact (h.logDrawn e old).mono c.drawn
    · rcases List.mem_append.mp later with used | own
      · obtain ⟨number, is, rfl⟩ := List.mem_map.mp used
        exact (listed number (Option.mem_toList.mp is)).trans c.drawn
      · exact c.newDrawn e own

/-! ### The rows a commit writes -/

section Rows

variable {a : ℕ} {log new : List Event} {e : Event}

theorem standing_in (before after : List Event) (split_ : new = before ++ e :: after)
    (keeps : ∀ x ∈ after, ¬Ends e x) : Standing Ends (log ++ new) e :=
  split_ ▸ standing_of_new keeps

theorem accountOf_ok {refusal : Refusal} {id : ℕ} {account : Account}
    (ok : accountOf t id refusal = .ok account) : byId t id = some account := by
  rw [accountOf] at ok
  cases found : byId t id with
  | none =>
      rw [found] at ok
      cases ok
  | some row =>
      rw [found] at ok
      rw [Except.ok.inj ok]

theorem byId_some {id : ℕ} {account : Account} (found : byId t id = some account) :
    account ∈ t.accounts ∧ account.id = id :=
  ⟨List.mem_of_find?_eq_some found, by simpa using List.find?_some found⟩

theorem byPhoneKey_some {phoneKey : String} {account : Account}
    (found : byPhoneKey t phoneKey = some account) :
    account ∈ t.accounts ∧ account.phoneKey = phoneKey :=
  ⟨List.mem_of_find?_eq_some found, by simpa using List.find?_some found⟩

/-- A change of a row that leaves its keys. -/
def KeepsKeys (change : Account → Account) : Prop :=
  ∀ row, (change row).id = row.id ∧ (change row).phoneKey = row.phoneKey

theorem withAccount_keys {change : Account → Account} (keeps : KeepsKeys change) {row changed : Account}
    (is : changed = if row.id = a then change row else row) :
    changed.id = row.id ∧ changed.phoneKey = row.phoneKey := by
  rw [is]
  split
  · exact keeps row
  · exact ⟨rfl, rfl⟩

theorem Sound.sameRow (h : Sound t) {one other : Account} (mem : one ∈ t.accounts)
    (mem' : other ∈ t.accounts) (same : one.id = other.id) : one = other :=
  List.inj_on_of_nodup_map (List.pairwise_map.mpr h.ids) mem mem' same

theorem Sound.sameProof (h : Sound t) {one other : PhoneProof} (mem : one ∈ t.proofs)
    (mem' : other ∈ t.proofs) (same : one.id = other.id) : one = other :=
  List.inj_on_of_nodup_map (List.pairwise_map.mpr h.proofIds) mem mem' same

theorem AccountsAfter.changed (h : Sound t) {change : Account → Account} (keeps : KeepsKeys change)
    (is : t'.accounts = withAccount t a change) (le : t.drawn ≤ t'.drawn)
    (own : ∀ row ∈ t.accounts, row.id = a → AccountSound t.log t.now row →
      AccountSound t'.log t'.now (change row)) : AccountsAfter t t' a where
  onePhone := by
    rw [is, withAccount, List.pairwise_map]
    refine h.onePhone.imp fun {x y} apart => ?_
    rw [(withAccount_keys keeps rfl).2, (withAccount_keys keeps rfl).2]
    exact apart
  ids := by
    rw [is, withAccount, List.pairwise_map]
    refine h.ids.imp fun {x y} apart => ?_
    rw [(withAccount_keys keeps rfl).1, (withAccount_keys keeps rfl).1]
    exact apart
  idsDrawn row mem := by
    rw [is] at mem
    obtain ⟨old, there, rfl⟩ := List.mem_map.mp mem
    rw [(withAccount_keys keeps rfl).1]
    exact (h.idsDrawn old there).trans le
  accounts row mem := by
    rw [is] at mem
    obtain ⟨old, there, rfl⟩ := List.mem_map.mp mem
    by_cases same : old.id = a
    · rw [if_pos same]
      exact .inr (own old there same (h.accounts old there))
    · rw [if_neg same]
      exact .inl ⟨there, same⟩

theorem AccountsAfter.inserted (h : Sound t) {new : Account} (is : t'.accounts = t.accounts ++ [new])
    (id : new.id = t.drawn + 1) (free : byPhoneKey t new.phoneKey = none)
    (le : t.drawn + 1 ≤ t'.drawn) (sound : AccountSound t'.log t'.now new) :
    AccountsAfter t t' (t.drawn + 1) where
  onePhone := by
    rw [is, List.pairwise_append]
    refine ⟨h.onePhone, List.pairwise_singleton _ _, fun row mem one added same => ?_⟩
    have none := List.find?_eq_none.mp free row mem
    rw [List.mem_singleton.mp added] at same
    simp [same] at none
  ids := by
    rw [is, List.pairwise_append]
    refine ⟨h.ids, List.pairwise_singleton _ _, fun row mem one added => ?_⟩
    have bound := h.idsDrawn row mem
    rw [List.mem_singleton.mp added, id]
    omega
  idsDrawn row mem := by
    rw [is] at mem
    rcases List.mem_append.mp mem with old | added
    · have bound := h.idsDrawn row old
      omega
    · rw [List.mem_singleton.mp added, id]
      exact le
  accounts row mem := by
    rw [is] at mem
    rcases List.mem_append.mp mem with old | added
    · have bound := h.idsDrawn row old
      exact .inl ⟨old, by omega⟩
    · rw [List.mem_singleton.mp added]
      exact .inr sound

theorem mem_revokeSessions {session : Session} (mem : session ∈ revokeSessions t a) :
    session ∈ t.sessions ∧ session.accountId ≠ a ∨ session.revokedAt ≠ none := by
  obtain ⟨old, there, rfl⟩ := List.mem_map.mp mem
  by_cases ends : old.accountId = a ∧ old.revokedAt = none
  · rw [if_pos ends]
    exact .inr nofun
  · rw [if_neg ends]
    by_cases own : old.accountId = a
    · exact .inr fun live => ends ⟨own, live⟩
    · exact .inl ⟨there, own⟩

theorem mem_closePasswordLinks {link : Link} (mem : link ∈ closePasswordLinks t a) :
    link ∈ t.links ∧ link.accountId ≠ a ∨ link.usedAt ≠ none := by
  obtain ⟨old, there, rfl⟩ := List.mem_map.mp mem
  by_cases ends : old.accountId = a ∧ old.usedAt = none
  · rw [if_pos ends]
    exact .inr nofun
  · rw [if_neg ends]
    by_cases own : old.accountId = a
    · exact .inr fun live => ends ⟨own, live⟩
    · exact .inl ⟨there, own⟩

/-- Closing leaves a link that another transaction has locked. -/
theorem mem_closed {link : Link} (free : linksFree t a = true) (mem : link ∈ t.links)
    (live : link.usedAt = none) (held : t.linkLocks link.id ≠ none) : link ∈ closePasswordLinks t a := by
  have unlocked := List.all_eq_true.mp free link mem
  simp only [live, ne_eq, held, not_true_eq_false, decide_false, Bool.or_false,
    decide_eq_true_eq] at unlocked
  exact List.mem_map.mpr ⟨link, mem, if_neg fun both => unlocked both.1⟩

/-- The sessions after all of the account's were revoked. -/
theorem revoked_sound {log : List Event} :
    ∀ session ∈ revokeSessions t a, session ∈ t.sessions ∧ (session.accountId = a → ¬Closes a new) ∨
      SessionSound log session := by
  intro session mem
  rcases mem_revokeSessions mem with ⟨old, other⟩ | ended
  · exact .inl ⟨old, fun own => absurd own other⟩
  · exact .inr fun live => absurd live ended

/-- A number that was not drawn yet is in no entry of the log. -/
theorem Sound.undrawn (h : Sound t) {n : ℕ} (lt : t.drawn < n) :
    (∀ lockEnd, Event.locked n lockEnd ∉ t.log) ∧
      ∀ b time, Event.accepted (.link n) b time ∉ t.log := by
  refine ⟨fun lockEnd mem => ?_, fun b time mem => ?_⟩
  · exact absurd (h.logDrawn _ mem) (not_le.mpr lt)
  · exact absurd (h.logDrawn _ mem) (not_le.mpr lt)

/-- Closing leaves no unused link of the account, and no more of the others. -/
theorem closed_oneLink (h : OneLink t.links) : OneLink (closePasswordLinks t a) := by
  intro link mem other mem' same live live'
  rcases mem_closePasswordLinks mem with ⟨old, _⟩ | used
  · rcases mem_closePasswordLinks mem' with ⟨old', _⟩ | used'
    · exact h link old other old' same live live'
    · exact absurd live' used'
  · exact absurd live used

theorem LinksAfter.stay (h : Sound t) (is : t'.links = t.links) (le : t.drawn ≤ t'.drawn)
    (keeps : ¬Closes a new) (unused : ∀ link b time, Event.accepted (.link link) b time ∉ new) :
    LinksAfter t t' a new where
  links link mem := .inl ⟨is ▸ mem, fun _ => keeps, unused link.id⟩
  oneLink := is ▸ h.oneLink
  linksDrawn link mem := (h.linksDrawn link (is ▸ mem)).trans le
  held link mem _ _ := .inl (is ▸ mem)

theorem LinksAfter.closed (h : Sound t) (is : t'.links = closePasswordLinks t a)
    (le : t.drawn ≤ t'.drawn) (free : linksFree t a = true)
    (unused : ∀ link b time, Event.accepted (.link link) b time ∉ new) : LinksAfter t t' a new where
  links link mem := by
    rcases mem_closePasswordLinks (is ▸ mem) with ⟨old, other⟩ | used
    · exact .inl ⟨old, fun own => absurd own other, unused link.id⟩
    · exact .inr fun live => absurd live used
  oneLink := is ▸ closed_oneLink h.oneLink
  linksDrawn link mem := by
    rw [is] at mem
    obtain ⟨old, there, rfl⟩ := List.mem_map.mp mem
    have bound := (h.linksDrawn old there).trans le
    split <;> exact bound
  held link mem live held := .inl (is ▸ mem_closed free mem live held)

/-- After closing, a new link is the only unused one of its account. -/
theorem LinksAfter.closedAndNew (h : Sound t)
    (is : t'.links = closePasswordLinks t a ++ [newLink t a (t.drawn + 1)])
    (le : t.drawn + 1 ≤ t'.drawn) (logged : t'.log = t.log ++ new) (free : linksFree t a = true)
    (unused : ∀ link b time, Event.accepted (.link link) b time ∉ new)
    (made : Standing Ends t'.log (.made (.link (t.drawn + 1)) a)) : LinksAfter t t' a new := by
  have closed : LinksAfter t { t' with links := closePasswordLinks t a } a new :=
    .closed h rfl ((Nat.le_succ _).trans le) free unused
  refine ⟨fun link mem => ?_, fun link mem other mem' same live live' => ?_, fun link mem => ?_,
    fun link mem live held => ?_⟩
  · rcases List.mem_append.mp (is ▸ mem) with old | added
    · exact closed.links link old
    · rw [List.mem_singleton.mp added]
      refine .inr fun _ => ⟨made, fun b time accepted => ?_⟩
      rcases List.mem_append.mp (logged ▸ accepted) with before | own
      · exact (h.undrawn (Nat.lt_succ_self t.drawn)).2 b time before
      · exact unused _ b time own
  · rcases List.mem_append.mp (is ▸ mem) with old | added <;>
      rcases List.mem_append.mp (is ▸ mem') with old' | added'
    · exact closed.oneLink link old other old' same live live'
    · rw [List.mem_singleton.mp added'] at same
      exact ((mem_closePasswordLinks old).elim (fun other => other.2 same) fun used => used live).elim
    · rw [List.mem_singleton.mp added] at same
      exact ((mem_closePasswordLinks old').elim (fun other => other.2 same.symm) fun used =>
        used live').elim
    · rw [List.mem_singleton.mp added, List.mem_singleton.mp added']
  · rcases List.mem_append.mp (is ▸ mem) with old | added
    · exact closed.linksDrawn link old
    · rw [List.mem_singleton.mp added]
      exact le
  · exact (closed.held link mem live held).imp_left fun kept => is ▸ List.mem_append_left _ kept

/-- All sessions stay where nothing is closed. -/
theorem sessions_stay {log : List Event} (keeps : ¬Closes a new) :
    ∀ session ∈ t.sessions, session ∈ t.sessions ∧ (session.accountId = a → ¬Closes a new) ∨
      SessionSound log session :=
  fun _ mem => .inl ⟨mem, fun _ => keeps⟩

/-- One more session, made by an entry that stands. -/
theorem sessions_and_new {log : List Event} {sessions : List Session} {n : ℕ}
    (rest : ∀ session ∈ sessions, session ∈ t.sessions ∧ (session.accountId = a → ¬Closes a new) ∨
      SessionSound log session) (made : Standing Ends log (.made (.session n) a)) :
    ∀ session ∈ sessions ++ [newSession t a n], session ∈ t.sessions ∧
      (session.accountId = a → ¬Closes a new) ∨ SessionSound log session := by
  intro session mem
  rcases List.mem_append.mp mem with old | added
  · exact rest session old
  · rw [List.mem_singleton.mp added]
    exact .inr fun _ => made

theorem useProof_none : useProof t none = t.proofs := by
  rw [useProof]
  conv_rhs => rw [← List.map_id t.proofs]
  exact List.map_congr_left fun row _ => if_neg nofun

end Rows

/-! ## The commits -/

section Commit

variable {proof verifiedAt : Option ℕ} {phoneKey : String} {account : Account}

/-- No lock of an account that is new stands. -/
theorem Sound.new_unlocked (h : Sound t) {new : List Event} {lockEnd : ℕ}
    (unlocks : ∀ lockEnd, Event.locked (t.drawn + 1) lockEnd ∉ new) :
    ¬Standing Ends (t.log ++ new) (.locked (t.drawn + 1) lockEnd) := by
  intro standing
  rcases List.mem_append.mp standing.mem with old | added
  · exact (h.undrawn (Nat.lt_succ_self t.drawn)).1 lockEnd old
  · exact unlocks lockEnd added

theorem register_commits (h : Sound t) {hash : PasswordHash}
    (ok : register t phoneKey hash proof verifiedAt = .ok t') :
    Commits t t' (t.drawn + 1) proof [.activated (t.drawn + 1),
      .made (.password hash.salt) (t.drawn + 1), .made (.session (t.drawn + 2)) (t.drawn + 1),
      .signedIn (t.drawn + 1)] := by
  simp only [register, bind_eq_ok, ensure_eq_ok, pure_eq_ok] at ok
  obtain ⟨_, free, rfl⟩ := ok
  refine {
    now := rfl
    log := List.append_assoc ..
    drawn := Nat.le_add_right _ _
    about := by simp [Event.account]
    newDrawn := by simp [Event.Drawn]
    toAccountsAfter := .inserted h rfl rfl free (by simp) ?_
    sessions := sessions_and_new (sessions_stay (by simp [Closes])) ?_
    toLinksAfter := .stay h rfl (Nat.le_add_right _ _) (by simp [Closes]) (by simp)
    frame := ⟨rfl, rfl, rfl⟩
    proofs := rfl }
  · rw [List.append_assoc]
    refine {
      active := fun _ => standing_in (proofEvent proof) _ rfl (by simp [Ends])
      password := fun other is => ?_
      locked := fun _ is => by cases is
      covers := fun lockEnd standing => absurd standing (h.new_unlocked (by simp [proofEvent])) }
    obtain rfl := Option.some.inj is
    exact standing_in (proofEvent proof ++ [.activated (t.drawn + 1)])
      [.made (.session (t.drawn + 2)) (t.drawn + 1), .signedIn (t.drawn + 1)] (by simp) (by simp [Ends])
  · rw [List.append_assoc]
    exact standing_in (proofEvent proof ++ [.activated (t.drawn + 1),
      .made (.password hash.salt) (t.drawn + 1)]) [.signedIn (t.drawn + 1)] (by simp) (by simp [Ends])

theorem applyAnonymously_commits (h : Sound t)
    (ok : applyAnonymously t phoneKey proof verifiedAt = .ok t') :
    Commits t t' (t.drawn + 1) proof [] := by
  simp only [applyAnonymously, bind_eq_ok, ensure_eq_ok, pure_eq_ok] at ok
  obtain ⟨_, free, rfl⟩ := ok
  refine {
    now := rfl
    log := by rw [List.append_nil]
    drawn := Nat.le_add_right _ _
    about := by simp
    newDrawn := by simp
    toAccountsAfter := .inserted h rfl rfl free (by simp) ?_
    sessions := sessions_stay (by simp [Closes])
    toLinksAfter := .stay h rfl (Nat.le_add_right _ _) (by simp [Closes]) (by simp)
    frame := ⟨rfl, rfl, rfl⟩
    proofs := rfl }
  exact {
    active := fun is => by cases is
    password := fun _ is => by cases is
    locked := fun _ is => by cases is
    covers := fun lockEnd standing => absurd standing (h.new_unlocked (by simp [proofEvent])) }

/-- A change of the row that leaves its status, its password and its lock. -/
theorem AccountSound.keepsAll {log new : List Event} {now : ℕ} {old row : Account}
    (h : AccountSound log now old) (same : row.id = old.id) (status : row.status = old.status)
    (hash : row.passwordHash = old.passwordHash) (lock : row.lockedUntil = old.lockedUntil)
    (ends : ∀ x ∈ new, ∀ e, ¬Ends e x) (unlocks : ∀ lockEnd, Event.locked row.id lockEnd ∉ new) :
    AccountSound (log ++ new) now row := by
  refine h.keepsLock same lock (fun mem => ends _ mem (.locked row.id 0) rfl) unlocks
    (fun active => ?_) fun other is => ?_
  · rw [same]
    exact (h.active (status ▸ active)).append_list fun x mem => ends x mem _
  · rw [same]
    exact (h.password other (hash ▸ is)).append_list fun x mem => ends x mem _

theorem applyFromAccount_commits (h : Sound t) {accountId : ℕ}
    (ok : applyFromAccount t accountId phoneKey = .ok t') : Commits t t' accountId none [] := by
  rw [applyFromAccount] at ok
  cases found : byPhoneKey t phoneKey with
  | none =>
      rw [found] at ok
      cases ok
  | some existing =>
      rw [found] at ok
      simp only [bind_eq_ok, ensure_eq_ok, pure_eq_ok] at ok
      obtain ⟨_, rfl, _, _, rfl⟩ := ok
      have keeps : KeepsKeys fun row =>
          { row with
            applicationStatus := .pending
            version := existing.version + 1 } := fun _ => ⟨rfl, rfl⟩
      exact {
        now := rfl
        log := (List.append_nil _).symm
        drawn := le_rfl
        about := by simp
        newDrawn := by simp
        toAccountsAfter := .changed h keeps rfl le_rfl fun row _ _ sound =>
          ⟨sound.active, sound.password, sound.locked, sound.covers⟩
        sessions := sessions_stay (by simp [Closes])
        toLinksAfter := .stay h rfl le_rfl (by simp [Closes]) (by simp)
        frame := ⟨rfl, rfl, rfl⟩
        proofs := useProof_none.symm }

/-- A sign-in by SMS on an account whose phone is proven. -/
theorem smsSignIn_commits (h : Sound t) (ok : smsSignIn t phoneKey proof verifiedAt = .ok t') :
    ∃ a, ∃ account ∈ t.accounts, account.id = a ∧ account.status = .active ∧
      (Commits t t' a proof [.lifted a, .made (.session (t.drawn + 1)) a, .signedIn a] ∨
        Commits t t' a proof
          [.lifted a, .closed a true, .made (.session (t.drawn + 1)) a, .signedIn a]) := by
  rw [smsSignIn] at ok
  cases found : byPhoneKey t phoneKey with
  | none =>
      rw [found] at ok
      cases ok
  | some account =>
      rw [found] at ok
      simp only [bind_eq_ok, ensure_eq_ok] at ok
      obtain ⟨_, _, _, active, ok⟩ := ok
      refine ⟨account.id, account, (byPhoneKey_some found).1, rfl, active, ?_⟩
      by_cases unproven : account.phoneVerifiedAt = none
      · right
        rw [if_pos unproven] at ok
        simp only [bind_eq_ok, ensure_eq_ok, pure_eq_ok] at ok
        obtain ⟨_, free, rfl⟩ := ok
        have keeps : KeepsKeys fun row =>
            { row with
              phoneVerifiedAt := verifiedAt
              failedLogins := 0
              lockedUntil := none
              passwordHash := none
              version := account.version + 1 } := fun _ => ⟨rfl, rfl⟩
        refine {
          now := rfl
          log := List.append_assoc ..
          drawn := Nat.le_add_right _ _
          about := by simp [Event.account]
          newDrawn := by simp [Event.Drawn]
          toAccountsAfter := .changed h keeps rfl (Nat.le_add_right _ _) fun row _ own sound => ?_
          sessions := sessions_and_new revoked_sound ?_
          toLinksAfter := .closed h rfl (Nat.le_add_right _ _) free (by simp)
          frame := ⟨rfl, rfl, rfl⟩
          proofs := rfl }
        · rw [List.append_assoc]
          refine AccountSound.lifted (by simp [own]) (by simp [proofEvent]) rfl (fun active => ?_)
            fun _ is => by cases is
          exact standing_activated (sound.active active) (by simp [proofEvent])
        · rw [List.append_assoc]
          exact standing_in (proofEvent proof ++ [.lifted account.id, .closed account.id true])
            [.signedIn account.id] (by simp) (by simp [Ends])
      · left
        rw [if_neg unproven] at ok
        obtain rfl := Except.ok.inj ok
        have keeps : KeepsKeys fun row =>
            { row with
              failedLogins := 0
              lockedUntil := none } := fun _ => ⟨rfl, rfl⟩
        refine {
          now := rfl
          log := List.append_assoc ..
          drawn := Nat.le_add_right _ _
          about := by simp [Event.account]
          newDrawn := by simp [Event.Drawn]
          toAccountsAfter := .changed h keeps rfl (Nat.le_add_right _ _) fun row _ own sound => ?_
          sessions := sessions_and_new (sessions_stay (by simp [Closes])) ?_
          toLinksAfter := .stay h rfl (Nat.le_add_right _ _) (by simp [Closes]) (by simp)
          frame := ⟨rfl, rfl, rfl⟩
          proofs := rfl }
        · rw [List.append_assoc]
          refine AccountSound.lifted (by simp [own]) (by simp [proofEvent]) rfl (fun active => ?_)
            fun hash is => ?_
          · exact standing_activated (sound.active active) (by simp [proofEvent])
          · exact standing_password (sound.password hash is) (by simp [proofEvent])
        · rw [List.append_assoc]
          exact standing_in (proofEvent proof ++ [.lifted account.id]) [.signedIn account.id] (by simp)
            (by simp [Ends])

/-- A wrong password is counted, and the fifth in a row locks the account. -/
theorem countFailure_commits (h : Sound t) (there : account ∈ t.accounts) :
    Commits t (countFailure t account) account.id none [] ∨
      Commits t (countFailure t account) account.id none
        [.locked account.id (t.now + LOGIN_LOCK_MS)] := by
  simp only [countFailure]
  split
  · right
    have keeps : KeepsKeys fun row =>
        { row with
          failedLogins := 0
          lockedUntil := some (t.now + LOGIN_LOCK_MS) } := fun _ => ⟨rfl, rfl⟩
    refine {
      now := rfl
      log := rfl
      drawn := le_rfl
      about := by simp [Event.account]
      newDrawn := by simpa [Event.Drawn] using h.idsDrawn account there
      toAccountsAfter := .changed h keeps rfl le_rfl fun row _ own sound => ?_
      sessions := sessions_stay (by simp [Closes])
      toLinksAfter := .stay h rfl le_rfl (by simp [Closes]) (by simp)
      frame := ⟨rfl, rfl, rfl⟩
      proofs := useProof_none.symm }
    refine {
      active := fun active => standing_activated (sound.active active) (by simp)
      password := fun hash is => standing_password (sound.password hash is) (by simp)
      locked := fun lockEnd is => ?_
      covers := fun lockEnd standing => ⟨t.now + LOGIN_LOCK_MS, rfl, ?_⟩ }
    · obtain rfl := Option.some.inj is
      rw [own]
      exact ⟨standing_last, le_rfl⟩
    · by_cases new : lockEnd = t.now + LOGIN_LOCK_MS
      · exact new.le
      · have before := (standing.of_append (by simp [new])).1
        obtain ⟨later, is, le⟩ := sound.covers lockEnd before
        exact le.trans (sound.locked later is).2
  · left
    have keeps : KeepsKeys fun row => { row with failedLogins := account.failedLogins + 1 } :=
      fun _ => ⟨rfl, rfl⟩
    exact {
      now := rfl
      log := (List.append_nil _).symm
      drawn := le_rfl
      about := by simp
      newDrawn := by simp
      toAccountsAfter := .changed h keeps rfl le_rfl fun row _ _ sound =>
        ⟨sound.active, sound.password, sound.locked, sound.covers⟩
      sessions := sessions_stay (by simp [Closes])
      toLinksAfter := .stay h rfl le_rfl (by simp [Closes]) (by simp)
      frame := ⟨rfl, rfl, rfl⟩
      proofs := useProof_none.symm }

/-- The entries of a sign-in with a password. -/
def signInEvents (t : Tables) (account : Account) (hash : PasswordHash) : List Event :=
  [.accepted (.password hash.salt) account.id t.now, .lifted account.id,
    .made (.session (t.drawn + 1)) account.id, .signedIn account.id]

/-- What `signIn`'s transaction does: it counts a failure, or it accepts the password the
account has now. -/
theorem signIn_cases {accountId : ℕ} {found : Option PasswordHash} {matched : Bool} (h : Sound t)
    (hasHash : matched = true → found.isSome = true)
    (ok : signIn t accountId found matched = .ok t') :
    ∃ account, byId t accountId = some account ∧
      ((matched = false ∨ account.passwordHash ≠ found) ∧ t' = countFailure t account ∨
        ∃ hash, matched = true ∧ found = some hash ∧ account.passwordHash = found ∧
          account.status = .active ∧
          Commits t t' account.id none (signInEvents t account hash)) := by
  rw [signIn] at ok
  cases listed : byId t accountId with
  | none =>
      rw [listed] at ok
      cases ok
  | some account =>
      rw [listed] at ok
      refine ⟨account, rfl, ?_⟩
      by_cases wrong : matched = false ∨ account.passwordHash ≠ found
      · left
        simp only [if_pos wrong] at ok
        exact ⟨wrong, (Except.ok.inj ok).symm⟩
      · right
        simp only [if_neg wrong] at ok
        obtain ⟨right, same⟩ := not_or.mp wrong
        rw [Bool.not_eq_false] at right
        obtain ⟨hash, rfl⟩ := Option.isSome_iff_exists.mp (hasHash right)
        simp only [bind_eq_ok, ensure_eq_ok, pure_eq_ok] at ok
        obtain ⟨_, active, rfl⟩ := ok
        refine ⟨hash, right, rfl, not_not.mp same, active, ?_⟩
        have keeps : KeepsKeys fun row =>
            { row with
              failedLogins := 0
              lockedUntil := none } := fun _ => ⟨rfl, rfl⟩
        refine {
          now := rfl
          log := List.append_assoc ..
          drawn := Nat.le_add_right _ _
          about := by simp [signInEvents, Event.account]
          newDrawn := by simp [signInEvents, Event.Drawn]
          toAccountsAfter := .changed h keeps rfl (Nat.le_add_right _ _) fun row _ own sound => ?_
          sessions := sessions_and_new (sessions_stay (by simp [signInEvents, Closes])) ?_
          toLinksAfter := .stay h rfl (Nat.le_add_right _ _) (by simp [signInEvents, Closes]) (by simp [signInEvents])
          frame := ⟨rfl, rfl, rfl⟩
          proofs := useProof_none.symm }
        · rw [List.append_assoc]
          refine AccountSound.lifted (by simp [own]) (by simp) rfl (fun active => ?_) fun other is => ?_
          · exact standing_activated (sound.active active) (by simp)
          · exact standing_password (sound.password other is) (by simp)
        · rw [List.append_assoc]
          exact standing_in [.accepted (.password hash.salt) account.id t.now, .lifted account.id]
            [.signedIn account.id] (by simp) (by simp [Ends])

/-- The entries of a password set with a link. -/
def setPasswordEvents (t : Tables) (linkId a : ℕ) (hash : PasswordHash) : List Event :=
  [.accepted (.link linkId) a t.now, .lifted a, .closed a true, .made (.password hash.salt) a,
    .made (.session (t.drawn + 1)) a, .signedIn a]

theorem setPassword_commits (h : Sound t) {linkId accountId : ℕ} {hash : PasswordHash}
    (locked : ∃ row ∈ t.links, row.id = linkId ∧ row.accountId = accountId ∧ row.usedAt = none)
    (ok : setPassword t linkId accountId hash = .ok t') :
    ∃ account ∈ t.accounts, account.id = accountId ∧ account.status = .active ∧
      Commits t t' accountId none (setPasswordEvents t linkId accountId hash) := by
  simp only [setPassword, bind_eq_ok, ensure_eq_ok, pure_eq_ok] at ok
  obtain ⟨account, found, _, active, rfl⟩ := ok
  obtain ⟨there, rfl⟩ := byId_some (accountOf_ok found)
  obtain ⟨link, listed, rfl, own, live⟩ := locked
  have drawn := h.linksDrawn link listed
  refine ⟨account, there, rfl, active, ?_⟩
  have keeps : KeepsKeys fun row =>
      { row with
        passwordHash := some hash
        failedLogins := 0
        lockedUntil := none
        version := account.version + 1 } := fun _ => ⟨rfl, rfl⟩
  refine {
    now := rfl
    log := rfl
    drawn := Nat.le_add_right _ _
    about := by simp [setPasswordEvents, Event.account]
    newDrawn := by simpa [setPasswordEvents, Event.Drawn] using drawn.trans (Nat.le_succ _)
    toAccountsAfter := .changed h keeps rfl (Nat.le_add_right _ _) fun row _ same sound => ?_
    sessions := sessions_and_new revoked_sound ?_
    links := fun row mem => ?_
    oneLink := fun row mem other mem' same live live' => ?_
    linksDrawn := fun row mem => ?_
    held := fun row mem _ _ => ?_
    frame := ⟨rfl, rfl, rfl⟩
    proofs := useProof_none.symm }
  · refine AccountSound.lifted (by simp [same]) (by simp) rfl (fun active => ?_) fun other is => ?_
    · exact standing_activated (sound.active active) (by simp)
    · obtain rfl := Option.some.inj is
      exact standing_in [.accepted (.link link.id) account.id t.now, .lifted account.id,
        .closed account.id true] [.made (.session (t.drawn + 1)) account.id, .signedIn account.id]
        (by simp [same]) (by simp [Ends])
  · obtain ⟨old, there, rfl⟩ := List.mem_map.mp mem
    by_cases used : old.id = link.id
    · rw [if_pos used]
      exact .inr fun unused => by cases unused
    · rw [if_neg used]
      by_cases unused : old.usedAt = none
      · have other : old.accountId ≠ account.id :=
          fun same => used (h.oneLink old there link listed (same.trans own.symm) unused live)
        refine .inl ⟨there, fun same => absurd same other, fun b time => ?_⟩
        simp [setPasswordEvents, used]
      · exact .inr fun live => absurd live unused
  · obtain ⟨old, there, rfl⟩ := List.mem_map.mp mem
    obtain ⟨old', there', rfl⟩ := List.mem_map.mp mem'
    by_cases used : old.id = link.id
    · simp [used] at live
    · by_cases used' : old'.id = link.id
      · simp [used'] at live'
      · rw [if_neg used] at same live ⊢
        rw [if_neg used'] at same live' ⊢
        exact h.oneLink old there old' there' same live live'
  · obtain ⟨old, there, rfl⟩ := List.mem_map.mp mem
    have bound := (h.linksDrawn old there).trans (Nat.le_succ _)
    split <;> exact bound
  · by_cases used : row.id = link.id
    · right
      simp [setPasswordEvents, used]
    · exact .inl (List.mem_map.mpr ⟨row, mem, if_neg used⟩)
  · exact standing_in [.accepted (.link link.id) account.id t.now, .lifted account.id,
      .closed account.id true, .made (.password hash.salt) account.id] [.signedIn account.id] (by simp)
      (by simp [Ends])

/-! ### What a colleague does -/

/-- `approveBuyer` on an account nobody has proved, and on another. -/
theorem approve_commits (h : Sound t)
    (ok : approve t account = .ok t') :
    Commits t t' account.id none [.lifted account.id, .closed account.id true,
        .activated account.id, .made (.link (t.drawn + 1)) account.id] ∨
      Commits t t' account.id none [.lifted account.id, .activated account.id,
        .made (.link (t.drawn + 1)) account.id] := by
  simp only [approve, bind_eq_ok, ensure_eq_ok] at ok
  obtain ⟨_, _, _, free, ok⟩ := ok
  by_cases unproven : account.phoneVerifiedAt = none
  · left
    rw [if_pos unproven] at ok
    obtain rfl := Except.ok.inj ok
    have keeps : KeepsKeys fun row =>
        { row with
          applicationStatus := .approved
          status := .active
          passwordHash := none
          failedLogins := 0
          lockedUntil := none
          version := account.version + 1 } := fun _ => ⟨rfl, rfl⟩
    refine {
      now := rfl
      log := rfl
      drawn := Nat.le_add_right _ _
      about := by simp [Event.account]
      newDrawn := by simp [Event.Drawn]
      toAccountsAfter := .changed h keeps rfl (Nat.le_add_right _ _) fun row _ own sound => ?_
      sessions := revoked_sound
      toLinksAfter := .closedAndNew h rfl le_rfl rfl free (by simp) ?_
      frame := ⟨rfl, rfl, rfl⟩
      proofs := useProof_none.symm }
    · refine AccountSound.lifted (by simp [own]) (by simp) rfl (fun _ => ?_) fun _ is => by cases is
      exact standing_in [.lifted account.id, .closed account.id true]
        [.made (.link (t.drawn + 1)) account.id] (by simp [own]) (by simp [Ends])
    · exact standing_in [.lifted account.id, .closed account.id true, .activated account.id] []
        rfl (by simp)
  · right
    rw [if_neg unproven] at ok
    obtain rfl := Except.ok.inj ok
    have keeps : KeepsKeys fun row =>
        { row with
          applicationStatus := .approved
          status := .active
          failedLogins := 0
          lockedUntil := none
          version := account.version + 1 } := fun _ => ⟨rfl, rfl⟩
    refine {
      now := rfl
      log := rfl
      drawn := Nat.le_add_right _ _
      about := by simp [Event.account]
      newDrawn := by simp [Event.Drawn]
      toAccountsAfter := .changed h keeps rfl (Nat.le_add_right _ _) fun row _ own sound => ?_
      sessions := sessions_stay (by simp [Closes])
      toLinksAfter := .closedAndNew h rfl le_rfl rfl free (by simp) ?_
      frame := ⟨rfl, rfl, rfl⟩
      proofs := useProof_none.symm }
    · refine AccountSound.lifted (by simp [own]) (by simp) rfl (fun _ => ?_) fun hash is => ?_
      · exact standing_in [.lifted account.id] [.made (.link (t.drawn + 1)) account.id]
          (by simp [own]) (by simp [Ends])
      · exact standing_password (sound.password hash is) (by simp)
    · exact standing_in [.lifted account.id, .activated account.id] [] rfl (by simp)

/-- An entry that may follow any. -/
def Plain (e : Event) : Prop := ∀ earlier, Allowed earlier e

/-- The entries of a decline or a suspension. -/
def shutEvents (a : ℕ) (status : AccountStatus) : List Event :=
  [.closed a false] ++ if status = .suspended then [.suspended a] else []

theorem plain_shut (a : ℕ) (status : AccountStatus) : ∀ e ∈ shutEvents a status, Plain e := by
  intro e mem earlier
  rcases List.mem_append.mp mem with closed | suspended
  · rw [List.mem_singleton.mp closed]
    trivial
  · split at suspended
    · rw [List.mem_singleton.mp suspended]
      trivial
    · exact absurd suspended List.not_mem_nil

/-- `decline` and `suspend`: an account that stays active was active. -/
theorem shut_commits (h : Sound t) {applicationStatus : ApplicationStatus} {status : AccountStatus}
    (stays : status = .active → account.status = .active) (there : account ∈ t.accounts)
    (ok : shut t account applicationStatus status = .ok t') :
    Commits t t' account.id none (shutEvents account.id status) := by
  simp only [shut, bind_eq_ok, ensure_eq_ok, pure_eq_ok] at ok
  obtain ⟨_, free, rfl⟩ := ok
  have keeps : KeepsKeys fun row =>
      { row with
        applicationStatus := applicationStatus
        status := status
        version := account.version + 1 } := fun _ => ⟨rfl, rfl⟩
  have entries : ∀ e ∈ shutEvents account.id status,
      e = .closed account.id false ∨ e = .suspended account.id ∧ status = .suspended := by
    intro e mem
    rcases List.mem_append.mp mem with closed | suspended
    · exact .inl (List.mem_singleton.mp closed)
    · split at suspended
      · exact .inr ⟨List.mem_singleton.mp suspended, ‹_›⟩
      · exact absurd suspended List.not_mem_nil
  refine {
    now := rfl
    log := List.append_assoc ..
    drawn := le_rfl
    about := fun e mem => ?_
    newDrawn := fun e mem => ?_
    toAccountsAfter := .changed h keeps rfl le_rfl fun row listed own sound => ?_
    sessions := revoked_sound
    toLinksAfter := .closed h rfl le_rfl free fun link b time mem => ?_
    frame := ⟨rfl, rfl, rfl⟩
    proofs := useProof_none.symm }
  · rw [List.append_assoc]
    refine sound.keepsLock rfl rfl (fun mem => ?_) (fun lockEnd mem => ?_) (fun active => ?_)
      fun hash is => ?_
    · rcases entries _ mem with is | ⟨is, _⟩ <;> cases is
    · rcases entries _ mem with is | ⟨is, _⟩ <;> cases is
    · have was : row.status = .active := (h.sameRow there listed own.symm) ▸ stays active
      refine standing_activated (sound.active was) fun mem => ?_
      rcases entries _ mem with is | ⟨_, suspended⟩
      · cases is
      · cases active.symm.trans suspended
    · refine standing_password (sound.password hash is) fun mem => ?_
      rcases entries _ mem with is | ⟨is, _⟩
      · cases (Event.closed.inj is).2
      · cases is
  · rcases entries _ mem with is | ⟨is, _⟩ <;> cases is
  · rcases entries e mem with rfl | ⟨rfl, _⟩ <;> rfl
  · rcases entries e mem with rfl | ⟨rfl, _⟩ <;> exact trivial

/-- What a colleague does accepts nothing and signs nobody in. -/
theorem act_commits (h : Sound t) (there : account ∈ t.accounts) {action : StaffAction}
    (ok : act t account action = .ok t') :
    ∃ new, Commits t t' account.id none new ∧ ∀ e ∈ new, Plain e := by
  cases action with
  | approve =>
      rcases approve_commits h ok with commits | commits
      · exact ⟨_, commits, by simp [Plain, Allowed]⟩
      · exact ⟨_, commits, by simp [Plain, Allowed]⟩
  | decline =>
      simp only [act, bind_eq_ok, ensure_eq_ok] at ok
      obtain ⟨_, _, ok⟩ := ok
      refine ⟨_, shut_commits h (fun stays => ?_) there ok, plain_shut _ _⟩
      by_cases pending : account.status = .pending
      · rw [if_pos pending] at stays
        cases stays
      · rwa [if_neg pending] at stays
  | suspend =>
      simp only [act, bind_eq_ok, ensure_eq_ok] at ok
      obtain ⟨_, _, ok⟩ := ok
      have never : AccountStatus.suspended = .active → account.status = .active := fun is => by cases is
      exact ⟨_, shut_commits h never there ok, plain_shut _ _⟩
  | reactivate =>
      simp only [act, bind_eq_ok, ensure_eq_ok, pure_eq_ok] at ok
      obtain ⟨_, _, rfl⟩ := ok
      have keeps : KeepsKeys fun row =>
          { row with
            status := .active
            failedLogins := 0
            lockedUntil := none
            version := account.version + 1 } := fun _ => ⟨rfl, rfl⟩
      refine ⟨[.lifted account.id, .activated account.id], ?_, by simp [Plain, Allowed]⟩
      refine {
        now := rfl
        log := rfl
        drawn := le_rfl
        about := by simp [Event.account]
        newDrawn := by simp [Event.Drawn]
        toAccountsAfter := .changed h keeps rfl le_rfl fun row _ own sound => ?_
        sessions := sessions_stay (by simp [Closes])
        toLinksAfter := .stay h rfl le_rfl (by simp [Closes]) (by simp)
        frame := ⟨rfl, rfl, rfl⟩
        proofs := useProof_none.symm }
      refine AccountSound.lifted (by simp [own]) (by simp) rfl (fun _ => ?_) fun hash is => ?_
      · exact standing_in [.lifted account.id] [] (by simp [own]) (by simp)
      · exact standing_password (sound.password hash is) (by simp)
  | newPasswordLink =>
      simp only [act, bind_eq_ok, ensure_eq_ok, pure_eq_ok] at ok
      obtain ⟨_, _, _, free, rfl⟩ := ok
      have keeps : KeepsKeys fun row => { row with version := account.version + 1 } :=
        fun _ => ⟨rfl, rfl⟩
      refine ⟨[.made (.link (t.drawn + 1)) account.id], ?_, by simp [Plain, Allowed]⟩
      refine {
        now := rfl
        log := rfl
        drawn := Nat.le_add_right _ _
        about := by simp [Event.account]
        newDrawn := by simp [Event.Drawn]
        toAccountsAfter := .changed h keeps rfl (Nat.le_add_right _ _) fun row _ own sound => ?_
        sessions := sessions_stay (by simp [Closes])
        toLinksAfter := .closedAndNew h rfl le_rfl rfl free (by simp) standing_last
        frame := ⟨rfl, rfl, rfl⟩
        proofs := useProof_none.symm }
      refine sound.keepsAll rfl rfl rfl rfl (fun x mem e => ?_) (by simp)
      rw [List.mem_singleton.mp mem]
      exact (not_ends _ _).1

end Commit

end PapitalErp.BuyerAccounts
