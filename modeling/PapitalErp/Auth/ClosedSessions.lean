import PapitalErp.Auth.Sessions

/-!
# A closed device stays out

What a request read may be overtaken before it acts on it: a session row read open is put into
the cache after the close that came in between has dropped the entry; a version is written one
above a version that is no longer the account's; a renewal finds its session closed and issues a
new one; an old token's row is written after all devices were signed out. `UpToDate` excludes
these, and in every run that meets it the three promises of `Safe` hold. The runs at the end
break each of them.
-/

namespace PapitalErp.Sessions

open Interleaving CacheAside

/-! ## The promises -/

/-- A request that came after its session was closed is accepted. -/
def Progress.entersClosed : Progress → Bool
  | .accepted request _ => request.closedBefore request.token.userId request.token.key
  | _ => false

/-- None of the changes of the user's version that the request found done is above this one. -/
def Request.covers (request : Request) (version : ℕ) : Bool :=
  request.changesBefore.all fun c => c.userId ≠ request.token.userId || c.current ≤ version

/-- The token is of the newest version the request found, or its own device made the change from
it to the newest one. -/
def Request.versionAllowed (request : Request) (changes : List VersionChange) : Bool :=
  request.covers request.token.version ||
    changes.any fun own => own.userId = request.token.userId && own.device = some request.token.key &&
      own.previous = request.token.version && request.covers own.current

/-- A request with an old version is accepted that no grace lets in. -/
def Progress.entersStale (changes : List VersionChange) : Progress → Bool
  | .accepted request _ => !request.versionAllowed changes
  | _ => false

/-- A closed device stays out, and gets no session but by a login. -/
structure Safe (c : Config ℕ Server Progress) : Prop where
  accepted : ∀ i, (c.locals i).entersClosed = false
  sessions : ∀ u k, c.shared.closed u k = true → c.shared.isOpen u k = false
  reissued : ∀ device ∈ c.shared.reissued, c.shared.closed device.1 device.2 = false
  grace : ∀ i, (c.locals i).entersStale c.shared.changes = false

/-- What a request read is still so when the next statement acts on it. -/
def UpToDate (_ : ℕ) (turn : Turn) (s : Server) (progress : Progress) : Prop :=
  match turn, progress with
  | .proceed _, .userRead request _ row =>
      ∀ c ∈ s.returned, c.userId = request.token.userId → c.current ≤ row.tokenVersion
  | .proceed _, .sessionRead request _ _ _ (some row) =>
      s.closed row.userId request.token.key = true → row.revoked = true
  | .proceed _, .adopting request version _ => (s.accounts request.token.userId).tokenVersion = version
  | .proceed _, .changingPassword request version => (s.accounts request.token.userId).tokenVersion = version
  | .proceed _, .renewing request _ => s.isOpen request.token.userId request.token.key = true
  | _, _ => True

instance (i : ℕ) (turn : Turn) (s : Server) (progress : Progress) : Decidable (UpToDate i turn s progress) := by
  unfold UpToDate
  split <;> infer_instance

/-! ## What the statements keep -/

structure Server.Valid (s : Server) : Prop where
  shut : ∀ u k, s.closed u k = true → s.isOpen u k = false
  cached : ∀ u k, s.closed u k = true →
    Only s.sessionCache k fun c => c.entry.userId = u → c.entry.revoked = true
  stored : ∀ k, Only s.sessionCache k fun c => s.hasRow c.entry.userId k = true
  versions : ∀ c ∈ s.changes, c.current ≤ (s.accounts c.userId).tokenVersion
  returned : ∀ c ∈ s.returned, c ∈ s.changes
  users : ∀ c ∈ s.returned, Only s.userAuthCache c.userId fun e => c.current ≤ e.entry.tokenVersion
  grace : ∀ k, Only s.graceBySid k fun g =>
    s.hasRow g.userId k = true ∧ ⟨g.userId, some k, g.previous, g.current⟩ ∈ s.changes
  tokens : ∀ token ∈ s.tokens, token.version ≤ (s.accounts token.userId).tokenVersion
  /-- an old token whose device was closed before its row was written -/
  unadopted : ∀ token ∈ s.tokens, s.closed token.userId token.key = true → s.rows token.key = none →
    token.version < (s.accounts token.userId).tokenVersion
  fresh : ∀ n, s.nextSid ≤ n → s.rows (.own n) = none ∧ (∀ u, s.closed u (.own n) = false) ∧
    ∀ token ∈ s.tokens, token.key ≠ .own n
  reissued : s.reissued = []

/-- The rows only come, and stay their user's; a closed one stays closed. -/
def RowsGrow (rows rows' : SessionKey → Option SessionRow) : Prop :=
  ∀ k row, rows k = some row → ∃ row', rows' k = some row' ∧ row'.userId = row.userId ∧
    (row.revoked = true → row'.revoked = true)

/-- What a statement leaves to the other processes. -/
structure Server.Grows (s s' : Server) : Prop where
  rows : RowsGrow s.rows s'.rows
  closed : ∀ u k, s.closed u k = true → s'.closed u k = true
  changes : ∀ c ∈ s.changes, c ∈ s'.changes
  returned : ∀ c ∈ s.returned, c ∈ s'.returned
  tokens : ∀ token ∈ s.tokens, token ∈ s'.tokens
  versions : ∀ u, (s.accounts u).tokenVersion ≤ (s'.accounts u).tokenVersion

/-- The request came earlier. -/
structure Came (s : Server) (request : Request) : Prop where
  token : request.token ∈ s.tokens
  closed : ∀ u k, request.closedBefore u k = true → s.closed u k = true
  changes : ∀ c ∈ request.changesBefore, c ∈ s.returned

/-- The user's part of the check has passed. -/
structure Passed (s : Server) (request : Request) (version : ℕ) : Prop where
  came : Came s request
  same : request.token.version = version ∨ s.hasRow request.token.userId request.token.key = true
  allowed : request.versionAllowed s.changes = true

/-- A row that the request found may let it in. -/
def Found (s : Server) (request : Request) (row : SessionRow) : Prop :=
  s.hasRow row.userId request.token.key = true ∧
    (request.closedBefore row.userId request.token.key = true → row.revoked = true)

/-- No open session of the user is under the key, and a row is. -/
def ClosedRow (s : Server) (userId : ℕ) (key : SessionKey) : Prop :=
  s.isOpen userId key = false ∧ s.rows key ≠ none

def Knows (_ : ℕ) (s : Server) : Progress → Prop
  | .idle => True
  | .loggingIn userId version => version ≤ (s.accounts userId).tokenVersion
  | .readingUser request _ => Came s request
  | .userRead request _ row => Came s request ∧ request.covers row.tokenVersion = true
  | .readingSession request version _ _ => Passed s request version
  | .sessionRead request version _ _ row =>
      Passed s request version ∧ ∀ r, row = some r → Found s request r
  | .adopting request version _ => Passed s request version
  | .accepted request _ =>
      request.closedBefore request.token.userId request.token.key = false ∧
        request.versionAllowed s.changes = true ∧ s.hasRow request.token.userId request.token.key = true
  | .sessionClosed userId key => ClosedRow s userId key
  | .versionRaised change keys by_ =>
      change ∈ s.changes ∧ (∀ key, keys key = true → ClosedRow s change.userId key) ∧
        (∀ key, change.device = some key → s.hasRow change.userId key = true) ∧
          ∀ request, by_ = some request → request.token.userId = change.userId
  | .changingPassword request _ => s.hasRow request.token.userId request.token.key = true
  | .renewing request version => version ≤ (s.accounts request.token.userId).tokenVersion
  | .renewed request version =>
      version ≤ (s.accounts request.token.userId).tokenVersion ∧
        s.hasRow request.token.userId request.token.key = true

section Outline

variable {s s' : Server} {rows' : SessionKey → Option SessionRow} {request : Request} {row : SessionRow}
  {progress next : Progress} {i j userId version since lifetime : ℕ} {key : SessionKey} {token : Token}
  {change : VersionChange} {account : Account}

/-! ## Rows -/

theorem hasRow_iff : s.hasRow userId key = true ↔ ∃ row, s.rows key = some row ∧ row.userId = userId := by
  simp [Server.hasRow, Option.any_eq_true]

theorem isOpen_iff : s.isOpen userId key = true ↔
    ∃ row, s.rows key = some row ∧ row.userId = userId ∧ row.revoked = false := by
  simp [Server.isOpen, Option.any_eq_true]

theorem revoked_of_not_open (shut : s.isOpen row.userId key = false) (found : s.rows key = some row) :
    row.revoked = true := by
  by_contra live
  have open_ : s.isOpen row.userId key = true := isOpen_iff.mpr ⟨row, found, rfl, by simpa using live⟩
  rw [open_] at shut
  cases shut

theorem RowsGrow.refl {rows : SessionKey → Option SessionRow} : RowsGrow rows rows :=
  fun _ row found => ⟨row, found, rfl, id⟩

/-- One row is put under a key, over a row of the same user that is not closed, or none. -/
theorem rowsGrow_update {rows : SessionKey → Option SessionRow} {new : Option SessionRow}
    (replaces : ∀ row, rows key = some row → ∃ row', new = some row' ∧ row'.userId = row.userId ∧
      (row.revoked = true → row'.revoked = true)) : RowsGrow rows (Function.update rows key new) := by
  intro k row found
  by_cases same : k = key
  · subst same
    rw [Function.update_self]
    exact replaces row found
  · rw [Function.update_of_ne same]
    exact ⟨row, found, rfl, id⟩

theorem RowsGrow.not_none {rows : SessionKey → Option SessionRow} (grows : RowsGrow rows rows')
    (h : rows key ≠ none) : rows' key ≠ none := by
  obtain ⟨row, found⟩ := Option.ne_none_iff_exists'.mp h
  obtain ⟨row', found', -⟩ := grows key row found
  rw [found']
  nofun

theorem RowsGrow.hasRow (grows : RowsGrow s.rows s'.rows) (h : s.hasRow userId key = true) :
    s'.hasRow userId key = true := by
  obtain ⟨row, found, rfl⟩ := hasRow_iff.mp h
  obtain ⟨row', found', user, -⟩ := grows key row found
  exact hasRow_iff.mpr ⟨row', found', user⟩

theorem ClosedRow.grows (h : ClosedRow s userId key) (grows : RowsGrow s.rows s'.rows) :
    ClosedRow s' userId key := by
  refine ⟨?_, grows.not_none h.2⟩
  obtain ⟨row, found⟩ := Option.ne_none_iff_exists'.mp h.2
  obtain ⟨row', found', user, closed⟩ := grows key row found
  by_contra live
  obtain ⟨row'', found'', rfl, open_⟩ := isOpen_iff.mp (Bool.not_eq_false _ ▸ live)
  obtain rfl := Option.some.inj (found'.symm.trans found'')
  rw [user] at h
  rw [closed (revoked_of_not_open h.1 found)] at open_
  cases open_

/-! ## What the others know -/

theorem Server.Grows.refl : s.Grows s :=
  ⟨.refl, fun _ _ => id, fun _ => id, fun _ => id, fun _ => id, fun _ => le_rfl⟩

theorem Server.Grows.trans {last : Server} (h : s.Grows s') (h' : s'.Grows last) : s.Grows last := by
  refine ⟨fun k row found => ?_, fun u k closed => h'.closed u k (h.closed u k closed),
    fun c mem => h'.changes c (h.changes c mem), fun c mem => h'.returned c (h.returned c mem),
    fun token mem => h'.tokens token (h.tokens token mem), fun u => (h.versions u).trans (h'.versions u)⟩
  obtain ⟨row', found', user, closed⟩ := h.rows k row found
  obtain ⟨row'', found'', user', closed'⟩ := h'.rows k row' found'
  exact ⟨row'', found'', user'.trans user, fun revoked => closed' (closed revoked)⟩

theorem Came.grows (h : Came s request) (grows : s.Grows s') : Came s' request :=
  ⟨grows.tokens _ h.token, fun u k before => grows.closed u k (h.closed u k before),
    fun c before => grows.returned c (h.changes c before)⟩

theorem versionAllowed_grows (h : request.versionAllowed s.changes = true) (grows : s.Grows s') :
    request.versionAllowed s'.changes = true := by
  simp only [Request.versionAllowed, Bool.or_eq_true, List.any_eq_true] at h ⊢
  obtain covers | ⟨own, mem, made⟩ := h
  · exact .inl covers
  · exact .inr ⟨own, grows.changes own mem, made⟩

theorem Passed.grows (h : Passed s request version) (grows : s.Grows s') : Passed s' request version :=
  ⟨h.came.grows grows, h.same.imp_right grows.rows.hasRow, versionAllowed_grows h.allowed grows⟩

theorem Knows.grows (h : Knows i s progress) (grows : s.Grows s') : Knows i s' progress := by
  cases progress with
  | idle => trivial
  | loggingIn userId version => exact le_trans h (grows.versions userId)
  | readingUser => exact Came.grows h grows
  | userRead => exact ⟨h.1.grows grows, h.2⟩
  | readingSession | adopting => exact Passed.grows h grows
  | sessionRead => exact ⟨h.1.grows grows, fun r found => ⟨grows.rows.hasRow (h.2 r found).1, (h.2 r found).2⟩⟩
  | accepted => exact ⟨h.1, versionAllowed_grows h.2.1 grows, grows.rows.hasRow h.2.2⟩
  | sessionClosed => exact ClosedRow.grows h grows.rows
  | versionRaised =>
      exact ⟨grows.changes _ h.1, fun key closed => (h.2.1 key closed).grows grows.rows,
        fun key device => grows.rows.hasRow (h.2.2.1 key device), h.2.2.2⟩
  | changingPassword => exact grows.rows.hasRow h
  | renewing => exact le_trans h (grows.versions _)
  | renewed => exact ⟨le_trans h.1 (grows.versions _), grows.rows.hasRow h.2⟩

/-! ## What keeps the state valid -/

theorem raiseVersion_version :
    ((s.raiseVersion change).accounts change.userId).tokenVersion = change.current := by
  simp [Server.raiseVersion, Server.setVersion]

theorem le_raiseVersion (above : (s.accounts change.userId).tokenVersion ≤ change.current) (u : ℕ) :
    (s.accounts u).tokenVersion ≤ ((s.raiseVersion change).accounts u).tokenVersion := by
  by_cases same : u = change.userId
  · subst same
    rw [raiseVersion_version]
    exact above
  · simp [Server.raiseVersion, Server.setVersion, Function.update_of_ne same]

/-- The effect of a statement. -/
structure Outcome (i : ℕ) (s s' : Server) (next : Progress) : Prop where
  valid : s'.Valid
  own : Knows i s' next
  grows : s.Grows s'

namespace Server.Valid

theorem withRows (h : s.Valid) (grows : RowsGrow s.rows rows')
    (shut : ∀ u k, s.closed u k = true → ({ s with rows := rows' } : Server).isOpen u k = false)
    (fresh : ∀ n, s.nextSid ≤ n → rows' (.own n) = none) : ({ s with rows := rows' } : Server).Valid := by
  have row : ∀ {u k}, s.hasRow u k = true → ({ s with rows := rows' } : Server).hasRow u k = true :=
    fun had => RowsGrow.hasRow grows had
  refine
    { h with
      shut
      stored := fun k c found => row (h.stored k c found)
      grace := fun k g found => ⟨row (h.grace k g found).1, (h.grace k g found).2⟩
      unadopted := fun token mem closed absent => h.unadopted token mem closed ?_
      fresh := fun n later => ⟨fresh n later, (h.fresh n later).2⟩ }
  by_contra present
  exact grows.not_none present absent

/-- The row under a key is replaced by one of its user, closed if that one was. -/
theorem putRow (h : s.Valid) {new : SessionRow}
    (replaces : ∀ row, s.rows key = some row → new.userId = row.userId ∧ (row.revoked = true → new.revoked = true))
    (shut : s.closed new.userId key = true → new.revoked = true) (known : ∀ n, key = .own n → n < s.nextSid) :
    ({ s with rows := Function.update s.rows key (some new) } : Server).Valid := by
  refine h.withRows (rowsGrow_update fun row found => ⟨new, rfl, replaces row found⟩) (fun u k closed => ?_)
    fun n later => ?_
  · by_contra live
    obtain ⟨row, found, rfl, open_⟩ := isOpen_iff.mp (Bool.not_eq_false _ ▸ live)
    by_cases same : k = key
    · subst same
      obtain rfl : new = row := Option.some.inj ((Function.update_self k (some new) s.rows).symm.trans found)
      rw [shut closed] at open_
      cases open_
    · have kept : s.rows k = some row := (Function.update_of_ne same _ _).symm.trans found
      have closed_ := h.shut row.userId k closed
      rw [isOpen_iff.mpr ⟨row, kept, rfl, open_⟩] at closed_
      cases closed_
  · have other : SessionKey.own n ≠ key := fun same => absurd (known n same.symm) (not_lt.mpr later)
    rw [Function.update_of_ne other]
    exact (h.fresh n later).1

theorem key_known (h : s.Valid) (row : s.rows key ≠ none) : ∀ n, key = .own n → n < s.nextSid := by
  rintro n rfl
  by_contra later
  exact row (h.fresh n (not_lt.mp later)).1

theorem token_known (h : s.Valid) (mem : token ∈ s.tokens) : ∀ n, token.key = .own n → n < s.nextSid := by
  intro n same
  by_contra later
  exact (h.fresh n (not_lt.mp later)).2.2 token mem same

/-- The caches and the grace entries may forget what they like. -/
theorem forget (h : s.Valid) {sessions : SessionKey → Option (Cached SessionRow)}
    {users : ℕ → Option (Cached Account)} {grace : SessionKey → Option Grace}
    (fewer : ∀ k c, sessions k = some c → s.sessionCache k = some c)
    (fewerUsers : ∀ u c, users u = some c → s.userAuthCache u = some c)
    (fewerGrace : ∀ k g, grace k = some g → s.graceBySid k = some g) :
    ({ s with sessionCache := sessions, userAuthCache := users, graceBySid := grace } : Server).Valid :=
  { h with
    cached := fun u k closed c found => h.cached u k closed c (fewer k c found)
    stored := fun k c found => h.stored k c (fewer k c found)
    users := fun c mem e found => h.users c mem e (fewerUsers c.userId e found)
    grace := fun k g found => h.grace k g (fewerGrace k g found) }

theorem raiseVersion (h : s.Valid) (above : (s.accounts change.userId).tokenVersion ≤ change.current) :
    (s.raiseVersion change).Valid := by
  refine
    { h with
      versions := fun c mem => ?_
      returned := fun c mem => List.mem_cons_of_mem _ (h.returned c mem)
      grace := fun k g found => ⟨(h.grace k g found).1, List.mem_cons_of_mem _ (h.grace k g found).2⟩
      tokens := fun token mem => (h.tokens token mem).trans (le_raiseVersion above _)
      unadopted := fun token mem closed absent =>
        (h.unadopted token mem closed absent).trans_le (le_raiseVersion above _) }
  obtain rfl | old := List.mem_cons.mp mem
  · exact raiseVersion_version.ge
  · exact (h.versions c old).trans (le_raiseVersion above c.userId)

end Server.Valid

theorem raiseVersion_grows (above : (s.accounts change.userId).tokenVersion ≤ change.current) :
    s.Grows (s.raiseVersion change) :=
  { Server.Grows.refl with
    changes := fun _ => List.mem_cons_of_mem _
    versions := le_raiseVersion above }

/-- The rows that a close of several sessions leaves. -/
theorem closeSessions_rows : RowsGrow s.rows (s.closeSessions change).rows := by
  intro k row found
  simp only [Server.closeSessions]
  split
  · exact ⟨{ row with revoked := true }, by rw [found]; rfl, rfl, fun _ => rfl⟩
  · exact ⟨row, found, rfl, id⟩

theorem closeSessions_shut (closing : s.otherSessions change.userId change.device key = true) :
    ClosedRow (s.closeSessions change) change.userId key := by
  obtain ⟨open_, -⟩ := Bool.and_eq_true_iff.mp closing
  obtain ⟨row, found, user, -⟩ := isOpen_iff.mp open_
  have now : (s.closeSessions change).rows key = some { row with revoked := true } := by
    simp only [Server.closeSessions, closing, if_true, found, Option.map_some]
  refine ⟨?_, by rw [now]; nofun⟩
  rw [Server.isOpen, now]
  simp

theorem closeSessions_valid (h : s.Valid) (next : change.current = (s.accounts change.userId).tokenVersion + 1) :
    (s.closeSessions change).Valid := by
  have above : (s.accounts change.userId).tokenVersion ≤ change.current := by omega
  have raised := h.raiseVersion above
  have grows : RowsGrow s.rows (s.closeSessions change).rows := closeSessions_rows
  have split_closed : ∀ u k, (s.closeSessions change).closed u k = true →
      s.closed u k = true ∨ u = change.userId ∧ s.unadopted change.userId change.device k = true := by
    intro u k closed
    simpa [Server.closeSessions] using closed
  have rowless : ∀ k, s.unadopted change.userId change.device k = true → s.hasRow change.userId k = false := by
    intro k unadopted
    simp only [Server.unadopted, Bool.and_eq_true, Bool.not_eq_true'] at unadopted
    exact unadopted.1.2
  refine
    { raised with
      shut := fun u k closed => ?_
      cached := fun u k closed c found => ?_
      stored := fun k c found => grows.hasRow (h.stored k c found)
      grace := fun k g found => ⟨grows.hasRow (h.grace k g found).1, (raised.grace k g found).2⟩
      unadopted := fun token mem closed absent => ?_
      fresh := fun n later => ?_ }
  · -- a row that is open now was open before, and was not of those that were closed
    by_contra live
    obtain ⟨row, found, rfl, open_⟩ := isOpen_iff.mp (Bool.not_eq_false _ ▸ live)
    simp only [Server.closeSessions] at found
    split at found
    · obtain ⟨old, -, rfl⟩ := Option.map_eq_some_iff.mp found
      cases open_
    · obtain old | ⟨user, unadopted⟩ := split_closed _ _ closed
      · have shut := h.shut row.userId k old
        rw [isOpen_iff.mpr ⟨row, found, rfl, open_⟩] at shut
        cases shut
      · have absent := rowless k unadopted
        rw [← user, hasRow_iff.mpr ⟨row, found, rfl⟩] at absent
        cases absent
  · intro user
    obtain old | ⟨rfl, unadopted⟩ := split_closed u k closed
    · exact h.cached u k old c found user
    · have absent := rowless k unadopted
      rw [← user, h.stored k c found] at absent
      cases absent
  · have before : s.rows token.key = none := by
      by_contra present
      exact grows.not_none present absent
    obtain old | ⟨user, unadopted⟩ := split_closed _ _ closed
    · exact (h.unadopted token mem old before).trans_le (le_raiseVersion above _)
    · have version := h.tokens token mem
      rw [user] at version ⊢
      calc token.version ≤ (s.accounts change.userId).tokenVersion := version
        _ < change.current := by omega
        _ = _ := raiseVersion_version.symm
  · obtain ⟨none, unclosed, tokens⟩ := h.fresh n later
    refine ⟨?_, fun u => ?_, tokens⟩
    · have other : s.otherSessions change.userId change.device (.own n) = false := by
        simp [Server.otherSessions, Server.isOpen, none]
      simp only [Server.closeSessions, other, Bool.false_eq_true, if_false]
      exact none
    · by_contra closed
      obtain old | ⟨-, unadopted⟩ := split_closed u (.own n) (by simpa using closed)
      · rw [unclosed u] at old
        cases old
      · simp only [Server.unadopted, Bool.and_eq_true, List.any_eq_true, decide_eq_true_eq] at unadopted
        obtain ⟨⟨⟨token, mem, -, same⟩, -⟩, -⟩ := unadopted
        exact tokens token mem same

theorem closeSessions_grows (above : (s.accounts change.userId).tokenVersion ≤ change.current) :
    s.Grows (s.closeSessions change) := by
  refine
    { raiseVersion_grows above with
      rows := closeSessions_rows
      closed := fun u k closed => ?_ }
  simp [Server.closeSessions, closed]

theorem addToken_valid (token : Token) (h : s.Valid) (current : token.version ≤ (s.accounts token.userId).tokenVersion)
    (row : s.rows token.key ≠ none) : ({ s with tokens := token :: s.tokens } : Server).Valid := by
  refine
    { h with
      tokens := fun other mem => ?_
      unadopted := fun other mem closed absent => ?_
      fresh := fun n later => ?_ }
  · obtain rfl | old := List.mem_cons.mp mem
    · exact current
    · exact h.tokens other old
  · obtain rfl | old := List.mem_cons.mp mem
    · exact absurd absent row
    · exact h.unadopted other old closed absent
  · obtain ⟨absent, unclosed, tokens⟩ := h.fresh n later
    refine ⟨absent, unclosed, fun other mem same => ?_⟩
    obtain rfl | old := List.mem_cons.mp mem
    · rw [same] at row
      exact row absent
    · exact tokens other old same

/-- A login. -/
theorem issueSession_valid (h : s.Valid) (current : version ≤ (s.accounts userId).tokenVersion) :
    (s.issueSession userId version lifetime).Valid := by
  obtain ⟨absent, unclosed, -⟩ := h.fresh s.nextSid le_rfl
  have next : ({ s with nextSid := s.nextSid + 1 } : Server).Valid :=
    { h with fresh := fun n later => h.fresh n (by change s.nextSid + 1 ≤ n at later; omega) }
  have put : ({ s with
      nextSid := s.nextSid + 1
      rows := Function.update s.rows (.own s.nextSid) (some ⟨userId, false, s.now + lifetime⟩) } : Server).Valid := by
    refine next.putRow ?_ ?_ ?_
    · intro row found
      cases absent.symm.trans found
    · intro closed
      cases closed.symm.trans (unclosed userId)
    · rintro n ⟨⟩
      exact Nat.lt_succ_self _
  · refine addToken_valid ⟨userId, some (.own s.nextSid), 0, true, version, s.now + lifetime⟩ put current ?_
    show Function.update s.rows (.own s.nextSid) _ (.own s.nextSid) ≠ none
    rw [Function.update_self]
    nofun

theorem issueSession_grows (h : s.Valid) : s.Grows (s.issueSession userId version lifetime) := by
  refine
    { Server.Grows.refl with
      rows := rowsGrow_update fun row found => ?_
      tokens := fun _ => List.mem_cons_of_mem _ }
  cases (h.fresh s.nextSid le_rfl).1.symm.trans found

theorem dropSession_valid (h : s.Valid) (closedRow : ClosedRow s userId key) : (s.dropSession userId key).Valid := by
  have split_closed : ∀ u k, (s.dropSession userId key).closed u k = true →
      s.closed u k = true ∨ u = userId ∧ k = key := by
    intro u k closed
    simpa [Server.dropSession] using closed
  refine
    { h with
      shut := fun u k closed => ?_
      cached := fun u k closed => ?_
      stored := fun k => (h.stored k).drop
      unadopted := fun token mem closed absent => ?_
      fresh := fun n later => ?_ }
  · obtain old | ⟨rfl, rfl⟩ := split_closed u k closed
    · exact h.shut u k old
    · exact closedRow.1
  · obtain old | ⟨rfl, rfl⟩ := split_closed u k closed
    · exact (h.cached u k old).drop
    · exact only_drop_self
  · obtain old | ⟨-, same⟩ := split_closed _ _ closed
    · exact h.unadopted token mem old absent
    · rw [same] at absent
      exact absurd absent closedRow.2
  · obtain ⟨absent, unclosed, tokens⟩ := h.fresh n later
    refine ⟨absent, fun u => ?_, tokens⟩
    by_contra closed
    obtain old | ⟨-, same⟩ := split_closed u (.own n) (by simpa using closed)
    · rw [unclosed u] at old
      cases old
    · rw [← same] at closedRow
      exact closedRow.2 absent

theorem dropVersion_valid (h : s.Valid) {keys : SessionKey → Bool} (mem : change ∈ s.changes)
    (closedRows : ∀ key, keys key = true → ClosedRow s change.userId key)
    (device : ∀ key, change.device = some key → s.hasRow change.userId key = true) :
    (s.dropVersion change keys).Valid := by
  have split_closed : ∀ u k, (s.dropVersion change keys).closed u k = true →
      s.closed u k = true ∨ u = change.userId ∧ keys k = true := by
    intro u k closed
    simpa [Server.dropVersion] using closed
  refine
    { h with
      shut := fun u k closed => ?_
      cached := fun u k closed => ?_
      stored := fun k => (h.stored k).dropWhere
      returned := fun c mem' => ?_
      users := fun c mem' => ?_
      grace := fun k g found => ?_
      unadopted := fun token mem closed absent => ?_
      fresh := fun n later => ?_ }
  · obtain old | ⟨rfl, closing⟩ := split_closed u k closed
    · exact h.shut u k old
    · exact (closedRows k closing).1
  · obtain old | ⟨rfl, closing⟩ := split_closed u k closed
    · exact (h.cached u k old).dropWhere
    · exact only_dropWhere closing
  · obtain rfl | old := List.mem_cons.mp mem'
    · exact mem
    · exact h.returned c old
  · obtain rfl | old := List.mem_cons.mp mem'
    · exact only_drop_self
    · exact (h.users c old).drop
  · cases made : change.device with
    | none =>
        simp only [Server.dropVersion, made] at found
        exact h.grace k g found
    | some key =>
        simp only [Server.dropVersion, made] at found
        obtain ⟨rfl, rfl⟩ | old := fill_cases found
        · refine ⟨device k made, ?_⟩
          rw [← made]
          exact mem
        · exact h.grace k g old
  · obtain old | ⟨-, closing⟩ := split_closed _ _ closed
    · exact h.unadopted token mem old absent
    · exact absurd absent (closedRows _ closing).2
  · obtain ⟨absent, unclosed, tokens⟩ := h.fresh n later
    refine ⟨absent, fun u => ?_, tokens⟩
    by_contra closed
    obtain old | ⟨-, closing⟩ := split_closed u (.own n) (by simpa using closed)
    · rw [unclosed u] at old
      cases old
    · exact (closedRows _ closing).2 absent

/-! ## The request check -/

theorem covers_iff : request.covers version = true ↔
    ∀ c ∈ request.changesBefore, c.userId = request.token.userId → c.current ≤ version := by
  simp only [Request.covers, List.all_eq_true, Bool.or_eq_true, decide_eq_true_eq]
  exact forall₂_congr fun c _ => ⟨fun h same => h.resolve_left (not_not_intro same), fun h => not_or_of_imp h⟩

theorem checkRow_knows (passed : Passed s request version) (found : Found s request row) :
    Knows i s (Server.checkRow request version since row) := by
  unfold Server.checkRow
  split
  · trivial
  · rename_i lets
    rw [not_or, not_or, not_not] at lets
    obtain ⟨user, live, -⟩ := lets
    rw [Found, user] at found
    refine ⟨?_, passed.allowed, found.1⟩
    by_contra closed
    exact live (found.2 (by simpa using closed))

theorem freshSession_found (h : s.Valid) (came : Came s request) (cached : s.freshSession request.token.key = some row) :
    Found s request row := by
  obtain ⟨c, kept, rfl⟩ := Option.map_eq_some_iff.mp cached
  obtain ⟨held, -⟩ := Option.filter_eq_some_iff.mp kept
  exact ⟨h.stored _ c held, fun closed => h.cached _ _ (came.closed _ _ closed) c held rfl⟩

theorem checkSession_knows (h : s.Valid) (passed : Passed s request version) :
    Knows i s (s.checkSession request version) := by
  unfold Server.checkSession
  split
  · rename_i row cached
    exact checkRow_knows passed (freshSession_found h passed.came cached)
  · exact passed

/-- A version that is accepted is the token's, or the one its own device has made of it. -/
theorem passed_of_version (h : s.Valid) (came : Came s request) (covers : request.covers version = true)
    (accepted : ¬(request.token.version ≠ version ∧
      ¬s.previousTokenVersionAccepted request.token version = true)) : Passed s request version := by
  by_cases same : request.token.version = version
  · refine ⟨came, .inl same, ?_⟩
    rw [Request.versionAllowed, same, covers, Bool.true_or]
  · rw [not_and, not_not] at accepted
    have grace := accepted same
    rw [Server.previousTokenVersionAccepted, Option.any_eq_true] at grace
    obtain ⟨g, held, g_ok⟩ := grace
    simp only [Bool.and_eq_true, decide_eq_true_eq] at g_ok
    obtain ⟨⟨⟨-, user⟩, previous⟩, rfl⟩ := g_ok
    obtain ⟨row, made⟩ := h.grace _ g held
    rw [user] at row
    refine ⟨came, .inr row, ?_⟩
    rw [Request.versionAllowed, Bool.or_eq_true, List.any_eq_true]
    exact .inr ⟨_, made, by simp [user, previous, covers]⟩

theorem checkUser_outcome (h : s.Valid) (came : Came s request) (covers : request.covers account.tokenVersion = true) :
    Outcome i s (s.checkUser request account).1 (s.checkUser request account).2 := by
  have refused : Outcome i s { s with userAuthCache := drop s.userAuthCache request.token.userId } .idle :=
    ⟨h.forget (fun _ _ => id) (fun _ _ found => (of_drop found).2) fun _ _ => id, trivial,
      { Server.Grows.refl with }⟩
  unfold Server.checkUser
  dsimp only
  split
  · exact refused
  · split
    · exact refused
    · rename_i accepted
      exact ⟨h, checkSession_knows h (passed_of_version h came covers accepted), .refl⟩

theorem present_outcome (h : s.Valid) (mem : token ∈ s.tokens) :
    Outcome i s (s.present token).1 (s.present token).2 := by
  have came : Came s ⟨token, s.closed, s.returned⟩ := ⟨mem, fun _ _ => id, fun _ => id⟩
  unfold Server.present
  dsimp only
  split
  · rename_i account cached
    refine checkUser_outcome h came (covers_iff.mpr fun c returned user => ?_)
    obtain ⟨e, kept, rfl⟩ := Option.map_eq_some_iff.mp cached
    obtain ⟨held, -⟩ := Option.filter_eq_some_iff.mp kept
    have meets := h.users c returned
    rw [user] at meets
    exact meets e held
  · exact ⟨h, came, .refl⟩

/-! ## The statements -/

theorem Outcome.of_runs {result : Server × Progress} (runs : some result = some (s', next))
    (outcome : Outcome i s result.1 result.2) : Outcome i s s' next := by
  rwa [Option.some.inj runs] at outcome

theorem Outcome.read (h : s.Valid) (own : Knows i s next) : Outcome i s s next := ⟨h, own, .refl⟩

/-- A row of the table is written anew for its user, and nothing else. -/
theorem putRow_grows {new : SessionRow}
    (replaces : ∀ row, s.rows key = some row → new.userId = row.userId ∧ (row.revoked = true → new.revoked = true)) :
    s.Grows { s with rows := Function.update s.rows key (some new) } :=
  { Server.Grows.refl with rows := rowsGrow_update fun row found => ⟨new, rfl, replaces row found⟩ }

theorem closedRow_put {new : SessionRow} (revoked : new.revoked = true) :
    ClosedRow { s with rows := Function.update s.rows key (some new) } userId key := by
  have now : ({ s with rows := Function.update s.rows key (some new) } : Server).rows key = some new :=
    Function.update_self _ _ _
  refine ⟨?_, by rw [now]; nofun⟩
  rw [Server.isOpen, now]
  simp [revoked]

/-- One session is closed. -/
theorem closeRow_outcome (h : s.Valid) (found : s.rows key = some row) :
    Outcome i s (s.closeRow key) (.sessionClosed userId key) := by
  have replaces : ∀ old, s.rows key = some old →
      ({ row with revoked := true } : SessionRow).userId = old.userId ∧ (old.revoked = true → true = true) := by
    intro old same
    obtain rfl := Option.some.inj (found.symm.trans same)
    exact ⟨rfl, fun _ => rfl⟩
  have written : s.closeRow key =
      { s with rows := Function.update s.rows key (some { row with revoked := true }) } := by
    rw [Server.closeRow, found]
    rfl
  rw [written]
  exact ⟨h.putRow replaces (fun _ => rfl) (h.key_known (by rw [found]; nofun)), closedRow_put rfl,
    putRow_grows replaces⟩

theorem closeOpen_outcome (h : s.Valid) (open_ : s.isOpen userId key = true) :
    Outcome i s (s.closeRow key) (.sessionClosed userId key) := by
  obtain ⟨row, found, -⟩ := isOpen_iff.mp open_
  exact closeRow_outcome h found

theorem closeSessions_outcome (h : s.Valid) {device : Option SessionKey} {by_ : Option Request}
    (row : ∀ key, device = some key → s.hasRow userId key = true)
    (same : ∀ request, by_ = some request → request.token.userId = userId) :
    Outcome i s (s.closeSessions (s.nextVersion userId device))
      (.versionRaised (s.nextVersion userId device) (s.otherSessions userId device) by_) := by
  have grows : s.Grows (s.closeSessions (s.nextVersion userId device)) := closeSessions_grows (Nat.le_succ _)
  refine ⟨closeSessions_valid h rfl, ⟨List.mem_cons_self, fun key closing => closeSessions_shut closing,
    fun key own => grows.rows.hasRow (row key own), same⟩, grows⟩

/-- A version is raised and no row is closed. -/
theorem raise_outcome (h : s.Valid) {by_ : Option Request}
    (above : (s.accounts change.userId).tokenVersion ≤ change.current)
    (row : ∀ key, change.device = some key → s.hasRow change.userId key = true)
    (same : ∀ request, by_ = some request → request.token.userId = change.userId) :
    Outcome i s (s.raiseVersion change) (.versionRaised change (fun _ => false) by_) :=
  ⟨h.raiseVersion above, ⟨List.mem_cons_self, nofun, row, same⟩, raiseVersion_grows above⟩

theorem act_outcome (h : s.Valid) (row : s.hasRow request.token.userId request.token.key = true) (action : Action) :
    Outcome i s (s.act request action).1 (s.act request action).2 := by
  have own : ∀ key, some request.token.key = some key → s.hasRow request.token.userId key = true := by
    rintro key ⟨⟩
    exact row
  cases action with
  | closeOwnSession key =>
      simp only [Server.act]
      split
      · exact closeOpen_outcome h (‹_ ∧ _› : _ ∧ _).1
      · exact .read h trivial
  | closeOtherOwnSessions =>
      simp only [Server.act]
      split
      · exact .read h trivial
      · exact closeSessions_outcome h own (by rintro _ ⟨⟩; rfl)
  | closeUserSessionByAdmin userId key =>
      simp only [Server.act]
      split
      · exact closeOpen_outcome h ‹_›
      · exact .read h trivial
  | closeAllUserSessionsByAdmin userId => exact closeSessions_outcome h nofun nofun
  | changeRole userId => exact raise_outcome h (Nat.le_succ _) nofun nofun
  | updateOwnPassword => exact .read h row
  | renew =>
      simp only [Server.act]
      split
      · exact .read h trivial
      · exact .read h le_rfl

theorem logout_outcome (h : s.Valid) (mem : token ∈ s.tokens) :
    Outcome i s (s.closeSessionOnLogout token) (.sessionClosed token.userId token.key) := by
  unfold Server.closeSessionOnLogout
  split
  · rename_i row found
    split
    · exact closeRow_outcome h found
    · rename_i other
      refine .read h ⟨?_, by rw [found]; nofun⟩
      rw [Server.isOpen, found]
      simp [other]
  · rename_i absent
    have replaces : ∀ old, s.rows token.key = some old →
        (⟨token.userId, true, token.exp⟩ : SessionRow).userId = old.userId ∧ (old.revoked = true → true = true) :=
      fun old found => absurd (absent.symm.trans found) nofun
    exact ⟨h.putRow replaces (fun _ => rfl) (h.token_known mem), closedRow_put rfl, putRow_grows replaces⟩

/-- An old token's row is written while its version is the account's. -/
theorem adopt_outcome (h : s.Valid) (passed : Passed s request version)
    (current : (s.accounts request.token.userId).tokenVersion = version) :
    Outcome i s (s.adoptLegacySession request.token) (.readingSession request version since true) := by
  unfold Server.adoptLegacySession
  split
  · exact .read h passed
  · rename_i absent
    have unclosed : ¬s.closed request.token.userId request.token.key = true := by
      intro closed
      have older := h.unadopted request.token passed.came.token closed absent
      obtain same | row := passed.same
      · omega
      · obtain ⟨_, found, -⟩ := hasRow_iff.mp row
        cases absent.symm.trans found
    dsimp only
    have replaces : ∀ old, s.rows request.token.key = some old →
        (⟨request.token.userId, false, if 0 < request.token.exp then request.token.exp
          else s.now + 24 * 60 * 60 * 1000⟩ : SessionRow).userId = old.userId ∧
          (old.revoked = true → false = true) :=
      fun old found => absurd (absent.symm.trans found) nofun
    have grows := putRow_grows replaces
    exact ⟨h.putRow replaces (fun closed => absurd closed unclosed) (h.token_known passed.came.token),
      passed.grows grows, grows⟩

theorem renew_outcome (h : s.Valid) (current : version ≤ (s.accounts request.token.userId).tokenVersion)
    (open_ : s.isOpen request.token.userId request.token.key = true) :
    Outcome i s (s.renewSession request version lifetime).1 (s.renewSession request version lifetime).2 := by
  obtain ⟨row, found, user, live⟩ := isOpen_iff.mp open_
  have replaces : ∀ old, s.rows request.token.key = some old →
      ({ row with expiresAt := s.now + lifetime } : SessionRow).userId = old.userId ∧
        (old.revoked = true → row.revoked = true) := by
    intro old same
    obtain rfl := Option.some.inj (found.symm.trans same)
    exact ⟨rfl, id⟩
  have unclosed : ¬s.closed row.userId request.token.key = true := by
    intro closed
    have shut := h.shut _ _ closed
    rw [user, open_] at shut
    cases shut
  have grows := putRow_grows replaces
  rw [Server.renewSession, if_pos open_, found]
  refine ⟨h.putRow replaces (fun closed => absurd closed unclosed) (h.key_known (by rw [found]; nofun)),
    ⟨current, grows.rows.hasRow (hasRow_iff.mpr ⟨row, found, user⟩)⟩, grows⟩

theorem dropSession_outcome (h : s.Valid) (closedRow : ClosedRow s userId key) :
    Outcome i s (s.dropSession userId key) .idle := by
  refine ⟨dropSession_valid h closedRow, trivial, { Server.Grows.refl with closed := fun u k closed => ?_ }⟩
  simp [Server.dropSession, closed]

theorem dropVersion_grows {keys : SessionKey → Bool} : s.Grows (s.dropVersion change keys) := by
  refine
    { Server.Grows.refl with
      closed := fun u k closed => ?_
      returned := fun _ => List.mem_cons_of_mem _ }
  simp [Server.dropVersion, closed]

theorem sign_outcome (h : s.Valid) (current : version ≤ (s.accounts request.token.userId).tokenVersion)
    (row : s.hasRow request.token.userId request.token.key = true) :
    Outcome i s (s.signRenewed request version lifetime) .idle := by
  have dropped : ({ s with sessionCache := drop s.sessionCache request.token.key } : Server).Valid :=
    h.forget (fun _ _ found => (of_drop found).2) (fun _ _ => id) fun _ _ => id
  refine ⟨?_, trivial, { Server.Grows.refl with tokens := fun _ => List.mem_cons_of_mem _ }⟩
  refine addToken_valid ⟨request.token.userId, some request.token.key, 0, true, version, s.now + lifetime⟩ dropped
    current ?_
  obtain ⟨_, found, -⟩ := hasRow_iff.mp row
  show s.rows request.token.key ≠ none
  rw [found]
  nofun

theorem proceed_outcome (h : s.Valid) (knows : Knows i s progress)
    (meets : UpToDate i (.proceed lifetime) s progress) (runs : s.proceed lifetime progress = some (s', next)) :
    Outcome i s s' next := by
  cases progress with
  | idle | accepted => cases runs
  | loggingIn userId version =>
      cases runs
      exact ⟨issueSession_valid h knows, trivial, issueSession_grows h⟩
  | readingUser request since =>
      cases runs
      refine .read h ⟨knows, covers_iff.mpr fun c before user => ?_⟩
      have current := h.versions c (h.returned c (knows.changes c before))
      rwa [user] at current
  | userRead request since row =>
      obtain ⟨came, covers⟩ := knows
      have filled : ({ s with userAuthCache := fill s.userAuthCache request.token.userId ⟨row, since⟩ } : Server).Valid :=
        { h with users := fun c mem => (h.users c mem).fill (meets c mem) }
      have grows : s.Grows { s with userAuthCache := fill s.userAuthCache request.token.userId ⟨row, since⟩ } :=
        { Server.Grows.refl with }
      have outcome := Outcome.of_runs runs (checkUser_outcome (i := i) filled (came.grows grows) covers)
      exact ⟨outcome.valid, outcome.own, grows.trans outcome.grows⟩
  | readingSession request version since adopted =>
      cases runs
      refine .read h ⟨knows, fun row found => ⟨hasRow_iff.mpr ⟨row, found, rfl⟩, fun closed => ?_⟩⟩
      exact revoked_of_not_open (h.shut _ _ (knows.came.closed _ _ closed)) found
  | sessionRead request version since adopted row =>
      obtain ⟨passed, found⟩ := knows
      cases row with
      | none =>
          simp only [Server.proceed] at runs
          split at runs <;> cases runs
          · exact .read h passed
          · exact .read h trivial
      | some row =>
          cases runs
          have found := found row rfl
          have grows : s.Grows { s with sessionCache := fill s.sessionCache request.token.key ⟨row, s.now⟩ } :=
            { Server.Grows.refl with }
          refine ⟨{ h with cached := fun u k closed => (h.cached u k closed).fill ?_, stored := fun k => (h.stored k).fill ?_ },
            (checkRow_knows passed found).grows grows, grows⟩
          · rintro rfl rfl
            exact meets closed
          · rintro rfl
            exact found.1
  | adopting request version since =>
      cases runs
      exact adopt_outcome h knows meets
  | sessionClosed userId key =>
      cases runs
      exact dropSession_outcome h knows
  | versionRaised change keys by_ =>
      obtain ⟨mem, closedRows, device, same⟩ := knows
      have valid := dropVersion_valid h mem closedRows device
      cases by_ with
      | none =>
          cases runs
          exact ⟨valid, trivial, dropVersion_grows⟩
      | some request =>
          cases runs
          refine ⟨valid, ?_, dropVersion_grows⟩
          show change.current ≤ (s.accounts request.token.userId).tokenVersion
          rw [same request rfl]
          exact h.versions change mem
  | changingPassword request version =>
      have above : (s.accounts request.token.userId).tokenVersion ≤ version + 1 := by
        change (s.accounts request.token.userId).tokenVersion = version at meets
        omega
      cases runs
      refine raise_outcome h above ?_ ?_
      · rintro key ⟨⟩
        exact knows
      · rintro _ ⟨⟩
        rfl
  | renewing request version =>
      exact .of_runs runs (renew_outcome h knows meets)
  | renewed request version =>
      cases runs
      exact sign_outcome h knows.1 knows.2

theorem Outcome.forget (h : s.Valid) (knows : Knows i s progress) {sessions : SessionKey → Option (Cached SessionRow)}
    {users : ℕ → Option (Cached Account)} {grace : SessionKey → Option Grace}
    (fewer : ∀ k c, sessions k = some c → s.sessionCache k = some c)
    (fewerUsers : ∀ u c, users u = some c → s.userAuthCache u = some c)
    (fewerGrace : ∀ k g, grace k = some g → s.graceBySid k = some g) :
    Outcome i s { s with sessionCache := sessions, userAuthCache := users, graceBySid := grace } progress := by
  have grows : s.Grows { s with sessionCache := sessions, userAuthCache := users, graceBySid := grace } :=
    { Server.Grows.refl with }
  exact ⟨h.forget fewer fewerUsers fewerGrace, knows.grows grows, grows⟩

theorem serve_outcome {turn : Turn} (h : s.Valid) (knows : Knows i s progress) (meets : UpToDate i turn s progress)
    (runs : serve i turn s progress = some (s', next)) : Outcome i s s' next := by
  unfold serve at runs
  split at runs
  · rename_i ms
    cases runs
    have grows : s.Grows { s with now := s.now + ms } := { Server.Grows.refl with }
    exact ⟨{ h with }, knows.grows grows, grows⟩
  · cases runs
    exact .forget h knows (fun _ _ found => (of_drop found).2) (fun _ _ => id) fun _ _ => id
  · cases runs
    exact .forget h knows (fun _ _ => id) (fun _ _ found => (of_drop found).2) fun _ _ => id
  · cases runs
    exact .forget h knows (fun _ _ => id) (fun _ _ => id) fun _ _ found => (of_drop found).2
  · split at runs <;> cases runs
    exact .read h le_rfl
  · split at runs
    · rename_i mem
      exact .of_runs runs (present_outcome h mem)
    · cases runs
  · split at runs <;> cases runs
    exact logout_outcome h ‹_›
  · split at runs
    · cases runs
      exact .read h trivial
    · exact .of_runs runs (act_outcome h knows.2.2 _)
  · exact proceed_outcome h knows meets runs
  · cases runs

theorem serveOutline : Outline serve UpToDate Server.Valid Knows where
  own h knows meets runs := by
    have outcome := serve_outcome h knows meets runs
    exact ⟨outcome.valid, outcome.own⟩
  others _ h knows knowsOther meets runs := knowsOther.grows (serve_outcome h knows meets runs).grows

end Outline

/-! ## Every run -/

/-- The server has just begun: nothing is cached, every token was signed with a version of its
account, and the next session key is not in use. -/
structure Server.Started (s : Server) : Prop where
  caches : ∀ k, s.sessionCache k = none
  userCache : ∀ u, s.userAuthCache u = none
  grace : ∀ k, s.graceBySid k = none
  tokens : ∀ token ∈ s.tokens, token.version ≤ (s.accounts token.userId).tokenVersion
  fresh : ∀ n, s.nextSid ≤ n → s.rows (.own n) = none ∧ ∀ token ∈ s.tokens, token.key ≠ .own n
  changes : s.changes = []
  returned : s.returned = []
  closed : ∀ u k, s.closed u k = false
  reissued : s.reissued = []

theorem Server.Started.valid {s : Server} (h : s.Started) : s.Valid where
  shut u k closed := absurd (closed.symm.trans (h.closed u k)) nofun
  cached u k closed := absurd (closed.symm.trans (h.closed u k)) nofun
  stored k c found := absurd (found.symm.trans (h.caches k)) nofun
  versions c mem := by
    rw [h.changes] at mem
    cases mem
  returned c mem := by
    rw [h.returned] at mem
    cases mem
  users c mem := by
    rw [h.returned] at mem
    cases mem
  grace k g found := absurd (found.symm.trans (h.grace k)) nofun
  tokens := h.tokens
  unadopted token _ closed := absurd (closed.symm.trans (h.closed _ _)) nofun
  fresh n later := ⟨(h.fresh n later).1, fun u => h.closed u _, (h.fresh n later).2⟩
  reissued := h.reissued

theorem safe_of_holds {c : Config ℕ Server Progress} (h : Holds Server.Valid Knows c) : Safe c := by
  refine ⟨fun i => ?_, h.shared.shut, fun device mem => ?_, fun i => ?_⟩
  · have knows := h.locals i
    cases at_ : c.locals i with
    | accepted request grace =>
        rw [at_] at knows
        exact knows.1
    | _ => rfl
  · rw [h.shared.reissued] at mem
    cases mem
  · have knows := h.locals i
    cases at_ : c.locals i with
    | accepted request grace =>
        rw [at_] at knows
        simp [Progress.entersStale, knows.2.1]
    | _ => rfl

/-- In every run in which no statement acts on a read that was overtaken, a closed device stays
out, gets no new session without a login, and the grace lets in the device that made the last
change and no other. -/
theorem closed_device_stays_out {start : Server} (started : start.Started) {schedule : List (ℕ × Turn)}
    (meets : serve.Meets UpToDate ⟨start, fun _ => .idle⟩ schedule) :
    Safe (serve.after ⟨start, fun _ => .idle⟩ schedule) := by
  have holds : Holds Server.Valid Knows ⟨start, fun _ => .idle⟩ := ⟨started.valid, fun _ => trivial⟩
  exact safe_of_holds (serveOutline.after_meets holds meets)

/-! ## Runs that keep the promises and runs that break them -/

def phone : Token := ⟨1, some (.own 0), 0, true, 0, 0⟩

def laptop : Token := ⟨1, some (.own 1), 0, true, 0, 0⟩

/-- A token of user 1 from before sessions were kept. -/
def oldToken : Token := ⟨1, none, 7, false, 0, 0⟩

def adminToken : Token := ⟨2, some (.own 2), 0, true, 0, 0⟩

/-- Two devices of user 1 and one of the system admin. -/
def devices : Server where
  rows := fun
    | .own 0 | .own 1 => some ⟨1, false, 0⟩
    | .own 2 => some ⟨2, false, 0⟩
    | _ => none
  accounts := fun _ => ⟨0, false⟩
  sessionCache := fun _ => none
  userAuthCache := fun _ => none
  graceBySid := fun _ => none
  now := 0
  nextSid := 3
  tokens := [phone, laptop, oldToken, adminToken]
  changes := []
  returned := []
  closed := fun _ _ => false
  reissued := []

/-- A request of the token goes through the whole check, with both rows read. -/
def checked (i : ℕ) (token : Token) : List (ℕ × Turn) :=
  (i, .present token) :: List.replicate 4 (i, .proceed 0)

/-- The admin closes the phone's session; the phone's next request is refused, the laptop's not. -/
def closedInTime : List (ℕ × Turn) :=
  checked 1 adminToken ++ checked 0 phone ++
    [(1, .act (.closeUserSessionByAdmin 1 (.own 0))), (1, .proceed 0)] ++ checked 2 phone ++ checked 3 laptop

theorem closed_device_stays_out_in_time :
    Safe (serve.after ⟨devices, fun _ => .idle⟩ closedInTime) ∧
      ((serve.after ⟨devices, fun _ => .idle⟩ closedInTime).shared.closed 1 (.own 0) = true) := by
  refine ⟨closed_device_stays_out ⟨?_, ?_, ?_, by decide +kernel, ?_, rfl, rfl, ?_, rfl⟩ (by decide +kernel),
    by decide +kernel⟩
  · exact fun _ => rfl
  · exact fun _ => rfl
  · exact fun _ => rfl
  · intro n later
    refine ⟨?_, fun token mem same => ?_⟩
    · match n, later with
      | n + 3, _ => rfl
    · simp only [devices, List.mem_cons, List.not_mem_nil, or_false] at mem
      change 3 ≤ n at later
      obtain rfl | rfl | rfl | rfl := mem <;> cases same <;> omega
  · exact fun _ _ => rfl

/-- The phone's session is read open; the admin closes it and its cache entry is dropped; then
the entry is filled, and the phone's next request finds it. -/
def staleFill : List (ℕ × Turn) :=
  checked 1 adminToken ++
    [(0, .present phone), (0, .proceed 0), (0, .proceed 0), (0, .proceed 0),
      (1, .act (.closeUserSessionByAdmin 1 (.own 0))), (1, .proceed 0),
      (0, .proceed 0), (2, .present phone)]

/-- The account is read at version 0; its role is changed; then the entry is filled, and the
laptop's token of version 0 is accepted. -/
def staleVersion : List (ℕ × Turn) :=
  checked 1 adminToken ++
    [(0, .present phone), (0, .proceed 0), (1, .act (.changeRole 1)), (1, .proceed 0), (0, .proceed 0)] ++
      checked 2 laptop

/-- An old token's request finds no row; the phone closes the user's other devices; the row is
written, the cookie renewed with the new version, and the new token accepted. -/
def lateAdoption : List (ℕ × Turn) :=
  checked 1 phone ++
    [(0, .present oldToken), (0, .proceed 0), (0, .proceed 0),
      (1, .act .closeOtherOwnSessions), (1, .proceed 0), (0, .proceed 0), (0, .proceed 0), (0, .proceed 0),
      (0, .act .renew), (0, .proceed 9), (0, .proceed 9)] ++
    checked 2 ⟨1, some (.legacy 7), 0, true, 1, 9⟩

/-- The phone changes its password; the admin closes its session before the cookie is renewed,
and the renewal gives it a new one. -/
def lateRenewal : List (ℕ × Turn) :=
  checked 1 adminToken ++ checked 0 phone ++
    [(0, .act .updateOwnPassword), (0, .proceed 0), (0, .proceed 0),
      (1, .act (.closeUserSessionByAdmin 1 (.own 0))), (1, .proceed 0), (0, .proceed 0)]

/-- Both devices change the password from version 0; the user's role is changed in between, and
the second write takes the version back to the one of the phone's grace. -/
def lostRaise : List (ℕ × Turn) :=
  checked 2 adminToken ++ checked 0 phone ++ checked 1 laptop ++
    [(0, .act .updateOwnPassword), (1, .act .updateOwnPassword), (0, .proceed 0), (0, .proceed 0),
      (2, .act (.changeRole 1)), (2, .proceed 0), (1, .proceed 0), (1, .proceed 0)] ++ checked 3 phone

/-- Each of the overtaken reads breaks a promise. -/
theorem closed_device_comes_back :
    ¬Safe (serve.after ⟨devices, fun _ => .idle⟩ staleFill) ∧
      ¬Safe (serve.after ⟨devices, fun _ => .idle⟩ staleVersion) ∧
        ¬Safe (serve.after ⟨devices, fun _ => .idle⟩ lateAdoption) ∧
          ¬Safe (serve.after ⟨devices, fun _ => .idle⟩ lateRenewal) ∧
            ¬Safe (serve.after ⟨devices, fun _ => .idle⟩ lostRaise) := by
  refine ⟨fun safe => ?_, fun safe => ?_, fun safe => ?_, fun safe => ?_, fun safe => ?_⟩
  · exact absurd (safe.accepted 2) (by decide +kernel)
  · exact absurd (safe.grace 2) (by decide +kernel)
  · exact absurd (safe.accepted 2) (by decide +kernel)
  · exact absurd (safe.reissued (1, .own 0) (by decide +kernel)) (by decide +kernel)
  · exact absurd (safe.grace 3) (by decide +kernel)

end PapitalErp.Sessions
