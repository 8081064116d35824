import PapitalErp.Lib.EventLog
import PapitalErp.Messenger.MessengerLinks

/-!
# Who receives the notices of whom

In every order of the statements a user has at most one active link of a messenger and a chat at
most one, a code links at most once, to the user and messenger it was issued for, and not after a
newer one. The rest needs three conditions. A test message that the bot refuses closes whatever link
its chat has by then, so the chat must not have been linked again; a delivery closes the link it was
sent over. An update whose handling fails is passed over, so a «/stop» has to be carried out. A wrong
code is tested before it is counted, so nothing may fail or stop in between.

The pass of a bot holds its advisory lock. Whatever it knows of the bot's row, of the updates it has
fetched and of the links of the messenger, only it can change.
-/

namespace PapitalErp.MessengerLinks

open Interleaving Transition EventLog

/-! ## What is promised -/

/-- A code is used up by a link, and a newer code of the user and messenger replaces it. -/
def Ends : Event → Event → Prop
  | .issued code, .issued newer => newer.userId = code.userId ∧ newer.messenger = code.messenger
  | .issued code, .linked used _ _ => used = code
  | .linked _ _ _, _ => False

/-- A link is made by a code that stands, in time, for the user and messenger of the code. -/
def ByCode (earlier : List Event) : Event → Prop
  | .issued _ => True
  | .linked code link startedAt => Standing Ends earlier (.issued code) ∧ startedAt < code.expiresAt ∧
      link.userId = code.userId ∧ link.messenger = code.messenger

/-- The wrong codes that the bot tested in the window from `since` on. -/
def testedIn (tests : List ℕ) (since : ℕ) : ℕ :=
  tests.countP fun test => since ≤ test ∧ test < since + WRONG_CODE_WINDOW

/-- No two active links of a user and messenger, or of a chat. -/
def Apart (link other : Link) : Prop :=
  link.isActive = true → other.isActive = true → link.messenger = other.messenger →
    link.userId ≠ other.userId ∧ link.chatId ≠ other.chatId

/-- No code links twice. -/
def UsedOnce : Event → Event → Prop
  | .linked code _ _, .linked other _ _ => code ≠ other
  | _, _ => True

structure Safe (s : Tables) : Prop where
  apart : s.links.Pairwise Apart
  codes : Justified ByCode s.events
  usedOnce : s.events.Pairwise UsedOnce
  wrongCodes : ∀ messenger, ∀ since ∈ s.windows messenger,
    testedIn (s.tests messenger) since ≤ BOT_WRONG_CODE_LIMIT
  refusals : ∀ refusal ∈ s.refusals, refusal.closed = refusal.sentOver
  stops : ∀ link ∈ s.links, link.isActive = true → ∀ update ∈ s.inbox link.messenger,
    update.text = .stop → update.chatId = link.chatId →
      update.id < (s.bot link.messenger).updateOffset → update.id < link.madeBy

/-- The chat has an active link. -/
def Tables.linked (s : Tables) (messenger : Messenger) (chatId : ℕ) (other : Link → Bool) : Bool :=
  s.links.any fun link => link.isActive && Tables.ofChat messenger chatId link && other link

/-- What keeps the links safe: of the moment before a statement and of the environment. -/
def reliable (weather : Weather) (s : Tables) : Point → Bool
  | .testRefused link =>
      weather.crashes || weather.fails ||
        !s.linked link.messenger link.chatId fun other => other.id ≠ link.id
  | .stopping messenger update _ =>
      weather.crashes || !weather.fails || !s.linked messenger update.chatId fun _ => true
  | .counting _ _ _ => !weather.fails && !weather.crashes
  | _ => true

/-! ## The invariant -/

/-- The wrong codes of a bot. The one that is tested and not counted yet is in `uncounted`. -/
structure CodesCounted (now : ℕ) (bot : Bot) (tests : List ℕ) (uncounted : ℕ) (windows : List ℕ) : Prop where
  past : ∀ test ∈ tests, test ≤ now
  bounded : bot.wrongCodesCount ≤ BOT_WRONG_CODE_LIMIT
  unstarted : bot.wrongCodesSince = none → tests.length ≤ uncounted
  current : ∀ since, bot.wrongCodesSince = some since →
    (tests.countP fun test => since ≤ test) ≤ bot.wrongCodesCount + uncounted
  late : ∀ since, bot.wrongCodesSince = some since →
    (tests.countP fun test => since + WRONG_CODE_WINDOW ≤ test) ≤ uncounted
  old : ∀ since ∈ windows, bot.wrongCodesSince = some since ∨ since + WRONG_CODE_WINDOW ≤ now
  limit : ∀ since ∈ windows, testedIn tests since ≤ BOT_WRONG_CODE_LIMIT

structure Tables.Valid (s : Tables) : Prop where
  codeIds : ∀ code ∈ s.codes, code.id < s.nextCode
  codesApart : s.codes.Pairwise fun code other => code.id ≠ other.id
  standing : ∀ code ∈ s.codes, Standing Ends s.events (.issued code)
  codes : Justified ByCode s.events
  usedOnce : s.events.Pairwise UsedOnce
  used : ∀ code link startedAt, .linked code link startedAt ∈ s.events →
    code.id < s.nextCode ∧ ∀ row ∈ s.codes, row.id ≠ code.id
  apart : s.links.Pairwise Apart
  refusals : ∀ refusal ∈ s.refusals, refusal.closed = refusal.sentOver
  inbox : ∀ messenger, (s.inbox messenger).Pairwise fun update later => update.id < later.id
  offsets : ∀ messenger, (s.bot messenger).updateOffset ≤ s.lastUpdate messenger + 1
  stops : ∀ link ∈ s.links, link.isActive = true → ∀ update ∈ s.inbox link.messenger,
    update.text = .stop → update.chatId = link.chatId →
      update.id < (s.bot link.messenger).updateOffset → update.id < link.madeBy
  counted : ∀ messenger, CodesCounted s.now (s.bot messenger) (s.tests messenger)
    (s.uncounted messenger) (s.windows messenger)
  free : ∀ messenger, s.pollLocks messenger = none → s.uncounted messenger = 0

theorem Tables.Valid.safe {s : Tables} (valid : s.Valid) : Safe s :=
  ⟨valid.apart, valid.codes, valid.usedOnce, fun messenger => (valid.counted messenger).limit, valid.refusals, valid.stops⟩

/-- The bot may test one more wrong code. -/
def NotFull (s : Tables) (messenger : Messenger) : Prop :=
  ∀ since, (s.bot messenger).wrongCodesSince = some since → s.now < since + WRONG_CODE_WINDOW →
    (s.bot messenger).wrongCodesCount < BOT_WRONG_CODE_LIMIT

/-- The updates of a pass are the next ones of the bot. -/
def Pending (s : Tables) (messenger : Messenger) (updates : List Update) : Prop :=
  ∃ later, (s.inbox messenger).filter (fun update => (s.bot messenger).updateOffset ≤ update.id) =
    updates ++ later

/-- What a pass over a bot knows: it has the lock, and so many tests are not counted. -/
structure InPass (i : ℕ) (s : Tables) (messenger : Messenger) (updates : List Update) (uncounted : ℕ) :
    Prop where
  lock : s.pollLocks messenger = some i
  pending : Pending s messenger updates
  uncounted : s.uncounted messenger = uncounted

/-- The bot whose lock a request has. -/
def Point.polls : Point → Option Messenger
  | .fetching messenger _ | .handling messenger _ | .stopping messenger _ _
  | .reading messenger _ _ _ | .matching messenger _ _ _ | .found messenger _ _ _ _
  | .confirming messenger _ _ _ _ | .linking messenger _ _ _ _ | .counting messenger _ _
  | .storing messenger _ _ => some messenger
  | _ => none

/-- What a request knows at a point of the rows it needs. -/
def KnowsRows (i : ℕ) (s : Tables) : Point → Prop
  | .fetching messenger offset => InPass i s messenger [] 0 ∧ offset = (s.bot messenger).updateOffset
  | .handling messenger updates => InPass i s messenger updates 0
  | .stopping messenger update rest => InPass i s messenger (update :: rest) 0
  | .reading messenger update _ rest => InPass i s messenger (update :: rest) 0 ∧ update.text ≠ .stop
  | .matching messenger update _ rest => InPass i s messenger (update :: rest) 0 ∧ update.text ≠ .stop ∧
      NotFull s messenger
  | .found messenger update code startedAt rest | .confirming messenger update code startedAt rest =>
      InPass i s messenger (update :: rest) 0 ∧ update.text ≠ .stop ∧ NotFull s messenger ∧
        code.messenger = messenger ∧ startedAt < code.expiresAt
  | .linking messenger update code startedAt rest =>
      InPass i s messenger (update :: rest) 0 ∧ update.text ≠ .stop ∧ NotFull s messenger ∧
        code.messenger = messenger ∧ startedAt < code.expiresAt ∧ code ∈ s.codes ∧
        s.codeLocks code.id = some i
  | .counting messenger update rest => InPass i s messenger (update :: rest) 1 ∧ update.text ≠ .stop ∧
      NotFull s messenger
  | .storing messenger update rest => InPass i s messenger (update :: rest) 0 ∧
      (update.text = .stop → ∀ link ∈ s.links, link.isActive = true → link.messenger = messenger →
        link.chatId ≠ update.chatId)
  | _ => True

structure Knows (i : ℕ) (s : Tables) (point : Point) : Prop where
  rows : KnowsRows i s point
  holds : ∀ messenger, s.pollLocks messenger = some i → point.polls = some messenger

/-- What the others see of a statement. -/
structure Leaves (i : ℕ) (s s' : Tables) : Prop where
  now : s.now ≤ s'.now
  codes : ∀ code ∈ s.codes, ∀ j, j ≠ i → s.codeLocks code.id = some j →
    code ∈ s'.codes ∧ s'.codeLocks code.id = some j
  inbox : ∀ messenger, s.inbox messenger <+: s'.inbox messenger
  polls : ∀ messenger j, j ≠ i → (s'.pollLocks messenger = some j ↔ s.pollLocks messenger = some j)
  pass : ∀ messenger j, j ≠ i → s.pollLocks messenger = some j →
    s'.bot messenger = s.bot messenger ∧ s'.uncounted messenger = s.uncounted messenger ∧
      ∀ link ∈ s'.links, link.isActive = true → link.messenger = messenger →
        ∃ link' ∈ s.links, link'.isActive = true ∧ link'.messenger = messenger ∧ link'.chatId = link.chatId

structure Outcome (i : ℕ) (s : Tables) (out : Tables × Point) : Prop where
  leaves : Leaves i s out.1
  valid : out.1.Valid
  knows : Knows i out.1 out.2

variable {s s' s'' : Tables} {i j : ℕ} {messenger : Messenger}

/-! ### What the others do -/

theorem Leaves.refl (i : ℕ) (s : Tables) : Leaves i s s :=
  ⟨le_rfl, fun _ mem _ _ held => ⟨mem, held⟩, fun _ => List.prefix_rfl, fun _ _ _ => Iff.rfl,
    fun _ _ _ _ => ⟨rfl, rfl, fun link mem active same => ⟨link, mem, active, same, rfl⟩⟩⟩

theorem Leaves.trans (first : Leaves i s s') (second : Leaves i s' s'') : Leaves i s s'' := by
  refine ⟨first.now.trans second.now, fun code mem j apart held => ?_,
    fun messenger => (first.inbox messenger).trans (second.inbox messenger),
    fun messenger j apart => (second.polls messenger j apart).trans (first.polls messenger j apart),
    fun messenger j apart held => ?_⟩
  · obtain ⟨mem', held'⟩ := first.codes code mem j apart held
    exact second.codes code mem' j apart held'
  · obtain ⟨bot, uncounted, links⟩ := first.pass messenger j apart held
    obtain ⟨bot', uncounted', links'⟩ :=
      second.pass messenger j apart ((first.polls messenger j apart).mpr held)
    refine ⟨bot'.trans bot, uncounted'.trans uncounted, fun link mem active same => ?_⟩
    obtain ⟨middle, mem', active', same', chat'⟩ := links' link mem active same
    obtain ⟨old, mem'', active'', same'', chat''⟩ := links middle mem' active' same'
    exact ⟨old, mem'', active'', same'', chat''.trans chat'⟩

theorem Pending.of_prefix {updates : List Update} (pending : Pending s messenger updates)
    (bot : s'.bot messenger = s.bot messenger) (inbox : s.inbox messenger <+: s'.inbox messenger) :
    Pending s' messenger updates := by
  obtain ⟨later, pending⟩ := pending
  obtain ⟨new, grown⟩ := inbox
  rw [Pending, ← grown, bot, List.filter_append, pending, List.append_assoc]
  exact ⟨_, rfl⟩

theorem InPass.of_leaves {updates : List Update} {uncounted : ℕ} (apart : j ≠ i)
    (pass : InPass j s messenger updates uncounted) (leaves : Leaves i s s') :
    InPass j s' messenger updates uncounted := by
  obtain ⟨bot, same, -⟩ := leaves.pass messenger j apart pass.lock
  exact ⟨(leaves.polls messenger j apart).mpr pass.lock, pass.pending.of_prefix bot (leaves.inbox messenger), same.trans pass.uncounted⟩

theorem NotFull.of_bot (notFull : NotFull s messenger) (bot : s'.bot messenger = s.bot messenger)
    (now : s.now ≤ s'.now) : NotFull s' messenger := by
  intro since same before
  rw [bot] at same ⊢
  exact notFull since same (now.trans_lt before)

theorem KnowsRows.of_leaves {point : Point} (apart : j ≠ i) (knows : KnowsRows j s point)
    (leaves : Leaves i s s') : KnowsRows j s' point := by
  have bot {messenger updates uncounted} (pass : InPass j s messenger updates uncounted) :
      s'.bot messenger = s.bot messenger := (leaves.pass messenger j apart pass.lock).1
  cases point with
  | fetching =>
      obtain ⟨pass, rfl⟩ := knows
      exact ⟨pass.of_leaves apart leaves, by rw [bot pass]⟩
  | handling | stopping => exact InPass.of_leaves apart knows leaves
  | reading => exact ⟨knows.1.of_leaves apart leaves, knows.2⟩
  | matching | counting =>
      obtain ⟨pass, text, notFull⟩ := knows
      exact ⟨pass.of_leaves apart leaves, text, notFull.of_bot (bot pass) leaves.now⟩
  | found | confirming =>
      obtain ⟨pass, text, notFull, code⟩ := knows
      exact ⟨pass.of_leaves apart leaves, text, notFull.of_bot (bot pass) leaves.now, code⟩
  | linking =>
      obtain ⟨pass, text, notFull, same, inTime, mem, held⟩ := knows
      exact ⟨pass.of_leaves apart leaves, text, notFull.of_bot (bot pass) leaves.now, same, inTime,
        leaves.codes _ mem j apart held⟩
  | storing =>
      obtain ⟨pass, stopped⟩ := knows
      refine ⟨pass.of_leaves apart leaves, fun text link mem active same => ?_⟩
      obtain ⟨-, -, links⟩ := leaves.pass _ j apart pass.lock
      obtain ⟨old, mem', active', same', chat⟩ := links link mem active same
      rw [← chat]
      exact stopped text old mem' active' same'
  | sent | issuing | inserting | testing | testRefused | delivering | deliveryRefused | ended => trivial

theorem Knows.of_leaves {point : Point} (apart : j ≠ i) (knows : Knows j s point)
    (leaves : Leaves i s s') : Knows j s' point :=
  ⟨knows.rows.of_leaves apart leaves, fun messenger held =>
    knows.holds messenger ((leaves.polls messenger j apart).mp held)⟩

/-! ### The wrong codes of a bot -/

section WrongCodes

variable {now later uncounted : ℕ} {bot : Bot} {tests windows : List ℕ}

theorem CodesCounted.of_later (counted : CodesCounted now bot tests uncounted windows) (le : now ≤ later) :
    CodesCounted later bot tests uncounted windows :=
  { counted with
    past := fun test mem => (counted.past test mem).trans le
    old := fun since mem => (counted.old since mem).imp_right fun ended => ended.trans le }

theorem CodesCounted.of_offset (counted : CodesCounted now bot tests uncounted windows) (offset : ℕ) :
    CodesCounted now { bot with updateOffset := offset } tests uncounted windows :=
  ⟨counted.past, counted.bounded, counted.unstarted, counted.current, counted.late, counted.old, counted.limit⟩

/-- One more wrong code is tested, which the window admits. -/
theorem CodesCounted.tested (counted : CodesCounted now bot tests 0 windows)
    (notFull : ∀ since, bot.wrongCodesSince = some since → now < since + WRONG_CODE_WINDOW →
      bot.wrongCodesCount < BOT_WRONG_CODE_LIMIT) :
    CodesCounted now bot (now :: tests) 1 windows := by
  obtain ⟨past, bounded, unstarted, current, late, old, limit⟩ := counted
  refine ⟨?_, bounded, fun none => ?_, fun since same => ?_, fun since same => ?_, old, fun since mem => ?_⟩
  · rintro test (_ | ⟨_, mem⟩)
    · exact le_rfl
    · exact past test mem
  · have none_tested := unstarted none
    simp only [List.length_cons]
    omega
  · have before := current since same
    rw [List.countP_cons]
    split_ifs <;> omega
  · have before := late since same
    rw [List.countP_cons]
    split_ifs <;> omega
  · have before := limit since mem
    rw [testedIn, List.countP_cons]
    split_ifs with inside
    · -- only the current window is still open
      rw [decide_eq_true_eq] at inside
      obtain same | ended := old since mem
      · have open_ := notFull since same inside.2
        have counted := current since same
        have fewer : testedIn tests since ≤ tests.countP fun test => decide (since ≤ test) := by
          refine List.countP_mono_left fun test _ within => ?_
          simp only [decide_eq_true_eq] at within ⊢
          exact within.1
        rw [testedIn] at fewer
        omega
      · omega
    · exact before

/-- The tested code is counted in the window it falls into. -/
theorem CodesCounted.count (counted : CodesCounted now bot tests 1 windows) {since : ℕ}
    (same : bot.wrongCodesSince = some since) (within : now < since + WRONG_CODE_WINDOW)
    (notFull : bot.wrongCodesCount < BOT_WRONG_CODE_LIMIT) :
    CodesCounted now { bot with wrongCodesCount := bot.wrongCodesCount + 1 } tests 0 windows := by
  obtain ⟨past, bounded, unstarted, current, late, old, limit⟩ := counted
  refine ⟨past, notFull, fun none => ?_, fun start started => ?_, fun start started => ?_, old, limit⟩
  · cases none.symm.trans same
  · have before := current start started
    dsimp only
    omega
  · obtain rfl := Option.some.inj (same.symm.trans started)
    refine (List.countP_eq_zero.mpr fun test mem => ?_).le
    have := past test mem
    simp only [decide_eq_true_eq]
    omega

/-- The tested code starts a window. -/
theorem CodesCounted.restart (counted : CodesCounted now bot tests 1 windows)
    (ended : ∀ since, bot.wrongCodesSince = some since → since + WRONG_CODE_WINDOW ≤ now) :
    CodesCounted now { bot with wrongCodesCount := 1, wrongCodesSince := some now } tests 0 (now :: windows) := by
  obtain ⟨past, bounded, unstarted, current, late, old, limit⟩ := counted
  have few : (tests.countP fun test => decide (now ≤ test)) ≤ 1 := by
    cases same : bot.wrongCodesSince with
    | none => exact List.countP_le_length.trans (unstarted same)
    | some since =>
        refine le_trans (List.countP_mono_left fun test _ after => ?_) (late since same)
        have := ended since same
        simp only [decide_eq_true_eq] at after ⊢
        omega
  have one : 1 ≤ BOT_WRONG_CODE_LIMIT := by decide
  refine ⟨past, one, (by simp), ?_, ?_, ?_, ?_⟩
  · rintro since ⟨⟩
    exact few
  · rintro since ⟨⟩
    refine (List.countP_eq_zero.mpr fun test mem => ?_).le
    have := past test mem
    have : 0 < WRONG_CODE_WINDOW := by decide
    simp only [decide_eq_true_eq]
    omega
  · rintro since (_ | ⟨_, mem⟩)
    · exact .inl rfl
    · obtain same | ended := old since mem
      · exact .inr (ended since same)
      · exact .inr ended
  · rintro since (_ | ⟨_, mem⟩)
    · refine le_trans (List.countP_mono_left fun test _ within => ?_) (few.trans one)
      simp only [decide_eq_true_eq] at within ⊢
      exact within.1
    · exact limit since mem

end WrongCodes

/-! ### Statements that write no rows -/

/-- The locks of users and codes say nothing about the rows, and a lock of a bot that is free has
nothing to count. -/
theorem Tables.Valid.of_locks (valid : s.Valid) (userLocks codeLocks : Locks ℕ ℕ) (pollLocks : Locks Messenger ℕ)
    (free : ∀ messenger, pollLocks messenger = none → s.uncounted messenger = 0) :
    ({ s with
      userLocks := userLocks
      codeLocks := codeLocks
      pollLocks := pollLocks } : Tables).Valid :=
  { valid with free := free }

theorem outcome_go {next : Point} (valid : s.Valid) (knows : Knows i s next) :
    Outcome i s (s, next) :=
  ⟨.refl i s, valid, knows⟩

theorem leaves_endTransaction (i : ℕ) (s : Tables) : Leaves i s (s.endTransaction i) :=
  { Leaves.refl i s with codes := fun _ mem _ apart held => ⟨mem, Locks.release_keeps apart held⟩ }

theorem leaves_close (i : ℕ) (s : Tables) : Leaves i s (s.close i) :=
  { leaves_endTransaction i s with
    polls := fun _ _ apart =>
      ⟨fun held => Locks.held_of_release held, fun held => Locks.release_keeps apart held⟩ }

/-- A process that has counted what it tested may stop anywhere. -/
theorem outcome_stop (valid : s.Valid)
    (settled : ∀ messenger, s.pollLocks messenger = some i → s.uncounted messenger = 0) :
    Outcome i s (s.stop i) := by
  refine ⟨leaves_close i s, valid.of_locks _ _ _ fun messenger none => ?_, trivial, fun messenger held => ?_⟩
  · rw [Locks.release] at none
    split_ifs at none with own
    · exact settled messenger own
    · exact valid.free messenger none
  · exact absurd rfl (Locks.release_ne_self held)

theorem settled_of_knows {point : Point} (knows : Knows i s point)
    (counted : ∀ messenger update rest, point ≠ .counting messenger update rest) (messenger : Messenger)
    (held : s.pollLocks messenger = some i) : s.uncounted messenger = 0 := by
  have polls := knows.holds messenger held
  have rows := knows.rows
  cases point with
  | counting => exact absurd rfl (counted _ _ _)
  | sent | issuing | inserting | testing | testRefused | delivering | deliveryRefused | ended => cases polls
  | handling | stopping =>
      obtain rfl := Option.some.inj polls
      exact rows.uncounted
  | fetching | reading | matching | found | confirming | linking | storing =>
      obtain rfl := Option.some.inj polls
      exact rows.1.uncounted

/-! ### Closing links -/

theorem active_closeLinks {which : Link → Bool} {link : Link} (mem : link ∈ (s.closeLinks which).links)
    (active : link.isActive = true) : link ∈ s.links ∧ which link = false := by
  obtain ⟨old, oldMem, rfl⟩ := List.mem_map.mp mem
  by_cases closes : old.isActive = true ∧ which old = true
  · simp [closes] at active
  · rw [if_neg closes] at active ⊢
    exact ⟨oldMem, by simpa [active] using closes⟩

theorem Tables.Valid.closeLinks (valid : s.Valid) (which : Link → Bool) : (s.closeLinks which).Valid := by
  refine { valid with apart := ?_, stops := ?_ }
  · refine List.Pairwise.map _ (fun link other apart => ?_) valid.apart
    intro active active' same
    by_cases closes : link.isActive = true ∧ which link = true
    · simp [closes] at active
    by_cases closes' : other.isActive = true ∧ which other = true
    · simp [closes'] at active'
    rw [if_neg closes] at active same ⊢
    rw [if_neg closes'] at active' same ⊢
    exact apart active active' same
  · intro link mem active
    exact valid.stops link (active_closeLinks mem active).1 active

theorem leaves_closeLinks (i : ℕ) (s : Tables) (which : Link → Bool) : Leaves i s (s.closeLinks which) :=
  { Leaves.refl i s with
    pass := fun _ _ _ _ => ⟨rfl, rfl, fun link mem active same =>
      ⟨link, (active_closeLinks mem active).1, active, same, rfl⟩⟩ }

/-- Links are closed in a transaction of its own, and the request ends. -/
theorem outcome_close (valid : s.Valid) (which : Link → Bool)
    (settled : ∀ messenger, s.pollLocks messenger = some i → s.uncounted messenger = 0) :
    Outcome i s ((s.closeLinks which).stop i) := by
  obtain ⟨leaves, valid', knows⟩ := outcome_stop (valid.closeLinks which) settled
  exact ⟨(leaves_closeLinks i s which).trans leaves, valid', knows⟩

/-- A refusal closes no other link than the one it came over. -/
theorem outcome_refused {sentOver : ℕ} {which : Link → Bool} (valid : s.Valid)
    (only : ∀ link ∈ s.links, link.isActive = true → which link = true → link.id = sentOver)
    (settled : ∀ messenger, s.pollLocks messenger = some i → s.uncounted messenger = 0) :
    Outcome i s ((s.closeRefused sentOver which).stop i) := by
  have recorded : (s.closeRefused sentOver which).Valid := by
    refine { valid.closeLinks which with refusals := fun refusal mem => ?_ }
    obtain old | new := List.mem_append.mp mem
    · exact valid.refusals refusal old
    · obtain ⟨link, closes, rfl⟩ := List.mem_map.mp new
      obtain ⟨linkMem, active, meets⟩ : link ∈ s.links ∧ link.isActive = true ∧ which link = true := by
        simpa using closes
      exact only link linkMem active meets
  obtain ⟨leaves, valid', knows⟩ := outcome_stop recorded settled
  have closes : Leaves i s (s.closeRefused sentOver which) := { leaves_closeLinks i s which with }
  exact ⟨closes.trans leaves, valid', knows⟩

/-! ### Codes -/

theorem lockUser_outcome {userId : ℕ} {draws : List ℕ} {startedAt : ℕ} {out : Tables × Point}
    (valid : s.Valid) (idle : ∀ messenger, s.pollLocks messenger ≠ some i)
    (runs : s.lockUser i userId messenger draws startedAt = some out) : Outcome i s out := by
  obtain ⟨userLocks, taken, rfl⟩ := Option.map_eq_some_iff.mp runs
  split_ifs
  · exact outcome_stop valid fun messenger held => absurd held (idle messenger)
  · exact ⟨{ Leaves.refl i s with }, valid.of_locks _ _ _ valid.free, trivial,
      fun messenger held => absurd held (idle messenger)⟩

theorem Tables.Valid.issue (valid : s.Valid) (userId startedAt code : ℕ) (messenger : Messenger) :
    (s.issue userId messenger startedAt code
      (s.codes.filter fun code => !Tables.outdated userId messenger startedAt code)).Valid := by
  set row : LinkCode := ⟨s.nextCode, userId, messenger, code, startedAt + LINK_CODE_TTL⟩ with row_eq
  refine { valid with codeIds := ?_, codesApart := ?_, standing := ?_, codes := ?_, usedOnce := ?_, used := ?_ }
  · intro other mem
    obtain old | new := List.mem_append.mp mem
    · exact (valid.codeIds other (List.mem_filter.mp old).1).trans (Nat.lt_succ_self _)
    · obtain rfl := List.mem_singleton.mp new
      exact Nat.lt_succ_self _
  · refine List.pairwise_append.mpr ⟨valid.codesApart.filter _, List.pairwise_singleton _ _, ?_⟩
    intro other mem new same
    obtain rfl := List.mem_singleton.mp same
    exact (valid.codeIds other (List.mem_filter.mp mem).1).ne
  · intro other mem
    obtain old | new := List.mem_append.mp mem
    · obtain ⟨before, kept⟩ := List.mem_filter.mp old
      refine (valid.standing other before).append fun ends => ?_
      obtain ⟨user, same⟩ : row.userId = other.userId ∧ row.messenger = other.messenger := ends
      simp [Tables.outdated, ← user, ← same, row_eq] at kept
    · obtain rfl := List.mem_singleton.mp new
      exact standing_last
  · exact valid.codes.append trivial
  · refine List.pairwise_append.mpr ⟨valid.usedOnce, List.pairwise_singleton _ _, ?_⟩
    intro event _ new same
    obtain rfl := List.mem_singleton.mp same
    cases event <;> trivial
  · intro used link at_ mem
    obtain old | new := List.mem_append.mp mem
    · obtain ⟨before, apart⟩ := valid.used used link at_ old
      refine ⟨before.trans (Nat.lt_succ_self _), fun other otherMem => ?_⟩
      obtain kept | new := List.mem_append.mp otherMem
      · exact apart other (List.mem_filter.mp kept).1
      · obtain rfl := List.mem_singleton.mp new
        exact before.ne'
    · cases List.mem_singleton.mp new

theorem insertCode_outcome {userId : ℕ} {draws : List ℕ} {startedAt : ℕ} {out : Tables × Point}
    (valid : s.Valid) (idle : ∀ messenger, s.pollLocks messenger ≠ some i)
    (runs : s.insertCode i userId messenger draws startedAt = some out) : Outcome i s out := by
  unfold Tables.insertCode at runs
  split_ifs at runs with waits
  have settled : ∀ messenger, s.pollLocks messenger = some i → s.uncounted messenger = 0 :=
    fun messenger held => absurd held (idle messenger)
  cases drawn : Tables.freeCode (s.codes.filter fun code => !Tables.outdated userId messenger startedAt code)
      messenger draws with
  | none =>
      simp only [drawn] at runs
      obtain rfl := Option.some.inj runs
      exact outcome_stop valid settled
  | some code =>
      simp only [drawn] at runs
      obtain rfl := Option.some.inj runs
      obtain ⟨leaves, valid', knows⟩ := outcome_stop (valid.issue userId startedAt code messenger) settled
      have issues : Leaves i s (s.issue userId messenger startedAt code
          (s.codes.filter fun code => !Tables.outdated userId messenger startedAt code)) := by
        refine { Leaves.refl i s with codes := fun row mem j apart held => ⟨?_, held⟩ }
        -- the row is locked by another request, so it was not in the way
        refine List.mem_append_left _ (List.mem_filter.mpr ⟨mem, ?_⟩)
        by_contra outdated
        refine waits (List.any_eq_true.mpr ⟨row, mem, ?_⟩)
        simp only [Bool.not_eq_true, Bool.not_eq_false'] at outdated
        simp [outdated, held, apart]
      exact ⟨issues.trans leaves, valid', knows⟩

/-! ### A pass over a bot -/

section Pass

variable {update : Update} {rest updates : List Update} {code : LinkCode} {startedAt uncounted : ℕ}

theorem InPass.holds (pass : InPass i s messenger updates uncounted) {point : Point}
    (knows : Knows i s point) : ∀ other, s.pollLocks other = some i → other = messenger := by
  intro other held
  exact Option.some.inj ((knows.holds other held).symm.trans (knows.holds messenger pass.lock))

/-- The update in hand is one of the bot's, and the offset is not past it. -/
theorem InPass.head (pass : InPass i s messenger (update :: rest) uncounted) :
    update ∈ s.inbox messenger ∧ (s.bot messenger).updateOffset ≤ update.id := by
  obtain ⟨later, pending⟩ := pass.pending
  have mem : update ∈ (s.inbox messenger).filter fun update => decide ((s.bot messenger).updateOffset ≤ update.id) := by
    rw [pending]
    exact List.mem_cons_self
  simpa using List.mem_filter.mp mem

/-- A statement of a pass that writes no row. -/
theorem outcome_pass {point next : Point} (valid : s.Valid) (knows : Knows i s point)
    (same : next.polls = point.polls) (rows : KnowsRows i s next) : Outcome i s (s, next) :=
  outcome_go valid ⟨rows, fun messenger held => by rw [same]; exact knows.holds messenger held⟩

/-- A transaction of a pass ends. -/
theorem outcome_endTransaction {point next : Point} (valid : s.Valid) (knows : Knows i s point)
    (same : next.polls = point.polls) (rows : KnowsRows i (s.endTransaction i) next) :
    Outcome i s (s.endTransaction i, next) :=
  ⟨leaves_endTransaction i s, valid.of_locks _ _ _ valid.free, rows,
    fun messenger held => by rw [same]; exact knows.holds messenger held⟩

theorem poll_outcome (valid : s.Valid) (idle : ∀ messenger, s.pollLocks messenger ≠ some i)
    {pollLocks : Locks Messenger ℕ} (taken : s.pollLocks.take i messenger = some pollLocks) :
    Outcome i s ({ s with pollLocks := pollLocks }, .fetching messenger (s.bot messenger).updateOffset) := by
  have free : s.pollLocks messenger = none ∧ pollLocks = Function.update s.pollLocks messenger (some i) := by
    unfold Locks.take at taken
    split_ifs at taken with free
    exact ⟨free.resolve_right (idle messenger), (Option.some.inj taken).symm⟩
  obtain ⟨unlocked, rfl⟩ := free
  have others_of_ne {other : Messenger} (apart : other ≠ messenger) {j : ℕ} :
      Function.update s.pollLocks messenger (some i) other = some j ↔ s.pollLocks other = some j := by
    rw [Function.update_of_ne apart]
  have others : ∀ other j, j ≠ i → (Function.update s.pollLocks messenger (some i) other = some j ↔
      s.pollLocks other = some j) := by
    intro other j apart
    by_cases same : other = messenger
    · subst same
      rw [Function.update_self, unlocked]
      exact ⟨fun held => absurd (Option.some.inj held).symm apart, fun held => by cases held⟩
    · exact others_of_ne same
  refine ⟨{ Leaves.refl i s with polls := others }, ?_, ⟨?_, rfl⟩, ?_⟩
  · refine valid.of_locks _ _ _ fun other unlocked => ?_
    by_cases same : other = messenger
    · subst same
      simp at unlocked
    · rw [Function.update_of_ne same] at unlocked
      exact valid.free other unlocked
  · exact ⟨Function.update_self .., ⟨_, rfl⟩, valid.free messenger unlocked⟩
  · intro other held
    by_cases same : other = messenger
    · rw [same]
      rfl
    · exact absurd ((others_of_ne same).mp held) (idle other)

theorem fetch_outcome {offset limit : ℕ} (valid : s.Valid) (knows : Knows i s (.fetching messenger offset)) :
    Outcome i s (s, .handling messenger (s.updatesFrom messenger offset limit)) := by
  obtain ⟨pass, same⟩ := knows.rows
  refine outcome_pass valid knows rfl ⟨pass.lock, ?_, pass.uncounted⟩
  refine ⟨((s.inbox messenger).filter fun update =>
    (s.bot messenger).updateOffset ≤ update.id).drop limit, ?_⟩
  rw [Tables.updatesFrom, same]
  exact (List.take_append_drop limit _).symm

theorem stopping_outcome (valid : s.Valid) (knows : Knows i s (.stopping messenger update rest)) :
    Outcome i s (s.closeLinks (Tables.ofChat messenger update.chatId), .storing messenger update rest) := by
  obtain ⟨lock, pending, uncounted⟩ := knows.rows
  refine ⟨leaves_closeLinks i s _, valid.closeLinks _, ⟨⟨lock, pending, uncounted⟩, fun _ link mem active same chat => ?_⟩,
    knows.holds⟩
  have open_ := (active_closeLinks mem active).2
  simp [Tables.ofChat, same, chat] at open_

/-- An update that is no stop is passed over. -/
theorem storing_rows (pass : InPass i s messenger (update :: rest) 0) (text : update.text ≠ .stop) :
    KnowsRows i s (.storing messenger update rest) :=
  ⟨pass, fun stop => absurd stop text⟩

theorem inWindow_iff : s.inWindow messenger = true ↔
    ∃ since, (s.bot messenger).wrongCodesSince = some since ∧ s.now < since + WRONG_CODE_WINDOW := by
  rw [Tables.inWindow, Option.any_eq_true]
  exact exists_congr fun since => and_congr_right' decide_eq_true_iff

theorem reading_outcome {text : ℕ} (valid : s.Valid) (knows : Knows i s (.reading messenger update text rest))
    (room : s.botWrongCodes messenger < BOT_WRONG_CODE_LIMIT) :
    Outcome i s (s, .matching messenger update text rest) := by
  obtain ⟨pass, notStop⟩ := knows.rows
  refine outcome_pass valid knows rfl ⟨pass, notStop, fun since same before => ?_⟩
  have within : s.inWindow messenger = true := inWindow_iff.mpr ⟨since, same, before⟩
  simpa [Tables.botWrongCodes, within] using room

theorem Tables.Valid.wrongCode (valid : s.Valid) (uncounted : s.uncounted messenger = 0)
    (notFull : NotFull s messenger) (lock : s.pollLocks messenger = some i) : (s.wrongCode messenger).Valid := by
  refine { valid with counted := fun other => ?_, free := fun other unlocked => ?_ }
  · have counted := valid.counted other
    by_cases same : other = messenger
    · subst same
      rw [uncounted] at counted
      simpa [Tables.wrongCode, uncounted] using counted.tested notFull
    · simpa [Tables.wrongCode, same] using counted
  · by_cases same : other = messenger
    · subst same
      cases unlocked.symm.trans lock
    · simpa [Tables.wrongCode, same] using valid.free other unlocked

/-- A wrong code has been tested, and is counted next. -/
theorem invalid_outcome {point : Point} (valid : s.Valid) (knows : Knows i s point)
    (polls : point.polls = some messenger) (pass : InPass i s messenger (update :: rest) 0)
    (text : update.text ≠ .stop) (notFull : NotFull s messenger) :
    Outcome i s (s.invalid i messenger update rest) := by
  have tests : Leaves i s (s.wrongCode messenger) := by
    refine { Leaves.refl i s with
      pass := fun other j apart held => ⟨rfl, ?_, fun link mem active same => ⟨link, mem, active, same, rfl⟩⟩ }
    have different : other ≠ messenger := by
      rintro rfl
      exact apart (Option.some.inj (held.symm.trans pass.lock))
    exact Function.update_of_ne different _ _
  have valid' := valid.wrongCode pass.uncounted notFull pass.lock
  refine ⟨tests.trans (leaves_endTransaction i _), valid'.of_locks _ _ _ valid'.free, ?_, fun other held => ?_⟩
  · refine ⟨⟨pass.lock, pass.pending, ?_⟩, text, notFull⟩
    show Function.update s.uncounted messenger (s.uncounted messenger + 1) messenger = 1
    rw [Function.update_self, pass.uncounted]
  · show some messenger = some other
    rw [← polls]
    exact knows.holds other held

theorem findCode_outcome {text : ℕ} (valid : s.Valid) (knows : Knows i s (.matching messenger update text rest)) :
    Outcome i s (s.findCode i messenger update text rest) := by
  obtain ⟨pass, notStop, notFull⟩ := knows.rows
  unfold Tables.findCode
  cases found : s.codes.find? (Tables.matches_ messenger text s.now) with
  | none => exact invalid_outcome valid knows rfl pass notStop notFull
  | some row =>
      have meets := List.find?_some found
      simp only [Tables.matches_, Bool.and_eq_true, decide_eq_true_eq] at meets
      exact outcome_pass valid knows rfl ⟨pass, notStop, notFull, meets.1.1, meets.2⟩

theorem lockCodeUser_outcome {out : Tables × Point} (valid : s.Valid)
    (knows : Knows i s (.found messenger update code startedAt rest))
    (runs : s.lockCodeUser i messenger update code startedAt rest = some out) : Outcome i s out := by
  obtain ⟨userLocks, taken, rfl⟩ := Option.map_eq_some_iff.mp runs
  obtain ⟨⟨lock, pending, uncounted⟩, notStop, notFull, known⟩ := knows.rows
  exact ⟨{ Leaves.refl i s with }, valid.of_locks _ _ _ valid.free,
    ⟨⟨lock, pending, uncounted⟩, notStop, notFull, known⟩, knows.holds⟩

theorem lockCode_outcome {out : Tables × Point} (valid : s.Valid)
    (knows : Knows i s (.confirming messenger update code startedAt rest))
    (runs : s.lockCode i messenger update code startedAt rest = some out) : Outcome i s out := by
  obtain ⟨pass, notStop, notFull, same, inTime⟩ := knows.rows
  unfold Tables.lockCode at runs
  by_cases mem : code ∈ s.codes
  · rw [if_pos mem] at runs
    obtain ⟨codeLocks, taken, rfl⟩ := Option.map_eq_some_iff.mp runs
    obtain ⟨lock, pending, uncounted⟩ := pass
    refine ⟨{ Leaves.refl i s with codes := fun row rowMem j apart held => ⟨rowMem, ?_⟩ }, valid.of_locks _ _ _ valid.free, ⟨⟨lock, pending, uncounted⟩, notStop, notFull, same, inTime, mem, ?_⟩,
      knows.holds⟩
    · obtain kept | ⟨-, mine⟩ := Locks.take_keeps taken held
      · exact kept
      · exact absurd mine apart
    · exact Locks.take_self taken
  · rw [if_neg mem] at runs
    obtain rfl := Option.some.inj runs
    exact invalid_outcome valid knows rfl pass notStop notFull

theorem Tables.Valid.useCode (valid : s.Valid) (code : LinkCode) : (s.useCode code).Valid :=
  { valid with
    codeIds := fun row mem => valid.codeIds row (List.mem_filter.mp mem).1
    codesApart := valid.codesApart.filter _
    standing := fun row mem => valid.standing row (List.mem_filter.mp mem).1
    used := fun used link at_ mem =>
      ⟨(valid.used used link at_ mem).1, fun row rowMem =>
        (valid.used used link at_ mem).2 row (List.mem_filter.mp rowMem).1⟩ }

/-- The row that a request has locked goes. -/
theorem leaves_useCode (held : s.codeLocks code.id = some i) : Leaves i s (s.useCode code) := by
  refine { Leaves.refl i s with
    codes := fun row mem j apart others => ⟨List.mem_filter.mpr ⟨mem, ?_⟩, others⟩ }
  simp only [ne_eq, decide_not, Bool.not_eq_true', decide_eq_false_iff_not]
  intro same
  rw [same, held] at others
  exact apart (Option.some.inj others).symm

/-- The new link, with the code used up and the links it replaces closed. -/
theorem Tables.Valid.insertLink (valid : s.Valid) (inTime : startedAt < code.expiresAt)
    (same : code.messenger = messenger) (standing : Standing Ends s.events (.issued code))
    (gone : ∀ row ∈ s.codes, row.id ≠ code.id) (id : code.id < s.nextCode)
    (unused : ∀ event ∈ s.events, ∀ link at_, event ≠ .linked code link at_)
    (closed : ∀ link ∈ s.links, link.isActive = true → Tables.replaced messenger update code link = false)
    (next : (s.bot messenger).updateOffset ≤ update.id) :
    (s.insertLink messenger update code startedAt).Valid := by
  refine { valid with standing := ?_, codes := ?_, usedOnce := ?_, used := ?_, apart := ?_, stops := ?_ }
  · intro row mem
    refine (valid.standing row mem).append fun ends => ?_
    obtain rfl : code = row := ends
    exact gone code mem rfl
  · exact valid.codes.append ⟨standing, inTime, rfl, same.symm⟩
  · refine List.pairwise_append.mpr ⟨valid.usedOnce, List.pairwise_singleton _ _, ?_⟩
    intro event mem new newMem
    obtain rfl := List.mem_singleton.mp newMem
    cases event with
    | issued => trivial
    | linked other link at_ =>
        rintro rfl
        exact unused _ mem link at_ rfl
  · intro used link at_ mem
    obtain old | new := List.mem_append.mp mem
    · exact valid.used used link at_ old
    · cases List.mem_singleton.mp new
      exact ⟨id, gone⟩
  · refine List.pairwise_append.mpr ⟨valid.apart, List.pairwise_singleton _ _, ?_⟩
    intro link mem new newMem active _ sameMessenger
    obtain rfl := List.mem_singleton.mp newMem
    have stays := closed link mem active
    simp only [Tables.replaced, Tables.ofUser, Tables.ofChat] at stays
    dsimp only at sameMessenger
    obtain ⟨otherUser, sameChat⟩ : ¬link.userId = code.userId ∧
        (link.chatId = update.chatId → link.userId = code.userId) := by simpa [sameMessenger] using stays
    exact ⟨otherUser, fun chat => otherUser (sameChat chat)⟩
  · intro link mem active stop stopMem text chat before
    obtain old | new := List.mem_append.mp mem
    · exact valid.stops link old active stop stopMem text chat before
    · obtain rfl := List.mem_singleton.mp new
      exact before.trans_le next

theorem linkChat_outcome (valid : s.Valid) (knows : Knows i s (.linking messenger update code startedAt rest)) :
    Outcome i s (s.linkChat i messenger update code startedAt rest) := by
  obtain ⟨pass, notStop, notFull, same, inTime, mem, held⟩ := knows.rows
  have valid' := valid.useCode code
  have uses := leaves_useCode held
  unfold Tables.linkChat
  split_ifs
  · have knows' : Knows i (s.useCode code) (.matching messenger update 0 rest) :=
      ⟨⟨⟨pass.lock, pass.pending, pass.uncounted⟩, notStop, notFull⟩, knows.holds⟩
    obtain ⟨leaves, valid'', after⟩ := invalid_outcome valid' knows' rfl
      ⟨pass.lock, pass.pending, pass.uncounted⟩ notStop notFull
    exact ⟨uses.trans leaves, valid'', after⟩
  · have closing := valid'.closeLinks (Tables.replaced messenger update code)
    have inserted : (((s.useCode code).closeLinks (Tables.replaced messenger update code)).insertLink
        messenger update code startedAt).Valid := by
      refine closing.insertLink inTime same (valid.standing code mem) (fun row rowMem => ?_)
        (valid.codeIds code mem) (fun event eventMem link at_ => ?_)
        (fun link linkMem active => (active_closeLinks linkMem active).2) pass.head.2
      · simpa using (List.mem_filter.mp rowMem).2
      · rintro rfl
        exact (valid.used code link at_ eventMem).2 code mem rfl
    have inserts : Leaves i ((s.useCode code).closeLinks (Tables.replaced messenger update code))
        (((s.useCode code).closeLinks (Tables.replaced messenger update code)).insertLink
          messenger update code startedAt) := by
      refine { Leaves.refl i _ with pass := fun other j apart others => ⟨rfl, rfl, fun link linkMem active same' => ?_⟩ }
      obtain old | new := List.mem_append.mp linkMem
      · exact ⟨link, old, active, same', rfl⟩
      · obtain rfl := List.mem_singleton.mp new
        obtain rfl : messenger = other := same'
        exact absurd (Option.some.inj (others.symm.trans pass.lock)) apart
    refine ⟨((uses.trans (leaves_closeLinks i _ _)).trans inserts).trans (leaves_endTransaction i _),
      inserted.of_locks _ _ _ inserted.free, ⟨⟨pass.lock, pass.pending, pass.uncounted⟩,
        fun stop => absurd stop notStop⟩, knows.holds⟩

/-- The tested code is counted. -/
theorem counting_outcome (valid : s.Valid) (knows : Knows i s (.counting messenger update rest)) :
    Outcome i s (s.countBotWrongCode messenger, .storing messenger update rest) := by
  obtain ⟨pass, notStop, notFull⟩ := knows.rows
  have rows : ∀ other, other ≠ messenger → (s.countBotWrongCode messenger).bot other = s.bot other ∧
      (s.countBotWrongCode messenger).uncounted other = s.uncounted other ∧
      (s.countBotWrongCode messenger).windows other = s.windows other := by
    intro other apart
    refine ⟨Function.update_of_ne apart _ _, Function.update_of_ne apart _ _, ?_⟩
    show (if s.inWindow messenger then s.windows
      else Function.update s.windows messenger (s.now :: s.windows messenger)) other = _
    split_ifs
    · rfl
    · exact Function.update_of_ne apart _ _
  have counted : CodesCounted s.now ((s.countBotWrongCode messenger).bot messenger) (s.tests messenger) 0
      ((s.countBotWrongCode messenger).windows messenger) := by
    have before := valid.counted messenger
    rw [pass.uncounted] at before
    by_cases within : s.inWindow messenger = true
    · obtain ⟨since, same, inside⟩ : ∃ since, (s.bot messenger).wrongCodesSince = some since ∧
          s.now < since + WRONG_CODE_WINDOW := inWindow_iff.mp within
      simpa [Tables.countBotWrongCode, within] using before.count same inside (notFull since same inside)
    · have ended : ∀ since, (s.bot messenger).wrongCodesSince = some since →
          since + WRONG_CODE_WINDOW ≤ s.now := by
        intro since same
        by_contra before
        exact within (inWindow_iff.mpr ⟨since, same, not_le.mp before⟩)
      simpa [Tables.countBotWrongCode, within] using before.restart ended
  have zero : (s.countBotWrongCode messenger).uncounted messenger = 0 := by
    simp [Tables.countBotWrongCode, pass.uncounted]
  have offset : ((s.countBotWrongCode messenger).bot messenger).updateOffset = (s.bot messenger).updateOffset := by
    simp [Tables.countBotWrongCode]
  refine ⟨{ Leaves.refl i s with pass := fun other j apart held => ?_ }, ?_,
    ⟨⟨⟨pass.lock, ?_, zero⟩, fun stop => absurd stop notStop⟩, knows.holds⟩⟩
  · have different : other ≠ messenger := by
      rintro rfl
      exact apart (Option.some.inj (held.symm.trans pass.lock))
    exact ⟨(rows other different).1, (rows other different).2.1,
      fun link mem active same => ⟨link, mem, active, same, rfl⟩⟩
  · refine { valid with offsets := ?_, stops := ?_, counted := ?_, free := ?_ }
    · intro other
      by_cases same : other = messenger
      · subst same
        rw [offset]
        exact valid.offsets other
      · rw [(rows other same).1]
        exact valid.offsets other
    · intro link mem active stop stopMem text chat before
      refine valid.stops link mem active stop stopMem text chat ?_
      by_cases same : link.messenger = messenger
      · rwa [same, offset, ← same] at before
      · rwa [(rows _ same).1] at before
    · intro other
      by_cases same : other = messenger
      · subst same
        rw [zero]
        exact counted
      · rw [(rows other same).1, (rows other same).2.1, (rows other same).2.2]
        exact valid.counted other
    · intro other unlocked
      by_cases same : other = messenger
      · subst same
        exact zero
      · rw [(rows other same).2.1]
        exact valid.free other unlocked
  · obtain ⟨later, pending⟩ := pass.pending
    exact ⟨later, by rw [offset]; exact pending⟩

/-- The updates of the bot after the one in hand come later. -/
theorem InPass.later (pass : InPass i s messenger (update :: rest) uncounted)
    (sorted : (s.inbox messenger).Pairwise fun update later => update.id < later.id) :
    ∃ later, (s.inbox messenger).filter (fun update => (s.bot messenger).updateOffset ≤ update.id) =
      update :: (rest ++ later) ∧ ∀ other ∈ rest ++ later, update.id < other.id := by
  obtain ⟨later, pending⟩ := pass.pending
  have ordered := sorted.filter fun update => decide ((s.bot messenger).updateOffset ≤ update.id)
  rw [pending, List.cons_append, List.pairwise_cons] at ordered
  exact ⟨later, pending, ordered.1⟩

/-- The updates of a bot are in the order of their ids. -/
theorem le_lastUpdate (sorted : (s.inbox messenger).Pairwise fun update later => update.id < later.id)
    (mem : update ∈ s.inbox messenger) : update.id ≤ s.lastUpdate messenger := by
  obtain ⟨earlier, last, split⟩ := (List.eq_nil_or_concat' (s.inbox messenger)).resolve_left (List.ne_nil_of_mem mem)
  rw [split] at sorted mem
  have same : s.lastUpdate messenger = last.id := by simp [Tables.lastUpdate, split]
  rw [same]
  obtain before | new := List.mem_append.mp mem
  · exact ((List.pairwise_append.mp sorted).2.2 update before last (List.mem_singleton_self _)).le
  · rw [List.mem_singleton.mp new]

/-- The stored offset passes the update; a stop has been carried out. -/
theorem storeOffset_outcome (valid : s.Valid) (knows : Knows i s (.storing messenger update rest)) :
    Outcome i s (s.storeOffset messenger update, .handling messenger rest) := by
  obtain ⟨pass, stopped⟩ := knows.rows
  obtain ⟨later, pending, after⟩ := pass.later (valid.inbox messenger)
  have offset : ((s.storeOffset messenger update).bot messenger).updateOffset = update.id + 1 := by
    have := pass.head.2
    simp only [Tables.storeOffset, Function.update_self]
    omega
  have others : ∀ other, other ≠ messenger → (s.storeOffset messenger update).bot other = s.bot other :=
    fun other apart => Function.update_of_ne apart _ _
  refine ⟨{ Leaves.refl i s with pass := fun other j apart held => ⟨others other ?_, rfl,
    fun link mem active same => ⟨link, mem, active, same, rfl⟩⟩ }, ?_,
    ⟨⟨pass.lock, ⟨later, ?_⟩, pass.uncounted⟩, knows.holds⟩⟩
  · rintro rfl
    exact apart (Option.some.inj (held.symm.trans pass.lock))
  · refine { valid with offsets := ?_, stops := ?_, counted := ?_ }
    · intro other
      by_cases same : other = messenger
      · subst same
        rw [offset]
        exact Nat.succ_le_succ (le_lastUpdate (valid.inbox other) pass.head.1)
      · rw [others other same]
        exact valid.offsets other
    · intro link mem active stop stopMem text chat before
      by_cases same : link.messenger = messenger
      · rw [same] at before stopMem
        rw [offset] at before
        by_cases passed : stop.id < (s.bot messenger).updateOffset
        · exact valid.stops link mem active stop (by rwa [same]) text chat (by rwa [same])
        · -- the stop is the update in hand, and no link of its chat is active
          have inHand : stop ∈ update :: (rest ++ later) := by
            rw [← pending]
            exact List.mem_filter.mpr ⟨stopMem, by simpa using passed⟩
          obtain rfl | further := List.mem_cons.mp inHand
          · exact absurd chat.symm (stopped text link mem active same)
          · have := after stop further
            omega
      · rw [others _ same] at before
        exact valid.stops link mem active stop stopMem text chat before
    · intro other
      by_cases same : other = messenger
      · subst same
        show CodesCounted _ (Function.update s.bot other _ other) _ _ _
        rw [Function.update_self]
        exact (valid.counted other).of_offset _
      · rw [others other same]
        exact valid.counted other
  · have twice : (s.inbox messenger).filter (fun other => decide (update.id + 1 ≤ other.id)) =
        ((s.inbox messenger).filter fun other => decide ((s.bot messenger).updateOffset ≤ other.id)).filter
          fun other => decide (update.id + 1 ≤ other.id) := by
      rw [List.filter_filter]
      refine List.filter_congr fun other _ => ?_
      have := pass.head.2
      rw [← Bool.decide_and, decide_eq_decide]
      omega
    show (s.inbox messenger).filter (fun other =>
      decide (((s.storeOffset messenger update).bot messenger).updateOffset ≤ other.id)) = rest ++ later
    rw [offset, twice, pending, List.filter_cons_of_neg (by simp)]
    exact List.filter_eq_self.mpr fun other mem => by simpa using after other mem

end Pass

/-! ### Messages and runs -/

/-- A new update comes after all others, so no offset is past it. -/
theorem receive_outcome (valid : s.Valid) (chatId skipped : ℕ) (text : Text)
    (idle : ∀ messenger, s.pollLocks messenger ≠ some i) :
    Outcome i s (s.receive messenger chatId text skipped, .ended) := by
  set new : Update := ⟨s.lastUpdate messenger + skipped + 1, chatId, text⟩ with new_eq
  have grown : (s.receive messenger chatId text skipped).inbox messenger = s.inbox messenger ++ [new] :=
    Function.update_self ..
  have others : ∀ other, other ≠ messenger →
      (s.receive messenger chatId text skipped).inbox other = s.inbox other :=
    fun other apart => Function.update_of_ne apart _ _
  have last : (s.receive messenger chatId text skipped).lastUpdate messenger = new.id := by
    simp [Tables.lastUpdate, grown]
  refine ⟨{ Leaves.refl i s with inbox := fun other => ?_ }, ?_, trivial,
    fun other held => absurd held (idle other)⟩
  · by_cases same : other = messenger
    · subst same
      exact ⟨[new], grown.symm⟩
    · rw [others other same]
  · refine { valid with inbox := fun other => ?_, offsets := fun other => ?_, stops := ?_ }
    · by_cases same : other = messenger
      · subst same
        rw [grown]
        refine List.pairwise_append.mpr ⟨valid.inbox other, List.pairwise_singleton _ _, ?_⟩
        intro update mem later laterMem
        obtain rfl := List.mem_singleton.mp laterMem
        exact (Nat.lt_succ_of_le (le_lastUpdate (valid.inbox other) mem)).trans_le (by simp only [new_eq]; omega)
      · rw [others other same]
        exact valid.inbox other
    · by_cases same : other = messenger
      · subst same
        rw [last]
        have := valid.offsets other
        show (s.bot other).updateOffset ≤ _
        simp only [new_eq]
        omega
      · rw [Tables.lastUpdate, others other same]
        exact valid.offsets other
    · intro link mem active update updateMem stop chat before
      by_cases same : link.messenger = messenger
      · rw [same, grown] at updateMem
        obtain old | later := List.mem_append.mp updateMem
        · exact valid.stops link mem active update (by rwa [same]) stop chat before
        · obtain rfl := List.mem_singleton.mp later
          have := valid.offsets link.messenger
          rw [same] at this
          change new.id < (s.bot link.messenger).updateOffset at before
          rw [same, new_eq] at before
          dsimp only at before
          omega
      · rw [others _ same] at updateMem
        exact valid.stops link mem active update updateMem stop chat before

/-! ### Errors -/

theorem Tables.linked_eq_false {chatId : ℕ} {other : Link → Bool}
    (unlinked : s.linked messenger chatId other = false) :
    ∀ link ∈ s.links, link.isActive = true → link.messenger = messenger → link.chatId = chatId →
      other link = false := by
  intro link mem active same chat
  have none := List.any_eq_false.mp unlinked link mem
  simpa [active, Tables.ofChat, same, chat] using none

/-- Requests without the lock of a bot. -/
theorem Knows.idle {point : Point} (knows : Knows i s point) (polls : point.polls = none) :
    ∀ messenger, s.pollLocks messenger ≠ some i := by
  intro messenger held
  cases polls.symm.trans (knows.holds messenger held)

/-- After an error the pass goes on to the offset. A stop that was not carried out had nothing to close. -/
theorem failed_outcome {point : Point} (valid : s.Valid) (knows : Knows i s point)
    (counted : ∀ messenger update rest, point ≠ .counting messenger update rest)
    (stopped : ∀ messenger update rest, point = .stopping messenger update rest →
      s.linked messenger update.chatId (fun _ => true) = false) : Outcome i s (failed i s point) := by
  have settled := settled_of_knows knows counted
  have rows := knows.rows
  cases point with
  | counting => exact absurd rfl (counted _ _ _)
  | stopping messenger update rest =>
      have pass : InPass i s messenger (update :: rest) 0 := rows
      refine outcome_endTransaction valid knows rfl ⟨⟨pass.lock, pass.pending, pass.uncounted⟩, ?_⟩
      intro _ link mem active same chat
      cases Tables.linked_eq_false (stopped _ _ _ rfl) link mem active same chat
  | reading messenger update code rest =>
      obtain ⟨pass, text⟩ := rows
      exact outcome_endTransaction valid knows rfl
        (storing_rows ⟨pass.lock, pass.pending, pass.uncounted⟩ text)
  | matching messenger update code rest | found messenger update code startedAt rest
  | confirming messenger update code startedAt rest | linking messenger update code startedAt rest =>
      obtain ⟨pass, text, -⟩ := rows
      exact outcome_endTransaction valid knows rfl
        (storing_rows ⟨pass.lock, pass.pending, pass.uncounted⟩ text)
  | sent | issuing | inserting | fetching | handling | storing | testing | testRefused | delivering
  | deliveryRefused | ended => exact outcome_stop valid settled

/-! ### Runs -/

theorem statement_outcome {weather : Weather} {point : Point} {out : Tables × Point} (valid : s.Valid)
    (knows : Knows i s point)
    (refused : ∀ link, point = .testRefused link →
      s.linked link.messenger link.chatId (fun other => other.id ≠ link.id) = false)
    (runs : statement i weather s point = some out) : Outcome i s out := by
  have rows := knows.rows
  cases point with
  | sent request =>
      have idle := knows.idle rfl
      have settled : ∀ messenger, s.pollLocks messenger = some i → s.uncounted messenger = 0 :=
        fun messenger held => absurd held (idle messenger)
      have goes : ∀ next, KnowsRows i s next → Outcome i s (s, next) := fun next rows =>
        outcome_go valid ⟨rows, fun messenger held => absurd held (idle messenger)⟩
      cases request with
      | issueLinkCode userId messenger draws =>
          obtain rfl := Option.some.inj runs
          exact goes _ trivial
      | pollMessenger messenger =>
          cases taken : s.pollLocks.take i messenger with
          | none =>
              simp only [statement, taken] at runs
              obtain rfl := Option.some.inj runs
              exact goes _ trivial
          | some pollLocks =>
              simp only [statement, taken] at runs
              obtain rfl := Option.some.inj runs
              exact poll_outcome valid idle taken
      | unlinkMine userId messenger =>
          obtain rfl := Option.some.inj runs
          exact outcome_close valid _ settled
      | sendTestMessage userId messenger =>
          simp only [statement] at runs
          split at runs
          · obtain rfl := Option.some.inj runs
            exact goes _ trivial
          · obtain rfl := Option.some.inj runs
            exact goes _ trivial
      | deliverMessengerJob linkId =>
          simp only [statement] at runs
          split at runs
          · obtain rfl := Option.some.inj runs
            exact goes _ trivial
          · split_ifs at runs
            · obtain rfl := Option.some.inj runs
              exact goes _ trivial
            · obtain rfl := Option.some.inj runs
              exact goes _ trivial
      | write messenger chatId text skipped =>
          obtain rfl := Option.some.inj runs
          exact receive_outcome valid chatId skipped text idle
  | issuing userId messenger draws startedAt => exact lockUser_outcome valid (knows.idle rfl) runs
  | inserting userId messenger draws startedAt => exact insertCode_outcome valid (knows.idle rfl) runs
  | fetching messenger offset =>
      obtain rfl := Option.some.inj runs
      exact fetch_outcome valid knows
  | handling messenger updates =>
      cases updates with
      | nil =>
          obtain rfl := Option.some.inj runs
          exact outcome_stop valid (settled_of_knows knows fun _ _ _ same => by cases same)
      | cons update rest =>
          have pass : InPass i s messenger (update :: rest) 0 := rows
          simp only [statement] at runs
          split at runs
          · obtain rfl := Option.some.inj runs
            exact outcome_pass valid knows rfl pass
          · next text =>
              have notStop : update.text ≠ .stop := by
                rw [text]
                nofun
              split_ifs at runs
              · obtain rfl := Option.some.inj runs
                exact outcome_pass valid knows rfl (storing_rows pass notStop)
              · obtain rfl := Option.some.inj runs
                exact outcome_pass valid knows rfl ⟨pass, notStop⟩
          · next text =>
              have notStop : update.text ≠ .stop := by
                rw [text]
                nofun
              obtain rfl := Option.some.inj runs
              exact outcome_pass valid knows rfl (storing_rows pass notStop)
  | stopping messenger update rest =>
      obtain rfl := Option.some.inj runs
      exact stopping_outcome valid knows
  | reading messenger update code rest =>
      simp only [statement] at runs
      split_ifs at runs with full
      · obtain rfl := Option.some.inj runs
        exact outcome_pass valid knows rfl (storing_rows rows.1 rows.2)
      · obtain rfl := Option.some.inj runs
        exact reading_outcome valid knows (not_le.mp full)
  | matching messenger update code rest =>
      obtain rfl := Option.some.inj runs
      exact findCode_outcome valid knows
  | found messenger update code startedAt rest => exact lockCodeUser_outcome valid knows runs
  | confirming messenger update code startedAt rest => exact lockCode_outcome valid knows runs
  | linking messenger update code startedAt rest =>
      obtain rfl := Option.some.inj runs
      exact linkChat_outcome valid knows
  | counting messenger update rest =>
      obtain rfl := Option.some.inj runs
      exact counting_outcome valid knows
  | storing messenger update rest =>
      obtain rfl := Option.some.inj runs
      exact storeOffset_outcome valid knows
  | testing link | delivering link =>
      obtain rfl := Option.some.inj runs
      refine outcome_go valid ⟨?_, fun messenger held => absurd held (knows.idle rfl messenger)⟩
      split_ifs <;> trivial
  | testRefused link =>
      obtain rfl := Option.some.inj runs
      refine outcome_refused valid (fun other mem active closes => ?_) fun messenger held =>
        absurd held (knows.idle rfl messenger)
      obtain ⟨same, chat⟩ : other.messenger = link.messenger ∧ other.chatId = link.chatId := by
        simpa [Tables.ofChat] using closes
      simpa using Tables.linked_eq_false (refused link rfl) other mem active same chat
  | deliveryRefused link =>
      obtain rfl := Option.some.inj runs
      refine outcome_refused valid (fun other _ _ closes => ?_) fun messenger held =>
        absurd held (knows.idle rfl messenger)
      simpa using closes
  | ended => cases runs

/-- The clock moves. -/
theorem outcome_later {point : Point} (valid : s.Valid) (knows : Knows i s point) (elapsed : ℕ) :
    Outcome i s ({ s with now := s.now + elapsed }, point) := by
  have leaves : ∀ i, Leaves i s { s with now := s.now + elapsed } := fun i =>
    { Leaves.refl i s with now := Nat.le_add_right _ _ }
  have valid' : Tables.Valid { s with now := s.now + elapsed } :=
    { valid with counted := fun messenger => (valid.counted messenger).of_later (Nat.le_add_right _ _) }
  exact ⟨leaves i, valid', knows.of_leaves (Nat.succ_ne_self i).symm (leaves (i + 1))⟩

/-- Requests under the condition. -/
def Reliable (_ : ℕ) (weather : Weather) (s : Tables) (point : Point) : Prop :=
  reliable weather s point = true

instance (i : ℕ) (weather : Weather) (s : Tables) (point : Point) :
    Decidable (Reliable i weather s point) :=
  inferInstanceAs (Decidable (_ = true))

theorem requests_outcome {weather : Weather} {point : Point} {out : Tables × Point} (valid : s.Valid)
    (knows : Knows i s point) (meets : Reliable i weather s point)
    (runs : requests i weather s point = some out) : Outcome i s out := by
  obtain ⟨leaves, valid', knows'⟩ := outcome_later valid knows weather.elapsed
  suffices after : Outcome i { s with now := s.now + weather.elapsed } out from
    ⟨leaves.trans after.leaves, after.valid, after.knows⟩
  have counting : weather.crashes = true ∨ weather.fails = true →
      ∀ messenger update rest, point ≠ .counting messenger update rest := by
    rintro either messenger update rest rfl
    obtain ⟨fails, crashes⟩ : weather.fails = false ∧ weather.crashes = false := by
      simpa [Reliable, reliable] using meets
    simp [fails, crashes] at either
  unfold requests at runs
  dsimp only at runs
  split_ifs at runs with crashes fails
  · obtain rfl := Option.some.inj runs
    exact outcome_stop valid' (settled_of_knows knows' (counting (.inl crashes)))
  · obtain rfl := Option.some.inj runs
    refine failed_outcome valid' knows' (counting (.inr fails)) ?_
    rintro messenger update rest rfl
    show s.linked messenger update.chatId _ = false
    simpa [Reliable, reliable, fails, crashes] using meets
  · refine statement_outcome valid' knows' ?_ runs
    rintro link rfl
    show s.linked link.messenger link.chatId _ = false
    simpa [Reliable, reliable, fails, crashes] using meets

theorem outline : Outline requests Reliable Tables.Valid Knows where
  own valid knows meets runs :=
    have outcome := requests_outcome valid knows meets runs
    ⟨outcome.valid, outcome.knows⟩
  others apart valid knows known meets runs :=
    known.of_leaves apart (requests_outcome valid knows meets runs).leaves

theorem start_holds (isDeleted : ℕ → Bool) (request : ℕ → Request) :
    Holds Tables.Valid Knows (start isDeleted request) := by
  refine ⟨?_, fun i => ⟨trivial, nofun⟩⟩
  exact
    { codeIds := nofun
      codesApart := .nil
      standing := nofun
      codes := justified_nil
      usedOnce := .nil
      used := nofun
      apart := .nil
      refusals := nofun
      inbox := fun _ => .nil
      offsets := fun _ => Nat.zero_le _
      stops := nofun
      counted := fun _ => ⟨nofun, Nat.zero_le _, fun _ => le_rfl, nofun, nofun, nofun, nofun⟩
      free := fun _ _ => rfl }

/-- Where the condition is met, at any moment nobody receives the notices of another user. -/
theorem links_are_safe (isDeleted : ℕ → Bool) (request : ℕ → Request) (schedule : List (ℕ × Weather))
    (meets : requests.Meets Reliable (start isDeleted request) schedule) :
    ∀ n, Safe (requests.after (start isDeleted request) (schedule.take n)).shared := by
  intro n
  exact (outline.after_meets (start_holds isDeleted request) (meets.take n)).shared.safe

/-- Nothing goes wrong. -/
def calm : Weather := ⟨0, false, false, false, 100, .ok⟩

/-- So many statements of request `i` in which nothing goes wrong. -/
def calmly (i statements : ℕ) : List (ℕ × Weather) := List.replicate statements (i, calm)

/-- Two users get a code and send it to the bot from one chat, who is asked for a test message to the first
and then writes «/stop». -/
def twoUsers (i : ℕ) : Request :=
  [.issueLinkCode 1 .bale [5], .issueLinkCode 2 .bale [6], .write .bale 9 (.code 5) 0, .pollMessenger .bale,
    .sendTestMessage 1 .bale, .write .bale 9 (.code 6) 0, .pollMessenger .bale, .write .bale 9 .stop 0,
    .pollMessenger .bale].getD i (.unlinkMine 1 .bale)

/-- The chat is linked to the first user. -/
def firstLinked : List (ℕ × Weather) := calmly 0 3 ++ calmly 1 3 ++ calmly 2 1 ++ calmly 3 10

theorem links_are_safe_linked : Safe (requests.after (start (fun _ => false) twoUsers)
    ((firstLinked ++ calmly 4 1 ++ [(4, { calm with answer := .blocked })] ++ calmly 4 1).take 20)).shared :=
  links_are_safe _ twoUsers _ (by decide +kernel) 20

/-- The test message to the first user is under way while the second one links the chat. -/
def lateRefusal : List (ℕ × Weather) :=
  firstLinked ++ calmly 4 1 ++ calmly 5 1 ++ calmly 6 10 ++ [(4, { calm with answer := .blocked })] ++ calmly 4 1

/-- The links are not closed for the «/stop». -/
def missedStop : List (ℕ × Weather) :=
  firstLinked ++ calmly 7 1 ++ calmly 8 3 ++ [(8, { calm with fails := true })] ++ calmly 8 2

/-- Wrong codes from 31 chats. -/
def guesses (i : ℕ) : Request := if i < 31 then .write .bale i (.code 5) 0 else .pollMessenger .bale

/-- After the first, no code is counted. -/
def uncountedCodes : List (ℕ × Weather) :=
  (List.range 31).flatMap (calmly · 1) ++ calmly 31 7 ++
    (List.replicate 30 (calmly 31 3 ++ [(31, { calm with fails := true })] ++ calmly 31 1)).flatten

theorem links_unsafe :
    ¬Safe (requests.after (start (fun _ => false) twoUsers) lateRefusal).shared ∧
    ¬Safe (requests.after (start (fun _ => false) twoUsers) missedStop).shared ∧
    ¬Safe (requests.after (start (fun _ => false) guesses) uncountedCodes).shared := by
  refine ⟨fun safe => ?_, fun safe => ?_, fun safe => ?_⟩
  · exact absurd (safe.refusals ⟨0, 1⟩ (by decide +kernel)) (by decide)
  · have passed := safe.stops ⟨0, 1, .bale, 9, true, 1⟩ (by decide +kernel) rfl ⟨2, 9, .stop⟩ (by decide +kernel)
      rfl rfl (by decide +kernel)
    exact absurd passed (by decide)
  · exact absurd (safe.wrongCodes .bale 0 (by decide +kernel)) (by decide +kernel)

end PapitalErp.MessengerLinks
